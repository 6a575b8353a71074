import ByteMachine.Instruction.Encoding
import ByteMachine.Machine.Arithmetic
import ByteMachine.Machine.Memory
import ByteMachine.Machine.Processor
import ByteMachine.Source.Program
import ByteMachine.Text.Numeral

/-!
# Execution of single instructions

A step fetches the word at the program counter, decodes it and executes it. The machine halts at the
end of its program, on `hlt` and on a fault. A fault comes with the machine as the instruction has
left it.
-/
namespace ByteMachine

inductive Fault where
  | illegalInstruction (pc word : UInt16)
  | callStackOverflow (pc : UInt16)
  | callStackUnderflow (pc : UInt16)
  deriving DecidableEq, Repr

def Fault.message : Fault → String
  | illegalInstruction pc word =>
    s!"illegal instruction 0x{String.ofList (Text.hex 4 word.toNat)} at address {pc.toNat}"
  | callStackOverflow pc => s!"call stack overflow at address {pc.toNat}"
  | callStackUnderflow pc => s!"return with empty call stack at address {pc.toNat}"

structure Machine where
  processor : Processor := {}
  memory : Memory

/-- The machine after an instruction, or a fault and the machine as it was left. -/
abbrev Effect := Except (Fault × Machine) Machine

/-- What a step came to. A step of a machine that is halted already comes to `halted` too. -/
inductive StepResult where
  | executed
  | halted
  | faulted (fault : Fault)
  deriving DecidableEq, Repr

namespace Machine

def new (source : RandomSource) : Machine := { memory := .new source }

def reset (m : Machine) : Machine := { memory := m.memory.reset }

def isHalted (m : Machine) : Bool := m.processor.isHalted

def halt (m : Machine) : Machine := { m with processor := m.processor.halt }

def read (m : Machine) (r : UInt8) : UInt8 := m.processor.read r

def write (m : Machine) (r value : UInt8) : Machine :=
  { m with processor := m.processor.write r value }

def setFlags (m : Machine) (flags : Flags) : Machine :=
  { m with processor := { m.processor with flags } }

/-- Writes a result to a register and sets the flags by it. -/
def assign (m : Machine) (r : UInt8) (result : Flagged) : Machine :=
  (m.setFlags result.flags).write r result.value

def jump (m : Machine) (address : UInt16) : Machine :=
  { m with processor := { m.processor with pc := address } }

/-- Goes on with the next instruction. -/
def proceed (m : Machine) : Machine := m.jump (m.processor.pc + 1)

/-- The address that a memory instruction means. -/
def effectiveAddress (m : Machine) (base : UInt8) (offset : Int8) : UInt8 :=
  m.read base + offset.toUInt8

def call (m : Machine) (address : UInt16) : Effect :=
  match m.processor.pushReturn (m.processor.pc + 1) with
  | (processor, true) => .ok ({ m with processor }.jump address)
  | (processor, false) => .error (.callStackOverflow m.processor.pc, { m with processor })

def return? (m : Machine) : Effect :=
  match m.processor.popReturn with
  | (processor, some address) => .ok ({ m with processor }.jump address)
  | (processor, none) => .error (.callStackUnderflow m.processor.pc, { m with processor })

/-- The effect of an instruction. The program counter goes on to the next one to execute; on `hlt`
it stays. -/
def execute (m : Machine) : Instruction → Effect
  | ⟨.nop, .none⟩ => .ok m.proceed
  | ⟨.hlt, .none⟩ => .ok m.halt
  | ⟨.add, .regRegReg a b c⟩ => .ok (m.assign c (.sum (m.read a) (m.read b))).proceed
  | ⟨.sub, .regRegReg a b c⟩ => .ok (m.assign c (.difference (m.read a) (m.read b))).proceed
  | ⟨.nor, .regRegReg a b c⟩ => .ok (m.assign c (.bitwise (~~~(m.read a ||| m.read b)))).proceed
  | ⟨.and, .regRegReg a b c⟩ => .ok (m.assign c (.bitwise (m.read a &&& m.read b))).proceed
  | ⟨.xor, .regRegReg a b c⟩ => .ok (m.assign c (.bitwise (m.read a ^^^ m.read b))).proceed
  | ⟨.rsh, .regReg a c⟩ => .ok (m.assign c (.shiftRight (m.read a))).proceed
  | ⟨.lsh, .regReg a c⟩ => .ok (m.assign c (.shiftLeft (m.read a))).proceed
  | ⟨.cmp, .regReg a b⟩ =>
    .ok (m.setFlags (Flagged.difference (m.read a) (m.read b)).flags).proceed
  | ⟨.mov, .regReg a b⟩ => .ok (m.write a (m.read b)).proceed
  | ⟨.inc, .reg a⟩ => .ok (m.assign a (.sum (m.read a) 1)).proceed
  | ⟨.dec, .reg a⟩ => .ok (m.assign a (.difference (m.read a) 1)).proceed
  | ⟨.not, .reg a⟩ => .ok (m.assign a (.bitwise (~~~(m.read a)))).proceed
  | ⟨.neg, .reg a⟩ => .ok (m.assign a (.bitwise (-(m.read a)))).proceed
  | ⟨.ldi, .regImm8 a imm⟩ => .ok (m.write a imm).proceed
  | ⟨.adi, .regImm8 a imm⟩ => .ok (m.assign a (.sum (m.read a) imm)).proceed
  | ⟨.jmp, .addr10 address⟩ => .ok (m.jump address)
  | ⟨.brh, .condAddr10 cond address⟩ =>
    .ok (if cond.holds m.processor.flags then m.jump address else m.proceed)
  | ⟨.cal, .addr10 address⟩ => m.call address
  | ⟨.ret, .none⟩ => m.return?
  | ⟨.lod, .regRegOffset a b offset⟩ =>
    let (value, memory) := m.memory.load (m.effectiveAddress b offset)
    .ok ({ m with memory }.write a value).proceed
  | ⟨.str, .regRegOffset a b offset⟩ =>
    .ok { m with memory := m.memory.store (m.effectiveAddress b offset) (m.read a) }.proceed

/-- Records that the instruction at an address has been executed. -/
def count (m : Machine) (address : UInt16) : Machine :=
  { m with processor :=
    { m.processor with executed := m.processor.executed + 1, last := some address } }

def step (program : Program) (m : Machine) : Machine × StepResult :=
  if m.isHalted then (m, .halted)
  else
    let pc := m.processor.pc
    match program.word? pc.toNat with
    | none => (m.halt, .halted)
    | some word =>
      match Instruction.decode word with
      | .error _ =>
        (m.halt, .faulted (.illegalInstruction pc word))
      | .ok instruction =>
        match m.execute instruction with
        | .error (fault, m) => (m.halt, .faulted fault)
        | .ok m => (m.count pc, if m.isHalted then .halted else .executed)

end Machine
end ByteMachine
