import ByteMachine.Instruction.Condition
import ByteMachine.Instruction.Mnemonic

/-!
# Instructions

An instruction is a mnemonic with operands of its shape, so operands that do not fit the mnemonic
cannot be written down. Operand fields are as wide as the machine's words; which values have a place
in an instruction word is the matter of the encoding.
-/
namespace ByteMachine

/-- Words of machine code that a program may hold. -/
def programLimit : Nat := 1024

inductive Operands : Shape → Type where
  | none : Operands .none
  | reg (a : UInt8) : Operands .reg
  | regReg (a b : UInt8) : Operands .regReg
  | regRegReg (a b c : UInt8) : Operands .regRegReg
  | regImm8 (a imm : UInt8) : Operands .regImm8
  | addr10 (addr : UInt16) : Operands .addr10
  | condAddr10 (cond : Condition) (addr : UInt16) : Operands .condAddr10
  | regRegOffset (a b : UInt8) (offset : Int8) : Operands .regRegOffset
  deriving DecidableEq, Repr

structure Instruction where
  mnemonic : Mnemonic
  operands : Operands mnemonic.shape
  deriving DecidableEq, Repr

/-- Operands of any shape, as they arrive from outside. -/
abbrev AnyOperands := (shape : Shape) × Operands shape

namespace Instruction

def split (i : Instruction) : Mnemonic × AnyOperands := (i.mnemonic, ⟨_, i.operands⟩)

/-- The instruction of a mnemonic, if it takes the operands. -/
def build? : Mnemonic → AnyOperands → Option Instruction
  | .nop, ⟨_, .none⟩ => some ⟨.nop, .none⟩
  | .hlt, ⟨_, .none⟩ => some ⟨.hlt, .none⟩
  | .ret, ⟨_, .none⟩ => some ⟨.ret, .none⟩
  | .add, ⟨_, .regRegReg a b c⟩ => some ⟨.add, .regRegReg a b c⟩
  | .sub, ⟨_, .regRegReg a b c⟩ => some ⟨.sub, .regRegReg a b c⟩
  | .nor, ⟨_, .regRegReg a b c⟩ => some ⟨.nor, .regRegReg a b c⟩
  | .and, ⟨_, .regRegReg a b c⟩ => some ⟨.and, .regRegReg a b c⟩
  | .xor, ⟨_, .regRegReg a b c⟩ => some ⟨.xor, .regRegReg a b c⟩
  | .rsh, ⟨_, .regReg a c⟩ => some ⟨.rsh, .regReg a c⟩
  | .lsh, ⟨_, .regReg a c⟩ => some ⟨.lsh, .regReg a c⟩
  | .cmp, ⟨_, .regReg a b⟩ => some ⟨.cmp, .regReg a b⟩
  | .mov, ⟨_, .regReg a b⟩ => some ⟨.mov, .regReg a b⟩
  | .inc, ⟨_, .reg a⟩ => some ⟨.inc, .reg a⟩
  | .dec, ⟨_, .reg a⟩ => some ⟨.dec, .reg a⟩
  | .not, ⟨_, .reg a⟩ => some ⟨.not, .reg a⟩
  | .neg, ⟨_, .reg a⟩ => some ⟨.neg, .reg a⟩
  | .ldi, ⟨_, .regImm8 a imm⟩ => some ⟨.ldi, .regImm8 a imm⟩
  | .adi, ⟨_, .regImm8 a imm⟩ => some ⟨.adi, .regImm8 a imm⟩
  | .jmp, ⟨_, .addr10 addr⟩ => some ⟨.jmp, .addr10 addr⟩
  | .cal, ⟨_, .addr10 addr⟩ => some ⟨.cal, .addr10 addr⟩
  | .brh, ⟨_, .condAddr10 cond addr⟩ => some ⟨.brh, .condAddr10 cond addr⟩
  | .lod, ⟨_, .regRegOffset a b offset⟩ => some ⟨.lod, .regRegOffset a b offset⟩
  | .str, ⟨_, .regRegOffset a b offset⟩ => some ⟨.str, .regRegOffset a b offset⟩
  | _, _ => none

/-- Building undoes splitting, and whatever is built splits back. -/
theorem build?_eq_some_iff (m : Mnemonic) (ops : AnyOperands) (i : Instruction) :
    build? m ops = some i ↔ i.split = (m, ops) := by
  constructor
  · intro h
    obtain ⟨shape, operands⟩ := ops
    cases m <;> cases operands <;> cases h <;> rfl
  · intro h
    obtain ⟨rfl, rfl⟩ := Prod.mk.inj h
    obtain ⟨m, operands⟩ := i
    cases m <;> cases operands <;> rfl

theorem build?_mk (m : Mnemonic) (operands : Operands m.shape) :
    build? m ⟨m.shape, operands⟩ = some ⟨m, operands⟩ :=
  (build?_eq_some_iff m ⟨m.shape, operands⟩ ⟨m, operands⟩).mpr rfl

end Instruction
end ByteMachine
