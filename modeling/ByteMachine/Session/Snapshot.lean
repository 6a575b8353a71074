import ByteMachine.Instruction.Listing
import ByteMachine.Machine.Run

/-!
# Views of a machine

A snapshot holds what can be seen of a machine at one moment. A listing has a row for every word of
the program, with marks for the current address and for breakpoints.
-/
namespace ByteMachine

structure Snapshot where
  pc : UInt16
  instructions : Nat
  programLength : Nat
  halted : Bool
  registers : List UInt8
  flags : Flags
  memory : List UInt8
  /-- Return addresses, the outermost call first. -/
  callStack : List UInt16
  numberDisplay : Option Int
  charBuffer : String
  pendingChars : String
  /-- The registers that are not zero. -/
  outputs : List String
  pixelX : Coordinate
  pixelY : Coordinate
  signedMode : Bool
  screen : List (List Bool)
  fault : Option String
  stopReason : Option StopReason
  lastInstruction : Option String
  deriving DecidableEq

structure ListingRow where
  address : Nat
  text : Text
  bits : Text
  current : Bool
  breakpoint : Bool
  deriving DecidableEq, Repr

def Processor.visibleRegisters (p : Processor) : List UInt8 :=
  (List.range 16).map fun i => p.read (UInt8.ofNat i)

def outputsOf (registers : List UInt8) : List String :=
  (registers.zipIdx.filter fun (v, _) => v != 0).map fun (v, i) => s!"r{i} = {v}"

def Machine.snapshot (m : Machine) (program : Program) (fault : Option Fault)
    (stop : Option StopReason) : Snapshot :=
  let p := m.processor
  let d := m.memory.devices
  { pc := p.pc
    instructions := p.executed
    programLength := program.size
    halted := p.isHalted
    registers := p.visibleRegisters
    flags := p.flags
    memory := m.memory.cells.toList
    callStack := p.calls.reverse
    numberDisplay := d.numberShown
    charBuffer := d.shown
    pendingChars := d.pending
    outputs := outputsOf p.visibleRegisters
    pixelX := d.cursorX
    pixelY := d.cursorY
    signedMode := d.isSigned
    screen := d.visible.rows
    fault := fault.map Fault.message
    stopReason := stop
    lastInstruction :=
      (p.last.bind fun a => program.word? a.toNat).map fun w => String.ofList (wordText w) }

def Program.listing (program : Program) (pc : Nat) (breakpoints : Breakpoints) : List ListingRow :=
  program.words.toList.zipIdx.map fun (word, address) =>
    { address
      text := wordText word
      bits := wordBits word
      current := address == pc
      breakpoint := breakpoints.contains address }

end ByteMachine
