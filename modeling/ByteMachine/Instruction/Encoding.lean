import ByteMachine.Instruction.Basic

/-!
# Instruction words

An instruction word has the opcode in its upper bits and the operand fields of the mnemonic's shape
in the lower ones. Encoding refuses a field that is too wide for its place. Decoding refuses an
extension that no mnemonic has, and any set bit that the shape leaves unused.
-/
namespace ByteMachine

inductive EncodeError where
  | register
  | address
  | offset
  deriving DecidableEq, Repr

def EncodeError.message : EncodeError → String
  | register => "register out of range"
  | address => "address out of 10-bit range"
  | offset => "offset out of 4-bit signed range"

inductive DecodeError where
  | undefinedExtension
  | reservedBits
  | mismatchedOperands
  deriving DecidableEq, Repr

def DecodeError.message : DecodeError → String
  | undefinedExtension => "undefined group extension"
  | reservedBits => "reserved bits set"
  | mismatchedOperands => "operands do not match mnemonic"

def registerField (r : UInt8) : Except EncodeError Nat :=
  if r.toNat < 16 then .ok r.toNat else .error .register

def addressField (a : UInt16) : Except EncodeError Nat :=
  if a.toNat < programLimit then .ok a.toNat else .error .address

/-- A signed nibble in two's complement. -/
def offsetField (o : Int8) : Except EncodeError Nat :=
  if -8 ≤ o.toInt ∧ o.toInt ≤ 7 then .ok (o.toInt % 16).toNat else .error .offset

/-- The lowest four bits of a word. -/
def lowNibble (n : Nat) : UInt8 := UInt8.ofNat (n % 0x10)

def middleNibble (n : Nat) : UInt8 := UInt8.ofNat (n / 0x10 % 0x10)

def highNibble (n : Nat) : UInt8 := UInt8.ofNat (n / 0x100 % 0x10)

/-- The lowest four bits of a word in two's complement. -/
def signedNibble (n : Nat) : Int8 := Int8.ofInt (Int.bmod n 0x10)

def addressOf (n : Nat) : UInt16 := UInt16.ofNat (n % programLimit)

namespace Operands

/-- The bits of a word below its opcode. A lone register and a register pair stand in the low byte,
because the mnemonics that take them have an extension. -/
def fields : {shape : Shape} → Operands shape → Except EncodeError Nat
  | _, none => .ok 0
  | _, reg a => do
    let a ← registerField a
    return a * 0x10
  | _, regReg a b => do
    let a ← registerField a
    let b ← registerField b
    return a * 0x10 + b
  | _, regRegReg a b c => do
    let a ← registerField a
    let b ← registerField b
    let c ← registerField c
    return a * 0x100 + b * 0x10 + c
  | _, regImm8 a imm => do
    let a ← registerField a
    return a * 0x100 + imm.toNat
  | _, addr10 addr => addressField addr
  | _, condAddr10 cond addr => do
    let addr ← addressField addr
    return cond.bits * programLimit + addr
  | _, regRegOffset a b offset => do
    let a ← registerField a
    let b ← registerField b
    let offset ← offsetField offset
    return a * 0x100 + b * 0x10 + offset

/-- The operands that a word holds, and whether the bits that the shape leaves unused are clear. -/
def ofWord (n : Nat) : (shape : Shape) → Operands shape × Bool
  | .none => (none, n % 0x1000 = 0)
  | .reg => (reg (middleNibble n), n % 0x10 = 0)
  | .regReg => (regReg (middleNibble n) (lowNibble n), true)
  | .regRegReg => (regRegReg (highNibble n) (middleNibble n) (lowNibble n), true)
  | .regImm8 => (regImm8 (highNibble n) (UInt8.ofNat n), true)
  | .addr10 => (addr10 (addressOf n), n % 0x1000 / programLimit = 0)
  | .condAddr10 => (condAddr10 (Condition.ofBits (n / programLimit)) (addressOf n), true)
  | .regRegOffset => (regRegOffset (highNibble n) (middleNibble n) (signedNibble n), true)

end Operands

def Instruction.encode (i : Instruction) : Except EncodeError UInt16 := do
  let (m, ⟨_, operands⟩) := i.split
  let fields ← operands.fields
  return UInt16.ofNat (m.opcode.head + fields)

def Opcode.ofWord (n : Nat) : Opcode :=
  let major := n / 0x1000
  ⟨major, if major = groupMajor then some (n / 0x100 % 0x10) else none⟩

def Instruction.decode (word : UInt16) : Except DecodeError Instruction :=
  match Mnemonic.ofOpcode? (Opcode.ofWord word.toNat) with
  | none => .error .undefinedExtension
  | some m =>
    let (operands, unusedClear) := Operands.ofWord word.toNat m.shape
    if unusedClear then
      match build? m ⟨_, operands⟩ with
      | some i => .ok i
      | none => .error .mismatchedOperands
    else .error .reservedBits

end ByteMachine
