import ByteMachine.Text.Basic

/-!
# Mnemonics

The twenty-three operations of the machine. Each has a name, an opcode and a shape, which says what
operands follow the name in source text. The opcode is a major number for the top four bits of a
word; eight operations share one major number and are told apart by an extension in the next four.
-/
namespace ByteMachine

inductive Shape where
  | none
  | reg
  | regReg
  | regRegReg
  | regImm8
  | addr10
  | condAddr10
  | regRegOffset
  deriving DecidableEq, Repr

def Shape.usage : Shape → String
  | .none => "no operands"
  | .reg => "'rA'"
  | .regReg => "'rA rB'"
  | .regRegReg => "'rA rB rC'"
  | .regImm8 => "'rA imm8'"
  | .addr10 => "'address'"
  | .condAddr10 => "'condition address'"
  | .regRegOffset => "'rA rB [offset]'"

inductive Mnemonic where
  | nop | hlt
  | add | sub | nor | and | xor
  | rsh | lsh
  | ldi | adi
  | jmp | brh | cal | ret
  | lod | str
  | cmp | mov
  | inc | dec | not | neg
  deriving DecidableEq, Repr

structure Opcode where
  major : Nat
  extension : Option Nat
  deriving DecidableEq, Repr

/-- The bits of a word that its opcode fixes. -/
def Opcode.head (o : Opcode) : Nat := o.major * 0x1000 + o.extension.getD 0 * 0x100

/-- The major number that eight operations share. -/
def groupMajor : Nat := 7

namespace Mnemonic

def all : List Mnemonic :=
  [nop, hlt, add, sub, nor, and, xor, rsh, lsh, ldi, adi, jmp, brh, cal, ret, lod, str, cmp, mov,
    inc, dec, not, neg]

def name : Mnemonic → String
  | nop => "nop"
  | hlt => "hlt"
  | add => "add"
  | sub => "sub"
  | nor => "nor"
  | and => "and"
  | xor => "xor"
  | rsh => "rsh"
  | lsh => "lsh"
  | ldi => "ldi"
  | adi => "adi"
  | jmp => "jmp"
  | brh => "brh"
  | cal => "cal"
  | ret => "ret"
  | lod => "lod"
  | str => "str"
  | cmp => "cmp"
  | mov => "mov"
  | inc => "inc"
  | dec => "dec"
  | not => "not"
  | neg => "neg"

def opcode : Mnemonic → Opcode
  | nop => ⟨0x0, none⟩
  | hlt => ⟨0x1, none⟩
  | add => ⟨0x2, none⟩
  | sub => ⟨0x3, none⟩
  | nor => ⟨0x4, none⟩
  | and => ⟨0x5, none⟩
  | xor => ⟨0x6, none⟩
  | rsh => ⟨groupMajor, some 0x0⟩
  | lsh => ⟨groupMajor, some 0x1⟩
  | cmp => ⟨groupMajor, some 0x2⟩
  | mov => ⟨groupMajor, some 0x3⟩
  | inc => ⟨groupMajor, some 0x4⟩
  | dec => ⟨groupMajor, some 0x5⟩
  | not => ⟨groupMajor, some 0x6⟩
  | neg => ⟨groupMajor, some 0x7⟩
  | ldi => ⟨0x8, none⟩
  | adi => ⟨0x9, none⟩
  | jmp => ⟨0xA, none⟩
  | brh => ⟨0xB, none⟩
  | cal => ⟨0xC, none⟩
  | ret => ⟨0xD, none⟩
  | lod => ⟨0xE, none⟩
  | str => ⟨0xF, none⟩

def shape : Mnemonic → Shape
  | nop | hlt | ret => .none
  | add | sub | nor | and | xor => .regRegReg
  | rsh | lsh | cmp | mov => .regReg
  | inc | dec | not | neg => .reg
  | ldi | adi => .regImm8
  | jmp | cal => .addr10
  | brh => .condAddr10
  | lod | str => .regRegOffset

def ofName? (name : String) : Option Mnemonic := all.find? fun m => m.name == name

/-- The mnemonic that a word of source text names, in any letter case. -/
def ofToken? (token : Text) : Option Mnemonic :=
  all.find? fun m => token.sameFolded m.name.toList

def ofOpcode? (o : Opcode) : Option Mnemonic :=
  all.find? fun m => m.opcode = o

theorem mem_all (m : Mnemonic) : m ∈ all := by cases m <;> decide

theorem ofOpcode?_opcode (m : Mnemonic) : ofOpcode? m.opcode = some m := by cases m <;> decide

theorem ofToken?_name (m : Mnemonic) : ofToken? m.name.toList = some m := by cases m <;> decide

theorem eq_opcode_of_ofOpcode? {o : Opcode} {m : Mnemonic} (h : ofOpcode? o = some m) :
    m.opcode = o := by
  simpa using List.find?_some h

end Mnemonic
end ByteMachine
