import ByteMachine.Instruction.Encoding
import ByteMachine.Text.Numeral

/-!
# Words as source text

Each instruction has one written form, which the assembler reads back. The byte of `adi` is written
with a sign because it is added, and an offset of zero is left out.
-/
namespace ByteMachine

def registerName (r : UInt8) : Text := 'r' :: Text.decimal r.toNat

/-- The operands of a mnemonic, one word each. -/
def Operands.tokens (m : Mnemonic) : {shape : Shape} → Operands shape → List Text
  | _, none => []
  | _, reg a => [registerName a]
  | _, regReg a b => [registerName a, registerName b]
  | _, regRegReg a b c => [registerName a, registerName b, registerName c]
  | _, regImm8 a imm =>
    [registerName a, if m = .adi then Text.signed imm.toInt8.toInt else Text.decimal imm.toNat]
  | _, addr10 addr => [Text.decimal addr.toNat]
  | _, condAddr10 cond addr => [cond.name.toList, Text.decimal addr.toNat]
  | _, regRegOffset a b offset =>
    [registerName a, registerName b] ++ if offset = 0 then [] else [Text.signed offset.toInt]

def Instruction.text (i : Instruction) : Text :=
  [' '].intercalate (i.mnemonic.name.toList :: i.operands.tokens i.mnemonic)

/-- The text of any word, so that a listing can show words that are no instruction. -/
def wordText (word : UInt16) : Text :=
  match Instruction.decode word with
  | .ok i => i.text
  | .error _ => "invalid opcode".toList

def wordBits (word : UInt16) : Text := Text.binary 16 word.toNat

end ByteMachine
