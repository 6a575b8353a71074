import ByteMachine.Proofs.InstructionWords
import Mathlib.Algebra.Group.Nat.Defs

/-!
# The layout of instruction words

The opcode takes the top four bits of a word, and the next four if it has an extension. The operands
of a shape have their places below it. A word is no instruction exactly when its extension belongs
to no mnemonic, or when a bit is set where its mnemonic has neither opcode nor operand. Together
with the words of instructions this says what encoding and decoding accept, and that they are
inverse to each other.
-/
namespace ByteMachine

/-- Neighbouring bits of a word, counted from the lowest one. -/
structure BitField where
  low : Nat
  width : Nat
  deriving DecidableEq, Repr

namespace BitField

def Covers (f : BitField) (bit : Nat) : Prop := f.low ≤ bit ∧ bit < f.low + f.width

instance (f : BitField) (bit : Nat) : Decidable (f.Covers bit) :=
  inferInstanceAs (Decidable (_ ∧ _))

def value (f : BitField) (n : Nat) : Nat := n / 2 ^ f.low % 2 ^ f.width

theorem testBit_value (f : BitField) (n bit : Nat) :
    (f.value n).testBit bit = (decide (bit < f.width) && n.testBit (bit + f.low)) := by
  rw [value, Nat.testBit_mod_two_pow, Nat.testBit_div_two_pow]

theorem value_eq_zero_iff (f : BitField) (n : Nat) :
    f.value n = 0 ↔ ∀ bit, f.Covers bit → n.testBit bit = false := by
  constructor
  · rintro hzero bit ⟨hlow, hhigh⟩
    have hbit := f.testBit_value n (bit - f.low)
    have hwidth : bit - f.low < f.width := by omega
    rw [hzero, Nat.zero_testBit, Nat.sub_add_cancel hlow, decide_eq_true hwidth,
      Bool.true_and] at hbit
    exact hbit.symm
  · intro hclear
    apply Nat.eq_of_testBit_eq
    intro bit
    rw [testBit_value, Nat.zero_testBit]
    by_cases hwidth : bit < f.width
    · rw [hclear (bit + f.low) ⟨by omega, by omega⟩, Bool.and_false]
    · rw [decide_eq_false hwidth, Bool.false_and]

end BitField

def Shape.layout : Shape → List BitField
  | .none => []
  | .reg => [⟨4, 4⟩]
  | .regReg => [⟨4, 4⟩, ⟨0, 4⟩]
  | .regRegReg => [⟨8, 4⟩, ⟨4, 4⟩, ⟨0, 4⟩]
  | .regImm8 => [⟨8, 4⟩, ⟨0, 8⟩]
  | .addr10 => [⟨0, 10⟩]
  | .condAddr10 => [⟨10, 2⟩, ⟨0, 10⟩]
  | .regRegOffset => [⟨8, 4⟩, ⟨4, 4⟩, ⟨0, 4⟩]

def Opcode.layout (o : Opcode) : List BitField :=
  ⟨12, 4⟩ :: if o.extension.isSome then [⟨8, 4⟩] else []

/-- The bits that the operands of a shape leave between them and the opcode. -/
def Shape.gap : Shape → BitField
  | .none => ⟨0, 12⟩
  | .reg => ⟨0, 4⟩
  | .addr10 => ⟨10, 2⟩
  | _ => ⟨0, 0⟩

namespace Mnemonic

def Heads (m : Mnemonic) (w : UInt16) : Prop :=
  w.toNat / 0x1000 = m.opcode.major ∧ ∀ x ∈ m.opcode.extension, w.toNat / 0x100 % 0x10 = x

def Unused (m : Mnemonic) (bit : Nat) : Prop :=
  bit < 16 ∧ ∀ f ∈ m.opcode.layout ++ m.shape.layout, ¬ f.Covers bit

theorem unused_iff (m : Mnemonic) (bit : Nat) : m.Unused bit ↔ m.shape.gap.Covers bit := by
  cases m <;>
    simp [Unused, opcode, shape, Opcode.layout, Shape.layout, Shape.gap, BitField.Covers] <;>
    omega

/-- The mnemonics that have an extension are those of the shared major number. -/
theorem isSome_extension_iff (m : Mnemonic) :
    m.opcode.extension.isSome = true ↔ m.opcode.major = groupMajor := by
  cases m <;> decide

theorem heads_iff_ofWord (m : Mnemonic) (w : UInt16) :
    m.Heads w ↔ Opcode.ofWord w.toNat = m.opcode := by
  have hgroup := m.isSome_extension_iff
  unfold Heads Opcode.ofWord
  generalize m.opcode = o at hgroup ⊢
  obtain ⟨major, extension⟩ := o
  cases extension with
  | none =>
    have hne : major ≠ groupMajor := by simpa using hgroup
    have hsome (h : w.toNat / 0x1000 = major) : w.toNat / 0x1000 ≠ groupMajor := h ▸ hne
    simpa using hsome
  | some x =>
    obtain rfl : major = groupMajor := hgroup.mp rfl
    simp +contextual

theorem heads_iff (m : Mnemonic) (w : UInt16) :
    m.Heads w ↔ ofOpcode? (Opcode.ofWord w.toNat) = some m := by
  rw [heads_iff_ofWord]
  constructor
  · intro h
    rw [h, ofOpcode?_opcode]
  · intro h
    exact (eq_opcode_of_ofOpcode? h).symm

/-- The opcodes are all but those of the extensions from eight on. -/
theorem ofOpcode?_eq_none_iff : ∀ major < 16, ∀ extension < 16,
    (ofOpcode? ⟨major, if major = groupMajor then some extension else none⟩ = none ↔
      major = groupMajor ∧ 8 ≤ extension) := by
  decide

end Mnemonic

theorem Operands.ofWord_snd_iff (n : Nat) (shape : Shape) :
    (ofWord n shape).2 = true ↔ shape.gap.value n = 0 := by
  cases shape <;> simp [ofWord, Shape.gap, BitField.value, programLimit, Nat.mod_one]
  omega

namespace Instruction

theorem decode_eq_undefinedExtension_iff (w : UInt16) :
    decode w = .error .undefinedExtension ↔
      w.toNat / 0x1000 = groupMajor ∧ 8 ≤ w.toNat / 0x100 % 0x10 := by
  have hword := w.toNat_lt
  rw [← Mnemonic.ofOpcode?_eq_none_iff (w.toNat / 0x1000) (by omega) (w.toNat / 0x100 % 0x10)
    (by omega), decode_eq]
  constructor
  · intro h
    split at h
    · assumption
    · split at h <;> cases h
  · intro h
    have hnone : Mnemonic.ofOpcode? (Opcode.ofWord w.toNat) = none := h
    rw [hnone]

theorem decode_eq_reservedBits_iff (w : UInt16) :
    decode w = .error .reservedBits ↔
      ∃ m : Mnemonic, m.Heads w ∧ ∃ bit, m.Unused bit ∧ w.toNat.testBit bit = true := by
  have hclear (m : Mnemonic) : (Operands.ofWord w.toNat m.shape).2 = false ↔
      ∃ bit, m.Unused bit ∧ w.toNat.testBit bit = true := by
    rw [← Bool.not_eq_true, Operands.ofWord_snd_iff, BitField.value_eq_zero_iff]
    simp [Mnemonic.unused_iff]
  simp only [Mnemonic.heads_iff, ← hclear, decode_eq]
  constructor
  · intro h
    split at h
    · cases h
    · rename_i m hm
      refine ⟨m, hm, ?_⟩
      split at h
      · cases h
      · rename_i hunused
        exact eq_false_of_ne_true hunused
  · rintro ⟨m, hm, hunused⟩
    simp [hm, hunused]

/-- Encoding succeeds for operands that fit, and decoding fails for unknown extensions and for
unused bits that are set. Where one of them succeeds the other gives back what it was given. -/
theorem codec_exact (i : Instruction) (w : UInt16) :
    ((∃ w', i.encode = .ok w') ↔ i.operands.Fits) ∧
      (i.encode = .ok w ↔ decode w = .ok i) ∧
      ((∃ e, decode w = .error e) ↔
        (w.toNat / 0x1000 = groupMajor ∧ 8 ≤ w.toNat / 0x100 % 0x10) ∨
          ∃ m : Mnemonic, m.Heads w ∧ ∃ bit, m.Unused bit ∧ w.toNat.testBit bit = true) := by
  refine ⟨?_, encode_eq_ok_iff_decode i w, ?_⟩
  · constructor
    · rintro ⟨w', hencode⟩
      exact ((encode_eq_ok_iff i w').mp hencode).1
    · exact exists_encode_of_fits
  · rw [← decode_eq_undefinedExtension_iff, ← decode_eq_reservedBits_iff]
    constructor
    · rintro ⟨e, he⟩
      cases e with
      | undefinedExtension => exact .inl he
      | reservedBits => exact .inr he
      | mismatchedOperands => exact absurd he (decode_ne_mismatchedOperands w)
    · rintro (h | h)
      · exact ⟨_, h⟩
      · exact ⟨_, h⟩

end Instruction
end ByteMachine
