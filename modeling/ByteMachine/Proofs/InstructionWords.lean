import ByteMachine.Instruction.Encoding

/-!
# Instructions and their words

An instruction has a word exactly when its operand fields fit their places. The word is then the
head of the opcode plus the packed fields, and decoding accepts exactly the words of this form. So
encoding and decoding are inverse to each other wherever one of them succeeds.
-/
namespace ByteMachine

def Shape.span : Shape → Nat
  | .reg | .regReg => 0x100
  | _ => 0x1000

namespace Operands

def Fits : {shape : Shape} → Operands shape → Prop
  | _, none => True
  | _, reg a => a.toNat < 16
  | _, regReg a b => a.toNat < 16 ∧ b.toNat < 16
  | _, regRegReg a b c => a.toNat < 16 ∧ b.toNat < 16 ∧ c.toNat < 16
  | _, regImm8 a _ => a.toNat < 16
  | _, addr10 addr => addr.toNat < programLimit
  | _, condAddr10 _ addr => addr.toNat < programLimit
  | _, regRegOffset a b offset =>
    a.toNat < 16 ∧ b.toNat < 16 ∧ -8 ≤ offset.toInt ∧ offset.toInt ≤ 7

/-- The bits of a word below its opcode, for operands that fit. -/
def packed : {shape : Shape} → Operands shape → Nat
  | _, none => 0
  | _, reg a => a.toNat * 0x10
  | _, regReg a b => a.toNat * 0x10 + b.toNat
  | _, regRegReg a b c => a.toNat * 0x100 + b.toNat * 0x10 + c.toNat
  | _, regImm8 a imm => a.toNat * 0x100 + imm.toNat
  | _, addr10 addr => addr.toNat
  | _, condAddr10 cond addr => cond.bits * programLimit + addr.toNat
  | _, regRegOffset a b offset =>
    a.toNat * 0x100 + b.toNat * 0x10 + (offset.toInt % 16).toNat

end Operands

theorem bind_eq_ok_iff {ε α β : Type} (x : Except ε α) (f : α → Except ε β) (b : β) :
    x >>= f = .ok b ↔ ∃ a, x = .ok a ∧ f a = .ok b := by
  cases x with
  | error e => simp [bind, Except.bind]
  | ok a => simp [bind, Except.bind]

theorem guard_eq_ok_iff {ε α : Type} (p : Prop) [Decidable p] (a b : α) (e : ε) :
    (if p then .ok a else .error e : Except ε α) = .ok b ↔ p ∧ b = a := by
  by_cases hp : p
  · simp [hp, eq_comm]
  · simp [hp]

namespace Operands

theorem fields_eq_ok_iff {shape : Shape} (o : Operands shape) (n : Nat) :
    o.fields = .ok n ↔ o.Fits ∧ n = o.packed := by
  cases o <;>
    simp only [fields, Fits, packed, registerField, addressField, offsetField, bind_eq_ok_iff,
      guard_eq_ok_iff, pure, Except.pure, Except.ok.injEq] <;>
    grind

theorem packed_lt_span {shape : Shape} {o : Operands shape} (h : o.Fits) :
    o.packed < shape.span := by
  cases o with
  | regImm8 a imm =>
    have himm : imm.toNat < 256 := imm.toNat_lt
    simp only [Fits, packed, Shape.span] at *
    omega
  | condAddr10 cond addr =>
    have hcond : cond.bits < 4 := by cases cond <;> decide
    simp only [Fits, packed, Shape.span, programLimit] at *
    omega
  | _ =>
    simp only [Fits, packed, Shape.span, programLimit] at *
    omega

end Operands

theorem lowNibble_eq_iff (n : Nat) (r : UInt8) : lowNibble n = r ↔ n % 0x10 = r.toNat := by
  rw [lowNibble, UInt8.ofNat_eq_iff_mod_eq_toNat]
  omega

theorem middleNibble_eq_iff (n : Nat) (r : UInt8) :
    middleNibble n = r ↔ n / 0x10 % 0x10 = r.toNat := by
  rw [middleNibble, UInt8.ofNat_eq_iff_mod_eq_toNat]
  omega

theorem highNibble_eq_iff (n : Nat) (r : UInt8) :
    highNibble n = r ↔ n / 0x100 % 0x10 = r.toNat := by
  rw [highNibble, UInt8.ofNat_eq_iff_mod_eq_toNat]
  omega

theorem addressOf_eq_iff (n : Nat) (a : UInt16) : addressOf n = a ↔ n % 0x400 = a.toNat := by
  rw [addressOf, programLimit, UInt16.ofNat_eq_iff_mod_eq_toNat]
  omega

theorem signedNibble_eq_iff (n : Nat) (o : Int8) :
    signedNibble n = o ↔ (-8 ≤ o.toInt ∧ o.toInt ≤ 7) ∧ n % 0x10 = (o.toInt % 16).toNat := by
  have hlow : -8 ≤ Int.bmod n 0x10 := Int.le_bmod (by decide)
  have hhigh : Int.bmod n 0x10 < 8 := Int.bmod_lt (by decide)
  have hmod : Int.bmod n 0x10 % 16 = n % 16 := Int.bmod_emod
  have hbyte : (signedNibble n).toInt = Int.bmod n 0x10 := by
    rw [signedNibble, Int8.toInt_ofInt, Int.bmod_eq_of_le] <;> simp only [Int8.size] <;> omega
  rw [← Int8.toInt_inj, hbyte]
  omega

theorem Condition.ofBits_eq_iff (n : Nat) (c : Condition) :
    Condition.ofBits n = c ↔ n % 4 = c.bits := by
  constructor
  · rintro rfl
    exact (Condition.bits_ofBits n).symm
  · intro h
    have hc : Condition.ofBits (Condition.ofBits n).bits = Condition.ofBits c.bits := by
      rw [Condition.bits_ofBits, h]
    rwa [Condition.ofBits_bits, Condition.ofBits_bits] at hc

/-- A word holds operands of a shape exactly when its bits below the opcode are these operands,
packed. -/
theorem Operands.ofWord_eq_iff {shape : Shape} (n : Nat) (o : Operands shape) :
    ofWord n shape = (o, true) ↔ o.Fits ∧ n % shape.span = o.packed := by
  cases o with
  | none => simp [ofWord, Fits, packed, Shape.span]
  | reg a =>
    simp only [ofWord, Fits, packed, Shape.span, Prod.mk.injEq, reg.injEq, middleNibble_eq_iff,
      decide_eq_true_eq]
    omega
  | regReg a b =>
    simp only [ofWord, Fits, packed, Shape.span, Prod.mk.injEq, regReg.injEq, middleNibble_eq_iff,
      lowNibble_eq_iff, and_true]
    omega
  | regRegReg a b c =>
    simp only [ofWord, Fits, packed, Shape.span, Prod.mk.injEq, regRegReg.injEq,
      highNibble_eq_iff, middleNibble_eq_iff, lowNibble_eq_iff, and_true]
    omega
  | regImm8 a imm =>
    have himm : imm.toNat < 256 := imm.toNat_lt
    simp only [ofWord, Fits, packed, Shape.span, Prod.mk.injEq, regImm8.injEq, highNibble_eq_iff,
      UInt8.ofNat_eq_iff_mod_eq_toNat, and_true]
    omega
  | addr10 addr =>
    simp only [ofWord, Fits, packed, Shape.span, Prod.mk.injEq, addr10.injEq, addressOf_eq_iff,
      decide_eq_true_eq]
    simp only [programLimit]
    omega
  | condAddr10 cond addr =>
    have hcond : cond.bits < 4 := by cases cond <;> decide
    simp only [ofWord, Fits, packed, Shape.span, programLimit, Prod.mk.injEq, condAddr10.injEq,
      Condition.ofBits_eq_iff, addressOf_eq_iff, and_true]
    omega
  | regRegOffset a b offset =>
    simp only [ofWord, Fits, packed, Shape.span, Prod.mk.injEq, regRegOffset.injEq,
      highNibble_eq_iff, middleNibble_eq_iff, signedNibble_eq_iff, and_true]
    omega

/-- The opcode of a word is read back above any fields, and determines the head of the word. -/
theorem Opcode.ofWord_eq_iff (m : Mnemonic) (n : Nat) :
    Opcode.ofWord n = m.opcode ↔ n = m.opcode.head + n % m.shape.span := by
  cases m <;>
    simp only [Opcode.ofWord, Mnemonic.opcode, Opcode.mk.injEq, Option.ite_none_right_eq_some,
      Option.some.injEq, ite_eq_right_iff, reduceCtorEq, imp_false] <;>
    simp only [groupMajor, Opcode.head, Mnemonic.shape, Shape.span, Option.getD] <;>
    omega

theorem Mnemonic.span_dvd_head (m : Mnemonic) : m.shape.span ∣ m.opcode.head := by
  cases m <;> decide

theorem Mnemonic.head_add_span_le (m : Mnemonic) : m.opcode.head + m.shape.span ≤ 0x10000 := by
  cases m <;> decide

namespace Instruction

/-- A mnemonic takes the operands that a word holds for its shape. -/
theorem decode_eq (w : UInt16) :
    decode w =
      match Mnemonic.ofOpcode? (Opcode.ofWord w.toNat) with
      | none => .error .undefinedExtension
      | some m =>
        if (Operands.ofWord w.toNat m.shape).2 then .ok ⟨m, (Operands.ofWord w.toNat m.shape).1⟩
        else .error .reservedBits := by
  unfold decode
  cases Mnemonic.ofOpcode? (Opcode.ofWord w.toNat) with
  | none => rfl
  | some m => simp only [build?_mk]

theorem decode_ne_mismatchedOperands (w : UInt16) : decode w ≠ .error .mismatchedOperands := by
  rw [decode_eq]
  split
  · simp
  · split <;> simp

/-- A word decodes to an instruction exactly when it has the head of the opcode and, below it, the
operands of the instruction, packed. -/
theorem decode_eq_ok_iff (w : UInt16) (i : Instruction) :
    decode w = .ok i ↔
      i.operands.Fits ∧ w.toNat = i.mnemonic.opcode.head + i.operands.packed := by
  constructor
  · intro h
    rw [decode_eq] at h
    split at h
    · cases h
    · rename_i m hm
      obtain ⟨hclear, rfl⟩ := (guard_eq_ok_iff ..).mp h
      have hword := (Operands.ofWord_eq_iff w.toNat (Operands.ofWord w.toNat m.shape).1).mp
        (Prod.ext rfl hclear)
      have hhead := (Opcode.ofWord_eq_iff m w.toNat).mp (Mnemonic.eq_opcode_of_ofOpcode? hm).symm
      refine ⟨hword.1, ?_⟩
      rw [hword.2] at hhead
      exact hhead
  · rintro ⟨hfits, hw⟩
    obtain ⟨m, o⟩ := i
    have hlow : w.toNat % m.shape.span = o.packed := by
      obtain ⟨k, hk⟩ := m.span_dvd_head
      rw [hw, hk, Nat.mul_add_mod]
      exact Nat.mod_eq_of_lt (Operands.packed_lt_span hfits)
    have hopcode : Opcode.ofWord w.toNat = m.opcode := by
      rw [Opcode.ofWord_eq_iff, hlow]
      exact hw
    have hoperands := (Operands.ofWord_eq_iff w.toNat o).mpr ⟨hfits, hlow⟩
    simp [decode_eq, hopcode, Mnemonic.ofOpcode?_opcode, hoperands]

theorem encode_eq_ok_iff (i : Instruction) (w : UInt16) :
    i.encode = .ok w ↔
      i.operands.Fits ∧ w.toNat = i.mnemonic.opcode.head + i.operands.packed := by
  simp only [encode, split, bind_eq_ok_iff, Operands.fields_eq_ok_iff, pure, Except.pure,
    Except.ok.injEq, UInt16.ofNat_eq_iff_mod_eq_toNat]
  constructor
  · rintro ⟨n, ⟨hfits, rfl⟩, hn⟩
    have hspan := Operands.packed_lt_span hfits
    have hhead := i.mnemonic.head_add_span_le
    refine ⟨hfits, ?_⟩
    omega
  · rintro ⟨hfits, hw⟩
    have hbound := w.toNat_lt
    refine ⟨_, ⟨hfits, rfl⟩, ?_⟩
    omega

/-- Decoding and encoding are inverse to each other. -/
theorem encode_eq_ok_iff_decode (i : Instruction) (w : UInt16) :
    i.encode = .ok w ↔ decode w = .ok i :=
  (encode_eq_ok_iff i w).trans (decode_eq_ok_iff w i).symm

/-- An instruction has a word when its operands fit. -/
theorem exists_encode_of_fits {i : Instruction} (h : i.operands.Fits) : ∃ w, i.encode = .ok w := by
  have hspan := Operands.packed_lt_span h
  have hhead := i.mnemonic.head_add_span_le
  refine ⟨UInt16.ofNat (i.mnemonic.opcode.head + i.operands.packed), ?_⟩
  rw [encode_eq_ok_iff, UInt16.toNat_ofNat']
  exact ⟨h, Nat.mod_eq_of_lt (by omega)⟩

end Instruction
end ByteMachine
