import ByteMachine.Proofs.Checked.Access
import ByteMachine.Proofs.InstructionWords
import ByteMachine.Instruction.Listing

/-!
# Checked coding of words

Encoding and decoding with shifts and masks of sixteen bits. Decoding takes the operands that the
shape of the opcode asks for and puts them together with the mnemonic, and encoding looks its
mnemonic up again, so both rely on the tables to agree.
-/
namespace ByteMachine.Checked

/-- The bits of a word from `high` down to `low`. -/
def bits (n high low : Nat) : Checked Nat := do
  let width ← add 8 (← subtract high low) 1
  let mask ← subtract (← shiftLeft 16 1 width) 1
  return (← shiftRight 16 n low) &&& mask

theorem bits_eq_ok (n : Nat) {high low : Nat} (h : low ≤ high) (hwidth : high - low < 15)
    (hlow : low < 16) : bits n high low = .ok (n / 2 ^ low % 2 ^ (high - low + 1)) := by
  have hpower : 2 ^ (high - low + 1) < 2 ^ 16 := Nat.pow_lt_pow_right (by decide) (by omega)
  have hone : 1 ≤ 2 ^ (high - low + 1) := Nat.one_le_two_pow
  rw [bits, subtract_eq_ok h, ok_bind, add_eq_ok (by omega), ok_bind,
    shiftLeft_eq_ok (by omega), ok_bind, Nat.one_shiftLeft, Nat.mod_eq_of_lt hpower,
    subtract_eq_ok hone, ok_bind, shiftRight_eq_ok hlow, ok_bind, Nat.and_two_pow_sub_one_eq_mod,
    Nat.shiftRight_eq_div_pow]
  rfl

def unused (bits : Nat) : ExceptT DecodeError Checked Unit :=
  if bits = 0 then return () else throw .reservedBits

def operands (n : Nat) : Shape → ExceptT DecodeError Checked AnyOperands
  | .none => do
    unused (← bits n 11 0)
    return ⟨_, .none⟩
  | .reg => do
    unused (← bits n 3 0)
    return ⟨_, .reg (.ofNat (← bits n 7 4))⟩
  | .regReg => return ⟨_, .regReg (.ofNat (← bits n 7 4)) (.ofNat (← bits n 3 0))⟩
  | .regRegReg =>
    return ⟨_, .regRegReg (.ofNat (← bits n 11 8)) (.ofNat (← bits n 7 4))
      (.ofNat (← bits n 3 0))⟩
  | .regImm8 => return ⟨_, .regImm8 (.ofNat (← bits n 11 8)) (.ofNat (← bits n 7 0))⟩
  | .addr10 => do
    unused (← bits n 11 10)
    return ⟨_, .addr10 (.ofNat (← bits n 9 0))⟩
  | .condAddr10 =>
    return ⟨_, .condAddr10 (.ofBits (← bits n 11 10)) (.ofNat (← bits n 9 0))⟩
  | .regRegOffset =>
    return ⟨_, .regRegOffset (.ofNat (← bits n 11 8)) (.ofNat (← bits n 7 4))
      (signedNibble (← bits n 3 0))⟩

def opcode (n : Nat) : Checked Opcode := do
  let major ← bits n 15 12
  if major = groupMajor then return ⟨major, some (← bits n 11 8)⟩ else return ⟨major, none⟩

def decode (word : UInt16) : ExceptT DecodeError Checked Instruction := do
  match Mnemonic.ofOpcode? (← opcode word.toNat) with
  | none => throw .undefinedExtension
  | some m =>
    match Instruction.build? m (← operands word.toNat m.shape) with
    | none => (.error .mismatchedOperands : Checked Instruction)
    | some i => return i

theorem unused_bind {α : Type} (bits : Nat) (a : α) :
    (unused bits >>= fun _ => answer (.ok a)) =
      answer (if bits = 0 then .ok a else .error .reservedBits) := by
  unfold unused
  split <;> rfl

theorem operands_eq (n : Nat) (shape : Shape) :
    operands n shape =
      answer (if (Operands.ofWord n shape).2 then .ok ⟨shape, (Operands.ofWord n shape).1⟩
        else .error .reservedBits) := by
  cases shape with
  | addr10 =>
    have hclear : n / 1024 % 4 = 0 ↔ n % 4096 < 1024 := by omega
    simp [operands, bits_eq_ok, unused_bind, Operands.ofWord, addressOf, programLimit, hclear]
  | regImm8 =>
    have himm : UInt8.ofNat (n % 256) = UInt8.ofNat n := by
      rw [UInt8.ofNat_eq_iff_mod_eq_toNat]
      simp
    simp [operands, bits_eq_ok, Operands.ofWord, highNibble, himm]
  | condAddr10 =>
    have hcond : Condition.ofBits (n / 1024 % 4) = Condition.ofBits (n / 1024) := by
      rw [Condition.ofBits_eq_iff, Condition.bits_ofBits, Nat.mod_mod]
    simp [operands, bits_eq_ok, Operands.ofWord, addressOf, programLimit, hcond]
  | regRegOffset =>
    have hoffset : signedNibble (n % 16) = signedNibble n := by
      rw [signedNibble, signedNibble, Int.natCast_emod, Int.emod_bmod]
    simp [operands, bits_eq_ok, Operands.ofWord, middleNibble, highNibble, hoffset]
  | _ =>
    simp [operands, bits_eq_ok, unused_bind, Operands.ofWord, lowNibble, middleNibble, highNibble]

theorem opcode_eq_ok {n : Nat} (h : n < 2 ^ 16) : opcode n = .ok (Opcode.ofWord n) := by
  have hmajor : n / 2 ^ 12 % 2 ^ (15 - 12 + 1) = n / 0x1000 := by omega
  rw [opcode, bits_eq_ok n (by decide) (by decide) (by decide),
    bits_eq_ok n (by decide) (by decide) (by decide), hmajor, ok_bind, Opcode.ofWord]
  split <;> rfl

/-- Decoding does not fail: every mnemonic takes operands of its shape. -/
theorem decode_eq (word : UInt16) : decode word = answer (Instruction.decode word) := by
  rw [decode, opcode_eq_ok word.toNat_lt, lift_ok, answer_ok_bind, Instruction.decode_eq]
  cases Mnemonic.ofOpcode? (Opcode.ofWord word.toNat) with
  | none => rfl
  | some m =>
    simp only [operands_eq]
    by_cases hclear : (Operands.ofWord word.toNat m.shape).2 = true
    · simp [hclear, Instruction.build?_mk]
    · simp [hclear]

def wordText (word : UInt16) : Checked Text := do
  match ← (decode word).run with
  | .ok i => return i.text
  | .error _ => return "invalid opcode".toList

theorem wordText_eq_ok (word : UInt16) : wordText word = .ok (ByteMachine.wordText word) := by
  rw [wordText, decode_eq, run_answer, ok_bind, ByteMachine.wordText]
  cases Instruction.decode word <;> rfl

def head (o : Opcode) : Checked Nat := do
  return (← shiftLeft 16 o.major 12) ||| (← shiftLeft 16 (o.extension.getD 0) 8)

/-- A refusal of a field is a failure here: the fields are those of accepted operands. -/
def field (r : Except EncodeError Nat) : Checked Nat := r.mapError .unencodable

def fields : {shape : Shape} → Operands shape → Checked Nat
  | _, .none => return 0
  | _, .reg a => do shiftLeft 16 (← field (registerField a)) 4
  | _, .regReg a b => do
    return (← shiftLeft 16 (← field (registerField a)) 4) ||| (← field (registerField b))
  | _, .regRegReg a b c => do
    return (← shiftLeft 16 (← field (registerField a)) 8) |||
      (← shiftLeft 16 (← field (registerField b)) 4) ||| (← field (registerField c))
  | _, .regImm8 a imm => do
    return (← shiftLeft 16 (← field (registerField a)) 8) ||| imm.toNat
  | _, .addr10 addr => field (addressField addr)
  | _, .condAddr10 cond addr => do
    return (← shiftLeft 16 cond.bits 10) ||| (← field (addressField addr))
  | _, .regRegOffset a b offset => do
    return (← shiftLeft 16 (← field (registerField a)) 8) |||
      (← shiftLeft 16 (← field (registerField b)) 4) ||| (← field (offsetField offset))

def encode (i : Instruction) : Checked UInt16 := do
  match Mnemonic.ofToken? i.mnemonic.name.toList with
  | none => .error .missingMnemonic
  | some m => return .ofNat ((← head m.opcode) ||| (← fields i.operands))

theorem head_eq_ok (m : Mnemonic) : head m.opcode = .ok m.opcode.head := by
  cases m <;> rfl

theorem register_eq_ok {r : UInt8} (h : r.toNat < 16) :
    field (registerField r) = .ok r.toNat := by
  rw [registerField, if_pos h]
  rfl

theorem address_eq_ok {a : UInt16} (h : a.toNat < programLimit) :
    field (addressField a) = .ok a.toNat := by
  rw [addressField, if_pos h]
  rfl

theorem offset_eq_ok {o : Int8} (h : -8 ≤ o.toInt ∧ o.toInt ≤ 7) :
    field (offsetField o) = .ok (o.toInt % 16).toNat := by
  rw [offsetField, if_pos h]
  rfl

/-- No bit of a nibble leaves the word. -/
theorem shiftNibble_eq_ok {n k : Nat} (h : n < 2 ^ 4) (hk : k ≤ 12) :
    shiftLeft 16 n k = .ok (n * 2 ^ k) := by
  have hbound : n * 2 ^ k < 2 ^ 16 :=
    calc n * 2 ^ k < 2 ^ 4 * 2 ^ k := Nat.mul_lt_mul_of_pos_right h (Nat.two_pow_pos k)
      _ ≤ 2 ^ 4 * 2 ^ 12 := Nat.mul_le_mul_left _ (Nat.pow_le_pow_right (by decide) hk)
  rw [shiftLeft_eq_ok (by omega), Nat.shiftLeft_eq, Nat.mod_eq_of_lt hbound]

/-- A field is put into clear bits by adding it. -/
theorem or_eq_add (a : Nat) {b k : Nat} (h : b < 2 ^ k) : a * 2 ^ k ||| b = a * 2 ^ k + b := by
  rw [← Nat.shiftLeft_eq, Nat.shiftLeft_add_eq_or_of_lt h]

theorem or_or_eq_add (a : Nat) {b c : Nat} (hb : b < 2 ^ 4) (hc : c < 2 ^ 4) :
    a * 2 ^ 8 ||| b * 2 ^ 4 ||| c = a * 2 ^ 8 + b * 2 ^ 4 + c := by
  have hpair : a * 2 ^ 8 + b * 2 ^ 4 = (a * 2 ^ 4 + b) * 2 ^ 4 := by omega
  rw [or_eq_add a (by omega), hpair, or_eq_add _ hc]

/-- Fields of operands that fit are packed without failure, and none reaches into another. -/
theorem fields_eq_ok {shape : Shape} {o : Operands shape} (h : o.Fits) :
    fields o = .ok o.packed := by
  cases o with
  | none => rfl
  | reg a =>
    rw [fields, register_eq_ok h, ok_bind, shiftNibble_eq_ok h (by decide)]
    rfl
  | regReg a b =>
    obtain ⟨ha, hb⟩ := h
    rw [fields, register_eq_ok ha, ok_bind, shiftNibble_eq_ok ha (by decide), ok_bind,
      register_eq_ok hb, ok_bind, or_eq_add _ hb]
    rfl
  | regRegReg a b c =>
    obtain ⟨ha, hb, hc⟩ := h
    rw [fields, register_eq_ok ha, ok_bind, shiftNibble_eq_ok ha (by decide), ok_bind,
      register_eq_ok hb, ok_bind, shiftNibble_eq_ok hb (by decide), ok_bind, register_eq_ok hc,
      ok_bind, or_or_eq_add _ hb hc]
    rfl
  | regImm8 a imm =>
    rw [fields, register_eq_ok h, ok_bind, shiftNibble_eq_ok h (by decide), ok_bind,
      or_eq_add _ imm.toNat_lt]
    rfl
  | addr10 addr => exact address_eq_ok h
  | condAddr10 cond addr =>
    have hcond : cond.bits < 2 ^ 4 := by cases cond <;> decide
    rw [fields, shiftNibble_eq_ok hcond (by decide), ok_bind, address_eq_ok h, ok_bind,
      or_eq_add _ h]
    rfl
  | regRegOffset a b offset =>
    obtain ⟨ha, hb, hoffset⟩ := h
    have hnibble : (offset.toInt % 16).toNat < 2 ^ 4 := by omega
    rw [fields, register_eq_ok ha, ok_bind, shiftNibble_eq_ok ha (by decide), ok_bind,
      register_eq_ok hb, ok_bind, shiftNibble_eq_ok hb (by decide), ok_bind,
      offset_eq_ok hoffset, ok_bind, or_or_eq_add _ hb hnibble]
    rfl

theorem exists_span_eq_pow (shape : Shape) : ∃ k, shape.span = 2 ^ k := by
  cases shape
  case reg => exact ⟨8, rfl⟩
  case regReg => exact ⟨8, rfl⟩
  all_goals exact ⟨12, rfl⟩

/-- An instruction that has a word is encoded without failure. -/
theorem encode_eq_ok {i : Instruction} {w : UInt16} (h : i.encode = .ok w) : encode i = .ok w := by
  obtain ⟨hfits, hw⟩ := (Instruction.encode_eq_ok_iff i w).mp h
  have hor : i.mnemonic.opcode.head ||| i.operands.packed = w.toNat := by
    have hspan := Operands.packed_lt_span hfits
    obtain ⟨a, ha⟩ := i.mnemonic.span_dvd_head
    obtain ⟨k, hk⟩ := exists_span_eq_pow i.mnemonic.shape
    rw [hk] at hspan ha
    rw [hw, ha, Nat.mul_comm, or_eq_add a hspan]
  rw [encode, Mnemonic.ofToken?_name]
  simp only [head_eq_ok, fields_eq_ok hfits, ok_bind, hor, UInt16.ofNat_toNat]
  rfl

end ByteMachine.Checked
