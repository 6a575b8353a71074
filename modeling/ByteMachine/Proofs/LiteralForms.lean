import ByteMachine.Proofs.Checked.Sources
import ByteMachine.Proofs.LetterCase

/-!
# The forms of a literal

A literal is written as a minus or nothing, the mark of a base, and digits of the base. The digits
are said by a table of characters, and their value by place value. Reading a token accepts just what
is written in this way, apart from blanks around it, and gives the number that is written. Every
number whose magnitude is below the limit can be written in each base, with any number of zeros
before its digits, and all of these are read back as that number.
-/
namespace ByteMachine

open Text

def digitRows : List Text := ["0123456789abcdef".toList, "0123456789ABCDEF".toList]

def DigitOf (base : Nat) (c : Char) (d : Nat) : Prop :=
  d < base ∧ ∃ row ∈ digitRows, row[d]? = some c

def DigitsOf (base : Nat) (s : Text) (n : Nat) : Prop :=
  s ≠ [] ∧ ∃ ds : List Nat, List.Forall₂ (DigitOf base) s ds ∧ n = Nat.ofDigits base ds.reverse

inductive Base where
  | decimal
  | hexadecimal
  | binary

namespace Base

def radix : Base → Nat
  | decimal => 10
  | hexadecimal => 16
  | binary => 2

/-- What can stand before the digits to tell the base. -/
def marks : Base → List Text
  | decimal => [[]]
  | hexadecimal => ["0x".toList, "0X".toList]
  | binary => ["0b".toList, "0B".toList]

theorem one_lt_radix (base : Base) : 1 < base.radix := by cases base <;> decide

theorem radix_le (base : Base) : base.radix ≤ 16 := by cases base <;> decide

theorem not_isBlank_mark (base : Base) {mark : Text} (h : mark ∈ base.marks) :
    ∀ c ∈ mark, isBlank c = false := by
  have hall : ∀ mark ∈ base.marks, mark.all (!isBlank ·) = true := by cases base <;> decide
  simpa using hall mark h

end Base

/-- The text is a literal of this value, without blanks around it. -/
def LiteralOf (s : Text) (v : Int) : Prop :=
  ∃ base : Base, ∃ mark ∈ base.marks, ∃ digits n, DigitsOf base.radix digits n ∧ n ≤ 2 ^ 63 - 1 ∧
    (s = mark ++ digits ∧ v = n ∨ s = '-' :: (mark ++ digits) ∧ v = -n)

def minusOf (v : Int) : Text := if v < 0 then ['-'] else []

def readWithin? (base : Nat) : Nat → Text → Option Nat
  | n, [] => some n
  | n, c :: rest => (digit? base c).bind fun d =>
      if n * base + d ≤ literalLimit then readWithin? base (n * base + d) rest else none

/-- A character has the value that its range gives it, whatever the base. -/
theorem digit?_cases {base d : Nat} {c : Char} (h : digit? base c = some d) :
    c.toNat = 48 + d ∧ d < 10 ∨
      (c.toNat = 87 + d ∨ c.toNat = 55 + d) ∧ 10 ≤ d ∧ d < 16 := by
  obtain ⟨hvalue, -⟩ := Option.filter_eq_some_iff.mp h
  have hle (a b : Char) : a ≤ b ↔ a.toNat ≤ b.toNat := Iff.rfl
  simp only [hle, Char.reduceToNat] at hvalue
  split_ifs at hvalue with hdecimal hsmall hcapital <;> obtain rfl := Option.some.inj hvalue
  · exact .inl (by omega)
  · exact .inr (by omega)
  · exact .inr (by omega)

theorem digit?_eq_some_iff {base : Nat} (hbase : base ≤ 16) (c : Char) (d : Nat) :
    digit? base c = some d ↔ DigitOf base c d := by
  have hrows : ∀ d < 16, ∀ row ∈ digitRows, row[d]?.bind (digit? 16) = some d := by decide
  have hdecimal : ∀ d < 10, "0123456789abcdef".toList[d]? = some (Char.ofNat (48 + d)) := by decide
  have hletters : ∀ d < 16, 10 ≤ d →
      "0123456789abcdef".toList[d]? = some (Char.ofNat (87 + d)) ∧
        "0123456789ABCDEF".toList[d]? = some (Char.ofNat (55 + d)) := by decide
  constructor
  · intro h
    refine ⟨lt_of_digit? h, ?_⟩
    rw [← Char.ofNat_toNat c]
    rcases digit?_cases h with ⟨hc, hd⟩ | ⟨hc | hc, hlow, hd⟩ <;> rw [hc]
    · exact ⟨_, .head _, hdecimal d hd⟩
    · exact ⟨_, .head _, (hletters d hd hlow).1⟩
    · exact ⟨_, .tail _ (.head _), (hletters d hd hlow).2⟩
  · rintro ⟨hd, row, hrow, hc⟩
    have h := hrows d (by omega) row hrow
    rw [hc, Option.bind_some, digit?, Option.filter_eq_some_iff] at h
    exact Option.filter_eq_some_iff.mpr ⟨h.1, decide_eq_true hd⟩

theorem numeral_iff_digitsOf {base : Nat} (hbase : base ≤ 16) (s : Text) (n : Nat) :
    Numeral base s n ↔ DigitsOf base s n := by
  simp only [Numeral, DigitsOf, digit?_eq_some_iff hbase]

theorem unsignedLiteral_iff (s : Text) (n : Nat) :
    UnsignedLiteral s n ↔ ∃ base : Base, ∃ mark ∈ base.marks, ∃ digits,
      DigitsOf base.radix digits n ∧ n ≤ 2 ^ 63 - 1 ∧ s = mark ++ digits := by
  have hten := numeral_iff_digitsOf (show 10 ≤ 16 by decide)
  have hsixteen := numeral_iff_digitsOf (show 16 ≤ 16 by decide)
  have htwo := numeral_iff_digitsOf (show 2 ≤ 16 by decide)
  simp only [UnsignedLiteral, hten, hsixteen, htwo]
  constructor
  · rintro ⟨hlimit, ⟨digits, rfl | rfl, h⟩ | ⟨digits, rfl | rfl, h⟩ | h⟩
    · exact ⟨.hexadecimal, _, .head _, digits, h, hlimit, rfl⟩
    · exact ⟨.hexadecimal, _, .tail _ (.head _), digits, h, hlimit, rfl⟩
    · exact ⟨.binary, _, .head _, digits, h, hlimit, rfl⟩
    · exact ⟨.binary, _, .tail _ (.head _), digits, h, hlimit, rfl⟩
    · exact ⟨.decimal, _, .head _, s, h, hlimit, rfl⟩
  · rintro ⟨base, mark, hmark, digits, h, hlimit, rfl⟩
    refine ⟨hlimit, ?_⟩
    cases base with
    | decimal =>
      obtain rfl := List.mem_singleton.mp hmark
      exact .inr (.inr h)
    | hexadecimal =>
      refine .inl ⟨digits, ?_, h⟩
      rcases List.mem_pair.mp hmark with rfl | rfl
      · exact .inl rfl
      · exact .inr rfl
    | binary =>
      refine .inr (.inl ⟨digits, ?_, h⟩)
      rcases List.mem_pair.mp hmark with rfl | rfl
      · exact .inl rfl
      · exact .inr rfl

theorem literal?_eq_some_iff_literalOf (s : Text) (v : Int) :
    s.literal? = some v ↔ LiteralOf s.trim v := by
  rw [literal?_eq_some_iff, Literal]
  simp only [unsignedLiteral_iff]
  constructor
  · rintro ⟨_, n, ⟨base, mark, hmark, digits, hdigits, hlimit, rfl⟩, h⟩
    exact ⟨base, mark, hmark, digits, n, hdigits, hlimit, h⟩
  · rintro ⟨base, mark, hmark, digits, n, hdigits, hlimit, h⟩
    exact ⟨_, n, ⟨base, mark, hmark, digits, hdigits, hlimit, rfl⟩, h⟩

theorem DigitsOf.not_isBlank {base : Nat} {s : Text} {n : Nat} (h : DigitsOf base s n) :
    ∀ c ∈ s, isBlank c = false := by
  have hrows : ∀ row ∈ digitRows, row.all (!isBlank ·) = true := by decide
  obtain ⟨-, ds, hds, -⟩ := h
  induction hds with
  | nil => exact fun c hc => nomatch hc
  | cons hd _ ih =>
    obtain ⟨-, row, hrow, hc⟩ := hd
    have hblank := List.all_eq_true.mp (hrows row hrow) _ (List.mem_of_getElem? hc)
    exact List.forall_mem_cons.mpr ⟨by simpa using hblank, ih⟩

theorem LiteralOf.trim_eq {s : Text} {v : Int} (h : LiteralOf s v) : s.trim = s := by
  obtain ⟨base, mark, hmark, digits, n, hdigits, -, h⟩ := h
  have hblank : ∀ c ∈ mark ++ digits, isBlank c = false :=
    List.forall_mem_append.mpr ⟨base.not_isBlank_mark hmark, hdigits.not_isBlank⟩
  apply trim_eq_self_of_forall
  rcases h with ⟨rfl, -⟩ | ⟨rfl, -⟩
  · exact hblank
  · exact List.forall_mem_cons.mpr ⟨by decide, hblank⟩

/-- A digit has its value in small and in capital letters. -/
theorem digit?_toLower (base : Nat) (c : Char) : digit? base c.toLower = digit? base c := by
  have hle (a b : Char) : a ≤ b ↔ a.toNat ≤ b.toNat := Iff.rfl
  rcases toLower_cases c with hsame | ⟨hlow, hhigh, hlower⟩
  · rw [hsame]
  · have hvalue : c.toNat + 32 - 97 = c.toNat - 65 := by omega
    simp only [digit?, hle, Char.reduceToNat, hlower, hvalue]
    rw [if_neg (by omega), if_neg (show ¬ (48 ≤ c.toNat ∧ c.toNat ≤ 57) by omega),
      if_neg (show ¬ (97 ≤ c.toNat ∧ c.toNat ≤ 102) by omega)]
    by_cases hletter : c.toNat ≤ 70
    · rw [if_pos (by omega), if_pos (by omega)]
    · rw [if_neg (by omega), if_neg (by omega), if_neg (by omega)]

theorem readFrom?_fold (base k : Nat) (s : Text) :
    readFrom? base k s.fold = readFrom? base k s := by
  induction s generalizing k with
  | nil => rfl
  | cons c rest ih =>
    have hcons : fold (c :: rest) = c.toLower :: fold rest := rfl
    simp only [hcons, readFrom?, digit?_toLower, ih]

theorem readFrom?_replicate_zero {base : Nat} (hbase : 0 < base) (zeros : Nat) :
    readFrom? base 0 (List.replicate zeros '0') = some 0 := by
  have hzero : digit? base '0' = some 0 := by
    simp [digit?, hbase]
  induction zeros with
  | zero => rfl
  | succ zeros ih => simpa [List.replicate_succ, readFrom?, hzero] using ih

/-- The digits of a number have its value in either letter case and with zeros before them. -/
theorem Base.digitsOf_written (base : Base) (zeros : Nat) {n : Nat} {digits : Text}
    (h : digits.fold = Nat.toDigits base.radix n) :
    DigitsOf base.radix (List.replicate zeros '0' ++ digits) n := by
  have hnumeral := numeral_toDigits base.one_lt_radix base.radix_le n
  have hread : readFrom? base.radix 0 digits = some n := by
    rw [← readFrom?_fold, h]
    exact (read?_of_ne_nil hnumeral.1 _).symm.trans ((read?_eq_some_iff ..).mpr hnumeral)
  have hne : digits ≠ [] := by
    rintro rfl
    exact hnumeral.1 h.symm
  have hne' : List.replicate zeros '0' ++ digits ≠ [] := fun hnil =>
    hne (List.append_eq_nil_iff.mp hnil).2
  rw [← numeral_iff_digitsOf base.radix_le, ← read?_eq_some_iff, read?_of_ne_nil hne',
    readFrom?_append, readFrom?_replicate_zero (Nat.zero_lt_of_lt base.one_lt_radix),
    Option.bind_some, hread]

theorem Base.literalOf_written (base : Base) (zeros : Nat) {v : Int} {mark digits : Text}
    (hlimit : v.natAbs ≤ 2 ^ 63 - 1) (hmark : mark ∈ base.marks)
    (h : digits.fold = Nat.toDigits base.radix v.natAbs) :
    LiteralOf (minusOf v ++ mark ++ List.replicate zeros '0' ++ digits) v := by
  refine ⟨base, mark, hmark, _, v.natAbs, base.digitsOf_written zeros h, hlimit, ?_⟩
  unfold minusOf
  split
  · exact .inr ⟨by simp, by omega⟩
  · exact .inl ⟨by simp, by omega⟩

theorem le_of_readFrom? {base k n : Nat} {s : Text} (hbase : 0 < base)
    (h : readFrom? base k s = some n) : k ≤ n := by
  obtain ⟨ds, -, rfl⟩ := (readFrom?_eq_some_iff ..).mp h
  calc k ≤ base ^ ds.length * k := Nat.le_mul_of_pos_left k (Nat.pow_pos hbase)
    _ ≤ Nat.ofDigits base ds.reverse + base ^ ds.length * k := Nat.le_add_left ..

/-- More digits make no number smaller, so a number that passes the limit on the way passes it in
the end. -/
theorem readWithin?_eq {base k : Nat} (hbase : 0 < base) (hk : k ≤ literalLimit) (s : Text) :
    readWithin? base k s = (readFrom? base k s).filter (· ≤ literalLimit) := by
  induction s generalizing k with
  | nil =>
    have hwithin : decide (k ≤ literalLimit) = true := decide_eq_true hk
    rw [readWithin?, readFrom?, Option.filter_some, if_pos hwithin]
  | cons c rest ih =>
    rw [readWithin?, readFrom?]
    cases digit? base c with
    | none => rfl
    | some d =>
      rw [Option.bind_some, Option.bind_some]
      split
      · rename_i hwithin
        exact ih hwithin
      · rename_i hbeyond
        refine (Option.filter_eq_none_iff.mpr fun n hn => ?_).symm
        have hle := le_of_readFrom? hbase hn
        simp only [decide_eq_true_eq]
        omega

/-- Reading a token accepts just the literals, with blanks around them or not, and gives the number
that is written. Neither the digits nor the minus before them lead beyond sixty-four bits. A number
with a magnitude within the limit is read back in each base and letter case and with zeros before
its digits. -/
theorem literals_exact :
    (∀ (s : Text) (v : Int), s.literal? = some v ↔ LiteralOf s.trim v) ∧
    (∀ (base : Base) (digits : Text), readWithin? base.radix 0 digits =
      (readFrom? base.radix 0 digits).filter (· ≤ literalLimit)) ∧
    (∀ s : Text, Checked.literal? s = .ok s.literal?) ∧
    ∀ (v : Int) (base : Base) (zeros : Nat) (mark digits : Text), v.natAbs ≤ 2 ^ 63 - 1 →
      mark ∈ base.marks → digits.fold = Nat.toDigits base.radix v.natAbs →
        literal? (minusOf v ++ mark ++ List.replicate zeros '0' ++ digits) = some v := by
  refine ⟨literal?_eq_some_iff_literalOf, fun base digits => ?_, Checked.literal?_eq_ok, ?_⟩
  · exact readWithin?_eq (Nat.zero_lt_of_lt base.one_lt_radix) (Nat.zero_le _) digits
  · intro v base zeros mark digits hlimit hmark h
    have hliteral := base.literalOf_written zeros hlimit hmark h
    rw [literal?_eq_some_iff_literalOf, hliteral.trim_eq]
    exact hliteral

theorem literals_exact_least :
    literal? "-0X007fffFFFFffffFFFF".toList = some (-(2 ^ 63 - 1)) ∧
      literal? "\u00a09223372036854775808 ".toList = none := by
  constructor
  · exact literals_exact.2.2.2 (-(2 ^ 63 - 1)) .hexadecimal 2 "0X".toList "7fffFFFFffffFFFF".toList
      (by decide) (by decide) (by decide)
  · decide

end ByteMachine
