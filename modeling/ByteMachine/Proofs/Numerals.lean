import ByteMachine.Source.Token
import Mathlib.Data.List.Forall2
import Mathlib.Data.Nat.Digits.Defs

/-!
# Numerals and literals

What digits denote is said by place value, apart from the functions that read them. Reading accepts
exactly the numerals of a base and gives what they denote, and the digits written for a number are a
numeral for it. A literal is a numeral in base ten, sixteen or two, with a sign before it or not,
whose magnitude stays within the literal limit.
-/
namespace ByteMachine.Text

/-- The text is digits of a base, the most significant first, and they have the value `n`. -/
def Numeral (base : Nat) (s : Text) (n : Nat) : Prop :=
  s ≠ [] ∧ ∃ ds : List Nat, List.Forall₂ (fun c d => digit? base c = some d) s ds ∧
    n = Nat.ofDigits base ds.reverse

theorem readFrom?_eq_some_iff (base k : Nat) (s : Text) (n : Nat) :
    readFrom? base k s = some n ↔
      ∃ ds : List Nat, List.Forall₂ (fun c d => digit? base c = some d) s ds ∧
        n = Nat.ofDigits base ds.reverse + base ^ ds.length * k := by
  induction s generalizing k with
  | nil => simp [readFrom?, List.forall₂_nil_left_iff, eq_comm]
  | cons c rest ih =>
    simp only [readFrom?, Option.bind_eq_some_iff, ih]
    constructor
    · rintro ⟨d, hd, ds, hds, rfl⟩
      refine ⟨d :: ds, .cons hd hds, ?_⟩
      simp only [List.reverse_cons, Nat.ofDigits_append, Nat.ofDigits_singleton,
        List.length_reverse, List.length_cons, pow_succ]
      ring
    · rintro ⟨_, hall, rfl⟩
      obtain ⟨d, ds, hd, hds, rfl⟩ := List.forall₂_cons_left_iff.mp hall
      refine ⟨d, hd, ds, hds, ?_⟩
      simp only [List.reverse_cons, Nat.ofDigits_append, Nat.ofDigits_singleton,
        List.length_reverse, List.length_cons, pow_succ]
      ring

/-- Reading accepts exactly the numerals of the base. -/
theorem read?_eq_some_iff (base : Nat) (s : Text) (n : Nat) :
    read? base s = some n ↔ Numeral base s n := by
  cases s with
  | nil => simp [read?, Numeral]
  | cons c rest => simp [read?, Numeral, readFrom?_eq_some_iff]

theorem readFrom?_append (base k : Nat) (s t : Text) :
    readFrom? base k (s ++ t) = (readFrom? base k s).bind fun n => readFrom? base n t := by
  induction s generalizing k with
  | nil => rfl
  | cons c rest ih =>
    simp only [List.cons_append, readFrom?, Option.bind_assoc, ih]

theorem read?_of_ne_nil {s : Text} (h : s ≠ []) (base : Nat) :
    read? base s = readFrom? base 0 s := by
  rw [read?, List.isEmpty_eq_false_iff.mpr h, if_neg Bool.false_ne_true]

theorem digit?_digitChar {base d : Nat} (hbase : base ≤ 16) (hd : d < base) :
    digit? base d.digitChar = some d := by
  have hall : ∀ d < 16, digit? 16 d.digitChar = some d := by decide
  have h := hall d (by omega)
  simp only [digit?, Option.filter_eq_some_iff] at h ⊢
  exact ⟨h.1, decide_eq_true hd⟩

/-- The digits written for a number are read back as that number. -/
theorem numeral_toDigits {base : Nat} (hlow : 1 < base) (hhigh : base ≤ 16) (n : Nat) :
    Numeral base (Nat.toDigits base n) n := by
  have hread : readFrom? base 0 (Nat.toDigits base n) = some n := by
    induction n using Nat.strongRecOn with
    | ind n ih =>
      by_cases hn : n < base
      · simp [Nat.toDigits_of_lt_base hn, readFrom?, digit?_digitChar hhigh hn]
      · have hbase : base ≤ n := by omega
        have hdiv : n / base < n := Nat.div_lt_self (by omega) hlow
        have hmod : n % base < base := Nat.mod_lt n (by omega)
        rw [Nat.toDigits_of_base_le hlow hbase, readFrom?_append, ih (n / base) hdiv]
        simp [readFrom?, digit?_digitChar hhigh hmod, Nat.div_add_mod']
  rw [← read?_eq_some_iff, read?_of_ne_nil Nat.toDigits_ne_nil, hread]

theorem numeral_decimal (n : Nat) : Numeral 10 (decimal n) n :=
  numeral_toDigits (by decide) (by decide) n

theorem Numeral.digit_of_mem {base : Nat} {s : Text} {n : Nat} (h : Numeral base s n) {c : Char}
    (hc : c ∈ s) : ∃ d, digit? base c = some d := by
  obtain ⟨-, ds, hds, -⟩ := h
  clear * - hds hc
  induction hds with
  | nil => simp at hc
  | cons hd _ ih =>
    rcases List.mem_cons.mp hc with rfl | hmem
    · exact ⟨_, hd⟩
    · exact ih hmem

theorem lt_of_digit? {base d : Nat} {c : Char} (h : digit? base c = some d) : d < base :=
  of_decide_eq_true (Option.filter_eq_some_iff.mp h).2

/-- The binary digits are zero and one. -/
theorem exists_digit?_two_iff (c : Char) : (∃ d, digit? 2 c = some d) ↔ c = '0' ∨ c = '1' := by
  constructor
  · rintro ⟨d, hd⟩
    have htwo : d < 2 := lt_of_digit? hd
    obtain ⟨hvalue, -⟩ := Option.filter_eq_some_iff.mp hd
    -- a letter has a value of ten or more
    split_ifs at hvalue with h
    · obtain rfl := Option.some.inj hvalue
      have hlow : '0'.toNat ≤ c.toNat := h.1
      have hcode : c.toNat = '0'.toNat ∨ c.toNat = '1'.toNat := by
        simp only [Char.reduceToNat] at *
        omega
      rwa [Char.toNat_inj, Char.toNat_inj] at hcode
    · obtain rfl := Option.some.inj hvalue
      omega
    · obtain rfl := Option.some.inj hvalue
      omega
  · rintro (rfl | rfl)
    · exact ⟨0, by decide⟩
    · exact ⟨1, by decide⟩

/-- Binary digits denote a number below the power of their count. -/
theorem exists_readFrom?_two {digits : Text} (h : ∀ c ∈ digits, c = '0' ∨ c = '1') (k : Nat) :
    ∃ n < (k + 1) * 2 ^ digits.length, readFrom? 2 k digits = some n := by
  induction digits generalizing k with
  | nil => exact ⟨k, by simp, rfl⟩
  | cons c rest ih =>
    obtain ⟨d, hdigit⟩ := (exists_digit?_two_iff c).mpr (h c List.mem_cons_self)
    have hd : d < 2 := lt_of_digit? hdigit
    obtain ⟨n, hn, hread⟩ := ih (fun c' hc' => h c' (List.mem_cons_of_mem c hc')) (k * 2 + d)
    refine ⟨n, ?_, ?_⟩
    · calc n < (k * 2 + d + 1) * 2 ^ rest.length := hn
        _ ≤ (k + 1) * 2 * 2 ^ rest.length := Nat.mul_le_mul_right _ (by omega)
        _ = (k + 1) * 2 ^ (c :: rest).length := by
          rw [List.length_cons, Nat.pow_succ', Nat.mul_assoc]
    · rw [readFrom?, hdigit, Option.bind_some, hread]

def UnsignedLiteral (s : Text) (n : Nat) : Prop :=
  n ≤ literalLimit ∧
    ((∃ digits, (s = '0' :: 'x' :: digits ∨ s = '0' :: 'X' :: digits) ∧ Numeral 16 digits n) ∨
      (∃ digits, (s = '0' :: 'b' :: digits ∨ s = '0' :: 'B' :: digits) ∧ Numeral 2 digits n) ∨
      Numeral 10 s n)

def Literal (s : Text) (v : Int) : Prop :=
  ∃ body n, UnsignedLiteral body n ∧ (s.trim = body ∧ v = n ∨ s.trim = '-' :: body ∧ v = -n)

theorem not_numeral_of_digit?_eq_none {base : Nat} {s : Text} {c : Char} (hc : c ∈ s)
    (hd : digit? base c = none) (n : Nat) : ¬ Numeral base s n := by
  intro h
  obtain ⟨d, he⟩ := h.digit_of_mem hc
  rw [hd] at he
  cases he

theorem magnitude?_eq_some_iff (s : Text) (n : Nat) :
    magnitude? s = some n ↔ UnsignedLiteral s n := by
  -- the letter of a base is no decimal digit, so the forms of a literal exclude each other
  have hbase : ∀ p ∈ ['x', 'X', 'b', 'B'], ∀ digits, ¬ Numeral 10 ('0' :: p :: digits) n := by
    intro p hp digits
    have hdigit : ∀ p ∈ ['x', 'X', 'b', 'B'], digit? 10 p = none := by
      simp only [List.forall_mem_cons]
      exact ⟨by decide, by decide, by decide, by decide, by simp⟩
    exact not_numeral_of_digit?_eq_none (by simp) (hdigit p hp) n
  simp only [magnitude?, UnsignedLiteral, Option.filter_eq_some_iff, decide_eq_true_eq]
  rw [and_comm]
  apply and_congr_right
  intro _
  split <;> simp_all [read?_eq_some_iff]

theorem isDigit_iff_digit? (c : Char) : c.isDigit = true ↔ ∃ d, digit? 10 c = some d := by
  have hdigit : c.isDigit = true ↔ '0' ≤ c ∧ c ≤ '9' := by
    simp [Char.isDigit, Char.le_def]
  have hvalue : '0' ≤ c ∧ c ≤ '9' → c.toNat - '0'.toNat < 10 := by
    rintro ⟨-, h⟩
    have hle : c.toNat ≤ '9'.toNat := h
    simp only [Char.reduceToNat] at *
    omega
  rw [hdigit]
  constructor
  · intro h
    refine ⟨c.toNat - '0'.toNat, ?_⟩
    rw [digit?, if_pos h]
    simpa [Option.filter_eq_some_iff] using hvalue h
  · rintro ⟨d, hd⟩
    obtain ⟨hd, hten⟩ := Option.filter_eq_some_iff.mp hd
    have hten : d < 10 := of_decide_eq_true hten
    -- a letter has a value of ten or more
    split_ifs at hd with h
    · exact h
    · obtain rfl := Option.some.inj hd
      omega
    · obtain rfl := Option.some.inj hd
      omega

theorem UnsignedLiteral.isDigit_head {s : Text} {n : Nat} (h : UnsignedLiteral s n) :
    ∃ c rest, s = c :: rest ∧ c.isDigit = true := by
  obtain ⟨-, ⟨digits, hs, -⟩ | ⟨digits, hs, -⟩ | h⟩ := h
  · rcases hs with rfl | rfl <;> exact ⟨_, _, rfl, by decide⟩
  · rcases hs with rfl | rfl <;> exact ⟨_, _, rfl, by decide⟩
  · obtain ⟨c, rest, rfl⟩ := List.exists_cons_of_ne_nil h.1
    exact ⟨c, rest, rfl, (isDigit_iff_digit? c).mpr (h.digit_of_mem (List.mem_cons_self ..))⟩

theorem Literal.head {s : Text} {v : Int} (h : Literal s v) :
    ∃ c rest, s.trim = c :: rest ∧ (c = '-' ∨ c.isDigit = true) := by
  obtain ⟨body, n, hbody, ⟨htrim, -⟩ | ⟨htrim, -⟩⟩ := h
  · obtain ⟨c, rest, rfl, hc⟩ := hbody.isDigit_head
    exact ⟨c, rest, htrim, .inr hc⟩
  · exact ⟨'-', body, htrim, .inl rfl⟩

theorem not_unsignedLiteral_minus (body : Text) (n : Nat) : ¬ UnsignedLiteral ('-' :: body) n := by
  intro h
  obtain ⟨c, rest, hbody, hc⟩ := h.isDigit_head
  obtain rfl : '-' = c := (List.cons.inj hbody).1
  exact absurd hc (by decide)

theorem literal?_eq_some_iff (s : Text) (v : Int) : literal? s = some v ↔ Literal s v := by
  simp only [literal?, Literal]
  split
  · rename_i body htrim
    simp only [Option.map_eq_some_iff, magnitude?_eq_some_iff, htrim]
    constructor
    · rintro ⟨n, hn, rfl⟩
      exact ⟨body, n, hn, .inr ⟨rfl, rfl⟩⟩
    · rintro ⟨_, n, hn, ⟨rfl, -⟩ | ⟨hbody, rfl⟩⟩
      · exact absurd hn (not_unsignedLiteral_minus body n)
      · obtain rfl := List.tail_eq_of_cons_eq hbody
        exact ⟨n, hn, rfl⟩
  · rename_i htrim
    simp only [Option.map_eq_some_iff, magnitude?_eq_some_iff]
    constructor
    · rintro ⟨n, hn, rfl⟩
      exact ⟨s.trim, n, hn, .inl ⟨rfl, rfl⟩⟩
    · rintro ⟨body, n, hn, ⟨rfl, rfl⟩ | ⟨hbody, -⟩⟩
      · exact ⟨n, hn, rfl⟩
      · exact absurd hbody (htrim body)

end ByteMachine.Text
