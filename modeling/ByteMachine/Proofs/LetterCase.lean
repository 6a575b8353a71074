import ByteMachine.Proofs.SymbolOperands

/-!
# Letter case

Two texts that differ in letter case only have blanks, digits and comments at the same places. So
they are the same register or the same condition if one of them is any, and both of them are
reserved or none. A reserved word begins as neither a literal nor a pointed name does, and a table
that binds no reserved names gives it no value.
-/
namespace ByteMachine

open Text

/-- Only a capital letter has another form. -/
theorem toLower_cases (c : Char) :
    c.toLower = c ∨ (65 ≤ c.toNat ∧ c.toNat ≤ 90 ∧ c.toLower.toNat = c.toNat + 32) := by
  unfold Char.toLower
  split
  · rename_i h
    obtain ⟨hlow, hhigh⟩ : 65 ≤ c.toNat ∧ c.toNat ≤ 90 := by
      simpa [UInt32.le_iff_toNat_le] using h
    refine .inr ⟨hlow, hhigh, ?_⟩
    have hsum : (c.val + ('a'.val - 'A'.val)).toNat = c.val.toNat + 32 := by
      have hlt : c.val.toNat ≤ 90 := hhigh
      rw [UInt32.toNat_add]
      change (c.val.toNat + 32) % 2 ^ 32 = _
      omega
    exact hsum
  · exact .inl rfl

theorem isAlpha_of_toLower_ne {c : Char} (h : c.toLower ≠ c) :
    c.isAlpha = true ∧ c.toLower.isAlpha = true := by
  rcases toLower_cases c with hsame | ⟨hlow, hhigh, hlower⟩
  · exact absurd hsame h
  · exact ⟨(isAlpha_iff c).mpr (.inl ⟨hlow, hhigh⟩), (isAlpha_iff _).mpr (.inr (by omega))⟩

/-- A kind of characters with all letters in it, or none, does not depend on the case. -/
theorem kind_toLower (kind : Char → Bool) (b : Bool) (h : ∀ c : Char, c.isAlpha = true → kind c = b)
    (c : Char) : kind c.toLower = kind c := by
  by_cases hsame : c.toLower = c
  · rw [hsame]
  · obtain ⟨hc, hlower⟩ := isAlpha_of_toLower_ne hsame
    rw [h c hc, h _ hlower]

theorem isBlank_toLower (c : Char) : isBlank c.toLower = isBlank c :=
  kind_toLower isBlank false
    (fun _ hc => not_isBlank_of_isAlphanum (Bool.or_eq_true_iff.mpr (.inl hc))) c

/-- What is no letter has one form only. -/
theorem eq_of_toLower_eq {c d : Char} (h : c.toLower = d.toLower) (hd : d.isAlpha = false) :
    c = d := by
  have hsame : d.toLower = d := by
    by_contra hne
    rw [(isAlpha_of_toLower_ne hne).1] at hd
    cases hd
  rw [hsame] at h
  by_contra hne
  have halpha := (isAlpha_of_toLower_ne fun hc => hne (hc.symm.trans h)).2
  rw [h, hd] at halpha
  cases halpha

namespace Text

theorem trim_fold (s : Text) : s.fold.trim = s.trim.fold := by
  have hblank : isBlank ∘ Char.toLower = isBlank := funext isBlank_toLower
  simp only [trim, trimStart, trimEnd, fold, List.dropWhile_map, hblank, ← List.map_reverse]

theorem fold_append (s t : Text) : (s ++ t).fold = s.fold ++ t.fold := List.map_append

theorem fold_eq_cons_iff {s : Text} {c : Char} {t : Text} :
    s.fold = c :: t ↔ ∃ d, ∃ rest : Text, s = d :: rest ∧ d.toLower = c ∧ rest.fold = t := by
  unfold fold
  rw [List.map_eq_cons_iff]

/-- Digits have one form only. -/
theorem eq_of_fold_eq_digits {s digits : Text} (h : s.fold = digits.fold)
    (hdigits : ∀ d ∈ digits, d.isDigit = true) : s = digits := by
  induction digits generalizing s with
  | nil => exact List.map_eq_nil_iff.mp h
  | cons d digits ih =>
    obtain ⟨c, rest, rfl, hc, hrest⟩ := fold_eq_cons_iff.mp h
    have hd : d.isAlpha = false := Bool.eq_false_of_not_eq_true fun halpha =>
      not_isDigit_of_isAlpha halpha (hdigits d (List.mem_cons_self ..))
    rw [eq_of_toLower_eq hc hd, ih hrest fun e he => hdigits e (List.mem_cons_of_mem d he)]

theorem exists_register_of_fold {s s' : Text} (h : s.fold = s'.fold) {c : Char} {digits : Text}
    (htrim : s.trim = c :: digits) (hc : c = 'r' ∨ c = 'R')
    (hdigits : ∀ d ∈ digits, d.isDigit = true) :
    ∃ c', s'.trim = c' :: digits ∧ (c' = 'r' ∨ c' = 'R') := by
  have hfold : s'.trim.fold = c.toLower :: digits.fold := by
    rw [← trim_fold, ← h, trim_fold, htrim]
    rfl
  obtain ⟨c', digits', htrim', hc', hdigits'⟩ := fold_eq_cons_iff.mp hfold
  refine ⟨c', ?_, ?_⟩
  · rw [htrim', eq_of_fold_eq_digits hdigits' hdigits]
  · have hlower : c'.toLower = 'r' := by
      rcases hc with rfl | rfl
      · exact hc'
      · exact hc'
    rcases toLower_cases c' with hsame | ⟨-, -, hnat⟩
    · exact .inl (hsame.symm.trans hlower)
    · right
      have hvalue : c'.toNat = 'R'.toNat := by
        rw [hlower] at hnat
        have hr : 'r'.toNat = 'R'.toNat + 32 := rfl
        omega
      exact Char.toNat_inj.mp hvalue

theorem looksLikeRegister_of_fold {s s' : Text} (h : s.fold = s'.fold)
    (hs : s.looksLikeRegister = true) : s'.looksLikeRegister = true := by
  obtain ⟨c, digits, htrim, hc, hne, hdigits⟩ := (looksLikeRegister_iff s).mp hs
  obtain ⟨c', htrim', hc'⟩ := exists_register_of_fold h htrim hc hdigits
  exact (looksLikeRegister_iff s').mpr ⟨c', digits, htrim', hc', hne, hdigits⟩

theorem isReserved_fold {s s' : Text} (h : s.fold = s'.fold) : s.isReserved = s'.isReserved := by
  have hregister : s.looksLikeRegister = s'.looksLikeRegister :=
    Bool.eq_iff_iff.mpr ⟨looksLikeRegister_of_fold h, looksLikeRegister_of_fold h.symm⟩
  simp only [isReserved, Mnemonic.ofToken?, Condition.ofToken?, sameFolded, h, hregister]

def beginsValue (c : Char) : Bool := c == '.' || c == '-' || c.isDigit

theorem beginsValue_toLower (c : Char) : beginsValue c.toLower = beginsValue c := by
  refine kind_toLower beginsValue false (fun c hc => ?_) c
  have hdigit : c.isDigit = false := Bool.eq_false_of_not_eq_true (not_isDigit_of_isAlpha hc)
  simp only [beginsValue, hdigit, Bool.or_false, Bool.or_eq_false_iff, beq_eq_false_iff_ne]
  constructor <;>
    · rintro rfl
      exact absurd hc (by decide)

theorem head?_trim_of_fold {s w : Text} (h : s.fold = w)
    (hw : ∃ c, w.trim.head? = some c ∧ beginsValue c = false) :
    ∃ c, s.trim.head? = some c ∧ beginsValue c = false := by
  obtain ⟨c, hhead, hc⟩ := hw
  rw [← h, trim_fold, fold, List.head?_map, Option.map_eq_some_iff] at hhead
  obtain ⟨d, hd, rfl⟩ := hhead
  exact ⟨d, hd, (beginsValue_toLower d).symm.trans hc⟩

/-- A reserved word begins with neither a point nor a minus nor a digit. -/
theorem head?_trim_of_isReserved {s : Text} (h : s.isReserved = true) :
    ∃ c, s.trim.head? = some c ∧ beginsValue c = false := by
  simp only [isReserved, Bool.or_eq_true, Option.isSome_iff_exists] at h
  rcases h with ((⟨m, hm⟩ | ⟨condition, hcondition⟩) | hdefine) | hregister
  · refine head?_trim_of_fold ((Mnemonic.ofToken?_eq_some_iff s m).mp hm) ?_
    cases m <;> exact ⟨_, rfl, by decide⟩
  · obtain ⟨a, ha, hfold⟩ := (Condition.ofToken?_eq_some_iff s condition).mp hcondition
    refine head?_trim_of_fold hfold ?_
    clear hfold
    revert a
    cases condition <;> simp only [Condition.aliases, List.forall_mem_cons] <;>
      exact ⟨⟨_, rfl, by decide⟩, ⟨_, rfl, by decide⟩, ⟨_, rfl, by decide⟩, ⟨_, rfl, by decide⟩,
        by simp⟩
  · exact head?_trim_of_fold ((sameFolded_defineWord_iff s).mp hdefine) ⟨_, rfl, by decide⟩
  · obtain ⟨c, digits, htrim, hc, -⟩ := (looksLikeRegister_iff s).mp hregister
    rw [htrim]
    rcases hc with rfl | rfl <;> exact ⟨_, rfl, by decide⟩

end Text

theorem denotesRegister_fold {token token' : Text} (h : token.fold = token'.fold) (r : UInt8) :
    DenotesRegister token r ↔ DenotesRegister token' r := by
  have hforward {s s' : Text} (h : s.fold = s'.fold) (hs : DenotesRegister s r) :
      DenotesRegister s' r := by
    obtain ⟨c, digits, htrim, hc, hnumeral, hr⟩ := hs
    have hdigits : ∀ d ∈ digits, d.isDigit = true := fun d hd =>
      (isDigit_iff_digit? d).mpr (hnumeral.digit_of_mem hd)
    obtain ⟨c', htrim', hc'⟩ := exists_register_of_fold h htrim hc hdigits
    exact ⟨c', digits, htrim', hc', hnumeral, hr⟩
  exact ⟨hforward h, hforward h.symm⟩

theorem denotesCondition_fold {token token' : Text} (h : token.fold = token'.fold)
    (c : Condition) : DenotesCondition token c ↔ DenotesCondition token' c := by
  unfold DenotesCondition
  rw [h]

/-- A reserved word has no value where no reserved name has one. -/
theorem not_denotesValue_of_isReserved {symbol : Text → Int → Prop} {token : Text} {v : Int}
    (hsymbol : ∀ name v, symbol name v → name.isReserved = false)
    (h : token.isReserved = true) : ¬ DenotesValue symbol token v := by
  obtain ⟨c, hhead, hc⟩ := head?_trim_of_isReserved h
  rintro (hliteral | ⟨name, rfl | rfl, hname, hbound⟩)
  · obtain ⟨d, rest, htrim, hd⟩ := hliteral.head
    rw [htrim] at hhead
    obtain rfl := Option.some.inj hhead
    rcases hd with rfl | hdigit
    · cases hc
    · simp [beginsValue, hdigit] at hc
  · rw [hsymbol _ _ hbound] at h
    cases h
  · have hnames : Names ('.' :: name) name := ⟨.inr rfl, hname⟩
    rw [hnames.trim_eq] at hhead
    obtain rfl := Option.some.inj hhead
    cases hc

end ByteMachine
