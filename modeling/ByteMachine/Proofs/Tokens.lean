import ByteMachine.Source.Token
import Mathlib.Data.List.DropRight

/-!
# Text cut into tokens

A text is separated into pieces when it is these pieces with separators between and around them.
Cutting a text at its separators gives the only pieces that it is separated into. Blanks around a
text make no difference to its operand tokens, and trimming leaves a text alone that neither begins
nor ends with a blank.
-/
namespace ByteMachine.Text

def Opens (kind : Char → Bool) (s : Text) : Prop := ∀ c ∈ s.head?, kind c = true

/-- The text is pieces without separators, in this order, set apart by separators. -/
inductive Separated (separates : Char → Bool) : Text → List Text → Prop
  | nil {gap : Text} (hgap : ∀ c ∈ gap, separates c = true) : Separated separates gap []
  | cons {gap piece rest : Text} {pieces : List Text}
      (hgap : ∀ c ∈ gap, separates c = true) (hne : piece ≠ [])
      (hpiece : ∀ c ∈ piece, separates c = false) (hopens : rest.Opens separates)
      (hrest : Separated separates rest pieces) :
      Separated separates (gap ++ piece ++ rest) (piece :: pieces)

section Words
variable {separates : Char → Bool}

theorem words_append_cons (s t : Text) {c : Char} (hc : separates c = true) :
    words separates (s ++ c :: t) = words separates s ++ words separates t := by
  simp [words, List.splitOnP_append_cons s t hc]

theorem words_gap_append {gap : Text} (h : ∀ c ∈ gap, separates c = true) (s : Text) :
    words separates (gap ++ s) = words separates s := by
  induction gap with
  | nil => rfl
  | cons c gap ih =>
    have hcons := words_append_cons [] (gap ++ s) (h c (List.mem_cons_self ..))
    exact hcons.trans (ih fun d hd => h d (List.mem_cons_of_mem c hd))

theorem words_gap {gap : Text} (h : ∀ c ∈ gap, separates c = true) : words separates gap = [] := by
  have hgap := words_gap_append h []
  rwa [List.append_nil] at hgap

theorem words_append_gap {gap : Text} (h : ∀ c ∈ gap, separates c = true) (s : Text) :
    words separates (s ++ gap) = words separates s := by
  cases gap with
  | nil => rw [List.append_nil]
  | cons c gap =>
    rw [words_append_cons s gap (h c (List.mem_cons_self ..)),
      words_gap fun d hd => h d (List.mem_cons_of_mem c hd), List.append_nil]

theorem words_piece_append {piece rest : Text} (hne : piece ≠ [])
    (h : ∀ c ∈ piece, separates c = false) (hopens : rest.Opens separates) :
    words separates (piece ++ rest) = piece :: words separates rest := by
  have hpiece : words separates piece = [piece] := by
    simp [words, List.splitOnP_eq_singleton h, hne]
  cases rest with
  | nil => rw [List.append_nil, hpiece]; rfl
  | cons c rest =>
    have hc : separates c = true := hopens c rfl
    have hgap : words separates ([c] ++ rest) = words separates rest :=
      words_gap_append (by simpa using hc) rest
    rw [words_append_cons piece rest hc, hpiece, ← hgap]
    rfl

theorem Separated.words_eq {s : Text} {pieces : List Text} (h : Separated separates s pieces) :
    words separates s = pieces := by
  induction h with
  | nil hgap => exact words_gap hgap
  | cons hgap hne hpiece hopens _ ih =>
    rw [List.append_assoc, words_gap_append hgap, words_piece_append hne hpiece hopens, ih]

theorem opens_dropWhile (kind : Char → Bool) (s : Text) : Opens kind (s.dropWhile (!kind ·)) := by
  intro c hc
  have hhead := List.head?_dropWhile_not (!kind ·) s
  rw [Option.mem_def.mp hc] at hhead
  simpa using hhead

/-- Every text is separated into some pieces. The induction takes off the first gap and the first
piece. -/
theorem exists_separated (s : Text) : ∃ pieces, Separated separates s pieces := by
  induction hn : s.length using Nat.strongRecOn generalizing s with
  | ind n ih =>
    have hgap : ∀ c ∈ s.takeWhile separates, separates c = true := fun c hc =>
      List.mem_takeWhile_imp hc
    have hs : s.takeWhile separates ++ s.dropWhile separates = s := List.takeWhile_append_dropWhile
    cases htail : s.dropWhile separates with
    | nil =>
      rw [htail, List.append_nil] at hs
      exact ⟨[], hs ▸ .nil hgap⟩
    | cons d tail =>
      have hd : separates d = false := by
        have hhead := List.head?_dropWhile_not separates s
        rw [htail] at hhead
        simpa using hhead
      let rest := tail.dropWhile (!separates ·)
      have hpiece : ∀ c ∈ d :: tail.takeWhile (!separates ·), separates c = false := by
        intro c hc
        rcases List.mem_cons.mp hc with rfl | hmem
        · exact hd
        · simpa using List.mem_takeWhile_imp hmem
      have hlength : rest.length < n := by
        have hle := (List.dropWhile_suffix (p := separates) (l := s)).length_le
        have hle' := (List.dropWhile_suffix (p := (!separates ·)) (l := tail)).length_le
        rw [htail, List.length_cons] at hle
        simp only [rest]
        omega
      obtain ⟨pieces, hrest⟩ := ih rest.length hlength rest rfl
      refine ⟨(d :: tail.takeWhile (!separates ·)) :: pieces, ?_⟩
      have hs' : s = s.takeWhile separates ++ (d :: tail.takeWhile (!separates ·)) ++ rest := by
        rw [List.append_assoc, List.cons_append, List.takeWhile_append_dropWhile, ← htail, hs]
      rw [hs']
      exact .cons hgap (List.cons_ne_nil _ _) hpiece (opens_dropWhile separates tail) hrest

/-- The pieces that a text is separated into are unique, and cutting finds them. -/
theorem separated_iff (s : Text) (pieces : List Text) :
    Separated separates s pieces ↔ words separates s = pieces := by
  refine ⟨Separated.words_eq, ?_⟩
  rintro rfl
  obtain ⟨pieces, h⟩ : ∃ pieces, Separated separates s pieces := exists_separated s
  rwa [h.words_eq]

end Words

/-- The head of a line is its text up to the first blank. -/
theorem splitHead_eq_iff (s head code : Text) :
    s.splitHead = (head, code) ↔
      ∃ rest, s = head ++ rest ∧ (∀ c ∈ head, isBlank c = false) ∧ Opens isBlank rest ∧
        code = rest.trim := by
  constructor
  · intro h
    obtain ⟨rfl, rfl⟩ := Prod.mk.inj h
    refine ⟨s.dropWhile (!isBlank ·), List.takeWhile_append_dropWhile.symm, ?_,
      opens_dropWhile isBlank s, rfl⟩
    intro c hc
    simpa using List.mem_takeWhile_imp hc
  · rintro ⟨rest, rfl, hhead, hopens, rfl⟩
    have hall : ∀ c ∈ head, (!isBlank c) = true := fun c hc => by simp [hhead c hc]
    have hstop : rest.takeWhile (!isBlank ·) = [] ∧ rest.dropWhile (!isBlank ·) = rest := by
      cases rest with
      | nil => simp
      | cons c rest => simp [hopens c rfl]
    simp only [splitHead, List.takeWhile_append_of_pos hall, List.dropWhile_append_of_pos hall,
      hstop, List.append_nil]

theorem trimEnd_eq_rdropWhile (s : Text) : s.trimEnd = s.rdropWhile isBlank := rfl

/-- Trimming takes blanks off both ends. -/
theorem exists_trim (s : Text) : ∃ front back, s = front ++ s.trim ++ back ∧
    (∀ c ∈ front, isBlank c = true) ∧ ∀ c ∈ back, isBlank c = true := by
  refine ⟨s.takeWhile isBlank, s.trimStart.rtakeWhile isBlank, ?_, ?_, ?_⟩
  · rw [List.append_assoc, trim, trimEnd_eq_rdropWhile, List.rdropWhile_append_rtakeWhile]
    exact List.takeWhile_append_dropWhile.symm
  · exact fun c hc => List.mem_takeWhile_imp hc
  · exact fun c hc => List.mem_rtakeWhile_imp hc

theorem not_isBlank_of_mem_head?_trim (s : Text) : ∀ c ∈ s.trim.head?, isBlank c = false := by
  intro c hc
  obtain ⟨back, hback⟩ : s.trim <+: s.trimStart := List.rdropWhile_prefix ..
  have hhead := List.head?_dropWhile_not isBlank s
  rw [show s.dropWhile isBlank = s.trimStart from rfl, ← hback, List.head?_append,
    Option.mem_def.mp hc] at hhead
  simpa using hhead

theorem not_isBlank_of_mem_getLast?_trim (s : Text) :
    ∀ c ∈ s.trim.getLast?, isBlank c = false := by
  intro c hc
  obtain ⟨hne, rfl⟩ := List.mem_getLast?_eq_getLast hc
  exact eq_false_of_ne_true (List.rdropWhile_last_not isBlank s.trimStart hne)

/-- A text that neither begins nor ends with a blank is left alone. -/
theorem trim_eq_self {s : Text} (hfirst : ∀ c ∈ s.head?, isBlank c = false)
    (hlast : ∀ c ∈ s.getLast?, isBlank c = false) : s.trim = s := by
  have hstart : s.trimStart = s := by
    cases s with
    | nil => rfl
    | cons c rest => simp [trimStart, hfirst c rfl]
  rw [trim, hstart, trimEnd_eq_rdropWhile, List.rdropWhile_eq_self_iff]
  intro hne
  simp [hlast _ (List.getLast?_eq_some_getLast hne)]

theorem trim_eq_self_of_forall {s : Text} (h : ∀ c ∈ s, isBlank c = false) : s.trim = s :=
  trim_eq_self (fun c hc => h c (List.mem_of_mem_head? hc))
    (fun c hc => h c (List.mem_of_mem_getLast? hc))

theorem isOperandSeparator_of_isBlank {c : Char} (h : isBlank c = true) :
    isOperandSeparator c = true := by
  simp [isOperandSeparator, h]

theorem operandTokens_trim (s : Text) : s.trim.operandTokens = s.operandTokens := by
  obtain ⟨front, back, hs, hfront, hback⟩ := exists_trim s
  have hfront' : ∀ c ∈ front, isOperandSeparator c = true := fun c hc =>
    isOperandSeparator_of_isBlank (hfront c hc)
  have hback' : ∀ c ∈ back, isOperandSeparator c = true := fun c hc =>
    isOperandSeparator_of_isBlank (hback c hc)
  calc
    s.trim.operandTokens = words isOperandSeparator (front ++ s.trim) :=
      (words_gap_append hfront' s.trim).symm
    _ = words isOperandSeparator (front ++ s.trim ++ back) := (words_append_gap hback' _).symm
    _ = s.operandTokens := by rw [← hs, operandTokens]

end ByteMachine.Text
