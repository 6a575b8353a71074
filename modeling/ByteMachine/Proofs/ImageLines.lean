import ByteMachine.Proofs.ImageRoundTrip

/-!
# Which images are read

Every line of an image is nothing but a comment and blanks, a word of sixteen binary digits, or
malformed. An image is read when no line is malformed and there are not too many words, and the
words are then those of its lines in their order. Otherwise each malformed line is reported once,
and so is the line of the first word beyond the limit.
-/
namespace ByteMachine

open Text

/-- The digits of the line with this number, its code without blanks and underscores, have a
property. -/
def DigitsAt (image : Text) (n : Nat) (P : Text → Prop) : Prop :=
  ∃ line code, image.lines[n]? = some line ∧ Uncommented line code ∧
    P (code.filter fun c => !isBlank c && c != '_')

def IsWord (digits : Text) : Prop := digits.length = 16 ∧ ∀ c ∈ digits, c = '0' ∨ c = '1'

instance : DecidablePred IsWord := fun _ => inferInstanceAs (Decidable (_ ∧ _))

def Spells (digits : Text) (w : UInt16) : Prop := IsWord digits ∧ Numeral 2 digits w.toNat

theorem digitsAt_iff (image : Text) (n : Nat) (P : Text → Prop) :
    DigitsAt image n P ↔ ∃ line, image.lines[n]? = some line ∧ P (imageDigits line) := by
  simp [DigitsAt, uncommented_iff, imageDigits]

instance (image : Text) (n : Nat) (P : Text → Prop) [DecidablePred P] :
    Decidable (DigitsAt image n P) :=
  decidable_of_iff (∃ line ∈ image.lines[n]?, P (imageDigits line)) (digitsAt_iff image n P).symm

def filledLines (image : Text) : List Nat :=
  (List.range image.lines.length).filter fun n => DigitsAt image n (· ≠ [])

def wordsAbove (image : Text) (n : Nat) : Nat :=
  (List.range n).countP fun k => DigitsAt image k IsWord

/-- What is reported of a line: its digits if it is malformed, and the number of words in the whole
image if it has the first word beyond the limit. -/
inductive Reported (image : Text) (n : Nat) : Diagnostic ImageError → Prop
  | malformed (digits : Text)
      (h : DigitsAt image n fun ds => ds = digits ∧ ds ≠ [] ∧ ¬ IsWord ds) :
      Reported image n ⟨n, .malformedWord digits⟩
  | beyond (hword : DigitsAt image n IsWord) (hplace : wordsAbove image n = 1024) :
      Reported image n ⟨n, .imageTooLong (wordsAbove image image.lines.length)⟩

theorem DigitsAt.lt_length {image : Text} {n : Nat} {P : Text → Prop} (h : DigitsAt image n P) :
    n < image.lines.length := by
  obtain ⟨line, code, hline, -⟩ := h
  exact (List.getElem?_eq_some_iff.mp hline).1

theorem DigitsAt.imp {image : Text} {n : Nat} {P Q : Text → Prop} (h : DigitsAt image n P)
    (hPQ : ∀ digits, P digits → Q digits) : DigitsAt image n Q := by
  obtain ⟨line, code, hline, hcode, hP⟩ := h
  exact ⟨line, code, hline, hcode, hPQ _ hP⟩

theorem not_isWord_nil : ¬ IsWord [] := by
  rintro ⟨hlength, -⟩
  cases hlength

/-- The digits of a word are read. -/
theorem readWord_of_isWord {digits : Text} (h : IsWord digits) :
    ∃ w, readWord digits = .ok w ∧ Spells digits w := by
  obtain ⟨n, hn, hread⟩ := exists_readFrom?_two h.2 0
  have hne : digits ≠ [] := by
    rintro rfl
    exact not_isWord_nil h
  have hread : read? 2 digits = some n := (read?_of_ne_nil hne 2).trans hread
  have hvalue : (UInt16.ofNat n).toNat = n := by
    rw [h.1] at hn
    exact Nat.mod_eq_of_lt (by omega)
  refine ⟨.ofNat n, by rw [readWord, if_pos h.1, hread], h, ?_⟩
  rw [hvalue]
  exact (read?_eq_some_iff ..).mp hread

theorem readWord_of_not_isWord {digits : Text} (h : ¬ IsWord digits) :
    readWord digits = .error (.malformedWord digits) := by
  unfold readWord
  split
  · rename_i hlength
    cases hread : read? 2 digits with
    | none => rfl
    | some n =>
      have hnumeral : Numeral 2 digits n := (read?_eq_some_iff ..).mp hread
      refine absurd ⟨hlength, fun c hc => ?_⟩ h
      exact (exists_digit?_two_iff c).mp (hnumeral.digit_of_mem hc)
  · rfl

def imageRowAt (image : Text) (n : Nat) : Option ImageRow :=
  image.lines[n]?.bind fun line =>
    if (imageDigits line).isEmpty then none else some ⟨n, readWord (imageDigits line)⟩

def imageRowsAbove (image : Text) (n : Nat) : List ImageRow :=
  (List.range n).filterMap (imageRowAt image)

inductive RowAt (image : Text) (n : Nat) : Option ImageRow → Prop
  | passed (h : ∀ P : Text → Prop, ¬ P [] → ¬ DigitsAt image n P) : RowAt image n none
  | word {digits : Text} (w : UInt16) (h : ∀ P : Text → Prop, DigitsAt image n P ↔ P digits)
      (hword : Spells digits w) : RowAt image n (some ⟨n, .ok w⟩)
  | malformed (digits : Text) (h : ∀ P : Text → Prop, DigitsAt image n P ↔ P digits)
      (hne : digits ≠ []) (hword : ¬ IsWord digits) :
      RowAt image n (some ⟨n, .error (.malformedWord digits)⟩)

theorem rowAt (image : Text) (n : Nat) : RowAt image n (imageRowAt image n) := by
  unfold imageRowAt
  cases hline : image.lines[n]? with
  | none =>
    refine .passed fun P _ => ?_
    rw [digitsAt_iff, hline]
    rintro ⟨line, h, -⟩
    cases h
  | some line =>
    have hdigits (P : Text → Prop) : DigitsAt image n P ↔ P (imageDigits line) := by
      simp [digitsAt_iff, hline]
    rw [Option.bind_some]
    by_cases hnil : imageDigits line = []
    · rw [hnil, if_pos (List.isEmpty_nil)]
      refine .passed fun P hempty => ?_
      rwa [hdigits, hnil]
    · rw [if_neg (by simpa using hnil)]
      by_cases hword : IsWord (imageDigits line)
      · obtain ⟨w, hread, hspells⟩ := readWord_of_isWord hword
        rw [hread]
        exact .word w hdigits hspells
      · rw [readWord_of_not_isWord hword]
        exact .malformed _ hdigits hnil hword

theorem filterMap_zipIdx {α β : Type} (f : α × Nat → Option β) (l : List α) :
    l.zipIdx.filterMap f =
      (List.range l.length).filterMap fun n => l[n]?.bind fun a => f (a, n) := by
  induction l using List.reverseRecOn with
  | nil => rfl
  | append_singleton l a ih =>
    have hbefore : ∀ n ∈ List.range l.length, ((l ++ [a])[n]?.bind fun a => f (a, n)) =
        l[n]?.bind fun a => f (a, n) := by
      intro n hn
      rw [List.getElem?_append_left (List.mem_range.mp hn)]
    rw [List.zipIdx_append, List.filterMap_append, ih, List.length_append, List.length_singleton,
      List.range_succ, List.filterMap_append, List.filterMap_congr hbefore]
    simp [List.filterMap_cons]

theorem imageRows_eq_imageRowsAbove (image : Text) :
    imageRows image = imageRowsAbove image image.lines.length :=
  filterMap_zipIdx ..

theorem imageRowsAbove_succ (image : Text) (n : Nat) :
    imageRowsAbove image (n + 1) = imageRowsAbove image n ++ (imageRowAt image n).toList := by
  rw [imageRowsAbove, List.range_succ, List.filterMap_append,
    List.filterMap_eq_flatMap_toList _ [n], List.flatMap_singleton]
  rfl

theorem imageDiagnostics_append (total good : Nat) (rows rest : List ImageRow) :
    imageDiagnostics total good (rows ++ rest) = imageDiagnostics total good rows ++
      imageDiagnostics total (good + (imageWords rows).length) rest := by
  induction rows generalizing good with
  | nil => rfl
  | cons row rows ih =>
    rw [List.cons_append, imageDiagnostics, imageDiagnostics]
    cases hword : row.word with
    | ok w =>
      have hlength : (imageWords (row :: rows)).length = (imageWords rows).length + 1 := by
        simp [imageWords, hword, Except.toOption]
      have hgood : good + 1 + (imageWords rows).length = good + ((imageWords rows).length + 1) := by
        omega
      dsimp only
      rw [ih, hlength, hgood, List.append_assoc]
    | error e =>
      have hwords : imageWords (row :: rows) = imageWords rows := by
        simp [imageWords, hword, Except.toOption]
      dsimp only
      rw [ih, hwords, List.cons_append]

/-- The words of an image are on its lines that have one. -/
theorem map_snd_imageWords (image : Text) (n : Nat) :
    (imageWords (imageRowsAbove image n)).map (·.2) =
      (List.range n).filter fun k => DigitsAt image k IsWord := by
  induction n with
  | zero => rfl
  | succ n ih =>
    have happend : imageWords (imageRowsAbove image (n + 1)) =
        imageWords (imageRowsAbove image n) ++ imageWords (imageRowAt image n).toList := by
      rw [imageRowsAbove_succ, imageWords, List.filterMap_append]
      rfl
    rw [happend, List.map_append, ih, List.range_succ, List.filter_append]
    congr 1
    have hrow := rowAt image n
    generalize imageRowAt image n = row at hrow
    cases hrow with
    | passed h => simp [imageWords, h IsWord not_isWord_nil]
    | word w h hword => simp [imageWords, h, hword.1, Except.toOption]
    | malformed digits h hne hword => simp [imageWords, h, hword, Except.toOption]

theorem length_imageWords (image : Text) (n : Nat) :
    (imageWords (imageRowsAbove image n)).length = wordsAbove image n := by
  rw [wordsAbove, List.countP_eq_length_filter, ← map_snd_imageWords, List.length_map]

theorem spells_of_mem_imageWords {image : Text} {n : Nat} {p : UInt16 × Nat}
    (hp : p ∈ imageWords (imageRowsAbove image n)) : DigitsAt image p.2 (Spells · p.1) := by
  obtain ⟨row, hrow, hp⟩ := List.mem_filterMap.mp hp
  obtain ⟨w, hw, rfl⟩ := Option.map_eq_some_iff.mp hp
  obtain ⟨k, -, hk⟩ := List.mem_filterMap.mp hrow
  have hrow := rowAt image k
  rw [hk] at hrow
  cases hrow with
  | word w' h hword =>
    obtain rfl := Option.some.inj hw
    exact (h _).mpr hword
  | malformed digits h hne hword => cases hw

theorem imageDiagnostics_succ (image : Text) (n total : Nat) :
    imageDiagnostics total 0 (imageRowsAbove image (n + 1)) =
      imageDiagnostics total 0 (imageRowsAbove image n) ++
        imageDiagnostics total (wordsAbove image n) (imageRowAt image n).toList := by
  rw [imageRowsAbove_succ, imageDiagnostics_append, length_imageWords, Nat.zero_add]

theorem Reported.line_eq {image : Text} {n : Nat} {d : Diagnostic ImageError}
    (h : Reported image n d) : d.line = n := by
  cases h <;> rfl

theorem Reported.lt_length {image : Text} {n : Nat} {d : Diagnostic ImageError}
    (h : Reported image n d) : n < image.lines.length := by
  cases h with
  | malformed digits h => exact h.lt_length
  | beyond hword hplace => exact hword.lt_length

/-- A line is reported once or not at all. -/
theorem imageDiagnostics_imageRowAt (image : Text) (n : Nat) :
    ∃ report : Option (Diagnostic ImageError),
      imageDiagnostics (wordsAbove image image.lines.length) (wordsAbove image n)
        (imageRowAt image n).toList = report.toList ∧
      ∀ d, report = some d ↔ Reported image n d := by
  have hrow := rowAt image n
  generalize imageRowAt image n = row at hrow
  cases hrow with
  | passed h =>
    refine ⟨none, rfl, fun d => ⟨fun hd => (nomatch hd), ?_⟩⟩
    rintro (⟨digits, hdigits⟩ | ⟨hword, hplace⟩)
    · exact absurd hdigits (h _ fun hnil => hnil.2.1 rfl)
    · exact absurd hword (h _ not_isWord_nil)
  | malformed digits h hne hword =>
    refine ⟨some ⟨n, .malformedWord digits⟩, rfl, fun d => ⟨?_, ?_⟩⟩
    · rintro ⟨⟩
      exact .malformed digits ((h _).mpr ⟨rfl, hne, hword⟩)
    · rintro (⟨digits', hdigits⟩ | ⟨hword', hplace⟩)
      · rw [((h _).mp hdigits).1]
      · exact absurd ((h _).mp hword') hword
  | word w h hword =>
    by_cases hplace : wordsAbove image n = programLimit
    · refine ⟨some ⟨n, .imageTooLong (wordsAbove image image.lines.length)⟩, ?_, fun d => ⟨?_, ?_⟩⟩
      · simp [imageDiagnostics, hplace]
      · rintro ⟨⟩
        exact .beyond ((h _).mpr hword.1) hplace
      · rintro (⟨digits, hdigits⟩ | ⟨hword', hplace'⟩)
        · exact absurd hword.1 ((h _).mp hdigits).2.2
        · rfl
    · refine ⟨none, by simp [imageDiagnostics, hplace], fun d => ⟨fun hd => (nomatch hd), ?_⟩⟩
      rintro (⟨digits, hdigits⟩ | ⟨hword', hplace'⟩)
      · exact absurd hword.1 ((h _).mp hdigits).2.2
      · exact absurd hplace' hplace

/-- The reports come in the order of the lines. -/
theorem imageDiagnostics_imageRowsAbove (image : Text) (n : Nat) :
    (imageDiagnostics (wordsAbove image image.lines.length) 0 (imageRowsAbove image n)).Pairwise
        (fun d d' => d.line < d'.line) ∧
      ∀ d, d ∈ imageDiagnostics (wordsAbove image image.lines.length) 0 (imageRowsAbove image n) ↔
        ∃ k < n, Reported image k d := by
  induction n with
  | zero => exact ⟨.nil, by simp [imageRowsAbove, imageDiagnostics]⟩
  | succ n ih =>
    obtain ⟨hpairwise, hmem⟩ := ih
    obtain ⟨report, hreport, hreported⟩ := imageDiagnostics_imageRowAt image n
    rw [imageDiagnostics_succ, hreport]
    constructor
    · refine List.pairwise_append.mpr ⟨hpairwise, by cases report <;> simp, ?_⟩
      intro d hd d' hd'
      obtain ⟨k, hk, hd⟩ := (hmem d).mp hd
      rw [hd.line_eq, ((hreported d').mp (Option.mem_toList.mp hd')).line_eq]
      exact hk
    · intro d
      rw [List.mem_append, hmem, Option.mem_toList, hreported]
      simp only [Nat.lt_succ_iff_lt_or_eq, or_and_right, exists_or, exists_eq_left]

/-- A list of numbers has more than `c` of a kind when one of the kind comes after `c` others. -/
theorem lt_countP_range_iff (p : Nat → Bool) (c n : Nat) :
    c < (List.range n).countP p ↔ ∃ k < n, p k = true ∧ (List.range k).countP p = c := by
  induction n with
  | zero => simp
  | succ n ih =>
    simp only [Nat.lt_succ_iff_lt_or_eq, or_and_right, exists_or, exists_eq_left, ← ih]
    rw [List.range_succ, List.countP_append, List.countP_singleton]
    by_cases hn : p n = true
    · simp only [hn, if_true, true_and]
      omega
    · simp [hn]

theorem exists_beyond_iff (image : Text) :
    (∃ n, DigitsAt image n IsWord ∧ wordsAbove image n = 1024) ↔
      1024 < wordsAbove image image.lines.length := by
  unfold wordsAbove
  simp only [lt_countP_range_iff, decide_eq_true_eq]
  constructor
  · rintro ⟨n, hword, hplace⟩
    exact ⟨n, hword.lt_length, hword, hplace⟩
  · rintro ⟨n, -, hword, hplace⟩
    exact ⟨n, hword, hplace⟩

/-- The malformed lines are those that are not empty and have no word. -/
theorem exists_malformed_iff (image : Text) (n : Nat) :
    (∃ digits, DigitsAt image n fun ds => ds = digits ∧ ds ≠ [] ∧ ¬ IsWord ds) ↔
      DigitsAt image n (· ≠ []) ∧ ¬ DigitsAt image n IsWord := by
  simp only [digitsAt_iff]
  cases hline : image.lines[n]? with
  | none => simp
  | some line => simp

/-- Where no line is malformed the lines that are not empty are those with a word. -/
theorem filledLines_eq {image : Text}
    (h : ∀ n, DigitsAt image n (· ≠ []) → DigitsAt image n IsWord) :
    filledLines image =
      (List.range image.lines.length).filter fun n => DigitsAt image n IsWord := by
  apply List.filter_congr
  intro n _
  rw [decide_eq_decide]
  refine ⟨h n, fun hword => hword.imp ?_⟩
  rintro digits hdigits rfl
  exact not_isWord_nil hdigits

theorem length_filledLines {image : Text}
    (h : ∀ n, DigitsAt image n (· ≠ []) → DigitsAt image n IsWord) :
    (filledLines image).length = wordsAbove image image.lines.length := by
  rw [wordsAbove, List.countP_eq_length_filter, filledLines_eq h]

/-- Nothing is reported when no line is malformed and no word is beyond the limit. -/
theorem not_reported_iff (image : Text) :
    (∀ n d, ¬ Reported image n d) ↔
      (∀ n, DigitsAt image n (· ≠ []) → DigitsAt image n IsWord) ∧
        (filledLines image).length ≤ 1024 := by
  constructor
  · intro h
    have hwords : ∀ n, DigitsAt image n (· ≠ []) → DigitsAt image n IsWord := by
      intro n hfilled
      by_contra hword
      obtain ⟨digits, hdigits⟩ := (exists_malformed_iff image n).mpr ⟨hfilled, hword⟩
      exact h n _ (.malformed digits hdigits)
    refine ⟨hwords, ?_⟩
    rw [length_filledLines hwords]
    by_contra hbeyond
    obtain ⟨n, hword, hplace⟩ := (exists_beyond_iff image).mpr (Nat.lt_of_not_le hbeyond)
    exact h n _ (.beyond hword hplace)
  · rintro ⟨hwords, hlength⟩ n d (⟨digits, hdigits⟩ | ⟨hword, hplace⟩)
    · obtain ⟨hfilled, hword⟩ := (exists_malformed_iff image n).mp ⟨digits, hdigits⟩
      exact hword (hwords n hfilled)
    · have hbeyond := (exists_beyond_iff image).mp ⟨n, hword, hplace⟩
      rw [length_filledLines hwords] at hlength
      omega

/-- What is wrong with the rows of an image is what is reported of its lines. -/
theorem mem_imageDiagnostics_iff (image : Text) (d : Diagnostic ImageError) :
    d ∈ imageDiagnostics (wordsAbove image image.lines.length) 0
        (imageRowsAbove image image.lines.length) ↔ ∃ n, Reported image n d := by
  rw [(imageDiagnostics_imageRowsAbove image image.lines.length).2]
  exact exists_congr fun n => ⟨And.right, fun h => ⟨h.lt_length, h⟩⟩

/-- An image is read from the rows of its lines. -/
theorem readImage_eq_rows (image : Text) :
    readImage image =
      match imageDiagnostics (wordsAbove image image.lines.length) 0
        (imageRowsAbove image image.lines.length) with
      | [] => .ok (Program.ofList (imageWords (imageRowsAbove image image.lines.length)))
      | diagnostics => .error diagnostics := by
  rw [← length_imageWords, ← imageRows_eq_imageRowsAbove]
  rfl

theorem readImage_eq_ok_iff (image : Text) (p : Program) : readImage image = .ok p ↔
    (∀ n d, ¬ Reported image n d) ∧
      p = Program.ofList (imageWords (imageRowsAbove image image.lines.length)) := by
  have hnone : (∀ n d, ¬ Reported image n d) ↔ imageDiagnostics
      (wordsAbove image image.lines.length) 0 (imageRowsAbove image image.lines.length) = [] := by
    rw [List.eq_nil_iff_forall_not_mem, forall_comm]
    simp only [mem_imageDiagnostics_iff, not_exists]
  rw [hnone, readImage_eq_rows]
  split
  · rename_i h
    rw [h, Except.ok.injEq, eq_comm]
    exact (and_iff_right rfl).symm
  · rename_i h
    exact ⟨fun herror => (nomatch herror), fun hok => absurd hok.1 h⟩

theorem readImage_eq_error {image : Text} {diagnostics : List (Diagnostic ImageError)}
    (h : readImage image = .error diagnostics) :
    diagnostics = imageDiagnostics (wordsAbove image image.lines.length) 0
      (imageRowsAbove image image.lines.length) := by
  rw [readImage_eq_rows] at h
  split at h
  · cases h
  · exact (Except.error.inj h).symm

/-- An image is read exactly when every line is empty or has a word and not too many have one. Its
words are then those of its lines. Otherwise the lines that are malformed are reported, and the
first beyond the limit, each line once and in their order. The bits of words that are not too many
are an image of these words. -/
theorem readImage_exact (image : Text) :
    ((∃ p, readImage image = .ok p) ↔
        (∀ n, DigitsAt image n (· ≠ []) → DigitsAt image n IsWord) ∧
          (filledLines image).length ≤ 1024) ∧
      (∀ p, readImage image = .ok p → p.lines.toList = filledLines image ∧
        List.Forall₂ (fun w n => DigitsAt image n (Spells · w)) p.words.toList p.lines.toList) ∧
      (∀ diagnostics, readImage image = .error diagnostics →
        diagnostics.Pairwise (fun d d' => d.line < d'.line) ∧
          ∀ d, d ∈ diagnostics ↔ ∃ n, Reported image n d) ∧
      ∀ ws : List UInt16, ws.length ≤ 1024 →
        ∃ p, readImage (imageText ws) = .ok p ∧ p.words.toList = ws := by
  refine ⟨?_, fun p hp => ?_, fun diagnostics hdiagnostics => ?_, fun ws hws => ?_⟩
  · rw [← not_reported_iff]
    simp [readImage_eq_ok_iff]
  · obtain ⟨hnone, rfl⟩ := (readImage_eq_ok_iff image p).mp hp
    obtain ⟨hwords, -⟩ := (not_reported_iff image).mp hnone
    constructor
    · rw [filledLines_eq hwords, ← map_snd_imageWords]
      rfl
    · refine List.forall₂_map_left_iff.mpr (List.forall₂_map_right_iff.mpr ?_)
      exact List.forall₂_same.mpr fun _ => spells_of_mem_imageWords
  · rw [readImage_eq_error hdiagnostics]
    exact ⟨(imageDiagnostics_imageRowsAbove image _).1, mem_imageDiagnostics_iff image⟩
  · exact ⟨_, readImage_imageText hws, List.zipIdx_map_fst 0 ws⟩

/-- A line of underscores and blanks before a comment is empty, a line with any digit is not. -/
example : filledLines "_ # 1\n\n01// 1".toList = [2] := by decide

end ByteMachine
