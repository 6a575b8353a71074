import ByteMachine.Proofs.AssemblyMeaning
import ByteMachine.Proofs.Checked.Access
import ByteMachine.Source.Image

/-!
# Checked reading of images

A line of an image is compared with what a word looks like, sixteen bytes that are binary digits,
and its digits are read as a number of sixteen bits after that. The line of the first word beyond
the limit is taken from a list that is longer than the limit.
-/
namespace ByteMachine.Checked

open Text

def isBinaryDigit (c : Char) : Bool := c == '0' || c == '1'

def readWord (digits : Text) : ExceptT ImageError Checked UInt16 := do
  if byteLength digits ≠ 16 ∨ ¬ digits.all isBinaryDigit then throw (.malformedWord digits)
  else match (read? 2 digits).filter (· < 2 ^ 16) with
    | some n => return .ofNat n
    | none => (.error .unreadableDigits : Checked UInt16)

def imageRows (image : Text) : Checked (List ImageRow) :=
  let digits := image.lines.zipIdx.filterMap fun (line, number) =>
    let digits := imageDigits line
    if digits.isEmpty then none else some (digits, number)
  digits.mapM fun (digits, number) => do return ⟨number, ← (readWord digits).run⟩

/-- What is wrong with a row. The line of the first word beyond the limit is reported. -/
def imageRowDiagnostics (total : Nat) (beyond : Option Nat) (row : ImageRow) :
    List (Diagnostic ImageError) :=
  match row.word with
  | .ok _ => if beyond = some row.line then [⟨row.line, .imageTooLong total⟩] else []
  | .error e => [⟨row.line, e⟩]

def readImage (image : Text) : ExceptT (List (Diagnostic ImageError)) Checked Program := do
  let rows ← imageRows image
  let words := imageWords rows
  let beyond ← firstBeyond (words.map (·.2))
  match rows.flatMap (imageRowDiagnostics words.length beyond) with
  | [] => return Program.ofList words
  | diagnostics => throw diagnostics

theorem isBinaryDigit_iff (c : Char) : isBinaryDigit c = true ↔ c = '0' ∨ c = '1' := by
  simp [isBinaryDigit]

theorem byteLength_of_binary {digits : Text} (h : ∀ c ∈ digits, c = '0' ∨ c = '1') :
    byteLength digits = digits.length := by
  have hsize : ∀ c ∈ digits, c.utf8Size = 1 := by
    intro c hc
    rcases h c hc with rfl | rfl <;> rfl
  rw [byteLength, List.map_congr_left hsize]
  simp

/-- Digits that pass for those of a word are read as a number of sixteen bits. -/
theorem readWord_eq (digits : Text) : readWord digits = answer (ByteMachine.readWord digits) := by
  unfold readWord ByteMachine.readWord
  have hall : digits.all isBinaryDigit = true ↔ ∀ c ∈ digits, c = '0' ∨ c = '1' := by
    simp only [List.all_eq_true, isBinaryDigit_iff]
  by_cases hbinary : ∀ c ∈ digits, c = '0' ∨ c = '1'
  · have hall : digits.all isBinaryDigit = true := hall.mpr hbinary
    rw [byteLength_of_binary hbinary]
    by_cases hlength : digits.length = 16
    · obtain ⟨n, hn, hread⟩ := exists_readFrom?_two hbinary 0
      have hne : digits ≠ [] := by
        rintro rfl
        cases hlength
      rw [hlength] at hn
      have hsmall : decide (n < 2 ^ 16) = true := decide_eq_true (by omega)
      rw [if_neg (by simp [hlength, hall]), if_pos hlength, read?_of_ne_nil hne, hread,
        Option.filter_some, if_pos hsmall]
      rfl
    · simp [hlength]
  · have hall : ¬ digits.all isBinaryDigit = true := fun h => hbinary (hall.mp h)
    rw [if_pos (.inr hall)]
    split
    · split
      · rename_i n hread
        have hnumeral := (read?_eq_some_iff ..).mp hread
        refine absurd (fun c hc => ?_) hbinary
        exact (exists_digit?_two_iff c).mp (hnumeral.digit_of_mem hc)
      · rfl
    · rfl

theorem imageRows_eq_ok (image : Text) :
    imageRows image = .ok (ByteMachine.imageRows image) := by
  have hrow (p : Text × Nat) :
      (do return ⟨p.2, ← (readWord p.1).run⟩ : Checked ImageRow) =
        .ok ⟨p.2, ByteMachine.readWord p.1⟩ := by
    rw [readWord_eq]
    rfl
  rw [imageRows, mapM_eq_ok fun p _ => hrow p, List.map_filterMap, ByteMachine.imageRows]
  congr 2
  funext ⟨line, number⟩
  dsimp only
  split <;> rfl

theorem pairwise_line_imageRows (image : Text) :
    (ByteMachine.imageRows image).Pairwise fun r r' => r.line < r'.line := by
  rw [ByteMachine.imageRows, List.pairwise_filterMap]
  refine (pairwise_zipIdx image.lines).imp ?_
  rintro ⟨line, n⟩ ⟨line', n'⟩ hlt r hr r' hr'
  simp only [Option.ite_none_left_eq_some, Option.some.injEq] at hr hr'
  rw [← hr.2, ← hr'.2]
  exact hlt

theorem exists_row_of_mem_imageWords {rows : List ImageRow} {line : Nat}
    (h : line ∈ (imageWords rows).map (·.2)) : ∃ r ∈ rows, r.line = line := by
  obtain ⟨p, hp, rfl⟩ := List.mem_map.mp h
  obtain ⟨r, hr, hword⟩ := List.mem_filterMap.mp hp
  obtain ⟨w, -, rfl⟩ := Option.map_eq_some_iff.mp hword
  exact ⟨r, hr, rfl⟩

/-- After some words, the line that is reported is that of the first word beyond the limit. It is
none of the lines that are left when that word has passed. -/
structure Reports (beyond : Option Nat) (good : Nat) (rows : List ImageRow) : Prop where
  ahead : good ≤ programLimit → beyond = ((imageWords rows).map (·.2))[programLimit - good]?
  passed : programLimit < good → ∀ r ∈ rows, beyond ≠ some r.line

namespace Reports
variable {beyond : Option Nat} {good : Nat} {row : ImageRow} {rest : List ImageRow}

theorem start (rows : List ImageRow) :
    Reports ((imageWords rows).map (·.2))[programLimit]? 0 rows :=
  ⟨fun _ => rfl, fun h => absurd h (Nat.not_lt_zero _)⟩

theorem next_of_error {e : ImageError} (h : Reports beyond good (row :: rest))
    (hword : row.word = .error e) : Reports beyond good rest := by
  have hwords : imageWords (row :: rest) = imageWords rest := by
    simp [imageWords, hword, Except.toOption]
  exact ⟨fun hle => by rw [h.ahead hle, hwords],
    fun hlt r hr => h.passed hlt r (List.mem_cons_of_mem row hr)⟩

theorem map_line_imageWords {w : UInt16} (hword : row.word = .ok w) :
    (imageWords (row :: rest)).map (·.2) = row.line :: (imageWords rest).map (·.2) := by
  simp [imageWords, hword, Except.toOption]

variable (h : Reports beyond good (row :: rest)) {w : UInt16} (hword : row.word = .ok w)
  (hline : ∀ r ∈ rest, row.line < r.line)
include h hword hline

/-- The row of the word beyond the limit is told from the others by its line. -/
theorem here_iff : beyond = some row.line ↔ good = programLimit := by
  constructor
  · intro hbeyond
    by_contra hgood
    rcases Nat.lt_or_gt_of_ne hgood with hlt | hgt
    · obtain ⟨k, hk⟩ : ∃ k, programLimit - good = k + 1 := ⟨programLimit - good - 1, by omega⟩
      rw [h.ahead hlt.le, map_line_imageWords hword, hk, List.getElem?_cons_succ] at hbeyond
      obtain ⟨r, hr, hsame⟩ := exists_row_of_mem_imageWords (List.mem_of_getElem? hbeyond)
      have hlater := hline r hr
      omega
    · exact h.passed hgt row List.mem_cons_self hbeyond
  · rintro rfl
    rw [h.ahead le_rfl, map_line_imageWords hword, Nat.sub_self, List.getElem?_cons_zero]

theorem next_of_ok : Reports beyond (good + 1) rest where
  ahead hle := by
    have hstep : programLimit - good = programLimit - (good + 1) + 1 := by omega
    rw [h.ahead (by omega), map_line_imageWords hword, hstep, List.getElem?_cons_succ]
  passed hlt r hr := by
    by_cases hgood : good = programLimit
    · rw [(h.here_iff hword hline).mpr hgood]
      intro hsame
      have hlater := hline r hr
      rw [Option.some.inj hsame] at hlater
      exact Nat.lt_irrefl _ hlater
    · exact h.passed (by omega) r (List.mem_cons_of_mem row hr)

end Reports

/-- Rows with lines of their own are reported one by one as in their sequence. -/
theorem imageDiagnostics_eq_flatMap {rows : List ImageRow} {good total : Nat} {beyond : Option Nat}
    (hrows : rows.Pairwise fun r r' => r.line < r'.line) (h : Reports beyond good rows) :
    imageDiagnostics total good rows = rows.flatMap (imageRowDiagnostics total beyond) := by
  induction rows generalizing good with
  | nil => rfl
  | cons row rest ih =>
    obtain ⟨hline, hrest⟩ := List.pairwise_cons.mp hrows
    rw [imageDiagnostics, List.flatMap_cons, imageRowDiagnostics]
    cases hword : row.word with
    | error e =>
      rw [ih hrest (h.next_of_error hword)]
      rfl
    | ok w =>
      dsimp only
      rw [ih hrest (h.next_of_ok hword hline)]
      simp only [h.here_iff hword hline]

/-- All that is wrong with an image, row by row. -/
theorem imageDiagnostics_imageRows (image : Text) :
    imageDiagnostics (imageWords (ByteMachine.imageRows image)).length 0
        (ByteMachine.imageRows image) =
      (ByteMachine.imageRows image).flatMap
        (imageRowDiagnostics (imageWords (ByteMachine.imageRows image)).length
          ((imageWords (ByteMachine.imageRows image)).map (·.2))[programLimit]?) :=
  imageDiagnostics_eq_flatMap (pairwise_line_imageRows image) (.start _)

theorem readImage_eq (image : Text) : readImage image = answer (ByteMachine.readImage image) := by
  rw [readImage, imageRows_eq_ok, lift_ok, answer_ok_bind]
  dsimp only
  rw [firstBeyond_eq_ok, lift_ok, answer_ok_bind, ByteMachine.readImage,
    imageDiagnostics_imageRows]
  cases (ByteMachine.imageRows image).flatMap (imageRowDiagnostics
    (imageWords (ByteMachine.imageRows image)).length
    ((imageWords (ByteMachine.imageRows image)).map (·.2))[programLimit]?) <;> rfl

end ByteMachine.Checked
