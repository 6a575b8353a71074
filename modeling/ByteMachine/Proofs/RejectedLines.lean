import ByteMachine.Proofs.BoundNames

/-!
# Which lines are reported

A line can be wrong in four ways: as a definition, as a label, as the first instruction beyond the
limit and as an instruction. What is reported of a rejected source text comes line by line, and of
each line there are as many reports as it has flaws, whatever is wrong with the other lines. So the
lines that are reported are those that have a flaw, in their order, and a line is reported twice
exactly when two things are wrong with it.
-/
namespace ByteMachine

open Text

inductive Flaw where
  | definition
  | label
  | place
  | instruction
  deriving DecidableEq, Repr

def Flaw.all : List Flaw := [definition, label, place, instruction]

theorem Flaw.mem_all (flaw : Flaw) : flaw ∈ all := by
  cases flaw <;> decide

/-- A line has a flaw. Names are bound by the lines above it, operands refer to the symbols of the
whole text. -/
def HasFlaw (source : Text) (n : Nat) : Flaw → Prop
  | .definition => CodeAt source n BeginsDefinition ∧
      ¬ ∃ name token v, CodeAt source n (Defines · name token) ∧
        DenotesValue (BoundAbove source n) token v ∧ Bindable (BoundAbove source n) name
  | .label => ∃ name, CodeAt source n (Labels · name) ∧ ¬ Bindable (BoundAbove source n) name
  | .place => (∃ mnemonic tokens, CarriesAt source n mnemonic tokens) ∧
      instructionsAbove source n = 1024
  | .instruction => ∃ mnemonic tokens, CarriesAt source n mnemonic tokens ∧
      ∀ i, ¬ DenotesInstruction (BoundAbove source source.lines.length) mnemonic tokens i

def reports (source : Text) : List (Diagnostic SourceError) :=
  match assemble source with
  | .ok _ => []
  | .error diagnostics => diagnostics

noncomputable def reportsAt (source : Text) (n : Nat) : List (Diagnostic SourceError) :=
  (scanLines (linesAt source n) (Symbols.above source n) (instructionsAbove source n)).1.flatMap
    (AssemblyRow.diagnostics (Symbols.ofText source)
      ((scanLines (SourceLine.ofText source) {} 0).1.filter (·.code.isSome)).length)

/-- An instruction is encoded when its tokens mean one. -/
theorem Symbols.exists_encodeLine_iff (t : Symbols) (code : Text) :
    (∃ w, t.encodeLine code = .ok w) ↔
      ∃ i, DenotesInstruction t.Binds code.splitHead.1 code.splitHead.2.operandTokens i := by
  simp only [encodeLine_eq_ok_iff]
  constructor
  · rintro ⟨w, i, -, hi⟩
    exact ⟨i, hi⟩
  · rintro ⟨i, hi⟩
    obtain ⟨w, hw⟩ := Instruction.exists_encode_of_fits hi.2.fits
    exact ⟨w, i, (Instruction.encode_eq_ok_iff_decode i w).mp hw, hi⟩

section Lines
variable {source : Text} {n : Nat} {l : SourceLine}
  (h : ∀ P : Text → Prop, ¬ P [] → (CodeAt source n P ↔ P l.text))

include h

theorem hasFlaw_definition_iff : HasFlaw source n .definition ↔
    ∃ operands, Statement.ofText l.text = .define operands ∧
      ¬ ∃ t', (Symbols.above source n).define operands l.number = .ok t' := by
  have hdefines (name token : Text) :
      CodeAt source n (Defines · name token) ↔ Defines l.text name token :=
    h _ (not_defines_nil name token)
  rw [HasFlaw, h _ not_beginsDefinition_nil]
  simp only [hdefines]
  simp only [beginsDefinition_iff, defines_iff, Symbols.exists_define_iff, binds_above]
  cases Statement.ofText l.text with
  | define operands => simp
  | label name code => simp
  | instruction code => simp

theorem hasFlaw_label_iff : HasFlaw source n .label ↔
    ∃ name code, Statement.ofText l.text = .label name code ∧
      ¬ ∃ t',
        (Symbols.above source n).bind name (instructionsAbove source n) l.number = .ok t' := by
  have hlabels (name : Text) : CodeAt source n (Labels · name) ↔ Labels l.text name :=
    h _ (not_labels_nil name)
  simp only [HasFlaw, hlabels]
  simp only [labels_iff, Symbols.exists_bind_iff, binds_above]
  cases Statement.ofText l.text with
  | define operands => simp
  | label name code => simp
  | instruction code => simp

/-- A line whose symbol is not wrong is neither a wrong definition nor a wrong label. -/
theorem not_hasFlaw_of_bind {t' : Symbols} (hbind : (Statement.ofText l.text).bind
      (Symbols.above source n) (instructionsAbove source n) l.number = .ok t') :
    ¬ HasFlaw source n .definition ∧ ¬ HasFlaw source n .label := by
  rw [hasFlaw_definition_iff h, hasFlaw_label_iff h]
  constructor
  · rintro ⟨operands, hstatement, hnone⟩
    rw [hstatement] at hbind
    exact hnone ⟨t', hbind⟩
  · rintro ⟨name, code, hstatement, hnone⟩
    rw [hstatement] at hbind
    exact hnone ⟨t', hbind⟩

/-- A line whose symbol is wrong is a wrong definition or a wrong label, and not both. -/
theorem hasFlaw_of_bind_error {e : SourceError} (hbind : (Statement.ofText l.text).bind
      (Symbols.above source n) (instructionsAbove source n) l.number = .error e) :
    (HasFlaw source n .definition ∧ ¬ HasFlaw source n .label) ∨
      (¬ HasFlaw source n .definition ∧ HasFlaw source n .label) := by
  rw [hasFlaw_definition_iff h, hasFlaw_label_iff h]
  cases hstatement : Statement.ofText l.text with
  | define operands =>
    rw [hstatement] at hbind
    have hdefine : (Symbols.above source n).define operands l.number = .error e := hbind
    exact .inl ⟨⟨operands, rfl, by simp [hdefine]⟩, by simp⟩
  | label name code =>
    rw [hstatement] at hbind
    have hlabel : (Symbols.above source n).bind name (instructionsAbove source n) l.number =
        .error e := hbind
    exact .inr ⟨by simp, ⟨name, code, rfl, by simp [hlabel]⟩⟩
  | instruction code =>
    rw [hstatement] at hbind
    cases hbind

theorem hasFlaw_place_iff (htrimmed : l.Trimmed) : HasFlaw source n .place ↔
    (Statement.ofText l.text).code?.isSome = true ∧ instructionsAbove source n = programLimit := by
  rw [HasFlaw, exists_carriesAt_iff, h _ not_exists_carries_nil,
    exists_carries_iff htrimmed.1 htrimmed.2]
  rfl

theorem hasFlaw_instruction_iff (htrimmed : l.Trimmed) : HasFlaw source n .instruction ↔
    ∃ code, (Statement.ofText l.text).code? = some code ∧
      ¬ ∃ w, (Symbols.ofText source).encodeLine code = .ok w := by
  have hcarries (mnemonic : Text) (tokens : List Text) : CarriesAt source n mnemonic tokens ↔
      Carries l.text mnemonic tokens :=
    h (Carries · mnemonic tokens) fun hempty => hempty.ne_nil rfl
  simp only [HasFlaw, hcarries, carries_iff htrimmed.1 htrimmed.2, Symbols.exists_encodeLine_iff,
    binds_ofText, not_exists]
  constructor
  · rintro ⟨_, _, ⟨code, hcode, rfl, rfl⟩, hnone⟩
    exact ⟨code, hcode, hnone⟩
  · rintro ⟨code, hcode, hnone⟩
    exact ⟨_, _, ⟨code, hcode, rfl, rfl⟩, hnone⟩

open Classical in
/-- A row whose symbol is not wrong has as many errors as its line has flaws of its instruction. -/
theorem length_errors_of_code (htrimmed : l.Trimmed) (total : Nat) :
    (AssemblyRow.errors (Symbols.ofText source) total ⟨l.number, none, instructionsAbove source n,
      (Statement.ofText l.text).code?⟩).length =
      [Flaw.place, .instruction].countP fun flaw => HasFlaw source n flaw := by
  have hplace := hasFlaw_place_iff h htrimmed
  have hinstruction := hasFlaw_instruction_iff h htrimmed
  unfold AssemblyRow.errors
  dsimp only
  cases hcode : (Statement.ofText l.text).code? with
  | none =>
    simp only [hcode, Option.isSome_none, Bool.false_eq_true, false_and] at hplace
    simp only [hcode, reduceCtorEq, false_and, exists_false] at hinstruction
    simp [hplace, hinstruction]
  | some code =>
    simp only [hcode, Option.isSome_some, true_and] at hplace
    simp only [hcode, Option.some.injEq, exists_eq_left'] at hinstruction
    cases hencode : (Symbols.ofText source).encodeLine code with
    | ok w =>
      simp only [hencode, Except.ok.injEq, exists_eq', not_true_eq_false] at hinstruction
      by_cases haddress : instructionsAbove source n = programLimit
      · simp [hplace, hinstruction, haddress, hencode]
      · simp [hplace, hinstruction, haddress, hencode]
    | error e =>
      simp only [hencode, reduceCtorEq, exists_false, not_false_eq_true] at hinstruction
      by_cases haddress : instructionsAbove source n = programLimit
      · simp [hplace, hinstruction, haddress, hencode]
      · simp [hplace, hinstruction, haddress, hencode]

open Classical in
/-- A row has as many errors as its line has flaws. -/
theorem length_errors (htrimmed : l.Trimmed) (total : Nat) {row : AssemblyRow}
    (hrow : row ∈ (scanLines [l] (Symbols.above source n) (instructionsAbove source n)).1) :
    (row.errors (Symbols.ofText source) total).length =
      Flaw.all.countP fun flaw => HasFlaw source n flaw := by
  have hall : Flaw.all = [.definition, .label] ++ [.place, .instruction] := rfl
  rw [hall, List.countP_append, ← length_errors_of_code h htrimmed total]
  obtain ⟨e, t', hstep, hscan⟩ := scanLines_cons l (Symbols.above source n)
    (instructionsAbove source n)
  rw [hscan] at hrow
  obtain rfl := List.mem_singleton.mp hrow
  rcases hstep with ⟨hbind, rfl⟩ | ⟨-, error, hbind, rfl⟩
  · obtain ⟨hdefinition, hlabel⟩ := not_hasFlaw_of_bind h hbind
    simp [hdefinition, hlabel]
  · have hsymbol : [Flaw.definition, .label].countP (fun flaw => HasFlaw source n flaw) = 1 := by
      rcases hasFlaw_of_bind_error h hbind with ⟨hdefinition, hlabel⟩ | ⟨hdefinition, hlabel⟩
      · simp [hdefinition, hlabel]
      · simp [hdefinition, hlabel]
    rw [hsymbol]
    exact List.length_cons.trans (Nat.add_comm ..)

end Lines

/-- Nothing is wrong with a line that is passed over. -/
theorem not_hasFlaw_of_passed {source : Text} {n : Nat}
    (h : ∀ P : Text → Prop, ¬ P [] → ¬ CodeAt source n P) (flaw : Flaw) :
    ¬ HasFlaw source n flaw := by
  have hcarries (mnemonic : Text) (tokens : List Text) : ¬ CarriesAt source n mnemonic tokens :=
    h (Carries · mnemonic tokens) fun hempty => hempty.ne_nil rfl
  cases flaw with
  | definition =>
    rintro ⟨hbegins, -⟩
    exact h _ not_beginsDefinition_nil hbegins
  | label =>
    rintro ⟨name, hlabel, -⟩
    exact h _ (not_labels_nil name) hlabel
  | place =>
    rintro ⟨⟨mnemonic, tokens, hcode⟩, -⟩
    exact hcarries mnemonic tokens hcode
  | instruction =>
    rintro ⟨mnemonic, tokens, hcode, -⟩
    exact hcarries mnemonic tokens hcode

open Classical in
/-- Of each line there are as many reports as it has flaws. -/
theorem length_reportsAt (source : Text) (n : Nat) :
    (reportsAt source n).length = Flaw.all.countP fun flaw => HasFlaw source n flaw := by
  unfold reportsAt
  have hline := lineAt source n
  generalize linesAt source n = ls at hline
  cases hline with
  | passed h =>
    have hnone : Flaw.all.countP (fun flaw => HasFlaw source n flaw) = 0 := by
      simp [not_hasFlaw_of_passed h]
    rw [hnone]
    rfl
  | read l hnumber htrimmed h =>
    obtain ⟨e, t', -, hscan⟩ := scanLines_cons l (Symbols.above source n)
      (instructionsAbove source n)
    have hrow : (scanLines [l] (Symbols.above source n) (instructionsAbove source n)).1 = [_] :=
      congrArg Prod.fst (hscan [])
    rw [hrow, List.flatMap_singleton, AssemblyRow.diagnostics, List.length_map]
    exact length_errors h htrimmed _ (hrow ▸ List.mem_singleton_self _)

theorem line_of_mem_reportsAt {source : Text} {n : Nat} {d : Diagnostic SourceError}
    (hd : d ∈ reportsAt source n) : d.line = n := by
  unfold reportsAt at hd
  have hline := lineAt source n
  generalize linesAt source n = ls at hline hd
  cases hline with
  | passed h => cases hd
  | read l hnumber htrimmed h =>
    obtain ⟨row, hrow, hd⟩ := List.mem_flatMap.mp hd
    obtain ⟨e, -, rfl⟩ := List.mem_map.mp hd
    obtain ⟨_, t', -, hscan⟩ := scanLines_cons l (Symbols.above source n)
      (instructionsAbove source n)
    rw [hscan] at hrow
    obtain rfl := List.mem_singleton.mp hrow
    exact hnumber

theorem reportsAt_eq_nil {source : Text} {n : Nat} (h : source.lines.length ≤ n) :
    reportsAt source n = [] := by
  rw [reportsAt, linesAt_eq_nil h]
  rfl

/-- A text is rejected when anything is reported, and with what is reported. -/
theorem reports_eq_diagnostics (source : Text) :
    (reports source = (scanLines (SourceLine.ofText source) {} 0).1.flatMap
      (AssemblyRow.diagnostics (Symbols.ofText source)
        ((scanLines (SourceLine.ofText source) {} 0).1.filter (·.code.isSome)).length)) ∧
      ((∃ diagnostics, assemble source = .error diagnostics) ↔ reports source ≠ []) := by
  unfold reports assemble Symbols.ofText
  obtain ⟨rows, t⟩ := scanLines (SourceLine.ofText source) {} 0
  dsimp only
  cases rows.flatMap (AssemblyRow.diagnostics t (rows.filter (·.code.isSome)).length) with
  | nil => simp
  | cons d ds => simp

/-- The reports come line by line. -/
theorem reports_eq_flatMap (source : Text) :
    reports source = (List.range source.lines.length).flatMap (reportsAt source) := by
  have hrows (n : Nat) : (scanLines (linesAbove source n) {} 0).1 = (List.range n).flatMap
      fun k => (scanLines (linesAt source k) (Symbols.above source k)
        (instructionsAbove source k)).1 := by
    induction n with
    | zero => rfl
    | succ n ih =>
      rw [scanLines_linesAbove_succ, ih, List.range_succ, List.flatMap_append,
        List.flatMap_singleton]
  have hall := hrows source.lines.length
  rw [linesAbove_length] at hall
  unfold reportsAt
  rw [(reports_eq_diagnostics source).1, ← List.flatMap_assoc, ← hall]

theorem countP_line_flatMap {f : Nat → List (Diagnostic SourceError)}
    (hf : ∀ k, ∀ d ∈ f k, d.line = k) (N n : Nat) :
    ((List.range N).flatMap f).countP (·.line = n) = if n < N then (f n).length else 0 := by
  induction N with
  | zero => rfl
  | succ N ih =>
    rw [List.range_succ, List.flatMap_append, List.countP_append, ih, List.flatMap_singleton]
    by_cases hn : n = N
    · subst hn
      rw [if_neg (Nat.lt_irrefl n), if_pos (Nat.lt_succ_self n), Nat.zero_add,
        List.countP_eq_length.mpr fun d hd => decide_eq_true (hf n d hd)]
    · have hnone : (f N).countP (·.line = n) = 0 := by
        rw [List.countP_eq_zero]
        intro d hd hline
        exact hn ((of_decide_eq_true hline).symm.trans (hf N d hd))
      rw [hnone, Nat.add_zero]
      exact if_congr (by omega) rfl rfl

open Classical in
theorem countP_line_reports (source : Text) (n : Nat) :
    (reports source).countP (·.line = n) = Flaw.all.countP fun flaw => HasFlaw source n flaw := by
  rw [reports_eq_flatMap, countP_line_flatMap fun k d => line_of_mem_reportsAt, ← length_reportsAt]
  by_cases hn : n < source.lines.length
  · rw [if_pos hn]
  · rw [if_neg hn, reportsAt_eq_nil (Nat.le_of_not_lt hn), List.length_nil]

theorem pairwise_line_reports (source : Text) :
    (reports source).Pairwise fun d d' => d.line ≤ d'.line := by
  rw [reports_eq_flatMap, List.pairwise_flatMap]
  constructor
  · intro n _
    apply List.pairwise_of_forall_mem_list
    intro d hd d' hd'
    rw [line_of_mem_reportsAt hd, line_of_mem_reportsAt hd']
  · apply List.pairwise_lt_range.imp
    intro n n' hlt d hd d' hd'
    rw [line_of_mem_reportsAt hd, line_of_mem_reportsAt hd']
    exact hlt.le

theorem exists_mem_reports_iff (source : Text) (n : Nat) :
    (∃ d ∈ reports source, d.line = n) ↔ ∃ flaw, HasFlaw source n flaw := by
  classical
  have hline : (∃ d ∈ reports source, d.line = n) ↔ 0 < (reports source).countP (·.line = n) := by
    simp
  have hflaw : (∃ flaw, HasFlaw source n flaw) ↔
      0 < Flaw.all.countP fun flaw => HasFlaw source n flaw := by
    simp only [List.countP_pos_iff, decide_eq_true_eq]
    exact exists_congr fun flaw => (and_iff_right flaw.mem_all).symm
  rw [hline, hflaw, countP_line_reports]

/-- The reports are sound and complete: a text is rejected when there are any, they are in the order
of the lines, and the lines that they name are those that have a flaw. -/
theorem reports_sound_complete (source : Text) :
    ((∃ diagnostics, assemble source = .error diagnostics) ↔ reports source ≠ []) ∧
      (reports source).Pairwise (fun d d' => d.line ≤ d'.line) ∧
      ∀ n, (∃ d ∈ reports source, d.line = n) ↔ ∃ flaw, HasFlaw source n flaw :=
  ⟨(reports_eq_diagnostics source).2, pairwise_line_reports source, exists_mem_reports_iff source⟩

def OneFlawEach (source : Text) : Prop :=
  ∀ n flaw flaw', HasFlaw source n flaw → HasFlaw source n flaw' → flaw = flaw'

theorem countP_le_one_iff {α : Type} {l : List α} (hl : l.Nodup) (p : α → Bool) :
    l.countP p ≤ 1 ↔ ∀ a ∈ l, ∀ b ∈ l, p a = true → p b = true → a = b := by
  induction l with
  | nil => simp
  | cons c l ih =>
    obtain ⟨hc, hl⟩ := List.nodup_cons.mp hl
    simp only [List.forall_mem_cons, List.countP_cons]
    by_cases hpc : p c = true
    · -- no other element may have the property
      have hzero : l.countP p + 1 ≤ 1 ↔ ∀ a ∈ l, ¬ p a = true := by
        rw [← List.countP_eq_zero]
        omega
      have hne {a : α} (ha : a ∈ l) : c ≠ a := fun heq => hc (heq ▸ ha)
      rw [if_pos hpc, hzero]
      constructor
      · intro h
        refine ⟨⟨fun _ _ => trivial, fun b hb _ hpb => absurd hpb (h b hb)⟩, ?_⟩
        exact fun a ha => ⟨fun hpa => absurd hpa (h a ha), fun b _ hpa => absurd hpa (h a ha)⟩
      · rintro ⟨⟨-, h⟩, -⟩ a ha hpa
        exact hne ha (h a ha hpc hpa)
    · rw [if_neg hpc, Nat.add_zero, ih hl]
      simp [hpc]

/-- Numbers that do not decrease increase strictly when none comes twice. -/
theorem pairwise_line_lt_iff {ds : List (Diagnostic SourceError)}
    (h : ds.Pairwise fun d d' => d.line ≤ d'.line) :
    ds.Pairwise (fun d d' => d.line < d'.line) ↔ ∀ n, ds.countP (·.line = n) ≤ 1 := by
  induction ds with
  | nil => simp
  | cons d ds ih =>
    obtain ⟨hle, hds⟩ := List.pairwise_cons.mp h
    simp only [List.pairwise_cons, List.countP_cons, ih hds, decide_eq_true_eq]
    constructor
    · rintro ⟨hlt, hrest⟩ n
      by_cases hn : d.line = n
      · have hnone : ds.countP (·.line = n) = 0 := by
          rw [List.countP_eq_zero]
          intro d' hd' hline
          exact absurd (hn.trans (of_decide_eq_true hline).symm) (hlt d' hd').ne
        rw [hnone, if_pos hn]
      · rw [if_neg hn]
        exact hrest n
    · intro hcount
      constructor
      · intro d' hd'
        apply Nat.lt_of_le_of_ne (hle d' hd')
        intro heq
        have hsome : 0 < ds.countP (·.line = d.line) :=
          List.countP_pos_iff.mpr ⟨d', hd', decide_eq_true heq.symm⟩
        have htwo := hcount d.line
        rw [if_pos rfl] at htwo
        omega
      · intro n
        exact Nat.le_of_add_right_le (hcount n)

open Classical in
/-- Each line is reported as often as it has flaws, so the numbers of the reported lines increase
strictly exactly when no line has two. -/
theorem reported_once_iff (source : Text) :
    (∀ n, (reports source).countP (·.line = n) =
        Flaw.all.countP fun flaw => HasFlaw source n flaw) ∧
      ((reports source).Pairwise (fun d d' => d.line < d'.line) ↔ OneFlawEach source) := by
  refine ⟨countP_line_reports source, ?_⟩
  rw [pairwise_line_lt_iff (pairwise_line_reports source)]
  have hnodup : Flaw.all.Nodup := by decide
  simp only [countP_line_reports, countP_le_one_iff hnodup, decide_eq_true_eq, OneFlawEach,
    Flaw.mem_all, forall_const]

/-- A label that is bound already, with an operand that names no symbol. -/
theorem relabelled_line_reported_twice :
    assemble ".loop nop\n.loop jmp nowhere".toList = .error
        [⟨1, .alreadyDefined "loop".toList 0⟩, ⟨1, .undefinedSymbol "nowhere".toList⟩] ∧
      ¬ (reports ".loop nop\n.loop jmp nowhere".toList).Pairwise
        (fun d d' => d.line < d'.line) := by
  decide +kernel

end ByteMachine
