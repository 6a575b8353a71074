import ByteMachine.Proofs.Checked.Images
import ByteMachine.Proofs.Checked.Machines
import ByteMachine.Proofs.Checked.Sources

/-!
# Checked sessions

The operations of a session put together from checked ones. A session answers every sequence of
operations without failure, whatever the texts, limits, addresses and bytes, as long as the counter
of instructions stays below its bound and no text is longer than memory can hold, so that its lines
can be counted.
-/
namespace ByteMachine

namespace Checked

/-! ## Reports -/

def reportText {Cause : Type} (message : Cause → String) (ds : List (Diagnostic Cause)) :
    Checked String := do
  let texts ← ds.mapM fun d => do
    let number ← add 64 d.line 1
    return s!"line {number}: {message d.cause}"
  return "\n".intercalate texts

theorem reportText_eq_ok {Cause : Type} (message : Cause → String) {ds : List (Diagnostic Cause)}
    (h : ∀ d ∈ ds, d.line + 1 < 2 ^ 64) :
    reportText message ds = .ok (ByteMachine.reportText message ds) := by
  have htext : ∀ d ∈ ds, (do
      let number ← add 64 d.line 1
      return s!"line {number}: {message d.cause}" : Checked String) =
        .ok (Diagnostic.text message d) := by
    intro d hd
    rw [add_eq_ok (h d hd)]
    rfl
  rw [reportText, mapM_eq_ok htext]
  rfl

theorem length_lines_le (s : Text) : s.lines.length ≤ s.length := by
  fun_induction Text.lines s <;> simp_all <;> omega

theorem number_lt_of_mem_ofText {source : Text} {l : SourceLine}
    (h : l ∈ SourceLine.ofText source) : l.number < source.length := by
  obtain ⟨line, hline, -⟩ := (SourceLine.mem_ofText_iff ..).mp h
  obtain ⟨hnumber, -⟩ := List.getElem?_eq_some_iff.mp hline
  exact Nat.lt_of_lt_of_le hnumber (length_lines_le source)

theorem exists_line_of_mem_scanLines (ls : List SourceLine) {t : Symbols} {address : Nat}
    {row : AssemblyRow} (h : row ∈ (ByteMachine.scanLines ls t address).1) :
    ∃ l ∈ ls, row.line = l.number := by
  induction ls generalizing t address with
  | nil => cases h
  | cons l rest ih =>
    obtain ⟨e, t', -, hscan⟩ := scanLines_cons l t address
    rw [hscan] at h
    rcases List.mem_cons.mp h with rfl | h
    · exact ⟨l, List.mem_cons_self, rfl⟩
    · obtain ⟨l', hl', hline⟩ := ih h
      exact ⟨l', List.mem_cons_of_mem l hl', hline⟩

/-- What is wrong with a text is on one of its lines. -/
theorem line_lt_of_assemble {source : Text} {ds : List (Diagnostic SourceError)}
    (h : ByteMachine.assemble source = .error ds) : ∀ d ∈ ds, d.line < source.length := by
  unfold ByteMachine.assemble at h
  dsimp only at h
  split at h
  · cases h
  · obtain rfl := Except.error.inj h
    intro d hd
    obtain ⟨row, hrow, hd⟩ := List.mem_flatMap.mp hd
    obtain ⟨e, -, rfl⟩ := List.mem_map.mp hd
    obtain ⟨l, hl, hline⟩ := exists_line_of_mem_scanLines _ hrow
    exact hline ▸ number_lt_of_mem_ofText hl

theorem line_lt_of_mem_imageRows {image : Text} {row : ImageRow}
    (h : row ∈ ByteMachine.imageRows image) : row.line < image.length := by
  obtain ⟨⟨line, number⟩, hline, hrow⟩ := List.mem_filterMap.mp h
  simp only [Option.ite_none_left_eq_some, Option.some.injEq] at hrow
  obtain ⟨hnumber, -⟩ := List.getElem?_eq_some_iff.mp (List.mem_zipIdx_iff_getElem?.mp hline)
  rw [← hrow.2]
  exact Nat.lt_of_lt_of_le hnumber (length_lines_le image)

theorem line_lt_of_readImage {image : Text} {ds : List (Diagnostic ImageError)}
    (h : ByteMachine.readImage image = .error ds) : ∀ d ∈ ds, d.line < image.length := by
  unfold ByteMachine.readImage at h
  dsimp only at h
  split at h
  · cases h
  · obtain rfl := Except.error.inj h
    intro d hd
    rw [imageDiagnostics_imageRows] at hd
    obtain ⟨row, hrow, hd⟩ := List.mem_flatMap.mp hd
    have hline : d.line = row.line := by
      unfold imageRowDiagnostics at hd
      split at hd
      · split at hd
        · rw [List.mem_singleton.mp hd]
        · cases hd
      · rw [List.mem_singleton.mp hd]
    exact hline ▸ line_lt_of_mem_imageRows hrow

/-! ## Views -/

def visibleRegisters (m : Machine) : Checked (List UInt8) :=
  (List.range 16).mapM fun i => getRegister m (.ofNat i)

def lastText (program : Program) (p : Processor) : Checked (Option String) := do
  match p.last.bind fun address => program.word? address.toNat with
  | none => return none
  | some word => return some (.ofList (← wordText word))

def snapshot (s : Session) : Checked Snapshot := do
  let registers ← visibleRegisters s.machine
  let lastInstruction ← lastText s.program s.machine.processor
  return { s.snapshot with registers, outputs := outputsOf registers, lastInstruction }

def listing (s : Session) : Checked (List ListingRow) :=
  s.program.words.toList.zipIdx.mapM fun (word, address) => do
    let text ← wordText word
    return {
      address
      text
      bits := wordBits word
      current := address == s.machine.processor.pc.toNat
      breakpoint := s.breakpoints.contains address }

theorem visibleRegisters_eq_ok (m : Machine) :
    visibleRegisters m = .ok m.processor.visibleRegisters := by
  refine mapM_eq_ok fun i hi => getRegister_eq_ok m ?_
  have hi : i < 16 := List.mem_range.mp hi
  rw [UInt8.toNat_ofNat']
  omega

theorem lastText_eq_ok (program : Program) (p : Processor) :
    lastText program p = .ok ((p.last.bind fun address => program.word? address.toNat).map
      fun word => .ofList (ByteMachine.wordText word)) := by
  unfold lastText
  cases p.last.bind fun address => program.word? address.toNat with
  | none => rfl
  | some word =>
    dsimp only
    rw [wordText_eq_ok]
    rfl

theorem snapshot_eq_ok (s : Session) : snapshot s = .ok s.snapshot := by
  rw [snapshot, visibleRegisters_eq_ok, ok_bind, lastText_eq_ok]
  rfl

theorem listing_eq_ok (s : Session) : listing s = .ok s.listing := by
  refine mapM_eq_ok ?_
  rintro ⟨word, address⟩ -
  dsimp only
  rw [wordText_eq_ok]
  rfl

/-! ## Operations -/

def loadSource (s : Session) (source : Text) : Checked (Session × LoadReply) := do
  match ← (assemble source).run with
  | .ok program => return (s.install program, ⟨true, s!"assembled {program.size} instructions"⟩)
  | .error diagnostics => return (s, ⟨false, ← reportText SourceError.message diagnostics⟩)

def loadImage (s : Session) (image : Text) : Checked (Session × LoadReply) := do
  match ← (readImage image).run with
  | .ok program => return (s.install program, ⟨true, s!"loaded {program.size} instructions"⟩)
  | .error diagnostics => return (s, ⟨false, ← reportText ImageError.message diagnostics⟩)

def stepSession (s : Session) : Checked Session := do
  let (machine, result) ← step s.program s.machine
  let fault := match result with
    | .faulted fault => some fault
    | _ => s.fault
  return { s with machine, fault, stop := if machine.isHalted then some .halted else none }

def runSession (s : Session) (limit : Option Nat) : Checked Session := do
  let (machine, result) ← run s.program s.breakpoints (limit.getD s.config.runLimit) s.machine
  return { s with machine, fault := result.fault.or s.fault, stop := some result.reason }

def answerState (s : Session) : Checked (Session × Response) := do
  return (s, .state (← snapshot s))

def perform (s : Session) : Operation → Checked (Session × Response)
  | .load source => do
    let (s, reply) ← loadSource s source
    return (s, .loaded reply)
  | .loadImage image => do
    let (s, reply) ← loadImage s image
    return (s, .loaded reply)
  | .step => do answerState (← stepSession s)
  | .run limit => do answerState (← runSession s limit)
  | .reset => answerState s.reset
  | .state => answerState s
  | .listing => do return (s, .listing (← listing s))
  | .breakpoint address =>
    let (s, toggle) := s.breakpoint address
    return (s, .toggled toggle)
  | .input value => answerState (s.input value)

def performAll : Session → List Operation → Checked (Session × List Response)
  | s, [] => return (s, [])
  | s, op :: ops => do
    let (next, response) ← perform s op
    let (final, responses) ← performAll next ops
    return (final, response :: responses)

end Checked

/-- The text of an operation is shorter than memory can hold. -/
def Operation.Addressable : Operation → Prop
  | load text | loadImage text => text.length < 2 ^ 63
  | _ => True

/-- The counter of instructions stays below a bound, before and after each of the operations. -/
def Session.CountsBelow (bound : Nat) (s : Session) (ops : List Operation) : Prop :=
  ∀ k ≤ ops.length, (s.performAll (ops.take k)).1.machine.processor.executed < bound

namespace Checked
variable {s : Session}

theorem loadSource_eq_ok {source : Text} (h : source.length < 2 ^ 63) :
    loadSource s source = .ok (s.load source) := by
  have hlines : ∀ l ∈ SourceLine.ofText source, l.number < source.length :=
    fun l hl => number_lt_of_mem_ofText hl
  rw [loadSource, assemble_eq hlines (by omega), run_answer, ok_bind, Session.load]
  cases hassemble : ByteMachine.assemble source with
  | ok program => rfl
  | error ds =>
    have hreport : ∀ d ∈ ds, d.line + 1 < 2 ^ 64 := by
      intro d hd
      have hd := line_lt_of_assemble hassemble d hd
      omega
    dsimp only
    rw [reportText_eq_ok _ hreport]
    rfl

theorem loadImage_eq_ok {image : Text} (h : image.length < 2 ^ 63) :
    loadImage s image = .ok (s.loadImage image) := by
  rw [loadImage, readImage_eq, run_answer, ok_bind, Session.loadImage]
  cases hread : ByteMachine.readImage image with
  | ok program => rfl
  | error ds =>
    have hreport : ∀ d ∈ ds, d.line + 1 < 2 ^ 64 := by
      intro d hd
      have hd := line_lt_of_readImage hread d hd
      omega
    dsimp only
    rw [reportText_eq_ok _ hreport]
    rfl

theorem stepSession_eq_ok (h : s.step.machine.processor.executed < 2 ^ 64) :
    stepSession s = .ok s.step := by
  rw [stepSession, step_eq_ok s.machine h]
  rfl

theorem runSession_eq_ok {limit : Option Nat}
    (h : (s.run limit).machine.processor.executed < 2 ^ 64) :
    runSession s limit = .ok (s.run limit) := by
  rw [runSession, run_eq_ok h]
  rfl

theorem answerState_eq_ok (s : Session) : answerState s = .ok (s, .state s.snapshot) := by
  rw [answerState, snapshot_eq_ok]
  rfl

/-- An operation fails only where its count would leave sixty-four bits, or on a text whose lines
cannot be counted. -/
theorem perform_eq_ok {op : Operation} (htext : op.Addressable)
    (hcount : (s.perform op).1.machine.processor.executed < 2 ^ 64) :
    perform s op = .ok (s.perform op) := by
  cases op with
  | load source =>
    rw [perform, loadSource_eq_ok htext]
    rfl
  | loadImage image =>
    rw [perform, loadImage_eq_ok htext]
    rfl
  | step =>
    rw [perform, stepSession_eq_ok hcount]
    exact answerState_eq_ok s.step
  | run limit =>
    rw [perform, runSession_eq_ok hcount]
    exact answerState_eq_ok (s.run limit)
  | reset => exact answerState_eq_ok s.reset
  | state => exact answerState_eq_ok s
  | listing =>
    rw [perform, listing_eq_ok]
    rfl
  | breakpoint address => rfl
  | input value => exact answerState_eq_ok (s.input value)

/-- No operation fails, in no sequence of operations: all that a session does is done by operations
that have a value, as long as its instructions and the lines of its texts can be counted. -/
theorem performAll_eq_ok {ops : List Operation} (htexts : ∀ op ∈ ops, op.Addressable)
    (hcounts : s.CountsBelow (2 ^ 64) ops) : performAll s ops = .ok (s.performAll ops) := by
  induction ops generalizing s with
  | nil => rfl
  | cons op ops ih =>
    have hop : (s.perform op).1.machine.processor.executed < 2 ^ 64 := hcounts 1 (by simp)
    have hrest : (s.perform op).1.CountsBelow (2 ^ 64) ops := fun k hk =>
      hcounts (k + 1) (Nat.succ_le_succ hk)
    rw [performAll, perform_eq_ok (htexts op List.mem_cons_self) hop, ok_bind]
    dsimp only
    rw [ih (fun op' hop' => htexts op' (List.mem_cons_of_mem op hop')) hrest]
    rfl

def drawing : List Operation :=
  [.load "jmp nowhere".toList,
    .load "ldi r1 240\nldi r2 7\nstr r1 r2\nstr r1 r2 2\nstr r1 r2 7\nhlt".toList,
    .run none, .listing]

theorem performAll_eq_ok_drawing :
    (∀ op ∈ drawing, op.Addressable) ∧
      (Session.new { seed := some 1 } default).CountsBelow (2 ^ 64) drawing ∧
      performAll (.new { seed := some 1 } default) drawing =
        .ok ((Session.new { seed := some 1 } default).performAll drawing) := by
  have htexts : ∀ op ∈ drawing, op.Addressable := by
    simp [drawing, Operation.Addressable]
  have hcounts : (Session.new { seed := some 1 } default).CountsBelow (2 ^ 64) drawing := by
    unfold Session.CountsBelow
    decide +kernel
  exact ⟨htexts, hcounts, performAll_eq_ok htexts hcounts⟩

end Checked
end ByteMachine
