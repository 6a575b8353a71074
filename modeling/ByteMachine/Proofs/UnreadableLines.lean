import ByteMachine.Proofs.ServedLines

/-!
# Lines that are no text

The service decodes the bytes of each line before it looks at the line, and ends at the first line
that is not UTF-8. The lines before it are answered as if the stream ended there; the line itself
has no reply, and neither has any line after it. So every line that is not blank is answered exactly
when every line of the stream is text.
-/
namespace ByteMachine

/-- The stream is lines of text and then the rest, which is empty or begins with a line that is no
text. -/
def ReadableUpTo (input : List UInt8) (lines : List Text) (rest : List (List UInt8)) : Prop :=
  ∃ first, byteLines input = first ++ rest ∧ first.map decodeText? = lines.map some ∧
    ∀ line ∈ rest.head?, decodeText? line = none

def lineHasContent (line : List UInt8) : Bool := (decodeText? line).elim true Text.hasContent

theorem exists_readableUpTo (input : List UInt8) : ∃ lines rest, ReadableUpTo input lines rest := by
  unfold ReadableUpTo
  induction byteLines input with
  | nil => exact ⟨[], [], [], rfl, rfl, by simp⟩
  | cons line bytes ih =>
    cases hline : decodeText? line with
    | none => exact ⟨[], line :: bytes, [], rfl, rfl, by simp [hline]⟩
    | some text =>
      obtain ⟨lines, rest, first, rfl, hfirst, hrest⟩ := ih
      exact ⟨text :: lines, rest, line :: first, rfl, by simp [hline, hfirst], hrest⟩

theorem countP_lineHasContent {bytes : List (List UInt8)} {lines : List Text}
    (h : bytes.map decodeText? = lines.map some) :
    bytes.countP lineHasContent = lines.countP Text.hasContent :=
  calc
    bytes.countP lineHasContent =
        (bytes.map decodeText?).countP (·.elim true Text.hasContent) := by
      rw [List.countP_map]
      rfl
    _ = lines.countP Text.hasContent := by
      rw [h, List.countP_map]
      rfl

theorem ReadableUpTo.countP {input : List UInt8} {lines : List Text} {rest : List (List UInt8)}
    (h : ReadableUpTo input lines rest) :
    (byteLines input).countP lineHasContent =
      lines.countP Text.hasContent + rest.countP lineHasContent := by
  obtain ⟨first, hinput, hfirst, -⟩ := h
  rw [hinput, List.countP_append, countP_lineHasContent hfirst]

/-- The rest is not blank, as its first line is no text. -/
theorem ReadableUpTo.countP_rest_eq_zero_iff {input : List UInt8} {lines : List Text}
    {rest : List (List UInt8)} (h : ReadableUpTo input lines rest) :
    rest.countP lineHasContent = 0 ↔ rest = [] := by
  obtain ⟨-, -, -, hrest⟩ := h
  cases rest with
  | nil => simp
  | cons line rest =>
    have hline : lineHasContent line = true := by
      rw [lineHasContent, hrest line rfl]
      rfl
    rw [List.countP_cons_of_pos hline]
    simp

namespace Session

theorem serveLines_of_unreadable {rest : List (List UInt8)}
    (h : ∀ line ∈ rest.head?, decodeText? line = none) (read : LineReader) (s : Session) :
    s.serveLines read rest = ⟨s, [], rest.isEmpty⟩ := by
  cases rest with
  | nil => rfl
  | cons line rest =>
    rw [serveLines, h line rfl]
    rfl

theorem serve_of_readableUpTo {input : List UInt8} {lines : List Text} {rest : List (List UInt8)}
    (h : ReadableUpTo input lines rest) (read : LineReader) (s : Session) :
    s.serve read input = ⟨s.afterLines read lines, s.repliesTo read lines, rest.isEmpty⟩ := by
  obtain ⟨first, hinput, hfirst, hrest⟩ := h
  rw [serve, hinput, serveLines_append read hfirst, serveLines_of_unreadable hrest,
    List.append_nil]

/-- The service answers the lines of any stream of bytes in order up to the first line that is no
text, over one session, and it ends there. So the lines that are not blank are all answered exactly
when all lines are text. -/
theorem answered_up_to_unreadable (read : LineReader) (s : Session) (input : List UInt8) :
    (∃ lines rest, ReadableUpTo input lines rest ∧
      Answers read s lines { s.serve read input with completed := true } ∧
      ((s.serve read input).completed = true ↔ rest = [])) ∧
    ((s.serve read input).replies.length = ((byteLines input).filter lineHasContent).length ↔
      ∀ line ∈ byteLines input, ∃ text, decodeText? line = some text) := by
  obtain ⟨lines, rest, h⟩ := exists_readableUpTo input
  have hserve := serve_of_readableUpTo h read s
  have hall : (∀ line ∈ byteLines input, ∃ text, decodeText? line = some text) ↔ rest = [] := by
    obtain ⟨first, hinput, hfirst, hrest⟩ := h
    rw [hinput]
    constructor
    · intro htext
      cases rest with
      | nil => rfl
      | cons line rest =>
        obtain ⟨text, hline⟩ := htext line (by simp)
        rw [hrest line rfl] at hline
        cases hline
    · rintro rfl line hline
      rw [List.append_nil] at hline
      have hmem : decodeText? line ∈ lines.map some := hfirst ▸ List.mem_map_of_mem hline
      obtain ⟨text, -, htext⟩ := List.mem_map.mp hmem
      exact ⟨text, htext.symm⟩
  refine ⟨⟨lines, rest, h, ?_, ?_⟩, ?_⟩
  · rw [hserve]
    exact answers_repliesTo read s lines
  · rw [hserve]
    exact List.isEmpty_iff
  · rw [hall, ← h.countP_rest_eq_zero_iff, ← List.countP_eq_length_filter, h.countP, hserve]
    have hlength : (s.repliesTo read lines).length = lines.countP Text.hasContent := by
      rw [(served_repliesTo read s lines).length, List.countP_eq_length_filter]
    rw [hlength]
    omega

def brokenStream : List UInt8 :=
  let request := "[\"breakpoint\",3]".toList
  bytesOfLines [request] ++ [0xFF, 0x0A] ++ bytesOfLines [request]

/-- None of the three lines is blank, and only the first one is answered. -/
theorem unreadable_line_unanswered :
    ((byteLines brokenStream).filter lineHasContent).length = 3 ∧
      ((new { seed := some 1 } default).serve Request.read brokenStream).replies.length = 1 ∧
      ((new { seed := some 1 } default).serve Request.read brokenStream).completed = false := by
  decide +kernel

end Session
end ByteMachine
