import ByteMachine.Proofs.Indistinguishable
import ByteMachine.Proofs.LineBytes
import ByteMachine.Proofs.Replies

/-!
# Lines served

The service replies to every line that is not blank, in order. A line that is a request is answered
by the session as the requests before it have left it; any other line leaves the session as it is.
So lines that are no requests can be left out without any other effect than that their replies are
missing, and lines can be served in parts. All this holds however requests are written.
-/
namespace ByteMachine

def Text.hasContent (line : Text) : Bool := !line.trim.isEmpty

def LineReader.ignores (read : LineReader) (line : Text) : Bool :=
  !line.hasContent || !(read line).isOk

namespace Session

/-- A session serves lines: the session that this leaves, and the replies. -/
inductive Served (read : LineReader) : Session → List Text → Session → List Reply → Prop
  | nil (s : Session) : Served read s [] s []
  | blank {s t : Session} {line : Text} {lines : List Text} {replies : List Reply}
      (hblank : line.hasContent = false) (h : Served read s lines t replies) :
      Served read s (line :: lines) t replies
  | answered {s next t : Session} {line : Text} {lines : List Text} {op : Operation}
      {members : List (String × Json.Value)} {reply : Reply} {replies : List Reply}
      (hcontent : line.hasContent = true) (hread : read line = .ok op)
      (hop : Replies s op next members) (hjson : reply.toJson = .record members)
      (h : Served read next lines t replies) :
      Served read s (line :: lines) t (reply :: replies)
  | refused {s t : Session} {line : Text} {lines : List Text} {message : String} {reply : Reply}
      {replies : List Reply} (hcontent : line.hasContent = true)
      (hread : read line = .error message)
      (hjson : reply.toJson = .record [("error", .ofString message)])
      (h : Served read s lines t replies) :
      Served read s (line :: lines) t (reply :: replies)

theorem Served.length {read : LineReader} {s t : Session} {lines : List Text}
    {replies : List Reply} (h : Served read s lines t replies) :
    replies.length = (lines.filter Text.hasContent).length := by
  induction h with
  | nil s => rfl
  | blank hblank h ih => rw [List.filter_cons_of_neg (by simp [hblank]), ih]
  | answered hcontent hread hop hjson h ih =>
    rw [List.filter_cons_of_pos hcontent, List.length_cons, List.length_cons, ih]
  | refused hcontent hread hjson h ih =>
    rw [List.filter_cons_of_pos hcontent, List.length_cons, List.length_cons, ih]

section Lines
variable (read : LineReader) (s : Session)

theorem serveLine_of_blank {line : Text} (h : line.hasContent = false) :
    s.serveLine read line = (s, none) := by
  rw [serveLine, if_pos (by simpa [Text.hasContent] using h)]

theorem serveLine_of_ok {line : Text} {op : Operation} (h : line.hasContent = true)
    (hop : read line = .ok op) :
    s.serveLine read line = ((s.perform op).1, some (.answered (s.perform op).2)) := by
  rw [serveLine, if_neg (by simpa [Text.hasContent] using h), hop]

theorem serveLine_of_error {line : Text} {message : String} (h : line.hasContent = true)
    (hmessage : read line = .error message) :
    s.serveLine read line = (s, some (.refused message)) := by
  rw [serveLine, if_neg (by simpa [Text.hasContent] using h), hmessage]

theorem serveLine_fst_of_ignores {line : Text} (h : read.ignores line = true) :
    (s.serveLine read line).1 = s := by
  cases hcontent : line.hasContent with
  | false => rw [serveLine_of_blank read s hcontent]
  | true =>
    cases hline : read line with
    | ok op => simp [LineReader.ignores, hcontent, hline, Except.isOk, Except.toBool] at h
    | error message => rw [serveLine_of_error read s hcontent hline]

theorem isSome_serveLine_snd (line : Text) :
    (s.serveLine read line).2.isSome = line.hasContent := by
  cases h : line.hasContent with
  | false => rw [serveLine_of_blank read s h]; rfl
  | true =>
    cases hline : read line with
    | ok op => rw [serveLine_of_ok read s h hline]; rfl
    | error message => rw [serveLine_of_error read s h hline]; rfl

def afterLines (lines : List Text) : Session :=
  lines.foldl (fun s line => (s.serveLine read line).1) s

theorem afterLines_cons (line : Text) (lines : List Text) :
    s.afterLines read (line :: lines) = (s.serveLine read line).1.afterLines read lines := rfl

theorem afterLines_append (lines rest : List Text) :
    s.afterLines read (lines ++ rest) = (s.afterLines read lines).afterLines read rest :=
  List.foldl_append

end Lines

def repliesTo (read : LineReader) : Session → List Text → List Reply
  | _, [] => []
  | s, line :: rest =>
    (s.serveLine read line).2.toList ++ repliesTo read (s.serveLine read line).1 rest

section Lines
variable (read : LineReader)

/-- Line by line, each line by what it is. -/
theorem served_repliesTo (s : Session) (lines : List Text) :
    Served read s lines (s.afterLines read lines) (s.repliesTo read lines) := by
  induction lines generalizing s with
  | nil => exact .nil s
  | cons line lines ih =>
    rw [afterLines_cons, repliesTo]
    cases hcontent : line.hasContent with
    | false =>
      rw [serveLine_of_blank read s hcontent]
      exact .blank hcontent (ih s)
    | true =>
      cases hline : read line with
      | ok op =>
        obtain ⟨members, hop, hjson⟩ := s.replies_perform op
        rw [serveLine_of_ok read s hcontent hline]
        exact .answered hcontent hline hop hjson (ih _)
      | error message =>
        rw [serveLine_of_error read s hcontent hline]
        exact .refused hcontent hline rfl (ih s)

/-- Lines of text at the front are served, and then the service goes on with the rest. -/
theorem serveLines_append {bytes : List (List UInt8)} {lines : List Text}
    (h : bytes.map decodeText? = lines.map some) (rest : List (List UInt8)) (s : Session) :
    s.serveLines read (bytes ++ rest) =
      { (s.afterLines read lines).serveLines read rest with
        replies :=
          s.repliesTo read lines ++ ((s.afterLines read lines).serveLines read rest).replies } := by
  induction lines generalizing s bytes with
  | nil =>
    obtain rfl := List.map_eq_nil_iff.mp h
    rfl
  | cons line lines ih =>
    obtain ⟨b, bytes, rfl, hline, hrest⟩ := List.map_eq_cons_iff.mp h
    simp only [List.cons_append, serveLines, hline, ih hrest, afterLines_cons, repliesTo,
      List.append_assoc]

theorem serve_eq {input : List UInt8} {lines : List Text} (h : TextLines input lines)
    (s : Session) :
    s.serve read input = ⟨s.afterLines read lines, s.repliesTo read lines, true⟩ := by
  have hserve := serveLines_append read h [] s
  simpa only [serve, List.append_nil, serveLines] using hserve

theorem repliesTo_append (s : Session) (lines rest : List Text) :
    s.repliesTo read (lines ++ rest) =
      s.repliesTo read lines ++ (s.afterLines read lines).repliesTo read rest := by
  induction lines generalizing s with
  | nil => rfl
  | cons line lines ih =>
    simp only [List.cons_append, repliesTo, ih, afterLines_cons, List.append_assoc]

end Lines

def unmarked (marked : List (Text × Bool)) : List Text :=
  (marked.filter fun x => !x.2).map Prod.fst

theorem unmarked_cons (x : Text × Bool) (marked : List (Text × Bool)) :
    unmarked (x :: marked) = if x.2 then unmarked marked else x.1 :: unmarked marked := by
  cases hmark : x.2 with
  | true => simp [unmarked, hmark]
  | false => simp [unmarked, hmark]

/-- The replies to the lines without a mark among the replies to all of them. -/
def unmarkedReplies (marked : List (Text × Bool)) (replies : List Reply) : List Reply :=
  (((marked.filter fun x => x.1.hasContent).zip replies).filter fun x => !x.1.2).map Prod.snd

theorem unmarkedReplies_cons (x : Text × Bool) (marked : List (Text × Bool)) {reply? : Option Reply}
    (h : reply?.isSome = x.1.hasContent) (replies : List Reply) :
    unmarkedReplies (x :: marked) (reply?.toList ++ replies) =
      (if x.2 then [] else reply?.toList) ++ unmarkedReplies marked replies := by
  unfold unmarkedReplies
  cases reply? with
  | none =>
    have hblank : x.1.hasContent = false := h.symm
    simp [hblank]
  | some reply =>
    have hcontent : x.1.hasContent = true := h.symm
    cases hmark : x.2 with
    | true => simp [hcontent, hmark]
    | false => simp [hcontent, hmark]

section Unmarked
variable (read : LineReader) (s : Session) {marked : List (Text × Bool)}
  (h : ∀ x ∈ marked, x.2 = true → read.ignores x.1 = true)
include h

/-- Leaving out lines that ask for nothing leaves out their replies. -/
theorem repliesTo_unmarked :
    s.repliesTo read (unmarked marked) =
      unmarkedReplies marked (s.repliesTo read (marked.map Prod.fst)) := by
  induction marked generalizing s with
  | nil => rfl
  | cons x marked ih =>
    obtain ⟨hx, h⟩ := List.forall_mem_cons.mp h
    have hreplies : s.repliesTo read ((x :: marked).map Prod.fst) =
        (s.serveLine read x.1).2.toList ++
          (s.serveLine read x.1).1.repliesTo read (marked.map Prod.fst) := rfl
    rw [hreplies, unmarkedReplies_cons x marked (s.isSome_serveLine_snd read x.1), ← ih _ h,
      unmarked_cons]
    cases hmark : x.2 with
    | true =>
      rw [if_pos rfl, if_pos rfl, serveLine_fst_of_ignores read s (hx hmark), List.nil_append]
    | false =>
      rw [if_neg Bool.false_ne_true, if_neg Bool.false_ne_true, repliesTo]

theorem afterLines_unmarked :
    s.afterLines read (unmarked marked) = s.afterLines read (marked.map Prod.fst) := by
  induction marked generalizing s with
  | nil => rfl
  | cons x marked ih =>
    obtain ⟨hx, h⟩ := List.forall_mem_cons.mp h
    rw [List.map_cons, afterLines_cons, ← ih _ h, unmarked_cons]
    cases hmark : x.2 with
    | true => rw [if_pos rfl, serveLine_fst_of_ignores read s (hx hmark)]
    | false => rw [if_neg Bool.false_ne_true, afterLines_cons]

end Unmarked

structure Answers (read : LineReader) (s : Session) (lines : List Text) (service : Service) :
    Prop where
  completed : service.completed = true
  length : service.replies.length = (lines.filter Text.hasContent).length
  served : Served read s lines service.session service.replies

theorem answers_repliesTo (read : LineReader) (s : Session) (lines : List Text) :
    Answers read s lines ⟨s.afterLines read lines, s.repliesTo read lines, true⟩ :=
  have hserved := served_repliesTo read s lines
  ⟨rfl, hserved.length, hserved⟩

/-- Lines of text are answered one by one. Leaving out any lines that are blank or no requests
leaves out their replies and nothing else. Lines served in two parts have the same replies as
together. The two services compared may serve copies of the session, if there is a seed or the
operating system gives both copies the same keys. -/
theorem refused_lines_transparent (read : LineReader) (s : Session) :
    (∀ input lines, TextLines input lines → Answers read s lines (s.serve read input)) ∧
    ∀ entropy entropy', s.isSeeded = true ∨ entropy = entropy' →
      (∀ marked input input', TextLines input (marked.map Prod.fst) →
        TextLines input' (unmarked marked) →
        (∀ x ∈ marked, x.2 = true → read.ignores x.1 = true) →
          ((s.copy entropy').serve read input').session =
              ((s.copy entropy).serve read input).session ∧
            ((s.copy entropy').serve read input').replies =
              unmarkedReplies marked ((s.copy entropy).serve read input).replies) ∧
      (∀ first second input lines lines', TextLines first lines → TextLines second lines' →
        TextLines input (lines ++ lines') →
          ((s.copy entropy').serve read input).session =
              (((s.copy entropy).serve read first).session.serve read second).session ∧
            ((s.copy entropy').serve read input).replies =
              ((s.copy entropy).serve read first).replies ++
                (((s.copy entropy).serve read first).session.serve read second).replies) := by
  refine ⟨fun input lines h => ?_, fun entropy entropy' hcopies => ?_⟩
  · rw [serve_eq read h]
    exact answers_repliesTo read s lines
  · rw [copy_eq_copy hcopies]
    refine ⟨?_, ?_⟩
    · intro marked input input' hinput hinput' hmarked
      rw [serve_eq read hinput, serve_eq read hinput']
      exact ⟨afterLines_unmarked read _ hmarked, repliesTo_unmarked read _ hmarked⟩
    · intro first second input lines lines' hfirst hsecond hinput
      rw [serve_eq read hinput, serve_eq read hfirst, serve_eq read hsecond]
      exact ⟨afterLines_append read _ lines lines', repliesTo_append read _ lines lines'⟩

/-- Requests among other lines. All lines that ask for nothing are marked but the last. -/
def mixedLines : List (Text × Bool) :=
  [("[\"breakpoint\",0]".toList, false), ("".toList, true), ("[\"fly\"]".toList, true),
    (" [\"load\",\"ldi r1 5\"]".toList, false), ("nope".toList, true),
    ("[\"disasm\"]".toList, false), ("[\"step\"]".toList, false),
    ("[\"breakpoint\",0]".toList, false), ("nope".toList, false)]

/-- The replies to the lines without a mark. The reply to the step goes on. -/
def mixedReplies : List Text :=
  ["\x7b\"action\":\"added\",\"success\":true\x7d".toList,
    "\x7b\"message\":\"assembled 1 instructions\",\"success\":true\x7d".toList,
    "\x7b\"disasm\":[\x7b\"addr\":0,\"binary\":\"1000000100000101\",".toList ++
      "\"breakpoint\":true,\"current\":true,\"text\":\"ldi r1 5\"\x7d]\x7d".toList,
    "\x7b\"callStack\":[],\"charBuffer\":\"\",\"fault\":null,".toList ++
      "\"flags\":\x7b\"carry\":false,\"zero\":false\x7d,\"halted\":false,".toList ++
      "\"instructions\":1,\"lastInstruction\":\"ldi r1 5\"".toList,
    "\x7b\"action\":\"removed\",\"success\":true\x7d".toList,
    "\x7b\"error\":\"expected ident at line 1 column 2\"\x7d".toList]

/-- The lines above are served, then those without a mark, and then these followed by all lines. -/
theorem refused_lines_transparent_mixed :
    let s := new { seed := some 1 } default
    let t := s.copy fun _ => .ofSeed 42
    let u := s.copy default
    let lines := mixedLines.map Prod.fst
    let kept := unmarked mixedLines
    let input := bytesOfLines lines
    let input' := bytesOfLines kept
    TextLines input lines ∧ TextLines input' kept ∧ TextLines (input' ++ input) (kept ++ lines) ∧
      (∀ x ∈ mixedLines, x.2 = true → Request.read.ignores x.1 = true) ∧
      Answers Request.read s lines (s.serve Request.read input) ∧
      ((s.serve Request.read input').replies.map fun r => r.toJson.compact.take 142) =
        mixedReplies ∧
      ((u.serve Request.read input').session = (t.serve Request.read input).session ∧
        (u.serve Request.read input').replies =
          unmarkedReplies mixedLines (t.serve Request.read input).replies) ∧
      (u.serve Request.read (input' ++ input)).session =
        ((t.serve Request.read input').session.serve Request.read input).session ∧
      (u.serve Request.read (input' ++ input)).replies =
        (t.serve Request.read input').replies ++
          ((t.serve Request.read input').session.serve Request.read input).replies := by
  intro s t u lines kept input input'
  have hlines : ∀ line ∈ lines, '\n' ∉ line ∧ line.getLast? ≠ some '\r' := by decide +kernel
  have hkept : ∀ line ∈ kept, '\n' ∉ line ∧ line.getLast? ≠ some '\r' := by decide +kernel
  have hinput : TextLines input lines := textLines_bytesOfLines hlines
  have hinput' : TextLines input' kept := textLines_bytesOfLines hkept
  have hboth : TextLines (input' ++ input) (kept ++ lines) := by
    rw [← bytesOfLines_append]
    exact textLines_bytesOfLines (List.forall_mem_append.mpr ⟨hkept, hlines⟩)
  have hmarked : ∀ x ∈ mixedLines, x.2 = true → Request.read.ignores x.1 = true := by
    decide +kernel
  obtain ⟨hanswers, hcopies⟩ := refused_lines_transparent Request.read s
  obtain ⟨hunmarked, hparts⟩ := hcopies (fun _ => .ofSeed 42) default (.inl rfl)
  exact ⟨hinput, hinput', hboth, hmarked, hanswers _ _ hinput, by decide +kernel,
    hunmarked _ _ _ hinput hinput' hmarked, hparts _ _ _ _ _ hinput' hinput hboth⟩

end Session
end ByteMachine
