import ByteMachine.Instruction.Listing
import ByteMachine.Proofs.AssemblyMeaning

/-!
# Listings read back

The text of a word is a line of tokens with single spaces between them. The tokens of an instruction
mean that instruction under any symbols, and the text of a word that is no instruction is none
either. So the assembler gives the words of a listing back, or names the lines of those that are no
instructions.
-/
namespace ByteMachine

open Text

def listingText (ws : List UInt16) : Text := ['\n'].intercalate (ws.map wordText)

def isWritten (c : Char) : Bool := c.isAlphanum || c == '-'

def Written (s : Text) : Prop := s ≠ [] ∧ ∀ c ∈ s, isWritten c = true

def spaced (head : Text) (tokens : List Text) : Text := head ++ tokens.flatMap fun t => ' ' :: t

theorem intercalate_eq_spaced (head : Text) (tokens : List Text) :
    [' '].intercalate (head :: tokens) = spaced head tokens := by
  induction tokens generalizing head with
  | nil => simp [spaced]
  | cons t tokens ih =>
    rw [List.intercalate_cons_cons, ih]
    simp [spaced]

theorem not_isBlank_of_isWritten {c : Char} (h : isWritten c = true) : isBlank c = false := by
  rcases Bool.or_eq_true_iff.mp h with halnum | hminus
  · exact not_isBlank_of_isAlphanum halnum
  · obtain rfl := eq_of_beq hminus
    decide

theorem not_isOperandSeparator_of_isWritten {c : Char} (h : isWritten c = true) :
    isOperandSeparator c = false := by
  have hcomma : c ≠ ',' := by
    rintro rfl
    exact absurd h (by decide)
  simp [isOperandSeparator, hcomma, not_isBlank_of_isWritten h]

theorem ne_newline_of_isWritten {c : Char} (h : isWritten c = true) : c ≠ '\n' ∧ c ≠ '\r' := by
  constructor <;>
    · intro heq
      subst heq
      exact absurd h (by decide)

theorem written_decimal (n : Nat) : Written (decimal n) := by
  have hnumeral := numeral_decimal n
  refine ⟨hnumeral.1, fun c hc => ?_⟩
  have hdigit : c.isDigit = true := (isDigit_iff_digit? c).mpr (hnumeral.digit_of_mem hc)
  simp [isWritten, Char.isAlphanum, hdigit]

theorem written_cons {c : Char} {s : Text} (hc : isWritten c = true) (hs : Written s) :
    Written (c :: s) :=
  ⟨List.cons_ne_nil c s, List.forall_mem_cons.mpr ⟨hc, hs.2⟩⟩

theorem written_signed (v : Int) : Written (signed v) := by
  unfold signed
  split
  · exact written_cons (by decide) (written_decimal _)
  · exact written_decimal _

theorem written_registerName (r : UInt8) : Written (registerName r) :=
  written_cons (by decide) (written_decimal _)

theorem written_of_all {s : Text} (hne : s ≠ []) (h : s.all isWritten = true) : Written s :=
  ⟨hne, List.all_eq_true.mp h⟩

theorem written_mnemonic (m : Mnemonic) : Written m.name.toList := by
  cases m <;> exact written_of_all (by decide) (by decide)

theorem written_condition (c : Condition) : Written c.name.toList := by
  cases c <;> exact written_of_all (by decide) (by decide)

theorem written_tokens (m : Mnemonic) {shape : Shape} (ops : Operands shape) :
    ∀ t ∈ ops.tokens m, Written t := by
  have hbyte (imm : UInt8) :
      Written (if m = .adi then signed imm.toInt8.toInt else decimal imm.toNat) := by
    split
    · exact written_signed _
    · exact written_decimal _
  have hoffset (offset : Int8) :
      ∀ t ∈ (if offset = 0 then [] else [signed offset.toInt]), Written t := by
    split
    · simp
    · simp [written_signed]
  cases ops with
  | regRegOffset a b offset =>
    simpa [Operands.tokens, written_registerName] using hoffset offset
  | _ => simp [Operands.tokens, written_registerName, written_decimal, written_condition, hbyte]

section Spaced
variable {head : Text} {tokens : List Text}

theorem opens_spaces (tokens : List Text) :
    Opens isBlank (tokens.flatMap fun t => ' ' :: t) := by
  cases tokens with
  | nil => simp [Opens]
  | cons t tokens => simp [Opens, isBlank]

theorem separated_spaces (h : ∀ t ∈ tokens, Written t) :
    Separated isOperandSeparator (tokens.flatMap fun t => ' ' :: t) tokens := by
  induction tokens with
  | nil => exact .nil (by simp)
  | cons t tokens ih =>
    have ht := h t (List.mem_cons_self ..)
    have hopens : Opens isOperandSeparator (tokens.flatMap fun t => ' ' :: t) := fun c hc =>
      isOperandSeparator_of_isBlank (opens_spaces tokens c hc)
    have hspace : ∀ c ∈ [' '], isOperandSeparator c = true := by simp [isOperandSeparator, isBlank]
    exact .cons hspace ht.1 (fun c hc => not_isOperandSeparator_of_isWritten (ht.2 c hc)) hopens
      (ih fun t' ht' => h t' (List.mem_cons_of_mem t ht'))

/-- The tokens of a written line are the tokens that it was written from. -/
theorem splitHead_spaced (hhead : Written head) (h : ∀ t ∈ tokens, Written t) :
    (spaced head tokens).splitHead.1 = head ∧
      (spaced head tokens).splitHead.2.operandTokens = tokens := by
  have hsplit := (splitHead_eq_iff (spaced head tokens) head _).mpr
    ⟨_, rfl, fun c hc => not_isBlank_of_isWritten (hhead.2 c hc), opens_spaces tokens, rfl⟩
  rw [hsplit]
  exact ⟨rfl, (operandTokens_trim _).trans (separated_spaces h).words_eq⟩

theorem isWritten_of_mem_spaced (hhead : Written head) (h : ∀ t ∈ tokens, Written t) :
    ∀ c ∈ spaced head tokens, isWritten c = true ∨ c = ' ' := by
  intro c hc
  rcases List.mem_append.mp hc with hc | hc
  · exact .inl (hhead.2 c hc)
  · obtain ⟨t, ht, hc⟩ := List.mem_flatMap.mp hc
    rcases List.mem_cons.mp hc with rfl | hc
    · exact .inr rfl
    · exact .inl ((h t ht).2 c hc)

theorem not_isBlank_getLast?_spaced (hhead : Written head) (h : ∀ t ∈ tokens, Written t) :
    ∀ c ∈ (spaced head tokens).getLast?, isBlank c = false := by
  induction tokens generalizing head with
  | nil =>
    intro c hc
    rw [spaced, List.flatMap_nil, List.append_nil] at hc
    exact not_isBlank_of_isWritten (hhead.2 c (List.mem_of_mem_getLast? hc))
  | cons t tokens ih =>
    have ht := h t (List.mem_cons_self ..)
    have hne : spaced t tokens ≠ [] := by simp [spaced, ht.1]
    have hspaced : spaced head (t :: tokens) = head ++ ' ' :: spaced t tokens := by
      simp [spaced]
    rw [hspaced, List.getLast?_append_of_ne_nil _ (List.cons_ne_nil _ _),
      List.getLast?_cons_of_ne_nil hne]
    exact ih ht fun t' ht' => h t' (List.mem_cons_of_mem t ht')

theorem trim_spaced (hhead : Written head) (h : ∀ t ∈ tokens, Written t) :
    (spaced head tokens).trim = spaced head tokens := by
  apply trim_eq_self _ (not_isBlank_getLast?_spaced hhead h)
  intro c hc
  obtain ⟨d, rest, rfl⟩ := List.exists_cons_of_ne_nil hhead.1
  obtain rfl : d = c := by simpa [spaced] using hc
  exact not_isBlank_of_isWritten (hhead.2 d (List.mem_cons_self ..))

end Spaced

theorem stripComment_eq_self {s : Text} (h : ∀ c ∈ s, isWritten c = true ∨ c = ' ') :
    stripComment s = s := by
  induction s with
  | nil => rfl
  | cons c s ih =>
    have hc : ¬ StartsComment (c :: s) := by
      rintro ⟨rest, hs | hs | hs⟩ <;>
        · obtain ⟨rfl, -⟩ := List.cons.inj hs
          exact absurd (h _ (List.mem_cons_self ..)) (by decide)
    rw [stripComment_cons hc, ih fun d hd => h d (List.mem_cons_of_mem c hd)]

theorem lines_append_newline {s : Text} (h : ∀ c ∈ s, c ≠ '\n' ∧ c ≠ '\r') (rest : Text) :
    lines (s ++ '\n' :: rest) = s :: lines rest := by
  induction s with
  | nil => rw [List.nil_append, lines]
  | cons c s ih =>
    obtain ⟨hfeed, hreturn⟩ := h c (List.mem_cons_self ..)
    rw [List.cons_append, lines, ih fun d hd => h d (List.mem_cons_of_mem c hd)]
    · exact hfeed
    · intro _ hc
      exact absurd hc hreturn

theorem lines_eq_singleton {s : Text} (hne : s ≠ []) (h : ∀ c ∈ s, c ≠ '\n' ∧ c ≠ '\r') :
    lines s = [s] := by
  induction s with
  | nil => exact absurd rfl hne
  | cons c s ih =>
    obtain ⟨hfeed, hreturn⟩ := h c (List.mem_cons_self ..)
    rw [lines]
    · cases s with
      | nil => rfl
      | cons d s =>
        rw [ih (List.cons_ne_nil d s) fun e he => h e (List.mem_cons_of_mem c he)]
    · exact hfeed
    · intro _ hc
      exact absurd hc hreturn

/-- Lines that are not empty are read back from the text that has them joined. -/
theorem lines_intercalate {ts : List Text}
    (h : ∀ t ∈ ts, t ≠ [] ∧ ∀ c ∈ t, c ≠ '\n' ∧ c ≠ '\r') :
    lines (['\n'].intercalate ts) = ts := by
  induction ts with
  | nil => rfl
  | cons t ts ih =>
    obtain ⟨hne, ht⟩ := h t (List.mem_cons_self ..)
    cases ts with
    | nil => rw [List.intercalate_singleton, lines_eq_singleton hne ht]
    | cons t' ts =>
      have hrest := ih fun t'' ht'' => h t'' (List.mem_cons_of_mem t ht'')
      rw [List.intercalate_cons_cons, List.append_assoc, List.singleton_append,
        lines_append_newline ht, hrest]

theorem trim_written {s : Text} (h : Written s) : s.trim = s :=
  trim_eq_self_of_forall fun c hc => not_isBlank_of_isWritten (h.2 c hc)

theorem denotesRegister_registerName {r : UInt8} (h : r.toNat < 16) :
    DenotesRegister (registerName r) r :=
  ⟨'r', decimal r.toNat, trim_written (written_registerName r), .inl rfl, numeral_decimal _,
    by omega⟩

theorem denotesCondition_name (c : Condition) : DenotesCondition c.name.toList c := by
  cases c <;> exact ⟨_, List.mem_cons_self .., by decide⟩

theorem literal_signed {v : Int} (h : v.natAbs ≤ literalLimit) : Literal (signed v) v := by
  have hmagnitude : UnsignedLiteral (decimal v.natAbs) v.natAbs :=
    ⟨h, .inr (.inr (numeral_decimal _))⟩
  refine ⟨_, _, hmagnitude, ?_⟩
  rw [trim_written (written_signed v), signed]
  split
  · exact .inr ⟨rfl, by omega⟩
  · exact .inl ⟨rfl, by omega⟩

theorem signed_natCast (n : Nat) : signed n = decimal n := by
  simp [signed]

theorem literal_decimal {n : Nat} (h : n ≤ literalLimit) : Literal (decimal n) n := by
  rw [← signed_natCast]
  exact literal_signed h

section Meaning
variable (symbol : Text → Int → Prop)

theorem denotesImmediate_written (m : Mnemonic) (imm : UInt8) :
    DenotesImmediate symbol
      (if m = .adi then signed imm.toInt8.toInt else decimal imm.toNat) imm := by
  have hbyte := imm.toNat_lt
  split
  · have hlow := imm.toInt8.le_toInt
    have hhigh := imm.toInt8.toInt_lt
    refine ⟨imm.toInt8.toInt, .literal (literal_signed ?_), by omega, by omega, ?_⟩
    · unfold literalLimit
      omega
    · have hmod : imm.toInt8.toInt = Int.bmod imm.toNat 256 :=
        BitVec.toInt_eq_toNat_bmod imm.toBitVec
      have hrest : Int.bmod imm.toNat 256 % 256 = imm.toNat % 256 := Int.bmod_emod
      rw [hmod, hrest]
      omega
  · refine ⟨imm.toNat, .literal (literal_decimal ?_), by omega, by omega, by omega⟩
    unfold literalLimit
    omega

theorem denotesAddress_decimal {addr : UInt16} (h : addr.toNat < programLimit) :
    DenotesAddress symbol (decimal addr.toNat) addr := by
  unfold programLimit at h
  refine ⟨addr.toNat, .literal (literal_decimal ?_), by omega, by omega, rfl⟩
  unfold literalLimit
  omega

/-- The written operands of an instruction mean these operands, whatever symbols there are. -/
theorem denotesOperands_tokens (m : Mnemonic) {shape : Shape} {ops : Operands shape}
    (h : ops.Fits) : DenotesOperands symbol (ops.tokens m) ops := by
  cases ops with
  | none => exact .none
  | reg a => exact .reg (denotesRegister_registerName h)
  | regReg a b =>
    exact .regReg (denotesRegister_registerName h.1) (denotesRegister_registerName h.2)
  | regRegReg a b c =>
    exact .regRegReg (denotesRegister_registerName h.1) (denotesRegister_registerName h.2.1)
      (denotesRegister_registerName h.2.2)
  | regImm8 a imm =>
    exact .regImm8 (denotesRegister_registerName h) (denotesImmediate_written symbol m imm)
  | addr10 addr => exact .addr10 (denotesAddress_decimal symbol h)
  | condAddr10 cond addr =>
    exact .condAddr10 (denotesCondition_name cond) (denotesAddress_decimal symbol h)
  | regRegOffset a b offset =>
    obtain ⟨ha, hb, hlow, hhigh⟩ := h
    by_cases hzero : offset = 0
    · subst hzero
      exact .regRegOnly (denotesRegister_registerName ha) (denotesRegister_registerName hb)
    · have hoffset : DenotesOffset symbol (signed offset.toInt) offset := by
        refine ⟨offset.toInt, .literal (literal_signed ?_), hlow, hhigh, rfl⟩
        unfold literalLimit
        omega
      have htokens : (Operands.regRegOffset a b offset).tokens m =
          [registerName a, registerName b, signed offset.toInt] := by
        simp [Operands.tokens, hzero]
      rw [htokens]
      exact .regRegOffset (denotesRegister_registerName ha) (denotesRegister_registerName hb)
        hoffset

end Meaning

theorem fold_mnemonic_ne_defineWord (m : Mnemonic) : Text.fold m.name.toList ≠ defineWord := by
  cases m <;> decide

theorem wordText_of_ok {w : UInt16} {i : Instruction} (h : Instruction.decode w = .ok i) :
    wordText w = spaced i.mnemonic.name.toList (i.operands.tokens i.mnemonic) := by
  rw [wordText, h]
  exact intercalate_eq_spaced _ _

/-- The text of a word is a line of written tokens, and the first of them is not `define`. -/
theorem wordText_eq_spaced (w : UInt16) :
    ∃ head tokens, wordText w = spaced head tokens ∧ Written head ∧ head.fold ≠ defineWord ∧
      ∀ t ∈ tokens, Written t := by
  cases hdecode : Instruction.decode w with
  | ok i =>
    exact ⟨i.mnemonic.name.toList, i.operands.tokens i.mnemonic, wordText_of_ok hdecode,
      written_mnemonic i.mnemonic, fold_mnemonic_ne_defineWord i.mnemonic,
      written_tokens i.mnemonic i.operands⟩
  | error e =>
    have hinvalid : wordText w = spaced "invalid".toList ["opcode".toList] := by
      rw [wordText, hdecode]
      rfl
    refine ⟨"invalid".toList, ["opcode".toList], hinvalid, written_of_all (by decide) (by decide),
      by decide, ?_⟩
    simp only [List.mem_singleton, forall_eq]
    exact written_of_all (by decide) (by decide)

theorem wordText_ne_nil (w : UInt16) : wordText w ≠ [] := by
  obtain ⟨head, tokens, hw, hhead, -, -⟩ := wordText_eq_spaced w
  simp [hw, spaced, hhead.1]

theorem isWritten_of_mem_wordText (w : UInt16) :
    ∀ c ∈ wordText w, isWritten c = true ∨ c = ' ' := by
  obtain ⟨head, tokens, hw, hhead, -, htokens⟩ := wordText_eq_spaced w
  rw [hw]
  exact isWritten_of_mem_spaced hhead htokens

theorem trim_stripComment_wordText (w : UInt16) :
    (stripComment (wordText w)).trim = wordText w := by
  rw [stripComment_eq_self (isWritten_of_mem_wordText w)]
  obtain ⟨head, tokens, hw, hhead, -, htokens⟩ := wordText_eq_spaced w
  rw [hw]
  exact trim_spaced hhead htokens

theorem ofText_wordText (w : UInt16) :
    Statement.ofText (wordText w) = .instruction (wordText w) := by
  obtain ⟨head, tokens, hw, hhead, hdefine, htokens⟩ := wordText_eq_spaced w
  rw [Statement.ofText_eq_instruction_iff, hw, (splitHead_spaced hhead htokens).1]
  refine ⟨rfl, hdefine, ?_⟩
  rintro name rfl
  exact absurd (hhead.2 '.' (List.mem_cons_self ..)) (by decide)

theorem encodeLine_wordText_of_ok (t : Symbols) {w : UInt16} {i : Instruction}
    (h : Instruction.decode w = .ok i) : t.encodeLine (wordText w) = .ok w := by
  have hsplit := splitHead_spaced (written_mnemonic i.mnemonic)
    (written_tokens i.mnemonic i.operands)
  have hfits : i.operands.Fits := ((Instruction.decode_eq_ok_iff w i).mp h).1
  rw [encodeLine_eq_ok_iff, wordText_of_ok h, hsplit.1, hsplit.2]
  exact ⟨i, h, i.mnemonic.fold_name, denotesOperands_tokens t.Binds i.mnemonic hfits⟩

theorem encodeLine_wordText_of_error (t : Symbols) {w : UInt16} {e : DecodeError}
    (h : Instruction.decode w = .error e) :
    t.encodeLine (wordText w) = .error (.unknownMnemonic "invalid".toList) := by
  rw [wordText, h]
  rfl

theorem ofText_listingText (ws : List UInt16) :
    SourceLine.ofText (listingText ws) = ws.zipIdx.map fun x => ⟨x.2, wordText x.1⟩ := by
  have hlines : (listingText ws).lines = ws.map wordText := by
    apply lines_intercalate
    intro t ht
    obtain ⟨w, -, rfl⟩ := List.mem_map.mp ht
    refine ⟨wordText_ne_nil w, fun c hc => ?_⟩
    rcases isWritten_of_mem_wordText w c hc with hc | rfl
    · exact ne_newline_of_isWritten hc
    · decide
  rw [SourceLine.ofText, hlines, List.zipIdx_map, List.map_map]
  simp only [Function.comp_def, Prod.map, id, trim_stripComment_wordText]
  rw [List.filter_eq_self]
  intro l hl
  obtain ⟨x, -, rfl⟩ := List.mem_map.mp hl
  simp [wordText_ne_nil]

theorem scanLines_wordText (ws : List UInt16) (t : Symbols) (k : Nat) :
    scanLines ((ws.zipIdx k).map fun x => ⟨x.2, wordText x.1⟩) t k =
      ((ws.zipIdx k).map fun x => ⟨x.2, none, x.2, some (wordText x.1)⟩, t) := by
  induction ws generalizing k with
  | nil => rfl
  | cons w ws ih =>
    rw [List.zipIdx_cons, List.map_cons, scanLines]
    simp [ofText_wordText, Statement.code?, Statement.bind, ih]

def listingError? (x : UInt16 × Nat) : Option (Diagnostic SourceError) :=
  match Instruction.decode x.1 with
  | .ok _ => none
  | .error _ => some ⟨x.2, .unknownMnemonic "invalid".toList⟩

theorem diagnostics_listing (total : Nat) {x : UInt16 × Nat} (h : x.2 < programLimit) :
    AssemblyRow.diagnostics {} total ⟨x.2, none, x.2, some (wordText x.1)⟩ =
      (listingError? x).toList := by
  unfold AssemblyRow.diagnostics AssemblyRow.errors listingError?
  cases hw : Instruction.decode x.1 with
  | ok i => simp [encodeLine_wordText_of_ok {} hw, Nat.ne_of_lt h]
  | error e => simp [encodeLine_wordText_of_error {} hw, Nat.ne_of_lt h]

theorem word?_listing {x : UInt16 × Nat} {i : Instruction} (h : Instruction.decode x.1 = .ok i) :
    AssemblyRow.word? {} ⟨x.2, none, x.2, some (wordText x.1)⟩ = some x := by
  simp [AssemblyRow.word?, encodeLine_wordText_of_ok {} h, Except.toOption]

theorem listingError?_eq_some_iff (x : UInt16 × Nat) (d : Diagnostic SourceError) :
    listingError? x = some d ↔ d = ⟨x.2, .unknownMnemonic "invalid".toList⟩ ∧
      ∃ e, Instruction.decode x.1 = .error e := by
  unfold listingError?
  cases Instruction.decode x.1 with
  | ok i => simp
  | error e => simp [eq_comm]

/-- The lines of the words that are no instructions. -/
theorem mem_listingErrors_iff (ws : List UInt16) (n : Nat) :
    n ∈ (ws.zipIdx.filterMap listingError?).map (·.line) ↔
      ∃ w e, ws[n]? = some w ∧ Instruction.decode w = .error e := by
  simp only [List.mem_map, List.mem_filterMap, listingError?_eq_some_iff, Prod.exists,
    List.mem_zipIdx_iff_getElem?]
  constructor
  · rintro ⟨_, ⟨w, k, hw, rfl, e, he⟩, rfl⟩
    exact ⟨w, e, hw, he⟩
  · rintro ⟨w, e, hw, he⟩
    exact ⟨_, ⟨w, n, hw, rfl, e, he⟩, rfl⟩

theorem pairwise_listingErrors (ws : List UInt16) :
    ((ws.zipIdx.filterMap listingError?).map (·.line)).Pairwise (· < ·) := by
  rw [List.pairwise_map, List.pairwise_filterMap]
  apply (pairwise_zipIdx ws).imp
  intro x y hlt d hd d' hd'
  obtain ⟨rfl, -⟩ := (listingError?_eq_some_iff ..).mp hd
  obtain ⟨rfl, -⟩ := (listingError?_eq_some_iff ..).mp hd'
  exact hlt

theorem listingErrors_eq_nil_iff (ws : List UInt16) :
    ws.zipIdx.filterMap listingError? = [] ↔ ∀ w ∈ ws, ∃ i, Instruction.decode w = .ok i := by
  rw [← List.map_eq_nil_iff (f := (·.line)), List.eq_nil_iff_forall_not_mem]
  simp only [mem_listingErrors_iff]
  constructor
  · intro h w hw
    obtain ⟨n, hn⟩ := List.mem_iff_getElem?.mp hw
    cases hdecode : Instruction.decode w with
    | ok i => exact ⟨i, rfl⟩
    | error e => exact absurd ⟨w, e, hn, hdecode⟩ (h n)
  · rintro h n ⟨w, e, hn, he⟩
    obtain ⟨i, hi⟩ := h w (List.mem_of_getElem? hn)
    rw [he] at hi
    cases hi

theorem words_listing {ws : List UInt16} (h : ∀ w ∈ ws, ∃ i, Instruction.decode w = .ok i) :
    (ws.zipIdx.map fun x => ⟨x.2, none, x.2, some (wordText x.1)⟩).filterMap
      (AssemblyRow.word? {}) = ws.zipIdx := by
  rw [List.filterMap_map]
  have hword : ∀ x ∈ ws.zipIdx, (AssemblyRow.word? {} ∘ fun x : UInt16 × Nat =>
      ⟨x.2, none, x.2, some (wordText x.1)⟩) x = some x := by
    intro x hx
    obtain ⟨i, hi⟩ := h x.1 (List.fst_mem_of_mem_zipIdx hx)
    exact word?_listing hi
  rw [List.filterMap_congr hword, List.filterMap_some]

/-- A listing assembles to its words, or to what is wrong with each word that is no instruction. -/
theorem assemble_listingText_eq {ws : List UInt16} (h : ws.length ≤ programLimit) :
    assemble (listingText ws) =
      match ws.zipIdx.filterMap listingError? with
      | [] => .ok (Program.ofList ws.zipIdx)
      | ds => .error ds := by
  unfold assemble
  rw [ofText_listingText, scanLines_wordText]
  dsimp only
  generalize (List.filter _ _).length = total
  have hdiagnostics :
      (ws.zipIdx.map fun x => ⟨x.2, none, x.2, some (wordText x.1)⟩ : List AssemblyRow).flatMap
        (AssemblyRow.diagnostics {} total) = ws.zipIdx.filterMap listingError? := by
    rw [List.flatMap_map, List.filterMap_eq_flatMap_toList, List.flatMap_def, List.flatMap_def]
    congr 1
    apply List.map_congr_left
    intro x hx
    have hlt : x.2 < ws.length := List.snd_lt_of_mem_zipIdx hx
    exact diagnostics_listing total (hlt.trans_le h)
  rw [hdiagnostics]
  cases herrors : ws.zipIdx.filterMap listingError? with
  | cons d ds => rfl
  | nil => rw [words_listing ((listingErrors_eq_nil_iff ws).mp herrors)]

/-- A listing of at most 1024 words is assembled exactly when all of them are instructions, and to
these words, line by line. Otherwise the lines with a diagnostic are those of the words that are no
instructions, each once and in order. -/
theorem assemble_listingText (ws : List UInt16) (h : ws.length ≤ 1024) :
    ((∃ p, assemble (listingText ws) = .ok p) ↔ ∀ w ∈ ws, ∃ i, Instruction.decode w = .ok i) ∧
      (∀ p, assemble (listingText ws) = .ok p →
        p.words.toList = ws ∧ p.lines.toList = List.range ws.length) ∧
      ∀ ds, assemble (listingText ws) = .error ds →
        (ds.map (·.line)).Pairwise (· < ·) ∧
          ∀ n, n ∈ ds.map (·.line) ↔
            ∃ w e, ws[n]? = some w ∧ Instruction.decode w = .error e := by
  have hlines := mem_listingErrors_iff ws
  have hpairwise := pairwise_listingErrors ws
  rw [assemble_listingText_eq h, ← listingErrors_eq_nil_iff]
  cases herrors : ws.zipIdx.filterMap listingError? with
  | nil =>
    refine ⟨⟨fun _ => rfl, fun _ => ⟨_, rfl⟩⟩, ?_, ?_⟩
    · intro p hp
      obtain rfl := Except.ok.inj hp
      simp [Program.ofList, List.zipIdx_map_fst, List.zipIdx_map_snd, List.range_eq_range']
    · intro ds hds
      cases hds
  | cons d more =>
    rw [herrors] at hlines hpairwise
    refine ⟨⟨?_, ?_⟩, ?_, ?_⟩
    · rintro ⟨p, hp⟩
      cases hp
    · intro hnil
      cases hnil
    · intro p hp
      cases hp
    · intro ds hds
      obtain rfl := Except.error.inj hds
      exact ⟨hpairwise, hlines⟩

/-- A negative byte, a condition and a negative offset are read back. -/
theorem assemble_listingText_three :
    ∃ p, assemble (listingText [0x91FD, 0xB405, 0xE12F]) = .ok p ∧
      p.words.toList = [0x91FD, 0xB405, 0xE12F] ∧ p.lines.toList = [0, 1, 2] := by
  obtain ⟨hiff, hok, -⟩ := assemble_listingText [0x91FD, 0xB405, 0xE12F] (by decide)
  have hdecode : ∀ w ∈ ([0x91FD, 0xB405, 0xE12F] : List UInt16),
      ∃ i, Instruction.decode w = .ok i := by
    simp only [List.forall_mem_cons]
    exact ⟨⟨_, rfl⟩, ⟨_, rfl⟩, ⟨_, rfl⟩, by simp⟩
  obtain ⟨p, hp⟩ := hiff.mpr hdecode
  exact ⟨p, hp, hok p hp⟩

end ByteMachine
