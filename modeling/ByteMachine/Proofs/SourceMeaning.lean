import ByteMachine.Proofs.OperandMeaning

/-!
# What the lines of a source say

A line labels the next instruction, defines a name, or carries an instruction, alone or after a
label. These are said of the text of the line, and the statement that the assembler takes a line for
agrees with them. A symbol has the value that a line gives it: a label the number of instructions on
the lines above it, a definition the value of its token under the lines above it.
-/
namespace ByteMachine

open Text

def HasTokens (code mnemonic : Text) (tokens : List Text) : Prop :=
  ∃ gap rest, code = gap ++ mnemonic ++ rest ∧ (∀ c ∈ gap, isBlank c = true) ∧
    mnemonic ≠ [] ∧ (∀ c ∈ mnemonic, isBlank c = false) ∧ Opens isBlank rest ∧
    Separated isOperandSeparator rest tokens

def Labels (line name : Text) : Prop :=
  ∃ rest, line = '.' :: name ++ rest ∧ (∀ c ∈ name, isBlank c = false) ∧ Opens isBlank rest

def Defines (line name value : Text) : Prop :=
  ∃ word rest, line = word ++ rest ∧ word.fold = defineWord ∧ (∀ c ∈ word, isBlank c = false) ∧
    Opens isBlank rest ∧ Separated isOperandSeparator rest [name, value]

/-- The line carries an instruction with these tokens, alone or after a label. -/
inductive Carries (line mnemonic : Text) (tokens : List Text) : Prop
  | alone (htokens : HasTokens line mnemonic tokens) (hdefine : mnemonic.fold ≠ defineWord)
      (hlabel : ∀ name, mnemonic ≠ '.' :: name)
  | labelled (name rest : Text) (hline : line = '.' :: name ++ rest)
      (hname : ∀ c ∈ name, isBlank c = false) (hopens : Opens isBlank rest)
      (htokens : HasTokens rest mnemonic tokens)

def StartsComment (s : Text) : Prop :=
  ∃ rest, s = ';' :: rest ∨ s = '#' :: rest ∨ s = '/' :: '/' :: rest

/-- The code of a line is what stands before the first comment. -/
def Uncommented (line code : Text) : Prop :=
  ∃ comment, line = code ++ comment ∧ (comment = [] ∨ StartsComment comment) ∧
    ∀ front back, code = front ++ back → back ≠ [] → ¬ StartsComment (back ++ comment)

def CodeAt (source : Text) (n : Nat) (P : Text → Prop) : Prop :=
  ∃ line code, source.lines[n]? = some line ∧ Uncommented line code ∧ P code.trim

def CarriesAt (source : Text) (n : Nat) (mnemonic : Text) (tokens : List Text) : Prop :=
  ∃ line code, source.lines[n]? = some line ∧ Uncommented line code ∧
    Carries code.trim mnemonic tokens

theorem stripComment_of_startsComment {line : Text} (h : StartsComment line) :
    stripComment line = [] := by
  obtain ⟨rest, rfl | rfl | rfl⟩ := h
  · rfl
  · rfl
  · rfl

theorem stripComment_cons {c : Char} {line : Text} (h : ¬ StartsComment (c :: line)) :
    stripComment (c :: line) = c :: stripComment line := by
  rw [stripComment]
  · rintro rfl
    exact h ⟨line, .inl rfl⟩
  · rintro rfl
    exact h ⟨line, .inr (.inl rfl)⟩
  · rintro rest rfl rfl
    exact h ⟨rest, .inr (.inr rfl)⟩

theorem uncommented_nil {line : Text} (h : line = [] ∨ StartsComment line) :
    Uncommented line [] := by
  refine ⟨line, rfl, h, ?_⟩
  intro front back hcode hback
  exact absurd (List.nil_eq_append_iff.mp hcode).2 hback

theorem uncommented_cons {c : Char} {line code : Text} (hc : ¬ StartsComment (c :: line))
    (h : Uncommented line code) : Uncommented (c :: line) (c :: code) := by
  obtain ⟨comment, rfl, hstart, hnone⟩ := h
  refine ⟨comment, rfl, hstart, ?_⟩
  intro front back hcode hback
  cases front with
  | nil =>
    obtain rfl : c :: code = back := hcode
    exact hc
  | cons d front => exact hnone front back (List.cons.inj hcode).2 hback

/-- Stripping comments finds the code of a line, and no other text is the code of the line. -/
theorem uncommented_iff (line code : Text) : Uncommented line code ↔ stripComment line = code := by
  constructor
  · rintro ⟨comment, rfl, hstart, hnone⟩
    induction code with
    | nil =>
      rcases hstart with rfl | hstart
      · rfl
      · exact stripComment_of_startsComment hstart
    | cons c code ih =>
      have hc : ¬ StartsComment (c :: (code ++ comment)) :=
        hnone [] (c :: code) rfl (List.cons_ne_nil c code)
      have hrest := ih fun front back hcode => hnone (c :: front) back (congrArg (c :: ·) hcode)
      rw [List.cons_append, stripComment_cons hc, hrest]
  · rintro rfl
    induction line with
    | nil => exact uncommented_nil (.inl rfl)
    | cons c line ih =>
      by_cases hc : StartsComment (c :: line)
      · rw [stripComment_of_startsComment hc]
        exact uncommented_nil (.inr hc)
      · rw [stripComment_cons hc]
        exact uncommented_cons hc ih

theorem opens_append {kind : Char → Bool} {s t : Text} (hs : Opens kind s)
    (ht : ∀ c ∈ t, kind c = true) : Opens kind (s ++ t) := by
  cases s with
  | nil => exact fun c hc => ht c (List.mem_of_mem_head? hc)
  | cons d s => exact hs

theorem HasTokens.splitHead_trimStart {s mnemonic : Text} {tokens : List Text}
    (h : HasTokens s mnemonic tokens) :
    s.trimStart.splitHead.1 = mnemonic ∧ s.trimStart.splitHead.2.operandTokens = tokens := by
  obtain ⟨gap, rest, rfl, hgap, hne, hmnemonic, hopens, htokens⟩ := h
  obtain ⟨c, more, rfl⟩ := List.exists_cons_of_ne_nil hne
  have hstart : trimStart (gap ++ (c :: more) ++ rest) = (c :: more) ++ rest := by
    rw [trimStart, List.append_assoc, List.dropWhile_append_of_pos hgap]
    simp [hmnemonic c (List.mem_cons_self ..)]
  have hsplit : splitHead ((c :: more) ++ rest) = (c :: more, rest.trim) :=
    (splitHead_eq_iff ..).mpr ⟨rest, rfl, hmnemonic, hopens, rfl⟩
  rw [hstart, hsplit]
  exact ⟨rfl, (operandTokens_trim rest).trans htokens.words_eq⟩

theorem HasTokens.trim_ne_nil {s mnemonic : Text} {tokens : List Text}
    (h : HasTokens s mnemonic tokens) : s.trim ≠ [] := by
  intro htrim
  obtain ⟨front, back, hs, hfront, hback⟩ := exists_trim s
  obtain ⟨gap, rest, hs', -, hne, hmnemonic, -⟩ := h
  obtain ⟨c, more, rfl⟩ := List.exists_cons_of_ne_nil hne
  have hc : c ∈ s := by simp [hs']
  have hblank : isBlank c = true := by
    rw [hs, htrim, List.append_nil] at hc
    exact (List.mem_append.mp hc).elim (hfront c) (hback c)
  rw [hmnemonic c (List.mem_cons_self ..)] at hblank
  cases hblank

theorem hasTokens_splitHead {s : Text} (hne : s.trim ≠ []) :
    HasTokens s s.trim.splitHead.1 s.trim.splitHead.2.operandTokens := by
  obtain ⟨front, back, hs, hfront, hback⟩ := exists_trim s
  obtain ⟨rest, htrim, hhead, hopens, hcode⟩ :=
    (splitHead_eq_iff s.trim s.trim.splitHead.1 s.trim.splitHead.2).mp rfl
  refine ⟨front, rest ++ back, ?_, hfront, ?_, hhead, opens_append hopens hback, ?_⟩
  · rw [List.append_assoc, ← List.append_assoc (s.trim.splitHead.1), ← htrim, ← List.append_assoc]
    exact hs
  · -- the first character of a trimmed text is no blank, so it belongs to the head
    intro hnil
    rw [hnil, List.nil_append] at htrim
    obtain ⟨c, more, hcons⟩ := List.exists_cons_of_ne_nil hne
    have hfirst := not_isBlank_of_mem_head?_trim s c (by simp [hcons])
    have hblank := hopens c (by simp [← htrim, hcons])
    rw [hfirst] at hblank
    cases hblank
  · have hback' : ∀ c ∈ back, isOperandSeparator c = true := fun c hc =>
      isOperandSeparator_of_isBlank (hback c hc)
    rw [separated_iff, words_append_gap hback', hcode, operandTokens_trim]
    rfl

/-- The tokens of a text are those of its trimmed head and of what follows the head. -/
theorem hasTokens_iff (s mnemonic : Text) (tokens : List Text) :
    HasTokens s mnemonic tokens ↔
      s.trim ≠ [] ∧ s.trim.splitHead.1 = mnemonic ∧ s.trim.splitHead.2.operandTokens = tokens := by
  constructor
  · intro h
    obtain ⟨rfl, rfl⟩ := h.splitHead_trimStart
    have hsplit := (hasTokens_splitHead h.trim_ne_nil).splitHead_trimStart
    exact ⟨h.trim_ne_nil, hsplit.1.symm, hsplit.2.symm⟩
  · rintro ⟨hne, rfl, rfl⟩
    exact hasTokens_splitHead hne

theorem SourceLine.text_ne_nil {source : Text} {l : SourceLine} (h : l ∈ SourceLine.ofText source) :
    l.text ≠ [] := by
  have hne := (List.mem_filter.mp h).2
  simpa using hne

theorem trim_trim (s : Text) : s.trim.trim = s.trim :=
  trim_eq_self (not_isBlank_of_mem_head?_trim s) (not_isBlank_of_mem_getLast?_trim s)

theorem SourceLine.trim_text {source : Text} {l : SourceLine} (h : l ∈ SourceLine.ofText source) :
    l.text.trim = l.text := by
  obtain ⟨⟨line, n⟩, -, rfl⟩ := List.mem_map.mp (List.mem_filter.mp h).1
  exact trim_trim _

theorem sameFolded_defineWord_iff (word : Text) :
    word.sameFolded defineWord = true ↔ word.fold = defineWord := by
  have hfold : defineWord.fold = defineWord := by decide
  simp [sameFolded, hfold]

theorem fold_point_ne_defineWord (name : Text) : Text.fold ('.' :: name) ≠ defineWord := by
  intro h
  exact absurd (List.cons.inj h).1 (by decide)

/-- What a line says, by its head. -/
theorem Statement.ofText_cases (line : Text) :
    (line.splitHead.1.fold = defineWord ∧ ofText line = .define line.splitHead.2) ∨
      (∃ name, line.splitHead.1 = '.' :: name ∧ ofText line = .label name line.splitHead.2) ∨
      (line.splitHead.1.fold ≠ defineWord ∧ (∀ name, line.splitHead.1 ≠ '.' :: name) ∧
        ofText line = .instruction line) := by
  unfold ofText
  obtain ⟨head, rest⟩ := line.splitHead
  simp only [sameFolded_defineWord_iff]
  by_cases hdefine : head.fold = defineWord
  · exact .inl ⟨hdefine, if_pos hdefine⟩
  · rw [if_neg hdefine]
    split
    · rename_i name
      exact .inr (.inl ⟨name, rfl, rfl⟩)
    · rename_i hpoint
      exact .inr (.inr ⟨hdefine, hpoint, rfl⟩)

theorem Statement.ofText_eq_define_iff (line operands : Text) :
    ofText line = .define operands ↔
      ∃ word, line.splitHead = (word, operands) ∧ word.fold = defineWord := by
  simp only [Prod.ext_iff]
  rcases ofText_cases line with ⟨hhead, h⟩ | ⟨n, hhead, h⟩ | ⟨hhead, -, h⟩
  · simp [h, hhead]
  · simp [h, hhead, fold_point_ne_defineWord]
  · simp [h, hhead]

theorem Statement.ofText_eq_label_iff (line name code : Text) :
    ofText line = .label name code ↔ line.splitHead = ('.' :: name, code) := by
  rw [Prod.ext_iff]
  rcases ofText_cases line with ⟨hhead, h⟩ | ⟨n, hhead, h⟩ | ⟨-, hhead, h⟩
  · have hpoint : line.splitHead.1 ≠ '.' :: name := by
      intro hpoint
      rw [hpoint] at hhead
      exact fold_point_ne_defineWord name hhead
    simp [h, hpoint]
  · simp [h, hhead]
  · simp [h, hhead name]

theorem Statement.ofText_eq_instruction_iff (line code : Text) :
    ofText line = .instruction code ↔
      line = code ∧ line.splitHead.1.fold ≠ defineWord ∧
        ∀ name, line.splitHead.1 ≠ '.' :: name := by
  rcases ofText_cases line with ⟨hhead, h⟩ | ⟨n, hhead, h⟩ | ⟨hdefine, hhead, h⟩
  · simp [h, hhead]
  · simp [h, hhead]
  · simp [h, hdefine, hhead]

theorem splitHead_eq_label_iff (line name code : Text) :
    line.splitHead = ('.' :: name, code) ↔
      ∃ rest, line = '.' :: name ++ rest ∧ (∀ c ∈ name, isBlank c = false) ∧
        Opens isBlank rest ∧ code = rest.trim := by
  have hpoint : isBlank '.' = false := by decide
  simp [splitHead_eq_iff, hpoint]

theorem labels_iff (line name : Text) :
    Labels line name ↔ ∃ code, Statement.ofText line = .label name code := by
  simp only [Statement.ofText_eq_label_iff, splitHead_eq_label_iff]
  constructor
  · rintro ⟨rest, hline, hname, hopens⟩
    exact ⟨rest.trim, rest, hline, hname, hopens, rfl⟩
  · rintro ⟨-, rest, hline, hname, hopens, -⟩
    exact ⟨rest, hline, hname, hopens⟩

theorem defines_iff (line name value : Text) :
    Defines line name value ↔
      ∃ operands, Statement.ofText line = .define operands ∧
        operands.operandTokens = [name, value] := by
  simp only [Statement.ofText_eq_define_iff, splitHead_eq_iff]
  constructor
  · rintro ⟨word, rest, hline, hword, hblank, hopens, htokens⟩
    exact ⟨rest.trim, ⟨word, ⟨rest, hline, hblank, hopens, rfl⟩, hword⟩,
      (operandTokens_trim rest).trans htokens.words_eq⟩
  · rintro ⟨_, ⟨word, ⟨rest, hline, hblank, hopens, rfl⟩, hword⟩, htokens⟩
    rw [operandTokens_trim] at htokens
    exact ⟨word, rest, hline, hword, hblank, hopens, (separated_iff ..).mpr htokens⟩

theorem Statement.code?_eq_some_iff (statement : Statement) (code : Text) :
    statement.code? = some code ↔
      statement = .instruction code ∨ code ≠ [] ∧ ∃ name, statement = .label name code := by
  cases statement with
  | define operands => simp [code?]
  | label name rest =>
    cases rest with
    | nil => simp [code?, eq_comm]
    | cons c rest =>
      simp only [code?, List.isEmpty_cons, Bool.false_eq_true, if_false, Option.some.injEq,
        reduceCtorEq, label.injEq, false_or]
      constructor
      · rintro rfl
        exact ⟨List.cons_ne_nil c rest, name, rfl, rfl⟩
      · rintro ⟨-, _, -, hcode⟩
        exact hcode
  | instruction rest => simp [code?]

/-- A trimmed line carries the tokens of the code of its statement. -/
theorem carries_iff {line : Text} (hline : line.trim = line) (hne : line ≠ []) (mnemonic : Text)
    (tokens : List Text) :
    Carries line mnemonic tokens ↔
      ∃ code, (Statement.ofText line).code? = some code ∧ code.splitHead.1 = mnemonic ∧
        code.splitHead.2.operandTokens = tokens := by
  simp only [Statement.code?_eq_some_iff, Statement.ofText_eq_instruction_iff,
    Statement.ofText_eq_label_iff, splitHead_eq_label_iff]
  constructor
  · rintro (⟨htokens, hdefine, hlabel⟩ | ⟨name, rest, hrest, hname, hopens, htokens⟩)
    · rw [hasTokens_iff, hline] at htokens
      obtain ⟨-, rfl, hoperands⟩ := htokens
      exact ⟨line, .inl ⟨rfl, hdefine, hlabel⟩, rfl, hoperands⟩
    · obtain ⟨hcode, hmnemonic, hoperands⟩ := (hasTokens_iff ..).mp htokens
      exact ⟨rest.trim, .inr ⟨hcode, name, rest, hrest, hname, hopens, rfl⟩, hmnemonic, hoperands⟩
  · rintro ⟨code, ⟨rfl, hdefine, hlabel⟩ | ⟨hcode, name, rest, hrest, hname, hopens, rfl⟩, rfl, rfl⟩
    · refine .alone ?_ hdefine hlabel
      rw [hasTokens_iff, hline]
      exact ⟨hne, rfl, rfl⟩
    · exact .labelled name rest hrest hname hopens ((hasTokens_iff ..).mpr ⟨hcode, rfl, rfl⟩)

theorem exists_carries_iff {line : Text} (hline : line.trim = line) (hne : line ≠ []) :
    (∃ mnemonic tokens, Carries line mnemonic tokens) ↔
      (Statement.ofText line).code?.isSome = true := by
  simp only [carries_iff hline hne, Option.isSome_iff_exists]
  constructor
  · rintro ⟨_, _, code, hcode, -, -⟩
    exact ⟨code, hcode⟩
  · rintro ⟨code, hcode⟩
    exact ⟨_, _, code, hcode, rfl, rfl⟩

theorem Carries.ne_nil {line mnemonic : Text} {tokens : List Text}
    (h : Carries line mnemonic tokens) : line ≠ [] := by
  rintro rfl
  rcases h with ⟨htokens, -, -⟩ | ⟨name, rest, hrest, -, -, -⟩
  · exact htokens.trim_ne_nil rfl
  · exact List.cons_ne_nil _ _ hrest.symm

theorem SourceLine.mem_ofText_iff (source : Text) (l : SourceLine) :
    l ∈ ofText source ↔ ∃ line, source.lines[l.number]? = some line ∧
      l.text = (stripComment line).trim ∧ l.text ≠ [] := by
  simp only [ofText, List.mem_filter, List.mem_map, Prod.exists, List.mem_zipIdx_iff_getElem?,
    Bool.not_eq_eq_eq_not, Bool.not_true, List.isEmpty_eq_false_iff]
  constructor
  · rintro ⟨⟨line, n, hline, rfl⟩, hne⟩
    exact ⟨line, hline, rfl, hne⟩
  · rintro ⟨line, hline, htext, hne⟩
    refine ⟨⟨line, l.number, hline, ?_⟩, hne⟩
    rw [← htext]

theorem SourceLine.eq_of_number_eq {source : Text} {l l' : SourceLine} (hl : l ∈ ofText source)
    (hl' : l' ∈ ofText source) (h : l.number = l'.number) : l = l' := by
  obtain ⟨line, hline, htext, -⟩ := (mem_ofText_iff ..).mp hl
  obtain ⟨line', hline', htext', -⟩ := (mem_ofText_iff ..).mp hl'
  rw [h, hline'] at hline
  obtain rfl := Option.some.inj hline
  have htexts : l.text = l'.text := htext.trans htext'.symm
  cases l
  cases l'
  obtain rfl := h
  obtain rfl := htexts
  rfl

/-- What is said of a line is said of one that is not passed over, unless it is said of the empty
text. -/
theorem codeAt_iff (source : Text) (n : Nat) {P : Text → Prop} (hempty : ¬ P []) :
    CodeAt source n P ↔ ∃ l ∈ SourceLine.ofText source, l.number = n ∧ P l.text := by
  simp only [CodeAt, uncommented_iff, SourceLine.mem_ofText_iff]
  constructor
  · rintro ⟨line, _, hline, rfl, hcode⟩
    have hne : (stripComment line).trim ≠ [] := fun hnil => hempty (hnil ▸ hcode)
    exact ⟨⟨n, (stripComment line).trim⟩, ⟨line, hline, rfl, hne⟩, rfl, hcode⟩
  · rintro ⟨l, ⟨line, hline, htext, -⟩, rfl, hcode⟩
    rw [htext] at hcode
    exact ⟨line, _, hline, rfl, hcode⟩

theorem carriesAt_iff (source : Text) (n : Nat) (mnemonic : Text) (tokens : List Text) :
    CarriesAt source n mnemonic tokens ↔
      ∃ l ∈ SourceLine.ofText source, l.number = n ∧ Carries l.text mnemonic tokens :=
  codeAt_iff source n (P := (Carries · mnemonic tokens)) fun hempty => hempty.ne_nil rfl

open Classical in
noncomputable def instructionCount (ls : List SourceLine) : Nat :=
  ls.countP fun l => ∃ mnemonic tokens, Carries l.text mnemonic tokens

/-- The value that lines, the latest first, give a name. -/
def SymbolValue : List SourceLine → Text → Int → Prop
  | [], _, _ => False
  | l :: earlier, name, v =>
    (Labels l.text name ∧ v = instructionCount earlier) ∨
      (∃ value, Defines l.text name value ∧ DenotesValue (SymbolValue earlier) value v) ∨
      SymbolValue earlier name v

end ByteMachine
