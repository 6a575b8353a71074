import ByteMachine.Proofs.AssemblyMeaning
import ByteMachine.Proofs.SymbolOperands

/-!
# The symbols of an assembled text

The first pass binds names line by line, and a binding stays as it is made. So when a text is
assembled, each label has the number of words that came from the lines above it, each definition the
value of its token under the lines above it, and no name is bound on two lines. An operand that
names a symbol is encoded as the value of that symbol, wherever the symbol is bound; a text that
mentions a symbol that no line binds is not assembled.
-/
namespace ByteMachine

open Text

def BindsName (line name : Text) : Prop := Labels line name ∨ ∃ value, Defines line name value

def BeginsDefinition (line : Text) : Prop :=
  ∃ word rest, line = word ++ rest ∧ word.fold = defineWord ∧ (∀ c ∈ word, isBlank c = false) ∧
    Opens isBlank rest

inductive Mentions (source : Text) (n : Nat) (name : Text) : Prop
  | operand (mnemonic : Text) (tokens : List Text) (hcarries : CarriesAt source n mnemonic tokens)
      (hnames : OperandNames mnemonic tokens name)
  | value (defined token : Text) (hdefines : CodeAt source n (Defines · defined token))
      (hnames : Names token name)

def Symbols.ofText (source : Text) : Symbols := (scanLines (SourceLine.ofText source) {} 0).2

/-- Every name of an assembled text has the value that its line gives it, and an operand that names
it is encoded as this value. -/
structure Resolved (source : Text) (p : Program) : Prop where
  label (n : Nat) (name : Text) : CodeAt source n (Labels · name) →
    (Symbols.ofText source).find? name = some ⟨p.lines.toList.countP (· < n), n⟩
  definition (n : Nat) : CodeAt source n BeginsDefinition →
    ∃ name token, CodeAt source n (Defines · name token)
  define (n : Nat) (name token : Text) : CodeAt source n (Defines · name token) →
    ∃ v, (Symbols.ofText source).find? name = some ⟨v, n⟩ ∧ (Literal token v ∨
      ∃ other m, Names token other ∧ m < n ∧ (Symbols.ofText source).find? other = some ⟨v, m⟩)
  bound (name : Text) (b : SymbolBinding) : (Symbols.ofText source).find? name = some b →
    CodeAt source b.line (BindsName · name)
  once (n m : Nat) (name : Text) : CodeAt source n (BindsName · name) →
    CodeAt source m (BindsName · name) → n = m
  free (n : Nat) (name : Text) : CodeAt source n (BindsName · name) →
    name.isSymbolName = true ∧ FreeName name
  operand (n : Nat) (mnemonic : Text) (tokens : List Text) (token name : Text)
    (b : SymbolBinding) : CarriesAt source n mnemonic tokens → token ∈ tokens →
      Names token name → (Symbols.ofText source).find? name = some b →
        n ∈ p.lines ∧ ∀ k : Nat, p.lines[k]? = some n → ∃ w i, p.words[k]? = some w ∧
          Instruction.decode w = .ok i ∧ i.operands.Holds b.value

/-- What a statement binds, if anything: the one name of its line. -/
theorem Statement.bind_cases {l : SourceLine} {t t' : Symbols} {address : Nat}
    (h : (ofText l.text).bind t address l.number = .ok t') :
    (t' = t ∧ ∀ name, ¬ BindsName l.text name) ∨
      ∃ bound v, (∀ name, BindsName l.text name ↔ name = bound) ∧
        t.bind bound v l.number = .ok t' := by
  simp only [BindsName, labels_iff, defines_iff]
  cases hstatement : ofText l.text with
  | define operands =>
    rw [hstatement] at h
    obtain ⟨bound, value, v, htokens, -, hbind⟩ := (Symbols.define_eq_ok_iff ..).mp h
    exact .inr ⟨bound, v, by simp [htokens, eq_comm], hbind⟩
  | label bound code =>
    rw [hstatement] at h
    exact .inr ⟨bound, address, by simp [eq_comm], h⟩
  | instruction code =>
    rw [hstatement] at h
    exact .inl ⟨(Except.ok.inj h).symm, by simp⟩

theorem Statement.find?_of_bind {l : SourceLine} {t t' : Symbols} {address : Nat}
    (h : (ofText l.text).bind t address l.number = .ok t') {name : Text} {b : SymbolBinding}
    (hb : t'.find? name = some b) :
    (b.line = l.number ∧ BindsName l.text name) ∨ t.find? name = some b := by
  rcases bind_cases h with ⟨rfl, -⟩ | ⟨bound, v, hbinds, hbind⟩
  · exact .inr hb
  · refine ((Symbols.find?_of_bind hbind name b).mp hb).imp_left ?_
    rintro ⟨rfl, rfl⟩
    exact ⟨rfl, (hbinds name).mpr rfl⟩

/-- A binding comes from a line that binds the name. -/
theorem exists_binds_of_find? (ls : List SourceLine) {t : Symbols} {address : Nat} {name : Text}
    {b : SymbolBinding} (hb : (scanLines ls t address).2.find? name = some b) :
    (∃ l ∈ ls, l.number = b.line ∧ BindsName l.text name) ∨ t.find? name = some b := by
  induction ls generalizing t address with
  | nil => exact .inr hb
  | cons l rest ih =>
    obtain ⟨e, t', hbind, hscan⟩ := scanLines_cons l t address
    rw [hscan] at hb
    rcases ih hb with ⟨l', hl', hline⟩ | hb
    · exact .inl ⟨l', List.mem_cons_of_mem l hl', hline⟩
    · rcases hbind with ⟨hbind, -⟩ | ⟨rfl, -⟩
      · exact (Statement.find?_of_bind hbind hb).imp_left
          fun h => ⟨l, List.mem_cons_self .., h.1.symm, h.2⟩
      · exact .inr hb

theorem scanLines_append (before after : List SourceLine) (t : Symbols) (address : Nat) :
    scanLines (before ++ after) t address =
      ((scanLines before t address).1 ++ (scanLines after (scanLines before t address).2
          (address + (lineCodes before).length)).1,
        (scanLines after (scanLines before t address).2
          (address + (lineCodes before).length)).2) := by
  induction before generalizing t address with
  | nil => rfl
  | cons l before ih =>
    obtain ⟨e, t', -, hscan⟩ := scanLines_cons l t address
    have hnext : l.next address + (lineCodes before).length =
        address + (lineCodes (l :: before)).length := by
      rw [lineCodes_cons, List.length_append, SourceLine.next]
      cases (Statement.ofText l.text).code? with
      | none => simp
      | some code => simp [Nat.add_assoc]
    rw [List.cons_append, hscan, hscan, ih, hnext]
    rfl

theorem not_labels_nil (name : Text) : ¬ Labels [] name := by
  rintro ⟨rest, hline, -⟩
  cases hline

theorem not_beginsDefinition_nil : ¬ BeginsDefinition [] := by
  rintro ⟨word, rest, hline, hword, -⟩
  obtain ⟨rfl, -⟩ := List.nil_eq_append_iff.mp hline
  cases hword

theorem not_defines_nil (name value : Text) : ¬ Defines [] name value := by
  rintro ⟨word, rest, hline, hword, hblank, hopens, -⟩
  exact not_beginsDefinition_nil ⟨word, rest, hline, hword, hblank, hopens⟩

theorem beginsDefinition_iff (line : Text) :
    BeginsDefinition line ↔ ∃ operands, Statement.ofText line = .define operands := by
  simp only [Statement.ofText_eq_define_iff, splitHead_eq_iff]
  constructor
  · rintro ⟨word, rest, hline, hword, hblank, hopens⟩
    exact ⟨rest.trim, word, ⟨rest, hline, hblank, hopens, rfl⟩, hword⟩
  · rintro ⟨_, word, ⟨rest, hline, hblank, hopens, rfl⟩, hword⟩
    exact ⟨word, rest, hline, hword, hblank, hopens⟩

theorem not_bindsName_nil (name : Text) : ¬ BindsName [] name := by
  rintro (hlabel | ⟨value, hdefine⟩)
  · exact not_labels_nil name hlabel
  · exact not_defines_nil name value hdefine

section Lines
variable {source : Text} {p : Program} {before after : List SourceLine} {l : SourceLine}

theorem number_lt_of_split (hsplit : SourceLine.ofText source = before ++ l :: after) :
    (∀ l' ∈ before, l'.number < l.number) ∧ ∀ l' ∈ l :: after, l.number ≤ l'.number := by
  have hpairwise := SourceLine.pairwise_number source
  rw [hsplit, List.pairwise_append, List.pairwise_cons] at hpairwise
  obtain ⟨-, ⟨hafter, -⟩, hbefore⟩ := hpairwise
  refine ⟨fun l' hl' => hbefore l' hl' l (List.mem_cons_self ..), ?_⟩
  rintro l' hl'
  rcases List.mem_cons.mp hl' with rfl | hl'
  · exact Nat.le_refl l'.number
  · exact (hafter l' hl').le

theorem lines_of_assemble (h : assemble source = .ok p) :
    p.lines.toList = (lineCodes (SourceLine.ofText source)).map (·.1) := by
  obtain ⟨rows, rfl, hrows⟩ := encodesTo_of_assemble h
  rw [← map_snd_of_encodesTo hrows]
  rfl

/-- The words from the lines above a line are the instructions of these lines. -/
theorem countP_lines (h : assemble source = .ok p)
    (hsplit : SourceLine.ofText source = before ++ l :: after) :
    p.lines.toList.countP (· < l.number) = (lineCodes before).length := by
  obtain ⟨hbefore, hafter⟩ := number_lt_of_split hsplit
  have hcodes : lineCodes (SourceLine.ofText source) =
      lineCodes before ++ lineCodes (l :: after) := by
    rw [hsplit, lineCodes, List.filterMap_append]
    rfl
  have hfirst :
      (lineCodes before).countP (fun c => c.1 < l.number) = (lineCodes before).length := by
    rw [List.countP_eq_length]
    rintro ⟨n, code⟩ hc
    obtain ⟨l', hl', rfl, -⟩ := (mem_lineCodes_iff ..).mp hc
    simpa using hbefore l' hl'
  have hsecond : (lineCodes (l :: after)).countP (fun c => c.1 < l.number) = 0 := by
    rw [List.countP_eq_zero]
    rintro ⟨n, code⟩ hc
    obtain ⟨l', hl', rfl, -⟩ := (mem_lineCodes_iff ..).mp hc
    simpa using hafter l' hl'
  rw [lines_of_assemble h, hcodes, List.countP_map, List.countP_append]
  exact congrArg₂ (· + ·) hfirst hsecond

/-- When a text is assembled, each line has bound what it says under the symbols of the lines above
it, at the number of words that came from these. -/
theorem exists_bind_of_assemble (h : assemble source = .ok p) (hl : l ∈ SourceLine.ofText source) :
    ∃ t t', (Statement.ofText l.text).bind t (p.lines.toList.countP (· < l.number)) l.number =
        .ok t' ∧
      (∀ name b, t.find? name = some b →
        b.line < l.number ∧ (Symbols.ofText source).find? name = some b) ∧
      ∀ name b, t'.find? name = some b → (Symbols.ofText source).find? name = some b := by
  obtain ⟨before, after, hsplit⟩ := List.append_of_mem hl
  obtain ⟨hrows, -⟩ := (assemble_eq_ok_iff ..).mp h
  have hscan := scanLines_append before (l :: after) {} 0
  obtain ⟨e, t', hbind, hcons⟩ := scanLines_cons l (scanLines before {} 0).2
    (0 + (lineCodes before).length)
  rw [hcons] at hscan
  rw [hsplit, hscan] at hrows
  have herror : e = none :=
    (hrows _ (List.mem_append_right _ (List.mem_cons_self ..))).1
  obtain ⟨hbind, -⟩ | ⟨-, error, -, rfl⟩ := hbind
  · have hfinal (name : Text) (b : SymbolBinding) (hb : t'.find? name = some b) :
        (Symbols.ofText source).find? name = some b := by
      rw [Symbols.ofText, hsplit, hscan]
      exact (Symbols.Later.refl.scanLines after _).find? hb
    rw [Nat.zero_add] at hbind
    rw [countP_lines h hsplit]
    refine ⟨_, t', hbind, ?_, hfinal⟩
    intro name b hb
    refine ⟨?_, hfinal name b ((Symbols.Later.refl.statement hbind).find? hb)⟩
    rcases exists_binds_of_find? before hb with ⟨l', hl', hline, -⟩ | hempty
    · rw [← hline]
      exact (number_lt_of_split hsplit).1 l' hl'
    · cases hempty
  · cases herror

theorem find?_of_label (h : assemble source = .ok p) {n : Nat} {name : Text}
    (hcode : CodeAt source n (Labels · name)) :
    (Symbols.ofText source).find? name = some ⟨p.lines.toList.countP (· < n), n⟩ := by
  obtain ⟨l, hl, rfl, hlabel⟩ := (codeAt_iff source n (not_labels_nil name)).mp hcode
  obtain ⟨code, hstatement⟩ := (labels_iff ..).mp hlabel
  obtain ⟨t, t', hbind, -, hfinal⟩ := exists_bind_of_assemble h hl
  rw [hstatement] at hbind
  exact hfinal _ _ ((Symbols.find?_of_bind hbind name _).mpr (.inl ⟨rfl, rfl⟩))

theorem find?_of_define (h : assemble source = .ok p) {n : Nat} {name token : Text}
    (hcode : CodeAt source n (Defines · name token)) :
    ∃ v, (Symbols.ofText source).find? name = some ⟨v, n⟩ ∧ (Literal token v ∨
      ∃ other m, Names token other ∧ m < n ∧
        (Symbols.ofText source).find? other = some ⟨v, m⟩) := by
  obtain ⟨l, hl, rfl, hdefine⟩ := (codeAt_iff source n (not_defines_nil name token)).mp hcode
  obtain ⟨operands, hstatement, htokens⟩ := (defines_iff ..).mp hdefine
  obtain ⟨t, t', hbind, hearlier, hfinal⟩ := exists_bind_of_assemble h hl
  rw [hstatement] at hbind
  obtain ⟨name', token', v, htokens', hv, hbind⟩ := (Symbols.define_eq_ok_iff ..).mp hbind
  obtain ⟨rfl, rfl⟩ : name' = name ∧ token' = token := by simpa [htokens'] using htokens
  refine ⟨v, hfinal _ _ ((Symbols.find?_of_bind hbind name' _).mpr (.inl ⟨rfl, rfl⟩)), ?_⟩
  rcases hv with hliteral | ⟨other, htoken, hother, b, hb, rfl⟩
  · exact .inl hliteral
  · obtain ⟨hline, hb⟩ := hearlier other b hb
    exact .inr ⟨other, b.line, ⟨htoken, hother⟩, hline, hb⟩

theorem exists_defines_of_beginsDefinition (h : assemble source = .ok p) {n : Nat}
    (hcode : CodeAt source n BeginsDefinition) :
    ∃ name token, CodeAt source n (Defines · name token) := by
  obtain ⟨l, hl, rfl, hline⟩ := (codeAt_iff source n not_beginsDefinition_nil).mp hcode
  obtain ⟨operands, hstatement⟩ := (beginsDefinition_iff l.text).mp hline
  obtain ⟨t, t', hbind, -, -⟩ := exists_bind_of_assemble h hl
  rw [hstatement] at hbind
  obtain ⟨name, token, -, htokens, -, -⟩ := (Symbols.define_eq_ok_iff ..).mp hbind
  exact ⟨name, token, (codeAt_iff source _ (not_defines_nil name token)).mpr
    ⟨l, hl, rfl, (defines_iff ..).mpr ⟨operands, hstatement, htokens⟩⟩⟩

theorem bindsName_of_find? {name : Text} {b : SymbolBinding}
    (h : (Symbols.ofText source).find? name = some b) :
    CodeAt source b.line (BindsName · name) := by
  rcases exists_binds_of_find? _ h with ⟨l, hl, hline, hbinds⟩ | hempty
  · exact (codeAt_iff source b.line (not_bindsName_nil name)).mpr ⟨l, hl, hline, hbinds⟩
  · cases hempty

theorem find?_of_bindsName (h : assemble source = .ok p) {n : Nat} {name : Text}
    (hbinds : CodeAt source n (BindsName · name)) :
    ∃ v, (Symbols.ofText source).find? name = some ⟨v, n⟩ := by
  obtain ⟨line, code, hline, hcode, hlabel | ⟨token, hdefine⟩⟩ := hbinds
  · exact ⟨_, find?_of_label h ⟨line, code, hline, hcode, hlabel⟩⟩
  · obtain ⟨v, hv, -⟩ := find?_of_define h ⟨line, code, hline, hcode, hdefine⟩
    exact ⟨v, hv⟩

theorem freeName_of_bindsName (h : assemble source = .ok p) {n : Nat} {name : Text}
    (hcode : CodeAt source n (BindsName · name)) : name.isSymbolName = true ∧ FreeName name := by
  obtain ⟨l, hl, rfl, hbinds⟩ := (codeAt_iff source n (not_bindsName_nil name)).mp hcode
  obtain ⟨t, t', hbind, -, -⟩ := exists_bind_of_assemble h hl
  rcases Statement.bind_cases hbind with ⟨-, hnone⟩ | ⟨bound, v, hbinds', hbind⟩
  · exact absurd hbinds (hnone name)
  · obtain rfl := (hbinds' name).mp hbinds
    obtain ⟨hname, hreserved, -, -⟩ := (Symbols.bind_eq_ok_iff ..).mp hbind
    exact ⟨hname, freeName_of_isReserved_eq_false hname hreserved⟩

theorem mem_lines_of_carriesAt (h : assemble source = .ok p) {n : Nat} {mnemonic : Text}
    {tokens : List Text} (hcarries : CarriesAt source n mnemonic tokens) : n ∈ p.lines := by
  rw [← Array.mem_toList_iff, lines_of_assemble h, List.mem_map]
  obtain ⟨code, hcode⟩ := (exists_mem_lineCodes_iff source n).mpr ⟨_, _, hcarries⟩
  exact ⟨_, hcode, rfl⟩

/-- The word of a line decodes to what the line means under the symbols of the text. -/
theorem exists_decode_of_lines (h : assemble source = .ok p) {n k : Nat} {mnemonic : Text}
    {tokens : List Text} (hcarries : CarriesAt source n mnemonic tokens)
    (hk : p.lines[k]? = some n) :
    ∃ w i, p.words[k]? = some w ∧ Instruction.decode w = .ok i ∧
      DenotesInstruction (Symbols.ofText source).Binds mnemonic tokens i := by
  obtain ⟨rows, rfl, hrows⟩ := encodesTo_of_assemble h
  simp only [Program.ofList, List.getElem?_toArray, List.getElem?_map,
    Option.map_eq_some_iff] at hk ⊢
  obtain ⟨row, hrow, rfl⟩ := hk
  obtain ⟨⟨line, code⟩, hcode, rfl, hencode⟩ :=
    exists_encodesTo_of_mem hrows (List.mem_of_getElem? hrow)
  obtain ⟨rfl, rfl⟩ := (carriesAt_iff_of_mem_lineCodes hcode mnemonic tokens).mp hcarries
  obtain ⟨i, hdecode, hdenotes⟩ := (encodeLine_eq_ok_iff ..).mp hencode
  exact ⟨row.1, i, ⟨row, hrow, rfl⟩, hdecode, hdenotes⟩

theorem holds_of_assemble (h : assemble source = .ok p) {n k : Nat} {mnemonic name : Text}
    {tokens : List Text} (hcarries : CarriesAt source n mnemonic tokens)
    (hnames : OperandNames mnemonic tokens name) (hk : p.lines[k]? = some n) :
    ∃ b w i, (Symbols.ofText source).find? name = some b ∧ p.words[k]? = some w ∧
      Instruction.decode w = .ok i ∧ i.operands.Holds b.value := by
  obtain ⟨w, i, hw, hdecode, hdenotes⟩ := exists_decode_of_lines h hcarries hk
  obtain ⟨_, ⟨b, hb, rfl⟩, hholds⟩ := hnames.holds hdenotes
  exact ⟨b, w, i, hb, hw, hdecode, hholds⟩

/-- A symbol that an assembled text mentions is bound. -/
theorem exists_find?_of_mentions (h : assemble source = .ok p) {n : Nat} {name : Text}
    (hmentions : Mentions source n name) : ∃ b, (Symbols.ofText source).find? name = some b := by
  rcases hmentions with ⟨mnemonic, tokens, hcarries, hnames⟩ | ⟨defined, token, hdefines, hnames⟩
  · obtain ⟨k, hk⟩ := Array.mem_iff_getElem?.mp (mem_lines_of_carriesAt h hcarries)
    obtain ⟨b, -, -, hb, -⟩ := holds_of_assemble h hcarries hnames hk
    exact ⟨b, hb⟩
  · obtain ⟨v, -, hliteral | ⟨other, m, hother, -, hb⟩⟩ := find?_of_define h hdefines
    · have hnone := literal?_symbolName hnames.2 hnames.1
      rw [(literal?_eq_some_iff ..).mpr hliteral] at hnone
      cases hnone
    · rw [hnames.unique hother]
      exact ⟨_, hb⟩

theorem resolved_of_assemble (h : assemble source = .ok p) : Resolved source p where
  label _ _ := find?_of_label h
  definition _ := exists_defines_of_beginsDefinition h
  define _ _ _ := find?_of_define h
  bound _ _ := bindsName_of_find?
  once n m name hn hm := by
    obtain ⟨v, hv⟩ := find?_of_bindsName h hn
    obtain ⟨u, hu⟩ := find?_of_bindsName h hm
    rw [hv] at hu
    exact congrArg SymbolBinding.line (Option.some.inj hu)
  free _ _ := freeName_of_bindsName h
  operand n mnemonic tokens token name b hcarries hmem hnames hb := by
    have hfree := (freeName_of_bindsName h (bindsName_of_find? hb)).2
    refine ⟨mem_lines_of_carriesAt h hcarries, ?_⟩
    intro k hk
    obtain ⟨b', w, i, hb', hw, hdecode, hholds⟩ :=
      holds_of_assemble h hcarries (hfree.operandNames hnames hmem mnemonic) hk
    rw [hb] at hb'
    obtain rfl := Option.some.inj hb'
    exact ⟨w, i, hw, hdecode, hholds⟩

end Lines

/-- Symbols are resolved: an assembled text has its names resolved, and a text that mentions a
symbol that no line binds is not assembled. -/
theorem symbols_resolved (source : Text) :
    (∀ p, assemble source = .ok p → Resolved source p) ∧
      ∀ n name, Mentions source n name → (∀ m, ¬ CodeAt source m (BindsName · name)) →
        ∃ diagnostics, assemble source = .error diagnostics := by
  refine ⟨fun p h => resolved_of_assemble h, ?_⟩
  intro n name hmentions hunbound
  cases h : assemble source with
  | error diagnostics => exact ⟨diagnostics, rfl⟩
  | ok p =>
    obtain ⟨b, hb⟩ := exists_find?_of_mentions h hmentions
    exact absurd (bindsName_of_find? hb) (hunbound b.line)

/-- The text has a label alone, one with an instruction, one after the last instruction, and a name
that is defined after its use by another name. -/
def forwardText : Text :=
  ".start\n.again ldi r1 .size\ndefine base 3\ndefine size base\nbrh nz again\nJMP end\n.end".toList

theorem symbols_resolved_forward :
    Resolved forwardText ⟨#[0x8103, 0xB400, 0xA003], #[1, 4, 5]⟩ ∧
      (Symbols.ofText forwardText).find? "end".toList = some ⟨3, 6⟩ ∧
      (∃ i, Instruction.decode 0x8103 = .ok i ∧ i.operands.Holds 3) ∧
      ∃ diagnostics, assemble "jmp .nowhere".toList = .error diagnostics := by
  have hresolved := (symbols_resolved forwardText).1 ⟨#[0x8103, 0xB400, 0xA003], #[1, 4, 5]⟩
    (by decide +kernel)
  refine ⟨hresolved, ?_, ?_, ?_⟩
  · exact hresolved.label 6 "end".toList ⟨".end".toList, ".end".toList, by decide +kernel,
      (uncommented_iff ..).mpr (by decide), [], by decide, not_isBlank_of_isSymbolName (by decide),
      by simp [Opens]⟩
  · have hcarries : CarriesAt forwardText 1 "ldi".toList ["r1".toList, ".size".toList] :=
      ⟨".again ldi r1 .size".toList, ".again ldi r1 .size".toList, by decide +kernel,
        (uncommented_iff ..).mpr (by decide), .labelled "again".toList " ldi r1 .size".toList
          (by decide) (not_isBlank_of_isSymbolName (by decide)) (by simp [Opens, isBlank])
          ((hasTokens_iff ..).mpr (by decide))⟩
    have hsize : (Symbols.ofText forwardText).find? "size".toList = some ⟨3, 3⟩ := by
      decide +kernel
    obtain ⟨w, i, hw, hword⟩ := (hresolved.operand 1 "ldi".toList ["r1".toList, ".size".toList]
      ".size".toList "size".toList ⟨3, 3⟩ hcarries (by decide) ⟨.inr rfl, by decide⟩ hsize).2 0 rfl
    obtain rfl := Option.some.inj hw
    exact ⟨i, hword⟩
  · refine (symbols_resolved "jmp .nowhere".toList).2 0 "nowhere".toList ?_ ?_
    · have hcarries : CarriesAt "jmp .nowhere".toList 0 "jmp".toList [".nowhere".toList] :=
        ⟨"jmp .nowhere".toList, "jmp .nowhere".toList, by decide,
          (uncommented_iff ..).mpr (by decide),
          .alone ((hasTokens_iff ..).mpr (by decide)) (by decide) (by simp)⟩
      exact .operand "jmp".toList [".nowhere".toList] hcarries
        ⟨0, ".nowhere".toList, rfl, ⟨.inr rfl, by decide⟩, .inr ⟨.jmp, by decide, rfl⟩⟩
    · intro m hcode
      have hstatement : Statement.ofText "jmp .nowhere".toList =
          .instruction "jmp .nowhere".toList := rfl
      have hlines : SourceLine.ofText "jmp .nowhere".toList =
          [⟨0, "jmp .nowhere".toList⟩] := rfl
      obtain ⟨l, hl, -, hbinds⟩ :=
        (codeAt_iff _ m (not_bindsName_nil "nowhere".toList)).mp hcode
      rw [hlines, List.mem_singleton] at hl
      subst hl
      simp only [BindsName, labels_iff, defines_iff, hstatement, reduceCtorEq, false_and,
        exists_const, or_self] at hbinds

end ByteMachine
