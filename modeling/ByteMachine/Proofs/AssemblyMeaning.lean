import ByteMachine.Proofs.FirstPass

/-!
# What an assembled program is

A source text that is assembled gives one word for each line that carries an instruction, in the
order of the lines. Each word decodes, and to the one instruction that the tokens of its line mean
under the symbols of the whole text.
-/
namespace ByteMachine

open Text

/-- The program is what the source text says. -/
structure AssembledFrom (source : Text) (p : Program) : Prop where
  size_eq : p.words.size = p.lines.size
  size_le : p.words.size ≤ 1024
  increasing : p.lines.toList.Pairwise (· < ·)
  mem_lines_iff (n : Nat) : n ∈ p.lines ↔ ∃ mnemonic tokens, CarriesAt source n mnemonic tokens
  symbol_unique (name : Text) (v v' : Int) :
    SymbolValue (SourceLine.ofText source).reverse name v →
      SymbolValue (SourceLine.ofText source).reverse name v' → v = v'
  word (k : Nat) (w : UInt16) (n : Nat) : p.words[k]? = some w → p.lines[k]? = some n →
    ∃ i, Instruction.decode w = .ok i ∧ ∀ mnemonic tokens, CarriesAt source n mnemonic tokens →
      ∀ j, DenotesInstruction (SymbolValue (SourceLine.ofText source).reverse) mnemonic tokens j ↔
        j = i

theorem AssemblyRow.errors_eq_nil_iff (t : Symbols) (total : Nat) (r : AssemblyRow) :
    r.errors t total = [] ↔ r.symbolError = none ∧ ∀ code, r.code = some code →
      r.address ≠ programLimit ∧ ∃ w, t.encodeLine code = .ok w := by
  unfold errors
  rw [List.append_eq_nil_iff, Option.toList_eq_nil_iff]
  refine and_congr_right fun _ => ?_
  cases r.code with
  | none => simp
  | some code =>
    cases hcode : t.encodeLine code with
    | ok w => simp [hcode]
    | error e => simp [hcode]

/-- A program is assembled when nothing is wrong with any line. -/
theorem assemble_eq_ok_iff (source : Text) (p : Program) :
    assemble source = .ok p ↔
      (∀ r ∈ (scanLines (SourceLine.ofText source) {} 0).1, r.symbolError = none ∧
        ∀ code, r.code = some code → r.address ≠ programLimit ∧
          ∃ w, (scanLines (SourceLine.ofText source) {} 0).2.encodeLine code = .ok w) ∧
      p = Program.ofList ((scanLines (SourceLine.ofText source) {} 0).1.filterMap
        (AssemblyRow.word? (scanLines (SourceLine.ofText source) {} 0).2)) := by
  unfold assemble
  obtain ⟨rows, t⟩ := scanLines (SourceLine.ofText source) {} 0
  dsimp only
  simp only [← AssemblyRow.errors_eq_nil_iff t (rows.filter (·.code.isSome)).length]
  have hnone : rows.flatMap (AssemblyRow.diagnostics t (rows.filter (·.code.isSome)).length) = [] ↔
      ∀ r ∈ rows, r.errors t (rows.filter (·.code.isSome)).length = [] := by
    simp [List.flatMap_eq_nil_iff, AssemblyRow.diagnostics]
  rw [← hnone]
  split
  · rename_i h
    simp [h, eq_comm]
  · rename_i h
    simp only [reduceCtorEq, false_iff]
    exact fun hnil => h hnil.1

/-- The words of rows are those of their instructions. -/
theorem filterMap_word? (t : Symbols) (rows : List AssemblyRow) :
    rows.filterMap (AssemblyRow.word? t) =
      (rows.filterMap fun r => r.code.map fun code => (r.line, code)).filterMap
        fun c => (t.encodeLine c.2).toOption.map fun w => (w, c.1) := by
  rw [List.filterMap_filterMap]
  congr 1
  funext r
  unfold AssemblyRow.word?
  cases r.code <;> rfl

def EncodesTo (t : Symbols) (c : Nat × Text) (row : UInt16 × Nat) : Prop :=
  c.1 = row.2 ∧ t.encodeLine c.2 = .ok row.1

theorem forall₂_encodesTo {t : Symbols} {codes : List (Nat × Text)}
    (h : ∀ c ∈ codes, ∃ w, t.encodeLine c.2 = .ok w) :
    List.Forall₂ (EncodesTo t) codes
      (codes.filterMap fun c => (t.encodeLine c.2).toOption.map fun w => (w, c.1)) := by
  induction codes with
  | nil => exact .nil
  | cons c codes ih =>
    obtain ⟨w, hw⟩ := h c (List.mem_cons_self ..)
    have hrest := ih fun c' hc' => h c' (List.mem_cons_of_mem c hc')
    simp only [List.filterMap_cons, hw, Except.toOption, Option.map_some]
    exact .cons ⟨rfl, hw⟩ hrest

theorem mem_lineCodes_iff (ls : List SourceLine) (n : Nat) (code : Text) :
    (n, code) ∈ lineCodes ls ↔
      ∃ l ∈ ls, l.number = n ∧ (Statement.ofText l.text).code? = some code := by
  simp only [lineCodes, List.mem_filterMap, Option.map_eq_some_iff, Prod.mk.injEq]
  grind

/-- The instructions of an assembled text are encoded under the symbols that the first pass leaves.
-/
theorem encodesTo_of_assemble {source : Text} {p : Program} (h : assemble source = .ok p) :
    ∃ rows, p = Program.ofList rows ∧
      List.Forall₂ (EncodesTo (scanLines (SourceLine.ofText source) {} 0).2)
        (lineCodes (SourceLine.ofText source)) rows := by
  obtain ⟨hrows, hp⟩ := (assemble_eq_ok_iff ..).mp h
  have hcodes := scanLines_codes (SourceLine.ofText source) {} 0
  refine ⟨_, hp, ?_⟩
  rw [filterMap_word?, hcodes]
  apply forall₂_encodesTo
  intro c hc
  rw [← hcodes, List.mem_filterMap] at hc
  obtain ⟨r, hr, hc⟩ := hc
  obtain ⟨code, hcode, rfl⟩ := Option.map_eq_some_iff.mp hc
  exact ((hrows r hr).2 code hcode).2

/-- The instructions of an assembled text, with its symbols, words and places. -/
theorem codes_of_assemble {source : Text} {p : Program} (h : assemble source = .ok p) :
    ∃ t : Symbols, ∃ rows, p = Program.ofList rows ∧
      t.Binds = SymbolValue (SourceLine.ofText source).reverse ∧
      (lineCodes (SourceLine.ofText source)).length ≤ programLimit ∧
      List.Forall₂ (EncodesTo t) (lineCodes (SourceLine.ofText source)) rows := by
  obtain ⟨rows, hp, hencodes⟩ := encodesTo_of_assemble h
  obtain ⟨hrows, -⟩ := (assemble_eq_ok_iff ..).mp h
  have haddresses := scanLines_addresses (SourceLine.ofText source) {} 0
  refine ⟨_, rows, hp, ?_, ?_, hencodes⟩
  · have hstart : Symbols.Binds {} = SymbolValue [] := by
      funext name v
      exact propext ⟨Symbols.not_binds_empty name v, False.elim⟩
    have hbinds := scanLines_binds (SourceLine.ofText source) []
      (fun l hl => SourceLine.trimmed_of_mem hl) hstart fun r hr => (hrows r hr).1
    rwa [List.append_nil] at hbinds
  · by_contra hlong
    -- one of more instructions than the limit has the limit as its address
    have hmem : programLimit ∈ List.range' 0 (lineCodes (SourceLine.ofText source)).length := by
      rw [List.mem_range'_1]
      omega
    rw [← haddresses, List.mem_filterMap] at hmem
    obtain ⟨r, hr, haddress⟩ := hmem
    obtain ⟨code, hcode, haddress⟩ := Option.map_eq_some_iff.mp haddress
    exact ((hrows r hr).2 code hcode).1 haddress

theorem pairwise_zipIdx {α : Type} (l : List α) : l.zipIdx.Pairwise fun x y => x.2 < y.2 := by
  apply List.pairwise_map.mp
  rw [List.zipIdx_map_snd]
  exact List.pairwise_lt_range'

theorem SourceLine.pairwise_number (source : Text) :
    (ofText source).Pairwise fun l l' => l.number < l'.number := by
  apply List.Pairwise.filter
  rw [List.pairwise_map]
  exact pairwise_zipIdx source.lines

theorem pairwise_lineCodes (source : Text) :
    ((lineCodes (SourceLine.ofText source)).map (·.1)).Pairwise (· < ·) := by
  rw [List.pairwise_map, lineCodes, List.pairwise_filterMap]
  apply (SourceLine.pairwise_number source).imp
  intro l l' hlt c hc c' hc'
  obtain ⟨code, -, rfl⟩ := Option.map_eq_some_iff.mp hc
  obtain ⟨code', -, rfl⟩ := Option.map_eq_some_iff.mp hc'
  exact hlt

/-- The tokens that a line carries are those of its code. -/
theorem carriesAt_iff_of_mem_lineCodes {source : Text} {n : Nat} {code : Text}
    (h : (n, code) ∈ lineCodes (SourceLine.ofText source)) (mnemonic : Text) (tokens : List Text) :
    CarriesAt source n mnemonic tokens ↔
      code.splitHead.1 = mnemonic ∧ code.splitHead.2.operandTokens = tokens := by
  obtain ⟨l, hl, hn, hcode⟩ := (mem_lineCodes_iff ..).mp h
  have htrimmed := SourceLine.trimmed_of_mem hl
  have hcarries : Carries l.text mnemonic tokens ↔
      code.splitHead.1 = mnemonic ∧ code.splitHead.2.operandTokens = tokens := by
    rw [carries_iff htrimmed.1 htrimmed.2, hcode]
    simp
  rw [carriesAt_iff, ← hcarries]
  constructor
  · rintro ⟨l', hl', hn', hcarries'⟩
    rwa [SourceLine.eq_of_number_eq hl hl' (hn.trans hn'.symm)]
  · intro hline
    exact ⟨l, hl, hn, hline⟩

theorem exists_mem_lineCodes_iff (source : Text) (n : Nat) :
    (∃ code, (n, code) ∈ lineCodes (SourceLine.ofText source)) ↔
      ∃ mnemonic tokens, CarriesAt source n mnemonic tokens := by
  constructor
  · rintro ⟨code, hcode⟩
    exact ⟨_, _, (carriesAt_iff_of_mem_lineCodes hcode ..).mpr ⟨rfl, rfl⟩⟩
  · rintro ⟨mnemonic, tokens, hcarries⟩
    obtain ⟨l, hl, hn, hcarries⟩ := (carriesAt_iff ..).mp hcarries
    have htrimmed := SourceLine.trimmed_of_mem hl
    obtain ⟨code, hcode, -, -⟩ := (carries_iff htrimmed.1 htrimmed.2 ..).mp hcarries
    exact ⟨code, (mem_lineCodes_iff ..).mpr ⟨l, hl, hn, hcode⟩⟩

theorem encodeLine_functional {t : Symbols} {code : Text} {w : UInt16}
    (h : t.encodeLine code = .ok w) :
    ∃ i, Instruction.decode w = .ok i ∧ ∀ j,
      DenotesInstruction t.Binds code.splitHead.1 code.splitHead.2.operandTokens j ↔ j = i := by
  obtain ⟨i, hdecode, hdenotes⟩ := (encodeLine_eq_ok_iff ..).mp h
  refine ⟨i, hdecode, fun j => ⟨?_, ?_⟩⟩
  · intro hj
    obtain ⟨w', hencode⟩ := Instruction.exists_encode_of_fits hj.2.fits
    have hdecode' := (Instruction.encode_eq_ok_iff_decode j w').mp hencode
    have hline := (encodeLine_eq_ok_iff t code w').mpr ⟨j, hdecode', hj⟩
    obtain rfl : w = w' := Except.ok.inj (h.symm.trans hline)
    exact Except.ok.inj (hdecode'.symm.trans hdecode)
  · rintro rfl
    exact hdenotes

theorem map_snd_of_encodesTo {t : Symbols} {codes : List (Nat × Text)} {rows : List (UInt16 × Nat)}
    (h : List.Forall₂ (EncodesTo t) codes rows) : rows.map (·.2) = codes.map (·.1) := by
  induction h with
  | nil => rfl
  | cons hrow _ ih => rw [List.map_cons, List.map_cons, ih, hrow.1]

theorem exists_encodesTo_of_mem {t : Symbols} {codes : List (Nat × Text)}
    {rows : List (UInt16 × Nat)} (h : List.Forall₂ (EncodesTo t) codes rows) {row : UInt16 × Nat}
    (hrow : row ∈ rows) : ∃ c ∈ codes, EncodesTo t c row := by
  induction h with
  | nil => cases hrow
  | cons hfirst _ ih =>
    rcases List.mem_cons.mp hrow with rfl | hrest
    · exact ⟨_, List.mem_cons_self .., hfirst⟩
    · obtain ⟨c, hc, hencodes⟩ := ih hrest
      exact ⟨c, List.mem_cons_of_mem _ hc, hencodes⟩

theorem size_le_of_assemble {source : Text} {p : Program} (h : assemble source = .ok p) :
    p.size ≤ programLimit := by
  obtain ⟨t, rows, rfl, -, hlength, hrows⟩ := codes_of_assemble h
  rw [Program.size_ofList, ← hrows.length_eq]
  exact hlength

/-- The assembler is correct: a program that it gives is what the source text says. -/
theorem assemble_correct {source : Text} {p : Program} (h : assemble source = .ok p) :
    AssembledFrom source p := by
  have hsize := size_le_of_assemble h
  obtain ⟨t, rows, rfl, hbinds, -, hrows⟩ := codes_of_assemble h
  have hlines : rows.map (·.2) = (lineCodes (SourceLine.ofText source)).map (·.1) :=
    map_snd_of_encodesTo hrows
  refine ⟨?_, hsize, ?_, ?_, ?_, ?_⟩
  · simp [Program.ofList]
  · simpa [Program.ofList, hlines] using pairwise_lineCodes source
  · intro n
    have hmem : n ∈ (Program.ofList rows).lines ↔
        ∃ code, (n, code) ∈ lineCodes (SourceLine.ofText source) := by
      have harray : n ∈ (Program.ofList rows).lines ↔ n ∈ rows.map (·.2) := List.mem_toArray
      rw [harray, hlines]
      simp
    rw [hmem, exists_mem_lineCodes_iff]
  · rw [← hbinds]
    exact fun name v v' => Symbols.Binds.unique
  · intro k w n hw hn
    have hrow : rows[k]? = some (w, n) := by
      simp only [Program.ofList, List.getElem?_toArray, List.getElem?_map,
        Option.map_eq_some_iff] at hw hn
      obtain ⟨row, hrow, rfl⟩ := hw
      obtain ⟨row', hrow', rfl⟩ := hn
      rw [hrow] at hrow' ⊢
      obtain rfl := Option.some.inj hrow'
      rfl
    obtain ⟨⟨line, code⟩, hcode, rfl, hencode⟩ :
        ∃ c ∈ lineCodes (SourceLine.ofText source), EncodesTo t c (w, n) :=
      exists_encodesTo_of_mem hrows (List.mem_of_getElem? hrow)
    obtain ⟨i, hdecode, hdenotes⟩ := encodeLine_functional hencode
    rw [hbinds] at hdenotes
    refine ⟨i, hdecode, ?_⟩
    intro mnemonic tokens hcarries
    obtain ⟨rfl, rfl⟩ := (carriesAt_iff_of_mem_lineCodes hcode ..).mp hcarries
    exact hdenotes

/-- A text with a label, a definition, a gap, a comment and a jump back. -/
theorem assembledFrom_countdown :
    AssembledFrom ".loop LDI r1 0x10 ; start\ndefine step -3\n\n adi r1, step\njmp .loop".toList
      ⟨#[0x8110, 0x91FD, 0xA000], #[0, 3, 4]⟩ :=
  assemble_correct (by decide +kernel)

end ByteMachine
