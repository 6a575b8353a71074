import ByteMachine.Proofs.SourceMeaning

/-!
# The first pass

The first pass leaves the instructions of the lines as they are, gives them consecutive addresses,
and binds each name to the value that the lines give it. The last of these is the invariant of the
pass: as long as no symbol was wrong, the table holds what the lines so far say. `Symbols.Later`
relates a table to those that come from it; a binding is in all of them.
-/
namespace ByteMachine

open Text

theorem Symbols.bind_eq_ok_iff (t t' : Symbols) (name : Text) (v : Int) (line : Nat) :
    t.bind name v line = .ok t' ↔ name.isSymbolName = true ∧ name.isReserved = false ∧
      t.find? name = none ∧ t' = ⟨(name, ⟨v, line⟩) :: t.bindings⟩ := by
  unfold Symbols.bind
  by_cases hname : name.isSymbolName = true
  · by_cases hreserved : name.isReserved = true
    · simp [hname, hreserved]
    · cases hfind : t.find? name with
      | none => simp [hname, hreserved, eq_comm]
      | some b => simp [hname, hreserved]
  · simp [hname]

theorem Symbols.not_binds_empty (name : Text) (v : Int) : ¬ Binds {} name v := by
  rintro ⟨b, hb, -⟩
  cases hb

theorem Symbols.Binds.unique {t : Symbols} {name : Text} {v v' : Int} (h : t.Binds name v)
    (h' : t.Binds name v') : v = v' := by
  obtain ⟨b, hb, rfl⟩ := h
  obtain ⟨b', hb', rfl⟩ := h'
  rw [hb] at hb'
  exact congrArg SymbolBinding.value (Option.some.inj hb')

/-- Binding a name adds its value and line and changes no other. -/
theorem Symbols.find?_of_bind {t t' : Symbols} {name : Text} {v : Int} {line : Nat}
    (h : t.bind name v line = .ok t') (n : Text) (b : SymbolBinding) :
    t'.find? n = some b ↔ (n = name ∧ b = ⟨v, line⟩) ∨ t.find? n = some b := by
  obtain ⟨-, -, hfresh, rfl⟩ := (bind_eq_ok_iff ..).mp h
  unfold find? at *
  by_cases hn : n = name
  · subst hn
    simp [hfresh, eq_comm]
  · simp [List.lookup_cons, beq_eq_false_iff_ne.mpr hn, hn]

theorem Symbols.binds_of_bind {t t' : Symbols} {name : Text} {v : Int} {line : Nat}
    (h : t.bind name v line = .ok t') (n : Text) (u : Int) :
    t'.Binds n u ↔ (n = name ∧ u = v) ∨ t.Binds n u := by
  unfold Binds
  simp only [find?_of_bind h, or_and_right, exists_or]
  refine or_congr_left ⟨?_, ?_⟩
  · rintro ⟨_, ⟨rfl, rfl⟩, rfl⟩
    exact ⟨rfl, rfl⟩
  · rintro ⟨rfl, rfl⟩
    exact ⟨⟨u, line⟩, ⟨rfl, rfl⟩, rfl⟩

theorem denotesValue_unique {t : Symbols} {token : Text} {v v' : Int}
    (h : DenotesValue t.Binds token v) (h' : DenotesValue t.Binds token v') : v = v' := by
  rw [← resolve_eq_ok_iff] at h h'
  exact Except.ok.inj (h.symm.trans h')

theorem Symbols.define_eq_ok_iff (t t' : Symbols) (operands : Text) (line : Nat) :
    t.define operands line = .ok t' ↔ ∃ name value v, operands.operandTokens = [name, value] ∧
      DenotesValue t.Binds value v ∧ t.bind name v line = .ok t' := by
  unfold Symbols.define
  split
  · rename_i name value htokens
    simp only [ByteMachine.bind_eq_ok_iff, resolve_eq_ok_iff, htokens]
    constructor
    · rintro ⟨v, hv, hbind⟩
      exact ⟨name, value, v, rfl, hv, hbind⟩
    · rintro ⟨_, _, v, hnames, hv, hbind⟩
      obtain ⟨rfl, rfl⟩ : name = _ ∧ value = _ := by simpa using hnames
      exact ⟨v, hv, hbind⟩
  · rename_i hshort
    simp only [reduceCtorEq, false_iff]
    rintro ⟨name, value, _, htokens, -⟩
    exact hshort name value htokens

def SourceLine.Trimmed (l : SourceLine) : Prop := l.text.trim = l.text ∧ l.text ≠ []

theorem SourceLine.trimmed_of_mem {source : Text} {l : SourceLine} (h : l ∈ ofText source) :
    l.Trimmed := ⟨trim_text h, text_ne_nil h⟩

/-- The instructions of lines, each with the number of its line. -/
def lineCodes (ls : List SourceLine) : List (Nat × Text) :=
  ls.filterMap fun l => (Statement.ofText l.text).code?.map fun code => (l.number, code)

theorem instructionCount_cons (l : SourceLine) (h : l.Trimmed) (ls : List SourceLine) :
    instructionCount (l :: ls) =
      if (Statement.ofText l.text).code?.isSome then instructionCount ls + 1
      else instructionCount ls := by
  classical
  unfold instructionCount
  rw [List.countP_cons]
  simp only [exists_carries_iff h.1 h.2, decide_eq_true_eq]
  split <;> rfl

def GivesValue (symbol : Text → Int → Prop) (address : Nat) (line name : Text) (v : Int) : Prop :=
  (Labels line name ∧ v = address) ∨
    ∃ token, Defines line name token ∧ DenotesValue symbol token v

/-- What a statement binds, if anything: the one name that its line gives a value, to this value. -/
theorem Statement.givesValue_of_bind {l : SourceLine} {t t' : Symbols} {address : Nat}
    (h : (ofText l.text).bind t address l.number = .ok t') :
    (t' = t ∧ ∀ name v, ¬ GivesValue t.Binds address l.text name v) ∨
      ∃ bound u, (∀ name v, GivesValue t.Binds address l.text name v ↔ name = bound ∧ v = u) ∧
        t.bind bound u l.number = .ok t' := by
  simp only [GivesValue, labels_iff, defines_iff]
  cases hstatement : ofText l.text with
  | define operands =>
    rw [hstatement] at h
    obtain ⟨bound, token, u, htokens, hu, hbind⟩ := (Symbols.define_eq_ok_iff ..).mp h
    refine .inr ⟨bound, u, fun name v => ?_, hbind⟩
    simp only [reduceCtorEq, exists_const, false_and, false_or, define.injEq, exists_eq_left',
      htokens, List.cons.injEq, and_true]
    constructor
    · rintro ⟨_, ⟨rfl, rfl⟩, hv⟩
      exact ⟨rfl, denotesValue_unique hv hu⟩
    · rintro ⟨rfl, rfl⟩
      exact ⟨token, ⟨rfl, rfl⟩, hu⟩
  | label bound code =>
    rw [hstatement] at h
    exact .inr ⟨bound, address, by simp [eq_comm], h⟩
  | instruction code =>
    rw [hstatement] at h
    exact .inl ⟨(Except.ok.inj h).symm, by simp⟩

/-- A statement that binds gives a name the value that its line gives it. -/
theorem symbolValue_of_bind {l : SourceLine} {earlier : List SourceLine} {t t' : Symbols}
    (hsymbols : t.Binds = SymbolValue earlier)
    (h : (Statement.ofText l.text).bind t (instructionCount earlier) l.number = .ok t') :
    t'.Binds = SymbolValue (l :: earlier) := by
  funext n u
  apply propext
  have hstep : SymbolValue (l :: earlier) n u ↔
      GivesValue t.Binds (instructionCount earlier) l.text n u ∨ t.Binds n u := by
    rw [hsymbols, GivesValue, or_assoc]
    rfl
  rw [hstep]
  rcases Statement.givesValue_of_bind h with ⟨rfl, hnone⟩ | ⟨bound, v, hgives, hbind⟩
  · simp [hnone]
  · rw [Symbols.binds_of_bind hbind, hgives]

def SourceLine.next (l : SourceLine) (address : Nat) : Nat :=
  if (Statement.ofText l.text).code?.isSome then address + 1 else address

/-- One step of the first pass. A symbol that is wrong is reported with its line and leaves the
table as it was. -/
theorem scanLines_cons (l : SourceLine) (t : Symbols) (address : Nat) :
    ∃ e t', (((Statement.ofText l.text).bind t address l.number = .ok t' ∧ e = none) ∨
        (t' = t ∧ ∃ error, (Statement.ofText l.text).bind t address l.number = .error error ∧
          e = some error)) ∧
      ∀ rest, scanLines (l :: rest) t address =
        (⟨l.number, e, address, (Statement.ofText l.text).code?⟩ ::
          (scanLines rest t' (l.next address)).1, (scanLines rest t' (l.next address)).2) := by
  simp only [scanLines]
  cases hbind : (Statement.ofText l.text).bind t address l.number with
  | ok t' => exact ⟨none, t', .inl ⟨rfl, rfl⟩, fun _ => rfl⟩
  | error e => exact ⟨some e, t, .inr ⟨rfl, e, rfl, rfl⟩, fun _ => rfl⟩

namespace Symbols

/-- The table can come from another by bindings and definitions. One that is refused leaves the
table as it is. -/
inductive Later (t : Symbols) : Symbols → Prop
  | refl : Later t t
  | bind {u u' : Symbols} {name : Text} {v : Int} {line : Nat} (hlater : Later t u)
      (hbind : u.bind name v line = .ok u') : Later t u'
  | define {u u' : Symbols} {operands : Text} {line : Nat} (hlater : Later t u)
      (hdefine : u.define operands line = .ok u') : Later t u'

variable {t u : Symbols}

/-- A binding stays. -/
theorem Later.find? (h : Later t u) {name : Text} {b : SymbolBinding}
    (hb : t.find? name = some b) : u.find? name = some b := by
  induction h with
  | refl => exact hb
  | bind _ hbind ih => exact (find?_of_bind hbind name b).mpr (.inr ih)
  | define _ hdefine ih =>
    obtain ⟨bound, token, w, -, -, hbind⟩ := (define_eq_ok_iff ..).mp hdefine
    exact (find?_of_bind hbind name b).mpr (.inr ih)

theorem Later.statement {u' : Symbols} (h : Later t u) {statement : Statement}
    {address line : Nat} (hbind : statement.bind u address line = .ok u') : Later t u' := by
  cases statement with
  | define operands => exact .define h hbind
  | label name code => exact .bind h hbind
  | instruction code => exact Except.ok.inj hbind ▸ h

/-- The first pass only binds and defines. -/
theorem Later.scanLines (h : Later t u) (ls : List SourceLine) (address : Nat) :
    Later t (ByteMachine.scanLines ls u address).2 := by
  induction ls generalizing u address with
  | nil => exact h
  | cons l rest ih =>
    obtain ⟨e, u', hstep, hscan⟩ := scanLines_cons l u address
    rw [hscan]
    rcases hstep with ⟨hbind, -⟩ | ⟨rfl, -⟩
    · exact ih (h.statement hbind) _
    · exact ih h _

end Symbols

theorem scanLines_codes (ls : List SourceLine) (t : Symbols) (address : Nat) :
    ((scanLines ls t address).1.filterMap fun r => r.code.map fun code => (r.line, code)) =
      lineCodes ls := by
  induction ls generalizing t address with
  | nil => rfl
  | cons l rest ih =>
    obtain ⟨e, t', -, hscan⟩ := scanLines_cons l t address
    rw [hscan, lineCodes, List.filterMap_cons, List.filterMap_cons, ih]
    rfl

theorem lineCodes_cons (l : SourceLine) (ls : List SourceLine) :
    lineCodes (l :: ls) = ((Statement.ofText l.text).code?.map fun code => (l.number, code)).toList
      ++ lineCodes ls := by
  unfold lineCodes
  cases h : (Statement.ofText l.text).code? <;> simp [h]

/-- The instructions have consecutive addresses. -/
theorem scanLines_addresses (ls : List SourceLine) (t : Symbols) (address : Nat) :
    ((scanLines ls t address).1.filterMap fun r => r.code.map fun _ => r.address) =
      List.range' address (lineCodes ls).length := by
  induction ls generalizing t address with
  | nil => rfl
  | cons l rest ih =>
    obtain ⟨e, t', -, hscan⟩ := scanLines_cons l t address
    rw [hscan, lineCodes_cons]
    cases hcode : (Statement.ofText l.text).code? with
    | none => simp [ih, SourceLine.next, hcode]
    | some code => simp [ih, SourceLine.next, hcode, List.range'_succ]

/-- When no symbol was wrong, the table holds the values that the lines give, the lines that the
pass began after included. -/
theorem scanLines_binds (ls done : List SourceLine) {t : Symbols}
    (htrimmed : ∀ l ∈ ls, l.Trimmed) (hsymbols : t.Binds = SymbolValue done)
    (hok : ∀ r ∈ (scanLines ls t (instructionCount done)).1, r.symbolError = none) :
    (scanLines ls t (instructionCount done)).2.Binds = SymbolValue (ls.reverse ++ done) := by
  induction ls generalizing t done with
  | nil => exact hsymbols
  | cons l rest ih =>
    obtain ⟨e, t', hbind, hscan⟩ := scanLines_cons l t (instructionCount done)
    rw [hscan] at hok ⊢
    rcases hbind with ⟨hbind, rfl⟩ | ⟨-, error, -, rfl⟩
    · have hl : l.Trimmed := htrimmed l (List.mem_cons_self ..)
      have hnext : l.next (instructionCount done) = instructionCount (l :: done) :=
        (instructionCount_cons l hl done).symm
      have hbound := symbolValue_of_bind hsymbols hbind
      rw [hnext] at hok ⊢
      rw [List.reverse_cons, List.append_assoc, List.singleton_append]
      exact ih (l :: done) (fun l' hl' => htrimmed l' (List.mem_cons_of_mem l hl')) hbound
        fun r hr => hok r (List.mem_cons_of_mem _ hr)
    · -- the first row reports what was wrong
      have hrow := hok _ (List.mem_cons_self ..)
      cases hrow

end ByteMachine
