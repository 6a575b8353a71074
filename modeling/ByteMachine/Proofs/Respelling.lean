import ByteMachine.Proofs.LetterCase
import ByteMachine.Proofs.SymbolTable

/-!
# Lines that say the same

Two lines say the same when they have the same tokens up to the letter case of reserved words. When
the lines of two source texts say the same one by one, both passes over them go alike, also where
something is wrong: the tables bind the same names to the same values, the instructions have the
same addresses, and the same lines are rejected. The lines may have other numbers in the second
text; the tables and the program then have those.
-/
namespace ByteMachine

open Text

def Respelled (token token' : Text) : Prop :=
  token = token' ∨ token.isReserved = true ∧ token.fold = token'.fold

def RespelledCode (code code' : Text) : Prop :=
  Respelled code.splitHead.1 code'.splitHead.1 ∧
    List.Forall₂ Respelled code.splitHead.2.operandTokens code'.splitHead.2.operandTokens

inductive RespelledStatement : Statement → Statement → Prop
  | define {operands operands' : Text}
      (h : List.Forall₂ Respelled operands.operandTokens operands'.operandTokens) :
      RespelledStatement (.define operands) (.define operands')
  | label (name : Text) {code code' : Text} (hempty : code = [] ↔ code' = [])
      (h : RespelledCode code code') : RespelledStatement (.label name code) (.label name code')
  | instruction {code code' : Text} (h : RespelledCode code code') :
      RespelledStatement (.instruction code) (.instruction code')

def RespelledLine (renumber : Nat → Nat) (l l' : SourceLine) : Prop :=
  l'.number = renumber l.number ∧
    RespelledStatement (Statement.ofText l.text) (Statement.ofText l'.text)

structure RespelledRow (renumber : Nat → Nat) (r r' : AssemblyRow) : Prop where
  line : r'.line = renumber r.line
  address : r'.address = r.address
  symbolError : r'.symbolError.isSome = r.symbolError.isSome
  code : Option.Rel RespelledCode r.code r'.code

/-- Both texts are rejected on the same lines, or both are assembled into the same words. -/
inductive SameOutcome (renumber : Nat → Nat) :
    Except (List (Diagnostic SourceError)) Program →
      Except (List (Diagnostic SourceError)) Program → Prop
  | ok (p p' : Program) (hwords : p'.words = p.words) (hlines : p'.lines = p.lines.map renumber) :
      SameOutcome renumber (.ok p) (.ok p')
  | error (ds ds' : List (Diagnostic SourceError))
      (h : List.Forall₂ (fun d d' => d'.line = renumber d.line) ds ds') :
      SameOutcome renumber (.error ds) (.error ds')

namespace Respelled
variable {token token' : Text}

theorem refl (token : Text) : Respelled token token := .inl rfl

theorem fold_eq (h : Respelled token token') : token.fold = token'.fold :=
  h.elim (congrArg fold) And.right

theorem symm (h : Respelled token token') : Respelled token' token := by
  rcases h with rfl | ⟨hreserved, hfold⟩
  · exact refl token
  · exact .inr ⟨(isReserved_fold hfold).symm.trans hreserved, hfold.symm⟩

theorem eq_of_not_isReserved (h : Respelled token token') (hfree : token.isReserved = false) :
    token = token' := by
  rcases h with rfl | ⟨hreserved, -⟩
  · rfl
  · rw [hfree] at hreserved
    cases hreserved

theorem forall₂_refl (tokens : List Text) : List.Forall₂ Respelled tokens tokens :=
  List.forall₂_same.mpr fun token _ => refl token

theorem forall₂_symm {tokens tokens' : List Text} (h : List.Forall₂ Respelled tokens tokens') :
    List.Forall₂ Respelled tokens' tokens :=
  (h.imp fun _ _ => symm).flip

end Respelled

theorem RespelledCode.refl (code : Text) : RespelledCode code code :=
  ⟨.refl _, Respelled.forall₂_refl _⟩

theorem RespelledStatement.refl : (s : Statement) → RespelledStatement s s
  | .define _ => .define (Respelled.forall₂_refl _)
  | .label name code => .label name Iff.rfl (.refl code)
  | .instruction code => .instruction (.refl code)

/-- What succeeds in the same cases also fails in the same cases. -/
theorem ok_or_error {E E' A B : Type} {x : Except E A} {y : Except E' B} {g : A → B}
    (h : ∀ b, y = .ok b ↔ ∃ a, x = .ok a ∧ b = g a) :
    (∃ a, x = .ok a ∧ y = .ok (g a)) ∨ ∃ e e', x = .error e ∧ y = .error e' := by
  cases x with
  | ok a => exact .inl ⟨a, rfl, (h (g a)).mpr ⟨a, rfl, rfl⟩⟩
  | error e =>
    cases y with
    | ok b =>
      obtain ⟨a, ha, -⟩ := (h b).mp rfl
      cases ha
    | error e' => exact .inr ⟨e, e', rfl, rfl⟩

section Meaning
variable {symbol : Text → Int → Prop} {token token' : Text}

theorem Respelled.denotesValue (hsymbol : ∀ name v, symbol name v → name.isReserved = false)
    (h : Respelled token token') {v : Int} (hv : DenotesValue symbol token v) :
    DenotesValue symbol token' v := by
  rcases h with rfl | ⟨hreserved, -⟩
  · exact hv
  · exact absurd hv (not_denotesValue_of_isReserved hsymbol hreserved)

theorem Respelled.denotesRegister (h : Respelled token token') {r : UInt8}
    (hr : DenotesRegister token r) : DenotesRegister token' r :=
  (denotesRegister_fold h.fold_eq r).mp hr

theorem Respelled.denotesCondition (h : Respelled token token') {c : Condition}
    (hc : DenotesCondition token c) : DenotesCondition token' c :=
  (denotesCondition_fold h.fold_eq c).mp hc

/-- Respelled tokens mean the same operands. -/
theorem DenotesOperands.respelled (hsymbol : ∀ name v, symbol name v → name.isReserved = false)
    {shape : Shape} {tokens tokens' : List Text} {ops : Operands shape}
    (h : DenotesOperands symbol tokens ops) (htokens : List.Forall₂ Respelled tokens tokens') :
    DenotesOperands symbol tokens' ops := by
  have hvalue {token token' : Text} (h : Respelled token token') {P : Int → Prop} :
      (∃ v, DenotesValue symbol token v ∧ P v) → ∃ v, DenotesValue symbol token' v ∧ P v :=
    Exists.imp fun v => And.imp_left (h.denotesValue hsymbol)
  match h, htokens with
  | .none, .nil => exact .none
  | .reg ha, .cons ta .nil => exact .reg (ta.denotesRegister ha)
  | .regReg ha hb, .cons ta (.cons tb .nil) =>
    exact .regReg (ta.denotesRegister ha) (tb.denotesRegister hb)
  | .regRegReg ha hb hc, .cons ta (.cons tb (.cons tc .nil)) =>
    exact .regRegReg (ta.denotesRegister ha) (tb.denotesRegister hb) (tc.denotesRegister hc)
  | .regImm8 ha hv, .cons ta (.cons tv .nil) =>
    exact .regImm8 (ta.denotesRegister ha) (hvalue tv hv)
  | .addr10 hv, .cons tv .nil => exact .addr10 (hvalue tv hv)
  | .condAddr10 hc hv, .cons tc (.cons tv .nil) =>
    exact .condAddr10 (tc.denotesCondition hc) (hvalue tv hv)
  | .regRegOnly ha hb, .cons ta (.cons tb .nil) =>
    exact .regRegOnly (ta.denotesRegister ha) (tb.denotesRegister hb)
  | .regRegOffset ha hb hv, .cons ta (.cons tb (.cons tv .nil)) =>
    exact .regRegOffset (ta.denotesRegister ha) (tb.denotesRegister hb) (hvalue tv hv)

end Meaning

namespace Symbols
variable {t : Symbols}

def Unreserved (t : Symbols) : Prop := ∀ name v, t.Binds name v → name.isReserved = false

def renumber (f : Nat → Nat) (t : Symbols) : Symbols :=
  ⟨t.bindings.map fun (name, b) => (name, ⟨b.value, f b.line⟩)⟩

theorem unreserved_empty : Unreserved {} := fun name v h => absurd h (not_binds_empty name v)

theorem find?_renumber (f : Nat → Nat) (t : Symbols) (name : Text) :
    (t.renumber f).find? name = (t.find? name).map fun b => ⟨b.value, f b.line⟩ := by
  obtain ⟨bindings⟩ := t
  unfold find? renumber
  induction bindings with
  | nil => rfl
  | cons first rest ih =>
    obtain ⟨n, b⟩ := first
    rw [List.map_cons, List.lookup_cons, List.lookup_cons]
    cases name == n with
    | true => rfl
    | false => exact ih

theorem binds_renumber (f : Nat → Nat) (t : Symbols) : (t.renumber f).Binds = t.Binds := by
  funext name v
  simp [Binds, find?_renumber]

theorem bind_renumber_eq_ok_iff (f : Nat → Nat) (t t' : Symbols) (name : Text) (v : Int)
    (line : Nat) : (t.renumber f).bind name v (f line) = .ok t' ↔
      ∃ bound, t.bind name v line = .ok bound ∧ t' = bound.renumber f := by
  simp only [bind_eq_ok_iff, find?_renumber, Option.map_eq_none_iff]
  constructor
  · rintro ⟨hname, hfree, hfresh, rfl⟩
    exact ⟨_, ⟨hname, hfree, hfresh, rfl⟩, rfl⟩
  · rintro ⟨_, ⟨hname, hfree, hfresh, rfl⟩, rfl⟩
    exact ⟨hname, hfree, hfresh, rfl⟩

theorem Unreserved.of_bind (ht : t.Unreserved) {t' : Symbols} {name : Text} {v : Int} {line : Nat}
    (h : t.bind name v line = .ok t') : t'.Unreserved := by
  intro n u hbound
  rcases (binds_of_bind h n u).mp hbound with ⟨rfl, -⟩ | hbound
  · exact ((bind_eq_ok_iff ..).mp h).2.1
  · exact ht n u hbound

/-- A definition that is respelled binds the same name to the same value. -/
theorem define_renumber_eq_ok_iff (f : Nat → Nat) (ht : t.Unreserved) {operands operands' : Text}
    (h : List.Forall₂ Respelled operands.operandTokens operands'.operandTokens) (line : Nat)
    (t' : Symbols) : (t.renumber f).define operands' (f line) = .ok t' ↔
      ∃ bound, t.define operands line = .ok bound ∧ t' = bound.renumber f := by
  simp only [define_eq_ok_iff, binds_renumber, bind_renumber_eq_ok_iff]
  constructor
  · rintro ⟨name', value', v, htokens, hv, bound, hbind, rfl⟩
    rw [htokens] at h
    obtain ⟨name, rest, hname, hrest, hcons⟩ := List.forall₂_cons_right_iff.mp h
    obtain ⟨value, rest, hvalue, hnil, rfl⟩ := List.forall₂_cons_right_iff.mp hrest
    obtain rfl := List.forall₂_nil_right_iff.mp hnil
    obtain rfl := hname.symm.eq_of_not_isReserved ((bind_eq_ok_iff ..).mp hbind).2.1
    exact ⟨bound, ⟨name', value, v, hcons, hvalue.symm.denotesValue ht hv, hbind⟩, rfl⟩
  · rintro ⟨bound, ⟨name, value, v, htokens, hv, hbind⟩, rfl⟩
    rw [htokens] at h
    obtain ⟨name', rest, hname, hrest, hcons⟩ := List.forall₂_cons_left_iff.mp h
    obtain ⟨value', rest, hvalue, hnil, rfl⟩ := List.forall₂_cons_left_iff.mp hrest
    obtain rfl := List.forall₂_nil_left_iff.mp hnil
    obtain rfl := hname.eq_of_not_isReserved ((bind_eq_ok_iff ..).mp hbind).2.1
    exact ⟨name, value', v, hcons, hvalue.denotesValue ht hv, bound, hbind, rfl⟩

/-- An instruction that is respelled has the same word, or something is wrong with both. -/
theorem encodeLine_renumber (f : Nat → Nat) (ht : t.Unreserved) {code code' : Text}
    (h : RespelledCode code code') :
    (∃ w, t.encodeLine code = .ok w ∧ (t.renumber f).encodeLine code' = .ok w) ∨
      ∃ e e', t.encodeLine code = .error e ∧ (t.renumber f).encodeLine code' = .error e' := by
  apply ok_or_error
  intro w
  simp only [exists_eq_right', encodeLine_eq_ok_iff, binds_renumber]
  refine exists_congr fun i => and_congr_right fun _ => ?_
  unfold DenotesInstruction
  rw [h.1.fold_eq]
  exact and_congr_right fun _ => ⟨fun hops => hops.respelled ht (Respelled.forall₂_symm h.2),
    fun hops => hops.respelled ht h.2⟩

end Symbols

section FirstPass
variable {f : Nat → Nat} {s s' : Statement} {t : Symbols}

theorem RespelledStatement.code? (h : RespelledStatement s s') :
    Option.Rel RespelledCode s.code? s'.code? := by
  cases h with
  | define _ => exact .none
  | label name hempty hcode =>
    simp only [Statement.code?, List.isEmpty_iff, hempty]
    split
    · exact .none
    · exact .some hcode
  | instruction hcode => exact .some hcode

theorem RespelledStatement.isSome_code? (h : RespelledStatement s s') :
    s'.code?.isSome = s.code?.isSome := by
  have hcode := h.code?
  generalize s.code? = code at hcode ⊢
  generalize s'.code? = code' at hcode ⊢
  cases hcode <;> rfl

/-- Both statements bind and leave tables that go along, or something is wrong with both. -/
theorem RespelledStatement.bind_cases (h : RespelledStatement s s') (ht : t.Unreserved)
    (address line : Nat) :
    (∃ bound, s.bind t address line = .ok bound ∧
        s'.bind (t.renumber f) address (f line) = .ok (bound.renumber f)) ∨
      ∃ e e', s.bind t address line = .error e ∧
        s'.bind (t.renumber f) address (f line) = .error e' := by
  apply ok_or_error
  intro t'
  cases h with
  | define hoperands => exact Symbols.define_renumber_eq_ok_iff f ht hoperands line t'
  | label name _ _ => exact Symbols.bind_renumber_eq_ok_iff f t t' name address line
  | instruction _ => simp [Statement.bind, eq_comm]

theorem Symbols.Unreserved.of_statement {l : SourceLine} {t' : Symbols} {address : Nat}
    (ht : t.Unreserved)
    (h : (Statement.ofText l.text).bind t address l.number = .ok t') : t'.Unreserved := by
  rcases Statement.bind_cases h with ⟨rfl, -⟩ | ⟨bound, v, -, hbind⟩
  · exact ht
  · exact ht.of_bind hbind

/-- The first pass goes alike over lines that say the same. -/
theorem scanLines_respelled {ls ls' : List SourceLine}
    (h : List.Forall₂ (RespelledLine f) ls ls') (ht : t.Unreserved) (address : Nat) :
    List.Forall₂ (RespelledRow f) (scanLines ls t address).1
        (scanLines ls' (t.renumber f) address).1 ∧
      (scanLines ls' (t.renumber f) address).2 = (scanLines ls t address).2.renumber f ∧
      (scanLines ls t address).2.Unreserved := by
  induction h generalizing t address with
  | nil => exact ⟨.nil, rfl, ht⟩
  | @cons l l' rest rest' hline _ ih =>
    obtain ⟨hnumber, hstatement⟩ := hline
    have hcode := hstatement.code?
    have hnext : (Statement.ofText l'.text).code?.isSome =
        (Statement.ofText l.text).code?.isSome := hstatement.isSome_code?
    simp only [scanLines, hnumber, hnext]
    rcases hstatement.bind_cases (f := f) ht address l.number with
      ⟨bound, hbind, hbind'⟩ | ⟨e, e', hbind, hbind'⟩
    · obtain ⟨hrows, htable, hfinal⟩ := ih (ht.of_statement hbind)
        (if (Statement.ofText l.text).code?.isSome then address + 1 else address)
      rw [hbind, hbind']
      exact ⟨.cons ⟨rfl, rfl, rfl, hcode⟩ hrows, htable, hfinal⟩
    · obtain ⟨hrows, htable, hfinal⟩ := ih ht
        (if (Statement.ofText l.text).code?.isSome then address + 1 else address)
      rw [hbind, hbind']
      exact ⟨.cons ⟨rfl, rfl, rfl, hcode⟩ hrows, htable, hfinal⟩

end FirstPass

section SecondPass
variable {f : Nat → Nat} {t : Symbols} {r r' : AssemblyRow}

theorem RespelledRow.length_errors (h : RespelledRow f r r') (ht : t.Unreserved)
    (total total' : Nat) :
    (r'.errors (t.renumber f) total').length = (r.errors t total).length := by
  obtain ⟨-, haddress, hsome, hcode⟩ := h
  have hsymbol : r'.symbolError.toList.length = r.symbolError.toList.length := by
    cases hr : r.symbolError <;> cases hr' : r'.symbolError <;> simp_all
  unfold AssemblyRow.errors
  rw [List.length_append, List.length_append, hsymbol, haddress]
  congr 1
  generalize r.code = code at hcode ⊢
  generalize r'.code = code' at hcode ⊢
  cases hcode with
  | none => rfl
  | some hcode =>
    dsimp only
    rw [List.length_append, List.length_append]
    congr 1
    · split <;> rfl
    · rcases Symbols.encodeLine_renumber f ht hcode with ⟨w, hw, hw'⟩ | ⟨e, e', hw, hw'⟩
      · rw [hw, hw']
      · rw [hw, hw']
        rfl

theorem RespelledRow.diagnostics (h : RespelledRow f r r') (ht : t.Unreserved)
    (total total' : Nat) :
    List.Forall₂ (fun d d' => d'.line = f d.line) (r.diagnostics t total)
      (r'.diagnostics (t.renumber f) total') := by
  unfold AssemblyRow.diagnostics
  rw [List.forall₂_map_left_iff, List.forall₂_map_right_iff, List.forall₂_iff_zip]
  exact ⟨(h.length_errors ht total total').symm, fun _ => h.line⟩

theorem RespelledRow.word? (h : RespelledRow f r r') (ht : t.Unreserved) :
    Option.Rel (fun row row' => row' = (row.1, f row.2)) (r.word? t)
      (r'.word? (t.renumber f)) := by
  obtain ⟨hline, -, -, hcode⟩ := h
  unfold AssemblyRow.word?
  rw [hline]
  generalize r.code = code at hcode ⊢
  generalize r'.code = code' at hcode ⊢
  cases hcode with
  | none => exact .none
  | some hcode =>
    dsimp only [Option.bind_some]
    rcases Symbols.encodeLine_renumber f ht hcode with ⟨w, hw, hw'⟩ | ⟨e, e', hw, hw'⟩
    · rw [hw, hw']
      exact .some rfl
    · rw [hw, hw']
      exact .none

end SecondPass

theorem sameOutcome_ofList {f : Nat → Nat} {rows rows' : List (UInt16 × Nat)}
    (h : List.Forall₂ (fun row row' => row' = (row.1, f row.2)) rows rows') :
    SameOutcome f (.ok (Program.ofList rows)) (.ok (Program.ofList rows')) := by
  obtain rfl : rows' = rows.map fun row => (row.1, f row.2) := by
    rw [← List.forall₂_eq_eq_eq, List.forall₂_map_right_iff]
    exact h.flip.imp fun _ _ => id
  refine .ok _ _ ?_ ?_
  · simp [Program.ofList, Function.comp_def]
  · simp [Program.ofList, Function.comp_def]

/-- Texts whose lines say the same have the same outcome. -/
theorem sameOutcome_of_respelled {f : Nat → Nat} {source source' : Text}
    (h : List.Forall₂ (RespelledLine f) (SourceLine.ofText source) (SourceLine.ofText source')) :
    SameOutcome f (assemble source) (assemble source') := by
  have hempty : Symbols.renumber f {} = {} := rfl
  obtain ⟨hrows, htable, ht⟩ := scanLines_respelled h Symbols.unreserved_empty 0
  rw [hempty] at hrows htable
  unfold assemble
  generalize scanLines (SourceLine.ofText source) {} 0 = pass at hrows htable ht ⊢
  generalize scanLines (SourceLine.ofText source') {} 0 = pass' at hrows htable ⊢
  obtain ⟨rows, t⟩ := pass
  obtain ⟨rows', t'⟩ := pass'
  dsimp only at hrows htable ht ⊢
  rw [htable]
  have hdiagnostics := List.rel_flatMap hrows fun r r' hr => RespelledRow.diagnostics hr ht
    (rows.filter (·.code.isSome)).length (rows'.filter (·.code.isSome)).length
  have hwords := List.rel_filterMap (fun r r' hr => RespelledRow.word? hr ht) hrows
  dsimp only [Function.swap] at hdiagnostics
  generalize rows.flatMap _ = ds at hdiagnostics ⊢
  generalize rows'.flatMap _ = ds' at hdiagnostics ⊢
  cases hdiagnostics with
  | nil => exact sameOutcome_ofList hwords
  | cons hfirst hrest => exact .error _ _ (.cons hfirst hrest)

end ByteMachine
