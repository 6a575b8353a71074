import ByteMachine.Proofs.Reformatting
import ByteMachine.Proofs.SymbolTable

/-!
# The names that lines bind

A line binds its name when this is a name, means nothing else and has no value from the lines above
it. A line that cannot do so binds nothing, and the lines below it are read as if it had not been
there. So for every source text, right or wrong, it can be said of each line which names the lines
above it bind and to which values, and the table that the first pass has at the line holds just
these.
-/
namespace ByteMachine

open Text

structure Bindable (symbol : Text → Int → Prop) (name : Text) : Prop where
  isName : name.isSymbolName = true
  free : FreeName name
  unbound (v : Int) : ¬ symbol name v

open Classical in
noncomputable def instructionsAbove (source : Text) (n : Nat) : Nat :=
  (List.range n).countP fun k => ∃ mnemonic tokens, CarriesAt source k mnemonic tokens

/-- The values of the names that the lines above a line bind. -/
def BoundAbove (source : Text) : Nat → Text → Int → Prop
  | 0, _, _ => False
  | n + 1, name, v => BoundAbove source n name v ∨
      (Bindable (BoundAbove source n) name ∧
        CodeAt source n (GivesValue (BoundAbove source n) (instructionsAbove source n) · name v))

def linesAbove (source : Text) (n : Nat) : List SourceLine :=
  SourceLine.ofLines 0 (source.lines.take n)

def linesAt (source : Text) (n : Nat) : List SourceLine :=
  SourceLine.ofLines n source.lines[n]?.toList

/-- What is said of the line with a number, and what is left of the line. -/
inductive LineAt (source : Text) (n : Nat) : List SourceLine → Prop
  | passed (h : ∀ P : Text → Prop, ¬ P [] → ¬ CodeAt source n P) : LineAt source n []
  | read (l : SourceLine) (hnumber : l.number = n) (htrimmed : l.Trimmed)
      (h : ∀ P : Text → Prop, ¬ P [] → (CodeAt source n P ↔ P l.text)) : LineAt source n [l]

theorem lineAt (source : Text) (n : Nat) : LineAt source n (linesAt source n) := by
  unfold linesAt
  cases hline : source.lines[n]? with
  | none =>
    refine .passed fun P _ => ?_
    rintro ⟨line, code, hline', -⟩
    rw [hline] at hline'
    cases hline'
  | some line =>
    have hcode (P : Text → Prop) : CodeAt source n P ↔ P (stripComment line).trim := by
      simp [CodeAt, uncommented_iff, hline]
    rw [Option.toList_some, SourceLine.ofLines_cons]
    by_cases hnil : (stripComment line).trim = []
    · rw [if_pos hnil]
      refine .passed fun P hempty => ?_
      rwa [hcode, hnil]
    · rw [if_neg hnil]
      exact .read _ rfl ⟨trim_trim _, hnil⟩ fun P _ => hcode P

theorem linesAt_eq_nil {source : Text} {n : Nat} (h : source.lines.length ≤ n) :
    linesAt source n = [] := by
  rw [linesAt, List.getElem?_eq_none h]
  rfl

theorem linesAbove_succ (source : Text) (n : Nat) :
    linesAbove source (n + 1) = linesAbove source n ++ linesAt source n := by
  by_cases hn : n ≤ source.lines.length
  · rw [linesAbove, List.take_add_one, SourceLine.ofLines_append, Nat.zero_add,
      List.length_take_of_le hn]
    rfl
  · have hle : source.lines.length ≤ n := Nat.le_of_not_le hn
    rw [linesAt_eq_nil hle, List.append_nil, linesAbove, linesAbove, List.take_of_length_le hle,
      List.take_of_length_le (Nat.le_succ_of_le hle)]

theorem linesAbove_length (source : Text) :
    linesAbove source source.lines.length = SourceLine.ofText source := by
  rw [linesAbove, List.take_length]
  rfl

theorem not_exists_carries_nil : ¬ ∃ mnemonic tokens, Carries [] mnemonic tokens := by
  rintro ⟨mnemonic, tokens, h⟩
  exact h.ne_nil rfl

theorem exists_carriesAt_iff (source : Text) (n : Nat) :
    (∃ mnemonic tokens, CarriesAt source n mnemonic tokens) ↔
      CodeAt source n fun line => ∃ mnemonic tokens, Carries line mnemonic tokens := by
  constructor
  · rintro ⟨mnemonic, tokens, line, code, hline, hcode, hcarries⟩
    exact ⟨line, code, hline, hcode, mnemonic, tokens, hcarries⟩
  · rintro ⟨line, code, hline, hcode, mnemonic, tokens, hcarries⟩
    exact ⟨mnemonic, tokens, line, code, hline, hcode, hcarries⟩

/-- The instructions on the lines above a line are those of the first pass. -/
theorem length_lineCodes_linesAbove (source : Text) (n : Nat) :
    (lineCodes (linesAbove source n)).length = instructionsAbove source n := by
  classical
  induction n with
  | zero => rfl
  | succ n ih =>
    have happend : lineCodes (linesAbove source (n + 1)) =
        lineCodes (linesAbove source n) ++ lineCodes (linesAt source n) := by
      rw [linesAbove_succ, lineCodes, List.filterMap_append]
      rfl
    rw [happend, List.length_append, ih, instructionsAbove, instructionsAbove, List.range_succ,
      List.countP_append, List.countP_singleton]
    congr 1
    simp only [exists_carriesAt_iff, decide_eq_true_eq]
    have hline := lineAt source n
    generalize linesAt source n = ls at hline
    cases hline with
    | passed h =>
      rw [if_neg (h _ not_exists_carries_nil)]
      rfl
    | read l hnumber htrimmed h =>
      rw [h _ not_exists_carries_nil]
      simp only [exists_carries_iff htrimmed.1 htrimmed.2]
      cases hcode : (Statement.ofText l.text).code? with
      | none => simp [lineCodes, hcode]
      | some code => simp [lineCodes, hcode]

theorem FreeName.isReserved_eq_false {name : Text} (h : FreeName name)
    (hname : name.isSymbolName = true) : name.isReserved = false := by
  apply eq_false_of_ne_true
  simp only [isReserved, Bool.or_eq_true, Option.isSome_iff_exists, Mnemonic.ofToken?_eq_some_iff,
    Condition.ofToken?_eq_some_iff, sameFolded_defineWord_iff, looksLikeRegister_iff]
  rintro (((⟨m, hm⟩ | ⟨c, hc⟩) | hdefine) | ⟨c, digits, htrim, hc, hne, hall⟩)
  · exact h.mnemonic m hm
  · exact h.condition c hc
  · exact h.define hdefine
  · rw [trim_eq_self_of_forall (not_isBlank_of_isSymbolName hname)] at htrim
    exact h.register c digits htrim hc hne hall

namespace Symbols

/-- A name is bound when it can be. -/
theorem exists_bind_iff (t : Symbols) (name : Text) (v : Int) (line : Nat) :
    (∃ t', t.bind name v line = .ok t') ↔ Bindable t.Binds name := by
  constructor
  · rintro ⟨t', hbind⟩
    obtain ⟨hname, hreserved, hfresh, -⟩ := (bind_eq_ok_iff ..).mp hbind
    refine ⟨hname, freeName_of_isReserved_eq_false hname hreserved, ?_⟩
    rintro u ⟨b, hb, -⟩
    rw [hfresh] at hb
    cases hb
  · intro h
    refine ⟨_, (bind_eq_ok_iff ..).mpr ⟨h.isName, h.free.isReserved_eq_false h.isName, ?_, rfl⟩⟩
    cases hfind : t.find? name with
    | none => rfl
    | some b => exact absurd ⟨b, hfind, rfl⟩ (h.unbound b.value)

theorem exists_define_iff (t : Symbols) (operands : Text) (line : Nat) :
    (∃ t', t.define operands line = .ok t') ↔ ∃ name token v,
      operands.operandTokens = [name, token] ∧ DenotesValue t.Binds token v ∧
        Bindable t.Binds name := by
  simp only [define_eq_ok_iff]
  constructor
  · rintro ⟨t', name, token, v, htokens, hv, hbind⟩
    exact ⟨name, token, v, htokens, hv, (t.exists_bind_iff name v line).mp ⟨t', hbind⟩⟩
  · rintro ⟨name, token, v, htokens, hv, hname⟩
    obtain ⟨t', hbind⟩ := (t.exists_bind_iff name v line).mpr hname
    exact ⟨t', name, token, v, htokens, hv, hbind⟩

end Symbols

/-- A line that gives a value to a name that can be bound binds it. -/
theorem Statement.exists_bind_of_givesValue {l : SourceLine} {t : Symbols} {address : Nat}
    {name : Text} {v : Int}
    (hname : Bindable t.Binds name) (h : GivesValue t.Binds address l.text name v) :
    ∃ t', (ofText l.text).bind t address l.number = .ok t' := by
  rcases h with ⟨hlabel, -⟩ | ⟨token, hdefine, hv⟩
  · obtain ⟨code, hstatement⟩ := (labels_iff ..).mp hlabel
    rw [hstatement]
    exact (t.exists_bind_iff name address l.number).mpr hname
  · obtain ⟨operands, hstatement, htokens⟩ := (defines_iff ..).mp hdefine
    rw [hstatement]
    exact (t.exists_define_iff operands l.number).mpr ⟨name, token, v, htokens, hv, hname⟩

/-- A line adds the value that it gives its name, if the name can be bound, and changes no other. -/
theorem binds_scanLines_singleton (l : SourceLine) (t : Symbols) (address : Nat) (name : Text)
    (v : Int) : (scanLines [l] t address).2.Binds name v ↔ t.Binds name v ∨
      (Bindable t.Binds name ∧ GivesValue t.Binds address l.text name v) := by
  obtain ⟨_, t', hstep, hscan⟩ := scanLines_cons l t address
  rw [hscan]
  change t'.Binds name v ↔ _
  rcases hstep with ⟨hbind, -⟩ | ⟨rfl, e, hbind, -⟩
  · rcases Statement.givesValue_of_bind hbind with ⟨rfl, hnone⟩ | ⟨bound, u, hgives, hbound⟩
    · simp [hnone]
    · rw [Symbols.binds_of_bind hbound, hgives, or_comm]
      refine or_congr_right ⟨?_, And.right⟩
      rintro ⟨rfl, rfl⟩
      exact ⟨(t.exists_bind_iff name v l.number).mp ⟨t', hbound⟩, rfl, rfl⟩
  · refine ⟨.inl, ?_⟩
    rintro (hbound | ⟨hname, hgives⟩)
    · exact hbound
    · obtain ⟨t', hok⟩ := Statement.exists_bind_of_givesValue hname hgives
      rw [hbind] at hok
      cases hok

theorem not_givesValue_nil (symbol : Text → Int → Prop) (address : Nat) (name : Text) (v : Int) :
    ¬ GivesValue symbol address [] name v := by
  rintro (⟨hlabel, -⟩ | ⟨token, hdefine, -⟩)
  · exact not_labels_nil name hlabel
  · exact not_defines_nil name token hdefine

def Symbols.above (source : Text) (n : Nat) : Symbols := (scanLines (linesAbove source n) {} 0).2

theorem scanLines_linesAbove_succ (source : Text) (n : Nat) :
    scanLines (linesAbove source (n + 1)) {} 0 =
      ((scanLines (linesAbove source n) {} 0).1 ++
          (scanLines (linesAt source n) (Symbols.above source n) (instructionsAbove source n)).1,
        (scanLines (linesAt source n) (Symbols.above source n)
          (instructionsAbove source n)).2) := by
  rw [linesAbove_succ, scanLines_append, Nat.zero_add, length_lineCodes_linesAbove]
  rfl

/-- The first pass has at each line the names that the lines above it bind, whatever is wrong with
these lines. -/
theorem binds_above (source : Text) (n : Nat) :
    (Symbols.above source n).Binds = BoundAbove source n := by
  induction n with
  | zero =>
    funext name v
    exact propext ⟨Symbols.not_binds_empty name v, False.elim⟩
  | succ n ih =>
    funext name v
    apply propext
    have habove : Symbols.above source (n + 1) = (scanLines (linesAt source n)
        (Symbols.above source n) (instructionsAbove source n)).2 := by
      rw [Symbols.above, scanLines_linesAbove_succ]
    rw [habove, BoundAbove, ← ih]
    have hempty := not_givesValue_nil (Symbols.above source n).Binds (instructionsAbove source n)
      name v
    have hline := lineAt source n
    generalize linesAt source n = ls at hline
    cases hline with
    | passed h => exact ⟨.inl, fun hbound => hbound.resolve_right fun hat => h _ hempty hat.2⟩
    | read l hnumber htrimmed h =>
      rw [binds_scanLines_singleton, h _ hempty]

theorem binds_ofText (source : Text) :
    (Symbols.ofText source).Binds = BoundAbove source source.lines.length := by
  rw [← binds_above, Symbols.above, linesAbove_length]
  rfl

end ByteMachine
