import ByteMachine.Proofs.LetterCase
import ByteMachine.Proofs.SymbolTable

/-!
# What a binding means

A name that can be bound is nothing else that a token can be, in any letter case. So from the
binding on, the name and the name with a point before it mean the value that was bound, whatever is
bound later. Every other name means what it meant before, and can be bound or not as before. Names
that differ in letter case only are different names.
-/
namespace ByteMachine

open Text

structure OnlyName (word : Text) : Prop where
  literal : word.literal? = none
  pointed : literal? ('.' :: word) = none
  register : word.register? = none
  condition : Condition.ofToken? word = none
  mnemonic : Mnemonic.ofToken? word = none

/-- A letter remains one in the other case, so whether a text is a name does not depend on the
case. -/
theorem isSymbolName_fold (s : Text) : isSymbolName s.fold = s.isSymbolName := by
  have hfirst := kind_toLower (fun c => c.isAlpha || c == '_') true fun c hc => by simp [hc]
  have hother := kind_toLower (fun c => c.isAlphanum || c == '_') true fun c hc => by
    simp [Char.isAlphanum, hc]
  cases s with
  | nil => rfl
  | cons c rest =>
    have hcons : fold (c :: rest) = c.toLower :: rest.map Char.toLower := rfl
    simp only [hcons, isSymbolName, hfirst, List.all_map, Function.comp_def, hother]

theorem onlyName_of_isSymbolName {word : Text} (hname : word.isSymbolName = true)
    (hreserved : word.isReserved = false) : OnlyName word := by
  simp only [isReserved, Bool.or_eq_false_iff, Option.isSome_eq_false_iff,
    Option.isNone_iff_eq_none] at hreserved
  obtain ⟨⟨⟨hmnemonic, hcondition⟩, -⟩, hregister⟩ := hreserved
  refine ⟨literal?_symbolName hname (.inl rfl), literal?_symbolName hname (.inr rfl), ?_,
    hcondition, hmnemonic⟩
  rw [register?, hregister, if_neg Bool.false_ne_true]

namespace Symbols

variable {t t' : Symbols} {name : Text} {v : Int} {line : Nat}

/-- The name means the same in both tables, and what keeps it from being bound is the same. -/
structure AgreeOn (t t' : Symbols) (name : Text) : Prop where
  plain : t'.resolve name = t.resolve name
  pointed : t'.resolve ('.' :: name) = t.resolve ('.' :: name)
  refused (v : Int) (line : Nat) (e : SourceError) :
    t'.bind name v line = .error e ↔ t.bind name v line = .error e

theorem find?_self_of_bind (h : t.bind name v line = .ok t') : t'.find? name = some ⟨v, line⟩ :=
  (find?_of_bind h name _).mpr (.inl ⟨rfl, rfl⟩)

theorem find?_other_of_bind (h : t.bind name v line = .ok t') {other : Text}
    (hother : other ≠ name) : t'.find? other = t.find? other := by
  apply Option.ext
  intro b
  rw [find?_of_bind h]
  exact or_iff_right fun hnew => hother hnew.1

/-- A name resolves to what the table has for it, with or without a point before it. -/
theorem resolve_of_name (t : Symbols) {token : Text} (hname : name.isSymbolName = true)
    (htoken : token = name ∨ token = '.' :: name) :
    t.resolve token = match t.find? name with
      | some binding => .ok binding.value
      | none => .error (.undefinedSymbol token) := by
  unfold resolve
  rw [literal?_symbolName hname htoken]
  dsimp only
  split
  · rename_i rest
    obtain rfl : rest = name := by
      rcases htoken with rfl | hpoint
      · cases hname
      · exact (List.cons.inj hpoint).2
    rw [hname]
    rfl
  · rename_i hpoint
    obtain rfl := htoken.resolve_right (hpoint name)
    rw [hname]
    rfl

theorem bind_eq_error_congr (h : t'.find? name = t.find? name) (v : Int) (line : Nat)
    (e : SourceError) : t'.bind name v line = .error e ↔ t.bind name v line = .error e := by
  unfold Symbols.bind
  rw [h]
  cases t.find? name with
  | some earlier => rfl
  | none => split_ifs <;> simp

theorem agreeOn_of_find?_eq (hname : name.isSymbolName = true) (h : t'.find? name = t.find? name) :
    AgreeOn t t' name := by
  have hresolve {token : Text} (htoken : token = name ∨ token = '.' :: name) :
      t'.resolve token = t.resolve token := by
    rw [resolve_of_name t' hname htoken, resolve_of_name t hname htoken, h]
  exact ⟨hresolve (.inl rfl), hresolve (.inr rfl), bind_eq_error_congr h⟩

/-- A name that is bound is a name and nothing else in any letter case. It has the value that was
bound in every later table, those of the first pass among them, and the binding makes no difference
to any other name. -/
theorem names_apart (h : t.bind name v line = .ok t') :
    (∀ spelling : Text, spelling.fold = name.fold → OnlyName spelling) ∧
      (∀ u, Later t' u → u.resolve name = .ok v ∧ u.resolve ('.' :: name) = .ok v) ∧
      (∀ ls address, Later t' (ByteMachine.scanLines ls t' address).2) ∧
      ∀ other : Text, other.isSymbolName = true → other ≠ name → AgreeOn t t' other := by
  obtain ⟨hname, hreserved, -, -⟩ := (bind_eq_ok_iff ..).mp h
  refine ⟨fun spelling hspelling => ?_, fun u hu => ?_, fun ls address => ?_,
    fun other hother hne => ?_⟩
  · apply onlyName_of_isSymbolName
    · rw [← isSymbolName_fold, hspelling, isSymbolName_fold, hname]
    · rw [isReserved_fold hspelling, hreserved]
  · have hfind : u.find? name = some ⟨v, line⟩ := hu.find? (find?_self_of_bind h)
    rw [resolve_of_name u hname (.inl rfl), resolve_of_name u hname (.inr rfl), hfind]
    exact ⟨rfl, rfl⟩
  · exact Later.refl.scanLines ls address
  · exact agreeOn_of_find?_eq hother (find?_other_of_bind h hne)

theorem names_apart_capital :
    let t : Symbols := ⟨[("loop".toList, ⟨3, 0⟩)]⟩
    let t' : Symbols := ⟨[("Loop".toList, ⟨-7, 4⟩), ("loop".toList, ⟨3, 0⟩)]⟩
    t.bind "Loop".toList (-7) 4 = .ok t' ∧ OnlyName "LOOP".toList ∧
      (ByteMachine.scanLines [⟨5, "define size .Loop".toList⟩, ⟨6, ".Loop nop".toList⟩]
        t' 2).2.resolve ".Loop".toList = .ok (-7) ∧
      t'.resolve "loop".toList = .ok 3 := by
  intro t t'
  have hbind : t.bind "Loop".toList (-7) 4 = .ok t' := by rfl
  obtain ⟨honly, hvalue, hlater, hother⟩ := names_apart hbind
  refine ⟨hbind, honly _ (by decide), (hvalue _ (hlater _ _)).2, ?_⟩
  exact (hother "loop".toList (by decide) (by decide)).plain

end Symbols
end ByteMachine
