import ByteMachine.Machine.Memory
import Mathlib.Data.List.DropRight

/-!
# What happens to a memory

Loads, stores, samples for the controller and resets are all that happens to a memory; what shows
its state is a function of it and changes nothing. What a memory is after a history of these events
is said by the events since the last reset: which bytes were stored to an address, and which event
was the latest of a kind. A store writes to one port at most, and no other event but a reset changes
what the devices display.
-/
namespace ByteMachine

namespace Port

def address : Port → UInt8
  | pixelX => 240
  | pixelY => 241
  | drawPixel => 242
  | clearPixel => 243
  | loadPixel => 244
  | bufferScreen => 245
  | clearScreenBuffer => 246
  | writeChar => 247
  | bufferChars => 248
  | clearCharsBuffer => 249
  | showNumber => 250
  | clearNumber => 251
  | signedMode => 252
  | unsignedMode => 253
  | random => 254
  | controller => 255

theorem ofAddress?_address (port : Port) : ofAddress? port.address = some port := by
  cases port <;> rfl

theorem address_of_ofAddress? {a : UInt8} {port : Port} (h : ofAddress? a = some port) :
    a = port.address := by
  have haddress : ∀ port : Port, port.address = .ofNat (base + all.idxOf port) := by
    intro port
    cases port <;> rfl
  unfold ofAddress? at h
  split at h
  · cases h
  · obtain ⟨hlt, rfl⟩ := List.getElem?_eq_some_iff.mp h
    have hnodup : all.Nodup := by decide
    have hsum : base + (a.toNat - base) = a.toNat := by omega
    rw [haddress, hnodup.idxOf_getElem _ hlt, hsum, UInt8.ofNat_toNat]

/-- An address belongs to the plain memory or to one port. -/
theorem address_cases (a : UInt8) :
    (ofAddress? a = none ∧ ∀ port : Port, a ≠ port.address) ∨ ∃ port : Port, a = port.address := by
  cases h : ofAddress? a with
  | some port => exact .inr ⟨port, address_of_ofAddress? h⟩
  | none =>
    refine .inl ⟨rfl, ?_⟩
    rintro port rfl
    rw [ofAddress?_address] at h
    cases h

end Port

namespace Memory

inductive Event where
  | load (address : UInt8)
  | store (address value : UInt8)
  | sample (value : UInt8)
  | reset
  deriving DecidableEq, Repr

namespace Event

def isReset : Event → Bool
  | reset => true
  | _ => false

def byteTo? (address : UInt8) : Event → Option UInt8
  | store a value => if a = address then some value else none
  | _ => none

def storesTo (address : UInt8) (e : Event) : Bool := (e.byteTo? address).isSome

theorem byteTo?_store (a value address : UInt8) :
    (store a value).byteTo? address = if a = address then some value else none := rfl

theorem storesTo_store (a value address : UInt8) :
    (store a value).storesTo address = true ↔ a = address := by
  rw [storesTo, byteTo?_store]
  split <;> simp [*]

theorem storesTo_eq_false {address : UInt8} {e : Event} (h : e.byteTo? address = none) :
    e.storesTo address = false := by
  rw [storesTo, h]
  rfl

end Event

def perform (m : Memory) : Event → Memory
  | .load address => (m.load address).2
  | .store address value => m.store address value
  | .sample value => m.setController value
  | .reset => m.reset

def after (source : RandomSource) (history : List Event) : Memory :=
  history.foldl perform (new source)

/-- The events after the last one that ends what was before it, all of them if there is none. -/
def since (ends : Event → Bool) (history : List Event) : List Event :=
  history.rtakeWhile (!ends ·)

def bytesTo (address : UInt8) (history : List Event) : List UInt8 :=
  history.filterMap (·.byteTo? address)

def lastByteTo (address : UInt8) (history : List Event) : UInt8 :=
  (bytesTo address history).getLastD 0

/-- An event is the latest of a kind in a history. Whether an event is of the kind may depend on
what happened before it. -/
def Latest (kind : List Event → Event → Prop) (history before : List Event) (e : Event) : Prop :=
  ∃ later, history = before ++ e :: later ∧ kind before e ∧
    ∀ mid e' rest, later = mid ++ e' :: rest → ¬ kind (before ++ e :: mid) e'

theorem after_snoc (source : RandomSource) (history : List Event) (e : Event) :
    after source (history ++ [e]) = (after source history).perform e := by
  rw [after, List.foldl_append]
  rfl

theorem since_snoc (ends : Event → Bool) (history : List Event) (e : Event) :
    since ends (history ++ [e]) = if ends e then [] else since ends history ++ [e] := by
  rw [since, List.rtakeWhile_concat]
  cases ends e <;> rfl

theorem filterMap_snoc {α β : Type} (f : α → Option β) (l : List α) (a : α) :
    (l ++ [a]).filterMap f = l.filterMap f ++ (f a).toList := by
  rw [List.filterMap_append]
  cases h : f a <;> simp [h]

theorem getLastD_filterMap_snoc {α β : Type} (f : α → Option β) (l : List α) (a : α) (b : β) :
    ((l ++ [a]).filterMap f).getLastD b = (f a).getD ((l.filterMap f).getLastD b) := by
  rw [filterMap_snoc]
  cases f a <;> simp

theorem bytesTo_snoc (address : UInt8) (history : List Event) (e : Event) :
    bytesTo address (history ++ [e]) = bytesTo address history ++ (e.byteTo? address).toList :=
  filterMap_snoc ..

theorem lastByteTo_snoc (address : UInt8) (history : List Event) (e : Event) :
    lastByteTo address (history ++ [e]) =
      (e.byteTo? address).getD (lastByteTo address history) :=
  getLastD_filterMap_snoc ..

theorem not_latest_nil (kind : List Event → Event → Prop) (before : List Event) (e : Event) :
    ¬ Latest kind [] before e := by
  rintro ⟨later, h, -⟩
  exact List.append_ne_nil_of_right_ne_nil before (List.cons_ne_nil e later) h.symm

theorem latest_snoc {kind : List Event → Event → Prop} {history before : List Event}
    {e last : Event} : Latest kind (history ++ [last]) before e ↔
      (kind history last ∧ before = history ∧ e = last) ∨
        (¬ kind history last ∧ Latest kind history before e) := by
  constructor
  · rintro ⟨later, hsplit, hkind, hlater⟩
    rcases List.eq_nil_or_concat' later with rfl | ⟨later, last', rfl⟩
    · obtain ⟨rfl, hlast⟩ := List.append_inj' hsplit rfl
      obtain rfl := List.singleton_inj.mp hlast
      exact .inl ⟨hkind, rfl, rfl⟩
    · rw [← List.cons_append, ← List.append_assoc] at hsplit
      obtain ⟨rfl, hlast⟩ := List.append_inj' hsplit rfl
      obtain rfl := List.singleton_inj.mp hlast
      refine .inr ⟨hlater later last [] rfl, later, rfl, hkind, ?_⟩
      intro mid e' rest hmid
      exact hlater mid e' (rest ++ [last]) (by simp [hmid])
  · rintro (⟨hkind, rfl, rfl⟩ | ⟨hlast, later, rfl, hkind, hlater⟩)
    · refine ⟨[], rfl, hkind, fun mid e' rest hmid => ?_⟩
      exact absurd hmid.symm (List.append_ne_nil_of_right_ne_nil mid (List.cons_ne_nil e' rest))
    · refine ⟨later ++ [last], by simp, hkind, ?_⟩
      intro mid e' rest hmid
      rcases List.eq_nil_or_concat' rest with rfl | ⟨rest, last', rfl⟩
      · obtain ⟨rfl, hsame⟩ := List.append_inj' hmid rfl
        obtain rfl := List.singleton_inj.mp hsame
        exact hlast
      · rw [← List.cons_append, ← List.append_assoc] at hmid
        obtain ⟨rfl, -⟩ := List.append_inj' hmid rfl
        exact hlater mid e' rest rfl

/-- The latest event of a kind is the last event or, if that is not of the kind, one before it. -/
theorem exists_latest_snoc {kind P : List Event → Event → Prop} {history : List Event}
    {last : Event} : (∃ before e, Latest kind (history ++ [last]) before e ∧ P before e) ↔
      (kind history last ∧ P history last) ∨
        (¬ kind history last ∧ ∃ before e, Latest kind history before e ∧ P before e) := by
  simp only [latest_snoc]
  constructor
  · rintro ⟨before, e, ⟨hkind, rfl, rfl⟩ | ⟨hkind, hlatest⟩, hP⟩
    · exact .inl ⟨hkind, hP⟩
    · exact .inr ⟨hkind, before, e, hlatest, hP⟩
  · rintro (⟨hkind, hP⟩ | ⟨hkind, before, e, hlatest, hP⟩)
    · exact ⟨history, last, .inl ⟨hkind, rfl, rfl⟩, hP⟩
    · exact ⟨before, e, .inr ⟨hkind, hlatest⟩, hP⟩

/-- What a new memory and a reset establish and every other event carries on holds of the events
since the last reset. -/
theorem after_induction {P : List Event → Memory → Prop} (source : RandomSource)
    (hnew : P [] (new source)) (hreset : ∀ period m, P period m → P [] m.reset)
    (hevent : ∀ period m e, e ≠ .reset → P period m → P (period ++ [e]) (m.perform e))
    (history : List Event) : P (since Event.isReset history) (after source history) := by
  induction history using List.reverseRecOn with
  | nil => exact hnew
  | append_singleton history e ih =>
    rw [after_snoc, since_snoc]
    by_cases he : e = .reset
    · subst he
      exact hreset _ _ ih
    · have hgoes : e.isReset = false := by
        cases e with
        | reset => exact absurd rfl he
        | load | store | sample => rfl
      rw [hgoes]
      exact hevent _ _ e he ih

section Access
variable (m : Memory)

/-- A store reaches one port or none. -/
theorem devices_store (address value : UInt8) :
    ((∀ port : Port, address ≠ port.address) ∧ (m.store address value).devices = m.devices) ∨
      ∃ port : Port, address = port.address ∧
        (m.store address value).devices = m.devices.write value port := by
  rcases Port.address_cases address with ⟨hnone, hplain⟩ | ⟨port, rfl⟩
  · exact .inl ⟨hplain, by rw [store, hnone]⟩
  · exact .inr ⟨port, rfl, by rw [store, port.ofAddress?_address]⟩

/-- Only a load of the random port changes anything. -/
theorem load_snd {address : UInt8} (h : address ≠ 254) : (m.load address).2 = m := by
  rcases Port.address_cases address with ⟨hnone, -⟩ | ⟨port, rfl⟩
  · rw [load, hnone]
  · rw [load, port.ofAddress?_address]
    cases port with
    | random => exact absurd rfl h
    | _ => rfl

/-- Three ports answer in the place of their cells. -/
theorem load_fst {address : UInt8} (hpixel : address ≠ 244) (hrandom : address ≠ 254)
    (hcontroller : address ≠ 255) : (m.load address).1 = m.cell address := by
  rcases Port.address_cases address with ⟨hnone, -⟩ | ⟨port, rfl⟩
  · rw [load, hnone]
  · rw [load, port.ofAddress?_address]
    cases port with
    | loadPixel => exact absurd rfl hpixel
    | random => exact absurd rfl hrandom
    | controller => exact absurd rfl hcontroller
    | _ => rfl

end Access

/-- What an event other than a reset does to the displays: it writes to one of the ports, or it
changes at most the controller sample and the generator. -/
inductive Displays (d : Devices) : Event → Devices → Prop
  | write (port : Port) (value : UInt8) :
      Displays d (.store port.address value) (d.write value port)
  | keep {e : Event} (h : ∀ port : Port, e.byteTo? port.address = none) (controller : UInt8)
      (generator : Generator) : Displays d e { d with controller, generator }

theorem displays_perform (m : Memory) {e : Event} (he : e ≠ .reset) :
    Displays m.devices e (m.perform e).devices := by
  cases e with
  | reset => exact absurd rfl he
  | load address =>
    by_cases hrandom : address = 254
    · subst hrandom
      exact .keep (fun _ => rfl) _ _
    · rw [perform, m.load_snd hrandom]
      exact .keep (fun _ => rfl) _ _
  | store address value =>
    rcases m.devices_store address value with ⟨hplain, h⟩ | ⟨port, rfl, h⟩
    · rw [perform, h]
      refine .keep (fun port => ?_) m.devices.controller m.devices.generator
      rw [Event.byteTo?_store, if_neg (hplain port)]
    · rw [perform, h]
      exact .write port value
  | sample value => exact .keep (fun _ => rfl) _ _

end Memory
end ByteMachine
