import ByteMachine.Proofs.MemoryEvents

/-!
# What a memory answers

A cell holds the last byte that was stored to its address since the last reset, and a load gives it
back where no port answers. The controller port answers with the last sample, which outlives a
reset, and the random port with the next byte of a stream: nothing but a load of this port moves the
stream on, and a reset starts the next stream, which a seed makes the same one again.
-/
namespace ByteMachine.Memory

def Event.sample? : Event → Option UInt8
  | sample value => some value
  | _ => none

def lastSample (history : List Event) : UInt8 := (history.filterMap Event.sample?).getLastD 0

theorem lastSample_snoc (history : List Event) (e : Event) :
    lastSample (history ++ [e]) = e.sample?.getD (lastSample history) :=
  getLastD_filterMap_snoc ..

section Access
variable (m : Memory)

theorem load_random :
    m.load 254 = (m.devices.generator.source.stream 0 m.devices.generator.drawn,
      { m with devices := { m.devices with generator := m.devices.generator.draw.2 } }) := rfl

theorem load_controller : m.load 255 = (m.devices.controller, m) := rfl

theorem cell_store (address value a : UInt8) :
    (m.store address value).cell a = if address = a then value else m.cell a :=
  (Vector.getElem_set address.toNat_lt a.toNat_lt).trans (if_congr UInt8.toNat_inj rfl rfl)

/-- What is stored reaches neither the controller nor the generator. -/
theorem inputs_store (address value : UInt8) :
    (m.store address value).devices.controller = m.devices.controller ∧
      (m.store address value).devices.generator = m.devices.generator := by
  rcases m.devices_store address value with ⟨-, h⟩ | ⟨port, -, h⟩
  · rw [h]
    exact ⟨rfl, rfl⟩
  · rw [h]
    cases port <;> exact ⟨rfl, rfl⟩

/-- A cell changes by stores to its address only. -/
theorem cell_perform {e : Event} (he : e ≠ .reset) (a : UInt8) :
    (m.perform e).cell a = (e.byteTo? a).getD (m.cell a) := by
  cases e with
  | reset => exact absurd rfl he
  | load address =>
    by_cases hrandom : address = 254
    · subst hrandom
      rfl
    · rw [perform, m.load_snd hrandom]
      rfl
  | store address value =>
    rw [perform, cell_store, Event.byteTo?]
    split <;> rfl
  | sample value => rfl

/-- The generator goes on by the loads of its port only. -/
theorem generator_perform {e : Event} (he : e ≠ .reset) :
    (m.perform e).devices.generator =
      if e = .load 254 then m.devices.generator.draw.2 else m.devices.generator := by
  cases e with
  | reset => exact absurd rfl he
  | load address =>
    by_cases hrandom : address = 254
    · subst hrandom
      rfl
    · rw [perform, m.load_snd hrandom, if_neg (by simpa using hrandom)]
  | store address value => exact (m.inputs_store address value).2.trans (if_neg (by simp)).symm
  | sample value => rfl

/-- The controller sample is set from outside. -/
theorem controller_perform (e : Event) :
    (m.perform e).devices.controller = e.sample?.getD m.devices.controller := by
  cases e with
  | load address =>
    by_cases hrandom : address = 254
    · subst hrandom
      rfl
    · rw [perform, m.load_snd hrandom]
      rfl
  | store address value => exact (m.inputs_store address value).1
  | sample value => rfl
  | reset => rfl

end Access

theorem controller_after (source : RandomSource) (history : List Event) :
    (after source history).devices.controller = lastSample history := by
  induction history using List.reverseRecOn with
  | nil => rfl
  | append_singleton history e ih => rw [after_snoc, lastSample_snoc, controller_perform, ih]

/-- Each reset goes on to the next stream. -/
theorem stream_after (source : RandomSource) (history : List Event) (n : Nat) :
    (after source history).devices.generator.source.stream n =
      source.stream (history.count .reset + n) := by
  induction history using List.reverseRecOn generalizing n with
  | nil => rw [List.count_nil, Nat.zero_add]; rfl
  | append_singleton history e ih =>
    rw [after_snoc, List.count_append, List.count_singleton]
    by_cases he : e = .reset
    · subst he
      have hnext := RandomSource.stream_next (after source history).devices.generator.source n
      have hplace : history.count .reset + 1 + n = history.count .reset + (n + 1) := by omega
      rw [beq_self_eq_true, if_pos rfl, hplace, ← ih]
      exact hnext
    · have hkept : ((after source history).perform e).devices.generator.source =
          (after source history).devices.generator.source := by
        rw [generator_perform _ he]
        split <;> rfl
      rw [hkept, ih, beq_false_of_ne he, if_neg Bool.false_ne_true, Nat.add_zero]

structure Holds (period : List Event) (m : Memory) : Prop where
  cell (a : UInt8) : m.cell a = lastByteTo a period
  drawn : m.devices.generator.drawn = period.count (.load 254)

theorem Holds.blank {m : Memory} (hcells : m.cells = Vector.replicate 256 0)
    (hdrawn : m.devices.generator.drawn = 0) : Holds [] m where
  cell a := by
    rw [Memory.cell, hcells]
    exact Vector.getElem_replicate a.toNat_lt
  drawn := hdrawn

theorem Holds.perform {period : List Event} {m : Memory} (h : Holds period m)
    {e : Event} (he : e ≠ .reset) : Holds (period ++ [e]) (m.perform e) where
  cell a := by rw [m.cell_perform he, lastByteTo_snoc, h.cell]
  drawn := by
    rw [m.generator_perform he, List.count_append, List.count_singleton, ← h.drawn]
    by_cases hload : e = .load 254
    · subst hload
      rfl
    · rw [if_neg hload, beq_false_of_ne hload]
      rfl

theorem holds_after (source : RandomSource) (history : List Event) :
    Holds (since Event.isReset history) (after source history) :=
  after_induction source (.blank rfl rfl) (fun _ _ _ => .blank rfl rfl)
    (fun _ _ _ he h => h.perform he) history

/-- What a memory holds and answers after any history. Streams and bytes are counted from zero, so a
load of the random port that comes after `k` others since the last reset gives the byte number `k`
of its stream. -/
theorem answers_of_history (source : RandomSource) (history : List Event) :
    let m := after source history
    let period := since Event.isReset history
    (∀ a, m.cell a = lastByteTo a period) ∧
      (∀ a, a ≠ 244 → a ≠ 254 → a ≠ 255 → (m.load a).1 = m.cell a) ∧
      (m.load 255).1 = lastSample history ∧
      (m.load 254).1 = source.stream (history.count .reset) (period.count (.load 254)) ∧
      ∀ seed entropy, source = .new (some seed) entropy →
        (m.load 254).1 = (StreamKey.ofSeed seed).stream (period.count (.load 254)) := by
  intro m period
  have h : Holds period m := holds_after source history
  have hrandom : (m.load 254).1 =
      source.stream (history.count .reset) (period.count (.load 254)) := by
    rw [load_random, h.drawn, stream_after, Nat.add_zero]
  refine ⟨h.cell, fun a => m.load_fst, ?_, hrandom, ?_⟩
  · rw [load_controller]
    exact controller_after source history
  · rintro seed entropy rfl
    exact hrandom

end ByteMachine.Memory
