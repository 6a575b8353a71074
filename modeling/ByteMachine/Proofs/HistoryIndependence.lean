import ByteMachine.Proofs.ControlState
import ByteMachine.Proofs.ImageRoundTrip

/-!
# What a session remembers

From outside a session is given its configuration, the samples of its controller and its
breakpoints. Nothing that a program does changes them, and a load or a reset keeps them and nothing
else. So with a seed a session answers after a load or a reset as a new one would that was given the
same, whatever was done before. A load that is rejected changes nothing at all.
-/
namespace ByteMachine

def Operation.sample (value : UInt8) : Operation → UInt8
  | .input value => value
  | _ => value

def lastInput (ops : List Operation) : UInt8 := ops.foldl Operation.sample 0

structure Breakpoints.Proper (b : Breakpoints) : Prop where
  nodup : b.addresses.Nodup
  lt_limit : ∀ a ∈ b.addresses, a < programLimit

theorem Breakpoints.contains_iff (b : Breakpoints) (a : Nat) :
    b.contains a = true ↔ a ∈ b.addresses := by
  simp [contains]

theorem Breakpoints.Proper.toggle {b : Breakpoints} (h : b.Proper) {address : Nat}
    (hlimit : address < programLimit) : (b.toggle address).1.Proper := by
  unfold Breakpoints.toggle
  by_cases hin : b.contains address = true
  · rw [if_pos hin]
    exact ⟨h.nodup.filter _, fun a ha => h.lt_limit a (List.mem_filter.mp ha).1⟩
  · rw [if_neg hin]
    have hnew : address ∉ b.addresses := fun hmem => hin ((b.contains_iff address).mpr hmem)
    exact ⟨List.nodup_cons.mpr ⟨hnew, h.nodup⟩, List.forall_mem_cons.mpr ⟨hlimit, h.lt_limit⟩⟩

namespace Session

structure Setting (config : Config) (stream : ByteStream) (value : UInt8) (s : Session) :
    Prop where
  config_eq : s.config = config
  external : s.machine.external = (value, .seeded stream)
  breakpoints : s.breakpoints.Proper

section Setting
variable {config : Config} {stream : ByteStream} {value : UInt8} {s t : Session}

theorem Setting.install (h : Setting config stream value s) (p : Program) :
    Setting config stream value (s.install p) := by
  obtain ⟨hcontroller, hsource⟩ := Prod.mk.inj h.external
  exact ⟨h.config_eq, Prod.ext hcontroller (congrArg RandomSource.next hsource), h.breakpoints⟩

theorem Setting.perform (h : Setting config stream value s) (op : Operation) :
    Setting config stream (op.sample value) (s.perform op).1 := by
  cases op with
  | load source =>
    simp only [Session.perform, load]
    cases assemble source with
    | ok p => exact h.install p
    | error diagnostics => exact h
  | loadImage image =>
    simp only [Session.perform, loadImage]
    cases readImage image with
    | ok p => exact h.install p
    | error diagnostics => exact h
  | step => exact ⟨h.config_eq, (Machine.external_step ..).trans h.external, h.breakpoints⟩
  | run limit => exact ⟨h.config_eq, (Machine.external_run ..).trans h.external, h.breakpoints⟩
  | reset => exact h.install s.program
  | state => exact h
  | listing => exact h
  | breakpoint address =>
    simp only [Session.perform, breakpoint]
    split
    · rename_i hlimit
      exact ⟨h.config_eq, h.external, h.breakpoints.toggle hlimit⟩
    · exact h
  | input sample => exact ⟨h.config_eq, Prod.ext rfl (Prod.mk.inj h.external).2, h.breakpoints⟩

theorem Setting.performAll (h : Setting config stream value s) (ops : List Operation) :
    Setting config stream (ops.foldl Operation.sample value) (s.performAll ops).1 := by
  induction ops generalizing value s with
  | nil => exact h
  | cons op ops ih => exact ih (h.perform op)

/-- With a seed the operating system is not asked for anything. -/
theorem setting_performAll {seed : UInt64} (hseed : config.seed = some seed) (entropy : Entropy)
    (ops : List Operation) : Setting config (StreamKey.ofSeed seed).stream (lastInput ops)
      ((new config entropy).performAll ops).1 := by
  have hsource : RandomSource.new config.seed entropy = .seeded (StreamKey.ofSeed seed).stream := by
    rw [hseed]
    rfl
  have hnew : Setting config (StreamKey.ofSeed seed).stream 0 (new config entropy) :=
    ⟨rfl, Prod.ext rfl hsource, List.nodup_nil, List.forall_mem_nil _⟩
  exact hnew.performAll ops

theorem Setting.same (hs : Setting config stream value s) (ht : Setting config stream value t)
    (hb : ∀ a, s.breakpoints.contains a = t.breakpoints.contains a) : SameSetting s t := by
  obtain ⟨hcontroller, hsource⟩ := Prod.mk.inj (hs.external.trans ht.external.symm)
  exact ⟨hs.config_eq.trans ht.config_eq.symm, congrArg RandomSource.next hsource, hcontroller, hb⟩

end Setting

theorem foldl_sample_breakpoints (value : UInt8) (addresses : List Nat) :
    (addresses.map Operation.breakpoint).foldl Operation.sample value = value := by
  induction addresses with
  | nil => rfl
  | cons a addresses ih => exact ih

/-- Setting breakpoints at new addresses adds these addresses. -/
theorem contains_performAll_breakpoints {s : Session} {addresses : List Nat}
    (hnodup : addresses.Nodup) (hlimit : ∀ a ∈ addresses, a < programLimit)
    (hnew : ∀ a ∈ addresses, s.breakpoints.contains a = false) (a : Nat) :
    (s.performAll (addresses.map Operation.breakpoint)).1.breakpoints.contains a = true ↔
      s.breakpoints.contains a = true ∨ a ∈ addresses := by
  induction addresses generalizing s with
  | nil => simp [performAll]
  | cons x addresses ih =>
    obtain ⟨hx, hnodup⟩ := List.nodup_cons.mp hnodup
    obtain ⟨hxlimit, hlimit⟩ := List.forall_mem_cons.mp hlimit
    obtain ⟨hxnew, hnew⟩ := List.forall_mem_cons.mp hnew
    have htoggle : (s.breakpoint x).1.breakpoints = (s.breakpoints.toggle x).1 := by
      rw [breakpoint, if_pos hxlimit]
    have hnew' : ∀ a ∈ addresses, (s.breakpoint x).1.breakpoints.contains a = false := by
      intro a ha
      have hne : a ≠ x := fun heq => hx (heq ▸ ha)
      rw [htoggle, Breakpoints.contains_toggle_of_ne _ hne]
      exact hnew a ha
    have hrest := ih hnodup hlimit hnew'
    have hcons : (s.performAll ((x :: addresses).map Operation.breakpoint)).1 =
        ((s.breakpoint x).1.performAll (addresses.map Operation.breakpoint)).1 := rfl
    rw [hcons, hrest, htoggle]
    by_cases ha : a = x
    · subst ha
      rw [Breakpoints.contains_toggle_self, hxnew]
      simp
    · rw [Breakpoints.contains_toggle_of_ne _ ha]
      simp [ha]

/-- A new session that was given a session's last input and its breakpoints has the same setting. -/
theorem sameSetting_given {config : Config} {seed : UInt64} (hseed : config.seed = some seed)
    {history : List Operation} {entropy entropy' : Entropy} {s fresh : Session}
    {addresses : List Nat} (hs : ((new config entropy).performAll history).1 = s)
    (haddresses : addresses.Perm s.breakpoints.addresses)
    (hfresh : ((new config entropy').performAll
      (.input (lastInput history) :: addresses.map .breakpoint)).1 = fresh) :
    SameSetting s fresh := by
  have hsetting : Setting config _ (lastInput history) s :=
    hs ▸ setting_performAll hseed entropy history
  have hgiven := setting_performAll hseed entropy'
    (.input (lastInput history) :: addresses.map .breakpoint)
  have hlast : lastInput (.input (lastInput history) :: addresses.map .breakpoint) =
      lastInput history := foldl_sample_breakpoints (lastInput history) addresses
  rw [hlast, hfresh] at hgiven
  have hnodup : addresses.Nodup := haddresses.nodup_iff.mpr hsetting.breakpoints.nodup
  have hlimit : ∀ a ∈ addresses, a < programLimit := fun a ha =>
    hsetting.breakpoints.lt_limit a (haddresses.mem_iff.mp ha)
  refine hsetting.same hgiven fun a => ?_
  let given : Session := (new config entropy').input (lastInput history)
  have hcontains := contains_performAll_breakpoints (s := given) hnodup hlimit (fun _ _ => rfl) a
  have hnone : given.breakpoints.contains a = false := rfl
  rw [hnone, haddresses.mem_iff, ← s.breakpoints.contains_iff] at hcontains
  rw [← hfresh, Bool.eq_iff_iff]
  exact ⟨fun h => hcontains.mpr (.inr h), fun h => (hcontains.mp h).resolve_left (by decide)⟩

/-- Two sessions `s` and `t` forget what was done before, and go on as a new session `fresh` that
was given their input and their breakpoints. -/
structure Forgets (s t fresh : Session) : Prop where
  /-- After the same successful load. -/
  loaded (load : Operation) : (s.perform load).2.accepts = true →
    (t.perform load).2.accepts = true →
      Indistinguishable (s.perform load).1 (t.perform load).1 ∧
        (fresh.perform load).2.accepts = true ∧
          Indistinguishable (s.perform load).1 (fresh.perform load).1
  /-- After a reset under the same words. -/
  reset : s.program.words = t.program.words → Indistinguishable s.reset t.reset
  /-- A reset is as good as a load of the same words into the new session. -/
  renewed (load : Operation) : (fresh.perform load).2.accepts = true →
    (fresh.perform load).1.program.words = s.program.words →
      Indistinguishable s.reset (fresh.perform load).1
  /-- There is such a load. -/
  renewable : ∃ load, (fresh.perform load).2.accepts = true ∧
    (fresh.perform load).1.program.words = s.program.words
  /-- A load that fails is itself forgotten. -/
  rejected (load : Operation) : (s.perform load).2.rejects = true →
    Indistinguishable (s.perform load).1 s

/-- Whatever two sessions of one configuration with a seed have gone through, with the same last
input and the same breakpoints a load or a reset makes them forget it. -/
theorem forgets_history {config : Config} {seed : UInt64} (hseed : config.seed = some seed)
    (entropy entropy' entropy'' : Entropy) (history history' : List Operation)
    {s t fresh : Session} {addresses : List Nat}
    (hs : ((new config entropy).performAll history).1 = s)
    (ht : ((new config entropy').performAll history').1 = t)
    (hinput : lastInput history = lastInput history')
    (hbreakpoints : ∀ a, s.breakpoints.contains a = t.breakpoints.contains a)
    (haddresses : addresses.Perm s.breakpoints.addresses)
    (hfresh : ((new config entropy'').performAll
      (.input (lastInput history) :: addresses.map .breakpoint)).1 = fresh) :
    Forgets s t fresh := by
  have hsetting : Setting config _ (lastInput history) s :=
    hs ▸ setting_performAll hseed entropy history
  have hsetting' : Setting config _ (lastInput history) t :=
    hinput ▸ ht ▸ setting_performAll hseed entropy' history'
  have hsame : SameSetting s t := hsetting.same hsetting' hbreakpoints
  have hgiven : SameSetting s fresh := sameSetting_given hseed hs haddresses hfresh
  refine ⟨?_, ?_, ?_, ?_, ?_⟩
  · intro load hload _
    obtain ⟨p, hp⟩ := exists_install_of_accepts hload
    rw [(hp s).1, (hp t).1, (hp fresh).1]
    exact ⟨(hsame.install rfl).indistinguishable, (hp fresh).2,
      (hgiven.install rfl).indistinguishable⟩
  · exact fun hwords => (hsame.reset hwords).indistinguishable
  · intro load hload hwords
    obtain ⟨p, hp⟩ := exists_install_of_accepts hload
    rw [(hp fresh).1] at hwords ⊢
    exact (hgiven.install hwords.symm).indistinguishable
  · have hsize : s.program.words.toList.length ≤ programLimit :=
      hs ▸ (sound_performAll config entropy history).size_le
    refine ⟨.loadImage (imageText s.program.words.toList), ?_⟩
    simp only [perform, loadImage_of_ok (readImage_imageText hsize)]
    exact ⟨rfl, by simp [install, Session.reset, Program.ofList, List.zipIdx_map_fst]⟩
  · intro load hload
    rw [perform_of_rejects hload]
    exact fun ops => rfl

/-- One session has read a random byte. The other has faulted, and had one more breakpoint. The
operating system would give each of them another key. -/
theorem forgets_history_random :
    ∃ s t fresh,
      ((new { seed := some 7 } default).performAll [.load "ldi r1 254\nlod r2 r1\nhlt".toList,
        .run none, .input 5, .breakpoint 2]).1 = s ∧
      ((new { seed := some 7 } fun _ => .ofSeed 1).performAll [.breakpoint 2, .breakpoint 9,
        .input 6, .load ".f cal f".toList, .run (some 40), .breakpoint 9, .input 5]).1 = t ∧
      ((new { seed := some 7 } fun _ => .ofSeed 2).performAll [.input 5, .breakpoint 2]).1 =
        fresh ∧
      s.machine.processor.executed = 3 ∧ t.machine.processor.executed = 16 ∧
      Forgets s t fresh := by
  refine ⟨_, _, _, rfl, rfl, rfl, by decide +kernel, by decide +kernel, ?_⟩
  exact forgets_history rfl _ _ _ _ _ rfl rfl rfl (fun _ => rfl) (List.Perm.refl [2]) rfl

end Session
end ByteMachine
