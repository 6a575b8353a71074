import ByteMachine.Proofs.Steps
import ByteMachine.Session.Basic

/-!
# Runs and histories

What every step preserves, every run preserves, and what every operation preserves holds after any
sequence of operations. The path of a machine is the addresses of the instructions that its next
steps execute. A run executes a path, and of this path only the first address can carry a
breakpoint.
-/
namespace ByteMachine

def StepResult.fault? : StepResult → Option Fault
  | .faulted fault => some fault
  | _ => none

namespace Machine
variable {P : Machine → Prop} {program : Program}

theorem repeatStep_preserves (hstep : ∀ m, P m → P (m.step program).1) (b : Breakpoints)
    (limit : Nat) (fresh : Bool) {m : Machine} (h : P m) :
    P (repeatStep program b limit fresh m).1 := by
  induction limit generalizing fresh m with
  | zero => exact h
  | succ limit ih =>
    have hnext := hstep m h
    rw [repeatStep]
    split
    · exact h
    · split <;> rename_i hm <;> rw [hm] at hnext
      · exact ih false hnext
      · exact hnext
      · exact hnext

theorem run_preserves (hstep : ∀ m, P m → P (m.step program).1)
    (hstatus : ∀ m status, P m → P (m.setStatus status)) (b : Breakpoints) (limit : Nat)
    {m : Machine} (h : P m) : P (m.run program b limit).1 := by
  have hfinal := repeatStep_preserves hstep b limit true (hstatus m .running h)
  unfold run
  split
  · exact h
  · dsimp only
    split
    · exact hfinal
    · exact hstatus _ .ready hfinal

theorem run_status (program : Program) (b : Breakpoints) (limit : Nat) (m : Machine) :
    (m.run program b limit).1.processor.status = .ready ∨
      (m.run program b limit).1.processor.status = .halted := by
  unfold run
  split
  · rename_i hhalted
    exact .inr (eq_of_beq hhalted)
  · dsimp only
    split
    · rename_i hhalted
      exact .inr (eq_of_beq hhalted)
    · exact .inl rfl

/-- The addresses of the next instructions that steps execute, as many as there are up to a number.
A step that executes no instruction ends the path. -/
def path (program : Program) : Nat → Machine → List UInt16
  | 0, _ => []
  | n + 1, m =>
    if (m.step program).1.processor.executed = m.processor.executed then []
    else m.processor.pc :: path program n (m.step program).1

def Executes (program : Program) (m : Machine) : Prop :=
  (m.step program).1.processor.executed = m.processor.executed + 1

theorem path_succ {m : Machine} (h : m.Executes program) (n : Nat) :
    path program (n + 1) m = m.processor.pc :: path program n (m.step program).1 := by
  unfold Executes at h
  rw [path, if_neg (by omega)]

theorem path_eq_nil {m : Machine}
    (h : (m.step program).1.processor.executed = m.processor.executed) (n : Nat) :
    path program n m = [] := by
  cases n with
  | zero => rfl
  | succ n => rw [path, if_pos h]

theorem path_of_halted {m : Machine} (h : m.isHalted = true) (n : Nat) :
    path program n m = [] := by
  apply path_eq_nil
  rw [(Stepped.idle h : Stepped program m _).eq]

theorem path_setStatus (program : Program) (n : Nat) {m : Machine} (hactive : m.isHalted = false)
    {status : Status} (hstatus : status ≠ .halted) :
    path program n (m.setStatus status) = path program n m := by
  induction n generalizing m with
  | zero => rfl
  | succ n ih =>
    rw [path, path, m.step_setStatus status program hactive hstatus]
    by_cases hhalted : (m.step program).1.isHalted = true
    · rw [if_pos hhalted]
      rfl
    · rw [if_neg hhalted, ih (eq_false_of_ne_true hhalted)]
      rfl

theorem executes_setStatus (program : Program) {m : Machine} (hactive : m.isHalted = false)
    {status : Status} (hstatus : status ≠ .halted) (h : m.Executes program) :
    (m.setStatus status).Executes program := by
  unfold Executes at *
  rw [m.step_setStatus status program hactive hstatus]
  split
  · exact h
  · exact h

section RepeatStep
variable {b : Breakpoints} {fresh : Bool} {m : Machine}

theorem repeatStep_of_paused (hpause : (!fresh && b.contains m.processor.pc.toNat) = true)
    (limit : Nat) : repeatStep program b (limit + 1) fresh m = (m, .breakpoint, none) := by
  rw [repeatStep, if_pos hpause]

theorem repeatStep_of_executed (hpause : (!fresh && b.contains m.processor.pc.toNat) = false)
    (hresult : (m.step program).2 = .executed) (limit : Nat) :
    repeatStep program b (limit + 1) fresh m =
      repeatStep program b limit false (m.step program).1 := by
  rw [repeatStep, hpause]
  generalize m.step program = r at hresult ⊢
  obtain ⟨m', result⟩ := r
  obtain rfl : result = .executed := hresult
  rfl

theorem repeatStep_of_halted (hpause : (!fresh && b.contains m.processor.pc.toNat) = false)
    (hresult : (m.step program).2 ≠ .executed) (limit : Nat) :
    repeatStep program b (limit + 1) fresh m =
      ((m.step program).1, .halted, (m.step program).2.fault?) := by
  rw [repeatStep, hpause]
  generalize m.step program = r at hresult ⊢
  obtain ⟨m', result⟩ := r
  cases result with
  | executed => exact absurd rfl hresult
  | halted => rfl
  | faulted fault => rfl

end RepeatStep

/-- What repeated steps have done: executed a path of `k` instructions, with a breakpoint on none of
them but a fresh first one, and stopped for a reason. -/
structure Repeated (program : Program) (b : Breakpoints) (limit : Nat) (fresh : Bool)
    (m final : Machine) (reason : StopReason) (k : Nat) : Prop where
  executed : final.processor.executed = m.processor.executed + k
  length : (path program k m).length = k
  rest (n : Nat) : path program (k + n) m = path program k m ++ path program n final
  clear (j : Nat) (a : UInt16) :
    (path program k m)[j]? = some a → b.contains a.toNat = true → fresh = true ∧ j = 0
  halted : reason = .halted ↔ final.isHalted = true
  full : reason = .limit → k = limit
  paused : reason = .breakpoint →
    b.contains final.processor.pc.toNat = true ∧ k < limit ∧ (fresh = true → 0 < k)
  started : fresh = true → 0 < limit → m.Executes program → 0 < k

theorem Repeated.next {b : Breakpoints} {limit k : Nat} {fresh : Bool} {m final : Machine}
    {reason : StopReason} (hpause : (!fresh && b.contains m.processor.pc.toNat) = false)
    (hcount : m.Executes program)
    (h : Repeated program b limit false (m.step program).1 final reason k) :
    Repeated program b (limit + 1) fresh m final reason (k + 1) := by
  have hpath := path_succ hcount k
  refine ⟨?_, ?_, ?_, ?_, h.halted, ?_, ?_, fun _ _ _ => Nat.succ_pos k⟩
  · rw [h.executed, hcount]
    omega
  · rw [hpath, List.length_cons, h.length]
  · intro n
    rw [Nat.add_right_comm, path_succ hcount, h.rest, hpath, List.cons_append]
  · intro j a hj ha
    rw [hpath] at hj
    cases j with
    | zero =>
      obtain rfl : m.processor.pc = a := by simpa using hj
      rw [ha] at hpause
      exact ⟨by simpa using hpause, rfl⟩
    | succ j =>
      -- after the first instruction the steps are not fresh
      have hfresh := (h.clear j a (by simpa using hj) ha).1
      cases hfresh
  · intro hreason
    rw [h.full hreason]
  · intro hreason
    obtain ⟨hpc, hlt, -⟩ := h.paused hreason
    exact ⟨hpc, by omega, fun _ => by omega⟩

/-- A last step, after which the machine has halted. -/
theorem Repeated.last {b : Breakpoints} {limit k : Nat} {fresh : Bool} {m : Machine}
    (hpause : (!fresh && b.contains m.processor.pc.toNat) = false)
    (hhalted : (m.step program).1.isHalted = true) (hk : k ≤ 1)
    (hexecuted : (m.step program).1.processor.executed = m.processor.executed + k) :
    Repeated program b limit fresh m (m.step program).1 .halted k := by
  have hpath (n : Nat) : path program (k + n) m = List.replicate k m.processor.pc := by
    rcases Nat.le_one_iff_eq_zero_or_eq_one.mp hk with rfl | rfl
    · exact path_eq_nil hexecuted (0 + n)
    · rw [Nat.add_comm, path_succ hexecuted, path_of_halted hhalted]
      rfl
  have hfull : path program k m = List.replicate k m.processor.pc := hpath 0
  refine ⟨hexecuted, ?_, ?_, ?_, by simp [hhalted], ?_, ?_, ?_⟩
  · rw [hfull, List.length_replicate]
  · intro n
    rw [hpath, hfull, path_of_halted hhalted, List.append_nil]
  · intro j a hj ha
    rw [hfull] at hj
    obtain ⟨hlt, rfl⟩ := by simpa [List.getElem?_replicate] using hj
    rw [ha] at hpause
    exact ⟨by simpa using hpause, by omega⟩
  · intro h
    cases h
  · intro h
    cases h
  · intro _ _ hexecutes
    unfold Executes at hexecutes
    omega

theorem repeated (program : Program) (b : Breakpoints) (limit : Nat) (fresh : Bool) {m : Machine}
    (hactive : m.isHalted = false) :
    ∃ k, Repeated program b limit fresh m (repeatStep program b limit fresh m).1
      (repeatStep program b limit fresh m).2.1 k := by
  induction limit generalizing fresh m with
  | zero =>
    refine ⟨0, rfl, rfl, ?_, by simp [path], ?_, fun _ => rfl, ?_, fun _ h => absurd h (by decide)⟩
    · simp [repeatStep, path]
    · simp [repeatStep, hactive]
    · simp [repeatStep]
  | succ limit ih =>
    cases hpause : !fresh && b.contains m.processor.pc.toNat with
    | true =>
      have hpc := (Bool.and_eq_true_iff.mp hpause).2
      have hfresh : fresh ≠ true := by simpa using (Bool.and_eq_true_iff.mp hpause).1
      rw [repeatStep_of_paused hpause]
      exact ⟨0, rfl, rfl, by simp [path], by simp [path], by simp [hactive], by simp,
        fun _ => ⟨hpc, Nat.succ_pos limit, fun h => absurd h hfresh⟩, fun h => absurd h hfresh⟩
    | false =>
      rcases m.step_counts program with ⟨hresult, hactive', hcount⟩ | ⟨hresult, hhalted, hcount⟩
      · obtain ⟨k, hrest⟩ := ih false hactive'
        rw [repeatStep_of_executed hpause hresult]
        exact ⟨k + 1, hrest.next hpause hcount⟩
      · rw [repeatStep_of_halted hpause hresult]
        rcases hcount with hcount | hcount
        · exact ⟨0, .last hpause hhalted (Nat.zero_le 1) hcount⟩
        · exact ⟨1, .last hpause hhalted (Nat.le_refl 1) hcount⟩

/-- What a run of an active machine has done. The machine at rest afterwards has the counter, the
program counter and the halt of the machine that the steps left. -/
theorem run_repeated (program : Program) (b : Breakpoints) (limit : Nat) {m : Machine}
    (hactive : m.isHalted = false) :
    ∃ k, Repeated program b limit true m (m.run program b limit).1
      (m.run program b limit).2.reason k := by
  obtain ⟨k, h⟩ := repeated program b limit true (m := m.setStatus .running) rfl
  have hpath (n : Nat) : path program n (m.setStatus .running) = path program n m :=
    path_setStatus program n hactive (by decide)
  unfold run
  rw [if_neg (by simp [hactive])]
  generalize repeatStep program b limit true (m.setStatus .running) = r at h ⊢
  obtain ⟨final, reason, fault⟩ := r
  have hrest : Repeated program b limit true m final reason k :=
    ⟨h.executed, hpath k ▸ h.length, fun n => by rw [← hpath, ← hpath, h.rest], hpath k ▸ h.clear,
      h.halted, h.full, h.paused, fun hfresh hlimit hm =>
        h.started hfresh hlimit (executes_setStatus program hactive (by decide) hm)⟩
  refine ⟨k, ?_⟩
  dsimp only
  split
  · exact hrest
  · rename_i hactive'
    have hready : (final.setStatus .ready).isHalted = final.isHalted :=
      (eq_false_of_ne_true hactive').symm
    refine ⟨hrest.executed, hrest.length, ?_, hrest.clear, hready ▸ hrest.halted, hrest.full,
      hrest.paused, hrest.started⟩
    intro n
    rw [hrest.rest, path_setStatus program n (eq_false_of_ne_true hactive') (by decide)]

end Machine

theorem Session.performAll_cons (s : Session) (op : Operation) (ops : List Operation) :
    s.performAll (op :: ops) = (((s.perform op).1.performAll ops).1,
      (s.perform op).2 :: ((s.perform op).1.performAll ops).2) := rfl

theorem Session.performAll_preserves {P : Session → Prop}
    (hperform : ∀ s op, P s → P (s.perform op).1) {s : Session} (h : P s) (ops : List Operation) :
    P (s.performAll ops).1 := by
  induction ops generalizing s with
  | nil => exact h
  | cons op ops ih => exact ih (hperform s op h)

end ByteMachine
