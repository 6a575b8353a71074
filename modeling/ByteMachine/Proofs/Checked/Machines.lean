import ByteMachine.Proofs.Checked.Words
import ByteMachine.Proofs.Runs

/-!
# Checked execution

Steps and runs with every register, cell, port, character and pixel taken by its place, and with
the instructions counted in sixty-four bits. An operand field of a decoded word has four bits, which
is why registers are there; the cursor wraps around, which is why pixels are. What is left is the
counter: a step or a run that leaves it in range does not fail.
-/
namespace ByteMachine.Checked

/-! ## Registers -/

def getRegister (m : Machine) (r : UInt8) : Checked UInt8 :=
  if r = 0 then return 0 else cell m.processor.registers r.toNat

def setRegister (m : Machine) (r value : UInt8) : Checked Machine := do
  if r = 0 then return m
  else
    let registers ← setCell m.processor.registers r.toNat value
    return { m with processor := { m.processor with registers } }

def assign (m : Machine) (r : UInt8) (result : Flagged) : Checked Machine :=
  setRegister (m.setFlags result.flags) r result.value

section Registers
variable (m : Machine) {r : UInt8} (h : r.toNat < 16)
include h

theorem getRegister_eq_ok : getRegister m r = .ok (m.read r) := by
  unfold getRegister Machine.read Processor.read
  split
  · rfl
  · rw [cell_eq_ok _ h]
    simp [h]

theorem setRegister_eq_ok (value : UInt8) : setRegister m r value = .ok (m.write r value) := by
  unfold setRegister Machine.write Processor.write
  split
  · rfl
  · rw [setCell_eq_ok _ h]
    simp [Vector.setIfInBounds, Vector.set, Array.setIfInBounds, h]

theorem assign_eq_ok (result : Flagged) : assign m r result = .ok (m.assign r result) :=
  setRegister_eq_ok _ h _

end Registers

/-! ## Memory and devices -/

def coordinate (i : Nat) : Checked Coordinate :=
  if h : i < screenSide then .ok ⟨i, h⟩ else .error .place

def getPixel (p : Plane) (x y : Nat) : Checked Bool := do
  let y ← coordinate y
  let x ← coordinate x
  return p.get x y

def setPixel (p : Plane) (x y : Nat) (lit : Bool) : Checked Plane := do
  let y ← coordinate y
  let x ← coordinate x
  return p.set x y lit

def shortCharacters : List Char := " abcdefghijklmnopqrstuvwxyz.!?".toList

def displayChar (value : UInt8) : Checked Char := do
  let n := value.toNat
  if n ≤ 29 then element shortCharacters n
  else if 32 ≤ n ∧ n ≤ 126 then return Char.ofNat n
  else return '?'

def port? (address : UInt8) : Checked (Option Port) := do
  if address.toNat < Port.base then return none
  else return some (← element Port.all (← subtract address.toNat Port.base))

/-- A write to a port. Three of the ports take something by its place. -/
def writePort (d : Devices) (value : UInt8) : Port → Checked Devices
  | .drawPixel => do
    let drawn ← setPixel d.drawn (d.cursorX % screenSide) (d.cursorY % screenSide) (value != 0)
    return { d with drawn }
  | .clearPixel => do
    let drawn ← setPixel d.drawn (d.cursorX % screenSide) (d.cursorY % screenSide) false
    return { d with drawn }
  | .writeChar => do return { d with pending := d.pending.push (← displayChar value) }
  | port => return d.write value port

def readPort (d : Devices) : Port → Checked (Option UInt8 × Devices)
  | .loadPixel => do
    let lit ← getPixel d.drawn (d.cursorX % screenSide) (d.cursorY % screenSide)
    return (some (if lit then 1 else 0), d)
  | port => return d.read port

def load (m : Memory) (address : UInt8) : Checked (UInt8 × Memory) := do
  match ← port? address with
  | none => return (← cell m.cells address.toNat, m)
  | some port =>
    let (answer, devices) ← readPort m.devices port
    match answer with
    | some byte => return (byte, { m with devices })
    | none => return (← cell m.cells address.toNat, { m with devices })

def store (m : Memory) (address value : UInt8) : Checked Memory := do
  let cells ← setCell m.cells address.toNat value
  match ← port? address with
  | none => return { m with cells }
  | some port => return { cells, devices := ← writePort m.devices value port }

theorem coordinate_mod (c : Coordinate) : coordinate (c % screenSide) = .ok c := by
  have hc : c.val % screenSide = c.val := Nat.mod_eq_of_lt c.isLt
  rw [hc]
  exact dif_pos c.isLt

theorem displayChar_eq_ok (value : UInt8) :
    displayChar value = .ok (ByteMachine.displayChar value) := by
  unfold displayChar ByteMachine.displayChar
  have htable : ∀ n < 30, shortCharacters[n]? = some (if n = 0 then ' '
      else if n ≤ 26 then Char.ofNat ('a'.toNat + n - 1)
      else if n = 27 then '.'
      else if n = 28 then '!'
      else if 32 ≤ n ∧ n ≤ 126 then Char.ofNat n
      else '?') := by decide
  dsimp only
  split
  · rename_i hshort
    rw [element, htable _ (by omega)]
  · rename_i hlong
    have hzero : value.toNat ≠ 0 := by omega
    have hletter : ¬ value.toNat ≤ 26 := by omega
    have hpoint : value.toNat ≠ 27 := by omega
    have hmark : value.toNat ≠ 28 := by omega
    simp only [hzero, hletter, hpoint, hmark, if_false]
    split <;> rfl

theorem port?_eq_ok (address : UInt8) : port? address = .ok (Port.ofAddress? address) := by
  unfold port? Port.ofAddress?
  split
  · rfl
  · rename_i hbase
    have hplace : address.toNat - Port.base < Port.all.length := by
      have haddress : address.toNat < 256 := address.toNat_lt
      simp only [Port.base, Port.all, List.length_cons, List.length_nil]
      omega
    rw [subtract_eq_ok (Nat.le_of_not_lt hbase), ok_bind, element_eq_ok hplace,
      List.getElem?_eq_getElem hplace]
    rfl

theorem writePort_eq_ok (d : Devices) (value : UInt8) (port : Port) :
    writePort d value port = .ok (d.write value port) := by
  cases port <;> simp [writePort, setPixel, coordinate_mod, displayChar_eq_ok, Devices.write]

theorem readPort_eq_ok (d : Devices) (port : Port) : readPort d port = .ok (d.read port) := by
  cases port <;> simp [readPort, getPixel, coordinate_mod, Devices.read]

theorem load_eq_ok (m : Memory) (address : UInt8) : load m address = .ok (m.load address) := by
  rw [load, Memory.load, port?_eq_ok, ok_bind, cell_eq_ok _ address.toNat_lt]
  cases Port.ofAddress? address with
  | none => rfl
  | some port =>
    dsimp only
    rw [readPort_eq_ok, ok_bind]
    obtain ⟨answer, devices⟩ := m.devices.read port
    cases answer <;> rfl

theorem store_eq_ok (m : Memory) (address value : UInt8) :
    store m address value = .ok (m.store address value) := by
  rw [store, Memory.store, setCell_eq_ok _ address.toNat_lt, ok_bind, port?_eq_ok, ok_bind]
  cases Port.ofAddress? address with
  | none => rfl
  | some port =>
    dsimp only
    rw [writePort_eq_ok]
    rfl

/-! ## Execution -/

def binary (m : Machine) (a b c : UInt8) (f : UInt8 → UInt8 → Flagged) :
    Checked Effect := do
  let x ← getRegister m a
  let y ← getRegister m b
  return .ok (← assign m c (f x y)).proceed

def unary (m : Machine) (a c : UInt8) (f : UInt8 → Flagged) : Checked Effect := do
  let x ← getRegister m a
  return .ok (← assign m c (f x)).proceed

def execute (m : Machine) : Instruction → Checked Effect
  | ⟨.nop, .none⟩ => return .ok m.proceed
  | ⟨.hlt, .none⟩ => return .ok m.halt
  | ⟨.add, .regRegReg a b c⟩ => binary m a b c .sum
  | ⟨.sub, .regRegReg a b c⟩ => binary m a b c .difference
  | ⟨.nor, .regRegReg a b c⟩ => binary m a b c fun x y => .bitwise (~~~(x ||| y))
  | ⟨.and, .regRegReg a b c⟩ => binary m a b c fun x y => .bitwise (x &&& y)
  | ⟨.xor, .regRegReg a b c⟩ => binary m a b c fun x y => .bitwise (x ^^^ y)
  | ⟨.rsh, .regReg a c⟩ => unary m a c .shiftRight
  | ⟨.lsh, .regReg a c⟩ => unary m a c .shiftLeft
  | ⟨.cmp, .regReg a b⟩ => do
    let x ← getRegister m a
    let y ← getRegister m b
    return .ok (m.setFlags (Flagged.difference x y).flags).proceed
  | ⟨.mov, .regReg a b⟩ => do return .ok (← setRegister m a (← getRegister m b)).proceed
  | ⟨.inc, .reg a⟩ => unary m a a fun x => .sum x 1
  | ⟨.dec, .reg a⟩ => unary m a a fun x => .difference x 1
  | ⟨.not, .reg a⟩ => unary m a a fun x => .bitwise (~~~x)
  | ⟨.neg, .reg a⟩ => unary m a a fun x => .bitwise (-x)
  | ⟨.ldi, .regImm8 a imm⟩ => do return .ok (← setRegister m a imm).proceed
  | ⟨.adi, .regImm8 a imm⟩ => unary m a a fun x => .sum x imm
  | ⟨.jmp, .addr10 address⟩ => return .ok (m.jump address)
  | ⟨.brh, .condAddr10 cond address⟩ =>
    return .ok (if cond.holds m.processor.flags then m.jump address else m.proceed)
  | ⟨.cal, .addr10 address⟩ => return m.call address
  | ⟨.ret, .none⟩ => return m.return?
  | ⟨.lod, .regRegOffset a b offset⟩ => do
    let (value, memory) ← load m.memory ((← getRegister m b) + offset.toUInt8)
    return .ok (← setRegister { m with memory } a value).proceed
  | ⟨.str, .regRegOffset a b offset⟩ => do
    let address := (← getRegister m b) + offset.toUInt8
    return .ok { m with memory := ← store m.memory address (← getRegister m a) }.proceed

def count (m : Machine) (address : UInt16) : Checked Machine := do
  let executed ← add 64 m.processor.executed 1
  return { m with processor := { m.processor with executed, last := some address } }

def step (program : Program) (m : Machine) : Checked (Machine × StepResult) := do
  if m.isHalted then return (m, .halted)
  else
    let pc := m.processor.pc
    match program.word? pc.toNat with
    | none => return (m.halt, .halted)
    | some word =>
      match ← (decode word).run with
      | .error _ => return (m.halt, .faulted (.illegalInstruction pc word))
      | .ok instruction =>
        match ← execute m instruction with
        | .error (fault, m) => return (m.halt, .faulted fault)
        | .ok m => return (← count m pc, if m.isHalted then .halted else .executed)

/-- Steps of a run that began at a count, each after the count of this run has been compared with
its limit. -/
def repeatStep (program : Program) (breakpoints : Breakpoints) (start limit : Nat) :
    (fuel : Nat) → Machine → Checked (Machine × StopReason × Option Fault)
  | 0, _ => .error .endless
  | fuel + 1, m => do
    let executed ← subtract m.processor.executed start
    if limit ≤ executed then return (m, .limit, none)
    else if 0 < executed ∧ breakpoints.contains m.processor.pc.toNat then
      return (m, .breakpoint, none)
    else match ← step program m with
      | (m, .executed) => repeatStep program breakpoints start limit fuel m
      | (m, .halted) => return (m, .halted, none)
      | (m, .faulted fault) => return (m, .halted, some fault)

def run (program : Program) (breakpoints : Breakpoints) (limit : Nat) (m : Machine) :
    Checked (Machine × RunResult) := do
  if m.isHalted then return (m, ⟨.halted, 0, none⟩)
  else
    let (final, reason, fault) ← repeatStep program breakpoints m.processor.executed limit
      (limit + 1) (m.setStatus .running)
    let executed ← subtract final.processor.executed m.processor.executed
    return (if final.isHalted then final else final.setStatus .ready, ⟨reason, executed, fault⟩)

section Execution
variable (m : Machine)

theorem binary_eq_ok {a b c : UInt8} (ha : a.toNat < 16) (hb : b.toNat < 16) (hc : c.toNat < 16)
    (f : UInt8 → UInt8 → Flagged) :
    binary m a b c f = .ok (.ok (m.assign c (f (m.read a) (m.read b))).proceed) := by
  rw [binary, getRegister_eq_ok m ha, ok_bind, getRegister_eq_ok m hb, ok_bind,
    assign_eq_ok m hc]
  rfl

theorem unary_eq_ok {a c : UInt8} (ha : a.toNat < 16) (hc : c.toNat < 16) (f : UInt8 → Flagged) :
    unary m a c f = .ok (.ok (m.assign c (f (m.read a))).proceed) := by
  rw [unary, getRegister_eq_ok m ha, ok_bind, assign_eq_ok m hc]
  rfl

/-- An instruction with operands that fit is executed without failure. -/
theorem execute_eq_ok {i : Instruction} (h : i.operands.Fits) :
    execute m i = .ok (m.execute i) := by
  obtain ⟨mnemonic, operands⟩ := i
  cases mnemonic <;> cases operands
  case nop | hlt | jmp | brh | cal | ret => rfl
  case add a b c | sub a b c | nor a b c | and a b c | xor a b c =>
    exact binary_eq_ok m h.1 h.2.1 h.2.2 _
  case rsh a c | lsh a c => exact unary_eq_ok m h.1 h.2 _
  case inc a | dec a | not a | neg a => exact unary_eq_ok m h h _
  case adi a imm => exact unary_eq_ok m h h _
  case cmp a b =>
    obtain ⟨ha, hb⟩ := h
    rw [execute, getRegister_eq_ok m ha, ok_bind, getRegister_eq_ok m hb]
    rfl
  case mov a b =>
    obtain ⟨ha, hb⟩ := h
    rw [execute, getRegister_eq_ok m hb, ok_bind, setRegister_eq_ok m ha]
    rfl
  case ldi a imm =>
    rw [execute, setRegister_eq_ok m h]
    rfl
  case lod a b offset =>
    obtain ⟨ha, hb, -⟩ := h
    rw [execute, getRegister_eq_ok m hb, ok_bind, load_eq_ok, ok_bind]
    dsimp only
    rw [setRegister_eq_ok _ ha]
    rfl
  case str a b offset =>
    obtain ⟨ha, hb, -⟩ := h
    rw [execute, getRegister_eq_ok m hb, ok_bind]
    dsimp only
    rw [getRegister_eq_ok m ha, ok_bind, store_eq_ok]
    rfl

theorem count_eq_ok {address : UInt16} (h : (m.count address).processor.executed < 2 ^ 64) :
    count m address = .ok (m.count address) := by
  rw [count, add_eq_ok h]
  rfl

/-- A step fails only where its count would leave sixty-four bits. -/
theorem step_eq_ok {program : Program} (h : (m.step program).1.processor.executed < 2 ^ 64) :
    step program m = .ok (m.step program) := by
  unfold step Machine.step at *
  split
  · rfl
  · rename_i hactive
    rw [if_neg hactive] at h
    dsimp only at h ⊢
    cases hword : program.word? m.processor.pc.toNat with
    | none => rfl
    | some word =>
      rw [hword] at h
      dsimp only at h ⊢
      rw [decode_eq, run_answer, ok_bind]
      cases hdecode : Instruction.decode word with
      | error e => rfl
      | ok i =>
        rw [hdecode] at h
        dsimp only at h ⊢
        rw [execute_eq_ok m ((Instruction.decode_eq_ok_iff word i).mp hdecode).1, ok_bind]
        cases hexecute : m.execute i with
        | error fault => rfl
        | ok m' =>
          rw [hexecute] at h
          dsimp only at h ⊢
          rw [count_eq_ok m' h]
          rfl

end Execution

/-! ## Runs -/

section Runs
variable {program : Program} {b : Breakpoints} {limit : Nat} {m : Machine}

theorem executed_le_step (m : Machine) {k : Nat} (h : k ≤ m.processor.executed) :
    k ≤ (m.step program).1.processor.executed := by
  rcases Machine.step_counts program m with ⟨-, -, hcount⟩ | ⟨-, -, hcount | hcount⟩ <;> omega

theorem executed_le_repeatStep (fresh : Bool) :
    m.processor.executed ≤ (Machine.repeatStep program b limit fresh m).1.processor.executed :=
  Machine.repeatStep_preserves (P := fun m' => m.processor.executed ≤ m'.processor.executed)
    (fun m' => executed_le_step m') b limit fresh (Nat.le_refl _)

section Iteration
variable {start bound fuel : Nat} (hstart : start ≤ m.processor.executed)
include hstart

theorem repeatStep_of_full (hdone : bound ≤ m.processor.executed - start) :
    repeatStep program b start bound (fuel + 1) m = .ok (m, .limit, none) := by
  rw [repeatStep, subtract_eq_ok hstart, ok_bind, if_pos hdone]
  rfl

variable (hmore : m.processor.executed - start < bound)
include hmore

theorem repeatStep_of_paused
    (hpause : 0 < m.processor.executed - start ∧ b.contains m.processor.pc.toNat = true) :
    repeatStep program b start bound (fuel + 1) m = .ok (m, .breakpoint, none) := by
  rw [repeatStep, subtract_eq_ok hstart, ok_bind, if_neg (Nat.not_le.mpr hmore), if_pos hpause]
  rfl

variable (hpause : ¬ (0 < m.processor.executed - start ∧
    b.contains m.processor.pc.toNat = true))
  (hcount : (m.step program).1.processor.executed < 2 ^ 64)
include hpause hcount

theorem repeatStep_of_executed (hresult : (m.step program).2 = .executed) :
    repeatStep program b start bound (fuel + 1) m =
      repeatStep program b start bound fuel (m.step program).1 := by
  rw [repeatStep, subtract_eq_ok hstart, ok_bind, if_neg (Nat.not_le.mpr hmore), if_neg hpause,
    step_eq_ok m hcount, ok_bind]
  generalize m.step program = r at hresult ⊢
  obtain ⟨m', result⟩ := r
  obtain rfl : result = .executed := hresult
  rfl

theorem repeatStep_of_halted (hresult : (m.step program).2 ≠ .executed) :
    repeatStep program b start bound (fuel + 1) m =
      .ok ((m.step program).1, .halted, (m.step program).2.fault?) := by
  rw [repeatStep, subtract_eq_ok hstart, ok_bind, if_neg (Nat.not_le.mpr hmore), if_neg hpause,
    step_eq_ok m hcount, ok_bind]
  generalize m.step program = r at hresult ⊢
  obtain ⟨m', result⟩ := r
  cases result with
  | executed => exact absurd rfl hresult
  | halted => rfl
  | faulted fault => rfl

end Iteration

/-- A run is fresh as long as it has counted nothing. -/
theorem pauses_iff {start : Nat} {fresh : Bool} (hstart : start ≤ m.processor.executed)
    (hfresh : fresh = true ↔ m.processor.executed = start) :
    (0 < m.processor.executed - start ∧ b.contains m.processor.pc.toNat = true) ↔
      (!fresh && b.contains m.processor.pc.toNat) = true := by
  have hcounted : 0 < m.processor.executed - start ↔ fresh = false := by
    rw [← Bool.not_eq_true, hfresh]
    omega
  simp [hcounted]

/-- The checked run compares counts where the plain one counts down, and agrees with it as long as
the final count is in range. -/
theorem repeatStep_eq_ok {start fuel : Nat} {fresh : Bool} (hfuel : limit < fuel)
    (hstart : start ≤ m.processor.executed) (hfresh : fresh = true ↔ m.processor.executed = start)
    (hcount : (Machine.repeatStep program b limit fresh m).1.processor.executed < 2 ^ 64) :
    repeatStep program b start (m.processor.executed - start + limit) fuel m =
      .ok (Machine.repeatStep program b limit fresh m) := by
  obtain ⟨fuel, rfl⟩ : ∃ k, fuel = k + 1 := ⟨fuel - 1, by omega⟩
  induction limit generalizing fuel fresh m with
  | zero => exact repeatStep_of_full hstart (Nat.le_refl _)
  | succ limit ih =>
    have hmore : m.processor.executed - start < m.processor.executed - start + (limit + 1) := by
      omega
    cases hpause : !fresh && b.contains m.processor.pc.toNat with
    | true =>
      rw [Machine.repeatStep_of_paused hpause]
      exact repeatStep_of_paused hstart hmore ((pauses_iff hstart hfresh).mpr hpause)
    | false =>
      have hgoes := mt (pauses_iff hstart hfresh).mp (Bool.eq_false_iff.mp hpause)
      rcases m.step_counts program with ⟨hresult, -, hnext⟩ | ⟨hresult, -, -⟩
      · rw [Machine.repeatStep_of_executed hpause hresult] at hcount ⊢
        have hbound : (m.step program).1.processor.executed < 2 ^ 64 :=
          Nat.lt_of_le_of_lt (executed_le_repeatStep false) hcount
        have hdone : m.processor.executed - start + (limit + 1) =
            (m.step program).1.processor.executed - start + limit := by omega
        have hstale : false = true ↔ (m.step program).1.processor.executed = start :=
          ⟨Bool.noConfusion, fun hsame => by omega⟩
        obtain ⟨fuel, rfl⟩ : ∃ k, fuel = k + 1 := ⟨fuel - 1, by omega⟩
        rw [repeatStep_of_executed hstart hmore hgoes hbound hresult, hdone]
        exact ih (by omega) hstale hcount fuel (by omega)
      · rw [Machine.repeatStep_of_halted hpause hresult] at hcount ⊢
        exact repeatStep_of_halted hstart hmore hgoes hcount hresult

/-- A run fails only where its count would leave sixty-four bits. -/
theorem run_eq_ok (h : (m.run program b limit).1.processor.executed < 2 ^ 64) :
    run program b limit m = .ok (m.run program b limit) := by
  unfold run Machine.run at *
  split
  · rfl
  · rename_i hactive
    rw [if_neg hactive] at h
    have hfinal : (Machine.repeatStep program b limit true
        (m.setStatus .running)).1.processor.executed < 2 ^ 64 := by
      dsimp only at h
      split at h
      · exact h
      · exact h
    have hloop : repeatStep program b m.processor.executed
        (m.processor.executed - m.processor.executed + limit) (limit + 1)
        (m.setStatus .running) = .ok _ :=
      repeatStep_eq_ok (Nat.lt_succ_self limit) (Nat.le_refl _) ⟨fun _ => rfl, fun _ => rfl⟩ hfinal
    have hlater : m.processor.executed ≤ (Machine.repeatStep program b limit true
        (m.setStatus .running)).1.processor.executed :=
      executed_le_repeatStep (m := m.setStatus .running) true
    rw [Nat.sub_self, Nat.zero_add] at hloop
    rw [hloop, ok_bind]
    dsimp only
    rw [subtract_eq_ok hlater]
    rfl

end Runs

end ByteMachine.Checked
