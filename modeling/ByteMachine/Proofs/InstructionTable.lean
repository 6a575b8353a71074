import ByteMachine.Proofs.HaltReasons

/-!
# The instruction table

What each instruction does is said once, in exact arithmetic and with respect to the registers as
they are before: the byte that it computes with its carry, or the byte that it copies, and the one
register that takes it; the one access of the memory; where the machine goes on. A step of a word
that decodes does what the table says and nothing else, unless the instruction faults, and of the
memory it depends on no more than the byte that the access answers.
-/
namespace ByteMachine

def Sums (a b res : UInt8) (carry : Bool) : Prop :=
  res.toNat + 256 * carry.toNat = a.toNat + b.toNat

/-- The difference of two bytes is the result, less 256 for a borrow, which is no carry. -/
def Differs (a b res : UInt8) (carry : Bool) : Prop :=
  (a.toNat : Int) - b.toNat = res.toNat - 256 * (1 - carry.toNat)

def Combines (op : Bool → Bool → Bool) (a b res : UInt8) : Prop :=
  ∀ k < 8, res.toNat.testBit k = op (a.toNat.testBit k) (b.toNat.testBit k)

def Addresses (base : UInt8) (offset : Int8) (address : UInt8) : Prop :=
  (address.toNat : Int) = (base.toNat + offset.toInt) % 256

/-- The instructions that compute a byte: the register that takes it, if any, the byte and the
carry. -/
inductive Computes (p : Processor) : Instruction → Option UInt8 → UInt8 → Bool → Prop
  | add {a b c res carry} (h : Sums (p.read a) (p.read b) res carry) :
      Computes p ⟨.add, .regRegReg a b c⟩ (some c) res carry
  | adi {a imm res carry} (h : Sums (p.read a) imm res carry) :
      Computes p ⟨.adi, .regImm8 a imm⟩ (some a) res carry
  | inc {a res carry} (h : Sums (p.read a) 1 res carry) :
      Computes p ⟨.inc, .reg a⟩ (some a) res carry
  | sub {a b c res carry} (h : Differs (p.read a) (p.read b) res carry) :
      Computes p ⟨.sub, .regRegReg a b c⟩ (some c) res carry
  | cmp {a b res carry} (h : Differs (p.read a) (p.read b) res carry) :
      Computes p ⟨.cmp, .regReg a b⟩ none res carry
  | dec {a res carry} (h : Differs (p.read a) 1 res carry) :
      Computes p ⟨.dec, .reg a⟩ (some a) res carry
  | rsh {a c res carry} (h : (p.read a).toNat = 2 * res.toNat + carry.toNat) :
      Computes p ⟨.rsh, .regReg a c⟩ (some c) res carry
  | lsh {a c res carry} (h : 2 * (p.read a).toNat = res.toNat + 256 * carry.toNat) :
      Computes p ⟨.lsh, .regReg a c⟩ (some c) res carry
  | nor {a b c res} (h : Combines (fun x y => !(x || y)) (p.read a) (p.read b) res) :
      Computes p ⟨.nor, .regRegReg a b c⟩ (some c) res false
  | and {a b c res} (h : Combines (· && ·) (p.read a) (p.read b) res) :
      Computes p ⟨.and, .regRegReg a b c⟩ (some c) res false
  | xor {a b c res} (h : Combines (· ^^ ·) (p.read a) (p.read b) res) :
      Computes p ⟨.xor, .regRegReg a b c⟩ (some c) res false
  | not {a res} (h : Combines (fun x _ => !x) (p.read a) (p.read a) res) :
      Computes p ⟨.not, .reg a⟩ (some a) res false
  | neg {a res} (h : (res.toNat : Int) = -((p.read a).toNat : Int) % 256) :
      Computes p ⟨.neg, .reg a⟩ (some a) res false

inductive Copies (m : Machine) : Instruction → UInt8 → UInt8 → Prop
  | mov {a b} : Copies m ⟨.mov, .regReg a b⟩ a (m.read b)
  | ldi {a imm} : Copies m ⟨.ldi, .regImm8 a imm⟩ a imm
  | lod {a b offset address} (h : Addresses (m.read b) offset address) :
      Copies m ⟨.lod, .regRegOffset a b offset⟩ a (m.memory.load address).1

/-- The register, if any, takes the byte unless it is the first, and the others stay. -/
def Puts (p p' : Processor) (target : Option UInt8) (value : UInt8) : Prop :=
  ∀ (r : UInt8) (hr : r.toNat < 16), p'.registers[r.toNat] =
    if target = some r ∧ r ≠ 0 then value else p.registers[r.toNat]

inductive Writes (m : Machine) (i : Instruction) (p' : Processor) : Prop
  | computes {target : Option UInt8} {res : UInt8}
      (h : Computes m.processor i target res p'.flags.carry)
      (hzero : p'.flags.zero = true ↔ res = 0) (hputs : Puts m.processor p' target res)
  | copies {target res : UInt8} (h : Copies m i target res)
      (hflags : p'.flags = m.processor.flags) (hputs : Puts m.processor p' (some target) res)
  | nothing (hi : i.mnemonic ∈ [.nop, .hlt, .jmp, .brh, .cal, .ret, .str])
      (hflags : p'.flags = m.processor.flags) (hregisters : p'.registers = m.processor.registers)

def Condition.Met (f : Flags) : Condition → Prop
  | zero => f.zero = true
  | notZero => f.zero = false
  | carry => f.carry = true
  | notCarry => f.carry = false

inductive GoesOn (i : Instruction) (p p' : Processor) : Prop
  | next (hi : i.mnemonic ∉ [.hlt, .jmp, .brh, .cal, .ret]) (hpc : p'.pc = p.pc + 1)
      (hcalls : p'.calls = p.calls) (hstatus : p'.status = p.status)
  | stay (hi : i = ⟨.hlt, .none⟩) (hpc : p'.pc = p.pc) (hcalls : p'.calls = p.calls)
      (hstatus : p'.status = .halted)
  | jump {address : UInt16} (hi : i = ⟨.jmp, .addr10 address⟩) (hpc : p'.pc = address)
      (hcalls : p'.calls = p.calls) (hstatus : p'.status = p.status)
  | branch {cond : Condition} {address : UInt16} (hi : i = ⟨.brh, .condAddr10 cond address⟩)
      (hmet : cond.Met p.flags → p'.pc = address) (hunmet : ¬ cond.Met p.flags → p'.pc = p.pc + 1)
      (hcalls : p'.calls = p.calls) (hstatus : p'.status = p.status)
  | call {address : UInt16} (hi : i = ⟨.cal, .addr10 address⟩) (hpc : p'.pc = address)
      (hcalls : p'.calls = (p.pc + 1) :: p.calls) (hstatus : p'.status = p.status)
  | leave (hi : i = ⟨.ret, .none⟩) (hcalls : p.calls = p'.pc :: p'.calls)
      (hstatus : p'.status = p.status)

inductive Access where
  | none
  | load (address : UInt8)
  | store (address value : UInt8)

namespace Access

def answer (memory : Memory) : Access → Option UInt8
  | load address => some (memory.load address).1
  | _ => Option.none

def after (memory : Memory) : Access → Memory
  | none => memory
  | load address => (memory.load address).2
  | store address value => memory.store address value

end Access

inductive Accesses (p : Processor) : Instruction → Access → Prop
  | none {i} (hload : i.mnemonic ≠ .lod) (hstore : i.mnemonic ≠ .str) : Accesses p i .none
  | load {a b offset address} (h : Addresses (p.read b) offset address) :
      Accesses p ⟨.lod, .regRegOffset a b offset⟩ (.load address)
  | store {a b offset address} (h : Addresses (p.read b) offset address) :
      Accesses p ⟨.str, .regRegOffset a b offset⟩ (.store address (p.read a))

inductive FaultsWith (p : Processor) (i : Instruction) : Fault → Prop
  | full (hi : i.mnemonic = .cal) (hcalls : 16 ≤ p.calls.length) :
      FaultsWith p i (.callStackOverflow p.pc)
  | empty (hi : i.mnemonic = .ret) (hcalls : p.calls = []) :
      FaultsWith p i (.callStackUnderflow p.pc)

structure Executed (m : Machine) (i : Instruction) (m' : Machine) : Prop where
  writes : Writes m i m'.processor
  goesOn : GoesOn i m.processor m'.processor
  executed : m'.processor.executed = m.processor.executed + 1
  last : m'.processor.last = some m.processor.pc

/-- A step does what the table says of an instruction. It makes one access of the memory: with any
other memory that answers this access alike the step is the same. -/
structure ByTable (program : Program) (m : Machine) (i : Instruction) : Prop where
  reads (r : UInt8) (hr : r.toNat < 16) :
    m.read r = if r = 0 then 0 else m.processor.registers[r.toNat]
  access : ∃ access, Accesses m.processor i access ∧
    ∀ memory, access.answer memory = access.answer m.memory →
      ({ m with memory } : Machine).step program =
        ({ (m.step program).1 with memory := access.after memory }, (m.step program).2)
  faulted (fault : Fault) :
    FaultsWith m.processor i fault → m.step program = (m.halt, .faulted fault)
  executed : (∀ fault, ¬ FaultsWith m.processor i fault) → Executed m i (m.step program).1 ∧
    (m.step program).2 = if i.mnemonic = .hlt then .halted else .executed

section Arithmetic
variable (a b : UInt8)

theorem Flagged.sums : Sums a b (sum a b).value (sum a b).flags.carry := by
  have ha : a.toNat < 256 := a.toNat_lt
  have hb : b.toNat < 256 := b.toNat_lt
  simp only [Sums, sum, ofCarry, UInt8.toNat_add]
  by_cases h : 256 ≤ a.toNat + b.toNat
  · simp only [h, decide_true, Bool.toNat_true]
    omega
  · simp only [h, decide_false, Bool.toNat_false]
    omega

theorem Flagged.differs : Differs a b (difference a b).value (difference a b).flags.carry := by
  have ha : a.toNat < 256 := a.toNat_lt
  have hb : b.toNat < 256 := b.toNat_lt
  simp only [Differs, difference, ofCarry, UInt8.toNat_sub, UInt8.le_iff_toNat_le]
  by_cases h : b.toNat ≤ a.toNat
  · simp only [h, decide_true, Bool.toNat_true]
    omega
  · simp only [h, decide_false, Bool.toNat_false]
    omega

theorem Flagged.halves : a.toNat =
    2 * (shiftRight a).value.toNat + (shiftRight a).flags.carry.toNat := by
  simp only [shiftRight, ofCarry, UInt8.toNat_shiftRight, UInt8.toNat_one, Nat.one_mod,
    Nat.shiftRight_succ, Nat.shiftRight_zero]
  by_cases h : a.toNat % 2 = 1
  · simp only [h, decide_true, Bool.toNat_true]
    omega
  · simp only [h, decide_false, Bool.toNat_false]
    omega

theorem Flagged.doubles : 2 * a.toNat =
    (shiftLeft a).value.toNat + 256 * (shiftLeft a).flags.carry.toNat := by
  have ha : a.toNat < 256 := a.toNat_lt
  simp only [shiftLeft, ofCarry, UInt8.toNat_shiftLeft, UInt8.toNat_one, Nat.one_mod,
    Nat.shiftLeft_succ, Nat.shiftLeft_zero]
  by_cases h : 128 ≤ a.toNat
  · simp only [h, decide_true, Bool.toNat_true]
    omega
  · simp only [h, decide_false, Bool.toNat_false]
    omega

theorem combines_not : Combines (fun x _ => !x) a b (~~~a) := by
  intro k hk
  have ha : a.toNat < 2 ^ 8 := a.toNat_lt
  have hnot : (~~~a).toNat = 2 ^ 8 - (a.toNat + 1) := by
    rw [UInt8.toNat_not, UInt8.size]
    omega
  rw [hnot, Nat.testBit_two_pow_sub_succ ha, decide_eq_true hk, Bool.true_and]

theorem combines_nor : Combines (fun x y => !(x || y)) a b (~~~(a ||| b)) := by
  intro k hk
  rw [combines_not (a ||| b) b k hk, UInt8.toNat_or, Nat.testBit_or]

theorem combines_and : Combines (· && ·) a b (a &&& b) := by
  intro k _
  rw [UInt8.toNat_and, Nat.testBit_and]

theorem combines_xor : Combines (· ^^ ·) a b (a ^^^ b) := by
  intro k _
  rw [UInt8.toNat_xor, Nat.testBit_xor]

theorem toNat_negated : ((-a).toNat : Int) = -(a.toNat : Int) % 256 := by
  have ha : a.toNat < 256 := a.toNat_lt
  rw [UInt8.toNat_neg, UInt8.size]
  omega

theorem addresses_iff (offset : Int8) (address : UInt8) :
    Addresses a offset address ↔ a + offset.toUInt8 = address := by
  have haddress : address.toNat < 256 := address.toNat_lt
  have hoffset : offset.toInt = Int.bmod offset.toUInt8.toNat 256 :=
    offset.toBitVec.toInt_eq_toNat_bmod
  have hmod : Int.bmod offset.toUInt8.toNat 256 % 256 = offset.toUInt8.toNat % 256 :=
    Int.bmod_emod
  rw [Addresses, hoffset, ← UInt8.toNat_inj, UInt8.toNat_add]
  omega

end Arithmetic

theorem Condition.holds_iff_met (c : Condition) (f : Flags) : c.holds f = true ↔ c.Met f := by
  cases c <;> simp [holds, Met]

theorem Processor.read_eq (p : Processor) (r : UInt8) (hr : r.toNat < 16) :
    p.read r = if r = 0 then 0 else p.registers[r.toNat] := by
  rw [read, Vector.getElem?_eq_getElem hr, Option.getD_some]

theorem Puts.none {p p' : Processor} (value : UInt8) (h : p'.registers = p.registers) :
    Puts p p' none value := by
  intro k _
  rw [if_neg (fun ht => nomatch ht.1), h]

theorem Processor.puts_write (p : Processor) (r value : UInt8) :
    Puts p (p.write r value) (some r) value := by
  intro k hk
  unfold write
  by_cases hr : r = 0
  · rw [if_pos hr, if_neg]
    rintro ⟨htarget, hk⟩
    exact hk ((Option.some.inj htarget).symm.trans hr)
  · rw [if_neg hr]
    dsimp only
    rw [Vector.getElem_setIfInBounds hk]
    by_cases hrk : r = k
    · subst hrk
      rw [if_pos rfl, if_pos ⟨rfl, hr⟩]
    · rw [if_neg (fun h => hrk (UInt8.toNat_inj.mp h)), if_neg]
      rintro ⟨htarget, -⟩
      exact hrk (Option.some.inj htarget)

theorem Processor.flags_write (p : Processor) (r value : UInt8) :
    (p.write r value).flags = p.flags := by
  unfold write
  by_cases hr : r = 0
  · rw [if_pos hr]
  · rw [if_neg hr]

namespace Machine
variable {m : Machine} {i : Instruction} {r : UInt8}

theorem writes_assign {value : UInt8} {carry : Bool}
    (h : Computes m.processor i (some r) value carry) :
    Writes m i (m.assign r (.ofCarry value carry)).proceed.processor := by
  obtain ⟨p', hp'⟩ : ∃ p', (m.assign r (.ofCarry value carry)).proceed.processor = p' := ⟨_, rfl⟩
  have hflags : p'.flags = ⟨value == 0, carry⟩ := hp' ▸ Processor.flags_write ..
  have hputs : Puts m.processor p' (some r) value := hp' ▸ Processor.puts_write _ r value
  have hcomputes : Computes m.processor i (some r) value p'.flags.carry := by
    rw [hflags]
    exact h
  rw [hp']
  refine .computes hcomputes ?_ hputs
  rw [hflags]
  exact beq_iff_eq

theorem writes_write {value : UInt8} {memory : Memory} (h : Copies m i r value) :
    Writes m i (({ m with memory } : Machine).write r value).proceed.processor :=
  .copies h (Processor.flags_write ..) (Processor.puts_write _ r value)

/-- An instruction writes what the table says. The cases are those of the instruction set. -/
theorem writes_execute {m' : Machine} (h : m.execute i = .ok m') : Writes m i m'.processor := by
  obtain ⟨mnemonic, operands⟩ := i
  cases mnemonic <;> cases operands
  case cal.addr10 address =>
    simp only [execute, call_eq] at h
    obtain ⟨-, rfl⟩ := (guard_eq_ok_iff ..).mp h
    exact .nothing (by simp) rfl rfl
  case ret.none =>
    simp only [execute, return?_eq] at h
    split at h
    · cases h
    · obtain rfl := Except.ok.inj h
      exact .nothing (by simp) rfl rfl
  case brh.condAddr10 cond address =>
    obtain rfl := Except.ok.inj h
    split
    · exact .nothing (by simp) rfl rfl
    · exact .nothing (by simp) rfl rfl
  all_goals obtain rfl := Except.ok.inj h
  case add.regRegReg a b c => exact writes_assign (.add (Flagged.sums ..))
  case adi.regImm8 a imm => exact writes_assign (.adi (Flagged.sums ..))
  case inc.reg a => exact writes_assign (.inc (Flagged.sums ..))
  case sub.regRegReg a b c => exact writes_assign (.sub (Flagged.differs ..))
  case dec.reg a => exact writes_assign (.dec (Flagged.differs ..))
  case rsh.regReg a c => exact writes_assign (.rsh (Flagged.halves ..))
  case lsh.regReg a c => exact writes_assign (.lsh (Flagged.doubles ..))
  case nor.regRegReg a b c => exact writes_assign (.nor (combines_nor (m.read a) (m.read b)))
  case and.regRegReg a b c => exact writes_assign (.and (combines_and (m.read a) (m.read b)))
  case xor.regRegReg a b c => exact writes_assign (.xor (combines_xor (m.read a) (m.read b)))
  case not.reg a => exact writes_assign (.not (combines_not (m.read a) (m.read a)))
  case neg.reg a => exact writes_assign (.neg (toNat_negated ..))
  case cmp.regReg a b =>
    exact .computes (.cmp (Flagged.differs ..)) beq_iff_eq (.none _ rfl)
  case mov.regReg a b => exact writes_write .mov
  case ldi.regImm8 a imm => exact writes_write .ldi
  case lod.regRegOffset a b offset => exact writes_write (.lod ((addresses_iff ..).mpr rfl))
  all_goals exact .nothing (by simp) rfl rfl

theorem goesOn_proceed {m' : Machine} (hi : i.mnemonic ∉ [.hlt, .jmp, .brh, .cal, .ret])
    (h : Keeps m.processor m'.processor) : GoesOn i m.processor m'.proceed.processor :=
  .next hi (congrArg (· + 1) h.pc) h.calls h.status

/-- An instruction goes on where the table says. -/
theorem goesOn_execute {m' : Machine} (h : m.execute i = .ok m') :
    GoesOn i m.processor m'.processor := by
  obtain ⟨mnemonic, operands⟩ := i
  cases mnemonic <;> cases operands
  case hlt.none =>
    obtain rfl := Except.ok.inj h
    exact .stay rfl rfl rfl rfl
  case jmp.addr10 address =>
    obtain rfl := Except.ok.inj h
    exact .jump rfl rfl rfl rfl
  case brh.condAddr10 cond address =>
    obtain rfl := Except.ok.inj h
    have hmet := cond.holds_iff_met m.processor.flags
    by_cases hcond : cond.holds m.processor.flags = true
    · rw [if_pos hcond]
      exact .branch rfl (fun _ => rfl) (absurd (hmet.mp hcond)) rfl rfl
    · rw [if_neg hcond]
      exact .branch rfl (fun h => absurd (hmet.mpr h) hcond) (fun _ => rfl) rfl rfl
  case cal.addr10 address =>
    simp only [execute, call_eq] at h
    obtain ⟨-, rfl⟩ := (guard_eq_ok_iff ..).mp h
    exact .call rfl rfl rfl rfl
  case ret.none =>
    simp only [execute, return?_eq] at h
    split at h
    · cases h
    · rename_i address calls hcalls
      obtain rfl := Except.ok.inj h
      exact .leave rfl hcalls rfl
  -- the other instructions write a register, the flags or the memory and go on
  all_goals
    obtain rfl := Except.ok.inj h
    apply goesOn_proceed (by simp)
    first
      | exact keeps_assign ..
      | exact keeps_write ..
      | exact .refl _
      | exact keeps_setFlags ..

/-- To count an instruction changes nothing that it wrote. -/
theorem writes_count {m' : Machine} (h : Writes m i m'.processor) (address : UInt16) :
    Writes m i (m'.count address).processor := by
  cases h with
  | computes h hzero hputs => exact .computes h hzero hputs
  | copies h hflags hputs => exact .copies h hflags hputs
  | nothing hi hflags hregisters => exact .nothing hi hflags hregisters

theorem goesOn_count {m' : Machine} (h : GoesOn i m.processor m'.processor) (address : UInt16) :
    GoesOn i m.processor (m'.count address).processor := by
  cases h with
  | next hi hpc hcalls hstatus => exact .next hi hpc hcalls hstatus
  | stay hi hpc hcalls hstatus => exact .stay hi hpc hcalls hstatus
  | jump hi hpc hcalls hstatus => exact .jump hi hpc hcalls hstatus
  | branch hi hmet hunmet hcalls hstatus => exact .branch hi hmet hunmet hcalls hstatus
  | call hi hpc hcalls hstatus => exact .call hi hpc hcalls hstatus
  | leave hi hcalls hstatus => exact .leave hi hcalls hstatus

theorem faultsWith_of_execute {fault : Fault} {left : Machine}
    (h : m.execute i = .error (fault, left)) : FaultsWith m.processor i fault := by
  rcases (fault_of_execute h).2 with ⟨hi, hdepth, rfl⟩ | ⟨hi, hcalls, rfl⟩
  · exact .full hi hdepth
  · exact .empty hi hcalls

theorem execute_of_faultsWith {fault : Fault} (h : FaultsWith m.processor i fault) :
    m.execute i = .error (fault, m) := by
  obtain ⟨mnemonic, operands⟩ := i
  cases h with
  | full hi hdepth =>
    obtain rfl : mnemonic = .cal := hi
    cases operands
    exact (m.call_eq _).trans (if_neg (Nat.not_lt.mpr hdepth))
  | empty hi hcalls =>
    obtain rfl : mnemonic = .ret := hi
    cases operands
    simp only [execute, return?_eq, hcalls]

section Memory
variable {access : Access} {memory : Memory}

/-- An instruction depends on the memory by the answer to its access, and the access is all that it
does to it. -/
theorem execute_of_answer (h : Accesses m.processor i access)
    (hanswer : access.answer memory = access.answer m.memory) :
    ({ m with memory } : Machine).execute i =
      mapMachine (fun m' => { m' with memory := access.after memory }) (m.execute i) := by
  cases h with
  | load haddress =>
    obtain rfl := (addresses_iff ..).mp haddress
    have hvalue := Option.some.inj hanswer
    exact congrArg (fun value => Except.ok
      (({ m with memory := (memory.load _).2 } : Machine).write _ value).proceed) hvalue
  | store haddress =>
    obtain rfl := (addresses_iff ..).mp haddress
    rfl
  | none hload hstore =>
    obtain ⟨mnemonic, operands⟩ := i
    cases mnemonic <;> cases operands
    case lod.regRegOffset => exact absurd rfl hload
    case str.regRegOffset => exact absurd rfl hstore
    case cal.addr10 address =>
      simp only [execute, call_eq]
      split
      · rfl
      · rfl
    case ret.none =>
      simp only [execute, return?_eq]
      split
      · rfl
      · rfl
    case brh.condAddr10 cond address =>
      simp only [execute]
      split
      · rfl
      · rfl
    all_goals rfl

/-- An instruction that cannot be executed makes no access. -/
theorem after_of_execute_error {fault : Fault} {left : Machine}
    (h : Accesses m.processor i access) (hexecute : m.execute i = .error (fault, left)) :
    access.after memory = memory := by
  cases h with
  | none => rfl
  | load | store =>
    rcases (fault_of_execute hexecute).2 with ⟨hi, -⟩ | ⟨hi, -⟩
    · cases hi
    · cases hi

theorem exists_accesses (p : Processor) (i : Instruction) : ∃ access, Accesses p i access := by
  obtain ⟨mnemonic, operands⟩ := i
  cases mnemonic <;> cases operands
  case lod.regRegOffset a b offset => exact ⟨_, .load ((addresses_iff ..).mpr rfl)⟩
  case str.regRegOffset a b offset => exact ⟨_, .store ((addresses_iff ..).mpr rfl)⟩
  all_goals exact ⟨_, .none (by simp) (by simp)⟩

theorem step_of_answer {program : Program} {word : UInt16} (hactive : m.isHalted = false)
    (hword : program.word? m.processor.pc.toNat = some word)
    (hdecode : Instruction.decode word = .ok i) (h : Accesses m.processor i access)
    (hanswer : access.answer memory = access.answer m.memory) :
    ({ m with memory } : Machine).step program =
      ({ (m.step program).1 with memory := access.after memory }, (m.step program).2) := by
  have hother := execute_of_answer h hanswer
  apply Stepped.eq
  cases hexecute : m.execute i with
  | error faulted =>
    obtain ⟨fault, left⟩ := faulted
    have hkept : access.after memory = memory := after_of_execute_error h hexecute
    rw [(fault_of_execute hexecute).1] at hexecute
    rw [hexecute, hkept] at hother
    rw [(Stepped.refused hactive word i fault hword hdecode hexecute).eq, hkept]
    exact .refused (m := { m with memory }) hactive word i fault hword hdecode hother
  | ok m' =>
    rw [hexecute] at hother
    rw [(Stepped.executed hactive word i m' hword hdecode hexecute).eq]
    exact .executed (m := { m with memory }) hactive word i _ hword hdecode hother

end Memory

theorem isHalted_of_hlt {m' : Machine} (hi : i.mnemonic = .hlt) (h : m.execute i = .ok m') :
    m'.isHalted = true := by
  obtain ⟨mnemonic, operands⟩ := i
  obtain rfl : mnemonic = .hlt := hi
  cases operands
  obtain rfl := Except.ok.inj h
  rfl

section Step
variable {program : Program} {word : UInt16} (hactive : m.isHalted = false)
  (hword : program.word? m.processor.pc.toNat = some word)
  (hdecode : Instruction.decode word = .ok i)

include hactive hword hdecode

theorem step_executed (hfaults : ∀ fault, ¬ FaultsWith m.processor i fault) :
    Executed m i (m.step program).1 ∧
      (m.step program).2 = if i.mnemonic = .hlt then .halted else .executed := by
  cases hexecute : m.execute i with
  | error faulted => exact absurd (faultsWith_of_execute hexecute) (hfaults faulted.1)
  | ok m' =>
    rw [(Stepped.executed hactive word i m' hword hdecode hexecute).eq]
    refine ⟨⟨writes_count (writes_execute hexecute) _, goesOn_count (goesOn_execute hexecute) _,
      congrArg (· + 1) (execute_effect hexecute).1.executed, rfl⟩, ?_⟩
    by_cases hi : i.mnemonic = .hlt
    · rw [if_pos hi, if_pos (isHalted_of_hlt hi hexecute)]
    · rw [if_neg hi, isHalted_execute m hi hexecute, hactive]
      rfl

/-- A step of a word that decodes does what the table says of its instruction. -/
theorem step_by_table : ByTable program m i := by
  obtain ⟨access, haccess⟩ := exists_accesses m.processor i
  refine ⟨m.processor.read_eq, ⟨access, haccess, fun memory => ?_⟩, ?_, ?_⟩
  · exact step_of_answer hactive hword hdecode haccess
  · intro fault hfaults
    exact (Stepped.refused hactive word i fault hword hdecode (execute_of_faultsWith hfaults)).eq
  · exact step_executed hactive hword hdecode

end Step

/-- A program that adds a register to itself and drops the sum. -/
def dropSum : Program := ⟨#[0x2110], #[0]⟩

def twoHundred : Machine :=
  { new (.new (some 0) default) with
    processor := { registers := (Vector.replicate 16 0).set 1 200 } }

/-- The sum leaves nothing but its carry. -/
theorem step_by_table_dropSum :
    twoHundred.isHalted = false ∧ dropSum.word? twoHundred.processor.pc.toNat = some 0x2110 ∧
      Instruction.decode 0x2110 = .ok ⟨.add, .regRegReg 1 1 0⟩ ∧
      ByTable dropSum twoHundred ⟨.add, .regRegReg 1 1 0⟩ ∧
      (twoHundred.step dropSum).1.processor.flags = ⟨false, true⟩ ∧
      (twoHundred.step dropSum).1.processor.registers = twoHundred.processor.registers := by
  have hdecode : Instruction.decode 0x2110 = .ok ⟨.add, .regRegReg 1 1 0⟩ := by decide +kernel
  exact ⟨rfl, rfl, hdecode, step_by_table rfl rfl hdecode, by decide +kernel, by decide +kernel⟩

end Machine

end ByteMachine
