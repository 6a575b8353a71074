import ByteMachine.Proofs.InstructionWords
import ByteMachine.Proofs.Numerals
import ByteMachine.Proofs.Tokens
import ByteMachine.Source.Assembly

/-!
# What the tokens of an instruction mean

The meaning of a token is a relation: a register token means its number, a condition token the
condition that it is an alias of, a value token the number that it writes or the value of the symbol
that it names. An operand field takes a value only within its range. The assembler reads tokens as
an instruction exactly when they mean that instruction, whatever symbols it knows.
-/
namespace ByteMachine

open Text

def DenotesRegister (token : Text) (r : UInt8) : Prop :=
  ∃ c digits, token.trim = c :: digits ∧ (c = 'r' ∨ c = 'R') ∧ Numeral 10 digits r.toNat ∧
    r.toNat ≤ 15

def DenotesCondition (token : Text) (c : Condition) : Prop :=
  ∃ a ∈ c.aliases, token.fold = a.toList

inductive DenotesValue (symbol : Text → Int → Prop) (token : Text) (v : Int) : Prop
  | literal (h : Literal token v)
  | symbol (name : Text) (htoken : token = name ∨ token = '.' :: name)
      (hname : name.isSymbolName = true) (h : symbol name v)

section Meaning
variable (symbol : Text → Int → Prop)

def DenotesImmediate (token : Text) (imm : UInt8) : Prop :=
  ∃ v, DenotesValue symbol token v ∧ -128 ≤ v ∧ v ≤ 255 ∧ (imm.toNat : Int) = v % 256

def DenotesAddress (token : Text) (addr : UInt16) : Prop :=
  ∃ v, DenotesValue symbol token v ∧ 0 ≤ v ∧ v ≤ 1023 ∧ (addr.toNat : Int) = v

def DenotesOffset (token : Text) (offset : Int8) : Prop :=
  ∃ v, DenotesValue symbol token v ∧ -8 ≤ v ∧ v ≤ 7 ∧ offset.toInt = v

/-- The tokens mean the operands, one by one and in order. An offset that is left out is zero. -/
inductive DenotesOperands : {shape : Shape} → List Text → Operands shape → Prop
  | none : DenotesOperands [] .none
  | reg {ta a} (ha : DenotesRegister ta a) : DenotesOperands [ta] (.reg a)
  | regReg {ta tb a b} (ha : DenotesRegister ta a) (hb : DenotesRegister tb b) :
      DenotesOperands [ta, tb] (.regReg a b)
  | regRegReg {ta tb tc a b c} (ha : DenotesRegister ta a) (hb : DenotesRegister tb b)
      (hc : DenotesRegister tc c) : DenotesOperands [ta, tb, tc] (.regRegReg a b c)
  | regImm8 {ta tv a imm} (ha : DenotesRegister ta a) (hv : DenotesImmediate symbol tv imm) :
      DenotesOperands [ta, tv] (.regImm8 a imm)
  | addr10 {tv addr} (hv : DenotesAddress symbol tv addr) : DenotesOperands [tv] (.addr10 addr)
  | condAddr10 {tc tv cond addr} (hc : DenotesCondition tc cond)
      (hv : DenotesAddress symbol tv addr) : DenotesOperands [tc, tv] (.condAddr10 cond addr)
  | regRegOnly {ta tb a b} (ha : DenotesRegister ta a) (hb : DenotesRegister tb b) :
      DenotesOperands [ta, tb] (.regRegOffset a b 0)
  | regRegOffset {ta tb tv a b offset} (ha : DenotesRegister ta a) (hb : DenotesRegister tb b)
      (hv : DenotesOffset symbol tv offset) :
      DenotesOperands [ta, tb, tv] (.regRegOffset a b offset)

def DenotesInstruction (mnemonic : Text) (tokens : List Text) (i : Instruction) : Prop :=
  mnemonic.fold = i.mnemonic.name.toList ∧ DenotesOperands symbol tokens i.operands

end Meaning

theorem looksLikeRegister_iff (token : Text) :
    token.looksLikeRegister = true ↔
      ∃ c digits, token.trim = c :: digits ∧ (c = 'r' ∨ c = 'R') ∧ digits ≠ [] ∧
        ∀ d ∈ digits, d.isDigit = true := by
  unfold looksLikeRegister
  split
  · rename_i c d rest htrim
    simp [htrim]
  · rename_i hshort
    constructor
    · simp
    · rintro ⟨c, digits, htrim, -, hne, -⟩
      obtain ⟨d, rest, rfl⟩ := List.exists_cons_of_ne_nil hne
      exact absurd htrim (hshort c d rest)

theorem register?_eq_some_iff (token : Text) (r : UInt8) :
    register? token = some r ↔ DenotesRegister token r := by
  have hsmall (n : Nat) : (if n < 16 then some (UInt8.ofNat n) else none) = some r ↔
      n = r.toNat ∧ r.toNat ≤ 15 := by
    rw [Option.ite_none_right_eq_some, Option.some.injEq, UInt8.ofNat_eq_iff_mod_eq_toNat]
    omega
  rw [register?, Option.ite_none_right_eq_some, looksLikeRegister_iff]
  simp only [Option.bind_eq_some_iff, hsmall, read?_eq_some_iff, DenotesRegister]
  constructor
  · rintro ⟨⟨c, digits, htrim, hc, -, -⟩, n, hn, rfl, hr⟩
    rw [htrim] at hn
    exact ⟨c, digits, htrim, hc, hn, hr⟩
  · rintro ⟨c, digits, htrim, hc, hn, hr⟩
    refine ⟨⟨c, digits, htrim, hc, hn.1, ?_⟩, r.toNat, ?_, rfl, hr⟩
    · exact fun d hd => (isDigit_iff_digit? d).mpr (hn.digit_of_mem hd)
    · rwa [htrim]

/-- A search for what only one member can be finds that member. -/
theorem find?_eq_some_iff_of_unique {α : Type} {p : α → Bool} {l : List α} {a : α} (ha : a ∈ l)
    (hunique : ∀ x, p x = true → p a = true → x = a) : l.find? p = some a ↔ p a = true := by
  constructor
  · exact List.find?_some
  · intro h
    cases hfind : l.find? p with
    | none => exact absurd h (List.find?_eq_none.mp hfind a ha)
    | some x => rw [hunique x (List.find?_some hfind) h]

theorem Condition.eq_of_mem_aliases {c c' : Condition} {a : String} (h : a ∈ c.aliases)
    (h' : a ∈ c'.aliases) : c = c' := by
  revert a
  cases c <;> cases c' <;> decide

theorem Condition.ofToken?_eq_some_iff (token : Text) (c : Condition) :
    ofToken? token = some c ↔ DenotesCondition token c := by
  have halias (c : Condition) : (c.aliases.any fun a => a.toList == token.fold) = true ↔
      DenotesCondition token c := by
    simp only [List.any_eq_true, beq_iff_eq, DenotesCondition]
    exact exists_congr fun a => and_congr_right fun _ => eq_comm
  rw [ofToken?, find?_eq_some_iff_of_unique (by cases c <;> decide), halias]
  intro c' hc' hc
  obtain ⟨a', ha', htoken'⟩ := (halias c').mp hc'
  obtain ⟨a, ha, htoken⟩ := (halias c).mp hc
  obtain rfl : a' = a := String.toList_inj.mp (htoken'.symm.trans htoken)
  exact eq_of_mem_aliases ha' ha

theorem Mnemonic.name_injective {m m' : Mnemonic} (h : m.name = m'.name) : m = m' := by
  have hname : ofName? m.name = some m := by cases m <;> decide
  have hname' : ofName? m'.name = some m' := by cases m' <;> decide
  rw [h, hname'] at hname
  exact (Option.some.inj hname).symm

theorem Mnemonic.fold_name (m : Mnemonic) : Text.fold m.name.toList = m.name.toList := by
  cases m <;> decide

theorem Mnemonic.ofToken?_eq_some_iff (token : Text) (m : Mnemonic) :
    ofToken? token = some m ↔ token.fold = m.name.toList := by
  have hname (m : Mnemonic) : token.sameFolded m.name.toList = true ↔
      token.fold = m.name.toList := by
    simp [sameFolded, fold_name]
  rw [ofToken?, find?_eq_some_iff_of_unique m.mem_all, hname]
  intro m' hm' hm
  rw [hname] at hm' hm
  exact name_injective (String.toList_inj.mp (hm'.symm.trans hm))

def Symbols.Binds (t : Symbols) (name : Text) (v : Int) : Prop :=
  ∃ b, t.find? name = some b ∧ b.value = v

theorem isAlpha_iff (c : Char) : c.isAlpha = true ↔
    (65 ≤ c.toNat ∧ c.toNat ≤ 90) ∨ (97 ≤ c.toNat ∧ c.toNat ≤ 122) := by
  change (decide (65 ≤ c.val ∧ c.val ≤ 90) ||
    (decide (97 ≤ c.val) && decide (c.val ≤ 122))) = true ↔ _
  simp [UInt32.le_iff_toNat_le]

theorem isDigit_iff (c : Char) : c.isDigit = true ↔ 48 ≤ c.toNat ∧ c.toNat ≤ 57 := by
  change (decide (48 ≤ c.val) && decide (c.val ≤ 57)) = true ↔ _
  simp [UInt32.le_iff_toNat_le]

theorem not_isBlank_of_isAlphanum {c : Char} (h : c.isAlphanum = true) : isBlank c = false := by
  have hkind : c.isAlpha = true ∨ c.isDigit = true := Bool.or_eq_true_iff.mp h
  rw [isAlpha_iff, isDigit_iff] at hkind
  simp only [isBlank, Bool.or_eq_false_iff, Bool.and_eq_false_iff, decide_eq_false_iff_not,
    beq_eq_false_iff_ne]
  omega

theorem not_isDigit_of_isAlpha {c : Char} (h : c.isAlpha = true) : ¬ c.isDigit = true := by
  rw [isAlpha_iff] at h
  rw [isDigit_iff]
  omega

theorem isSymbolName_cons {name : Text} (h : name.isSymbolName = true) :
    ∃ c rest, name = c :: rest ∧ (c.isAlpha = true ∨ c = '_') ∧
      ∀ d ∈ name, d.isAlphanum = true ∨ d = '_' := by
  cases name with
  | nil => cases h
  | cons c rest =>
    simp only [isSymbolName, Bool.and_eq_true, Bool.or_eq_true, beq_iff_eq, List.all_eq_true] at h
    refine ⟨c, rest, rfl, h.1, ?_⟩
    intro d hd
    rcases List.mem_cons.mp hd with rfl | hmem
    · exact h.1.imp_left fun halpha => by simp [Char.isAlphanum, halpha]
    · exact h.2 d hmem

theorem not_isBlank_of_isSymbolName {name : Text} (h : name.isSymbolName = true) :
    ∀ c ∈ name, isBlank c = false := by
  obtain ⟨-, -, -, -, hall⟩ := isSymbolName_cons h
  intro c hc
  rcases hall c hc with halnum | rfl
  · exact not_isBlank_of_isAlphanum halnum
  · decide

/-- No symbol name is a literal, and a point before the name does not make it one. -/
theorem literal?_symbolName {name token : Text} (h : name.isSymbolName = true)
    (htoken : token = name ∨ token = '.' :: name) : token.literal? = none := by
  have hblank := not_isBlank_of_isSymbolName h
  have htrim : token.trim = token := by
    apply trim_eq_self_of_forall
    rcases htoken with rfl | rfl
    · exact hblank
    · exact List.forall_mem_cons.mpr ⟨by decide, hblank⟩
  obtain ⟨c, rest, rfl, hc, -⟩ := isSymbolName_cons h
  rw [Option.eq_none_iff_forall_ne_some]
  intro v hv
  obtain ⟨d, _, hd, hfirst⟩ := ((literal?_eq_some_iff token v).mp hv).head
  rw [htrim] at hd
  -- a literal begins with a digit or a minus, a symbol name with neither
  rcases htoken with rfl | rfl
  · obtain rfl : c = d := (List.cons.inj hd).1
    rcases hc with halpha | rfl
    · rcases hfirst with rfl | hdigit
      · exact absurd halpha (by decide)
      · exact not_isDigit_of_isAlpha halpha hdigit
    · exact absurd hfirst (by decide)
  · obtain rfl : '.' = d := (List.cons.inj hd).1
    exact absurd hfirst (by decide)

/-- A token that is no literal resolves as the one symbol name that it can be. -/
theorem resolveName_eq_ok_iff {t : Symbols} {token name : Text} (hliteral : token.literal? = none)
    (htoken : token = name ∨ token = '.' :: name)
    (hunique : ∀ n : Text, n.isSymbolName = true → token = n ∨ token = '.' :: n → n = name)
    (v : Int) :
    (if !name.isSymbolName then .error (.invalidLiteral token)
      else match t.find? name with
        | some binding => .ok binding.value
        | none => .error (.undefinedSymbol token) : Except SourceError Int) = .ok v ↔
      DenotesValue t.Binds token v := by
  constructor
  · intro h
    split at h
    · cases h
    · rename_i hname
      split at h
      · rename_i b hb
        exact .symbol name htoken (by simpa using hname) ⟨b, hb, Except.ok.inj h⟩
      · cases h
  · rintro (h | ⟨n, hn, hname, b, hb, rfl⟩)
    · rw [(literal?_eq_some_iff ..).mpr h] at hliteral
      cases hliteral
    · obtain rfl := hunique n hname hn
      simp [hname, hb]

theorem resolve_eq_ok_iff (t : Symbols) (token : Text) (v : Int) :
    t.resolve token = .ok v ↔ DenotesValue t.Binds token v := by
  unfold Symbols.resolve
  cases hliteral : token.literal? with
  | some v' =>
    simp only [Except.ok.injEq]
    constructor
    · rintro rfl
      exact .literal ((literal?_eq_some_iff ..).mp hliteral)
    · rintro (h | ⟨name, htoken, hname, -⟩)
      · rw [(literal?_eq_some_iff ..).mpr h] at hliteral
        exact (Option.some.inj hliteral).symm
      · rw [literal?_symbolName hname htoken] at hliteral
        cases hliteral
  | none =>
    dsimp only
    split
    · rename_i name
      refine resolveName_eq_ok_iff hliteral (.inr rfl) ?_ v
      rintro n hn (rfl | h)
      · cases hn
      · exact (List.cons.inj h).2.symm
    · rename_i hpoint
      refine resolveName_eq_ok_iff hliteral (.inl rfl) ?_ v
      rintro n hn (rfl | h)
      · rfl
      · exact (hpoint n h).elim

theorem checkRange_eq_ok_iff (context : String) (low high value v : Int) :
    checkRange context low high value = .ok v ↔ low ≤ value ∧ value ≤ high ∧ v = value := by
  unfold checkRange
  split
  · simp only [reduceCtorEq, false_iff]
    omega
  · rw [Except.ok.injEq]
    omega

theorem readRegister_eq_ok_iff (token : Text) (r : UInt8) :
    Symbols.readRegister token = .ok r ↔ DenotesRegister token r := by
  rw [← register?_eq_some_iff, Symbols.readRegister]
  cases token.register? with
  | some r' => simp
  | none => by_cases h : token.looksLikeRegister <;> simp [h]

theorem readCondition_eq_ok_iff (token : Text) (c : Condition) :
    Symbols.readCondition token = .ok c ↔ DenotesCondition token c := by
  rw [← Condition.ofToken?_eq_some_iff, Symbols.readCondition]
  cases Condition.ofToken? token <;> simp

theorem readImmediate_eq_ok_iff (t : Symbols) (m : Mnemonic) (token : Text) (imm : UInt8) :
    t.readImmediate m token = .ok imm ↔ DenotesImmediate t.Binds token imm := by
  simp only [Symbols.readImmediate, bind_eq_ok_iff, resolve_eq_ok_iff, checkRange_eq_ok_iff, pure,
    Except.pure, Except.ok.injEq, UInt8.ofNat_eq_iff_mod_eq_toNat, DenotesImmediate]
  constructor
  · rintro ⟨v, hv, _, ⟨hlow, hhigh, rfl⟩, himm⟩
    exact ⟨_, hv, hlow, hhigh, by omega⟩
  · rintro ⟨v, hv, hlow, hhigh, himm⟩
    exact ⟨v, hv, v, ⟨hlow, hhigh, rfl⟩, by omega⟩

theorem readAddress_eq_ok_iff (t : Symbols) (m : Mnemonic) (token : Text) (addr : UInt16) :
    t.readAddress m token = .ok addr ↔ DenotesAddress t.Binds token addr := by
  simp only [Symbols.readAddress, bind_eq_ok_iff, resolve_eq_ok_iff, checkRange_eq_ok_iff, pure,
    Except.pure, Except.ok.injEq, UInt16.ofNat_eq_iff_mod_eq_toNat, DenotesAddress, programLimit]
  constructor
  · rintro ⟨v, hv, _, ⟨hlow, hhigh, rfl⟩, haddr⟩
    exact ⟨_, hv, hlow, by omega, by omega⟩
  · rintro ⟨v, hv, hlow, hhigh, haddr⟩
    exact ⟨v, hv, v, ⟨hlow, by omega, rfl⟩, by omega⟩

theorem readOffset_eq_ok_iff (t : Symbols) (m : Mnemonic) (token : Text) (offset : Int8) :
    t.readOffset m token = .ok offset ↔ DenotesOffset t.Binds token offset := by
  have hbyte (v : Int) (hlow : -8 ≤ v) (hhigh : v ≤ 7) :
      Int8.ofInt v = offset ↔ offset.toInt = v := by
    rw [← Int8.toInt_inj, Int8.toInt_ofInt, Int.bmod_eq_of_le]
    · exact eq_comm
    · simp only [Int8.size]; omega
    · simp only [Int8.size]; omega
  simp only [Symbols.readOffset, bind_eq_ok_iff, resolve_eq_ok_iff, checkRange_eq_ok_iff, pure,
    Except.pure, Except.ok.injEq, DenotesOffset]
  constructor
  · rintro ⟨v, hv, _, ⟨hlow, hhigh, rfl⟩, hoffset⟩
    exact ⟨_, hv, hlow, hhigh, (hbyte _ hlow hhigh).mp hoffset⟩
  · rintro ⟨v, hv, hlow, hhigh, hoffset⟩
    exact ⟨v, hv, v, ⟨hlow, hhigh, rfl⟩, (hbyte v hlow hhigh).mpr hoffset⟩

theorem readOperands_eq_ok_iff (t : Symbols) (m : Mnemonic) {shape : Shape} (tokens : List Text)
    (ops : Operands shape) :
    t.readOperands m shape tokens = .ok ops ↔ DenotesOperands t.Binds tokens ops := by
  constructor
  · intro h
    unfold Symbols.readOperands at h
    split at h <;>
      simp only [bind_eq_ok_iff, readRegister_eq_ok_iff, readCondition_eq_ok_iff,
        readImmediate_eq_ok_iff, readAddress_eq_ok_iff, readOffset_eq_ok_iff, pure, Except.pure,
        Except.ok.injEq, reduceCtorEq] at h
    · subst h
      exact .none
    · obtain ⟨a, ha, rfl⟩ := h
      exact .reg ha
    · obtain ⟨a, ha, b, hb, rfl⟩ := h
      exact .regReg ha hb
    · obtain ⟨a, ha, b, hb, c, hc, rfl⟩ := h
      exact .regRegReg ha hb hc
    · obtain ⟨a, ha, imm, himm, rfl⟩ := h
      exact .regImm8 ha himm
    · obtain ⟨addr, haddr, rfl⟩ := h
      exact .addr10 haddr
    · obtain ⟨cond, hcond, addr, haddr, rfl⟩ := h
      exact .condAddr10 hcond haddr
    · obtain ⟨a, ha, b, hb, rfl⟩ := h
      exact .regRegOnly ha hb
    · obtain ⟨a, ha, b, hb, offset, hoffset, rfl⟩ := h
      exact .regRegOffset ha hb hoffset
  · intro h
    cases h <;>
      simp_all only [← readRegister_eq_ok_iff, ← readCondition_eq_ok_iff,
        ← readImmediate_eq_ok_iff t m, ← readAddress_eq_ok_iff t m, ← readOffset_eq_ok_iff t m,
        Symbols.readOperands] <;>
      rfl

theorem readInstruction_eq_ok_iff (t : Symbols) (code : Text) (i : Instruction) :
    t.readInstruction code = .ok i ↔
      DenotesInstruction t.Binds code.splitHead.1 code.splitHead.2.operandTokens i := by
  obtain ⟨m, ops⟩ := i
  simp only [Symbols.readInstruction, DenotesInstruction, ← Mnemonic.ofToken?_eq_some_iff]
  cases Mnemonic.ofToken? code.splitHead.1 with
  | none => simp
  | some m' =>
    simp only [bind_eq_ok_iff, readOperands_eq_ok_iff, Instruction.build?_mk, pure, Except.pure,
      Except.ok.injEq, Option.some.injEq]
    constructor
    · rintro ⟨ops', hops, hi⟩
      cases hi
      exact ⟨rfl, hops⟩
    · rintro ⟨rfl, hops⟩
      exact ⟨ops, hops, rfl⟩

theorem DenotesOperands.fits {symbol : Text → Int → Prop} {shape : Shape} {tokens : List Text}
    {ops : Operands shape} (h : DenotesOperands symbol tokens ops) : ops.Fits := by
  have hregister {token r} (h : DenotesRegister token r) : r.toNat < 16 := by
    obtain ⟨-, -, -, -, -, hr⟩ := h
    omega
  have haddress {token addr} (h : DenotesAddress symbol token addr) :
      addr.toNat < programLimit := by
    obtain ⟨v, -, -, hv, haddr⟩ := h
    simp only [programLimit]
    omega
  cases h with
  | none => trivial
  | reg ha => exact hregister ha
  | regReg ha hb => exact ⟨hregister ha, hregister hb⟩
  | regRegReg ha hb hc => exact ⟨hregister ha, hregister hb, hregister hc⟩
  | regImm8 ha hv => exact hregister ha
  | addr10 hv => exact haddress hv
  | condAddr10 hc hv => exact haddress hv
  | regRegOnly ha hb => exact ⟨hregister ha, hregister hb, by decide⟩
  | regRegOffset ha hb hv =>
    obtain ⟨v, -, hlow, hhigh, hoffset⟩ := hv
    exact ⟨hregister ha, hregister hb, by omega, by omega⟩

/-- The word of a line is the word of the one instruction that its tokens mean. -/
theorem encodeLine_eq_ok_iff (t : Symbols) (code : Text) (w : UInt16) :
    t.encodeLine code = .ok w ↔ ∃ i, Instruction.decode w = .ok i ∧
      DenotesInstruction t.Binds code.splitHead.1 code.splitHead.2.operandTokens i := by
  simp only [Symbols.encodeLine, bind_eq_ok_iff, readInstruction_eq_ok_iff]
  refine exists_congr fun i => ?_
  rw [and_comm, ← Instruction.encode_eq_ok_iff_decode]
  apply and_congr_left
  intro _
  cases i.encode <;> simp [Except.mapError]

end ByteMachine
