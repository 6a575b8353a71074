import ByteMachine.Proofs.SourceMeaning

/-!
# Operands that name symbols

A token may be the name of a symbol, with or without a point before it. Where it is neither a
register nor a condition it stands for a value, and the operands of the instruction hold the value
of the symbol. A name that a symbol can have is never anything else.
-/
namespace ByteMachine

open Text

structure FreeName (name : Text) : Prop where
  mnemonic (m : Mnemonic) : name.fold ≠ m.name.toList
  condition (c : Condition) : ¬ DenotesCondition name c
  register (c : Char) (digits : Text) : name = c :: digits → c = 'r' ∨ c = 'R' → digits ≠ [] →
    ¬ ∀ d ∈ digits, d.isDigit = true
  define : name.fold ≠ defineWord

def Shape.valuePlace? : Shape → Option Nat
  | .none | .reg | .regReg | .regRegReg => Option.none
  | .addr10 => some 0
  | .regImm8 | .condAddr10 => some 1
  | .regRegOffset => some 2

def Operands.Holds : {shape : Shape} → Operands shape → Int → Prop
  | _, regImm8 _ imm, v => -128 ≤ v ∧ v ≤ 255 ∧ (imm.toNat : Int) = v % 256
  | _, addr10 addr, v => (addr.toNat : Int) = v
  | _, condAddr10 _ addr, v => (addr.toNat : Int) = v
  | _, regRegOffset _ _ offset, v => offset.toInt = v
  | _, _, _ => False

def Names (token name : Text) : Prop :=
  (token = name ∨ token = '.' :: name) ∧ name.isSymbolName = true

/-- An operand names a symbol. A register or a condition does so only at the place of a value. -/
def OperandNames (mnemonic : Text) (tokens : List Text) (name : Text) : Prop :=
  ∃ j token, tokens[j]? = some token ∧ Names token name ∧
    ((∀ r, ¬ DenotesRegister token r) ∧ (∀ c, ¬ DenotesCondition token c) ∨
      ∃ m : Mnemonic, mnemonic.fold = m.name.toList ∧ m.shape.valuePlace? = some j)

theorem freeName_of_isReserved_eq_false {name : Text} (hname : name.isSymbolName = true)
    (h : name.isReserved = false) : FreeName name := by
  simp only [isReserved, Bool.or_eq_false_iff, Option.isSome_eq_false_iff,
    Option.isNone_iff_eq_none] at h
  obtain ⟨⟨⟨hmnemonic, hcondition⟩, hdefine⟩, hregister⟩ := h
  refine ⟨?_, ?_, ?_, ?_⟩
  · intro m hm
    rw [(Mnemonic.ofToken?_eq_some_iff name m).mpr hm] at hmnemonic
    cases hmnemonic
  · intro c hc
    rw [(Condition.ofToken?_eq_some_iff name c).mpr hc] at hcondition
    cases hcondition
  · intro c digits hcons hc hne hall
    have htrim : name.trim = name := trim_eq_self_of_forall (not_isBlank_of_isSymbolName hname)
    have hlooks := (looksLikeRegister_iff name).mpr ⟨c, digits, htrim.trans hcons, hc, hne, hall⟩
    rw [hlooks] at hregister
    cases hregister
  · intro hfold
    rw [(sameFolded_defineWord_iff name).mpr hfold] at hdefine
    cases hdefine

section Operands
variable {symbol : Text → Int → Prop} {shape : Shape} {tokens : List Text} {ops : Operands shape}
  {token : Text}

/-- An operand token is a register, a condition or the value that the operands hold. -/
theorem DenotesOperands.of_mem (h : DenotesOperands symbol tokens ops) (hmem : token ∈ tokens) :
    (∃ r, DenotesRegister token r) ∨ (∃ c, DenotesCondition token c) ∨
      ∃ v, DenotesValue symbol token v ∧ ops.Holds v := by
  cases h with
  | none => cases hmem
  | reg ha =>
    obtain rfl := List.mem_singleton.mp hmem
    exact .inl ⟨_, ha⟩
  | regReg ha hb | regRegOnly ha hb =>
    rcases List.mem_pair.mp hmem with rfl | rfl
    · exact .inl ⟨_, ha⟩
    · exact .inl ⟨_, hb⟩
  | regRegReg ha hb hc =>
    simp only [List.mem_cons, List.not_mem_nil, or_false] at hmem
    rcases hmem with rfl | rfl | rfl
    · exact .inl ⟨_, ha⟩
    · exact .inl ⟨_, hb⟩
    · exact .inl ⟨_, hc⟩
  | regImm8 ha hv =>
    obtain ⟨v, hv, hlow, hhigh, himm⟩ := hv
    rcases List.mem_pair.mp hmem with rfl | rfl
    · exact .inl ⟨_, ha⟩
    · exact .inr (.inr ⟨v, hv, hlow, hhigh, himm⟩)
  | addr10 hv =>
    obtain ⟨v, hv, -, -, haddr⟩ := hv
    obtain rfl := List.mem_singleton.mp hmem
    exact .inr (.inr ⟨v, hv, haddr⟩)
  | condAddr10 hc hv =>
    obtain ⟨v, hv, -, -, haddr⟩ := hv
    rcases List.mem_pair.mp hmem with rfl | rfl
    · exact .inr (.inl ⟨_, hc⟩)
    · exact .inr (.inr ⟨v, hv, haddr⟩)
  | regRegOffset ha hb hv =>
    obtain ⟨v, hv, -, -, hoffset⟩ := hv
    simp only [List.mem_cons, List.not_mem_nil, or_false] at hmem
    rcases hmem with rfl | rfl | rfl
    · exact .inl ⟨_, ha⟩
    · exact .inl ⟨_, hb⟩
    · exact .inr (.inr ⟨v, hv, hoffset⟩)

theorem DenotesOperands.of_valuePlace? (h : DenotesOperands symbol tokens ops) {j : Nat}
    (hplace : shape.valuePlace? = some j) (hj : tokens[j]? = some token) :
    ∃ v, DenotesValue symbol token v ∧ ops.Holds v := by
  cases h with
  | none | reg _ | regReg _ _ | regRegReg _ _ _ => cases hplace
  | regImm8 ha hv =>
    obtain ⟨v, hv, hlow, hhigh, himm⟩ := hv
    obtain rfl := Option.some.inj hplace
    obtain rfl := Option.some.inj hj
    exact ⟨v, hv, hlow, hhigh, himm⟩
  | addr10 hv | condAddr10 _ hv =>
    obtain ⟨v, hv, -, -, haddr⟩ := hv
    obtain rfl := Option.some.inj hplace
    obtain rfl := Option.some.inj hj
    exact ⟨v, hv, haddr⟩
  | regRegOnly ha hb =>
    obtain rfl := Option.some.inj hplace
    cases hj
  | regRegOffset ha hb hv =>
    obtain ⟨v, hv, -, -, hoffset⟩ := hv
    obtain rfl := Option.some.inj hplace
    obtain rfl := Option.some.inj hj
    exact ⟨v, hv, hoffset⟩

theorem isSymbolName_point (s : Text) : isSymbolName ('.' :: s) = false := rfl

theorem Names.unique {name name' : Text} (h : Names token name) (h' : Names token name') :
    name = name' := by
  obtain ⟨rfl | rfl, hname⟩ := h
  · obtain ⟨rfl | rfl, -⟩ := h'
    · rfl
    · rw [isSymbolName_point] at hname
      cases hname
  · obtain ⟨rfl | hpoint, hname'⟩ := h'
    · rw [isSymbolName_point] at hname'
      cases hname'
    · exact (List.cons.inj hpoint).2

theorem Names.trim_eq {name : Text} (h : Names token name) : token.trim = token := by
  have hblank := not_isBlank_of_isSymbolName h.2
  apply trim_eq_self_of_forall
  rcases h.1 with rfl | rfl
  · exact hblank
  · exact List.forall_mem_cons.mpr ⟨by decide, hblank⟩

/-- A token that names a symbol means what the symbol means. -/
theorem DenotesValue.of_names {name : Text} {v : Int} (h : DenotesValue symbol token v)
    (hnames : Names token name) : symbol name v := by
  rcases h with hliteral | ⟨name', htoken, hname', hsymbol⟩
  · have hnone := literal?_symbolName hnames.2 hnames.1
    rw [(literal?_eq_some_iff ..).mpr hliteral] at hnone
    cases hnone
  · rwa [hnames.unique ⟨htoken, hname'⟩]

theorem FreeName.not_denotesRegister {name : Text} (h : FreeName name) (hnames : Names token name)
    (r : UInt8) : ¬ DenotesRegister token r := by
  rintro ⟨c, digits, htrim, hc, hnumeral, -⟩
  have hdigits : ∀ d ∈ digits, d.isDigit = true := fun d hd =>
    (isDigit_iff_digit? d).mpr (hnumeral.digit_of_mem hd)
  rw [hnames.trim_eq] at htrim
  rcases hnames.1 with rfl | rfl
  · exact h.register c digits htrim hc hnumeral.1 hdigits
  · obtain rfl := (List.cons.inj htrim).1
    rcases hc with hc | hc <;> cases hc

theorem FreeName.not_denotesCondition {name : Text} (h : FreeName name) (hnames : Names token name)
    (c : Condition) : ¬ DenotesCondition token c := by
  intro hc
  rcases hnames.1 with rfl | rfl
  · exact h.condition c hc
  · obtain ⟨a, ha, hfold⟩ := hc
    have hpoint : a.toList.head? = some '.' := by
      rw [← hfold]
      rfl
    clear hfold
    revert a
    cases c <;> decide

/-- With a name that means nothing else, an operand can only mean the symbol. -/
theorem FreeName.operandNames {name : Text} (h : FreeName name) (hnames : Names token name)
    (hmem : token ∈ tokens) (mnemonic : Text) : OperandNames mnemonic tokens name := by
  obtain ⟨j, hj⟩ := List.mem_iff_getElem?.mp hmem
  exact ⟨j, token, hj, hnames,
    .inl ⟨h.not_denotesRegister hnames, h.not_denotesCondition hnames⟩⟩

/-- An operand that names a symbol is encoded as the value of the symbol. -/
theorem OperandNames.holds {mnemonic name : Text} {i : Instruction}
    (hnames : OperandNames mnemonic tokens name)
    (h : DenotesInstruction symbol mnemonic tokens i) :
    ∃ v, symbol name v ∧ i.operands.Holds v := by
  obtain ⟨j, token, hj, hnames, hplace⟩ := hnames
  have hvalue : ∃ v, DenotesValue symbol token v ∧ i.operands.Holds v := by
    rcases hplace with ⟨hregister, hcondition⟩ | ⟨m, hm, hplace⟩
    · rcases h.2.of_mem (List.mem_of_getElem? hj) with ⟨r, hr⟩ | ⟨c, hc⟩ | hvalue
      · exact absurd hr (hregister r)
      · exact absurd hc (hcondition c)
      · exact hvalue
    · have hmnemonic : m = i.mnemonic :=
        Mnemonic.name_injective (String.toList_inj.mp (hm.symm.trans h.1))
      exact h.2.of_valuePlace? (hmnemonic ▸ hplace) hj
  obtain ⟨v, hv, hholds⟩ := hvalue
  exact ⟨v, hv.of_names hnames, hholds⟩

end Operands

end ByteMachine
