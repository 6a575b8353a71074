import ByteMachine.Proofs.Checked.Words
import ByteMachine.Proofs.SymbolTable

/-!
# Checked assembly

Assembly with every operand taken from its list by its place and every slice of a token cut at its
byte. Nothing fails: the number of operands is compared with the shape before any is taken, a token
is cut after a letter of one byte, and the row that is reported for its place beyond the limit is
taken from a list that is longer than the limit. Lines are counted in sixty-four bits.
-/
namespace ByteMachine.Checked

open Text

/-- A reading of source text, which may find it wrong. -/
abbrev Reading : Type → Type := ExceptT SourceError Checked

/-! ## Tokens -/

def looksLikeRegister (s : Text) : Checked Bool := do
  let token := s.trim
  if 1 < byteLength token ∧ (token.head? = some 'r' ∨ token.head? = some 'R') then
    return (← dropBytes 1 token).all Char.isDigit
  else return false

def register? (s : Text) : Checked (Option UInt8) := do
  if ← looksLikeRegister s then
    return (read? 10 (← dropBytes 1 s.trim)).bind fun n => if n < 16 then some (.ofNat n) else none
  else return none

def literal? (s : Text) : Checked (Option Int) := do
  let token := s.trim
  if token.head? = some '-' then
    match magnitude? token.tail with
    | some n => return some (← negate n)
    | none => return none
  else return (magnitude? token).map fun n : Nat => (n : Int)

def isReserved (s : Text) : Checked Bool := do
  if (Mnemonic.ofToken? s).isSome || (Condition.ofToken? s).isSome || s.sameFolded defineWord then
    return true
  else looksLikeRegister s

theorem looksLikeRegister_eq_ok (s : Text) : looksLikeRegister s = .ok s.looksLikeRegister := by
  rw [looksLikeRegister, Text.looksLikeRegister]
  generalize s.trim = token
  cases token with
  | nil => rfl
  | cons c rest =>
    by_cases hc : c = 'r' ∨ c = 'R'
    · have hsize : c.utf8Size = 1 := by rcases hc with rfl | rfl <;> rfl
      cases rest with
      | nil => simp [byteLength, hsize]
      | cons d rest =>
        have hd := d.utf8Size_pos
        have hlength : 1 < byteLength (c :: d :: rest) := by
          simp only [byteLength, List.map_cons, List.sum_cons]
          omega
        simp [hlength, hc, dropBytes_one hsize]
    · cases rest <;> simp [hc]

theorem register?_eq_ok (s : Text) : register? s = .ok s.register? := by
  rw [register?, looksLikeRegister_eq_ok, ok_bind, Text.register?]
  by_cases h : s.looksLikeRegister = true
  · obtain ⟨c, digits, htrim, hc, -⟩ := (looksLikeRegister_iff s).mp h
    have hsize : c.utf8Size = 1 := by rcases hc with rfl | rfl <;> rfl
    rw [if_pos h, if_pos h, htrim, dropBytes_one hsize]
    rfl
  · rw [if_neg h, if_neg h]
    rfl

theorem literal?_of_minus {s body : Text} (h : s.trim = '-' :: body) :
    s.literal? = (magnitude? body).map fun n : Nat => -(n : Int) := by
  rw [Text.literal?, h]
  rfl

theorem literal?_of_no_minus {s : Text} (h : s.trim.head? ≠ some '-') :
    s.literal? = (magnitude? s.trim).map fun n : Nat => (n : Int) := by
  unfold Text.literal?
  split
  · rename_i body htrim
    rw [htrim] at h
    exact (h rfl).elim
  · rfl

/-- The number after a minus sign has no sign of its own, so its negation is in range. -/
theorem literal?_eq_ok (s : Text) : literal? s = .ok s.literal? := by
  unfold literal?
  dsimp only
  by_cases h : s.trim.head? = some '-'
  · obtain ⟨body, htrim⟩ := List.head?_eq_some_iff.mp h
    rw [if_pos h, literal?_of_minus htrim, htrim, List.tail_cons]
    cases magnitude? body with
    | none => rfl
    | some n =>
      dsimp only
      rw [negate_eq_ok (by omega)]
      rfl
  · rw [if_neg h, literal?_of_no_minus h]
    rfl

theorem isReserved_eq_ok (s : Text) : isReserved s = .ok s.isReserved := by
  rw [isReserved, looksLikeRegister_eq_ok, Text.isReserved]
  split
  · rename_i h
    rw [h]
    rfl
  · rename_i h
    rw [Bool.not_eq_true _ |>.mp h]
    rfl

/-! ## Symbols -/

/-- A name that is bound already is reported with the number of its line, counted from one. -/
def bindName (t : Symbols) (name : Text) (value : Int) (line : Nat) : Reading Symbols := do
  if !name.isSymbolName then throw (.invalidName name)
  else if ← isReserved name then throw (.reservedName name)
  else match t.find? name with
    | some earlier =>
      let _ ← add 64 earlier.line 1
      throw (.alreadyDefined name earlier.line)
    | none => return ⟨(name, ⟨value, line⟩) :: t.bindings⟩

def valueOf (t : Symbols) (token name : Text) : Reading Int := do
  if !name.isSymbolName then throw (.invalidLiteral token)
  else match t.find? name with
    | some binding => return binding.value
    | none => throw (.undefinedSymbol token)

def resolve (t : Symbols) (token : Text) : Reading Int := do
  match ← literal? token with
  | some value => return value
  | none =>
    let name := match token with
      | '.' :: rest => rest
      | whole => whole
    valueOf t token name

def operand (tokens : List Text) (i : Nat) : Checked Text := element tokens i

def define (t : Symbols) (operands : Text) (line : Nat) : Reading Symbols := do
  let parts := operands.operandTokens
  if parts.length ≠ 2 then throw .malformedDefine
  else
    let value ← resolve t (← operand parts 1)
    bindName t (← operand parts 0) value line

def LinesBelow (bound : Nat) (t : Symbols) : Prop :=
  ∀ name b, t.find? name = some b → b.line < bound

section Symbols
variable {t : Symbols} {bound : Nat}

theorem bindName_eq (ht : LinesBelow bound t) (hbound : bound < 2 ^ 64) (name : Text) (value : Int)
    (line : Nat) : bindName t name value line = answer (t.bind name value line) := by
  rw [bindName, isReserved_eq_ok, lift_ok, answer_ok_bind, Symbols.bind]
  split
  · rfl
  · split
    · rfl
    · cases hfind : t.find? name with
      | none => rfl
      | some earlier =>
        have hline := ht name earlier hfind
        dsimp only
        rw [add_eq_ok (by omega)]
        rfl

theorem valueOf_eq (t : Symbols) (token name : Text) :
    valueOf t token name = answer (if !name.isSymbolName then .error (.invalidLiteral token)
      else match t.find? name with
        | some binding => .ok binding.value
        | none => .error (.undefinedSymbol token)) := by
  unfold valueOf
  split
  · rfl
  · cases t.find? name <;> rfl

theorem resolve_eq (t : Symbols) (token : Text) : resolve t token = answer (t.resolve token) := by
  unfold resolve Symbols.resolve
  rw [literal?_eq_ok, lift_ok, answer_ok_bind]
  cases token.literal? with
  | some value => rfl
  | none => exact valueOf_eq t token _

theorem define_eq (ht : LinesBelow bound t) (hbound : bound < 2 ^ 64) (operands : Text)
    (line : Nat) : define t operands line = answer (t.define operands line) := by
  rw [define, Symbols.define]
  generalize operands.operandTokens = parts
  match parts with
  | [] | [_] | _ :: _ :: _ :: _ => simp
  | [name, value] => simp [operand, element, resolve_eq, bindName_eq ht hbound]

end Symbols

/-! ## Instructions -/

def takes : Shape → Nat → Bool
  | .none, n => n == 0
  | .reg, n | .addr10, n => n == 1
  | .regReg, n | .regImm8, n | .condAddr10, n => n == 2
  | .regRegReg, n => n == 3
  | .regRegOffset, n => n == 2 || n == 3

def readRegister (token : Text) : Reading UInt8 := do
  match ← register? token with
  | some r => return r
  | none =>
    if ← looksLikeRegister token then throw (.registerOutOfRange token)
    else throw (.expectedRegister token)

def readCondition (token : Text) : Reading Condition := answer (Symbols.readCondition token)

def readValue (t : Symbols) (m : Mnemonic) (low high : Int) (token : Text) : Reading Int := do
  answer (checkRange m.name low high (← resolve t token))

def readImmediate (t : Symbols) (m : Mnemonic) (token : Text) : Reading UInt8 := do
  return .ofNat ((← readValue t m (-128) 255 token) % 256).toNat

def readAddress (t : Symbols) (m : Mnemonic) (token : Text) : Reading UInt16 := do
  return .ofNat (← readValue t m 0 (programLimit - 1) token).toNat

def readOffset (t : Symbols) (m : Mnemonic) (tokens : List Text) : Reading Int8 := do
  match tokens[2]? with
  | some token => return .ofInt (← readValue t m (-8) 7 token)
  | none => return 0

def readOperands (t : Symbols) (m : Mnemonic) (tokens : List Text) :
    Shape → Reading AnyOperands
  | .none => return ⟨_, .none⟩
  | .reg => return ⟨_, .reg (← readRegister (← operand tokens 0))⟩
  | .regReg =>
    return ⟨_, .regReg (← readRegister (← operand tokens 0))
      (← readRegister (← operand tokens 1))⟩
  | .regRegReg =>
    return ⟨_, .regRegReg (← readRegister (← operand tokens 0))
      (← readRegister (← operand tokens 1)) (← readRegister (← operand tokens 2))⟩
  | .regImm8 =>
    return ⟨_, .regImm8 (← readRegister (← operand tokens 0))
      (← readImmediate t m (← operand tokens 1))⟩
  | .addr10 => return ⟨_, .addr10 (← readAddress t m (← operand tokens 0))⟩
  | .condAddr10 =>
    return ⟨_, .condAddr10 (← readCondition (← operand tokens 0))
      (← readAddress t m (← operand tokens 1))⟩
  | .regRegOffset =>
    return ⟨_, .regRegOffset (← readRegister (← operand tokens 0))
      (← readRegister (← operand tokens 1)) (← readOffset t m tokens)⟩

def readInstruction (t : Symbols) (code : Text) : Reading Instruction := do
  let (head, rest) := code.splitHead
  match Mnemonic.ofToken? head with
  | none => throw (.unknownMnemonic head)
  | some m =>
    let tokens := rest.operandTokens
    if !takes m.shape tokens.length then throw (.operandCount m tokens.length)
    else match Instruction.build? m (← readOperands t m tokens m.shape) with
      | none => (.error .misfitOperands : Checked Instruction)
      | some i => return i

def encodeLine (t : Symbols) (code : Text) : Reading UInt16 := do
  encode (← readInstruction t code)

theorem readRegister_eq (token : Text) :
    readRegister token = answer (Symbols.readRegister token) := by
  rw [readRegister, register?_eq_ok, looksLikeRegister_eq_ok, Symbols.readRegister]
  cases token.register? with
  | some r => rfl
  | none =>
    dsimp only [lift_ok, answer_ok_bind]
    split <;> rfl

section Operands
variable (t : Symbols) (m : Mnemonic) (token : Text)

theorem readValue_eq (low high : Int) :
    readValue t m low high token =
      answer (do checkRange m.name low high (← t.resolve token)) := by
  rw [readValue, resolve_eq, answer_bind_answer]

theorem readImmediate_eq : readImmediate t m token = answer (t.readImmediate m token) := by
  simp only [readImmediate, readValue_eq, pure_eq_answer, answer_bind_answer, bind_assoc]
  rfl

theorem readAddress_eq : readAddress t m token = answer (t.readAddress m token) := by
  simp only [readAddress, readValue_eq, pure_eq_answer, answer_bind_answer, bind_assoc]
  rfl

theorem readOffset_eq (a b : Text) :
    readOffset t m [a, b, token] = answer (t.readOffset m token) := by
  simp only [readOffset, List.getElem?_cons_succ, List.getElem?_cons_zero, readValue_eq,
    pure_eq_answer, answer_bind_answer, bind_assoc]
  rfl

theorem readOffset_pair (a b : Text) : readOffset t m [a, b] = answer (.ok 0) := rfl

theorem operand_zero (tokens : List Text) : operand (token :: tokens) 0 = .ok token := rfl

theorem operand_one (a : Text) (tokens : List Text) :
    operand (a :: token :: tokens) 1 = .ok token := rfl

theorem operand_two (a b : Text) (tokens : List Text) :
    operand (a :: b :: token :: tokens) 2 = .ok token := rfl

/-- A number of operands that a shape does not take is refused before any is taken. -/
theorem readOperands_of_not_takes {shape : Shape} {tokens : List Text}
    (h : takes shape tokens.length = false) :
    t.readOperands m shape tokens = .error (.operandCount m tokens.length) := by
  cases shape <;> rcases tokens with _ | ⟨a, _ | ⟨b, _ | ⟨c, _ | ⟨d, rest⟩⟩⟩⟩ <;>
    first | rfl | cases h

/-- Where a shape takes the number of operands, each of them is there. -/
theorem readOperands_of_takes {shape : Shape} {tokens : List Text}
    (h : takes shape tokens.length = true) :
    readOperands t m tokens shape =
      answer (do return ⟨shape, ← t.readOperands m shape tokens⟩) := by
  cases shape <;> rcases tokens with _ | ⟨a, _ | ⟨b, _ | ⟨c, _ | ⟨d, rest⟩⟩⟩⟩ <;> cases h
  case none => rfl
  all_goals
    simp only [readOperands, operand_zero, operand_one, operand_two, lift_ok,
      readRegister_eq, readImmediate_eq, readAddress_eq, readOffset_pair, readOffset_eq,
      readCondition, pure_eq_answer, answer_bind_answer, Symbols.readOperands, bind_assoc,
      pure_bind]
    rfl

end Operands

/-- What is read from a line are operands that its mnemonic takes. -/
theorem readInstruction_eq (t : Symbols) (code : Text) :
    readInstruction t code = answer (t.readInstruction code) := by
  rw [readInstruction, Symbols.readInstruction]
  obtain ⟨head, rest⟩ := code.splitHead
  dsimp only
  cases Mnemonic.ofToken? head with
  | none => rfl
  | some m =>
    dsimp only
    cases h : takes m.shape rest.operandTokens.length with
    | false =>
      rw [readOperands_of_not_takes t m h]
      rfl
    | true =>
      rw [readOperands_of_takes t m h]
      cases t.readOperands m m.shape rest.operandTokens with
      | error e => rfl
      | ok ops => simp [Instruction.build?_mk]

/-- The operands of an instruction that was read have their places in a word. -/
theorem encodeLine_eq (t : Symbols) (code : Text) :
    encodeLine t code = answer (t.encodeLine code) := by
  rw [encodeLine, readInstruction_eq, Symbols.encodeLine]
  cases h : t.readInstruction code with
  | error e => rfl
  | ok i =>
    obtain ⟨w, hw⟩ := Instruction.exists_encode_of_fits
      ((readInstruction_eq_ok_iff ..).mp h).2.fits
    rw [answer_ok_bind, encode_eq_ok hw, ok_bind, hw]
    rfl

/-! ## Programs -/

def bindStatement (t : Symbols) (address line : Nat) : Statement → Reading Symbols
  | .define operands => define t operands line
  | .label name _ => bindName t name address line
  | .instruction _ => return t

def scanLines : List SourceLine → Symbols → Nat → Checked (List AssemblyRow × Symbols)
  | [], t, _ => return ([], t)
  | l :: rest, t, address => do
    let statement := Statement.ofText l.text
    let next := if statement.code?.isSome then address + 1 else address
    match ← (bindStatement t address l.number statement).run with
    | .ok bound =>
      let (rows, final) ← scanLines rest bound next
      return (⟨l.number, none, address, statement.code?⟩ :: rows, final)
    | .error e =>
      let (rows, final) ← scanLines rest t next
      return (⟨l.number, some e, address, statement.code?⟩ :: rows, final)

def encodeRow (t : Symbols) (row : AssemblyRow) :
    Checked (AssemblyRow × Option (Except SourceError UInt16)) := do
  match row.code with
  | none => return (row, none)
  | some code => return (row, some (← (encodeLine t code).run))

def encodeRows (t : Symbols) (rows : List AssemblyRow) :
    Checked (List (AssemblyRow × Option (Except SourceError UInt16))) := rows.mapM (encodeRow t)

/-- What is wrong with a row. The first row beyond the limit is reported for its place. -/
def rowDiagnostics (total : Nat) (beyond : Option AssemblyRow)
    (row : AssemblyRow × Option (Except SourceError UInt16)) : List (Diagnostic SourceError) :=
  let long := if beyond = some row.1 then [.programTooLong total] else []
  let wrong := match row.2 with
    | some (.error e) => [e]
    | _ => []
  (row.1.symbolError.toList ++ (long ++ wrong)).map fun e => ⟨row.1.line, e⟩

def rowWord? (row : AssemblyRow × Option (Except SourceError UInt16)) : Option (UInt16 × Nat) :=
  row.2.bind fun word => word.toOption.map fun w => (w, row.1.line)

def assemble (source : Text) : ExceptT (List (Diagnostic SourceError)) Checked Program := do
  let (rows, symbols) ← scanLines (SourceLine.ofText source) {} 0
  let items := rows.filter (·.code.isSome)
  let beyond ← firstBeyond items
  let encoded ← encodeRows symbols rows
  match encoded.flatMap (rowDiagnostics items.length beyond) with
  | [] => return Program.ofList (encoded.filterMap rowWord?)
  | diagnostics => throw diagnostics

theorem bindStatement_eq {t : Symbols} {bound : Nat} (ht : LinesBelow bound t)
    (hbound : bound < 2 ^ 64) (address line : Nat) (s : Statement) :
    bindStatement t address line s = answer (s.bind t address line) := by
  cases s with
  | define operands => exact define_eq ht hbound operands line
  | label name _ => exact bindName_eq ht hbound name address line
  | instruction _ => rfl

/-- Bound names have the lines that were scanned. -/
theorem LinesBelow.bind {l : SourceLine} {t t' : Symbols} {address bound : Nat}
    (ht : LinesBelow bound t) (hl : l.number < bound)
    (h : (Statement.ofText l.text).bind t address l.number = .ok t') : LinesBelow bound t' := by
  intro name b hb
  rcases Statement.find?_of_bind h hb with ⟨hline, -⟩ | hb
  · rwa [hline]
  · exact ht name b hb

theorem scanLines_eq_ok {ls : List SourceLine} {t : Symbols} {bound : Nat}
    (hls : ∀ l ∈ ls, l.number < bound) (ht : LinesBelow bound t) (hbound : bound < 2 ^ 64)
    (address : Nat) : scanLines ls t address = .ok (ByteMachine.scanLines ls t address) := by
  induction ls generalizing t address with
  | nil => rfl
  | cons l rest ih =>
    have hl : l.number < bound := hls l List.mem_cons_self
    have hrest : ∀ l ∈ rest, l.number < bound := fun l' hl' => hls l' (List.mem_cons_of_mem l hl')
    rw [scanLines, ByteMachine.scanLines, bindStatement_eq ht hbound]
    dsimp only [run_answer, ok_bind]
    cases h : (Statement.ofText l.text).bind t address l.number with
    | ok bound =>
      dsimp only
      rw [ih hrest (ht.bind hl h)]
      rfl
    | error e =>
      dsimp only
      rw [ih hrest ht]
      rfl

theorem encodeRows_eq_ok (t : Symbols) (rows : List AssemblyRow) :
    encodeRows t rows = .ok (rows.map fun row => (row, row.code.map t.encodeLine)) := by
  refine mapM_eq_ok fun row _ => ?_
  unfold encodeRow
  cases row.code with
  | none => rfl
  | some code =>
    dsimp only
    rw [encodeLine_eq]
    rfl

/-- The rows that carry an instruction have consecutive addresses. -/
theorem map_address_items (ls : List SourceLine) (t : Symbols) (address : Nat) :
    ((ByteMachine.scanLines ls t address).1.filter (·.code.isSome)).map (·.address) =
      List.range' address (lineCodes ls).length := by
  rw [← scanLines_addresses ls t address, ← List.filterMap_eq_map, List.filterMap_filter]
  congr 1
  funext row
  cases row.code <;> rfl

/-- So the row at a place of theirs is the one with that address. -/
theorem getElem?_items_iff {items : List AssemblyRow} {n : Nat}
    (haddress : items.map (·.address) = List.range' 0 n) {row : AssemblyRow} (hrow : row ∈ items)
    (k : Nat) : items[k]? = some row ↔ row.address = k := by
  have hplace {j : Nat} (hj : items[j]? = some row) : row.address = j := by
    have h : (List.range' 0 n)[j]? = some row.address := by
      rw [← haddress, List.getElem?_map, hj]
      rfl
    obtain ⟨hj, h⟩ := List.getElem?_eq_some_iff.mp h
    rw [List.getElem_range'] at h
    omega
  constructor
  · exact hplace
  · intro h
    obtain ⟨j, hj⟩ := List.getElem?_of_mem hrow
    rw [← h, hplace hj, hj]

theorem rowDiagnostics_eq {items : List AssemblyRow} {n : Nat}
    (haddress : items.map (·.address) = List.range' 0 n) {row : AssemblyRow}
    (hrow : row ∈ items ↔ row.code.isSome = true) (t : Symbols) (total : Nat) :
    rowDiagnostics total items[programLimit]? (row, row.code.map t.encodeLine) =
      row.diagnostics t total := by
  unfold rowDiagnostics AssemblyRow.diagnostics AssemblyRow.errors
  cases hcode : row.code with
  | none =>
    have hne : items[programLimit]? ≠ some row := by
      intro h
      have := hrow.mp (List.mem_of_getElem? h)
      rw [hcode] at this
      cases this
    simp [hne]
  | some code =>
    have hmem : row ∈ items := hrow.mpr (by rw [hcode]; rfl)
    dsimp only [Option.map_some]
    simp only [getElem?_items_iff haddress hmem]
    cases t.encodeLine code <;> rfl

/-- Assembly fails on no text whose lines can be counted. -/
theorem assemble_eq {source : Text} {bound : Nat}
    (hlines : ∀ l ∈ SourceLine.ofText source, l.number < bound) (hbound : bound < 2 ^ 64) :
    assemble source = answer (ByteMachine.assemble source) := by
  have hempty : LinesBelow bound {} := by
    intro name b hb
    cases hb
  rw [assemble, scanLines_eq_ok hlines hempty hbound, lift_ok, answer_ok_bind, ByteMachine.assemble]
  have haddress := map_address_items (SourceLine.ofText source) {} 0
  generalize ByteMachine.scanLines (SourceLine.ofText source) {} 0 = scanned at haddress ⊢
  obtain ⟨rows, symbols⟩ := scanned
  dsimp only at haddress ⊢
  rw [firstBeyond_eq_ok, lift_ok, answer_ok_bind, encodeRows_eq_ok, lift_ok, answer_ok_bind,
    List.flatMap_map, List.filterMap_map]
  have hdiagnostics (total : Nat) : (rows.flatMap fun row => rowDiagnostics total
      (rows.filter (·.code.isSome))[programLimit]? (row, row.code.map symbols.encodeLine)) =
      rows.flatMap (AssemblyRow.diagnostics symbols total) :=
    List.flatMap_congr fun row hrow =>
      rowDiagnostics_eq haddress (by simp [hrow]) symbols total
  have hwords : rowWord? ∘ (fun row => (row, row.code.map symbols.encodeLine)) =
      AssemblyRow.word? symbols := by
    funext row
    simp [rowWord?, AssemblyRow.word?, Option.bind_map]
  rw [hdiagnostics, hwords]
  cases rows.flatMap (AssemblyRow.diagnostics symbols (rows.filter (·.code.isSome)).length) <;> rfl

end ByteMachine.Checked
