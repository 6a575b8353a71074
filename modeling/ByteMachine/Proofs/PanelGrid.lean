import ByteMachine.Panel.Frame
import Mathlib.Data.List.Basic
import Mathlib.Tactic.IntervalCases

/-!
# The cells of bytes and registers

The memory grid has a header and sixteen rows, and in a row the base address and sixteen bytes of
three cells each. So every address has its place in the grid, and the places in the order of reading
are those of all addresses in ascending order. The table of registers has a row for each of them. A
byte or a register is highlighted exactly when it differs from the one that it is compared with.
-/
namespace ByteMachine

section Lists
variable {α : Type}

theorem length_flatMap_range {f : Nat → List α} {k : Nat} (h : ∀ i, (f i).length = k) (n : Nat) :
    ((List.range n).flatMap f).length = n * k := by
  induction n with
  | zero => simp
  | succ n ih =>
    rw [List.range_succ, List.flatMap_append, List.length_append, ih, List.flatMap_singleton, h,
      Nat.succ_mul]

/-- One of several pieces of the same length. -/
theorem take_drop_flatMap_range {f : Nat → List α} {k : Nat} (h : ∀ i, (f i).length = k) {n i : Nat}
    (hi : i < n) : (((List.range n).flatMap f).drop (i * k)).take k = f i := by
  obtain ⟨m, rfl⟩ := Nat.exists_eq_add_of_lt hi
  rw [Nat.add_assoc, List.range_add, List.flatMap_append, List.flatMap_map,
    List.drop_left' (length_flatMap_range h i), List.range_succ_eq_map, List.flatMap_cons]
  exact List.take_left' (h i)

/-- Numbers row by row are the numbers in order. -/
theorem flatMap_range_mul (f : Nat → List α) (m k : Nat) :
    (List.range (m * k)).flatMap f =
      (List.range m).flatMap fun i => (List.range k).flatMap fun j => f (i * k + j) := by
  induction m with
  | zero => simp
  | succ m ih =>
    rw [Nat.succ_mul, List.range_add, List.flatMap_append, ih, List.range_succ, List.flatMap_append]
    simp [List.flatMap_map]

end Lists

/-! ## Rows and boxes -/

theorem CellRow.length_fit (width : Nat) (fill : Style) (row : CellRow) :
    (CellRow.fit width fill row).length = width := by
  rw [CellRow.fit, List.length_append, List.length_take, List.length_replicate]
  omega

theorem CellRow.fit_eq_self {width : Nat} {row : CellRow} (h : row.length = width) (fill : Style) :
    CellRow.fit width fill row = row := by
  rw [CellRow.fit, h, Nat.sub_self, List.take_of_length_le h.le, List.replicate_zero,
    List.append_nil]

theorem CellRow.style_of_mem_fit {width : Nat} {fill : Style} {row : CellRow}
    (h : ∀ c ∈ row, c.style = fill) : ∀ c ∈ CellRow.fit width fill row, c.style = fill := by
  intro c hc
  rcases List.mem_append.mp hc with hrow | hblank
  · exact h c (List.mem_of_mem_take hrow)
  · rw [List.eq_of_mem_replicate hblank]

theorem style_of_mem_styled {style : Style} {s : Text} : ∀ c ∈ styled style s, c.style = style := by
  intro c hc
  obtain ⟨glyph, -, rfl⟩ := List.mem_map.mp hc
  rfl

theorem map_glyph_styled (style : Style) (s : Text) : (styled style s).map (·.glyph) = s := by
  rw [styled, List.map_map]
  exact List.map_id s

/-- The inside of a row of a box is the row of the contents, cut or filled up to the inner width. -/
theorem Area.inside_boxed {inner height : Nat} {border fill : Style} {title : Text}
    {contents : Area} {i : Nat} {row : CellRow} (hrow : contents[i]? = some row)
    (hheight : i < height - 2) :
    (((Area.boxed (inner + 2) height border title fill contents).getD (1 + i) []).drop 1).take
      inner = CellRow.fit inner fill row := by
  have hlt : i < contents.length := (List.getElem?_eq_some_iff.mp hrow).1
  have hfit : (Area.fit inner (height - 2) fill contents)[i]? =
      some (CellRow.fit inner fill row) := by
    rw [Area.fit, List.getElem?_map, List.getElem?_append_left, List.getElem?_take_of_lt hheight,
      hrow]
    · rfl
    · rw [List.length_take]
      omega
  have hinside : i < (Area.fit inner (height - 2) fill contents).length :=
    (List.getElem?_eq_some_iff.mp hfit).1
  rw [Area.boxed, Nat.add_sub_cancel, List.getD_eq_getElem?_getD, List.append_assoc,
    List.singleton_append, Nat.add_comm, List.getElem?_cons_succ,
    List.getElem?_append_left (by rwa [List.length_map]), List.getElem?_map, hfit]
  exact List.take_left' (CellRow.length_fit ..)

namespace Panel

/-! ## The memory grid -/

def byteCells (grid : Area) (address : Nat) : CellRow :=
  ((grid.getD (1 + address / 16) []).drop (5 + address % 16 * 3)).take 3

def highlight : Style := { foreground := .yellow, bold := true }

/-- The grid shows the bytes of a memory and highlights those in which it differs from another. -/
structure GridShows (grid : Area) (now before : Memory) : Prop where
  header : grid.head? = some gridHeader
  rows : grid.length = 17
  widths : ∀ row ∈ grid.tail, row.length = 53
  labels (row : Nat) : row < 16 → (grid.getD (1 + row) []).take 5 =
    styled dim (Text.upperHex 2 (row * 16) ++ " | ".toList)
  bytes : grid.tail.flatMap (·.drop 5) = (List.range 256).flatMap (byteCells grid)
  glyphs (a : UInt8) : (byteCells grid a.toNat).map (·.glyph) =
    Text.upperHex 2 (now.cell a).toNat ++ [' ']
  highlighted (a : UInt8) : ∀ c ∈ byteCells grid a.toNat,
    (c.style = highlight ↔ now.cell a ≠ before.cell a)

theorem length_upperHex_two {n : Nat} (h : n < 256) : (Text.upperHex 2 n).length = 2 := by
  revert n
  decide +kernel

theorem length_gridByte (address : Nat) (value previous : UInt8) :
    (gridByte address value previous).length = 3 := by
  rw [gridByte, styled, List.length_map, List.length_append, length_upperHex_two value.toNat_lt]
  rfl

theorem length_label {row : Nat} (h : row < 16) :
    (styled dim (Text.upperHex 2 (row * 16) ++ " | ".toList)).length = 5 := by
  rw [styled, List.length_map, List.length_append, length_upperHex_two (by omega)]
  rfl

theorem byteStyle_eq_highlight_iff (address : Nat) (changed : Bool) :
    byteStyle address changed = highlight ↔ changed = true := by
  cases changed with
  | true => simp [byteStyle, highlight]
  | false =>
    unfold byteStyle
    split
    · contradiction
    · split <;> simp [highlight]

theorem highlighted_gridByte_iff {address : Nat} {value previous : UInt8} {c : Cell}
    (hc : c ∈ gridByte address value previous) : c.style = highlight ↔ value ≠ previous := by
  rw [style_of_mem_styled c hc, byteStyle_eq_highlight_iff, bne_iff_ne]

def gridCells (memory previous : List UInt8) (address : Nat) : CellRow :=
  gridByte address (memory.getD address 0) (previous.getD address 0)

section Grid
variable {memory : List UInt8} (previous : List UInt8)

theorem length_gridCells (address : Nat) : (gridCells memory previous address).length = 3 :=
  length_gridByte ..

theorem memoryGrid_eq (h : memory.length = 256) :
    memoryGrid memory previous = gridHeader :: (List.range 16).map (gridRow memory previous) := by
  rw [memoryGrid, h]
  rfl

theorem getD_memoryGrid (h : memory.length = 256) {row : Nat} (hrow : row < 16) :
    (memoryGrid memory previous).getD (1 + row) [] = gridRow memory previous row := by
  rw [memoryGrid_eq previous h, Nat.add_comm, List.getD_cons_succ, List.getD_eq_getElem?_getD,
    List.getElem?_map, List.getElem?_range hrow]
  rfl

theorem take_gridRow {row : Nat} (hrow : row < 16) : (gridRow memory previous row).take 5 =
    styled dim (Text.upperHex 2 (row * 16) ++ " | ".toList) :=
  List.take_left' (length_label hrow)

theorem drop_gridRow {row : Nat} (hrow : row < 16) : (gridRow memory previous row).drop 5 =
    (List.range 16).flatMap fun column => gridCells memory previous (row * 16 + column) :=
  List.drop_left' (length_label hrow)

theorem length_gridRow {row : Nat} (hrow : row < 16) :
    (gridRow memory previous row).length = 53 := by
  have hdrop := congrArg List.length (@drop_gridRow memory previous row hrow)
  rw [length_flatMap_range (fun column => length_gridCells ..), List.length_drop] at hdrop
  omega

/-- The place of an address is row `address / 16` and column `address % 16`. -/
theorem byteCells_memoryGrid (h : memory.length = 256) {address : Nat} (ha : address < 256) :
    byteCells (memoryGrid memory previous) address = gridCells memory previous address := by
  have hrow : address / 16 < 16 := by omega
  have hcolumn : address % 16 < 16 := Nat.mod_lt _ (by decide)
  have hsum : address / 16 * 16 + address % 16 = address := by omega
  rw [byteCells, getD_memoryGrid previous h hrow, ← List.drop_drop, drop_gridRow previous hrow,
    take_drop_flatMap_range (fun column => length_gridCells ..) hcolumn, hsum]

/-- The grid read row by row. -/
theorem flatMap_tail_memoryGrid (h : memory.length = 256) :
    (memoryGrid memory previous).tail.flatMap (·.drop 5) =
      (List.range 256).flatMap (byteCells (memoryGrid memory previous)) := by
  have hrows (row : Nat) (hrow : row ∈ List.range 16) : (gridRow memory previous row).drop 5 =
      (List.range 16).flatMap fun column => gridCells memory previous (row * 16 + column) :=
    drop_gridRow previous (List.mem_range.mp hrow)
  have hbytes (address : Nat) (ha : address ∈ List.range 256) :
      byteCells (memoryGrid memory previous) address = gridCells memory previous address :=
    byteCells_memoryGrid previous h (List.mem_range.mp ha)
  calc (memoryGrid memory previous).tail.flatMap (·.drop 5)
      = (List.range 16).flatMap fun row => (gridRow memory previous row).drop 5 := by
        rw [memoryGrid_eq previous h, List.tail_cons, List.flatMap_map]
    _ = (List.range 16).flatMap fun row => (List.range 16).flatMap fun column =>
          gridCells memory previous (row * 16 + column) := List.flatMap_congr hrows
    _ = (List.range 256).flatMap (gridCells memory previous) :=
        (flatMap_range_mul (gridCells memory previous) 16 16).symm
    _ = (List.range 256).flatMap (byteCells (memoryGrid memory previous)) :=
        (List.flatMap_congr hbytes).symm

end Grid

theorem getD_cells (m : Memory) (a : UInt8) : m.cells.toList.getD a.toNat 0 = m.cell a := by
  have hlt : a.toNat < m.cells.toList.length := by
    rw [Vector.length_toList]
    exact a.toNat_lt
  rw [List.getD_eq_getElem?_getD, List.getElem?_eq_getElem hlt, Vector.getElem_toList]
  rfl

theorem gridShows (now before : Memory) :
    GridShows (memoryGrid now.cells.toList before.cells.toList) now before := by
  have hlength : now.cells.toList.length = 256 := Vector.length_toList
  have hcells (a : UInt8) : byteCells (memoryGrid now.cells.toList before.cells.toList) a.toNat =
      gridByte a.toNat (now.cell a) (before.cell a) := by
    rw [byteCells_memoryGrid _ hlength a.toNat_lt, gridCells, getD_cells, getD_cells]
  refine {
    header := rfl
    rows := ?rows
    widths := ?widths
    labels := ?labels
    bytes := flatMap_tail_memoryGrid _ hlength
    glyphs := fun a => ?glyphs
    highlighted := fun a c hc => ?highlighted }
  case rows =>
    rw [memoryGrid_eq _ hlength, List.length_cons, List.length_map, List.length_range]
  case widths =>
    rw [memoryGrid_eq _ hlength, List.tail_cons]
    intro row hrow
    obtain ⟨i, hi, rfl⟩ := List.mem_map.mp hrow
    exact length_gridRow _ (List.mem_range.mp hi)
  case labels =>
    intro row hrow
    rw [getD_memoryGrid _ hlength hrow, take_gridRow _ hrow]
  case glyphs => rw [hcells, gridByte, map_glyph_styled]
  case highlighted =>
    rw [hcells] at hc
    exact highlighted_gridByte_iff hc

/-! ## The table of registers -/

def registerCells (table : Area) (register : Nat) : CellRow :=
  ((table.getD (1 + register) []).drop 1).take 26

structure TableShows (table : Area) (now before : Processor) : Prop where
  names (i : Nat) : i < 16 →
    ∃ rest, (registerCells table i).map (·.glyph) = registerName (.ofNat i) ++ ' ' :: rest
  styles (i : Nat) : i < 16 → (registerCells table i).map (·.style) = List.replicate 26
    (if now.read (.ofNat i) = before.read (.ofNat i) then {} else { foreground := .yellow })

theorem style_of_mem_tableRow {style : Style} {texts : List Text} :
    ∀ c ∈ tableRow style texts, c.style = style := by
  intro c hc
  obtain ⟨cells, hcells, hmem⟩ := List.mem_flatten.mp hc
  obtain ⟨⟨width, s⟩, -, rfl⟩ := List.mem_map.mp hcells
  exact CellRow.style_of_mem_fit style_of_mem_styled c hmem

theorem styles_registerRow (i : Nat) (value previous : UInt8) :
    (registerRow i value previous).map (·.style) = List.replicate 26
      (if value = previous then {} else { foreground := .yellow }) := by
  refine List.eq_replicate_iff.mpr ⟨?_, fun style hstyle => ?_⟩
  · rw [List.length_map]
    exact CellRow.length_fit ..
  · obtain ⟨c, hc, rfl⟩ := List.mem_map.mp hstyle
    exact CellRow.style_of_mem_fit style_of_mem_tableRow c hc

theorem names_registerRow {i : Nat} (hi : i < 16) (value previous : UInt8) :
    ∃ rest, (registerRow i value previous).map (·.glyph) =
      registerName (.ofNat i) ++ ' ' :: rest := by
  interval_cases i <;> exact ⟨_, rfl⟩

/-- The row of a register in the table. -/
theorem registerCells_registers {p : Panel} {now before : Processor}
    (hnow : p.snapshot.registers = now.visibleRegisters)
    (hbefore : p.previousRegisters = before.visibleRegisters) {i : Nat} (hi : i < 16) :
    registerCells p.registers i =
      registerRow i (now.read (.ofNat i)) (before.read (.ofNat i)) := by
  have hvalue : (p.snapshot.registers.zip p.previousRegisters).zipIdx[i]? =
      some ((now.read (.ofNat i), before.read (.ofNat i)), i) := by
    rw [hnow, hbefore, Processor.visibleRegisters, Processor.visibleRegisters, List.zip_map',
      List.getElem?_zipIdx, List.getElem?_map, List.getElem?_range hi]
    simp
  have hlt := (List.getElem?_eq_some_iff.mp hvalue).1
  rw [registerCells, registers, Area.inside_boxed _ (by omega)]
  · exact CellRow.fit_eq_self (CellRow.length_fit ..) _
  · rw [List.getElem?_append_left (by rwa [List.length_map]), List.getElem?_map, hvalue]
    rfl

theorem tableShows {p : Panel} {now before : Processor}
    (hnow : p.snapshot.registers = now.visibleRegisters)
    (hbefore : p.previousRegisters = before.visibleRegisters) :
    TableShows p.registers now before where
  names i hi := by
    rw [registerCells_registers hnow hbefore hi]
    exact names_registerRow hi _ _
  styles i hi := by
    rw [registerCells_registers hnow hbefore hi, styles_registerRow]

end Panel
end ByteMachine
