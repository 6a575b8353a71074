import ByteMachine.Panel.Basic
import ByteMachine.Panel.Cell

/-!
# The frame of the panel

A header and a footer over the full width, and three columns between them: registers and call stack,
listing and memory, and the devices.
-/
namespace ByteMachine.Panel

def dim : Style := { foreground := .darkGray }

def warning : Style := { foreground := .red }

/-! ## Header and footer -/

def verdict (p : Panel) : String × Color :=
  if p.snapshot.fault.isSome then ("FAULT", .red)
  else if p.snapshot.halted then ("HALTED", .red)
  else if p.running then ("RUNNING", .green)
  else ("READY", .yellow)

def header (p : Panel) (width : Nat) : Area :=
  let (label, color) := p.verdict
  let s := p.snapshot
  let last := s.lastInstruction.getD "-"
  let counts := s!"  pc {s.pc.toNat}  instructions {s.instructions}"
  let size := s!"  program {s.programLength} words"
  let line :=
    styled { foreground := .black, background := color, bold := true } s!" {label} ".toList ++
      plain s!"{counts}{size}  last: {last}".toList
  Area.boxed width 3 dim ("BatPU - ".toList ++ p.title) {} [line]

def keyHelp : String :=
  "s:step  r:run/pause  x:reset  b:breakpoint  up/down:cursor  g:goto pc  1-8:buttons  " ++
    "0:release  q:quit"

def footer (p : Panel) (width : Nat) : Area :=
  let style := if p.snapshot.fault.isSome then warning else {}
  Area.boxed width 3 style [] style [styled style (p.message.getD keyHelp).toList]

/-! ## Registers and call stack -/

def columnWidths : List Nat := [4, 4, 5, 5]

/-- A row of a table with one blank column between its columns. -/
def tableRow (style : Style) (texts : List Text) : CellRow :=
  ((columnWidths.zip texts).map fun (width, s) =>
    CellRow.fit (width + 1) style (styled style (s.take width))).flatten

def registerRow (number : Nat) (value previous : UInt8) : CellRow :=
  let style : Style := if value = previous then {} else { foreground := .yellow }
  CellRow.fit 26 style <| tableRow style
    ['r' :: Text.decimal number, Text.padLeft 3 ' ' (Text.decimal value.toNat),
      "0x".toList ++ Text.hex 2 value.toNat, Text.padLeft 4 ' ' (Text.signed value.toInt8.toInt)]

def bit (b : Bool) : Text := if b then ['1'] else ['0']

def registers (p : Panel) : Area :=
  let values := p.snapshot.registers.zip p.previousRegisters
  let rows := values.zipIdx.map fun ((value, previous), i) => registerRow i value previous
  let flags := p.snapshot.flags
  Area.boxed 28 20 dim "Registers".toList {}
    (rows ++ [tableRow {} [['Z'], bit flags.zero, ['C'], bit flags.carry]])

def callStack (p : Panel) (height : Nat) : Area :=
  let calls := p.snapshot.callStack
  let lines :=
    if calls.isEmpty then [styled dim "(empty)".toList]
    else calls.reverse.map fun a => plain s!"-> {a.toNat}".toList
  Area.boxed 28 height dim s!"Call stack ({calls.length})".toList {} lines

/-! ## Listing and memory -/

def listingStyle (row : ListingRow) (selected : Bool) : Style :=
  let style : Style := if row.breakpoint then warning else {}
  let style : Style :=
    if row.current then { style with background := .yellow, foreground := .black } else style
  { style with reversed := selected }

def listingRow (width : Nat) (row : ListingRow) (selected : Bool) : CellRow :=
  let style := listingStyle row selected
  let marks : Text := [if row.breakpoint then '●' else ' ', if row.current then '▶' else ' ']
  let address := Text.padLeft 4 ' ' (Text.decimal row.address)
  CellRow.fit width style <|
    styled style (marks ++ [' '] ++ address ++ ": ".toList ++ row.bits ++ "  ".toList ++ row.text)

/-- The rows of the listing that are shown in a number of rows. -/
def visibleRows (p : Panel) (rows : Nat) : List ListingRow :=
  (p.listing.drop (p.visibleStart rows)).take rows

def listingArea (p : Panel) (width height : Nat) : Area :=
  let lines :=
    if p.listing.isEmpty then [plain "no program loaded".toList]
    else (p.visibleRows (height - 2)).map fun row =>
      listingRow (width - 2) row (p.cursor == row.address)
  Area.boxed width height dim "Program".toList {} lines

/-- Bytes in a row of the memory grid. -/
def gridColumns : Nat := 16

def gridHeader : CellRow :=
  styled dim ("     ".toList ++ (List.range gridColumns).flatMap fun column =>
    [' '] ++ Text.upperHex 1 column ++ [' '])

def byteStyle (address : Nat) (changed : Bool) : Style :=
  if changed then { foreground := .yellow, bold := true }
  else if Port.base ≤ address then { foreground := .cyan }
  else {}

def gridByte (address : Nat) (value previous : UInt8) : CellRow :=
  styled (byteStyle address (value != previous)) (Text.upperHex 2 value.toNat ++ [' '])

def gridRow (memory previous : List UInt8) (row : Nat) : CellRow :=
  let base := row * gridColumns
  styled dim (Text.upperHex 2 base ++ " | ".toList) ++
    (List.range gridColumns).flatMap fun column =>
      let address := base + column
      gridByte address (memory.getD address 0) (previous.getD address 0)

def memoryGrid (memory previous : List UInt8) : Area :=
  gridHeader :: (List.range (memory.length / gridColumns)).map (gridRow memory previous)

def memoryArea (p : Panel) (width : Nat) : Area :=
  Area.boxed width 19 dim "Memory (ports from 0xF0)".toList {}
    (memoryGrid p.snapshot.memory p.previousMemory)

/-! ## Devices -/

/-- Two pixels, one above the other. -/
def halfBlock (top bottom : Bool) : Char :=
  match top, bottom with
  | true, true => '█'
  | true, false => '▀'
  | false, true => '▄'
  | false, false => ' '

/-- Rows of half blocks, each of which shows two rows of pixels. -/
def halfBlockRows : List (List Bool) → List Text
  | top :: bottom :: rest => top.zipWith halfBlock bottom :: halfBlockRows rest
  | [top] => [top.map fun lit => halfBlock lit false]
  | [] => []

def screenArea (p : Panel) : Area :=
  let s := p.snapshot
  let style : Style := { foreground := .lightGreen }
  Area.boxed 34 18 dim s!"Screen ({s.pixelX.val},{s.pixelY.val})".toList style
    ((halfBlockRows s.screen).map (styled style))

def numberArea (p : Panel) : Area :=
  let s := p.snapshot
  let text := match s.numberDisplay with
    | some n => Text.signed n
    | none => ['-']
  let mode := if s.signedMode then "signed" else "unsigned"
  Area.boxed 34 3 dim s!"Number ({mode})".toList {} [plain (Text.padLeft 32 ' ' text)]

/-- Cuts text into pieces of a width. -/
def wrapText (width : Nat) (s : Text) : List Text :=
  (List.range ((s.length + width - 1) / width)).map fun i => (s.drop (i * width)).take width

def charsArea (p : Panel) (height : Nat) : Area :=
  let s := p.snapshot
  Area.boxed 34 height dim
    ("Chars (pending: ".toList ++ Text.quoted s.pendingChars.toList ++ [')']) {}
    ((wrapText 32 s.charBuffer.toList).map plain)

def controllerArea (p : Panel) : Area :=
  let n := p.controller.toNat
  let buttons := (List.range 8).map fun i => if n.testBit i then '■' else '□'
  Area.boxed 34 3 dim "Controller 1-8".toList {}
    [plain (buttons ++ "  0b".toList ++ Text.binary 8 n)]

/-! ## The whole frame -/

/-- The frame for a terminal of at least 118 columns and 33 rows. -/
def frame (p : Panel) (width height : Nat) : Area :=
  let body := height - 6
  let middleWidth := width - 62
  let left := p.registers.above (p.callStack (body - 20))
  let middle := (p.listingArea middleWidth (body - 19)).above (p.memoryArea middleWidth)
  let right := p.screenArea.above
    (p.numberArea.above ((p.charsArea (body - 24)).above p.controllerArea))
  (p.header width).above ((left.beside (middle.beside right)).above (p.footer width))

end ByteMachine.Panel
