import ByteMachine.Session.Basic

/-!
# The panel

An interactive view of a session, driven by keys and by ticks of a clock. It keeps what it has last
read from the session, what the registers and the memory held before the last execution, and a
cursor in the listing.
-/
namespace ByteMachine

structure Panel where
  session : Session
  title : Text
  snapshot : Snapshot
  listing : List ListingRow
  previousRegisters : List UInt8
  previousMemory : List UInt8
  cursor : Nat := 0
  /-- The first row of the listing that is shown, unless the cursor lies below the rows shown. -/
  scroll : Nat := 0
  controller : UInt8 := 0
  running : Bool := false
  message : Option String := none
  quit : Bool := false

inductive Key where
  | char (c : Char)
  | up
  | down
  | pageUp
  | pageDown
  | home
  | last
  | escape
  | other
  deriving DecidableEq, Repr

inductive KeyAction where
  | press
  | release
  | repeated
  deriving DecidableEq, Repr

structure KeyEvent where
  key : Key
  control : Bool := false
  action : KeyAction := .press
  deriving DecidableEq, Repr

inductive Event where
  | key (event : KeyEvent)
  /-- A tick of the clock, which may come before the next batch of instructions is due. -/
  | tick (due : Bool)
  deriving DecidableEq, Repr

namespace Panel

/-- Instructions that a tick executes while the panel is running. -/
def batch : Nat := 64

/-- Rows that a page key moves the cursor by. -/
def pageRows : Nat := 16

def new (session : Session) (title : Text) : Panel :=
  let snapshot := session.snapshot
  { session
    title
    snapshot
    listing := session.listing
    previousRegisters := snapshot.registers
    previousMemory := snapshot.memory }

/-- Reads back what a session has come to. A fault is shown, and a halt ends running. -/
def apply (p : Panel) (session : Session) : Panel :=
  let snapshot := session.snapshot
  { p with
    session
    snapshot
    listing := session.listing
    message := snapshot.fault.or p.message
    running := p.running && !snapshot.halted }

/-- Keeps what is shown now for comparison with what comes. -/
def remember (p : Panel) : Panel :=
  { p with previousRegisters := p.snapshot.registers, previousMemory := p.snapshot.memory }

def singleStep (p : Panel) : Panel :=
  let p := { p with running := false }.remember
  p.apply p.session.step

def toggleRunning (p : Panel) : Panel :=
  if p.snapshot.halted then { p with message := some "halted, press x to reset" }
  else { p with running := !p.running, message := none }

def reset (p : Panel) : Panel :=
  let session := p.session.reset
  { p with running := false, message := some "reset" }.apply session |>.remember

def toggleBreakpoint (p : Panel) : Panel :=
  let (session, toggle) := p.session.breakpoint p.cursor
  { p with
    session
    listing := session.listing
    message := toggle.map fun t => s!"breakpoint {t.name} at {p.cursor}" }

def setController (p : Panel) (value : UInt8) : Panel :=
  { p with controller := value }.apply (p.session.input value)

/-- Flips one button of the controller. -/
def pressButton (p : Panel) (button : Nat) : Panel :=
  p.setController (p.controller ^^^ (1 <<< UInt8.ofNat button))

def lastRow (p : Panel) : Nat := p.listing.length - 1

def moveCursor (p : Panel) (row : Nat) : Panel := { p with cursor := min row p.lastRow }

/-- Scrolls up until the cursor is not above the rows shown. -/
def followCursor (p : Panel) : Panel := { p with scroll := min p.scroll p.cursor }

/-- The effect of a key, apart from scrolling. -/
def pressKey (p : Panel) : Key → Panel
  | .escape => { p with quit := true }
  | .up => p.moveCursor (p.cursor - 1)
  | .down => p.moveCursor (p.cursor + 1)
  | .pageUp => p.moveCursor (p.cursor - pageRows)
  | .pageDown => p.moveCursor (p.cursor + pageRows)
  | .home => p.moveCursor 0
  | .last => p.moveCursor p.lastRow
  | .other => p
  | .char c =>
    match c with
    | 'q' => { p with quit := true }
    | 's' => p.singleStep
    | 'r' => p.toggleRunning
    | 'x' => p.reset
    | 'b' => p.toggleBreakpoint
    | 'g' => p.moveCursor p.snapshot.pc.toNat
    | '0' => p.setController 0
    | c => if '1' ≤ c ∧ c ≤ '8' then p.pressButton (c.toNat - '1'.toNat) else p

/-- Only presses count. Control and `c` quits at once; with other keys control makes no difference.
-/
def handleKey (p : Panel) (e : KeyEvent) : Panel :=
  if e.action ≠ .press then p
  else if e.control ∧ e.key = .char 'c' then { p with quit := true }
  else (p.pressKey e.key).followCursor

/-- Executes a batch, and pauses at a breakpoint. -/
def runBatch (p : Panel) : Panel :=
  let p := p.remember
  let session := p.session.run (some batch)
  let p :=
    if session.stop = some .breakpoint then
      { p with
        running := false
        message := some s!"breakpoint at {session.machine.processor.pc.toNat}" }
    else p
  p.apply session

/-- While the panel is running, the listing follows the program counter two rows behind. -/
def tick (p : Panel) (due : Bool) : Panel :=
  let p := if p.running && due then p.runBatch else p
  if p.running then { p with scroll := p.snapshot.pc.toNat - 2 } else p

def handle (p : Panel) : Event → Panel
  | .key e => p.handleKey e
  | .tick due => p.tick due

/-- The first row of the listing that is shown in a number of rows. -/
def visibleStart (p : Panel) (rows : Nat) : Nat :=
  let rows := max rows 1
  let start := if p.scroll + rows ≤ p.cursor then p.cursor + 1 - rows else p.scroll
  min start p.lastRow

end Panel
end ByteMachine
