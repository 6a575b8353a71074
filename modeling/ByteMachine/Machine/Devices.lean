import ByteMachine.Machine.Generator
import ByteMachine.Machine.Screen

/-!
# Devices

Sixteen ports at the top of the memory drive a screen of two planes, a text display and a number
display, and read a controller and a random generator. What is drawn or written shows only when its
buffer is sent to the display.
-/
namespace ByteMachine

inductive Port where
  | pixelX | pixelY | drawPixel | clearPixel | loadPixel | bufferScreen | clearScreenBuffer
  | writeChar | bufferChars | clearCharsBuffer
  | showNumber | clearNumber | signedMode | unsignedMode
  | random | controller
  deriving DecidableEq, Repr

namespace Port

/-- The ports in the order of their addresses. -/
def all : List Port :=
  [pixelX, pixelY, drawPixel, clearPixel, loadPixel, bufferScreen, clearScreenBuffer, writeChar,
    bufferChars, clearCharsBuffer, showNumber, clearNumber, signedMode, unsignedMode, random,
    controller]

def name : Port → String
  | pixelX => "pixel_x"
  | pixelY => "pixel_y"
  | drawPixel => "draw_pixel"
  | clearPixel => "clear_pixel"
  | loadPixel => "load_pixel"
  | bufferScreen => "buffer_screen"
  | clearScreenBuffer => "clear_screen_buffer"
  | writeChar => "write_char"
  | bufferChars => "buffer_chars"
  | clearCharsBuffer => "clear_chars_buffer"
  | showNumber => "show_number"
  | clearNumber => "clear_number"
  | signedMode => "signed_mode"
  | unsignedMode => "unsigned_mode"
  | random => "rng"
  | controller => "controller_input"

/-- The address of the first port. -/
def base : Nat := 240

def ofAddress? (address : UInt8) : Option Port :=
  if address.toNat < base then none else all[address.toNat - base]?

end Port

/-- The character set of the text display: a short code for letters and marks, and printable ASCII.
-/
def displayChar (value : UInt8) : Char :=
  let n := value.toNat
  if n = 0 then ' '
  else if n ≤ 26 then Char.ofNat ('a'.toNat + n - 1)
  else if n = 27 then '.'
  else if n = 28 then '!'
  else if 32 ≤ n ∧ n ≤ 126 then Char.ofNat n
  else '?'

structure Devices where
  cursorX : Coordinate := .origin
  cursorY : Coordinate := .origin
  drawn : Plane := .blank
  visible : Plane := .blank
  pending : String := ""
  shown : String := ""
  number : Option UInt8 := none
  isSigned : Bool := false
  controller : UInt8 := 0
  generator : Generator

namespace Devices

def new (source : RandomSource) : Devices := { generator := { source } }

/-- All as new but the controller, which is set from outside. The generator is restarted. -/
def reset (d : Devices) : Devices :=
  { generator := d.generator.restart, controller := d.controller }

/-- The number on display, as the current mode reads its byte. -/
def numberShown (d : Devices) : Option Int :=
  d.number.map fun n => if d.isSigned then n.toInt8.toInt else n.toNat

def write (d : Devices) (value : UInt8) : Port → Devices
  | .pixelX => { d with cursorX := .ofByte value }
  | .pixelY => { d with cursorY := .ofByte value }
  | .drawPixel => { d with drawn := d.drawn.set d.cursorX d.cursorY (value != 0) }
  | .clearPixel => { d with drawn := d.drawn.set d.cursorX d.cursorY false }
  | .bufferScreen => { d with visible := d.drawn }
  | .clearScreenBuffer => { d with drawn := .blank }
  | .writeChar => { d with pending := d.pending.push (displayChar value) }
  | .bufferChars => { d with shown := d.shown ++ d.pending, pending := "" }
  | .clearCharsBuffer => { d with shown := "", pending := "" }
  | .showNumber => { d with number := some value }
  | .clearNumber => { d with number := none }
  | .signedMode => { d with isSigned := true }
  | .unsignedMode => { d with isSigned := false }
  | .loadPixel | .random | .controller => d

/-- The byte that a port answers with, if it answers at all. Only the random port changes by being
read. -/
def read (d : Devices) : Port → Option UInt8 × Devices
  | .loadPixel => (some (if d.drawn.get d.cursorX d.cursorY then 1 else 0), d)
  | .random =>
    let (byte, generator) := d.generator.draw
    (some byte, { d with generator })
  | .controller => (some d.controller, d)
  | _ => (none, d)

end Devices
end ByteMachine
