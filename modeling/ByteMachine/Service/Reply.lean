import ByteMachine.Json.Value
import ByteMachine.Session.Basic

/-!
# Replies

The JSON form of what a session answers. Fields stand in the order of their names.
-/
namespace ByteMachine

open Json (Value)

def Snapshot.toJson (s : Snapshot) : Value :=
  .record
    [("callStack", .array (s.callStack.map fun w => .ofNat w.toNat)),
      ("charBuffer", .ofString s.charBuffer),
      ("fault", .ofOption .ofString s.fault),
      ("flags", .record [("carry", .bool s.flags.carry), ("zero", .bool s.flags.zero)]),
      ("halted", .bool s.halted),
      ("instructions", .ofNat s.instructions),
      ("lastInstruction", .ofOption .ofString s.lastInstruction),
      ("memory", .array (s.memory.map fun b => .ofNat b.toNat)),
      ("numberDisplay", .ofOption .integer s.numberDisplay),
      ("outputs", .array (s.outputs.map .ofString)),
      ("pc", .ofNat s.pc.toNat),
      ("pendingChars", .ofString s.pendingChars),
      ("pixelX", .ofNat s.pixelX),
      ("pixelY", .ofNat s.pixelY),
      ("programLength", .ofNat s.programLength),
      ("registers", .array (s.registers.map fun b => .ofNat b.toNat)),
      ("screen", .array (s.screen.map fun row => .array (row.map fun lit =>
        .ofNat (if lit then 1 else 0)))),
      ("signedMode", .bool s.signedMode),
      ("stopReason", .ofOption (fun r => .ofString r.name) s.stopReason)]

def ListingRow.toJson (row : ListingRow) : Value :=
  .record
    [("addr", .ofNat row.address), ("binary", .string row.bits),
      ("breakpoint", .bool row.breakpoint), ("current", .bool row.current),
      ("text", .string row.text)]

def Response.toJson : Response → Value
  | .loaded reply =>
    .record [("message", .ofString reply.message), ("success", .bool reply.success)]
  | .state snapshot => snapshot.toJson
  | .listing rows => .record [("disasm", .array (rows.map ListingRow.toJson))]
  | .toggled (some toggle) => .record [("action", .ofString toggle.name), ("success", .bool true)]
  | .toggled none => .record [("success", .bool false)]

end ByteMachine
