import ByteMachine.Service.Reply

/-!
# Replies to requests

What a session does on an operation, and the JSON object that it replies with. A reply that shows
the state has a member for everything that can be seen of the machine after the operation; the
replies to loads and breakpoints say what has become of them.
-/
namespace ByteMachine

open Json (Value)

theorem zipIdx_map_range {α : Type} (f : Nat → α) (n : Nat) :
    ((List.range n).map f).zipIdx = (List.range n).map fun i => (f i, i) := by
  apply List.ext_getElem
  · simp
  · intro i hi hi'
    simp

/-- The registers that are not zero, in order. -/
theorem outputsOf_visibleRegisters (p : Processor) :
    outputsOf p.visibleRegisters =
      ((List.range 16).filter fun i => p.read (.ofNat i) != 0).map fun i =>
        s!"r{i} = {p.read (.ofNat i)}" := by
  rw [outputsOf, Processor.visibleRegisters, zipIdx_map_range, List.filter_map, List.map_map]
  rfl

theorem toList_cells (m : Memory) :
    m.cells.toList = (List.range 256).map fun a => m.cell (.ofNat a) := by
  apply List.ext_getElem
  · simp
  · intro a ha ha'
    have hplace : a < 256 := by simpa using ha'
    simp [Memory.cell, Vector.get, Nat.mod_eq_of_lt hplace]

namespace Session

def stateMembers (s : Session) : List (String × Value) :=
  let p := s.machine.processor
  let d := s.machine.memory.devices
  let cell (a : Nat) : UInt8 := s.machine.memory.cell (.ofNat a)
  let pixel (x y : Coordinate) : Nat := if d.visible.get x y then 1 else 0
  [("callStack", .array (p.calls.reverse.map fun a => .ofNat a.toNat)),
    ("charBuffer", .ofString d.shown),
    ("fault", .ofOption (fun fault => .ofString fault.message) s.fault),
    ("flags", .record [("carry", .bool p.flags.carry), ("zero", .bool p.flags.zero)]),
    ("halted", .bool p.isHalted),
    ("instructions", .ofNat p.executed),
    ("lastInstruction",
      .ofOption (fun w => .string (wordText w)) (p.last.bind fun a => s.program.word? a.toNat)),
    ("memory", .array ((List.range 256).map fun a => .ofNat (cell a).toNat)),
    ("numberDisplay", .ofOption .integer d.numberShown),
    ("outputs", .array (((List.range 16).filter fun i => p.read (.ofNat i) != 0).map fun i =>
      .ofString s!"r{i} = {p.read (.ofNat i)}")),
    ("pc", .ofNat p.pc.toNat),
    ("pendingChars", .ofString d.pending),
    ("pixelX", .ofNat d.cursorX),
    ("pixelY", .ofNat d.cursorY),
    ("programLength", .ofNat s.program.size),
    ("registers", .array ((List.range 16).map fun i => .ofNat (p.read (.ofNat i)).toNat)),
    ("screen", .array ((List.finRange 32).map fun y =>
      .array ((List.finRange 32).map fun x => .ofNat (pixel x y)))),
    ("signedMode", .bool d.isSigned),
    ("stopReason", .ofOption (fun reason => .ofString reason.name) s.stop)]

theorem toJson_snapshot (s : Session) : s.snapshot.toJson = .record s.stateMembers := by
  have hlast : ∀ word? : Option UInt16,
      Value.ofOption .ofString (word?.map fun w => String.ofList (wordText w)) =
        .ofOption (fun w => .string (wordText w)) word?
    | none => rfl
    | some w => by simp [Value.ofOption, Value.ofString]
  have hfault : ∀ fault? : Option Fault, Value.ofOption .ofString (fault?.map Fault.message) =
      .ofOption (fun fault => .ofString fault.message) fault?
    | none => rfl
    | some fault => rfl
  simp only [snapshot, Machine.snapshot, Snapshot.toJson, hlast, hfault,
    outputsOf_visibleRegisters, toList_cells]
  simp only [Processor.visibleRegisters, Plane.rows, List.map_map, Function.comp_def, Plane.row]
  rfl

def rowJson (s : Session) (w : UInt16) (address : Nat) : Value :=
  .record
    [("addr", .ofNat address), ("binary", .string (wordBits w)),
      ("breakpoint", .bool (s.breakpoints.contains address)),
      ("current", .bool (address == s.machine.processor.pc.toNat)),
      ("text", .string (wordText w))]

theorem toJson_listing (s : Session) :
    s.listing.map ListingRow.toJson =
      s.program.words.toList.zipIdx.map fun x => s.rowJson x.1 x.2 := by
  rw [listing, Program.listing, List.map_map]
  rfl

/-- An operation of a session, the session after it, and the members of the object in the reply. -/
inductive Replies (s : Session) : Operation → Session → List (String × Value) → Prop
  | loaded {source : Text} {p : Program} (h : assemble source = .ok p) :
      Replies s (.load source) (s.install p)
        [("message", .ofString s!"assembled {p.size} instructions"), ("success", .bool true)]
  | rejected {source : Text} {ds : List (Diagnostic SourceError)}
      (h : assemble source = .error ds) :
      Replies s (.load source) s
        [("message", .ofString (reportText SourceError.message ds)), ("success", .bool false)]
  | loadedImage {image : Text} {p : Program} (h : readImage image = .ok p) :
      Replies s (.loadImage image) (s.install p)
        [("message", .ofString s!"loaded {p.size} instructions"), ("success", .bool true)]
  | rejectedImage {image : Text} {ds : List (Diagnostic ImageError)}
      (h : readImage image = .error ds) :
      Replies s (.loadImage image) s
        [("message", .ofString (reportText ImageError.message ds)), ("success", .bool false)]
  | step : Replies s .step s.step s.step.stateMembers
  | run (limit : Option Nat) : Replies s (.run limit) (s.run limit) (s.run limit).stateMembers
  | reset : Replies s .reset s.reset s.reset.stateMembers
  | state : Replies s .state s s.stateMembers
  | listing :
      Replies s .listing s
        [("disasm", .array (s.program.words.toList.zipIdx.map fun x => s.rowJson x.1 x.2))]
  | added {address : Nat} (hlimit : address < 1024)
      (hfree : s.breakpoints.contains address = false) :
      Replies s (.breakpoint address) { s with breakpoints := (s.breakpoints.toggle address).1 }
        [("action", .ofString "added"), ("success", .bool true)]
  | removed {address : Nat} (hlimit : address < 1024)
      (hset : s.breakpoints.contains address = true) :
      Replies s (.breakpoint address) { s with breakpoints := (s.breakpoints.toggle address).1 }
        [("action", .ofString "removed"), ("success", .bool true)]
  | outside {address : Nat} (hlimit : 1024 ≤ address) :
      Replies s (.breakpoint address) s [("success", .bool false)]
  | input (value : UInt8) : Replies s (.input value) (s.input value) (s.input value).stateMembers

theorem replies_perform (s : Session) (op : Operation) :
    ∃ members, Replies s op (s.perform op).1 members ∧
      (s.perform op).2.toJson = .record members := by
  cases op with
  | load source =>
    simp only [perform, load]
    cases h : assemble source with
    | ok p => exact ⟨_, .loaded h, rfl⟩
    | error ds => exact ⟨_, .rejected h, rfl⟩
  | loadImage image =>
    simp only [perform, loadImage]
    cases h : readImage image with
    | ok p => exact ⟨_, .loadedImage h, rfl⟩
    | error ds => exact ⟨_, .rejectedImage h, rfl⟩
  | step => exact ⟨_, .step, s.step.toJson_snapshot⟩
  | run limit => exact ⟨_, .run limit, (s.run limit).toJson_snapshot⟩
  | reset => exact ⟨_, .reset, s.reset.toJson_snapshot⟩
  | state => exact ⟨_, .state, s.toJson_snapshot⟩
  | listing =>
    refine ⟨_, .listing, ?_⟩
    simp only [perform, Response.toJson, toJson_listing]
  | breakpoint address =>
    rcases Nat.lt_or_ge address 1024 with hlimit | hlimit
    · simp only [perform, breakpoint_of_lt hlimit, Breakpoints.toggle_snd]
      cases hcontains : s.breakpoints.contains address with
      | true => exact ⟨_, .removed hlimit hcontains, rfl⟩
      | false => exact ⟨_, .added hlimit hcontains, rfl⟩
    · simp only [perform, breakpoint_of_le hlimit]
      exact ⟨_, .outside hlimit, rfl⟩
  | input value => exact ⟨_, .input value, (s.input value).toJson_snapshot⟩

end Session
end ByteMachine
