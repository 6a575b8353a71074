import ByteMachine.Proofs.MemoryEvents

/-!
# The history of the screen

Pixels are drawn and cleared at a cursor, on a plane that is not seen, and the screen shows this
plane as it was when it was last sent there. So what happened since the last reset tells for every
pixel whether it is lit on the plane and whether the screen shows it: the first depends on the
latest event that drew or cleared the pixel, the second on the first at the time of the latest
sending.
-/
namespace ByteMachine.Memory

def CursorAt (period : List Event) (x y : Coordinate) : Prop :=
  x.val = (lastByteTo 240 period).toNat % 32 ∧ y.val = (lastByteTo 241 period).toNat % 32

/-- An event concerns a pixel when it draws or clears at the cursor and that is at the pixel, or
when it clears the whole plane. -/
def Concerns (x y : Coordinate) (before : List Event) (e : Event) : Prop :=
  ((e.storesTo 242 = true ∨ e.storesTo 243 = true) ∧ CursorAt before x y) ∨ e.storesTo 246 = true

def Lit (period : List Event) (x y : Coordinate) : Prop :=
  ∃ before e, Latest (Concerns x y) period before e ∧ ∃ value ≠ 0, e = .store 242 value

def Shown (period : List Event) (x y : Coordinate) : Prop :=
  ∃ before e, Latest (fun _ e => e.storesTo 245 = true) period before e ∧ Lit before x y

theorem not_lit_nil (x y : Coordinate) : ¬ Lit [] x y := by
  rintro ⟨before, e, hlatest, -⟩
  exact not_latest_nil _ before e hlatest

theorem not_shown_nil (x y : Coordinate) : ¬ Shown [] x y := by
  rintro ⟨before, e, hlatest, -⟩
  exact not_latest_nil _ before e hlatest

theorem lit_snoc (period : List Event) (e : Event) (x y : Coordinate) :
    Lit (period ++ [e]) x y ↔ (Concerns x y period e ∧ ∃ value ≠ 0, e = .store 242 value) ∨
      (¬ Concerns x y period e ∧ Lit period x y) :=
  exists_latest_snoc (P := fun _ e => ∃ value ≠ 0, e = .store 242 value)

theorem shown_snoc (period : List Event) (e : Event) (x y : Coordinate) :
    Shown (period ++ [e]) x y ↔ (e.storesTo 245 = true ∧ Lit period x y) ∨
      (¬ e.storesTo 245 = true ∧ Shown period x y) :=
  exists_latest_snoc (P := fun before _ => Lit before x y)

section Displays
variable {d d' : Devices} {e : Event} (h : Displays d e d')
include h

theorem cursor_of_displays :
    d'.cursorX = ((e.byteTo? 240).map .ofByte).getD d.cursorX ∧
      d'.cursorY = ((e.byteTo? 241).map .ofByte).getD d.cursorY := by
  cases h with
  | write port value => cases port <;> exact ⟨rfl, rfl⟩
  | keep h controller generator =>
    have hx : e.byteTo? 240 = none := h .pixelX
    have hy : e.byteTo? 241 = none := h .pixelY
    rw [hx, hy]
    exact ⟨rfl, rfl⟩

theorem visible_of_displays : d'.visible = if e.storesTo 245 then d.drawn else d.visible := by
  cases h with
  | write port value => cases port <;> rfl
  | keep h controller generator =>
    have hnone : e.storesTo 245 = false := Event.storesTo_eq_false (h .bufferScreen)
    rw [hnone]
    rfl

/-- A pixel of the plane changes by the events that concern it, and by these alone. -/
theorem get_drawn_of_displays {before : List Event} {x y : Coordinate}
    (hcursor : CursorAt before x y ↔ d.cursorX = x ∧ d.cursorY = y) :
    d'.drawn.get x y = true ↔ (Concerns x y before e ∧ ∃ value ≠ 0, e = .store 242 value) ∨
      (¬ Concerns x y before e ∧ d.drawn.get x y = true) := by
  cases h with
  | write port value =>
    simp only [Concerns, Event.storesTo_store, hcursor]
    cases port with
    | drawPixel | clearPixel =>
      by_cases hhere : d.cursorX = x ∧ d.cursorY = y
      · simp [Devices.write, Port.address, Plane.get_set, hhere]
      · simp [Devices.write, Port.address, Plane.get_set, hhere]
    | clearScreenBuffer => simp [Devices.write, Port.address, Plane.get_blank]
    | _ => simp [Devices.write, Port.address]
  | keep h controller generator =>
    have hdraw : e.storesTo 242 = false := Event.storesTo_eq_false (h .drawPixel)
    have hclear : e.storesTo 243 = false := Event.storesTo_eq_false (h .clearPixel)
    have hall : e.storesTo 246 = false := Event.storesTo_eq_false (h .clearScreenBuffer)
    simp [Concerns, hdraw, hclear, hall]

end Displays

structure Pictures (period : List Event) (d : Devices) : Prop where
  cursorX : d.cursorX = .ofByte (lastByteTo 240 period)
  cursorY : d.cursorY = .ofByte (lastByteTo 241 period)
  drawn (x y : Coordinate) : d.drawn.get x y = true ↔ Lit period x y
  visible (x y : Coordinate) : d.visible.get x y = true ↔ Shown period x y

namespace Pictures
variable {period : List Event} {d d' : Devices} {e : Event}

theorem blank (hx : d.cursorX = .origin) (hy : d.cursorY = .origin) (hdrawn : d.drawn = .blank)
    (hvisible : d.visible = .blank) : Pictures [] d where
  cursorX := hx
  cursorY := hy
  drawn x y := by simp [hdrawn, Plane.get_blank, not_lit_nil]
  visible x y := by simp [hvisible, Plane.get_blank, not_shown_nil]

theorem cursorAt_iff (h : Pictures period d) (x y : Coordinate) :
    CursorAt period x y ↔ d.cursorX = x ∧ d.cursorY = y := by
  rw [h.cursorX, h.cursorY, Fin.ext_iff, Fin.ext_iff, eq_comm, @eq_comm _ _ y.val]
  rfl

theorem displays (h : Pictures period d) (hd : Displays d e d') : Pictures (period ++ [e]) d' where
  cursorX := by
    rw [(cursor_of_displays hd).1, lastByteTo_snoc, h.cursorX]
    cases e.byteTo? 240 <;> rfl
  cursorY := by
    rw [(cursor_of_displays hd).2, lastByteTo_snoc, h.cursorY]
    cases e.byteTo? 241 <;> rfl
  drawn x y := by
    rw [get_drawn_of_displays hd (h.cursorAt_iff x y), lit_snoc, h.drawn]
  visible x y := by
    rw [visible_of_displays hd, shown_snoc, ← h.drawn, ← h.visible]
    cases e.storesTo 245 <;> simp

end Pictures

theorem pictures_after (source : RandomSource) (history : List Event) :
    Pictures (since Event.isReset history) (after source history).devices := by
  refine after_induction (P := fun period m => Pictures period m.devices) source
    (.blank rfl rfl rfl rfl) ?_ ?_ history
  · exact fun _ _ _ => .blank rfl rfl rfl rfl
  · exact fun _ m e he h => h.displays (m.displays_perform he)

/-- What the screen is after any history. It changes only when the plane is sent to it and by a
reset, and the pixel under the cursor is read from the plane. -/
theorem screen_of_history (source : RandomSource) (history : List Event) :
    let m := after source history
    let period := since Event.isReset history
    CursorAt period m.devices.cursorX m.devices.cursorY ∧
      (∀ x y, m.devices.drawn.get x y = true ↔ Lit period x y) ∧
      (∀ x y, m.devices.visible.get x y = true ↔ Shown period x y) ∧
      (∀ e, e ≠ .reset → e.storesTo 245 = false →
        (m.perform e).devices.visible = m.devices.visible) ∧
      (m.load 244).1 =
        if m.devices.drawn.get m.devices.cursorX m.devices.cursorY then 1 else 0 := by
  intro m period
  have h : Pictures period m.devices := pictures_after source history
  refine ⟨(h.cursorAt_iff _ _).mpr ⟨rfl, rfl⟩, h.drawn, h.visible, fun e he hnone => ?_, rfl⟩
  rw [visible_of_displays (m.displays_perform he), hnone]
  rfl

end ByteMachine.Memory
