import ByteMachine.Proofs.MemoryEvents

/-!
# The history of the text and number displays

Characters wait until they are sent to the text display, and nothing is lost or shown twice on the
way: what is shown and what is waiting are together what was written since the last clearing, each
character once and in its order, and what is shown was written before the last sending. The number
display has the last byte that it was given since it was cleared, and reads it in the mode that was
set last, before or after the byte came.
-/
namespace ByteMachine

theorem displayChar_printable (value : UInt8) :
    0x20 ≤ (displayChar value).toNat ∧ (displayChar value).toNat ≤ 0x7E := by
  have hall : ∀ n : Fin 256, 0x20 ≤ (displayChar (.ofNat n.val)).toNat ∧
      (displayChar (.ofNat n.val)).toNat ≤ 0x7E := by decide +kernel
  have hvalue := hall ⟨value.toNat, value.toNat_lt⟩
  rwa [UInt8.ofNat_toNat] at hvalue

namespace Memory

/-- The events up to the last one that ends what was before it, none if there is none. -/
def upTo (ends : Event → Bool) (history : List Event) : List Event :=
  history.rdropWhile (!ends ·)

def sinceCleared (period : List Event) : List Event := since (·.storesTo 249) period

/-- The latest event that sets a mode sets the signed one. -/
def SignedMode (period : List Event) : Prop :=
  ∃ before e, Latest (fun _ e => e.storesTo 252 = true ∨ e.storesTo 253 = true) period before e ∧
    e.storesTo 252 = true

def reading (isSigned : Bool) (byte : UInt8) : Int :=
  if isSigned = true ∧ 128 ≤ byte.toNat then byte.toNat - 256 else byte.toNat

theorem upTo_snoc (ends : Event → Bool) (history : List Event) (e : Event) :
    upTo ends (history ++ [e]) = if ends e then history ++ [e] else upTo ends history := by
  rw [upTo, List.rdropWhile_concat]
  cases ends e <;> rfl

theorem reading_eq (isSigned : Bool) (byte : UInt8) :
    reading isSigned byte = if isSigned then byte.toInt8.toInt else byte.toNat := by
  have hbyte : byte.toNat < 256 := byte.toNat_lt
  have hsigned : byte.toInt8.toInt = Int.bmod byte.toNat 256 := byte.toBitVec.toInt_eq_toNat_bmod
  cases isSigned with
  | false => simp [reading]
  | true =>
    rw [reading, if_pos rfl, hsigned, Int.bmod]
    simp only [true_and]
    split <;> split <;> omega

theorem not_signedMode_nil : ¬ SignedMode [] := by
  rintro ⟨before, e, hlatest, -⟩
  exact not_latest_nil _ before e hlatest

theorem signedMode_snoc (period : List Event) (e : Event) : SignedMode (period ++ [e]) ↔
    ((e.storesTo 252 = true ∨ e.storesTo 253 = true) ∧ e.storesTo 252 = true) ∨
      (¬ (e.storesTo 252 = true ∨ e.storesTo 253 = true) ∧ SignedMode period) :=
  exists_latest_snoc (P := fun _ e => e.storesTo 252 = true)

section Displays
variable {d d' : Devices} {e : Event} (h : Displays d e d')
include h

/-- What was written grows by a character or is cleared. -/
theorem written_of_displays : d'.shown.toList ++ d'.pending.toList =
    if e.storesTo 249 then [] else
      d.shown.toList ++ d.pending.toList ++ (e.byteTo? 247).toList.map displayChar := by
  cases h with
  | write port value =>
    cases port <;> simp [Devices.write, Port.address, Event.storesTo, Event.byteTo?_store]
  | keep h controller generator =>
    have hclear : e.storesTo 249 = false := Event.storesTo_eq_false (h .clearCharsBuffer)
    have hwrite : e.byteTo? 247 = none := h .writeChar
    simp [hclear, hwrite]

/-- Once it is sent to the display, all that was written is shown. -/
theorem shown_of_displays : d'.shown.toList =
    if e.storesTo 249 then [] else
      if e.storesTo 248 then d'.shown.toList ++ d'.pending.toList else d.shown.toList := by
  cases h with
  | write port value =>
    cases port <;> simp [Devices.write, Port.address, Event.storesTo, Event.byteTo?_store]
  | keep h controller generator =>
    have hclear : e.storesTo 249 = false := Event.storesTo_eq_false (h .clearCharsBuffer)
    have hsend : e.storesTo 248 = false := Event.storesTo_eq_false (h .bufferChars)
    simp [hclear, hsend]

theorem number_of_displays :
    d'.number = if e.storesTo 251 then none else (e.byteTo? 250).or d.number := by
  cases h with
  | write port value => cases port <;> rfl
  | keep h controller generator =>
    have hclear : e.storesTo 251 = false := Event.storesTo_eq_false (h .clearNumber)
    have hshow : e.byteTo? 250 = none := h .showNumber
    rw [hclear, hshow]
    rfl

theorem isSigned_of_displays : d'.isSigned = true ↔
    ((e.storesTo 252 = true ∨ e.storesTo 253 = true) ∧ e.storesTo 252 = true) ∨
      (¬ (e.storesTo 252 = true ∨ e.storesTo 253 = true) ∧ d.isSigned = true) := by
  cases h with
  | write port value =>
    simp only [Event.storesTo_store]
    cases port <;> simp [Devices.write, Port.address]
  | keep h controller generator =>
    have hsigned : e.storesTo 252 = false := Event.storesTo_eq_false (h .signedMode)
    have hunsigned : e.storesTo 253 = false := Event.storesTo_eq_false (h .unsignedMode)
    simp [hsigned, hunsigned]

end Displays

structure Shows (period : List Event) (d : Devices) : Prop where
  written : d.shown.toList ++ d.pending.toList =
    (bytesTo 247 (sinceCleared period)).map displayChar
  shown : d.shown.toList =
    (bytesTo 247 (upTo (·.storesTo 248) (sinceCleared period))).map displayChar
  number : d.number = (bytesTo 250 (since (·.storesTo 251) period)).getLast?
  isSigned : d.isSigned = true ↔ SignedMode period

namespace Shows
variable {period : List Event} {d d' : Devices} {e : Event}

theorem blank (hshown : d.shown = "") (hpending : d.pending = "") (hnumber : d.number = none)
    (hmode : d.isSigned = false) : Shows [] d where
  written := by
    rw [hshown, hpending]
    rfl
  shown := by
    rw [hshown]
    rfl
  number := hnumber
  isSigned := by simp [hmode, not_signedMode_nil]

theorem displays (h : Shows period d) (hd : Displays d e d') : Shows (period ++ [e]) d' := by
  have hwritten : d'.shown.toList ++ d'.pending.toList =
      (bytesTo 247 (sinceCleared (period ++ [e]))).map displayChar := by
    rw [written_of_displays hd, sinceCleared, since_snoc, h.written]
    split
    · rfl
    · rw [bytesTo_snoc, List.map_append]
      rfl
  refine ⟨hwritten, ?_, ?_, ?_⟩
  · rw [shown_of_displays hd, hwritten, h.shown, sinceCleared, sinceCleared, since_snoc]
    split
    · rfl
    · rw [upTo_snoc]
      split <;> rfl
  · rw [number_of_displays hd, h.number, since_snoc]
    split
    · rfl
    · rw [bytesTo_snoc, List.getLast?_append]
      cases e.byteTo? 250 <;> rfl
  · rw [isSigned_of_displays hd, signedMode_snoc, h.isSigned]

end Shows

theorem shows_after (source : RandomSource) (history : List Event) :
    Shows (since Event.isReset history) (after source history).devices := by
  refine after_induction (P := fun period m => Shows period m.devices) source
    (.blank rfl rfl rfl rfl) ?_ ?_ history
  · exact fun _ _ _ => .blank rfl rfl rfl rfl
  · exact fun _ m e he h => h.displays (m.displays_perform he)

/-- What the text and number displays are after any history. -/
theorem displays_of_history (source : RandomSource) (history : List Event) :
    let d := (after source history).devices
    let period := since Event.isReset history
    let text := sinceCleared period
    let bytes := bytesTo 250 (since (·.storesTo 251) period)
    (d.shown ++ d.pending).toList = (bytesTo 247 text).map displayChar ∧
      d.shown.toList = (bytesTo 247 (upTo (·.storesTo 248) text)).map displayChar ∧
      (∀ c ∈ (d.shown ++ d.pending).toList, 0x20 ≤ c.toNat ∧ c.toNat ≤ 0x7E) ∧
      (d.numberShown = none ↔ bytes = []) ∧
      (d.isSigned = true ↔ SignedMode period) ∧
      d.numberShown = bytes.getLast?.map (reading d.isSigned) := by
  intro d period text bytes
  have h : Shows period d := shows_after source history
  have hwritten : (d.shown ++ d.pending).toList = (bytesTo 247 text).map displayChar := by
    rw [String.toList_append]
    exact h.written
  have hnumber : d.numberShown = bytes.getLast?.map (reading d.isSigned) := by
    rw [Devices.numberShown, h.number, funext (reading_eq d.isSigned)]
  refine ⟨hwritten, h.shown, ?_, ?_, h.isSigned, hnumber⟩
  · intro c hc
    rw [hwritten] at hc
    obtain ⟨value, -, rfl⟩ := List.mem_map.mp hc
    exact displayChar_printable value
  · rw [hnumber, Option.map_eq_none_iff, List.getLast?_eq_none_iff]

end Memory
end ByteMachine
