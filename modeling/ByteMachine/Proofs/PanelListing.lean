import ByteMachine.Panel.Frame
import ByteMachine.Proofs.PanelEvents

/-!
# The rows of the listing that are shown

The panel scrolls the listing when a key moves the cursor above the rows that are shown and, while
it is running, to the program counter; and it shows the rows from further down when the cursor lies
below them. So after every key the row of the cursor is shown. While the panel is running, the row
of the program counter is shown as long as the cursor is not too far below it: a cursor that is
further down keeps its own row in view, and the listing does not follow the program counter.
-/
namespace ByteMachine.Panel

theorem addresses_listing (s : Session) :
    s.listing.map (·.address) = List.range s.program.size := by
  have hmap : s.listing.map (·.address) = s.program.words.toList.zipIdx.map Prod.snd :=
    List.map_map
  rw [hmap, List.zipIdx_map_snd, List.range_eq_range']
  rfl

theorem current_of_mem_listing {s : Session} {row : ListingRow} (h : row ∈ s.listing) :
    row.current = true ↔ row.address = s.machine.processor.pc.toNat := by
  obtain ⟨⟨word, address⟩, -, rfl⟩ := List.mem_map.mp h
  exact beq_iff_eq

section Visible
variable {p : Panel} {rows : Nat}

/-- The row of an address is shown when it lies between the first and the last row shown. -/
theorem exists_visibleRow_iff (h : p.listing = p.session.listing) (rows address : Nat) :
    (∃ row ∈ p.visibleRows rows, row.address = address) ↔
      address < p.listing.length ∧ p.visibleStart rows ≤ address ∧
        address < p.visibleStart rows + rows := by
  rw [← List.mem_map, visibleRows, List.map_take, List.map_drop, h, addresses_listing,
    length_listing, List.take_drop, List.take_range, List.range_eq_range', List.drop_range',
    List.mem_range'_1]
  omega

theorem mem_listing_of_visible {row : ListingRow} (h : row ∈ p.visibleRows rows) :
    row ∈ p.listing :=
  List.mem_of_mem_drop (List.mem_of_mem_take h)

/-- A cursor that is not above the first row is shown. -/
theorem visibleStart_spec (hrows : 1 ≤ rows) (hscroll : p.scroll ≤ p.cursor)
    (hcursor : p.cursor ≤ p.lastRow) :
    p.visibleStart rows ≤ p.cursor ∧ p.cursor < p.visibleStart rows + rows := by
  unfold visibleStart
  dsimp only
  rw [Nat.max_eq_left hrows]
  split
  · omega
  · omega

end Visible

/-- A key changes no breakpoint but the one at the cursor, and only without moving the cursor. -/
theorem Pressed.eq_cursor {p q : Panel} {key : Key} (h : Pressed p key q) {address : Nat}
    (hchange : p.session.breakpoints.contains address ≠ q.session.breakpoints.contains address) :
    address = q.cursor := by
  cases h with
  | step hkey => exact absurd rfl hchange
  | reset hkey => exact absurd rfl hchange
  | mark hkey =>
    by_contra hne
    have hsession : p.toggleBreakpoint.session = (p.session.breakpoint p.cursor).1 := rfl
    rw [hsession, Session.breakpoint] at hchange
    split at hchange
    · exact hchange (p.session.breakpoints.contains_toggle_of_ne hne).symm
    · exact hchange rfl
  | sample hkey value => exact absurd rfl hchange
  | quiet hkey cursor hcursor running message quit => exact absurd rfl hchange

/-- After a key the row of the cursor is shown, and a breakpoint that the key toggled is on a row
that is shown. -/
theorem cursor_row_shown (session : Session) (title : Text) (hprogram : 0 < session.program.size)
    (es : List Event) (e : KeyEvent) (haction : e.action = .press)
    (hkey : ¬ (e.control = true ∧ e.key = .char 'c')) {rows : Nat} (hrows : 1 ≤ rows) :
    let before := (new session title).handleAll es
    let p := (new session title).handleAll (es ++ [.key e])
    p.visibleStart rows ≤ p.cursor ∧ p.cursor < p.visibleStart rows + rows ∧
      p.cursor < p.listing.length ∧ (∃ row ∈ p.visibleRows rows, row.address = p.cursor) ∧
      ∀ address, before.session.breakpoints.contains address ≠
          p.session.breakpoints.contains address →
        ∃ row ∈ p.visibleRows rows, row.address = address := by
  intro before p
  have hmirrors : p.Mirrors session.program := (Mirrors.new session title).handleAll _
  have hp : p = (before.pressKey e.key).followCursor := by
    have hhandle : p = before.handleKey e := handleAll_concat ..
    rw [hhandle, handleKey, if_neg (not_not_intro haction), if_neg hkey]
  have hscroll : p.scroll ≤ p.cursor := by
    rw [hp]
    exact Nat.min_le_right ..
  have hcursor : p.cursor ≤ p.lastRow := hmirrors.cursor_le.trans_eq hmirrors.lastRow_eq.symm
  have hlength : p.listing.length = session.program.size := by
    rw [hmirrors.listing, length_listing, hmirrors.program_eq]
  obtain ⟨hstart, hend⟩ := visibleStart_spec hrows hscroll hcursor
  have hlt : p.cursor < p.listing.length := by
    have hle := hmirrors.cursor_le
    omega
  have hrow : ∃ row ∈ p.visibleRows rows, row.address = p.cursor :=
    (exists_visibleRow_iff hmirrors.listing rows p.cursor).mpr ⟨hlt, hstart, hend⟩
  refine ⟨hstart, hend, hlt, hrow, fun address hchange => ?_⟩
  have haddress : address = p.cursor := by
    rw [hp] at hchange ⊢
    exact (before.pressed e.key).eq_cursor hchange
  rw [haddress]
  exact hrow

def looping : Session :=
  ((Session.new { seed := some 1 } default).load
    "jmp mid\nnop\nnop\nnop\n.mid jmp mid\nnop\nnop\nnop\nnop\nnop\nnop\nnop\nnop".toList).1

/-- The panel runs and scrolls away from the cursor, which stands on the first row. A breakpoint
that is then added there shows this row again. -/
theorem cursor_row_shown_looping :
    let es := [.key { key := .char 'r' }, .tick true]
    let before := (new looping "prog".toList).handleAll es
    let p := (new looping "prog".toList).handleAll (es ++ [.key { key := .char 'b' }])
    0 < looping.program.size ∧ before.visibleStart 1 = 2 ∧
      before.session.breakpoints.contains 0 ≠ p.session.breakpoints.contains 0 ∧
      p.visibleStart 1 ≤ p.cursor ∧ p.cursor < p.visibleStart 1 + 1 ∧
      ∃ row ∈ p.visibleRows 1, row.address = 0 := by
  intro es before p
  have hstart : 0 < looping.program.size ∧ before.visibleStart 1 = 2 ∧
      before.session.breakpoints.contains 0 ≠ p.session.breakpoints.contains 0 := by
    decide +kernel
  obtain ⟨hprogram, habove, hchange⟩ := hstart
  obtain ⟨hfirst, hlast, -, -, hmark⟩ := cursor_row_shown looping "prog".toList hprogram es
    { key := .char 'b' } rfl (by decide) (Nat.le_refl 1)
  exact ⟨hprogram, habove, hchange, hfirst, hlast, hmark 0 hchange⟩

/-- While the panel is running, a tick scrolls to two rows above the program counter. -/
theorem scroll_tick {p : Panel} {due : Bool} (h : (p.tick due).running = true) :
    (p.tick due).scroll = (p.tick due).snapshot.pc.toNat - 2 := by
  unfold tick at h ⊢
  dsimp only at h ⊢
  generalize (if p.running && due then p.runBatch else p) = q at h ⊢
  by_cases hrunning : q.running = true
  · rw [if_pos hrunning]
  · rw [if_neg hrunning] at h
    exact absurd h hrunning

/-- Two rows above an address is close enough for three rows to hold its row, unless the cursor
moves them down past it. -/
theorem visibleStart_follows_iff {p : Panel} {pc rows : Nat} (hscroll : p.scroll = pc - 2)
    (hrows : 3 ≤ rows) (hpc : pc ≤ p.lastRow) (hcursor : p.cursor ≤ p.lastRow) :
    (p.visibleStart rows ≤ pc ∧ pc < p.visibleStart rows + rows) ↔ p.cursor < pc + rows := by
  unfold visibleStart
  dsimp only
  rw [Nat.max_eq_left (by omega), hscroll]
  split
  · omega
  · omega

/-- After a tick that leaves the panel running, the row of the program counter is among three or
more rows exactly when the cursor is not further below it than they reach. -/
theorem current_row_shown_iff (session : Session) (title : Text) (es : List Event) (due : Bool)
    {p : Panel} (hp : (new session title).handleAll (es ++ [.tick due]) = p)
    (hrunning : p.running = true)
    (hpc : p.session.machine.processor.pc.toNat < p.session.program.size) {rows : Nat}
    (hrows : 3 ≤ rows) :
    (∃ row ∈ p.visibleRows rows, row.current = true) ↔
      p.cursor < p.session.machine.processor.pc.toNat + rows := by
  have hmirrors : p.Mirrors session.program := hp ▸ (Mirrors.new session title).handleAll _
  have hlength : p.listing.length = p.session.program.size := by
    rw [hmirrors.listing, length_listing]
  have hcursor : p.cursor ≤ p.lastRow := hmirrors.cursor_le.trans_eq hmirrors.lastRow_eq.symm
  have hscroll : p.scroll = p.session.machine.processor.pc.toNat - 2 := by
    have hpcs : p.snapshot.pc = p.session.machine.processor.pc := by
      rw [hmirrors.snapshot]
      rfl
    rw [← hpcs, ← hp, handleAll_concat]
    refine scroll_tick ?_
    rw [← hp, handleAll_concat] at hrunning
    exact hrunning
  have hcurrent : (∃ row ∈ p.visibleRows rows, row.current = true) ↔
      ∃ row ∈ p.visibleRows rows, row.address = p.session.machine.processor.pc.toNat := by
    refine exists_congr fun row => and_congr_right fun hrow => current_of_mem_listing ?_
    rw [← hmirrors.listing]
    exact mem_listing_of_visible hrow
  have hlast : p.session.machine.processor.pc.toNat ≤ p.lastRow := by
    unfold lastRow
    omega
  rw [hcurrent, exists_visibleRow_iff hmirrors.listing, hlength,
    ← visibleStart_follows_iff hscroll hrows hlast hcursor]
  exact and_iff_right hpc

/-- The panel is running the loop, with the cursor on the last row of the listing. -/
def loopingAbove : Panel :=
  (new looping "prog".toList).handleAll
    ([.key { key := .last }, .key { key := .char 'r' }] ++ [.tick true])

/-- Six rows hold the row of the cursor and not the one of the program counter. -/
theorem current_row_hidden :
    loopingAbove.running = true ∧ loopingAbove.session.machine.processor.pc = 4 ∧
      4 < loopingAbove.session.program.size ∧ 3 ≤ 6 ∧ loopingAbove.visibleStart 6 = 7 ∧
      ¬ ∃ row ∈ loopingAbove.visibleRows 6, row.current = true := by
  decide +kernel

theorem current_row_shown_iff_looping :
    loopingAbove.running = true ∧
      loopingAbove.session.machine.processor.pc.toNat < loopingAbove.session.program.size ∧
      3 ≤ 9 ∧ loopingAbove.cursor = 12 ∧
      ∃ row ∈ loopingAbove.visibleRows 9, row.current = true := by
  have hstate : loopingAbove.running = true ∧
      loopingAbove.session.machine.processor.pc.toNat < loopingAbove.session.program.size ∧
      loopingAbove.cursor = 12 ∧ 12 < loopingAbove.session.machine.processor.pc.toNat + 9 := by
    decide +kernel
  obtain ⟨hrunning, hpc, hcursor, hnear⟩ := hstate
  have hrow := current_row_shown_iff looping "prog".toList _ true (rfl : _ = loopingAbove) hrunning
    hpc (by decide : 3 ≤ 9)
  rw [hcursor] at hrow
  exact ⟨hrunning, hpc, by decide, hcursor, hrow.mpr hnear⟩

end ByteMachine.Panel
