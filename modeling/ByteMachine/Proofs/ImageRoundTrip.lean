import ByteMachine.Proofs.Indistinguishable
import ByteMachine.Proofs.ListingRoundTrip
import ByteMachine.Proofs.Loads

/-!
# Images read back

The binary digits of a number are read back as its lowest bits. So an image with the bits of each
word on a line of its own is read as these words, if they are not too many, and the bits in the
listing of a program are an image of the program. Loading this image instead of the source text of
the program makes no difference that any later operation shows.
-/
namespace ByteMachine

namespace Text

/-- Reading the binary digits of a number appends its lowest bits to what was read before. -/
theorem readFrom?_binary (width k n : Nat) :
    readFrom? 2 k (binary width n) = some (k * 2 ^ width + n % 2 ^ width) := by
  induction width generalizing n with
  | zero => simp [binary, readFrom?, Nat.mod_one]
  | succ width ih =>
    have hdigit : digit? 2 (if n % 2 = 1 then '1' else '0') = some (n % 2) := by
      rcases Nat.mod_two_eq_zero_or_one n with hbit | hbit <;> rw [hbit] <;> decide
    have hmod : n % 2 ^ (width + 1) = n % 2 + 2 * (n / 2 % 2 ^ width) := by
      rw [Nat.pow_succ', Nat.mod_mul]
    rw [binary, readFrom?_append, ih, Option.bind_some, readFrom?, hdigit, Option.bind_some,
      readFrom?, hmod, Nat.pow_succ]
    congr 1
    ring

theorem isWritten_of_mem_binary {width n : Nat} {c : Char} (hc : c ∈ binary width n) :
    isWritten c = true := by
  induction width generalizing n with
  | zero => cases hc
  | succ width ih =>
    rcases List.mem_append.mp hc with hc | hc
    · exact ih hc
    · rw [List.mem_singleton] at hc
      subst hc
      split <;> decide

end Text

open Text

def imageText (ws : List UInt16) : Text := ['\n'].intercalate (ws.map wordBits)

def bitsColumn (rows : List ListingRow) : Text := ['\n'].intercalate (rows.map (·.bits))

theorem bitsColumn_listing (p : Program) (pc : Nat) (b : Breakpoints) :
    bitsColumn (p.listing pc b) = imageText p.words.toList := by
  unfold bitsColumn imageText Program.listing
  rw [List.map_map]
  congr 1
  conv_rhs => rw [← p.words.toList.zipIdx_map_fst 0, List.map_map]
  rfl

theorem readWord_wordBits (w : UInt16) : readWord (wordBits w) = .ok w := by
  have hlength : (wordBits w).length = 16 := length_binary 16 w.toNat
  have hne : wordBits w ≠ [] := by
    rw [← List.length_pos_iff, hlength]
    decide
  have hread : read? 2 (wordBits w) = some w.toNat := by
    rw [read?_of_ne_nil hne, wordBits, readFrom?_binary]
    simp [Nat.mod_eq_of_lt w.toNat_lt]
  rw [readWord, if_pos hlength, hread]
  simp

theorem written_wordBits (w : UInt16) : Written (wordBits w) := by
  refine ⟨?_, fun c hc => isWritten_of_mem_binary hc⟩
  rw [← List.length_pos_iff, wordBits, length_binary]
  decide

theorem imageDigits_written {s : Text} (h : ∀ c ∈ s, isWritten c = true) : imageDigits s = s := by
  unfold imageDigits
  rw [stripComment_eq_self fun c hc => .inl (h c hc), List.filter_eq_self]
  intro c hc
  have hline : c ≠ '_' := by
    intro heq
    subst heq
    exact absurd (h _ hc) (by decide)
  simp [not_isBlank_of_isWritten (h c hc), hline]

theorem imageRows_imageText (ws : List UInt16) :
    imageRows (imageText ws) = ws.zipIdx.map fun x => ⟨x.2, .ok x.1⟩ := by
  have hlines : (imageText ws).lines = ws.map wordBits := by
    apply lines_intercalate
    intro t ht
    obtain ⟨w, -, rfl⟩ := List.mem_map.mp ht
    exact ⟨(written_wordBits w).1,
      fun c hc => ne_newline_of_isWritten ((written_wordBits w).2 c hc)⟩
  have hrow (x : UInt16 × Nat) : imageDigits (wordBits x.1) = wordBits x.1 :=
    imageDigits_written (written_wordBits x.1).2
  unfold imageRows
  rw [hlines, List.zipIdx_map, List.filterMap_map, ← List.filterMap_eq_map]
  apply List.filterMap_congr
  intro x _
  simp [hrow, readWord_wordBits, (written_wordBits x.1).1]

/-- Nothing is wrong with rows of words that stay within the limit. -/
theorem imageDiagnostics_words (total k : Nat) {good : Nat} {ws : List UInt16}
    (h : good + ws.length ≤ programLimit) :
    imageDiagnostics total good ((ws.zipIdx k).map fun x => ⟨x.2, .ok x.1⟩) = [] := by
  induction ws generalizing good k with
  | nil => rfl
  | cons w ws ih =>
    rw [List.length_cons] at h
    rw [List.zipIdx_cons, List.map_cons, imageDiagnostics, if_neg (by omega), List.nil_append]
    exact ih (k + 1) (by omega)

/-- An image of words is read as these words, line by line. -/
theorem readImage_imageText {ws : List UInt16} (h : ws.length ≤ programLimit) :
    readImage (imageText ws) = .ok (Program.ofList ws.zipIdx) := by
  have hwords : imageWords (ws.zipIdx.map fun x => ⟨x.2, .ok x.1⟩) = ws.zipIdx := by
    simp [imageWords, List.filterMap_map, Except.toOption]
  unfold readImage
  dsimp only
  rw [imageRows_imageText, hwords, imageDiagnostics_words _ 0 (by omega)]

namespace Session

/-- The listing of a program that was loaded shows an image of it, which is read without gaps. -/
theorem readImage_listing (s : Session) {source : Text} {p : Program}
    (h : assemble source = .ok p) :
    readImage (bitsColumn (s.load source).1.listing) =
      .ok (Program.ofList p.words.toList.zipIdx) := by
  rw [load_of_ok h, listing, bitsColumn_listing]
  exact readImage_imageText (size_le_of_assemble h)

/-- A source text that is assembled may be loaded into one copy of a session as it is, and into
another as the image that the listing of the first one shows. Both loads succeed and give the same
words. No later operation tells which of the two it was, if there is a seed or the operating system
gives both copies the same keys. -/
theorem indistinguishable_loadImage (s : Session) (entropy entropy' : Entropy)
    {source image : Text} {p : Program} (h : assemble source = .ok p)
    (himage : image = bitsColumn ((s.copy entropy).load source).1.listing) :
    ((s.copy entropy).load source).2.success = true ∧
      ((s.copy entropy').loadImage image).2.success = true ∧
      ((s.copy entropy).load source).1.program.words = p.words ∧
      ((s.copy entropy').loadImage image).1.program.words = p.words ∧
      (s.isSeeded = true ∨ entropy = entropy' →
        Indistinguishable ((s.copy entropy).load source).1
          ((s.copy entropy').loadImage image).1) := by
  have hread : readImage image = .ok (Program.ofList p.words.toList.zipIdx) := by
    rw [himage, readImage_listing _ h]
  have hwords : (Program.ofList p.words.toList.zipIdx).words = p.words := by
    simp [Program.ofList, List.zipIdx_map_fst]
  rw [load_of_ok h, loadImage_of_ok hread]
  refine ⟨rfl, rfl, rfl, hwords, fun hcopies => Alike.indistinguishable ?_⟩
  rw [copy_eq_copy hcopies]
  exact (SameSetting.refl (s.copy entropy')).install hwords.symm

/-- The lines of the two programs may differ, as they do for a text with a gap. With a seed the keys
may differ too. The session has read a random byte before. -/
theorem indistinguishable_loadImage_gap :
    ∃ u s t, ((new { seed := some 1 } default).performAll
        [.breakpoint 2, .load "ldi r1 254\nlod r2 r1".toList, .run none]).1 = u ∧
      ((u.copy fun _ => .ofSeed 42).load "jmp end\n\nnop\n.end hlt".toList).1 = s ∧
      ((u.copy default).loadImage (bitsColumn s.listing)).1 = t ∧
      s.program.lines = #[0, 2, 3] ∧ t.program.lines = #[0, 1, 2] ∧ Indistinguishable s t := by
  have hassemble : assemble "jmp end\n\nnop\n.end hlt".toList =
      .ok ⟨#[0xA002, 0, 0x1000], #[0, 2, 3]⟩ := by decide +kernel
  obtain ⟨u, hu⟩ : ∃ u, ((new { seed := some 1 } default).performAll
      [.breakpoint 2, .load "ldi r1 254\nlod r2 r1".toList, .run none]).1 = u := ⟨_, rfl⟩
  have hseeded : u.isSeeded = true := hu ▸ isSeeded_performAll _ _ _
  obtain ⟨-, -, -, -, h⟩ :=
    u.indistinguishable_loadImage (fun _ => .ofSeed 42) default hassemble rfl
  refine ⟨u, _, _, hu, rfl, rfl, ?_, ?_, h (.inl hseeded)⟩
  · rw [load_of_ok hassemble]
    rfl
  · rw [loadImage_of_ok (readImage_listing _ hassemble)]
    rfl

/-- The program compares four random bytes with the first ones of the key of seed 42, and sets the
seventh register if they are these. -/
def guessing : Text :=
  ['\n'].intercalate (["ldi r1 254", "lod r2 r1", "lod r3 r1", "lod r4 r1", "lod r5 r1",
    "adi r2 94", "adi r3 -99", "adi r4 -125", "adi r5 -19", "nor r2 r3 r6", "not r6",
    "nor r6 r4 r6", "not r6", "nor r6 r5 r6", "not r6", "ldi r2 0", "ldi r3 0", "ldi r4 0",
    "ldi r5 0", "cmp r6 r0", "ldi r6 0", "brh nz end", "ldi r7 1", ".end hlt"].map String.toList)

/-- Without a seed the two loads begin the streams of different keys, and a run shows which. -/
theorem loads_distinguished_unseeded :
    ∃ s t, (((new {} default).copy fun _ => .ofSeed 42).load guessing).1 = s ∧
      (((new {} default).copy default).loadImage (bitsColumn s.listing)).1 = t ∧
      (∃ p, assemble guessing = .ok p) ∧
      ((s.run none).machine.read 7, (t.run none).machine.read 7) = (1, 0) ∧
      ¬ Indistinguishable s t := by
  have hassemble : assemble guessing =
      .ok ⟨#[0x81FE, 0xE210, 0xE310, 0xE410, 0xE510, 0x925E, 0x939D, 0x9483, 0x95ED, 0x4236,
        0x7660, 0x4646, 0x7660, 0x4656, 0x7660, 0x8200, 0x8300, 0x8400, 0x8500, 0x7260, 0x8600,
        0xB417, 0x8701, 0x1000], Array.range 24⟩ := by decide +kernel
  obtain ⟨s, hs⟩ : ∃ s, (((new {} default).copy fun _ => .ofSeed 42).load guessing).1 = s :=
    ⟨_, rfl⟩
  obtain ⟨t, ht⟩ : ∃ t,
      (((new {} default).copy default).loadImage (bitsColumn s.listing)).1 = t := ⟨_, rfl⟩
  have hread : ((s.run none).machine.read 7, (t.run none).machine.read 7) = (1, 0) := by
    rw [← ht, ← hs, loadImage_of_ok (readImage_listing _ hassemble), load_of_ok hassemble]
    decide +kernel
  refine ⟨s, t, hs, ht, ⟨_, hassemble⟩, hread, fun h => ?_⟩
  -- the response to a run shows all registers
  have hregister (u : Session) : u.snapshot.registers[7]? = some (u.machine.read 7) := rfl
  have hsnapshot : (s.run none).snapshot = (t.run none).snapshot :=
    Response.state.inj (List.head_eq_of_cons_eq (h [.run none]))
  have hsame : (s.run none).machine.read 7 = (t.run none).machine.read 7 :=
    Option.some.inj (by rw [← hregister, ← hregister, hsnapshot])
  rw [Prod.mk.injEq] at hread
  rw [hread.1, hread.2] at hsame
  exact absurd hsame (by decide)

end Session
end ByteMachine
