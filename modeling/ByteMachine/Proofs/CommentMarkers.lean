import ByteMachine.Proofs.Reformatting

/-!
# Comment markers

A comment begins at a semicolon, at a hash sign or at two slashes. Of the markers on a line only the
first one counts: the code of the line is what stands before it, and markers of any kind behind it
make no difference. To cut the line at the markers of one kind after the other comes to the same,
since no marker of one kind reaches across one of another. A source text keeps the lines whose code
is not all blank, trimmed and with their numbers.
-/
namespace ByteMachine

open Text

def MarkerAt (s : Text) (k : Nat) : Prop :=
  s[k]? = some ';' ∨ s[k]? = some '#' ∨ (s[k]? = some '/' ∧ s[k + 1]? = some '/')

def FirstMarkerAt (s : Text) (k : Nat) : Prop := MarkerAt s k ∧ ∀ j < k, ¬ MarkerAt s j

/-- What stands before the first marker of one kind. -/
def cutAt (marker : Text) : Text → Text
  | [] => []
  | c :: rest => if marker.isPrefixOf (c :: rest) then [] else c :: cutAt marker rest

def TrimsTo (s t : Text) : Prop :=
  ∃ front back, s = front ++ t ++ back ∧ (∀ c ∈ front ++ back, isBlank c = true) ∧
    (∀ c ∈ t.head?, isBlank c = false) ∧ ∀ c ∈ t.getLast?, isBlank c = false

theorem markerAt_iff (s : Text) (k : Nat) : MarkerAt s k ↔ StartsComment (s.drop k) := by
  have hfirst : s[k]? = (s.drop k).head? := List.head?_drop.symm
  have hsecond : s[k + 1]? = (s.drop k)[1]? := List.getElem?_drop.symm
  rw [MarkerAt, hfirst, hsecond]
  cases s.drop k with
  | nil => simp [StartsComment]
  | cons c rest => simp [startsComment_cons_iff, List.head?_eq_getElem?]

theorem MarkerAt.lt_length {s : Text} {k : Nat} (h : MarkerAt s k) : k < s.length := by
  obtain ⟨c, hc⟩ : ∃ c, s[k]? = some c := by
    rcases h with h | h | ⟨h, -⟩ <;> exact ⟨_, h⟩
  exact (List.getElem?_eq_some_iff.mp hc).1

theorem MarkerAt.of_isPrefix {s t : Text} {k : Nat} (h : MarkerAt s k) (hs : s <+: t) :
    MarkerAt t k := by
  obtain ⟨rest, rfl⟩ := hs
  have hkeep {j : Nat} {c : Char} (hj : s[j]? = some c) : (s ++ rest)[j]? = some c := by
    rwa [List.getElem?_append_left (List.getElem?_eq_some_iff.mp hj).1]
  exact h.imp hkeep (.imp hkeep (.imp hkeep hkeep))

/-- The code of a line ends before its first marker, and is the whole line if there is none. -/
theorem stripComment_cases (line : Text) :
    (∃ k, FirstMarkerAt line k ∧ stripComment line = line.take k) ∨
      ((∀ k, ¬ MarkerAt line k) ∧ stripComment line = line) := by
  obtain ⟨comment, hline, hstart, hnone⟩ := (uncommented_iff line _).mpr rfl
  generalize stripComment line = code at *
  subst hline
  have hbefore : ∀ j < code.length, ¬ MarkerAt (code ++ comment) j := by
    intro j hj
    rw [markerAt_iff, List.drop_append_of_le_length hj.le]
    refine hnone (code.take j) (code.drop j) (List.take_append_drop j code).symm ?_
    rwa [Ne, List.drop_eq_nil_iff, Nat.not_le]
  rcases hstart with rfl | hstart
  · rw [List.append_nil] at hbefore ⊢
    exact .inr ⟨fun k hk => hbefore k hk.lt_length hk, rfl⟩
  · refine .inl ⟨code.length, ⟨?_, hbefore⟩, List.take_left.symm⟩
    rwa [markerAt_iff, List.drop_left]

theorem not_markerAt_stripComment (line : Text) (k : Nat) : ¬ MarkerAt (stripComment line) k := by
  intro h
  have hline := h.of_isPrefix (stripComment_isPrefix line)
  have hk := h.lt_length
  rcases stripComment_cases line with ⟨first, ⟨-, hbefore⟩, hcode⟩ | ⟨hnone, -⟩
  · rw [hcode, List.length_take] at hk
    exact hbefore k (by omega) hline
  · exact hnone k hline

theorem stripComment_stripComment (line : Text) :
    stripComment (stripComment line) = stripComment line := by
  rcases stripComment_cases (stripComment line) with ⟨k, ⟨hk, -⟩, -⟩ | ⟨-, hcode⟩
  · exact absurd hk (not_markerAt_stripComment line k)
  · exact hcode

section Cuts

theorem cutAt_singleton_cons {m c : Char} (hc : c ≠ m) (rest : Text) :
    cutAt [m] (c :: rest) = c :: cutAt [m] rest := by
  simp [cutAt, hc.symm]

theorem cutAt_pair_cons {m n c : Char} {rest : Text} (hc : c = m → rest.head? ≠ some n) :
    cutAt [m, n] (c :: rest) = c :: cutAt [m, n] rest := by
  rw [cutAt, if_neg]
  rw [List.isPrefixOf_iff_prefix, List.cons_prefix_cons]
  rintro ⟨rfl, more, rfl⟩
  exact hc rfl rfl

theorem head?_of_cutAt {marker s : Text} {d : Char} (h : (cutAt marker s).head? = some d) :
    s.head? = some d := by
  cases s with
  | nil => cases h
  | cons c rest =>
    rw [cutAt] at h
    split at h
    · cases h
    · exact h

/-- A cut can leave a slash without the slash behind it, but puts no two slashes together. -/
theorem stripComment_eq_cutAt (line : Text) :
    stripComment line = cutAt ['/', '/'] (cutAt ['#'] (cutAt [';'] line)) := by
  induction line with
  | nil => rfl
  | cons c line ih =>
    by_cases hc : StartsComment (c :: line)
    · rw [stripComment_of_startsComment hc]
      obtain ⟨rest, h | h | h⟩ := hc <;> rw [h]
      · rfl
      · rw [cutAt_singleton_cons (by decide)]
        rfl
      · simp only [cutAt_singleton_cons (show '/' ≠ ';' by decide),
          cutAt_singleton_cons (show '/' ≠ '#' by decide)]
        rfl
    · have hkinds := (startsComment_cons_iff c line).not.mp hc
      rw [not_or, not_or] at hkinds
      obtain ⟨hsemicolon, hhash, hslashes⟩ := hkinds
      have hnext : c = '/' → (cutAt ['#'] (cutAt [';'] line)).head? ≠ some '/' :=
        fun hslash hhead => hslashes ⟨hslash, head?_of_cutAt (head?_of_cutAt hhead)⟩
      rw [stripComment_cons hc, ih, cutAt_singleton_cons hsemicolon, cutAt_singleton_cons hhash,
        cutAt_pair_cons hnext]

end Cuts

theorem trim_eq_iff (s t : Text) : s.trim = t ↔ TrimsTo s t := by
  constructor
  · rintro rfl
    obtain ⟨front, back, hs, hfront, hback⟩ := exists_trim s
    exact ⟨front, back, hs, List.forall_mem_append.mpr ⟨hfront, hback⟩,
      not_isBlank_of_mem_head?_trim s, not_isBlank_of_mem_getLast?_trim s⟩
  · rintro ⟨front, back, rfl, hblank, hfirst, hlast⟩
    obtain ⟨hfront, hback⟩ := List.forall_mem_append.mp hblank
    rw [trim_append_gap hback, trim_gap_append hfront, trim_eq_self hfirst hlast]

theorem trim_ne_nil_iff (s : Text) : s.trim ≠ [] ↔ ∃ c ∈ s, isBlank c = false := by
  have hnil : s.trim = [] ↔ ∀ c ∈ s, isBlank c = true := by
    constructor
    · intro htrim
      obtain ⟨front, back, hs, hfront, hback⟩ := exists_trim s
      rw [htrim, List.append_nil] at hs
      exact hs ▸ List.forall_mem_append.mpr ⟨hfront, hback⟩
    · exact trim_gap
  simp [hnil]

/-- The code of every line ends just before its first comment marker. So code has no comment of its
own, and a source text keeps just the lines with code that is not blank, trimmed, under their
numbers and in their order. -/
theorem code_ends_at_first_marker :
    (∀ line : Text,
      ((∃ k, FirstMarkerAt line k ∧ stripComment line = line.take k) ∨
        ((∀ k, ¬ MarkerAt line k) ∧ stripComment line = line)) ∧
      stripComment line = cutAt ['/', '/'] (cutAt ['#'] (cutAt [';'] line)) ∧
      stripComment (stripComment line) = stripComment line) ∧
    ∀ source : Text,
      (∀ n text, ⟨n, text⟩ ∈ SourceLine.ofText source ↔
        ∃ line, source.lines[n]? = some line ∧ (∃ c ∈ stripComment line, isBlank c = false) ∧
          TrimsTo (stripComment line) text) ∧
      (SourceLine.ofText source).Pairwise fun l l' => l.number < l'.number := by
  constructor
  · intro line
    exact ⟨stripComment_cases line, stripComment_eq_cutAt line, stripComment_stripComment line⟩
  · intro source
    refine ⟨fun n text => ?_, SourceLine.pairwise_number source⟩
    rw [SourceLine.mem_ofText_iff]
    refine exists_congr fun line => and_congr_right fun _ => ?_
    rw [← trim_ne_nil_iff, ← trim_eq_iff]
    constructor
    · rintro ⟨htext, hne⟩
      exact ⟨fun hnil => hne (htext.trans hnil), htext.symm⟩
    · rintro ⟨hne, rfl⟩
      exact ⟨rfl, hne⟩

/-- A slash that is left at the end by a cut is no marker. -/
example : stripComment "a/b/;/ // # c".toList = "a/b/".toList := by decide

end ByteMachine
