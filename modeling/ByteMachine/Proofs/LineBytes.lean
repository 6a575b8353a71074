import ByteMachine.Service.Basic

/-!
# The bytes of lines

A service reads bytes and cuts them into lines before it decodes them. Cutting before decoding is
sound because no character but the line feed has the byte of a line feed. So any lines that hold no
line end of their own are read back from their bytes.
-/
namespace ByteMachine

namespace Text

def bytes (line : Text) : List UInt8 := line.flatMap String.utf8EncodeChar

theorem decodeText?_bytes (line : Text) : decodeText? line.bytes = some line := by
  have hencode : (⟨line.bytes.toArray⟩ : ByteArray) = (String.ofList line).toByteArray := by
    rw [String.toByteArray_ofList]
    exact ByteArray.ext List.data_toByteArray.symm
  have hvalid := (String.ofList line).isValidUTF8
  have hstring : String.fromUTF8 _ hvalid = String.ofList line := String.toByteArray_inj.mp rfl
  rw [decodeText?, hencode, String.fromUTF8?, dif_pos hvalid, hstring, Option.map_some,
    String.toList_ofList]

/-- A byte of ASCII stands for its character alone. -/
theorem toNat_of_mem_utf8EncodeChar {c : Char} {b : UInt8} (hb : b.toNat < 0x80)
    (h : b ∈ String.utf8EncodeChar c) : c.toNat = b.toNat := by
  have hvalue : c.toNat = c.val.toNat := rfl
  unfold String.utf8EncodeChar at h
  dsimp only at h
  split at h
  · obtain rfl := List.mem_singleton.mp h
    rw [UInt8.toNat_ofNat']
    omega
  · -- the bytes of a longer form have their highest bit set
    have hlong (n : Nat) (hlow : 0x80 ≤ n) (hhigh : n < 0x100) : b ≠ UInt8.ofNat n := by
      rintro rfl
      rw [UInt8.toNat_ofNat'] at hb
      omega
    split at h
    · simp only [List.mem_cons, List.not_mem_nil, or_false] at h
      rcases h with h | h <;> exact absurd h (hlong _ (by omega) (by omega))
    · split at h
      · simp only [List.mem_cons, List.not_mem_nil, or_false] at h
        rcases h with h | h | h <;> exact absurd h (hlong _ (by omega) (by omega))
      · simp only [List.mem_cons, List.not_mem_nil, or_false] at h
        rcases h with h | h | h | h <;> exact absurd h (hlong _ (by omega) (by omega))

theorem newline_of_mem_bytes {line : Text} (h : 0x0A ∈ line.bytes) : '\n' ∈ line := by
  obtain ⟨c, hc, hmem⟩ := List.mem_flatMap.mp h
  have hnat := toNat_of_mem_utf8EncodeChar (by decide) hmem
  obtain rfl : c = '\n' := Char.ext (UInt32.toNat_inj.mp hnat)
  exact hc

theorem getLast?_bytes {line : Text} (h : line.bytes.getLast? = some 0x0D) :
    line.getLast? = some '\r' := by
  rcases List.eq_nil_or_concat line with rfl | ⟨init, c, rfl⟩
  · cases h
  · have hbytes : bytes (init ++ [c]) = bytes init ++ String.utf8EncodeChar c := by
      simp [bytes]
    have hne : String.utf8EncodeChar c ≠ [] := String.utf8EncodeChar_ne_nil
    rw [List.concat_eq_append, hbytes, List.getLast?_append, List.getLast?_eq_some_getLast hne,
      Option.some_or] at h
    have hmem : 0x0D ∈ String.utf8EncodeChar c := Option.some.inj h ▸ List.getLast_mem hne
    have hnat := toNat_of_mem_utf8EncodeChar (by decide) hmem
    obtain rfl : c = '\r' := Char.ext (UInt32.toNat_inj.mp hnat)
    rw [List.concat_eq_append, List.getLast?_concat]

end Text

theorem byteLines_append {line : List UInt8} (hfeed : 0x0A ∉ line)
    (hreturn : line.getLast? ≠ some 0x0D) (rest : List UInt8) :
    byteLines (line ++ 0x0A :: rest) = line :: byteLines rest := by
  induction line with
  | nil => rw [List.nil_append, byteLines]
  | cons b line ih =>
    have hb : b ≠ 0x0A := fun h => hfeed (h ▸ List.mem_cons_self)
    have hfeed' : 0x0A ∉ line := fun h => hfeed (List.mem_cons_of_mem b h)
    have hreturn' : line.getLast? ≠ some 0x0D := by
      cases line with
      | nil => simp
      | cons b' line => rwa [List.getLast?_cons_cons] at hreturn
    rw [List.cons_append, byteLines, ih hfeed' hreturn']
    · exact hb
    · -- a carriage return before the line feed would be the last byte of the line
      rintro rest' rfl hrest
      cases line with
      | nil => exact hreturn rfl
      | cons b' line =>
        obtain rfl : b' = 0x0A := (List.cons.inj hrest).1
        exact hfeed' List.mem_cons_self

/-- The bytes are lines of text. -/
def TextLines (input : List UInt8) (lines : List Text) : Prop :=
  (byteLines input).map decodeText? = lines.map some

def bytesOfLines (lines : List Text) : List UInt8 := lines.flatMap fun line => line.bytes ++ [0x0A]

theorem bytesOfLines_append (lines lines' : List Text) :
    bytesOfLines (lines ++ lines') = bytesOfLines lines ++ bytesOfLines lines' :=
  List.flatMap_append

/-- Any lines without line ends of their own are read back from their bytes. -/
theorem textLines_bytesOfLines {lines : List Text}
    (h : ∀ line ∈ lines, '\n' ∉ line ∧ line.getLast? ≠ some '\r') :
    TextLines (bytesOfLines lines) lines := by
  induction lines with
  | nil => rfl
  | cons line lines ih =>
    obtain ⟨⟨hfeed, hreturn⟩, h⟩ := List.forall_mem_cons.mp h
    have hbytes : bytesOfLines (line :: lines) = line.bytes ++ 0x0A :: bytesOfLines lines := by
      simp [bytesOfLines]
    have hfirst : byteLines (bytesOfLines (line :: lines)) =
        line.bytes :: byteLines (bytesOfLines lines) := by
      rw [hbytes]
      exact byteLines_append (fun hmem => hfeed (Text.newline_of_mem_bytes hmem))
        (fun hlast => hreturn (Text.getLast?_bytes hlast)) _
    unfold TextLines at ih ⊢
    rw [hfirst, List.map_cons, List.map_cons, Text.decodeText?_bytes, ih h]

end ByteMachine
