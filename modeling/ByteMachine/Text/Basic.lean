/-!
# Text

Text is a list of characters, so that every function on it is a plain recursion. This module holds
what all readers of text share: blank characters, trimming, the first word of a line, words between
separators, lines, and comparison up to the case of ASCII letters.
-/
namespace ByteMachine

abbrev Text := List Char

/-- The characters with the Unicode property White_Space. -/
def isBlank (c : Char) : Bool :=
  let n := c.toNat
  (0x09 ≤ n && n ≤ 0x0D) || n == 0x20 || n == 0x85 || n == 0xA0 || n == 0x1680 ||
    (0x2000 ≤ n && n ≤ 0x200A) || n == 0x2028 || n == 0x2029 || n == 0x202F || n == 0x205F ||
    n == 0x3000

namespace Text

def trimStart (s : Text) : Text := s.dropWhile isBlank

def trimEnd (s : Text) : Text := (s.reverse.dropWhile isBlank).reverse

def trim (s : Text) : Text := trimEnd (trimStart s)

/-- The text up to the first blank, and the trimmed text after it. -/
def splitHead (s : Text) : Text × Text :=
  (s.takeWhile (!isBlank ·), trim (s.dropWhile (!isBlank ·)))

/-- The non-empty pieces between separators. -/
def words (separates : Char → Bool) (s : Text) : List Text :=
  (s.splitOnP separates).filter (!·.isEmpty)

/-- A line ends at a line feed, which takes one carriage return before it along. A last line without
a line feed counts unless it is empty. -/
def lines : Text → List Text
  | [] => []
  | '\n' :: rest => [] :: lines rest
  | '\r' :: '\n' :: rest => [] :: lines rest
  | c :: rest =>
    match lines rest with
    | [] => [[c]]
    | line :: more => (c :: line) :: more

/-- ASCII letters in lower case, all else as it is. -/
def fold (s : Text) : Text := s.map Char.toLower

def sameFolded (s t : Text) : Bool := fold s == fold t

def padLeft (width : Nat) (fill : Char) (s : Text) : Text :=
  List.replicate (width - s.length) fill ++ s

end Text

end ByteMachine
