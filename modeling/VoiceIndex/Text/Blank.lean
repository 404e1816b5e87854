/-!
# White space

`isBlank` is the Unicode property White_Space: twenty-five characters, the six of ASCII
among them. Text is trimmed and cut into words at blanks, and at nothing else: a zero-width
space or a byte order mark is an ordinary character.

`Chars` works on lists of characters and `Text` on strings; `toList_trim` and its like
connect the two.
-/

namespace VoiceIndex

/-- A character of the Unicode property White_Space. -/
def isBlank (c : Char) : Bool :=
  let n := c.toNat
  (0x09 ≤ n && n ≤ 0x0D) || n == 0x20 || n == 0x85 || n == 0xA0 || n == 0x1680 ||
    (0x2000 ≤ n && n ≤ 0x200A) || n == 0x2028 || n == 0x2029 || n == 0x202F || n == 0x205F ||
    n == 0x3000

namespace Chars

/-- The characters without the blanks in front. -/
def trimStart (cs : List Char) : List Char := cs.dropWhile isBlank

/-- The characters without the blanks at the end. -/
def trimEnd (cs : List Char) : List Char := (cs.reverse.dropWhile isBlank).reverse

/-- The characters without the blanks on either side. -/
def trim (cs : List Char) : List Char := trimEnd (trimStart cs)

/-- The longest runs without a blank, from left to right. -/
def words (cs : List Char) : List (List Char) := (cs.splitOnP isBlank).filter (!·.isEmpty)

end Chars

namespace Text

/-- The text without the blanks on either side. -/
def trim (s : String) : String := .ofList (Chars.trim s.toList)

@[simp] theorem toList_trim (s : String) : (trim s).toList = Chars.trim s.toList :=
  String.toList_ofList

/-- A text of blanks only; the empty text is one. -/
def isBlank (s : String) : Bool := s.toList.all VoiceIndex.isBlank

/-- The words of a text: its longest runs without a blank. -/
def words (s : String) : List String := (Chars.words s.toList).map .ofList

end Text

end VoiceIndex
