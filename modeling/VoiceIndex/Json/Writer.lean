import VoiceIndex.Json.Basic
import VoiceIndex.Text.Numeral

/-!
# Writing JSON

One writer for two layouts: on one line, or as a block with one element a line and two
spaces of indentation for each level. Strings escape the quote, the backslash and the
control characters below the space, and nothing else.
-/

namespace VoiceIndex.Json

/-- What stands between the parts of a value. -/
structure Layout where
  /-- Before an element at a depth, and before the bracket that closes the one above it. -/
  gap : Nat → List Char
  /-- Between a key and its value. -/
  colon : List Char

/-- All on one line, without spaces. -/
def Layout.line : Layout := ⟨fun _ => [], [':']⟩

/-- One element a line, two spaces deeper than its brackets. -/
def Layout.block : Layout := ⟨fun depth => '\n' :: .replicate (2 * depth) ' ', [':', ' ']⟩

/-- The lower-case hexadecimal digit of a number below sixteen. -/
def hexDigit (n : Nat) : Char := if n < 10 then Char.ofNat (n + 0x30) else Char.ofNat (n + 0x57)

/-- A character as it is written inside a string. -/
def escape (c : Char) : List Char :=
  if c = '"' then ['\\', '"']
  else if c = '\\' then ['\\', '\\']
  else if c = '\x08' then ['\\', 'b']
  else if c = '\x0c' then ['\\', 'f']
  else if c = '\n' then ['\\', 'n']
  else if c = '\r' then ['\\', 'r']
  else if c = '\t' then ['\\', 't']
  else if c.toNat < 0x20 then
    ['\\', 'u', '0', '0', hexDigit (c.toNat / 16), hexDigit (c.toNat % 16)]
  else [c]

/-- A string literal. One without content is written as half of a surrogate pair. -/
def quote : Option String → List Char
  | some s => '"' :: s.toList.flatMap escape ++ ['"']
  | none => ['"', '\\', 'u', 'd', '8', '0', '0', '"']

/-- An integer in decimal digits. -/
def digits : Int → List Char
  | .ofNat n => Chars.decimal n
  | .negSucc n => '-' :: Chars.decimal (n + 1)

mutual

/-- A value at a depth, with its elements one level deeper. -/
def chars (layout : Layout) (depth : Nat) : Json → List Char
  | .null => ['n', 'u', 'l', 'l']
  | .bool true => ['t', 'r', 'u', 'e']
  | .bool false => ['f', 'a', 'l', 's', 'e']
  | .int n => digits n
  | .decimal literal => literal.toList
  | .text content => quote content
  | .list [] => ['[', ']']
  | .list (x :: xs) =>
    '[' :: layout.gap (depth + 1) ++ chars layout (depth + 1) x ++
      charsOfItems layout (depth + 1) xs ++ layout.gap depth ++ [']']
  | .object [] => ['\x7b', '\x7d']
  | .object ((key, x) :: rest) =>
    '\x7b' :: layout.gap (depth + 1) ++ quote key ++ layout.colon ++ chars layout (depth + 1) x ++
      charsOfMembers layout (depth + 1) rest ++ layout.gap depth ++ ['\x7d']

/-- The elements of a list after the first. -/
def charsOfItems (layout : Layout) (depth : Nat) : List Json → List Char
  | [] => []
  | x :: xs => ',' :: layout.gap depth ++ chars layout depth x ++ charsOfItems layout depth xs

/-- The members of an object after the first. -/
def charsOfMembers (layout : Layout) (depth : Nat) : List (Option String × Json) → List Char
  | [] => []
  | (key, x) :: rest =>
    ',' :: layout.gap depth ++ quote key ++ layout.colon ++ chars layout depth x ++
      charsOfMembers layout depth rest

end

/-- The value on one line. -/
def compact (value : Json) : String := .ofList (value.chars .line 0)

/-- The value as a block of lines, without a line feed at the end. -/
def pretty (value : Json) : String := .ofList (value.chars .block 0)

end VoiceIndex.Json
