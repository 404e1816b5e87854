import VoiceIndex.Json.Basic
import VoiceIndex.Text.Numeral

/-!
# Reading JSON

A reader for the standard grammar, with nothing added: no comments, no trailing commas, no
leading zeros, no raw control characters in strings, and white space only of the four kinds
that the grammar knows.

Every part takes the characters from its first one on and returns its value with what
follows. `value` has a bound on the number of nested and consecutive parts; one more than
the length of the text is enough, since each part takes at least one character.
-/

namespace VoiceIndex.Json

/-- White space between the parts of a JSON text. -/
def isSpace (c : Char) : Bool := c == ' ' || c == '\n' || c == '\t' || c == '\r'

/-- What follows the white space. -/
def skip (cs : List Char) : List Char := cs.dropWhile isSpace

/-! ## Strings -/

/-- The value of a hexadecimal digit, in either case. -/
def hexValue? (c : Char) : Option Nat :=
  if '0' ≤ c ∧ c ≤ '9' then some (c.toNat - 0x30)
  else if 'a' ≤ c ∧ c ≤ 'f' then some (c.toNat - 0x57)
  else if 'A' ≤ c ∧ c ≤ 'F' then some (c.toNat - 0x37)
  else none

/-- The code that four hexadecimal digits denote. -/
def hexCode? (a b c d : Char) : Option Nat := do
  let a ← hexValue? a
  let b ← hexValue? b
  let c ← hexValue? c
  let d ← hexValue? d
  return ((a * 16 + b) * 16 + c) * 16 + d

/-- The code of a one-letter escape. -/
def escapeCode? (c : Char) : Option Nat :=
  if c = '"' ∨ c = '\\' ∨ c = '/' then some c.toNat
  else if c = 'b' then some 0x08
  else if c = 'f' then some 0x0C
  else if c = 'n' then some 0x0A
  else if c = 'r' then some 0x0D
  else if c = 't' then some 0x09
  else none

/-- The codes of a string up to its closing quote. An escape gives one code, which can be
half of a surrogate pair. -/
def codes : List Char → Option (List Nat × List Char)
  | [] => none
  | c :: rest =>
    if c = '"' then some ([], rest)
    else if c = '\\' then
      match rest with
      | 'u' :: a :: b :: c :: d :: rest => do
        let code ← hexCode? a b c d
        let (more, rest) ← codes rest
        return (code :: more, rest)
      | e :: rest => do
        let code ← escapeCode? e
        let (more, rest) ← codes rest
        return (code :: more, rest)
      | [] => none
    else if c.toNat < 0x20 then none
    else do
      let (more, rest) ← codes rest
      return (c.toNat :: more, rest)

/-- The first half of a surrogate pair. -/
def isHigh (code : Nat) : Bool := 0xD800 ≤ code && code < 0xDC00

/-- The second half of a surrogate pair. -/
def isLow (code : Nat) : Bool := 0xDC00 ≤ code && code < 0xE000

/-- The characters that codes denote: each pair of halves is one character. Undefined when a
half stands alone. -/
def charsOfCodes : List Nat → Option (List Char)
  | [] => some []
  | [code] => if isHigh code || isLow code then none else some [Char.ofNat code]
  | high :: low :: rest =>
    if isHigh high && isLow low then
      (charsOfCodes rest).map
        (Char.ofNat (0x10000 + (high - 0xD800) * 0x400 + (low - 0xDC00)) :: ·)
    else if isHigh high || isLow high then none
    else (charsOfCodes (low :: rest)).map (Char.ofNat high :: ·)

/-- A string, from after its opening quote. -/
def string (cs : List Char) : Option (Option String × List Char) :=
  (codes cs).map fun (found, rest) => ((charsOfCodes found).map .ofList, rest)

/-! ## Numbers -/

/-- A run of digits, with what precedes it in the literal. -/
def digitsAfter (lead cs : List Char) : Option (List Char × List Char) :=
  let digits := cs.takeWhile Char.isDigit
  if digits.isEmpty then none else some (lead ++ digits, cs.dropWhile Char.isDigit)

/-- The fraction of a number, which may be absent. -/
def fraction : List Char → Option (List Char × List Char)
  | '.' :: rest => digitsAfter ['.'] rest
  | cs => some ([], cs)

/-- The exponent of a number, which may be absent. -/
def exponent : List Char → Option (List Char × List Char)
  | e :: sign :: rest =>
    if e = 'e' ∨ e = 'E' then
      if sign = '+' ∨ sign = '-' then digitsAfter [e, sign] rest
      else digitsAfter [e] (sign :: rest)
    else some ([], e :: sign :: rest)
  | [e] => if e = 'e' ∨ e = 'E' then none else some ([], [e])
  | [] => some ([], [])

/-- A number after its sign. Without fraction and exponent it is an integer, but for a zero
with a sign. -/
def unsigned (negative : Bool) (cs : List Char) : Option (Json × List Char) := do
  let (whole, rest) ← digitsAfter [] cs
  if whole.head? = some '0' ∧ whole ≠ ['0'] then none
  else
    let (part, rest) ← fraction rest
    let (power, rest) ← exponent rest
    if part.isEmpty ∧ power.isEmpty ∧ ¬(negative ∧ whole = ['0']) then
      let size : Int := Nat.ofDigitChars 10 whole 0
      return (.int (if negative then -size else size), rest)
    else
      let sign := if negative then ['-'] else []
      return (.decimal (.ofList (sign ++ whole ++ part ++ power)), rest)

/-- A number. -/
def number : List Char → Option (Json × List Char)
  | '-' :: rest => unsigned true rest
  | cs => unsigned false cs

/-! ## Values -/

/-- Parts separated by commas up to the character `close`, one part at least and `bound`
parts at most. -/
def parts {α : Type} (part : List Char → Option (α × List Char)) (close : Char) :
    Nat → List Char → Option (List α × List Char)
  | 0, _ => none
  | bound + 1, cs => do
    let (x, rest) ← part cs
    match skip rest with
    | [] => none
    | c :: rest =>
      if c = ',' then
        let (xs, rest) ← parts part close bound rest
        return (x :: xs, rest)
      else if c = close then return ([x], rest)
      else none

/-- Parts separated by commas up to the character `close`, possibly none. -/
def sequence {α : Type} (part : List Char → Option (α × List Char)) (close : Char) (bound : Nat)
    (cs : List Char) : Option (List α × List Char) :=
  match skip cs with
  | [] => none
  | c :: rest => if c = close then some ([], rest) else parts part close bound (c :: rest)

/-- A key with its value. -/
def member (value : List Char → Option (Json × List Char)) (cs : List Char) :
    Option ((Option String × Json) × List Char) :=
  match skip cs with
  | '"' :: rest => do
    let (key, rest) ← string rest
    match skip rest with
    | ':' :: rest =>
      let (x, rest) ← value rest
      return ((key, x), rest)
    | _ => none
  | _ => none

/-- A value that is written as a word, from after its first letter. -/
def word (letters : List Char) (x : Json) (cs : List Char) : Option (Json × List Char) :=
  (letters.isPrefixOf? cs).map (x, ·)

/-- A value, after white space. -/
def value : Nat → List Char → Option (Json × List Char)
  | 0, _ => none
  | bound + 1, cs =>
    match skip cs with
    | [] => none
    | c :: rest =>
      if c = '"' then (string rest).map fun (content, rest) => (.text content, rest)
      else if c = '[' then
        (sequence (fun cs => value bound cs) ']' bound rest).map
          fun (items, rest) => (.list items, rest)
      else if c = '\x7b' then
        (sequence (member fun cs => value bound cs) '\x7d' bound rest).map
          fun (members, rest) => (.object members, rest)
      else if c = 'n' then word ['u', 'l', 'l'] .null rest
      else if c = 't' then word ['r', 'u', 'e'] (.bool true) rest
      else if c = 'f' then word ['a', 'l', 's', 'e'] (.bool false) rest
      else number (c :: rest)

/-- The value of a text that holds one JSON value and nothing but white space around it. -/
def parse? (s : String) : Option Json :=
  match value (s.toList.length + 1) s.toList with
  | some (found, rest) => if (skip rest).isEmpty then some found else none
  | none => none

end VoiceIndex.Json
