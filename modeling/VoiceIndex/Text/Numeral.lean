/-!
# Decimal numerals

`decimal` writes a natural number and `decimal?` reads one back; `counter?` is the form in
which a number is given in a setting or on a command line: a plus sign in front is allowed,
and the number has a bound.
-/

namespace VoiceIndex

namespace Chars

/-- The decimal digits of a number, without a leading zero. -/
def decimal (n : Nat) : List Char := Nat.toDigits 10 n

/-- The number that a non-empty run of ASCII digits denotes. -/
def decimal? (cs : List Char) : Option Nat :=
  if !cs.isEmpty && cs.all Char.isDigit then some (Nat.ofDigitChars 10 cs 0) else none

end Chars

namespace Text

/-- A number in decimal digits. -/
def decimal (n : Nat) : String := .ofList (Chars.decimal n)

/-- A number of at most `bound`, in ASCII digits and possibly with a plus sign in front. -/
def counter? (bound : Nat) (s : String) : Option Nat :=
  let digits := match s.toList with
    | '+' :: rest => rest
    | cs => cs
  (Chars.decimal? digits).filter (· ≤ bound)

end Text

end VoiceIndex
