/-!
# Cutting text

Lines, pieces between separators, what stands before and after the first separator, and
whether one text occurs inside another.

`hasInfix_iff` says that the search for an occurrence decides `List.IsInfix`, and
`cut_eq_some_iff` that a cut is at the first separator.
-/

namespace VoiceIndex

namespace Chars

/-- A line without the carriage return that may end it. -/
def dropReturn (line : List Char) : List Char :=
  if line.getLast? = some '\r' then line.dropLast else line

/-- The lines of a text. A line feed ends a line, with a carriage return before it belonging
to the ending; what follows the last line feed is a line unless it is empty. -/
def lines (cs : List Char) : List (List Char) :=
  let pieces := cs.splitOn '\n'
  pieces.dropLast.map dropReturn ++ pieces.getLast?.toList.filter (!·.isEmpty)

/-- What stands before and after the first `sep`. -/
def cut (sep : Char) : List Char → Option (List Char × List Char)
  | [] => none
  | c :: cs => if c = sep then some ([], cs) else (cut sep cs).map fun (a, b) => (c :: a, b)

/-- Whether `part` occurs in the characters without a gap. -/
def hasInfix (part : List Char) : List Char → Bool
  | [] => part.isEmpty
  | c :: cs => part.isPrefixOf (c :: cs) || hasInfix part cs

theorem hasInfix_iff {part cs : List Char} : hasInfix part cs = true ↔ part <:+: cs := by
  induction cs with
  | nil => simp [hasInfix]
  | cons c cs ih => simp [hasInfix, ih, List.infix_cons_iff]

theorem cut_eq_some_iff {sep : Char} {cs a b : List Char} :
    cut sep cs = some (a, b) ↔ cs = a ++ sep :: b ∧ sep ∉ a := by
  induction cs generalizing a with
  | nil => simp [cut]
  | cons c cs ih =>
    by_cases h : c = sep
    · cases a <;> simp_all [cut, eq_comm]
    · cases a with
      | nil => simp [cut, h]
      | cons d a =>
        simp only [cut, h, if_false, Option.map_eq_some_iff, Prod.mk.injEq, List.cons.injEq,
          Prod.exists]
        grind

end Chars

namespace Text

/-- The lines of a text, without their endings. -/
def lines (s : String) : List String := (Chars.lines s.toList).map .ofList

/-- The pieces between the characters that satisfy `p`, empty pieces included. -/
def pieces (p : Char → Bool) (s : String) : List String := (s.toList.splitOnP p).map .ofList

/-- What stands before and after the first `sep`. -/
def cut (sep : Char) (s : String) : Option (String × String) :=
  (Chars.cut sep s.toList).map fun (a, b) => (.ofList a, .ofList b)

/-- What follows `start` in a text that begins with it. -/
def after? (start s : String) : Option String :=
  (start.toList.isPrefixOf? s.toList).map .ofList

/-- What precedes `ending` in a text that ends with it. -/
def before? (ending s : String) : Option String :=
  (ending.toList.isSuffixOf? s.toList).map .ofList

/-- Whether the text begins with `start`. -/
def startsWith (start s : String) : Bool := start.toList.isPrefixOf s.toList

/-- Whether `part` occurs in the text. -/
def contains (s part : String) : Bool := Chars.hasInfix part.toList s.toList

end Text

end VoiceIndex
