/-!
# JSON values

The tree of a JSON text. Members keep their order and their repetitions: which of them a
record accepts is the record's decision. A string literal can hold an escaped half of a
surrogate pair, which no text contains; it is then a string without content.
-/

namespace VoiceIndex

/-- A JSON value. -/
inductive Json where
  | null
  | bool (b : Bool)
  /-- A number written without fraction, exponent or a sign before zero. -/
  | int (n : Int)
  /-- Any other number, as it is written. -/
  | decimal (literal : String)
  /-- A string; `none` when the literal does not denote a text. -/
  | text (content : Option String)
  | list (items : List Json)
  | object (members : List (Option String × Json))
  deriving Inhabited

namespace Json

/-- A string value. -/
def ofText (s : String) : Json := .text (some s)

/-- A string value, or null. -/
def ofText? : Option String → Json
  | some s => ofText s
  | none => .null

/-- A list of strings. -/
def ofTexts (texts : List String) : Json := .list (texts.map ofText)

/-- An object with these members, in this order. -/
def record (members : List (String × Json)) : Json :=
  .object (members.map fun (key, value) => (some key, value))

/-- The content of a string. -/
def text? : Json → Option String
  | .text content => content
  | _ => none

/-- The truth value. -/
def bool? : Json → Option Bool
  | .bool b => some b
  | _ => none

/-- A 64-bit integer with a sign. -/
def ofInt64 (n : Int64) : Json := .int n.toInt

/-- A 64-bit integer without a sign. -/
def ofUInt64 (n : UInt64) : Json := .int n.toNat

/-- A count. -/
def ofNat (n : Nat) : Json := .int n

/-- The number, if it is an integer between the bounds. -/
def between? (least greatest : Int) : Json → Option Int
  | .int n => if least ≤ n ∧ n ≤ greatest then some n else none
  | _ => none

/-- The number, if it is an integer that fits into 64 bits with a sign. -/
def int64? (x : Json) : Option Int64 :=
  (x.between? Int64.minValue.toInt Int64.maxValue.toInt).map .ofInt

/-- The number, if it is an integer that fits into 64 bits without a sign. -/
def uint64? (x : Json) : Option UInt64 := (x.between? 0 (UInt64.size - 1)).map (.ofNat ·.toNat)

/-- The elements, each read by `read`; every one of them must be readable. -/
def list? {α : Type} (read : Json → Option α) : Json → Option (List α)
  | .list items => items.mapM read
  | _ => none

end Json

end VoiceIndex
