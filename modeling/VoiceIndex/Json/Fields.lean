import VoiceIndex.Json.Basic

/-!
# Records in JSON

A record is given as an object, in which unknown members are passed over and a known one may
stand only once, or as a list of its fields in their order, in which only fields with a
default may be left out, from the end.

`Fields.of?` reads either form; a field is then taken out by `required`, `optional` or
`withDefault`, according to what the record says of its absence.
-/

namespace VoiceIndex.Json

/-- A value that may be null. -/
def orNull? {α : Type} (read : Json → Option α) : Json → Option (Option α)
  | .null => some none
  | x => (read x).map some

/-- The fields of a record as they were given. -/
structure Fields where
  /-- The fields present, by name. -/
  given : List (String × Json)
  /-- Whether they were told apart by their place and not by their name. -/
  byPlace : Bool

namespace Fields

/-- The members with a known name, or nothing if a key is no text or a known name returns. -/
def known? (names : List String) : List (Option String × Json) → Option (List (String × Json))
  | [] => some []
  | (none, _) :: _ => none
  | (some key, x) :: rest => do
    let found ← known? names rest
    if !names.contains key then return found
    else if (found.lookup key).isSome then none
    else return (key, x) :: found

/-- The fields of a record that has fields of these names, in this order. -/
def of? (names : List String) : Json → Option Fields
  | .object members => (known? names members).map (⟨·, false⟩)
  | .list items =>
    if items.length ≤ names.length then some ⟨names.zip items, true⟩ else none
  | _ => none

variable {α : Type} (fields : Fields) (name : String) (read : Json → Option α)

/-- A field that must be present. -/
def required : Option α := (fields.given.lookup name).bind read

/-- A field that may be null, or absent where the fields have names. -/
def optional : Option (Option α) :=
  match fields.given.lookup name with
  | none => if fields.byPlace then none else some none
  | some x => orNull? read x

/-- A field that may be absent and then has this value. -/
def withDefault (value : α) : Option α :=
  match fields.given.lookup name with
  | none => some value
  | some x => read x

end Fields

end VoiceIndex.Json
