import VoiceIndex.Record.ListItem
import VoiceIndex.Text.Blank
import VoiceIndex.Text.Case.Lower
import VoiceIndex.Text.Pieces

/-!
# Placeholders

A placeholder in a trigger is a name in angle brackets or braces; what may be said in its
place is given by a list. `placeholders` finds the names, `ListIndex` groups the items of a
store by their lists, and `ListIndex.resolve?` finds the list that a name refers to: the list
of exactly that name, or else the first whose own name, apart from folders and prefixes, is
the last part of the placeholder's.
-/

namespace VoiceIndex

/-! ## Names in a trigger -/

/-- A bracket that opens a placeholder. -/
def opensPlaceholder (c : Char) : Bool := c == '<' || c == '\x7b'

/-- A bracket that closes a placeholder. -/
def closesPlaceholder (c : Char) : Bool := c == '>' || c == '\x7d'

/-- The names of the placeholders in the rest of a trigger. `inside?` holds what has been read
since the bracket that opened a placeholder, in reverse; a name is complete at the next
closing bracket, and an opening bracket inside it is a character like any other. Nothing
between two brackets is no name. -/
def placeholderNames (inside? : Option (List Char)) : List Char → List (List Char)
  | [] => []
  | c :: rest =>
    match inside? with
    | none => placeholderNames (if opensPlaceholder c then some [] else none) rest
    | some inside =>
      if !closesPlaceholder c then placeholderNames (some (c :: inside)) rest
      else if inside.isEmpty then placeholderNames none rest
      else inside.reverse :: placeholderNames none rest

/-- The names of the placeholders in a trigger, from left to right. -/
def placeholders (trigger : String) : List String :=
  (placeholderNames none trigger.toList).map .ofList

/-! ## Lists by name -/

/-- The last part of a name whose parts are separated by `sep`. -/
def lastPart (sep : Char) (name : String) : String :=
  (Text.pieces (· == sep) name).getLast?.getD name

/-- The name of a list apart from its folder and its prefixes. -/
def baseName (listName : String) : String := lastPart '.' (lastPart '/' listName)

/-- List items grouped by the names of their lists, in the order in which the lists first
appear. -/
structure ListIndex where
  groups : List (String × List ListItem) := []

namespace ListIndex

/-- The groups with one more item, at the end of the group of its list or in a group of its
own. -/
def insertItem (item : ListItem) : List (String × List ListItem) → List (String × List ListItem)
  | [] => [(item.listName, [item])]
  | (name, members) :: rest =>
    if name = item.listName then (name, members ++ [item]) :: rest
    else (name, members) :: insertItem item rest

/-- The index of these items. -/
def ofItems (items : List ListItem) : ListIndex :=
  ⟨items.foldl (fun groups item => insertItem item groups) []⟩

/-- The names of the lists, in the order in which they first appear. -/
def names (index : ListIndex) : List String := index.groups.map (·.1)

/-- The items of a list. -/
def itemsOf (index : ListIndex) (name : String) : List ListItem :=
  (index.groups.lookup name).getD []

/-- The list that a placeholder's name refers to. -/
def resolve? (index : ListIndex) (name : String) : Option String :=
  if (index.groups.lookup name).isSome then some name
  else
    let base := lastPart '.' name
    if base = "" then none else index.names.find? (baseName · = base)

/-- Whether an item answers a term with these words: it is a form of several words and the
whole term, or one of the words occurs in its form or in its value. -/
def answers (term : String) (words : List String) (item : ListItem) : Bool :=
  let spoken := Text.lower item.spokenForm
  let value := Text.lower item.listValue
  (Text.contains spoken " " && term == spoken) ||
    words.any fun word => spoken == word || Text.contains spoken word || Text.contains value word

/-- Whether a placeholder of the trigger refers to a list with an item that answers the
term. The term is taken as it is; without a word in it nothing is found. -/
def matchesTerm (index : ListIndex) (term trigger : String) : Bool :=
  let words := Text.words term
  !words.isEmpty &&
    ((placeholders trigger).filterMap index.resolve?).any fun name =>
      (index.itemsOf name).any (answers term words)

end ListIndex

end VoiceIndex
