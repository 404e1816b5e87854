import VoiceIndex.Record.ListItem
import VoiceIndex.Source.Origin
import VoiceIndex.Text.Blank
import VoiceIndex.Record.Limit
import VoiceIndex.Text.Limit

/-!
# List files and the list table

A list file holds one list, named by the path of the file: each line gives a spoken form and,
after a colon, its value. The table holds items of many lists: each line gives the name of a
list, a spoken form and a value, separated by commas. Comments, blank lines and lines that
lack a part are passed over.
-/

namespace VoiceIndex

/-- The draft of an item, if none of its parts is blank. -/
def itemDraft? (path listName spokenForm listValue : String) : Option ItemDraft :=
  let spokenForm := Text.trim spokenForm
  let listValue := Text.trim listValue
  if listName = "" ∨ spokenForm = "" ∨ listValue = "" then none
  else some {
    listName
    spokenForm := Text.clipMarked Limit.spokenForm spokenForm
    listValue := Text.clipMarked Limit.listValue listValue
    sourceFile := some (Text.clipMarked Limit.sourceFile path) }

namespace ListFile

/-- Whether a line, given without the blanks around it, says nothing. -/
def isIdle (line : String) : Bool :=
  line == "" || Text.startsWith "#" line || Text.startsWith "//" line

/-- The item that a line gives. -/
def item? (path listName line : String) : Option ItemDraft :=
  let line := Text.trim line
  if isIdle line then none
  else (Text.cut ':' line).bind fun (spoken, value) => itemDraft? path listName spoken value

/-- The items in a list file with this path and content. -/
def items (path content : String) : List ItemDraft :=
  let listName := Text.clipMarked Limit.listName (listNameOfPath path)
  (Text.lines content).filterMap (item? path listName)

end ListFile

namespace ListTable

/-- The first field of the characters and the fields after it. A quote that no backslash
precedes begins or ends a quotation and belongs to no field; a comma outside a quotation ends
a field; anything else is part of one. -/
def split (quoted : Bool) (previous : Option Char) :
    List Char → List Char × List (List Char)
  | [] => ([], [])
  | c :: rest =>
    if c = '"' ∧ previous ≠ some '\\' then split (!quoted) (some c) rest
    else
      let (field, later) := split quoted (some c) rest
      if c = ',' ∧ !quoted then ([], field :: later) else (c :: field, later)

/-- The fields of a line. -/
def fields (line : String) : List String :=
  let (field, later) := split false none line.toList
  (field :: later).map .ofList

/-- The item that a line gives. -/
def item? (path line : String) : Option ItemDraft :=
  let line := Text.trim line
  if line = "" ∨ Text.startsWith "#" line then none
  else match fields line with
    | listName :: spoken :: value :: _ =>
      itemDraft? path (Text.clipMarked Limit.listName (Text.trim listName)) spoken value
    | _ => none

/-- The items in a table with this path and content. -/
def items (path content : String) : List ItemDraft :=
  (Text.lines content).filterMap (item? path)

end ListTable

end VoiceIndex
