import VoiceIndex.Record.Limit
import VoiceIndex.Text.Limit

/-!
# List items

A list gives names to values: what is said in place of a placeholder, and what it stands
for. An item is one such pair together with the name of its list. A draft is an item before
the index gives it a number.
-/

namespace VoiceIndex

/-- An item as it was found. -/
structure ItemDraft where
  listName : String
  spokenForm : String
  listValue : String
  sourceFile : Option String := none
  createdAt : Option String := none
  importedAt : Option String := none
  deriving DecidableEq, Inhabited, Repr

/-- An item in the index. -/
structure ListItem where
  id : Int64
  listName : String
  spokenForm : String
  listValue : String
  sourceFile : Option String := none
  createdAt : String
  importedAt : String
  deriving DecidableEq, Inhabited, Repr

/-- The record of a draft under a number, its texts cut to their limits with a mark. A draft
without times gets the time `now`. -/
def ListItem.ofDraft (id : Int64) (now : String) (draft : ItemDraft) : ListItem where
  id := id
  listName := Text.clipMarked Limit.listName draft.listName
  spokenForm := Text.clipMarked Limit.spokenForm draft.spokenForm
  listValue := Text.clipMarked Limit.listValue draft.listValue
  sourceFile := draft.sourceFile.map (Text.clipMarked Limit.sourceFile)
  createdAt := draft.createdAt.getD now
  importedAt := draft.importedAt.getD now

end VoiceIndex
