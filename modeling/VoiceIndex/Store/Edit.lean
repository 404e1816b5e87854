import VoiceIndex.Store.Basic

/-!
# Edits

Everything that can be done to a store, as a value. `Store.edit` carries an edit out and says
what came of it; there is no other way in which the records of an index change.
-/

namespace VoiceIndex

/-- A change of the records. -/
inductive Edit where
  | insertCommand (draft : CommandDraft)
  | insertCommands (drafts : List CommandDraft)
  | refreshCommands (drafts : List CommandDraft)
  | insertItem (draft : ItemDraft)
  | insertItems (drafts : List ItemDraft)
  | refreshItems (drafts : List ItemDraft)
  | clearCommands
  | clearItems
  | clearAll
  deriving DecidableEq, Inhabited, Repr

/-- What came of an edit. -/
inductive Receipt where
  /-- One record came in, with this number. -/
  | number (id : Int64)
  /-- So many records came in. -/
  | count (n : Nat)
  /-- No record came in. -/
  | done
  deriving DecidableEq, Inhabited, Repr

namespace Store

/-- The store after an edit made at the times that the clock shows. -/
def edit (clock : Clock) (s : Store) : Edit → Store
  | .insertCommand draft => s.insertCommand clock draft
  | .insertCommands drafts => s.insertCommands clock drafts
  | .refreshCommands drafts => s.refreshCommands clock drafts
  | .insertItem draft => s.insertItem clock draft
  | .insertItems drafts => s.insertItems clock drafts
  | .refreshItems drafts => s.refreshItems clock drafts
  | .clearCommands => s.clearCommands
  | .clearItems => s.clearItems
  | .clearAll => s.clearAll

/-- What an edit of the store reports. -/
def receipt (s : Store) : Edit → Receipt
  | .insertCommand _ => .number s.nextCommand
  | .insertItem _ => .number s.nextItem
  | .insertCommands drafts | .refreshCommands drafts => .count drafts.length
  | .insertItems drafts | .refreshItems drafts => .count drafts.length
  | .clearCommands | .clearItems | .clearAll => .done

end Store

end VoiceIndex
