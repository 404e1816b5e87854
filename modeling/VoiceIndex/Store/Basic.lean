import VoiceIndex.Record.Command
import VoiceIndex.Record.ListItem
import VoiceIndex.Text.Order

/-!
# The store of records

The store holds the commands and the list items in the order of their arrival, and the
number that the next record of either kind will have. Records come in by insertion or by the
replacement of their whole kind, and leave only with their whole kind.

A batch is numbered from the next number on and appended as a whole. `Clock` gives the times
that a batch is stamped with, one for each record.
-/

namespace VoiceIndex

/-- The readings of a clock, one after another. -/
abbrev Clock := Nat → String

/-- The commands and list items of an index. -/
structure Store where
  commands : List Command := []
  items : List ListItem := []
  /-- The number of the next command. -/
  nextCommand : Int64 := 1
  /-- The number of the next list item. -/
  nextItem : Int64 := 1
  deriving DecidableEq, Inhabited, Repr

namespace Store

/-- The store without records. -/
def empty : Store := {}

/-! ## Commands -/

/-- The store with one more command. -/
def insertCommand (clock : Clock) (draft : CommandDraft) (s : Store) : Store :=
  { s with
    commands := s.commands ++ [.ofDraft s.nextCommand (clock 0) draft]
    nextCommand := s.nextCommand + 1 }

/-- The store with more commands. -/
def insertCommands (clock : Clock) (drafts : List CommandDraft) (s : Store) : Store :=
  { s with
    commands := s.commands ++ drafts.mapIdx fun k draft =>
      .ofDraft (s.nextCommand + .ofNat k) (clock k) draft
    nextCommand := s.nextCommand + .ofNat drafts.length }

/-- The store without commands, to be numbered from one again. -/
def clearCommands (s : Store) : Store := { s with commands := [], nextCommand := 1 }

/-- The store with these commands in place of those it has. -/
def refreshCommands (clock : Clock) (drafts : List CommandDraft) (s : Store) : Store :=
  s.clearCommands.insertCommands clock drafts

/-! ## List items -/

/-- The store with one more list item. -/
def insertItem (clock : Clock) (draft : ItemDraft) (s : Store) : Store :=
  { s with
    items := s.items ++ [.ofDraft s.nextItem (clock 0) draft]
    nextItem := s.nextItem + 1 }

/-- The store with more list items. -/
def insertItems (clock : Clock) (drafts : List ItemDraft) (s : Store) : Store :=
  { s with
    items := s.items ++ drafts.mapIdx fun k draft =>
      .ofDraft (s.nextItem + .ofNat k) (clock k) draft
    nextItem := s.nextItem + .ofNat drafts.length }

/-- The store without list items, to be numbered from one again. -/
def clearItems (s : Store) : Store := { s with items := [], nextItem := 1 }

/-- The store with these list items in place of those it has. -/
def refreshItems (clock : Clock) (drafts : List ItemDraft) (s : Store) : Store :=
  s.clearItems.insertItems clock drafts

/-- The store without records, to be numbered from one again. -/
def clearAll (s : Store) : Store := s.clearCommands.clearItems

/-! ## Lists -/

/-- The names of the lists, in ascending order. -/
def listNames (s : Store) : List String := Text.distinct (s.items.map (·.listName))

/-- The items of one list, in the order of the store. -/
def itemsOf (s : Store) (name : String) : List ListItem := s.items.filter (·.listName = name)

end Store

end VoiceIndex
