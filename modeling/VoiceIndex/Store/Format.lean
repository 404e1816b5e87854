import VoiceIndex.Json.Decode
import VoiceIndex.Json.Writer
import VoiceIndex.Record.Format
import VoiceIndex.Store.Basic

/-!
# Stores as JSON

The text in which a store is kept in a file. `Store.ofText` takes what `Store.toText` writes
and any other JSON text with the same fields; fields that are missing have the values of an
empty store. Nothing is cut or checked on the way in.
-/

namespace VoiceIndex.Store

open Json (Fields)

/-- The names of the fields of a store, in their order. -/
def fieldNames : List String := ["commands", "lists", "nextId", "nextListId"]

/-- The store as an object. -/
def toJson (s : Store) : Json := .record [
  ("commands", .list (s.commands.map Command.toJson)),
  ("lists", .list (s.items.map ListItem.toJson)),
  ("nextId", .ofInt64 s.nextCommand),
  ("nextListId", .ofInt64 s.nextItem)]

/-- The store that a value gives. -/
def ofJson? (x : Json) : Option Store := do
  let fields ← Fields.of? fieldNames x
  let commands ← fields.withDefault "commands" (Json.list? Command.ofJson?) []
  let items ← fields.withDefault "lists" (Json.list? ListItem.ofJson?) []
  let nextCommand ← fields.withDefault "nextId" Json.int64? 1
  let nextItem ← fields.withDefault "nextListId" Json.int64? 1
  return { commands, items, nextCommand, nextItem }

/-- The text of a store. -/
def toText (s : Store) : String := s.toJson.pretty

/-- The store that a text gives. -/
def ofText (text : String) : Except DataFault Store := Json.decode ofJson? text

end VoiceIndex.Store
