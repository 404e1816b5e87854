import VoiceIndex.Json.Fields
import VoiceIndex.Record.Command
import VoiceIndex.Record.ListItem

/-!
# Records as JSON

How drafts and records of commands and list items stand in a file. An absent text is null;
only a list of applications without members is left out altogether. When a record is read,
an absent text may also be missing.
-/

namespace VoiceIndex

open Json (Fields)

namespace Context

/-- The names of the texts of a context, in their order. -/
def fieldNames : List String :=
  ["title", "mode", "operatingSystem", "tags", "codeLanguage", "language", "hostname"]

/-- The members of an object that give the context. -/
def members (c : Context) : List (String × Json) := [
  ("title", .ofText? c.title),
  ("mode", .ofText? c.mode),
  ("operatingSystem", .ofText? c.operatingSystem),
  ("tags", .ofText? c.tags),
  ("codeLanguage", .ofText? c.codeLanguage),
  ("language", .ofText? c.language),
  ("hostname", .ofText? c.hostname)]

/-- The context that the fields of a record give. -/
def ofFields? (fields : Fields) : Option Context := do
  let title ← fields.optional "title" Json.text?
  let mode ← fields.optional "mode" Json.text?
  let operatingSystem ← fields.optional "operatingSystem" Json.text?
  let tags ← fields.optional "tags" Json.text?
  let codeLanguage ← fields.optional "codeLanguage" Json.text?
  let language ← fields.optional "language" Json.text?
  let hostname ← fields.optional "hostname" Json.text?
  return { title, mode, operatingSystem, tags, codeLanguage, language, hostname }

end Context

/-- The member that lists the applications, if there are any. -/
def applicationsMember (applications : List String) : List (String × Json) :=
  if applications.isEmpty then [] else [("applications", .ofTexts applications)]

namespace CommandDraft

/-- The names of the fields of a draft, in their order. -/
def fieldNames : List String :=
  ["command", "script", "application", "applications"] ++ Context.fieldNames ++
    ["filePath", "repository", "createdAt"]

/-- The draft as an object. -/
def toJson (c : CommandDraft) : Json := .record <|
  [("command", .ofText c.trigger), ("script", .ofText c.script),
    ("application", .ofText? c.application)] ++
  applicationsMember c.applications ++ c.toContext.members ++
  [("filePath", .ofText c.filePath), ("repository", .ofText? c.repository),
    ("createdAt", .ofText? c.createdAt)]

/-- The draft that a value gives. -/
def ofJson? (x : Json) : Option CommandDraft := do
  let fields ← Fields.of? fieldNames x
  let trigger ← fields.required "command" Json.text?
  let script ← fields.required "script" Json.text?
  let application ← fields.optional "application" Json.text?
  let applications ← fields.withDefault "applications" (Json.list? Json.text?) []
  let context ← Context.ofFields? fields
  let filePath ← fields.required "filePath" Json.text?
  let repository ← fields.optional "repository" Json.text?
  let createdAt ← fields.optional "createdAt" Json.text?
  return { context with
    trigger, script, application, applications, filePath, repository, createdAt }

end CommandDraft

namespace Command

/-- The names of the fields of a command, in their order. -/
def fieldNames : List String := "id" :: CommandDraft.fieldNames

/-- The command as an object. -/
def toJson (c : Command) : Json := .record <|
  [("id", .ofInt64 c.id), ("command", .ofText c.trigger), ("script", .ofText c.script),
    ("application", .ofText c.application)] ++
  applicationsMember c.applications ++ c.toContext.members ++
  [("filePath", .ofText c.filePath), ("repository", .ofText? c.repository),
    ("createdAt", .ofText c.createdAt)]

/-- The command that a value gives. -/
def ofJson? (x : Json) : Option Command := do
  let fields ← Fields.of? fieldNames x
  let id ← fields.required "id" Json.int64?
  let trigger ← fields.required "command" Json.text?
  let script ← fields.required "script" Json.text?
  let application ← fields.required "application" Json.text?
  let applications ← fields.withDefault "applications" (Json.list? Json.text?) []
  let context ← Context.ofFields? fields
  let filePath ← fields.required "filePath" Json.text?
  let repository ← fields.optional "repository" Json.text?
  let createdAt ← fields.required "createdAt" Json.text?
  return { context with
    id, trigger, script, application, applications, filePath, repository, createdAt }

end Command

namespace ItemDraft

/-- The names of the fields of a draft, in their order. -/
def fieldNames : List String :=
  ["listName", "spokenForm", "listValue", "sourceFile", "createdAt", "importedAt"]

/-- The draft as an object. -/
def toJson (i : ItemDraft) : Json := .record [
  ("listName", .ofText i.listName),
  ("spokenForm", .ofText i.spokenForm),
  ("listValue", .ofText i.listValue),
  ("sourceFile", .ofText? i.sourceFile),
  ("createdAt", .ofText? i.createdAt),
  ("importedAt", .ofText? i.importedAt)]

/-- The draft that a value gives. -/
def ofJson? (x : Json) : Option ItemDraft := do
  let fields ← Fields.of? fieldNames x
  let listName ← fields.required "listName" Json.text?
  let spokenForm ← fields.required "spokenForm" Json.text?
  let listValue ← fields.required "listValue" Json.text?
  let sourceFile ← fields.optional "sourceFile" Json.text?
  let createdAt ← fields.optional "createdAt" Json.text?
  let importedAt ← fields.optional "importedAt" Json.text?
  return { listName, spokenForm, listValue, sourceFile, createdAt, importedAt }

end ItemDraft

namespace ListItem

/-- The names of the fields of an item, in their order. -/
def fieldNames : List String := "id" :: ItemDraft.fieldNames

/-- The item as an object. -/
def toJson (i : ListItem) : Json := .record [
  ("id", .ofInt64 i.id),
  ("listName", .ofText i.listName),
  ("spokenForm", .ofText i.spokenForm),
  ("listValue", .ofText i.listValue),
  ("sourceFile", .ofText? i.sourceFile),
  ("createdAt", .ofText i.createdAt),
  ("importedAt", .ofText i.importedAt)]

/-- The item that a value gives. -/
def ofJson? (x : Json) : Option ListItem := do
  let fields ← Fields.of? fieldNames x
  let id ← fields.required "id" Json.int64?
  let listName ← fields.required "listName" Json.text?
  let spokenForm ← fields.required "spokenForm" Json.text?
  let listValue ← fields.required "listValue" Json.text?
  let sourceFile ← fields.optional "sourceFile" Json.text?
  let createdAt ← fields.required "createdAt" Json.text?
  let importedAt ← fields.required "importedAt" Json.text?
  return { id, listName, spokenForm, listValue, sourceFile, createdAt, importedAt }

end ListItem

end VoiceIndex
