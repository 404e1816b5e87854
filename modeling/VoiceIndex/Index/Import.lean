import VoiceIndex.Index.Database
import VoiceIndex.Source.CommandFile
import VoiceIndex.Source.ListFile
import VoiceIndex.Source.UserFolder

/-!
# Imports

An import brings the records of files into a database, in place of those there or after
them. All files of one kind make one edit, so a file without records stops nothing. A folder
in which no command file was found does not replace anything.
-/

namespace VoiceIndex

/-- What becomes of the records that are there. -/
inductive ImportMode where
  /-- They give way to the new ones. -/
  | refresh
  /-- They stay, before the new ones. -/
  | append
  deriving DecidableEq, Inhabited, Repr

/-- What an import did. -/
structure ImportSummary where
  filesProcessed : Nat
  filesWithoutRecords : Nat
  recordsImported : Nat
  /-- The number of records of the kind in the store afterwards. -/
  totalInStore : Nat
  deriving DecidableEq, Inhabited, Repr

namespace ImportMode

/-- The edit that brings in commands. -/
def commandEdit : ImportMode → List CommandDraft → Edit
  | refresh, drafts => .refreshCommands drafts
  | append, drafts => .insertCommands drafts

/-- The edit that brings in list items. -/
def itemEdit : ImportMode → List ItemDraft → Edit
  | refresh, drafts => .refreshItems drafts
  | append, drafts => .insertItems drafts

end ImportMode

/-- The summary of an import of these records, file by file, after which the store holds a
number of records of their kind. -/
def ImportSummary.ofFiles {α : Type} (perFile : List (List α)) (total : Nat) : ImportSummary where
  filesProcessed := perFile.length
  filesWithoutRecords := perFile.countP List.isEmpty
  recordsImported := perFile.flatten.length
  totalInStore := total

namespace Database

variable {m : Type → Type} [Monad m] [DiskAccess m]

/-- Brings in commands, file by file. -/
def importDrafts (clock : Clock) (mode : ImportMode) (perFile : List (List CommandDraft))
    (db : Database) : m (Database × ImportSummary) := do
  let (db, _) ← db.edit clock (mode.commandEdit perFile.flatten)
  return (db, .ofFiles perFile db.store.commands.length)

/-- Brings in list items, file by file. -/
def importItemDrafts (clock : Clock) (mode : ImportMode) (perFile : List (List ItemDraft))
    (db : Database) : m (Database × ImportSummary) := do
  let (db, _) ← db.edit clock (mode.itemEdit perFile.flatten)
  return (db, .ofFiles perFile db.store.items.length)

/-- Brings in the commands of command files. -/
def importCommandFiles (clock : Clock) (mode : ImportMode) (files : List SourceFile)
    (db : Database) : m (Database × ImportSummary) :=
  db.importDrafts clock mode (files.map fun file => CommandFile.commands file.path.text file.content)

/-- Brings in the items of list files. -/
def importListFiles (clock : Clock) (mode : ImportMode) (files : List SourceFile)
    (db : Database) : m (Database × ImportSummary) :=
  db.importItemDrafts clock mode (files.map fun file => ListFile.items file.path.text file.content)

/-- Brings in the items of a list table. -/
def importListTable (clock : Clock) (mode : ImportMode) (file : SourceFile) (db : Database) :
    m (Database × ImportSummary) :=
  db.importItemDrafts clock mode [ListTable.items file.path.text file.content]

/-- Brings in what was found in a folder, commands first. -/
def importScan (clock : Clock) (mode : ImportMode) (root : Path) (report : ScanReport)
    (db : Database) : m (Except Error (Database × ImportSummary × ImportSummary)) := do
  if mode = .refresh ∧ report.commandFiles = [] then return .error (.noCommandFiles root.text)
  else
    let (db, commands) ← db.importCommandFiles clock mode report.commandFiles
    let (db, lists) ← db.importListFiles clock mode report.listFiles
    return .ok (db, commands, lists)

end Database

end VoiceIndex
