import VoiceIndex.Cli.Arguments
import VoiceIndex.Cli.Render
import VoiceIndex.Index.Import
import VoiceIndex.Query.Search

/-!
# The program

`run` carries out a list of arguments: the first names a command, the others are for the
command. What is shown goes to two transcripts, and an error ends the run with a message and
the code 1; an unknown command or a missing argument is only pointed out.
-/

namespace VoiceIndex.Cli

/-- What a run has shown so far. -/
structure Transcript where
  out : String := ""
  err : String := ""
  deriving DecidableEq, Inhabited, Repr

/-- How a run ended, and all it showed. -/
structure Outcome where
  code : Nat
  out : String
  err : String
  deriving DecidableEq, Inhabited, Repr

/-- What a command can do: use the disk, show text, and fail. -/
abbrev Action (m : Type → Type) := ExceptT Error (StateT Transcript m)

variable {m : Type → Type} [Monad m] [DiskAccess m]

/-- Shows a line. -/
def say (line : String) : Action m Unit :=
  modify fun t => { t with out := t.out ++ line ++ "\n" }

/-- Shows lines. -/
def sayAll (lines : List String) : Action m Unit := lines.forM say

/-- Shows a line among the warnings. -/
def warn (line : String) : Action m Unit :=
  modify fun t => { t with err := t.err ++ line ++ "\n" }

/-- Goes on with a result, or fails with its error. -/
def orFail {α : Type} : Except Error α → Action m α
  | .ok a => pure a
  | .error e => throw e

/-- Uses the disk. -/
def onDisk {α : Type} (x : m α) : Action m α := ExceptT.lift (liftM x)

/-! ## What commands share -/

/-- The settings of the user. -/
def loadSettings (env : Environment) : Action m Settings := do
  orFail (← onDisk (Settings.load (← orFail env.settingsPath)))

/-- The index, with a warning if it could not be opened. -/
def openIndex (env : Environment) (settings : Settings) : Action m Database := do
  let (db, failure) ← onDisk (Database.openOrDegrade (← orFail (settings.indexPath env)))
  match failure with
  | some e => warn ("Warning: " ++ e.message)
  | none => pure ()
  return db

/-- Reads a folder and brings what is in it into the index. -/
def indexFolder (clock : Clock) (mode : ImportMode) (root : Path) (db : Database) :
    Action m (Database × ImportSummary × ImportSummary) := do
  let report ← orFail (← onDisk (UserFolder.scan root))
  report.skipped.forM fun (p, fault) => warn ("  (skipped " ++ p.text ++ ": " ++ fault.text ++ ")")
  orFail (← onDisk (db.importScan clock mode root report))

/-! ## Commands -/

/-- The command `index`: makes the index anew from a folder. -/
def runIndex (clock : Clock) (env : Environment) (args : List String) : Action m Unit := do
  let settings ← loadSettings env
  let root? ← match args with
    | path :: _ => pure (some ⟨path⟩)
    | [] => onDisk (settings.userFolder env)
  match root? with
  | none => throw (.noUserFolder "no path given and none detected")
  | some root =>
    let db ← openIndex env settings
    say ("Indexing " ++ root.text ++ " ...")
    let (_, commands, lists) ← indexFolder clock .refresh root db
    say ("✓ " ++ Text.decimal commands.recordsImported ++ " commands from " ++
      Text.decimal commands.filesProcessed ++ " files")
    say ("✓ " ++ Text.decimal lists.recordsImported ++ " list items from " ++
      Text.decimal lists.filesProcessed ++ " files")

/-- Brings a file into the index: a command file, a list file, or any other as a table. -/
def importFile (clock : Clock) (file : SourceFile) (db : Database) :
    m (Database × ImportSummary) :=
  match SourceKind.ofPath? file.path with
  | some .commands => db.importCommandFiles clock .append [file]
  | some .list => db.importListFiles clock .append [file]
  | none => db.importListTable clock .append file

/-- The command `import`: adds a folder or a file to the index. -/
def runImport (clock : Clock) (env : Environment) (args : List String) : Action m Unit := do
  match args with
  | [] => warn "Error: No path provided"
  | path :: _ =>
    let p : Path := ⟨path⟩
    let settings ← loadSettings env
    let db ← openIndex env settings
    if ← onDisk (DiskAccess.isFolder p) then
      let (_, commands, lists) ← indexFolder clock .append p db
      say ("✓ Added " ++ Text.decimal commands.recordsImported ++ " commands and " ++
        Text.decimal lists.recordsImported ++ " list items")
    else
      match ← onDisk (DiskAccess.readText p) with
      | .error fault => throw (.disk fault)
      | .ok content =>
        let (_, summary) ← onDisk (importFile clock ⟨p, content⟩ db)
        say ("✓ Added " ++ Text.decimal summary.recordsImported ++ " records (" ++
          Text.decimal summary.totalInStore ++ " total)")

/-- The index that a search looks into: one without commands is first made from the folder of
voice commands, if the settings allow it and there is such a folder. -/
def indexForSearch (clock : Clock) (env : Environment) (settings : Settings) :
    Action m Database := do
  let db ← openIndex env settings
  if db.store.commands.isEmpty && settings.enableAutoIndexing then
    match ← onDisk (settings.userFolder env) with
    | none => return db
    | some root =>
      say ("Index is empty, indexing " ++ root.text ++ " first...")
      let (db, _, _) ← indexFolder clock .refresh root db
      return db
  else return db

/-- The command `search`. -/
def runSearch (clock : Clock) (env : Environment) (args : List String) : Action m Unit := do
  let settings ← loadSettings env
  let options ← orFail (searchOptions settings args)
  let db ← indexForSearch clock env settings
  sayAll (searchLines options (db.store.search options))

/-- The command `lists`. -/
def runLists (env : Environment) (args : List String) : Action m Unit := do
  let settings ← loadSettings env
  let request ← orFail (readLists { limit := settings.maxResults } args)
  let db ← openIndex env settings
  let limit := request.limit.toNat
  sayAll <| match request.list, request.term with
    | some name, _ => itemLines limit (db.store.itemsOf name)
    | none, some term => itemLines limit (db.store.searchItems term limit)
    | none, none => listNameLines db.store.listNames

/-- The command `status`. -/
def runStatus (env : Environment) : Action m Unit := do
  let settings ← loadSettings env
  let db ← openIndex env settings
  sayAll (statusLines db (← onDisk (settings.userFolder env)))

/-- What the command `clear` does to the index, and what it says of it. -/
def clearing? : String → Option (Edit × String)
  | "commands" => some (.clearCommands, "✓ Cleared all commands")
  | "lists" => some (.clearItems, "✓ Cleared all list items")
  | "all" => some (.clearAll, "✓ Cleared the whole index")
  | _ => none

/-- The command `clear`. -/
def runClear (clock : Clock) (env : Environment) (args : List String) : Action m Unit := do
  let settings ← loadSettings env
  let db ← openIndex env settings
  let target := args.head?.getD "all"
  match clearing? target with
  | some (edit, line) =>
    let _ ← onDisk (db.edit clock edit)
    say line
  | none => warn ("Unknown target: " ++ target ++ " (use commands, lists or all)")

/-- The command `config`. -/
def runConfig (env : Environment) : Action m Unit := do
  let p ← orFail env.settingsPath
  let settings ← loadSettings env
  say ("Settings file: " ++ p.text)
  say ("Index file:    " ++ (← orFail (settings.indexPath env)).text)
  say settings.toText

/-! ## The whole -/

/-- Carries out the arguments. -/
def command (clock : Clock) (env : Environment) : List String → Action m Unit
  | [] => sayAll usage
  | name :: args =>
    match name with
    | "index" => runIndex clock env args
    | "import" => runImport clock env args
    | "search" => runSearch clock env args
    | "lists" => runLists env args
    | "status" => runStatus env
    | "clear" => runClear clock env args
    | "config" => runConfig env
    | "version" | "-v" | "--version" => say versionLine
    | "help" | "-h" | "--help" => sayAll usage
    | _ => do
      warn ("Unknown command: " ++ name)
      sayAll usage

/-- Carries out the arguments, of which `--verbose` may stand anywhere and has no effect on
what is shown here. -/
def run (clock : Clock) (env : Environment) (args : List String) : m Outcome := do
  let (result, t) ← (command clock env (args.filter (· ≠ "--verbose"))).run.run {}
  match result with
  | .ok () => return ⟨0, t.out, t.err⟩
  | .error e => return ⟨1, t.out, t.err ++ "Error: " ++ e.message ++ "\n"⟩

end VoiceIndex.Cli
