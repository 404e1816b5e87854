import VoiceIndex.Index.Database
import VoiceIndex.Query.Facet
import VoiceIndex.Query.Options

/-!
# Shown text

The lines that the program shows, without their endings. Columns are padded with spaces to a
width in characters and never cut.
-/

namespace VoiceIndex.Cli

/-- The text in a column of at least this width, at its left side. -/
def padRight (width : Nat) (s : String) : String :=
  .ofList (s.toList ++ .replicate (width - s.toList.length) ' ')

/-- The text in a column of at least this width, at its right side. -/
def padLeft (width : Nat) (s : String) : String :=
  .ofList (.replicate (width - s.toList.length) ' ' ++ s.toList)

/-- The line between the parts of what is shown. -/
def ruler : String := .ofList (.replicate 60 '=')

/-- The version of the program. -/
def version : String := "0.1.0"

/-- The line with the version. -/
def versionLine : String := "talon-search v" ++ version

/-- How the program is used. -/
def usage : List String := [
  versionLine ++ " - Find the voice command you forgot",
  "",
  "USAGE:",
  "    talon-search <COMMAND> [OPTIONS] [--verbose]",
  "",
  "COMMANDS:",
  "    index [path]           Rebuild the index from a Talon user folder",
  "    import <path>          Add a folder, .talon, .talon-list or list table",
  "    search [flags] <term>  Search commands",
  "    lists [term]           Show lists, or search list items",
  "    status                 Show index stats and filters",
  "    clear [target]         Clear commands, lists or all (default: all)",
  "    config                 Show settings",
  "    version                Show version",
  "    help                   Show this help",
  "",
  "SEARCH FLAGS:",
  "    --scope <s>            names, script, all (default) or spoken",
  "    --app <name>           Only commands for this application",
  "    --mode <mode>          Mode contains this text",
  "    --repo <name>          Only commands from this repository",
  "    --tag <tag>            Has this tag",
  "    --os <os>              Only this operating system",
  "    --title <text>         Title is exactly this",
  "    --language <lang>      Only this code language",
  "    --limit <n>            Maximum results",
  "",
  "LIST FLAGS:",
  "    --name <list>          Show every item of one list",
  "    --limit <n>            Maximum results",
  "",
  "EXAMPLES:",
  "    talon-search index",
  "    talon-search search tab",
  "    talon-search search --scope spoken --app chrome left",
  "    talon-search lists --name user.arrow_key",
  "    talon-search status",
  "",
  "Set RUST_LOG to control log output.",
  ""]

/-- The first line of a script that is not blank. -/
def firstLine? (script : String) : Option String :=
  ((Text.lines script).map Text.trim).find? (· ≠ "")

/-- A command under its place among the results. -/
def commandLines (place : Nat) (c : Command) : List String :=
  [padLeft 3 (Text.decimal place) ++ ". " ++ c.trigger ++ "  (" ++ c.application ++ ")"] ++
    (firstLine? c.script).toList.map ("     " ++ ·) ++ ["     " ++ c.filePath]

/-- The results of a search. -/
def searchLines (o : SearchOptions) (results : List Command) : List String :=
  if results.isEmpty then ["No commands found matching '" ++ o.searchTerm ++ "'"]
  else
    ["", "Found " ++ Text.decimal results.length ++ " command(s) [scope: " ++ o.scope.name ++ "]:",
      ruler] ++
    (results.mapIdx fun k c => commandLines (k + 1) c).flatten ++ [ruler]

/-- The names of the lists. -/
def listNameLines (names : List String) : List String :=
  if names.isEmpty then ["No lists indexed."]
  else ["", Text.decimal names.length ++ " list(s):"] ++ names.map ("  " ++ ·)

/-- List items, up to a number of them. -/
def itemLines (limit : Nat) (items : List ListItem) : List String :=
  if items.isEmpty then ["No list items found."]
  else (items.take limit).map fun i =>
    "  " ++ padRight 30 i.listName ++ " " ++ padRight 25 i.spokenForm ++ " " ++ i.listValue

/-- The state of an index and of the folder it is made from. -/
def statusLines (db : Database) (userFolder : Option Path) : List String :=
  let stats := db.stats
  let values := db.store.filterValues
  let breakdown := db.store.repositoryBreakdown
  ["", "talon-search Status", ruler,
    "", "Index:",
    "  Location:    " ++ (db.snapshot?.map (·.text)).getD "in memory only",
    "  Commands:    " ++ Text.decimal stats.totalCommands,
    "  List items:  " ++ Text.decimal stats.totalListItems,
    "  Lists:       " ++ Text.decimal stats.distinctLists,
    "", "User Folder:",
    "  " ++ (userFolder.map (·.text)).getD "Not found",
    "", "Filters:",
    "  Applications:  " ++ Text.decimal values.applications.length,
    "  Modes:         " ++ Text.decimal values.modes.length,
    "  Tags:          " ++ Text.decimal values.tags.length,
    "  Titles:        " ++ Text.decimal values.titles.length,
    "  OS:            " ++ ", ".intercalate values.operatingSystems,
    "  Languages:     " ++ ", ".intercalate values.codeLanguages] ++
  (if breakdown.isEmpty then []
    else ["", "Repositories:"] ++
      breakdown.map fun (name, count) => "  " ++ padRight 30 name ++ " " ++ Text.decimal count) ++
  [ruler]

end VoiceIndex.Cli
