import VoiceIndex.Disk.Access
import VoiceIndex.Json.Decode
import VoiceIndex.Text.Numeral

/-!
# Errors

Reading and searching commands never fails. What can fail is the exchange with the world
around: the files of the index and of the settings, the folder of voice commands, and what
somebody typed. Each error has a short text for a log and a message for the person who asked.
-/

namespace VoiceIndex

/-- What is wrong with a setting or an argument. -/
inductive ConfigFault where
  | noResults
  | debounceTooLong (greatest : Nat)
  | valueMissing (flag : String)
  | invalidLimit (given : String)
  | noConfigFolder
  | noDataFolder
  /-- A cause given in words. -/
  | reported (text : String)
  deriving DecidableEq, Inhabited, Repr

/-- The cause in words. -/
def ConfigFault.text : ConfigFault → String
  | .noResults => "maxResults must be at least 1"
  | .debounceTooLong greatest => "searchDebounceMs must be at most " ++ Text.decimal greatest
  | .valueMissing flag => flag ++ " needs a value"
  | .invalidLimit given => "invalid limit: " ++ given
  | .noConfigFolder => "could not find config directory"
  | .noDataFolder => "could not find data directory"
  | .reported text => text

/-- What can go wrong. -/
inductive Error where
  /-- A file or folder could not be used. -/
  | disk (fault : Fault)
  /-- A text is not the data it should be. -/
  | data (fault : DataFault)
  /-- The index at a path could not be opened. -/
  | indexUnavailable (path : Path) (reason : String)
  /-- There is no folder of voice commands where it was looked for. -/
  | noUserFolder (place : String)
  /-- A folder to be indexed holds no command files. -/
  | noCommandFiles (root : String)
  /-- A setting or an argument is wrong. -/
  | config (fault : ConfigFault)
  /-- A search scope has neither a known name nor a known number. -/
  | unknownScope (given : String)
  /-- Anything else, in words. -/
  | other (text : String)
  deriving DecidableEq, Inhabited, Repr

namespace Error

/-- The error in short. -/
def text : Error → String
  | .disk fault => "IO error: " ++ fault.text
  | .data fault => "Serialization error: " ++ fault.text
  | .indexUnavailable path reason =>
    "Record store unavailable at " ++ path.text ++ ": " ++ reason
  | .noUserFolder place => "Talon user folder not found: " ++ place
  | .noCommandFiles root => "No .talon files found in " ++ root
  | .config fault => "Configuration error: " ++ fault.text
  | .unknownScope given => "Invalid search scope: " ++ given
  | .other text => text

/-- The error for the person who asked, with what can be done about it. -/
def message : Error → String
  | .disk fault => "File system error. Check permissions. Details: " ++ fault.text
  | .data fault => "Data format error: " ++ fault.text
  | .indexUnavailable path reason =>
    "Could not open the command index at " ++ path.text ++
      ". Running in memory only. Details: " ++ reason
  | .noUserFolder place =>
    "No Talon user folder at '" ++ place ++
      "'. Set userFolderPath in the settings file or pass a path."
  | .noCommandFiles root =>
    "No .talon files found in '" ++ root ++ "'. The existing index was left as it is."
  | .config fault => "Configuration issue: " ++ fault.text
  | .unknownScope given =>
    "Unknown search scope '" ++ given ++ "'. Use names, script, all or spoken (or 0-3)."
  | .other text => text

end Error

end VoiceIndex
