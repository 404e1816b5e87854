import VoiceIndex.Environment
import VoiceIndex.Json.Decode
import VoiceIndex.Json.Writer
import VoiceIndex.Query.Options
import VoiceIndex.Source.UserFolder

/-!
# Settings

What a user can set, and the file in which it is kept. A file that does not exist stands for
the usual settings, and so does a field that is missing from the file. Settings that make no
sense are refused when they are read.
-/

namespace VoiceIndex

/-- What a user can set. -/
structure Settings where
  /-- The folder of voice commands; looked for at the usual places if absent or empty. -/
  userFolderPath : Option Path := none
  /-- Whether a search of an index without commands reads the folder first. -/
  enableAutoIndexing : Bool := true
  /-- How long an interactive program waits for the next letter, in milliseconds. -/
  searchDebounceMs : UInt64 := 300
  maxResults : UInt64 := defaultMaxResults
  preferredApplications : List String := []
  excludedOperatingSystems : List String := []
  /-- The file of the index, where it is not the usual one. -/
  dataPath : Option Path := none
  deriving DecidableEq, Inhabited, Repr

namespace Settings

open Json (Fields orNull?)

/-! ## The text -/

/-- The names of the fields, in their order. -/
def fieldNames : List String := [
  "userFolderPath", "enableAutoIndexing", "searchDebounceMs", "maxResults",
  "preferredApplications", "excludedOperatingSystems", "dataPath"]

/-- The settings as an object. -/
def toJson (s : Settings) : Json := .record [
  ("userFolderPath", .ofText? (s.userFolderPath.map (·.text))),
  ("enableAutoIndexing", .bool s.enableAutoIndexing),
  ("searchDebounceMs", .ofUInt64 s.searchDebounceMs),
  ("maxResults", .ofUInt64 s.maxResults),
  ("preferredApplications", .ofTexts s.preferredApplications),
  ("excludedOperatingSystems", .ofTexts s.excludedOperatingSystems),
  ("dataPath", .ofText? (s.dataPath.map (·.text)))]

/-- The path that a value gives. -/
def path? (x : Json) : Option Path := x.text?.map Path.mk

/-- The settings that a value gives. -/
def ofJson? (x : Json) : Option Settings := do
  let fields ← Fields.of? fieldNames x
  let texts := fun name => fields.withDefault name (Json.list? Json.text?) []
  let userFolderPath ← fields.withDefault "userFolderPath" (orNull? path?) none
  let enableAutoIndexing ← fields.withDefault "enableAutoIndexing" Json.bool? true
  let searchDebounceMs ← fields.withDefault "searchDebounceMs" Json.uint64? 300
  let maxResults ← fields.withDefault "maxResults" Json.uint64? defaultMaxResults
  let preferredApplications ← texts "preferredApplications"
  let excludedOperatingSystems ← texts "excludedOperatingSystems"
  let dataPath ← fields.withDefault "dataPath" (orNull? path?) none
  return { userFolderPath, enableAutoIndexing, searchDebounceMs, maxResults,
           preferredApplications, excludedOperatingSystems, dataPath }

/-- The text of the settings. -/
def toText (s : Settings) : String := s.toJson.pretty

/-- The settings that a text gives. -/
def ofText (text : String) : Except DataFault Settings := Json.decode ofJson? text

/-! ## The file -/

/-- The longest wait that can be set, in milliseconds. -/
def maxDebounceMs : Nat := 10000

/-- What is wrong with the settings, if anything. -/
def fault? (s : Settings) : Option ConfigFault :=
  if s.maxResults = 0 then some .noResults
  else if maxDebounceMs < s.searchDebounceMs.toNat then some (.debounceTooLong maxDebounceMs)
  else none

/-- The settings, unless something is wrong with them. -/
def validated (s : Settings) : Except Error Settings :=
  match s.fault? with
  | some fault => .error (.config fault)
  | none => .ok s

variable {m : Type → Type} [Monad m] [DiskAccess m]

/-- The settings in the file at the path. -/
def load (p : Path) : m (Except Error Settings) := do
  if ← DiskAccess.isThere p then
    match ← DiskAccess.readText p with
    | .error fault => return .error (.disk fault)
    | .ok text => match ofText text with
      | .error fault => return .error (.data fault)
      | .ok s => return s.validated
  else return .ok {}

/-- Writes the settings into the file at the path, in a folder that is made if need be. -/
def save (s : Settings) (p : Path) : m (Except Error Unit) := do
  match ← DiskAccess.makeRoom p with
  | .error fault => return .error (.disk fault)
  | .ok () => match ← DiskAccess.writeText p s.toText with
    | .error fault => return .error (.disk fault)
    | .ok () => return .ok ()

/-! ## What follows from them -/

/-- The path of the index. -/
def indexPath (s : Settings) (env : Environment) : Except Error Path :=
  match s.dataPath with
  | some p => .ok p
  | none => env.indexPath

/-- The folder of voice commands: the one set, or the first at the usual places. -/
def userFolder (s : Settings) (env : Environment) : m (Option Path) :=
  match s.userFolderPath with
  | some p => if p.text = "" then UserFolder.detect env else return some p
  | none => UserFolder.detect env

end Settings

end VoiceIndex
