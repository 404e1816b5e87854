import VoiceIndex.Query.Options
import VoiceIndex.Settings

/-!
# Arguments

The arguments of the commands `search` and `lists`. Flags and words may be mixed; a flag
takes the argument after it as its value, and of a flag that is given twice the last value
counts.
-/

namespace VoiceIndex.Cli

/-- The greatest limit that can be given. -/
def maxLimit : Nat := UInt64.size - 1

/-- The limit that a text gives: a number, and not zero. -/
def readLimit (given : String) : Except Error UInt64 :=
  match (Text.counter? maxLimit given).filter (0 < ·) with
  | some n => .ok (.ofNat n)
  | none => .error (.config (.invalidLimit given))

/-! ## Searching -/

/-- A flag of the command `search`. -/
inductive SearchFlag where
  | scope
  | application
  | mode
  | repository
  | tag
  | operatingSystem
  | title
  | codeLanguage
  | limit
  deriving DecidableEq, Repr

namespace SearchFlag

/-- The flag that is written so. -/
def ofText? (arg : String) : Option SearchFlag :=
  match arg with
  | "--scope" => some scope
  | "--app" => some application
  | "--mode" => some mode
  | "--repo" => some repository
  | "--tag" => some tag
  | "--os" => some operatingSystem
  | "--title" => some title
  | "--language" => some codeLanguage
  | "--limit" => some limit
  | _ => none

/-- The options with the value of the flag in its place. -/
def set (flag : SearchFlag) (value : String) (o : SearchOptions) : Except Error SearchOptions :=
  match flag with
  | scope => (Scope.ofText value).map fun scope => { o with scope }
  | application => .ok { o with application := some value }
  | mode => .ok { o with mode := some value }
  | repository => .ok { o with repository := some value }
  | tag => .ok { o with tag := some value }
  | operatingSystem => .ok { o with operatingSystem := some value }
  | title => .ok { o with title := some value }
  | codeLanguage => .ok { o with codeLanguage := some value }
  | limit => (readLimit value).map fun maxResults => { o with maxResults }

end SearchFlag

/-- The options after these arguments, and the words among them. -/
def readSearch (o : SearchOptions) : List String → Except Error (SearchOptions × List String)
  | [] => .ok (o, [])
  | arg :: rest =>
    match SearchFlag.ofText? arg with
    | none => (readSearch o rest).map fun (o, words) => (o, arg :: words)
    | some flag =>
      match rest with
      | [] => .error (.config (.valueMissing arg))
      | value :: rest =>
        match flag.set value o with
        | .error e => .error e
        | .ok o => readSearch o rest

/-- The options of a search before any argument is read. -/
def searchDefaults (settings : Settings) : SearchOptions where
  maxResults := settings.maxResults
  preferredApplications := settings.preferredApplications
  excludedOperatingSystems := settings.excludedOperatingSystems

/-- The options of a search with these arguments. The words make up the term. -/
def searchOptions (settings : Settings) (args : List String) : Except Error SearchOptions :=
  (readSearch (searchDefaults settings) args).map fun (o, words) =>
    { o with searchTerm := " ".intercalate words }

/-! ## Lists -/

/-- What the command `lists` is asked for. -/
structure ListsRequest where
  /-- A term to look for. -/
  term : Option String := none
  /-- A list to show. -/
  list : Option String := none
  limit : UInt64
  deriving DecidableEq, Repr

/-- The request after these arguments. Of several words the last counts. At the end, the flag
for a list takes the list back, and the flag for a limit changes nothing. -/
def readLists (r : ListsRequest) : List String → Except Error ListsRequest
  | [] => .ok r
  | ["--name"] => .ok { r with list := none }
  | ["--limit"] => .ok r
  | "--name" :: name :: rest => readLists { r with list := some name } rest
  | "--limit" :: value :: rest =>
    match readLimit value with
    | .error e => .error e
    | .ok limit => readLists { r with limit } rest
  | word :: rest => readLists { r with term := some word } rest

end VoiceIndex.Cli
