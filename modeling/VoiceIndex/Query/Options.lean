import VoiceIndex.Json.Fields
import VoiceIndex.Query.Scope

/-!
# Search options

All that a search for commands can be narrowed by: a term with its scope, filters that a
command must pass, preferences that step back behind a filter of the same kind, and the
greatest number of results. Read from JSON, every field has a default.
-/

namespace VoiceIndex

/-- The greatest number of results where none is asked for. -/
def defaultMaxResults : UInt64 := 500

/-- What a search for commands asks for. A filter that is absent or empty lets everything
pass. -/
structure SearchOptions where
  searchTerm : String := ""
  scope : Scope := .all
  application : Option String := none
  mode : Option String := none
  repository : Option String := none
  tag : Option String := none
  operatingSystem : Option String := none
  title : Option String := none
  codeLanguage : Option String := none
  maxResults : UInt64 := defaultMaxResults
  /-- Without a filter for the application, only these and commands for all of them. -/
  preferredApplications : List String := []
  /-- Without a filter for the operating system, all but these. -/
  excludedOperatingSystems : List String := []
  deriving DecidableEq, Inhabited, Repr

namespace SearchOptions

open Json (Fields orNull?)

/-- The names of the fields, in their order. -/
def fieldNames : List String := [
  "searchTerm", "scope", "application", "mode", "repository", "tag", "operatingSystem", "title",
  "codeLanguage", "maxResults", "preferredApplications", "excludedOperatingSystems"]

/-- The options as an object. -/
def toJson (o : SearchOptions) : Json := .record [
  ("searchTerm", .ofText o.searchTerm),
  ("scope", .ofNat o.scope.code),
  ("application", .ofText? o.application),
  ("mode", .ofText? o.mode),
  ("repository", .ofText? o.repository),
  ("tag", .ofText? o.tag),
  ("operatingSystem", .ofText? o.operatingSystem),
  ("title", .ofText? o.title),
  ("codeLanguage", .ofText? o.codeLanguage),
  ("maxResults", .ofUInt64 o.maxResults),
  ("preferredApplications", .ofTexts o.preferredApplications),
  ("excludedOperatingSystems", .ofTexts o.excludedOperatingSystems)]

/-- The scope whose number a value is. -/
def scope? (x : Json) : Option Scope :=
  (x.between? 0 255).bind fun code => (Scope.ofCode code.toNat).toOption

/-- The options that a value gives. -/
def ofJson? (x : Json) : Option SearchOptions := do
  let fields ← Fields.of? fieldNames x
  let filter := fun name => fields.withDefault name (orNull? Json.text?) none
  let texts := fun name => fields.withDefault name (Json.list? Json.text?) []
  let searchTerm ← fields.withDefault "searchTerm" Json.text? ""
  let scope ← fields.withDefault "scope" scope? .all
  let application ← filter "application"
  let mode ← filter "mode"
  let repository ← filter "repository"
  let tag ← filter "tag"
  let operatingSystem ← filter "operatingSystem"
  let title ← filter "title"
  let codeLanguage ← filter "codeLanguage"
  let maxResults ← fields.withDefault "maxResults" Json.uint64? defaultMaxResults
  let preferredApplications ← texts "preferredApplications"
  let excludedOperatingSystems ← texts "excludedOperatingSystems"
  return { searchTerm, scope, application, mode, repository, tag, operatingSystem, title,
           codeLanguage, maxResults, preferredApplications, excludedOperatingSystems }

end SearchOptions

end VoiceIndex
