import VoiceIndex.Query.Options
import VoiceIndex.Query.Placeholder
import VoiceIndex.Store.Basic

/-!
# Searching

A search keeps, of the commands in the store, those that pass every filter and hold the term
in the scope asked for, in the order of the store and up to the greatest number of results.
The term is compared without regard to case and to blanks around it; nothing is ranked.
-/

namespace VoiceIndex

namespace SearchOptions

/-- A filter that is set: present and not empty. -/
def active (filter : Option String) : Option String := filter.filter (· ≠ "")

/-- Whether a value passes a filter: with one set, there must be a value that satisfies `p`
together with it. -/
def passes (filter : Option String) (p : String → Bool) : Bool := (active filter).all p

/-- Whether a command passes the filters that are set. -/
def passesFilters (o : SearchOptions) (c : Command) : Bool :=
  passes o.application (c.application == ·) &&
  passes o.mode (fun mode => c.mode.any (Text.contains · mode)) &&
  passes o.repository (c.repository == some ·) &&
  passes o.tag (c.tagList.contains ·) &&
  passes o.operatingSystem (c.operatingSystem == some ·) &&
  passes o.title (c.title == some ·) &&
  passes o.codeLanguage (c.codeLanguage == some ·)

/-- Whether a command is for one of the preferred applications, if those count: there are
some, and no filter for the application is set. -/
def isPreferred (o : SearchOptions) (c : Command) : Bool :=
  (active o.application).isSome || o.preferredApplications.isEmpty ||
    Text.lower c.application == everyApplication ||
    (o.preferredApplications.map Text.lower).contains (Text.lower c.application)

/-- Whether a command is for none of the excluded operating systems, if those count: no filter
for the operating system is set. -/
def isNotExcluded (o : SearchOptions) (c : Command) : Bool :=
  (active o.operatingSystem).isSome ||
    c.operatingSystem.all fun os =>
      !(o.excludedOperatingSystems.map Text.lower).contains (Text.lower os)

/-- Whether a command may be a result, whatever the term. -/
def admits (o : SearchOptions) (c : Command) : Bool :=
  o.passesFilters c && o.isPreferred c && o.isNotExcluded c

end SearchOptions

/-- The term of a search as it is compared. -/
def normalTerm (term : String) : String := Text.lower (Text.trim term)

/-- Whether a text holds a term, given as it is compared. -/
def holds (term text : String) : Bool := Text.contains (Text.lower text) term

/-- Whether a command holds a term, given as it is compared, within the scope. -/
def Command.holdsTerm (index : ListIndex) (scope : Scope) (term : String) (c : Command) : Bool :=
  match scope with
  | .names => holds term c.spokenName
  | .script => holds term c.script
  | .spoken => holds term c.spokenName || index.matchesTerm term c.trigger
  | .all =>
    holds term c.trigger || holds term c.script || holds term c.application ||
      c.title.any (holds term) || c.tags.any (holds term) || index.matchesTerm term c.trigger

/-- Whether a list item holds a term, given as it is compared. -/
def ListItem.holdsTerm (term : String) (i : ListItem) : Bool :=
  holds term i.listName || holds term i.spokenForm || holds term i.listValue ||
    i.sourceFile.any (holds term)

namespace Store

/-- The commands that a search finds. -/
def search (s : Store) (o : SearchOptions) : List Command :=
  let term := normalTerm o.searchTerm
  let index := ListIndex.ofItems s.items
  let found := s.commands.filter fun c =>
    o.admits c && (term == "" || c.holdsTerm index o.scope term)
  found.take o.maxResults.toNat

/-- The list items that hold a term, up to a number of results. -/
def searchItems (s : Store) (term : String) (maxResults : Nat) : List ListItem :=
  let term := normalTerm term
  (s.items.filter fun i => term == "" || i.holdsTerm term).take maxResults

end Store

end VoiceIndex
