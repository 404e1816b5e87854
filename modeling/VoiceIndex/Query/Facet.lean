import VoiceIndex.Store.Basic
import VoiceIndex.Text.Case.Lower

/-!
# Facets

What can be offered for the filters of a search: for each filter the values that occur in the
store, without those that differ from another only in case, and in an order that does not
regard case. Beside it, the number of commands in each repository.
-/

namespace VoiceIndex

/-- The values to offer for each filter. -/
structure FilterValues where
  applications : List String
  modes : List String
  repositories : List String
  operatingSystems : List String
  titles : List String
  tags : List String
  codeLanguages : List String
  deriving DecidableEq, Inhabited, Repr

/-- The name under which commands without a repository are counted. -/
def noRepository : String := "No Repository"

/-- Whether one value comes before another or is the same: by lower case, and with the same
lower case by its own characters. -/
def facetLE (a b : String × String) : Bool :=
  a.1 < b.1 || (a.1 == b.1 && a.2 ≤ b.2)

/-- The different values in a list: without the blanks around them and without empty ones, of
those that differ only in case the first, in ascending order. -/
def facet (values : List String) : List String :=
  let keyed := ((values.map Text.trim).filter (· ≠ "")).map fun value => (Text.lower value, value)
  ((firstPer (·.1) keyed).mergeSort facetLE).map (·.2)

namespace Store

/-- The values to offer for each filter. -/
def filterValues (s : Store) : FilterValues where
  applications := facet (s.commands.flatMap Command.allApplications)
  modes := facet (s.commands.filterMap (·.mode))
  repositories := facet (s.commands.filterMap (·.repository))
  operatingSystems := facet (s.commands.filterMap (·.operatingSystem))
  titles := facet (s.commands.filterMap (·.title))
  tags := facet (s.commands.flatMap Command.tagList)
  codeLanguages := facet (s.commands.filterMap (·.codeLanguage))

/-- The name under which a command is counted. -/
def repositoryLabel (c : Command) : String := (c.repository.filter (· ≠ "")).getD noRepository

/-- The number of commands in each repository, in ascending order of the names. -/
def repositoryBreakdown (s : Store) : List (String × Nat) :=
  let labels := s.commands.map repositoryLabel
  (Text.distinct labels).map fun label => (label, labels.count label)

end Store

end VoiceIndex
