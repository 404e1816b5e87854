import VoiceIndex.Proofs.Query.Search
import VoiceIndex.Proofs.Text.Normal

/-!
# Requests that ask for the same

A term is compared in lower case and without the blanks around it. What is compared is then compared
as it is (`normalTerm_normalTerm`). Of the preferred applications and the excluded operating systems
only the lower case counts, and neither their order nor how often they are named (`SameNames`). So
requests that differ in nothing else keep the same commands (`SearchOptions.AsksTheSame.keeps_eq`)
and have the same results (`Store.search_of_same_request`).
-/

namespace VoiceIndex

theorem normalTerm_normalTerm (term : String) : normalTerm (normalTerm term) = normalTerm term := by
  unfold normalTerm
  rw [Text.trim_lower, Text.lower_lower, Text.trim_trim]

/-- The lists name the same, in whatever case, in whatever order and however often. -/
def SameNames (a b : List String) : Prop :=
  ∀ name, name ∈ a.map Text.lower ↔ name ∈ b.map Text.lower

namespace SameNames

variable {a b : List String}

theorem contains_eq (h : SameNames a b) (name : String) :
    (a.map Text.lower).contains name = (b.map Text.lower).contains name := by
  rw [Bool.eq_iff_iff, List.contains_iff_mem, List.contains_iff_mem]
  exact h name

theorem isEmpty_eq (h : SameNames a b) : a.isEmpty = b.isEmpty := by
  have hnil {a b : List String} (h : SameNames a b) (ha : a = []) : b = [] := by
    subst ha
    refine List.eq_nil_iff_forall_not_mem.2 fun name hname => ?_
    exact List.not_mem_nil ((h (Text.lower name)).2 (List.mem_map_of_mem hname))
  rw [Bool.eq_iff_iff, List.isEmpty_iff, List.isEmpty_iff]
  exact ⟨hnil h, hnil fun name => (h name).symm⟩

end SameNames

namespace SearchOptions

/-- The requests differ at most in the writing of the term and of the names. -/
structure AsksTheSame (o' o : SearchOptions) : Prop where
  term : normalTerm o'.searchTerm = normalTerm o.searchTerm
  scope : o'.scope = o.scope
  filters : ∀ c, o'.passesFilters c = o.passesFilters c
  application : o'.application = o.application
  operatingSystem : o'.operatingSystem = o.operatingSystem
  maxResults : o'.maxResults = o.maxResults
  preferred : SameNames o'.preferredApplications o.preferredApplications
  excluded : SameNames o'.excludedOperatingSystems o.excludedOperatingSystems

namespace AsksTheSame

variable {o' o : SearchOptions}

theorem isPreferred_eq (h : AsksTheSame o' o) (c : Command) :
    o'.isPreferred c = o.isPreferred c := by
  unfold isPreferred
  rw [h.application, h.preferred.isEmpty_eq, h.preferred.contains_eq]

theorem isNotExcluded_eq (h : AsksTheSame o' o) (c : Command) :
    o'.isNotExcluded c = o.isNotExcluded c := by
  unfold isNotExcluded
  rw [h.operatingSystem]
  simp only [h.excluded.contains_eq]

theorem keeps_eq (h : AsksTheSame o' o) (items : List ListItem) :
    o'.keeps items = o.keeps items := by
  funext c
  unfold keeps admits
  rw [h.term, h.scope, h.filters, h.isPreferred_eq, h.isNotExcluded_eq]

end AsksTheSame

/-- A request asks for the same with its term as it is compared and its names in another writing. -/
theorem asksTheSame_normalTerm {o : SearchOptions} {preferred excluded : List String}
    (hpreferred : SameNames preferred o.preferredApplications)
    (hexcluded : SameNames excluded o.excludedOperatingSystems) :
    AsksTheSame { o with
      searchTerm := Text.lower (Text.trim o.searchTerm)
      preferredApplications := preferred
      excludedOperatingSystems := excluded } o where
  term := normalTerm_normalTerm o.searchTerm
  scope := rfl
  filters c := by unfold passesFilters; rfl
  application := rfl
  operatingSystem := rfl
  maxResults := rfl
  preferred := hpreferred
  excluded := hexcluded

end SearchOptions

namespace Store

theorem search_eq_of_asksTheSame {o' o : SearchOptions} (h : o'.AsksTheSame o) (s : Store) :
    s.search o' = s.search o := by
  rw [search_eq_take, search_eq_take, h.keeps_eq, h.maxResults]

/-- **A search regards neither case nor outer blanks of what it is asked for.** With the term
trimmed and in lower case, and with other lists of preferred applications and excluded operating
systems that name the same, it has the same results in the same order; and so has a search for list
items with the term trimmed and in lower case. -/
theorem search_of_same_request {o : SearchOptions} {preferred excluded : List String}
    (hpreferred : SameNames preferred o.preferredApplications)
    (hexcluded : SameNames excluded o.excludedOperatingSystems) (s : Store) :
    s.search { o with
      searchTerm := Text.lower (Text.trim o.searchTerm)
      preferredApplications := preferred
      excludedOperatingSystems := excluded } = s.search o ∧
    ∀ term maxResults,
      s.searchItems (Text.lower (Text.trim term)) maxResults = s.searchItems term maxResults := by
  constructor
  · exact search_eq_of_asksTheSame (SearchOptions.asksTheSame_normalTerm hpreferred hexcluded) s
  · intro term maxResults
    show s.searchItems (normalTerm term) maxResults = _
    unfold searchItems
    rw [normalTerm_normalTerm]

theorem search_of_same_request_streets :
    SameNames ["maps", "Code", "MAPS"] ["Maps", "code"] ∧ SameNames ["MAC"] ["Mac", "mac"] ∧
      (streets.search {
        searchTerm := " ΟΔΟΣ ", scope := .spoken
        preferredApplications := ["Maps", "code"]
        excludedOperatingSystems := ["Mac", "mac"] }).map (·.id) = [1] ∧
      streets.search {
        searchTerm := "οδος", scope := .spoken
        preferredApplications := ["maps", "Code", "MAPS"]
        excludedOperatingSystems := ["MAC"] } =
      streets.search {
        searchTerm := " ΟΔΟΣ ", scope := .spoken
        preferredApplications := ["Maps", "code"]
        excludedOperatingSystems := ["Mac", "mac"] } := by
  have hpreferred : SameNames ["maps", "Code", "MAPS"] ["Maps", "code"] := by
    have hlower : ["maps", "Code", "MAPS"].map Text.lower = ["maps", "code", "maps"] ∧
        ["Maps", "code"].map Text.lower = ["maps", "code"] := by decide +kernel
    intro name
    rw [hlower.1, hlower.2]
    simp only [List.mem_cons, List.not_mem_nil]
    tauto
  have hexcluded : SameNames ["MAC"] ["Mac", "mac"] := by
    have hlower : ["MAC"].map Text.lower = ["mac"] ∧
        ["Mac", "mac"].map Text.lower = ["mac", "mac"] := by decide +kernel
    intro name
    rw [hlower.1, hlower.2]
    simp
  have hterm : Text.lower (Text.trim " ΟΔΟΣ ") = "οδος" := by decide +kernel
  refine ⟨hpreferred, hexcluded, by decide +kernel, ?_⟩
  rw [← hterm]
  exact (search_of_same_request (o := {
    searchTerm := " ΟΔΟΣ ", scope := .spoken
    preferredApplications := ["Maps", "code"]
    excludedOperatingSystems := ["Mac", "mac"] }) hpreferred hexcluded streets).1

end Store

end VoiceIndex
