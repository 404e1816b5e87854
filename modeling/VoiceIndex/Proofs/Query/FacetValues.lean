import VoiceIndex.Proofs.Query.Search
import VoiceIndex.Proofs.Text.Blank
import VoiceIndex.Proofs.Text.Order
import VoiceIndex.Query.Facet

/-!
# The values of a facet

A facet holds the first spelling of each of its values (`mem_facet_iff`), in an order that is strict
when case is disregarded (`pairwise_facet`). So the values that are offered for a filter are just
the different ones that the commands have for it (`Store.offered_exactly_distinct`). What is offered
for the tags and the modes is a tag or a part of a mode as it stands in some command, so that a
search for it finds something (`Store.search_offered_tag_or_mode`).
-/

namespace VoiceIndex

variable {values : List String} {v : String}

/-! ## The order -/

theorem facetLE_iff {a b : String × String} :
    facetLE a b = true ↔ a.1 < b.1 ∨ a.1 = b.1 ∧ a.2 ≤ b.2 := by
  simp [facetLE]

theorem facetLE_trans (a b c : String × String) (hab : facetLE a b = true)
    (hbc : facetLE b c = true) : facetLE a c = true := by
  rw [facetLE_iff] at hab hbc ⊢
  rcases hab with hab | ⟨hab, hab'⟩
  · rcases hbc with hbc | ⟨hbc, -⟩
    · exact .inl (String.lt_trans hab hbc)
    · exact .inl (hbc ▸ hab)
  · rcases hbc with hbc | ⟨hbc, hbc'⟩
    · exact .inl (hab ▸ hbc)
    · exact .inr ⟨hab.trans hbc, String.le_trans hab' hbc'⟩

theorem facetLE_total (a b : String × String) : (facetLE a b || facetLE b a) = true := by
  rw [Bool.or_eq_true, facetLE_iff, facetLE_iff]
  by_cases hab : a.1 < b.1
  · exact .inl (.inl hab)
  by_cases hba : b.1 < a.1
  · exact .inr (.inl hba)
  have heq : a.1 = b.1 := String.le_antisymm (String.not_lt.1 hba) (String.not_lt.1 hab)
  exact (String.le_total a.2 b.2).imp (fun h => .inr ⟨heq, h⟩) fun h => .inr ⟨heq.symm, h⟩

/-! ## What a facet holds -/

/-- The values without the blanks around them and without empty ones. -/
def trimmed (values : List String) : List String := (values.map Text.trim).filter (· ≠ "")

theorem facet_eq (values : List String) :
    facet values = (((firstPer Text.lower (trimmed values)).map fun v => (Text.lower v, v)).mergeSort
      facetLE).map (·.2) := by
  show ((firstPer (·.1) ((trimmed values).map fun v => (Text.lower v, v))).mergeSort
    facetLE).map (·.2) = _
  rw [firstPer_map]

theorem mem_facet_iff : v ∈ facet values ↔ v ∈ firstPer Text.lower (trimmed values) := by
  rw [facet_eq, List.mem_map]
  simp [List.mem_mergeSort]

/-- The values of a facet ascend when case is disregarded. -/
theorem pairwise_facet (values : List String) :
    (facet values).Pairwise fun a b => Text.lower a < Text.lower b := by
  let keyed := (firstPer Text.lower (trimmed values)).map fun v => (Text.lower v, v)
  have hkeyed : ∀ a ∈ keyed.mergeSort facetLE, a.1 = Text.lower a.2 := by
    intro a ha
    obtain ⟨v, -, rfl⟩ := List.mem_map.1 (List.mem_mergeSort.1 ha)
    rfl
  have hsorted : (keyed.mergeSort facetLE).Pairwise fun a b => facetLE a b = true :=
    List.pairwise_mergeSort facetLE_trans facetLE_total keyed
  have hdistinct : (keyed.mergeSort facetLE).Pairwise fun a b => a.1 ≠ b.1 :=
    (List.mergeSort_perm keyed facetLE).symm.pairwise
      (List.pairwise_map.2 (pairwise_firstPer Text.lower (trimmed values))) fun h => h.symm
  rw [facet_eq, List.pairwise_map]
  refine (hsorted.and hdistinct).imp_of_mem fun {a b} ha hb hab => ?_
  rw [← hkeyed a ha, ← hkeyed b hb]
  exact (facetLE_iff.1 hab.1).resolve_right fun h => hab.2 h.1

/-- What is offered is one of the values, without the blanks around it. -/
theorem exists_of_mem_facet (h : v ∈ facet values) :
    v ≠ "" ∧ ∃ value ∈ values, Text.trim value = v := by
  obtain ⟨hvalue, hne⟩ := List.mem_filter.1 (mem_of_mem_firstPer (mem_facet_iff.1 h))
  exact ⟨by simpa using hne, List.mem_map.1 hvalue⟩

/-! ## What the commands have -/

/-- A filter for which values are offered. -/
inductive Facet where
  | application
  | mode
  | repository
  | operatingSystem
  | title
  | tag
  | codeLanguage
  deriving DecidableEq, Repr

namespace Facet

/-- The values that are offered. -/
def offered (values : FilterValues) : Facet → List String
  | application => values.applications
  | mode => values.modes
  | repository => values.repositories
  | operatingSystem => values.operatingSystems
  | title => values.titles
  | tag => values.tags
  | codeLanguage => values.codeLanguages

/-- The values that a command has as they stand there: all its applications, or the one it is for if
none are listed; the texts between the commas of its tags; or the one value of the field. -/
def valuesOf (c : Command) : Facet → List String
  | application => if c.applications = [] then [c.application] else c.applications
  | mode => c.mode.toList
  | repository => c.repository.toList
  | operatingSystem => c.operatingSystem.toList
  | title => c.title.toList
  | tag => c.tags.toList.flatMap (Text.pieces (· == ','))
  | codeLanguage => c.codeLanguage.toList

/-- The values that the commands have, in the order of the store, without the blanks around them and
without empty ones. -/
def found (s : Store) (f : Facet) : List String := trimmed (s.commands.flatMap f.valuesOf)

end Facet

theorem trimmed_trimmed (values : List String) : trimmed (trimmed values) = trimmed values := by
  have hself : (trimmed values).map Text.trim = (trimmed values).map id := by
    refine List.map_congr_left fun v hv => ?_
    obtain ⟨value, -, rfl⟩ := List.mem_map.1 (List.mem_filter.1 hv).1
    exact Text.trim_trim value
  show ((trimmed values).map Text.trim).filter (· ≠ "") = trimmed values
  rw [hself, List.map_id]
  unfold trimmed
  rw [List.filter_filter]
  simp

theorem trimmed_flatMap {α : Type} (f : α → List String) (l : List α) :
    trimmed (l.flatMap f) = l.flatMap fun a => trimmed (f a) := by
  unfold trimmed
  rw [List.map_flatMap, List.filter_flatMap]

theorem Command.tagList_eq (c : Command) : c.tagList = trimmed (Facet.tag.valuesOf c) := by
  unfold tagList Facet.valuesOf
  cases c.tags with
  | none => rfl
  | some tags => simp [trimmed]

/-- What is offered is the facet of what the commands have. -/
theorem Facet.offered_filterValues (s : Store) (f : Facet) :
    f.offered s.filterValues = facet (s.commands.flatMap f.valuesOf) := by
  cases f with
  | application =>
    have happlications : Command.allApplications = application.valuesOf := by
      funext c
      simp [Command.allApplications, valuesOf, List.isEmpty_iff]
    show facet (s.commands.flatMap Command.allApplications) = _
    rw [happlications]
  | tag =>
    have htags : trimmed (s.commands.flatMap Command.tagList) =
        trimmed (s.commands.flatMap tag.valuesOf) := by
      rw [trimmed_flatMap, trimmed_flatMap]
      simp only [Command.tagList_eq, trimmed_trimmed]
    show facet (s.commands.flatMap Command.tagList) = _
    rw [facet_eq, facet_eq, htags]
  | mode | repository | operatingSystem | title | codeLanguage =>
    exact congrArg facet (List.filterMap_eq_flatMap_toList _ _)

namespace Store

/-- **What is offered for a filter are the different values of the commands**: no two that differ in
case only, in ascending order; for each value that a command has one that differs in case at most;
and each of them as the first command with it spells it. -/
theorem offered_exactly_distinct (s : Store) (f : Facet) :
    (f.offered s.filterValues).Pairwise (fun a b => Text.lower a < Text.lower b) ∧
    (∀ v ∈ f.found s, ∃ offer ∈ f.offered s.filterValues, Text.lower offer = Text.lower v) ∧
    ∀ offer ∈ f.offered s.filterValues,
      (f.found s).find? (fun v => Text.lower v = Text.lower offer) = some offer := by
  rw [f.offered_filterValues]
  refine ⟨pairwise_facet _, fun v hv => ?_, fun offer hoffer => ?_⟩
  · obtain ⟨offer, hoffer, hlower⟩ := exists_mem_firstPer Text.lower hv
    exact ⟨offer, mem_facet_iff.2 hoffer, hlower⟩
  · exact mem_firstPer_iff.1 (mem_facet_iff.1 hoffer)

end Store

/-! ## Searching for a tag or a mode -/

variable {scope : Scope} {limit : UInt64} {c : Command} {s : Store}

theorem hasAsked_tag_iff (hv : v ≠ "") :
    HasAsked { tag := some v, scope, maxResults := limit } c ↔ c.IsTagged v := by
  constructor
  · exact fun h => h.tag v ⟨rfl, hv⟩
  · intro h
    constructor
    case tag =>
      rintro value ⟨⟨⟩, -⟩
      exact h
    all_goals
      rintro value ⟨⟨⟩, -⟩

theorem hasAsked_mode_iff (hv : v ≠ "") :
    HasAsked { mode := some v, scope, maxResults := limit } c ↔
      ∃ mode, c.mode = some mode ∧ v.toList <:+: mode.toList := by
  constructor
  · exact fun h => h.mode v ⟨rfl, hv⟩
  · intro h
    constructor
    case mode =>
      rintro value ⟨⟨⟩, -⟩
      exact h
    all_goals
      rintro value ⟨⟨⟩, -⟩

namespace Store

/-- A tag that is offered is a tag of some command. -/
theorem exists_isTagged_of_mem_tags (h : v ∈ s.filterValues.tags) :
    v ≠ "" ∧ ∃ c ∈ s.commands, c.IsTagged v := by
  obtain ⟨hne, value, hvalue, rfl⟩ := exists_of_mem_facet h
  obtain ⟨c, hc, htag⟩ := List.mem_flatMap.1 hvalue
  refine ⟨hne, c, hc, Command.isTagged_iff.2 ?_⟩
  have hself : Text.trim value = value := by
    rw [Command.tagList_eq] at htag
    obtain ⟨piece, -, rfl⟩ := List.mem_map.1 (List.mem_filter.1 htag).1
    exact Text.trim_trim piece
  rwa [hself]

/-- A mode that is offered occurs in the mode of some command. -/
theorem exists_mode_of_mem_modes (h : v ∈ s.filterValues.modes) :
    v ≠ "" ∧ ∃ c ∈ s.commands, ∃ mode, c.mode = some mode ∧ v.toList <:+: mode.toList := by
  obtain ⟨hne, mode, hmode, rfl⟩ := exists_of_mem_facet h
  obtain ⟨c, hc, hsome⟩ := List.mem_filterMap.1 hmode
  exact ⟨hne, c, hc, mode, hsome, Text.trim_infix mode⟩

/-- **A tag or a mode that is offered finds something**, and nothing else than commands with this tag
and commands in whose mode it occurs. -/
theorem search_offered_tag_or_mode (s : Store) (scope : Scope) {limit : UInt64}
    (hlimit : 1 ≤ limit) :
    (∀ v ∈ s.filterValues.tags,
      s.search { tag := some v, scope, maxResults := limit } ≠ [] ∧
      ∀ c ∈ s.search { tag := some v, scope, maxResults := limit }, c.IsTagged v) ∧
    ∀ v ∈ s.filterValues.modes,
      s.search { mode := some v, scope, maxResults := limit } ≠ [] ∧
      ∀ c ∈ s.search { mode := some v, scope, maxResults := limit },
        ∃ mode, c.mode = some mode ∧ v.toList <:+: mode.toList := by
  have hroom : 0 < limit := Nat.lt_of_lt_of_le Nat.zero_lt_one hlimit
  refine ⟨fun v hv => ?_, fun v hv => ?_⟩
  · obtain ⟨hne, c, hc, htag⟩ := exists_isTagged_of_mem_tags hv
    have hkeeps (c : Command) : SearchOptions.keeps { tag := some v, scope, maxResults := limit }
        s.items c = true ↔ c.IsTagged v :=
      (SearchOptions.keeps_iff_hasAsked rfl rfl rfl).trans (hasAsked_tag_iff hne)
    exact ⟨(search_ne_nil_iff hroom).2 ⟨c, hc, (hkeeps c).2 htag⟩,
      fun c hc => (hkeeps c).1 (keeps_of_mem_search hc).2⟩
  · obtain ⟨hne, c, hc, hmode⟩ := exists_mode_of_mem_modes hv
    have hkeeps (c : Command) : SearchOptions.keeps { mode := some v, scope, maxResults := limit }
        s.items c = true ↔ ∃ mode, c.mode = some mode ∧ v.toList <:+: mode.toList :=
      (SearchOptions.keeps_iff_hasAsked rfl rfl rfl).trans (hasAsked_mode_iff hne)
    exact ⟨(search_ne_nil_iff hroom).2 ⟨c, hc, (hkeeps c).2 hmode⟩,
      fun c hc => (hkeeps c).1 (keeps_of_mem_search hc).2⟩

/-- Two commands with one tag in common but for case, and blanks around the tags and modes. -/
def tabs : Store where
  commands := [
    { id := 1, trigger := "next tab", script := "", application := "chrome", filePath := "",
      createdAt := "", tags := some " user.Tabs,, user.browser ", mode := some " Command " },
    { id := 2, trigger := "last tab", script := "", application := "global", filePath := "",
      createdAt := "", tags := some "user.tabs", mode := some "command, sleep" }]

/-- The tag is offered as it is spelled first, and found where it is spelled so. -/
theorem search_offered_tag_or_mode_tabs :
    (1 : UInt64) ≤ 1 ∧ "user.Tabs" ∈ tabs.filterValues.tags ∧ "Command" ∈ tabs.filterValues.modes ∧
      tabs.search { tag := some "user.Tabs", maxResults := 1 } ≠ [] ∧
      tabs.search { mode := some "Command", maxResults := 1 } ≠ [] := by
  have htag : "user.Tabs" ∈ tabs.filterValues.tags := mem_facet_iff.2 (by decide +kernel)
  have hmode : "Command" ∈ tabs.filterValues.modes := mem_facet_iff.2 (by decide +kernel)
  obtain ⟨htags, hmodes⟩ := search_offered_tag_or_mode tabs .all (show (1 : UInt64) ≤ 1 by decide)
  exact ⟨by decide, htag, hmode, (htags _ htag).1, (hmodes _ hmode).1⟩

end Store

end VoiceIndex
