import Mathlib.Algebra.BigOperators.Group.List.Lemmas
import Mathlib.Algebra.Ring.Nat
import VoiceIndex.Proofs.Query.Search
import VoiceIndex.Proofs.Text.Order
import VoiceIndex.Query.Facet

/-!
# The numbers of commands in the repositories

Every command is counted under one label, so that the numbers add up to that of all commands
(`Store.sum_repositoryBreakdown`), and under each label are as many as have it
(`Store.lookup_repositoryBreakdown`). A label other than the one for no repository is that of the
commands that the filter for the repository lets pass. So the numbers are those of the results of a
search (`Store.breakdown_agrees_with_filter`).
-/

namespace VoiceIndex.Store

variable {s : Store} {c : Command} {name : String} {count : Nat}

/-! ## Labels -/

/-- The command is in no repository, or in one that is called like none. -/
def IsWithoutRepository (c : Command) : Prop :=
  c.repository = none ∨ c.repository = some "" ∨ c.repository = some "No Repository"

instance (c : Command) : Decidable (IsWithoutRepository c) :=
  inferInstanceAs (Decidable (_ ∨ _))

theorem repositoryLabel_of_some {repository : String} (hc : c.repository = some repository)
    (hne : repository ≠ "") : repositoryLabel c = repository := by
  unfold repositoryLabel
  rw [hc, Option.filter_some_pos (by simpa using hne), Option.getD_some]

theorem repositoryLabel_of_not_some (hc : c.repository = none ∨ c.repository = some "") :
    repositoryLabel c = noRepository := by
  unfold repositoryLabel
  rcases hc with hc | hc <;> rw [hc] <;> rfl

theorem repositoryLabel_eq_noRepository_iff :
    repositoryLabel c = noRepository ↔ IsWithoutRepository c := by
  constructor
  · intro h
    cases hc : c.repository with
    | none => exact .inl hc
    | some repository =>
      by_cases hempty : repository = ""
      · exact .inr (.inl (hempty ▸ hc))
      · rw [repositoryLabel_of_some hc hempty] at h
        exact .inr (.inr (by rw [hc, h, noRepository]))
  · rintro (hc | hc | hc)
    · exact repositoryLabel_of_not_some (.inl hc)
    · exact repositoryLabel_of_not_some (.inr hc)
    · exact repositoryLabel_of_some hc (by decide)

theorem repositoryLabel_eq_iff (hname : name ≠ noRepository) :
    repositoryLabel c = name ↔ c.repository = some name ∧ name ≠ "" := by
  constructor
  · intro h
    cases hc : c.repository with
    | none => exact absurd (h.symm.trans (repositoryLabel_of_not_some (.inl hc))) hname
    | some repository =>
      by_cases hempty : repository = ""
      · exact absurd (h.symm.trans (repositoryLabel_of_not_some (.inr (hempty ▸ hc)))) hname
      · obtain rfl : repository = name := (repositoryLabel_of_some hc hempty).symm.trans h
        exact ⟨rfl, hempty⟩
  · rintro ⟨hc, hne⟩
    exact repositoryLabel_of_some hc hne

/-! ## Numbers -/

/-- The number of commands with a label. -/
def labelled (s : Store) (name : String) : Nat :=
  s.commands.countP (repositoryLabel · = name)

theorem count_labels (s : Store) (name : String) :
    (s.commands.map repositoryLabel).count name = s.labelled name := by
  unfold labelled
  rw [List.count_eq_countP, List.countP_map]
  rfl

theorem labelled_ne_zero_iff : s.labelled name ≠ 0 ↔ name ∈ s.commands.map repositoryLabel := by
  rw [← count_labels, Ne, List.count_eq_zero, not_not]

theorem ne_empty_of_labelled (hname : name ≠ noRepository) (h : s.labelled name ≠ 0) :
    name ≠ "" := by
  obtain ⟨c, -, hlabel⟩ := List.mem_map.1 (labelled_ne_zero_iff.1 h)
  exact ((repositoryLabel_eq_iff hname).1 hlabel).2

theorem keys_repositoryBreakdown (s : Store) :
    s.repositoryBreakdown.map (·.1) = Text.distinct (s.commands.map repositoryLabel) := by
  unfold repositoryBreakdown
  rw [List.map_map]
  exact List.map_id _

theorem mem_repositoryBreakdown_iff : (name, count) ∈ s.repositoryBreakdown ↔
    count = s.labelled name ∧ count ≠ 0 := by
  unfold repositoryBreakdown
  simp only [count_labels, List.mem_map (l := Text.distinct _), Prod.mk.injEq, Text.mem_distinct]
  constructor
  · rintro ⟨label, hlabel, rfl, rfl⟩
    exact ⟨rfl, labelled_ne_zero_iff.2 hlabel⟩
  · rintro ⟨rfl, hne⟩
    exact ⟨name, labelled_ne_zero_iff.1 hne, rfl, rfl⟩

/-- The number found under a name is that of the commands with this label, if there are any. -/
theorem lookup_repositoryBreakdown (s : Store) (name : String) :
    s.repositoryBreakdown.lookup name =
      if s.labelled name = 0 then none else some (s.labelled name) := by
  split_ifs with hzero
  · rw [List.lookup_eq_none_iff]
    rintro ⟨label, count⟩ hmem
    obtain ⟨rfl, hne⟩ := mem_repositoryBreakdown_iff.1 hmem
    rw [bne_iff_ne]
    rintro rfl
    exact hne hzero
  · unfold repositoryBreakdown
    simp only [count_labels]
    exact List.lookup_graph _ (Text.mem_distinct.2 (labelled_ne_zero_iff.1 hzero))

/-- The numbers add up to that of all commands. -/
theorem sum_repositoryBreakdown (s : Store) :
    (s.repositoryBreakdown.map (·.2)).sum = s.commands.length := by
  let labels := s.commands.map repositoryLabel
  have hnodup : (Text.distinct labels).Nodup := (Text.pairwise_distinct labels).imp String.ne_of_lt
  have hperm : (Text.distinct labels).Perm labels.dedup :=
    (List.perm_ext_iff_of_nodup hnodup labels.nodup_dedup).2 fun label => by
      rw [Text.mem_distinct, List.mem_dedup]
  calc (s.repositoryBreakdown.map (·.2)).sum
      = ((Text.distinct labels).map fun label => labels.count label).sum := by
        simp [repositoryBreakdown, labels, Function.comp_def]
    _ = (labels.dedup.map fun label => labels.count label).sum := (hperm.map _).sum_eq
    _ = labels.length := List.sum_map_count_dedup_eq_length labels
    _ = s.commands.length := List.length_map _

/-! ## Searching for a repository -/

/-- With room for all commands, a search for a repository finds as many as have the label. -/
theorem length_search_repository {limit : UInt64} (hname : name ≠ noRepository) (hne : name ≠ "")
    (hmax : s.commands.length ≤ limit.toNat) :
    (s.search { repository := some name, maxResults := limit }).length = s.labelled name := by
  have hkeeps (c : Command) :
      SearchOptions.keeps { repository := some name, maxResults := limit } s.items c =
        decide (repositoryLabel c = name) := by
    rw [Bool.eq_iff_iff, decide_eq_true_iff, repositoryLabel_eq_iff hname,
      SearchOptions.keeps_iff_hasAsked rfl rfl rfl, ← SearchOptions.passesFilters_iff]
    simp [SearchOptions.passesFilters, SearchOptions.passes, SearchOptions.active, hne]
  rw [search_of_length_le hmax, funext hkeeps, ← List.countP_eq_length_filter]
  rfl

/-- **The numbers are those of the results of a search.** Each name stands once, the names ascend,
and the numbers add up to that of all commands. A name other than the one for no repository is that
of as many commands as a search for the repository finds, and of at least one. Every repository of a
command is among the names. Under the name for no repository are counted the commands without one
and those of a repository with just this name, if there are any. -/
theorem breakdown_agrees_with_filter (s : Store) :
    (s.repositoryBreakdown.map (·.1)).Pairwise (· < ·) ∧
    (s.repositoryBreakdown.map (·.2)).sum = s.commands.length ∧
    (∀ name count, (name, count) ∈ s.repositoryBreakdown → name ≠ "No Repository" →
      count ≠ 0 ∧ ∀ limit : UInt64, s.commands.length ≤ limit.toNat →
        (s.search { repository := some name, maxResults := limit }).length = count) ∧
    (∀ c ∈ s.commands, ∀ name, c.repository = some name → name ≠ "" →
      name ∈ s.repositoryBreakdown.map (·.1)) ∧
    s.repositoryBreakdown.lookup "No Repository" =
      if s.commands.countP (IsWithoutRepository ·) = 0 then none
      else some (s.commands.countP (IsWithoutRepository ·)) := by
  refine ⟨?_, sum_repositoryBreakdown s, fun name count hmem hname => ?_,
    fun c hc name hname hne => ?_, ?_⟩
  · rw [keys_repositoryBreakdown]
    exact Text.pairwise_distinct _
  · obtain ⟨rfl, hne⟩ := mem_repositoryBreakdown_iff.1 hmem
    have hempty : name ≠ "" := ne_empty_of_labelled hname hne
    exact ⟨hne, fun limit hmax => length_search_repository hname hempty hmax⟩
  · rw [keys_repositoryBreakdown, Text.mem_distinct, List.mem_map]
    exact ⟨c, hc, repositoryLabel_of_some hname hne⟩
  · have hlabelled : s.labelled noRepository = s.commands.countP (IsWithoutRepository ·) :=
      List.countP_congr fun c _ => by simpa using repositoryLabel_eq_noRepository_iff
    rw [← hlabelled]
    exact lookup_repositoryBreakdown s noRepository

/-- A repository in two spellings, one that is called like none, and a command without any. -/
def forks : Store where
  commands := [
    { id := 1, trigger := "next tab", script := "", application := "global", filePath := "",
      createdAt := "", repository := some "mine" },
    { id := 2, trigger := "last tab", script := "", application := "global", filePath := "",
      createdAt := "", repository := some "No Repository" },
    { id := 3, trigger := "go home", script := "", application := "global", filePath := "",
      createdAt := "", repository := some "Mine" },
    { id := 4, trigger := "go back", script := "", application := "global", filePath := "",
      createdAt := "" },
    { id := 5, trigger := "go away", script := "", application := "global", filePath := "",
      createdAt := "", repository := some "mine" }]

theorem breakdown_agrees_with_filter_forks :
    ("mine", 2) ∈ forks.repositoryBreakdown ∧ "mine" ≠ "No Repository" ∧
      forks.commands.length ≤ (5 : UInt64).toNat ∧
      (forks.search { repository := some "mine", maxResults := 5 }).length = 2 ∧
      forks.repositoryBreakdown.lookup "No Repository" = some 2 := by
  have hmem : ("mine", 2) ∈ forks.repositoryBreakdown :=
    mem_repositoryBreakdown_iff.2 (by decide +kernel)
  have hname : "mine" ≠ "No Repository" := by decide
  obtain ⟨-, -, hfound, -, hwithout⟩ := breakdown_agrees_with_filter forks
  exact ⟨hmem, hname, by decide, (hfound _ _ hmem hname).2 5 (by decide), hwithout⟩

end VoiceIndex.Store
