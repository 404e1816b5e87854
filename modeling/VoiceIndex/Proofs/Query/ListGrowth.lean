import VoiceIndex.Proofs.Query.ListIndex

/-!
# Lists that are added

Items that come after others change what the name of a placeholder refers to in one way only: a list
of exactly that name takes the place of one that was found by its base. Any other name goes on
referring to the list it referred to (`RefersTo.append`), whatever lists with the same base arrive.
So a trigger that matches a term goes on doing so, as long as no list arrives that is new and bears
the name of one of its placeholders (`ListIndex.resolution_stable`).
-/

namespace VoiceIndex

variable {xs ys : List ListItem} {name list term trigger : String}

/-- A name goes on referring to its list unless a list of exactly this name is new. -/
theorem RefersTo.append (h : RefersTo xs name list)
    (hnew : ∀ i ∈ ys, i.listName = name → ∃ j ∈ xs, j.listName = name) :
    RefersTo (xs ++ ys) name list := by
  cases h with
  | exact h =>
    obtain ⟨j, hj, hjn⟩ := h
    exact .exact ⟨j, List.mem_append_left ys hj, hjn⟩
  | @byBase base before after item hname hbase hne heq hitem hfirst =>
    -- the first item with the base is still the first one
    have heq' : xs ++ ys = before ++ item :: (after ++ ys) := by
      rw [heq, List.append_assoc, List.cons_append]
    refine .byBase (fun i hi => ?_) hbase hne heq' hitem hfirst
    rcases List.mem_append.1 hi with hi | hi
    · exact hname i hi
    · intro hin
      obtain ⟨j, hj, hjn⟩ := hnew i hi hin
      exact hname j hj hjn

/-- A list of exactly the name is what it refers to from then on. -/
theorem RefersTo.append_exact (xs : List ListItem) (h : ∃ i ∈ ys, i.listName = name) :
    RefersTo (xs ++ ys) name name := by
  obtain ⟨i, hi, hin⟩ := h
  exact .exact ⟨i, List.mem_append_right xs hi, hin⟩

namespace ListIndex

/-- A trigger goes on matching a term unless a new list bears the name of one of its placeholders. -/
theorem matchesTerm_append
    (hnew : ∀ i ∈ ys, i.listName ∈ placeholders trigger → ∃ j ∈ xs, j.listName = i.listName)
    (h : (ofItems xs).matchesTerm term trigger = true) :
    (ofItems (xs ++ ys)).matchesTerm term trigger = true := by
  rw [matchesTerm_iff] at h ⊢
  obtain ⟨name, hname, list, hrefers, item, hitem, hlist, hword⟩ := h
  have hknown : ∀ i ∈ ys, i.listName = name → ∃ j ∈ xs, j.listName = name := by
    rintro i hi rfl
    exact hnew i hi hname
  exact ⟨name, hname, list, hrefers.append hknown, item, List.mem_append_left ys hitem, hlist, hword⟩

/-- **Items that are added redirect a name only to a list of exactly this name.** A name that
refers to a list refers, after more items have come, to the list of exactly this name if one of them
is of such a list, and else to the same list as before. So a trigger that matches a term goes on
doing so, if every list among the new items that bears the name of one of its placeholders was there
before. -/
theorem resolution_stable (xs ys : List ListItem) :
    (∀ name list, (ofItems xs).resolve? name = some list →
      ((∃ i ∈ ys, i.listName = name) → (ofItems (xs ++ ys)).resolve? name = some name) ∧
      ((∀ i ∈ ys, i.listName ≠ name) → (ofItems (xs ++ ys)).resolve? name = some list)) ∧
    ∀ term trigger,
      (∀ i ∈ ys, i.listName ∈ placeholders trigger → ∃ j ∈ xs, j.listName = i.listName) →
      (ofItems xs).matchesTerm term trigger = true →
        (ofItems (xs ++ ys)).matchesTerm term trigger = true := by
  refine ⟨fun name list h => ⟨fun hexact => ?_, fun hother => ?_⟩, fun term trigger hnew h => ?_⟩
  · exact resolve?_eq_some_iff.2 (.append_exact xs hexact)
  · have hrefers : RefersTo xs name list := resolve?_eq_some_iff.1 h
    refine resolve?_eq_some_iff.2 (hrefers.append fun i hi hin => ?_)
    exact absurd hin (hother i hi)
  · exact matchesTerm_append hnew h

/-- An item of a list that says what it stands for. -/
def said (listName spokenForm : String) : ListItem where
  id := 1
  listName := listName
  spokenForm := spokenForm
  listValue := spokenForm
  createdAt := ""
  importedAt := ""

/-- A list with the base of the placeholder, and then a second one, with items of the first between
those of the second. -/
theorem resolution_stable_arrows :
    let xs := [said "user.core/arrow_key" "left"]
    let ys := [said "user.mine/arrow_key" "right", said "user.core/arrow_key" "up",
      said "user.mine/arrow_key" "down"]
    (ofItems xs).resolve? "user.arrow_key" = some "user.core/arrow_key" ∧
      (ofItems (xs ++ ys)).resolve? "user.arrow_key" = some "user.core/arrow_key" ∧
      (ofItems (xs ++ [said "user.arrow_key" "back"])).resolve? "user.arrow_key" =
        some "user.arrow_key" ∧
      (ofItems (xs ++ ys)).matchesTerm "left" "go <user.arrow_key>" = true := by
  intro xs ys
  have hfirst : (ofItems xs).resolve? "user.arrow_key" = some "user.core/arrow_key" := by
    decide +kernel
  have hmatches : (ofItems xs).matchesTerm "left" "go <user.arrow_key>" = true := by
    decide +kernel
  obtain ⟨hstays, hgoes⟩ := resolution_stable xs ys
  obtain ⟨hturns, -⟩ := resolution_stable xs [said "user.arrow_key" "back"]
  refine ⟨hfirst, (hstays _ _ hfirst).2 (by decide +kernel), (hturns _ _ hfirst).1 (by decide +kernel),
    hgoes _ _ (by decide +kernel) hmatches⟩

/-- A new list of exactly the name takes the match away. -/
example :
    let xs := [said "user.core/arrow_key" "left"]
    (ofItems xs).matchesTerm "left" "go <user.arrow_key>" = true ∧
      (ofItems (xs ++ [said "user.arrow_key" "back"])).matchesTerm "left" "go <user.arrow_key>" =
        false := by
  decide +kernel

end ListIndex

end VoiceIndex
