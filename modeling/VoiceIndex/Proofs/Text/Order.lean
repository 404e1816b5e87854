import Mathlib.Data.List.Basic
import VoiceIndex.Text.Order

/-!
# What is kept of repetitions

`firstPer` keeps the members that are the first ones with their keys (`mem_firstPer_iff`), and so no
two with the same key (`pairwise_firstPer`). A list can be read from left to right for it: one more
member is kept if its key is new (`firstPer_concat`). The different texts of a list hold each of
them (`Text.mem_distinct`), in strictly ascending order (`Text.pairwise_distinct`).
-/

namespace VoiceIndex

variable {α κ : Type} [DecidableEq κ] {key : α → κ} {l : List α} {a : α}

theorem firstPer_concat (key : α → κ) (l : List α) (a : α) :
    firstPer key (l ++ [a]) =
      if key a ∈ l.map key then firstPer key l else firstPer key l ++ [a] := by
  induction l with
  | nil => rfl
  | cons b l ih =>
    rw [List.cons_append, firstPer, firstPer, ih]
    by_cases hmem : key a ∈ l.map key
    · have hmem' : key a ∈ (b :: l).map key := List.mem_cons_of_mem _ hmem
      rw [if_pos hmem, if_pos hmem']
    · by_cases hkey : key a = key b
      · have hmem' : key a ∈ (b :: l).map key := hkey ▸ List.mem_cons_self
        rw [if_neg hmem, if_pos hmem', List.filter_append]
        simp [hkey]
      · have hmem' : key a ∉ (b :: l).map key := List.not_mem_cons_of_ne_of_not_mem hkey hmem
        rw [if_neg hmem, if_neg hmem', List.filter_append]
        simp [hkey]

theorem firstPer_map {β : Type} (key : α → κ) (f : β → α) (l : List β) :
    firstPer key (l.map f) = (firstPer (fun b => key (f b)) l).map f := by
  induction l with
  | nil => rfl
  | cons b l ih => rw [List.map_cons, firstPer, firstPer, ih, List.map_cons, List.filter_map]; rfl

theorem mem_firstPer_iff : a ∈ firstPer key l ↔ l.find? (key · = key a) = some a := by
  induction l with
  | nil => simp [firstPer]
  | cons b l ih =>
    by_cases hkey : key b = key a
    · rw [List.find?_cons_of_pos (by simpa using hkey)]
      simp [firstPer, hkey, eq_comm]
    · have hne : a ≠ b := fun hab => hkey (hab ▸ rfl)
      rw [List.find?_cons_of_neg (by simpa using hkey), ← ih]
      simp [firstPer, hne, Ne.symm hkey]

theorem mem_firstPer_id_iff [DecidableEq α] : a ∈ firstPer id l ↔ a ∈ l := by
  rw [mem_firstPer_iff]
  refine ⟨List.mem_of_find?_eq_some, fun h => ?_⟩
  cases hfind : l.find? (id · = id a) with
  | none => simpa using List.find?_eq_none.1 hfind a h
  | some b => simpa using List.find?_some hfind

theorem pairwise_firstPer (key : α → κ) (l : List α) :
    (firstPer key l).Pairwise fun a b => key a ≠ key b := by
  induction l with
  | nil => exact .nil
  | cons b l ih =>
    refine List.pairwise_cons.2 ⟨fun a ha => ?_, ih.filter _⟩
    have hne := (List.mem_filter.1 ha).2
    exact Ne.symm (by simpa using hne)

/-- Some member is kept for every key. -/
theorem exists_mem_firstPer (key : α → κ) (h : a ∈ l) : ∃ b ∈ firstPer key l, key b = key a := by
  cases hfind : l.find? (key · = key a) with
  | none =>
    have hnot := List.find?_eq_none.1 hfind a h
    simp at hnot
  | some b =>
    have hkey : key b = key a := by simpa using List.find?_some hfind
    exact ⟨b, mem_firstPer_iff.2 (by rwa [hkey]), hkey⟩

namespace Text

variable {texts : List String} {t : String}

theorem mem_distinct : t ∈ distinct texts ↔ t ∈ texts := by
  unfold distinct sorted
  rw [List.mem_mergeSort, mem_firstPer_id_iff]

/-- The different texts ascend, each of them once. -/
theorem pairwise_distinct (texts : List String) : (distinct texts).Pairwise (· < ·) := by
  have hsorted : (distinct texts).Pairwise fun a b => decide (a ≤ b) = true :=
    List.pairwise_mergeSort (fun a b c hab hbc => by
      simp only [decide_eq_true_eq] at hab hbc ⊢
      exact String.le_trans hab hbc) (fun a b => by simpa using String.le_total a b) _
  have hdifferent : (distinct texts).Pairwise (· ≠ ·) :=
    (List.mergeSort_perm (firstPer id texts) _).symm.pairwise (pairwise_firstPer id texts)
      fun h => h.symm
  refine (hsorted.and hdifferent).imp fun {a b} hab => ?_
  have hle : a ≤ b := by simpa using hab.1
  exact Std.lt_of_le_of_ne hle hab.2

end Text

end VoiceIndex
