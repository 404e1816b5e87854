import Mathlib.Data.List.Nodup
import VoiceIndex.Index.Database
import VoiceIndex.Proofs.Text.Order

/-!
# The lists of a store

Each list item is in one list, the one whose name it bears. The items of a list are the greatest part
of the store's items that bear its name, in their order (`Store.isList_itemsOf`). The names of the
lists are all the names that there are, each of them once, so that the lists one after another hold
each item as often as the store does (`perm_of_groups`). `Database.lists_partition_items` says so of
a database and of the number that it reports.
-/

namespace VoiceIndex

/-! ## Groups -/

section

variable {α κ : Type} [DecidableEq κ] {key : α → κ} {keys : List κ} {l : List α}

/-- **Members that are grouped by their keys are the same members.** -/
theorem perm_of_groups (hkeys : keys.Nodup) (hall : ∀ a ∈ l, key a ∈ keys) :
    (keys.flatMap fun k => l.filter (key · = k)).Perm l := by
  induction l with
  | nil => simp
  | cons a l ih =>
    obtain ⟨ha, hl⟩ := List.forall_mem_cons.1 hall
    obtain ⟨before, after, rfl⟩ := List.append_of_mem ha
    rw [List.nodup_middle, List.nodup_cons, List.mem_append, not_or] at hkeys
    obtain ⟨⟨hbefore, hafter⟩, -⟩ := hkeys
    -- the group of the new member has one more, the groups before and after it stay as they are
    have hsame {ks : List κ} (hks : key a ∉ ks) :
        (ks.flatMap fun k => (a :: l).filter (key · = k)) =
          ks.flatMap fun k => l.filter (key · = k) := by
      refine List.flatMap_congr fun k hk => List.filter_cons_of_neg ?_
      rw [decide_eq_true_eq]
      rintro rfl
      exact hks hk
    have hmore : (a :: l).filter (key · = key a) = a :: l.filter (key · = key a) :=
      List.filter_cons_of_pos (decide_eq_true rfl)
    rw [List.flatMap_append, List.flatMap_cons, hsame hbefore, hsame hafter, hmore]
    rw [List.flatMap_append, List.flatMap_cons] at ih
    exact List.perm_middle.trans ((ih hl).cons a)

end

/-! ## Lists -/

/-- `part` is the list of this name: the greatest part of the items in which every item bears the
name. A part has its items in the order in which they stand in the whole. -/
structure IsList (items : List ListItem) (name : String) (part : List ListItem) : Prop where
  sublist : part.Sublist items
  named : ∀ i ∈ part, i.listName = name
  greatest : ∀ other : List ListItem, other.Sublist items → (∀ i ∈ other, i.listName = name) →
    other.Sublist part

namespace Store

variable {s : Store} {name : String} {i : ListItem}

theorem mem_itemsOf : i ∈ s.itemsOf name ↔ i ∈ s.items ∧ i.listName = name := by
  unfold itemsOf
  rw [List.mem_filter, decide_eq_true_eq]

theorem isList_itemsOf (s : Store) (name : String) : IsList s.items name (s.itemsOf name) where
  sublist := List.filter_sublist
  named i hi := (mem_itemsOf.1 hi).2
  greatest other hother hnamed := by
    have hself : other.filter (·.listName = name) = other :=
      List.filter_eq_self.2 fun i hi => decide_eq_true (hnamed i hi)
    rw [← hself]
    exact hother.filter _

theorem mem_listNames : name ∈ s.listNames ↔ ∃ i ∈ s.items, i.listName = name := by
  unfold listNames
  rw [Text.mem_distinct, List.mem_map]

/-- There is a list of each name that is listed, and of no other. -/
theorem itemsOf_ne_nil_iff : s.itemsOf name ≠ [] ↔ name ∈ s.listNames := by
  rw [mem_listNames]
  constructor
  · intro hsome
    obtain ⟨i, hi⟩ := List.exists_mem_of_ne_nil _ hsome
    exact ⟨i, mem_itemsOf.1 hi⟩
  · rintro ⟨i, hi⟩
    exact List.ne_nil_of_mem (mem_itemsOf.2 hi)

/-- The lists one after another are the items of the store. -/
theorem perm_flatMap_itemsOf (s : Store) : (s.listNames.flatMap s.itemsOf).Perm s.items := by
  refine perm_of_groups ?_ fun i hi => mem_listNames.2 ⟨i, hi, rfl⟩
  exact (Text.pairwise_distinct _).imp String.ne_of_lt

end Store

/-- **The lists partition the items.** The names of the lists ascend, each of them once, and are
those that some item bears. Under each of these names, and under no other, there are items: the
greatest part of the items that bears the name. The lists one after another hold the items of the
store, each as often as the store does. The number of lists that is reported is that of their
names. -/
theorem Database.lists_partition_items (db : Database) :
    let s := db.store
    s.listNames.Pairwise (· < ·) ∧
    (∀ name, name ∈ s.listNames ↔ ∃ i ∈ s.items, i.listName = name) ∧
    (∀ name, s.itemsOf name ≠ [] ↔ name ∈ s.listNames) ∧
    (∀ name, IsList s.items name (s.itemsOf name)) ∧
    (s.listNames.flatMap s.itemsOf).Perm s.items ∧
    db.stats.distinctLists = s.listNames.length := by
  intro s
  exact ⟨Text.pairwise_distinct _, fun _ => Store.mem_listNames, fun _ => Store.itemsOf_ne_nil_iff,
    s.isList_itemsOf, s.perm_flatMap_itemsOf, rfl⟩

end VoiceIndex
