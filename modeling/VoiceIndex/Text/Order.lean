/-!
# Order and repetition

Texts sort by the numbers of their characters. `firstPer` keeps, of the members of a list
with equal keys, the first.
-/

namespace VoiceIndex

/-- The first member for each key, in the order of the list. -/
def firstPer {α κ : Type} [DecidableEq κ] (key : α → κ) : List α → List α
  | [] => []
  | a :: rest => a :: (firstPer key rest).filter (key · ≠ key a)

theorem mem_of_mem_firstPer {α κ : Type} [DecidableEq κ] {key : α → κ} {l : List α} {a : α}
    (h : a ∈ firstPer key l) : a ∈ l := by
  induction l with
  | nil => exact h
  | cons b rest ih =>
    rcases List.mem_cons.1 h with rfl | h
    · exact List.mem_cons_self
    · exact List.mem_cons_of_mem _ (ih (List.mem_filter.1 h).1)

namespace Text

/-- The texts in ascending order. -/
def sorted (texts : List String) : List String := texts.mergeSort (· ≤ ·)

/-- The different texts in ascending order. -/
def distinct (texts : List String) : List String := sorted (firstPer id texts)

end Text

end VoiceIndex
