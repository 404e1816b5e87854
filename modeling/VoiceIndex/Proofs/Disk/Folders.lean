import Mathlib.Data.List.Basic
import Mathlib.Data.List.Induction
import VoiceIndex.Disk.Basic

/-!
# Folders of a tree

A path is followed through folders alone, so that a change which makes and removes files only
leads every path where it led before. `IsFolderAt` says where the folders are; putting a file
where no folder is (`isFolderAt_put_iff`) and erasing one (`isFolderAt_erase_iff`) leave them as
they are. `enter` goes where it went before as long as no folder is gone (`enter_mono`).
-/

namespace VoiceIndex

namespace Tree

/-- The route leads to a folder. -/
def IsFolderAt (t : Tree) (route : Route) : Prop := ∃ entries, t.get? route = some (.folder entries)

variable {t : Tree} {route other : Route} {name : String} {bytes : ByteArray}

theorem isFolderAt_folder_nil (entries : List (String × Tree)) :
    IsFolderAt (.folder entries) [] := ⟨entries, rfl⟩

@[simp] theorem not_isFolderAt_file : ¬ IsFolderAt (.file bytes) route := by
  rintro ⟨entries, h⟩
  cases route <;> simp [get?] at h

theorem hasRoom_iff : t.hasRoom route = true ↔ t.IsFolderAt route.dropLast := by
  unfold hasRoom IsFolderAt
  rcases t.get? route.dropLast with - | ⟨_⟩ | ⟨_⟩ <;> simp [kind]

theorem isFolderAt_folder_cons {entries : List (String × Tree)} :
    IsFolderAt (.folder entries) (name :: route) ↔
      ∃ child, entries.lookup name = some child ∧ child.IsFolderAt route := by
  unfold IsFolderAt
  simp only [get?, Option.bind_eq_some_iff]
  constructor
  · rintro ⟨inner, child, hc, h⟩
    exact ⟨child, hc, inner, h⟩
  · rintro ⟨child, hc, inner, h⟩
    exact ⟨inner, child, hc, h⟩

/-- What a route leads to lies in a folder. -/
theorem isFolderAt_of_get?_append {found : Tree} (h : t.get? (route ++ [name]) = some found) :
    t.IsFolderAt route := by
  induction route generalizing t with
  | nil =>
    cases t with
    | file _ => simp [get?] at h
    | folder entries => exact isFolderAt_folder_nil entries
  | cons key rest ih =>
    cases t with
    | file _ => simp [get?] at h
    | folder entries =>
      obtain ⟨child, hc, hrest⟩ : ∃ child, entries.lookup key = some child ∧
          child.get? (rest ++ [name]) = some found := by
        simpa [get?, Option.bind_eq_some_iff] using h
      exact isFolderAt_folder_cons.2 ⟨child, hc, ih hrest⟩

/-- What a folder lies in is a folder. -/
theorem isFolderAt_of_prefix (hbelow : route <+: other) (h : t.IsFolderAt other) :
    t.IsFolderAt route := by
  obtain ⟨below, rfl⟩ := hbelow
  induction below using List.reverseRecOn with
  | nil => rwa [List.append_nil] at h
  | append_singleton below name ih =>
    obtain ⟨entries, hget⟩ := h
    rw [← List.append_assoc] at hget
    exact ih (isFolderAt_of_get?_append hget)

theorem lookup_filter_ne (name other : String) (entries : List (String × Tree)) :
    (entries.filter (·.1 ≠ name)).lookup other =
      if other = name then none else entries.lookup other := by
  induction entries with
  | nil => simp
  | cons entry rest ih =>
    obtain ⟨key, u⟩ := entry
    by_cases hk : key = name
    · rw [List.filter_cons_of_neg (by simpa using hk), ih, List.lookup_cons, hk]
      by_cases ho : other = name
      · simp [ho]
      · simp [ho, beq_eq_false_iff_ne.2 ho]
    · rw [List.filter_cons_of_pos (by simpa using hk), List.lookup_cons, List.lookup_cons, ih]
      by_cases ho : other = key
      · simp [ho, hk]
      · simp [beq_eq_false_iff_ne.2 ho]

/-- A change inside one entry of a folder moves no folder if it moves none inside the entry. -/
theorem isFolderAt_putEntry_iff {entries : List (String × Tree)} {child child' : Tree}
    (hl : entries.lookup name = some child)
    (h : ∀ rest, child'.IsFolderAt rest ↔ child.IsFolderAt rest) :
    IsFolderAt (.folder (putEntry name child' entries)) other ↔
      IsFolderAt (.folder entries) other := by
  cases other with
  | nil => simp only [isFolderAt_folder_nil]
  | cons key rest =>
    simp only [isFolderAt_folder_cons, lookup_putEntry]
    by_cases hk : key = name
    · simp [hk, hl, h rest]
    · simp [hk]

/-- A file that is put where no folder stands moves no folder. -/
theorem isFolderAt_put_iff (h : ¬ t.IsFolderAt route) :
    (t.put route (.file bytes)).IsFolderAt other ↔ t.IsFolderAt other := by
  induction route generalizing t other with
  | nil =>
    cases t with
    | file _ => simp [put]
    | folder entries => exact absurd (isFolderAt_folder_nil entries) h
  | cons key rest ih =>
    cases t with
    | file _ => simp [put]
    | folder entries =>
      cases hl : entries.lookup key with
      | some child =>
        have hchild : ¬ child.IsFolderAt rest := fun hc =>
          h (isFolderAt_folder_cons.2 ⟨child, hl, hc⟩)
        simp only [put, hl]
        exact isFolderAt_putEntry_iff hl fun rest' => ih hchild
      | none =>
        by_cases hrest : rest = []
        · cases other with
          | nil => simp [put, hl, hrest, isFolderAt_folder_nil]
          | cons key' rest' =>
            simp only [put, hl, hrest, if_true, isFolderAt_folder_cons, lookup_putEntry]
            by_cases hk : key' = key
            · simp [hk, hl]
            · simp [hk]
        · simp [put, hl, hrest]

/-- Erasing what is no folder moves no folder. -/
theorem isFolderAt_erase_iff (h : ¬ t.IsFolderAt route) :
    (t.erase route).IsFolderAt other ↔ t.IsFolderAt other := by
  induction route generalizing t other with
  | nil => simp [erase]
  | cons key rest ih =>
    cases t with
    | file _ => simp [erase]
    | folder entries =>
      cases rest with
      | nil =>
        cases other with
        | nil => simp only [erase, isFolderAt_folder_nil]
        | cons key' rest' =>
          simp only [erase, isFolderAt_folder_cons, lookup_filter_ne]
          by_cases hk : key' = key
          · -- what stood there was a file, and no folder lies in it
            subst hk
            have hnone : ¬ ∃ child, entries.lookup key' = some child ∧ child.IsFolderAt rest' := by
              rintro ⟨child, hc, hf⟩
              cases child with
              | file _ => exact not_isFolderAt_file hf
              | folder es => exact h (isFolderAt_folder_cons.2 ⟨_, hc, isFolderAt_folder_nil es⟩)
            simpa using hnone
          · simp [hk]
      | cons key₂ rest =>
        cases hl : entries.lookup key with
        | none => simp [erase, hl]
        | some child =>
          have hchild : ¬ child.IsFolderAt (key₂ :: rest) := fun hc =>
            h (isFolderAt_folder_cons.2 ⟨child, hl, hc⟩)
          simp only [erase, hl]
          exact isFolderAt_putEntry_iff hl fun rest' => ih hchild

end Tree

namespace Disk

open VoiceIndex.Tree

variable {t t' : Tree} {spot r : Route} {parts more : List String}

/-! ## Following parts -/

theorem enter_append (t : Tree) (spot : Route) (parts more : List String) :
    enter t spot (parts ++ more) =
      match enter t spot parts with
      | .error fault => .error fault
      | .ok there => enter t there more := by
  induction parts generalizing spot with
  | nil => simp [enter]
  | cons part rest ih =>
    simp only [List.cons_append, enter]
    split_ifs
    · exact ih spot
    · exact ih spot.dropLast
    · rfl
    · rcases t.get? (spot ++ [part]) with - | ⟨_⟩ | ⟨_⟩
      · rfl
      · rfl
      · exact ih (spot ++ [part])

/-- A name leads to the folder that has it. -/
theorem enter_name_eq_ok_iff {name : String} (hdot : name ≠ ".") (hup : name ≠ "..") :
    enter t spot [name] = .ok r ↔
      name.utf8ByteSize ≤ maxNameBytes ∧ r = spot ++ [name] ∧ t.IsFolderAt r := by
  unfold enter Tree.IsFolderAt
  by_cases hsize : maxNameBytes < name.utf8ByteSize
  · simp [hdot, hup, hsize, Nat.not_le.2 hsize]
  · rw [if_neg hdot, if_neg hup, if_neg hsize]
    rcases hg : t.get? (spot ++ [name]) with - | ⟨bytes⟩ | ⟨entries⟩
    all_goals
      simp only [enter, Except.ok.injEq, reduceCtorEq, false_iff, not_and, Nat.not_lt.1 hsize,
        true_and]
    · rintro rfl
      simp [hg]
    · rintro rfl
      simp [hg]
    · exact ⟨fun h => ⟨h.symm, entries, h ▸ hg⟩, fun h => h.1.symm⟩

theorem enter_replicate_dot (t : Tree) (spot : Route) (n : Nat) :
    enter t spot (List.replicate n ".") = .ok spot := by
  induction n with
  | zero => rfl
  | succ n ih => simp [List.replicate_succ, enter, ih]

/-- A path through folders that are still there leads to the same place. -/
theorem enter_mono (h : ∀ route, t.IsFolderAt route → t'.IsFolderAt route)
    (ht : enter t spot parts = .ok r) : enter t' spot parts = .ok r := by
  induction parts generalizing spot with
  | nil => simpa [enter] using ht
  | cons part rest ih =>
    unfold enter at ht ⊢
    split_ifs at ht ⊢
    · exact ih ht
    · exact ih ht
    · cases hg : t.get? (spot ++ [part]) with
      | none => simp [hg] at ht
      | some found =>
        cases found with
        | file bytes => simp [hg] at ht
        | folder entries =>
          obtain ⟨entries', hg'⟩ := h (spot ++ [part]) ⟨entries, hg⟩
          rw [hg']
          simp only [hg] at ht
          exact ih ht

/-- Without two dots a path leads further down. -/
theorem prefix_of_enter (hdots : ".." ∉ parts) (h : enter t spot parts = .ok r) : spot <+: r := by
  induction parts generalizing spot with
  | nil =>
    obtain rfl : spot = r := by simpa [enter] using h
    exact List.prefix_refl spot
  | cons part rest ih =>
    obtain ⟨hpart, hrest⟩ := not_or.1 (mt List.mem_cons.2 hdots)
    unfold enter at h
    split_ifs at h with hdot hup
    · exact ih hrest h
    · exact absurd hup.symm hpart
    · rcases hg : t.get? (spot ++ [part]) with - | ⟨_⟩ | ⟨_⟩ <;> simp only [hg, reduceCtorEq] at h
      exact (List.prefix_append spot [part]).trans (ih hrest h)

/-- Without two dots a path to a folder leads there through no other folders than those that it
lies in. -/
theorem enter_of_isFolderAt (hdots : ".." ∉ parts) (h : enter t' spot parts = .ok r)
    (hr : t.IsFolderAt r) : enter t spot parts = .ok r := by
  induction parts generalizing spot with
  | nil => simpa [enter] using h
  | cons part rest ih =>
    obtain ⟨hpart, hrest⟩ := not_or.1 (mt List.mem_cons.2 hdots)
    unfold enter at h ⊢
    split_ifs at h ⊢ with hdot hup
    · exact ih hrest h
    · exact absurd hup.symm hpart
    · rcases hg : t'.get? (spot ++ [part]) with - | ⟨_⟩ | ⟨_⟩ <;> simp only [hg, reduceCtorEq] at h
      obtain ⟨entries, hfolder⟩ := Tree.isFolderAt_of_prefix (prefix_of_enter hrest h) hr
      rw [hfolder]
      exact ih hrest h

end Disk

end VoiceIndex
