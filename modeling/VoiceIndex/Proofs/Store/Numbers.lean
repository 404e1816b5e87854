import Mathlib.Data.List.Nodup
import VoiceIndex.Store.Edit

/-!
# The numbers of records

Commands and list items are numbered apart. To the numbers of one kind an edit does one of three
things: it leaves them alone, it gives out the next ones, or it begins anew (`commandNumbers_edit`,
`itemNumbers_edit`). Numbers that were given out from the first one on are one, two, three and so
on, as long as they fit (`consecutive_start_add`). Other numbers stay apart if and only if none
that is given out is already there (`nodup_add_iff`).
-/

namespace VoiceIndex

/-- The records of drafts under the numbers from the first one on, with the times that the clock
shows. -/
def recordsOf {α ρ : Type} (make : Int64 → String → α → ρ) (first : Int64) (clock : Clock)
    (drafts : List α) : List ρ :=
  drafts.mapIdx fun k draft => make (first + .ofNat k) (clock k) draft

/-- The numbers of the records of one kind, in their order, and the number of the next one. -/
structure Numbers where
  given : List Int64
  next : Int64

namespace Numbers

/-- No record, and the first number. -/
def start : Numbers := ⟨[], 1⟩

/-- The next numbers. -/
def upcoming (x : Numbers) (n : Nat) : List Int64 := (List.range n).map (x.next + .ofNat ·)

/-- The numbers after so many more records. -/
def add (x : Numbers) (n : Nat) : Numbers := ⟨x.given ++ x.upcoming n, x.next + .ofNat n⟩

variable {x : Numbers} {n : Nat}

/-- Records that are made one after another have the next numbers. -/
theorem map_recordsOf_eq_upcoming (x : Numbers) {α ρ : Type} {make : Int64 → String → α → ρ}
    {number : ρ → Int64} (h : ∀ id now draft, number (make id now draft) = id) (clock : Clock)
    (drafts : List α) :
    (recordsOf make x.next clock drafts).map number = x.upcoming drafts.length := by
  refine List.ext_getElem (by simp [recordsOf, upcoming]) fun k hk hk' => ?_
  simp [recordsOf, upcoming, h]

theorem add_ofNat_add_ofNat (i : Int64) (m n : Nat) :
    i + .ofNat m + .ofNat n = i + .ofNat (m + n) := by
  rw [Int64.ofNat_add, Int64.add_assoc]

theorem add_zero (x : Numbers) : x.add 0 = x := by
  show Numbers.mk (x.given ++ []) (x.next + 0) = x
  rw [List.append_nil, Int64.add_zero]

theorem add_add (x : Numbers) (m n : Nat) : (x.add m).add n = x.add (m + n) := by
  have hupcoming : x.upcoming (m + n) = x.upcoming m ++ (x.add m).upcoming n := by
    unfold upcoming add
    rw [List.range_add, List.map_append, List.map_map]
    simp only [Function.comp_def, add_ofNat_add_ofNat]
  show Numbers.mk (x.given ++ x.upcoming m ++ (x.add m).upcoming n)
    (x.next + .ofNat m + .ofNat n) = _
  rw [List.append_assoc, ← hupcoming, add_ofNat_add_ofNat]
  rfl

/-! ## Numbers from one on -/

/-- The numbers are 1, 2, 3, … in their order, and the next one follows the last. -/
structure Consecutive (x : Numbers) : Prop where
  given_eq : ∀ k (h : k < x.given.length), x.given[k].toInt = k + 1
  next_eq : x.next.toInt = x.given.length + 1
  increasing : x.given.Pairwise (· < ·)
  distinct : x.given.Nodup

theorem length_start_add (n : Nat) : (start.add n).given.length = n := by
  simp [add, start, upcoming]

theorem toInt_one_add {k : Nat} (h : (k : Int) < Int64.maxValue.toInt) :
    ((1 : Int64) + .ofNat k).toInt = k + 1 := by
  have hmax : Int64.maxValue.toInt = 2 ^ 63 - 1 := by decide
  have hsum : (1 : Int64) + .ofNat k = .ofNat (1 + k) := (Int64.ofNat_add 1 k).symm
  rw [hsum, Int64.toInt_ofNat_of_lt (by omega)]
  omega

/-- Numbers from one on that fit are consecutive. -/
theorem consecutive_start_add (h : (n : Int) < Int64.maxValue.toInt) :
    (start.add n).Consecutive := by
  have hnumber (k : Nat) (hk : k < n) : ((1 : Int64) + .ofNat k).toInt = k + 1 :=
    toInt_one_add (by omega)
  have hincreasing : (start.add n).given.Pairwise (· < ·) := by
    refine List.pairwise_map.2 (List.pairwise_lt_range.imp_of_mem ?_)
    intro j k hj hk hlt
    rw [List.mem_range] at hj hk
    show (1 : Int64) + .ofNat j < 1 + .ofNat k
    rw [Int64.lt_iff_toInt_lt, hnumber j hj, hnumber k hk]
    omega
  refine ⟨fun k hk => ?_, ?_, hincreasing, hincreasing.imp Int64.ne_of_lt⟩
  · rw [length_start_add] at hk
    have hget : (start.add n).given[k] = (1 : Int64) + .ofNat k := by
      simp [add, start, upcoming]
    rw [hget, hnumber k hk]
  · rw [length_start_add]
    exact toInt_one_add h

/-! ## Numbers given out a second time -/

/-- The next numbers differ from each other and from those that were given. -/
def Free (x : Numbers) (n : Nat) : Prop :=
  n ≤ Int64.size ∧ ∀ k < n, x.next + .ofNat k ∉ x.given

theorem ofNat_eq_ofNat_iff {j k : Nat} :
    Int64.ofNat j = Int64.ofNat k ↔ j % Int64.size = k % Int64.size := by
  rw [← Int64.toBitVec_inj, Int64.toBitVec_ofNat', Int64.toBitVec_ofNat', ← BitVec.toNat_inj,
    BitVec.toNat_ofNat, BitVec.toNat_ofNat]

/-- Numbers in a row differ until they have gone all the way round. -/
theorem nodup_upcoming_iff : (x.upcoming n).Nodup ↔ n ≤ Int64.size := by
  unfold upcoming
  rw [List.nodup_map_iff_inj_on List.nodup_range]
  simp only [List.mem_range, Int64.add_right_inj, ofNat_eq_ofNat_iff]
  constructor
  · intro h
    by_contra hlarge
    rw [Nat.not_le] at hlarge
    have hround : 0 = Int64.size := h 0 (Nat.zero_lt_of_lt hlarge) Int64.size hlarge (by decide)
    exact absurd hround (by decide)
  · intro h j hj k hk heq
    rwa [Nat.mod_eq_of_lt (by omega), Nat.mod_eq_of_lt (by omega)] at heq

/-- More numbers stay apart if and only if the next ones are free. -/
theorem nodup_add_iff : (x.add n).given.Nodup ↔ x.given.Nodup ∧ x.Free n := by
  show (x.given ++ x.upcoming n).Nodup ↔ _
  rw [List.nodup_append', nodup_upcoming_iff]
  have hapart : x.given.Disjoint (x.upcoming n) ↔ ∀ k < n, x.next + .ofNat k ∉ x.given := by
    constructor
    · intro h k hk hmem
      exact h hmem (List.mem_map.2 ⟨k, List.mem_range.2 hk, rfl⟩)
    · intro h a ha hnext
      obtain ⟨k, hk, rfl⟩ := List.mem_map.1 hnext
      exact h k (List.mem_range.1 hk) ha
  rw [hapart]
  rfl

end Numbers

/-! ## Edits -/

/-- What an edit does to the records of one kind. -/
inductive Intake where
  /-- So many come in after those that are there. -/
  | append (n : Nat)
  /-- So many come in, in place of those that are there. -/
  | replace (n : Nat)

/-- The numbers after the records have come in. -/
def Numbers.take (x : Numbers) : Option Intake → Numbers
  | none => x
  | some (.append n) => x.add n
  | some (.replace n) => start.add n

namespace Edit

/-- What an edit does to the commands, if it is about them. -/
def commandIntake? : Edit → Option Intake
  | .insertCommand _ => some (.append 1)
  | .insertCommands drafts => some (.append drafts.length)
  | .refreshCommands drafts => some (.replace drafts.length)
  | .clearCommands | .clearAll => some (.replace 0)
  | .insertItem _ | .insertItems _ | .refreshItems _ | .clearItems => none

/-- What an edit does to the list items, if it is about them. -/
def itemIntake? : Edit → Option Intake
  | .insertItem _ => some (.append 1)
  | .insertItems drafts => some (.append drafts.length)
  | .refreshItems drafts => some (.replace drafts.length)
  | .clearItems | .clearAll => some (.replace 0)
  | .insertCommand _ | .insertCommands _ | .refreshCommands _ | .clearCommands => none

end Edit

namespace Store

/-- The numbers of the commands. -/
def commandNumbers (s : Store) : Numbers := ⟨s.commands.map (·.id), s.nextCommand⟩

/-- The numbers of the list items. -/
def itemNumbers (s : Store) : Numbers := ⟨s.items.map (·.id), s.nextItem⟩

variable {s : Store} {clock : Clock} {e : Edit}

theorem commandNumbers_insertCommands (s : Store) (clock : Clock) (drafts : List CommandDraft) :
    (s.insertCommands clock drafts).commandNumbers = s.commandNumbers.add drafts.length := by
  have hnew : (recordsOf Command.ofDraft s.nextCommand clock drafts).map (·.id) =
      s.commandNumbers.upcoming drafts.length :=
    s.commandNumbers.map_recordsOf_eq_upcoming (fun _ _ _ => rfl) clock drafts
  show Numbers.mk ((s.commands ++ recordsOf Command.ofDraft s.nextCommand clock drafts).map (·.id))
    (s.nextCommand + .ofNat drafts.length) = _
  rw [List.map_append, hnew]
  rfl

theorem itemNumbers_insertItems (s : Store) (clock : Clock) (drafts : List ItemDraft) :
    (s.insertItems clock drafts).itemNumbers = s.itemNumbers.add drafts.length := by
  have hnew : (recordsOf ListItem.ofDraft s.nextItem clock drafts).map (·.id) =
      s.itemNumbers.upcoming drafts.length :=
    s.itemNumbers.map_recordsOf_eq_upcoming (fun _ _ _ => rfl) clock drafts
  show Numbers.mk ((s.items ++ recordsOf ListItem.ofDraft s.nextItem clock drafts).map (·.id))
    (s.nextItem + .ofNat drafts.length) = _
  rw [List.map_append, hnew]
  rfl

theorem insertCommand_eq (s : Store) (clock : Clock) (draft : CommandDraft) :
    s.insertCommand clock draft = s.insertCommands clock [draft] := by
  simp [insertCommand, insertCommands]

theorem insertItem_eq (s : Store) (clock : Clock) (draft : ItemDraft) :
    s.insertItem clock draft = s.insertItems clock [draft] := by
  simp [insertItem, insertItems]

/-- What an edit does to the numbers of the commands. -/
theorem commandNumbers_edit (clock : Clock) (s : Store) (e : Edit) :
    (s.edit clock e).commandNumbers = s.commandNumbers.take e.commandIntake? := by
  cases e with
  | insertCommand draft =>
    show (s.insertCommand clock draft).commandNumbers = _
    rw [insertCommand_eq]
    exact s.commandNumbers_insertCommands clock [draft]
  | insertCommands drafts => exact s.commandNumbers_insertCommands clock drafts
  | refreshCommands drafts => exact s.clearCommands.commandNumbers_insertCommands clock drafts
  | clearCommands | clearAll => exact (Numbers.add_zero .start).symm
  | insertItem _ | insertItems _ | refreshItems _ | clearItems => rfl

/-- What an edit does to the numbers of the list items. -/
theorem itemNumbers_edit (clock : Clock) (s : Store) (e : Edit) :
    (s.edit clock e).itemNumbers = s.itemNumbers.take e.itemIntake? := by
  cases e with
  | insertItem draft =>
    show (s.insertItem clock draft).itemNumbers = _
    rw [insertItem_eq]
    exact s.itemNumbers_insertItems clock [draft]
  | insertItems drafts => exact s.itemNumbers_insertItems clock drafts
  | refreshItems drafts => exact s.clearItems.itemNumbers_insertItems clock drafts
  | clearItems | clearAll => exact (Numbers.add_zero .start).symm
  | insertCommand _ | insertCommands _ | refreshCommands _ | clearCommands => rfl

/-- An edit of the list items leaves the commands alone. -/
theorem commands_edit (h : e.commandIntake? = none) :
    (s.edit clock e).commands = s.commands ∧ (s.edit clock e).nextCommand = s.nextCommand := by
  cases e with
  | insertItem _ | insertItems _ | refreshItems _ | clearItems => exact ⟨rfl, rfl⟩
  | _ => cases h

/-- An edit of the commands leaves the list items alone. -/
theorem items_edit (h : e.itemIntake? = none) :
    (s.edit clock e).items = s.items ∧ (s.edit clock e).nextItem = s.nextItem := by
  cases e with
  | insertCommand _ | insertCommands _ | refreshCommands _ | clearCommands => exact ⟨rfl, rfl⟩
  | _ => cases h

end Store

end VoiceIndex
