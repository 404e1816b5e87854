import VoiceIndex.Proofs.Record.Content
import VoiceIndex.Proofs.Store.Numbers

/-!
# Edits one after another

A store is edited turn after turn, each time by a clock of its own (`Store.after`). To the records
of one kind an edit does one of three things: it leaves them alone, it puts new ones after them, or
it puts new ones in their place (`commands_edit_eq`, `items_edit_eq`). What a store holds is what its
records say together with their numbers; the clock has no part in that (`holdings_edit_clock`).

It makes no difference in how many edits records come in. A batch makes the same store as its parts
one after the other, and as its records one by one, when the clocks of both runs show the same
times. A refresh makes what a clearing and a batch make, whatever was there before
(`batches_agree`).
-/

namespace VoiceIndex

/-- An edit and the clock by which it is made. -/
structure Turn where
  clock : Clock
  edit : Edit

/-- The store after these turns. -/
def Store.after (s : Store) (turns : List Turn) : Store :=
  turns.foldl (fun s t => s.edit t.clock t.edit) s

theorem Store.after_cons (s : Store) (t : Turn) (later : List Turn) :
    s.after (t :: later) = (s.edit t.clock t.edit).after later := rfl

/-! ## What an edit brings in -/

/-- What becomes of the records of one kind. -/
inductive Change (α : Type) where
  /-- The records of these drafts come after them. -/
  | append (drafts : List α)
  /-- The records of these drafts come in their place. -/
  | replace (drafts : List α)

namespace Edit

/-- What an edit does to the commands, if it is about them. -/
def commandChange? : Edit → Option (Change CommandDraft)
  | insertCommand draft => some (.append [draft])
  | insertCommands drafts => some (.append drafts)
  | refreshCommands drafts => some (.replace drafts)
  | clearCommands | clearAll => some (.replace [])
  | insertItem _ | insertItems _ | refreshItems _ | clearItems => none

/-- What an edit does to the list items, if it is about them. -/
def itemChange? : Edit → Option (Change ItemDraft)
  | insertItem draft => some (.append [draft])
  | insertItems drafts => some (.append drafts)
  | refreshItems drafts => some (.replace drafts)
  | clearItems | clearAll => some (.replace [])
  | insertCommand _ | insertCommands _ | refreshCommands _ | clearCommands => none

end Edit

/-- The records after a change, of those that were there and the next number. -/
def Change.records {α ρ : Type} (make : Int64 → String → α → ρ) (old : List ρ) (next : Int64)
    (clock : Clock) : Option (Change α) → List ρ
  | none => old
  | some (append drafts) => old ++ recordsOf make next clock drafts
  | some (replace drafts) => recordsOf make 1 clock drafts

namespace Store

theorem commands_edit_eq (clock : Clock) (s : Store) (e : Edit) :
    (s.edit clock e).commands =
      Change.records Command.ofDraft s.commands s.nextCommand clock e.commandChange? := by
  cases e with
  | insertCommand draft =>
    show (s.insertCommand clock draft).commands = _
    rw [insertCommand_eq]
    rfl
  | _ => rfl

theorem items_edit_eq (clock : Clock) (s : Store) (e : Edit) :
    (s.edit clock e).items =
      Change.records ListItem.ofDraft s.items s.nextItem clock e.itemChange? := by
  cases e with
  | insertItem draft =>
    show (s.insertItem clock draft).items = _
    rw [insertItem_eq]
    rfl
  | _ => rfl

end Store

/-! ## Holdings -/

/-- What is held of one kind: what the records say, and their numbers. -/
structure Holding (α : Type) where
  said : List α
  numbers : Numbers

namespace Holding

variable {α : Type}

/-- Nothing is held. -/
def empty : Holding α := ⟨[], .start⟩

/-- More is held, under the next numbers. -/
def add (x : Holding α) (drafts : List α) : Holding α :=
  ⟨x.said ++ drafts, x.numbers.add drafts.length⟩

theorem add_add (x : Holding α) (drafts later : List α) :
    (x.add drafts).add later = x.add (drafts ++ later) := by
  unfold add
  rw [List.append_assoc, Numbers.add_add, List.length_append]

end Holding

namespace Store

/-- The commands that a store holds. -/
def commandHolding (s : Store) : Holding CommandDraft :=
  ⟨s.commands.map Command.content, s.commandNumbers⟩

/-- The list items that a store holds. -/
def itemHolding (s : Store) : Holding ItemDraft :=
  ⟨s.items.map ListItem.content, s.itemNumbers⟩

/-- All that a store holds, the times of its records aside. -/
def holdings (s : Store) : Holding CommandDraft × Holding ItemDraft :=
  (s.commandHolding, s.itemHolding)

end Store

section

variable {α β ρ : Type} {make : Int64 → String → α → ρ} {content : ρ → β}

/-- What records say that comes from their drafts alone. -/
theorem map_recordsOf {said : α → β} {drafts : List α}
    (h : ∀ draft ∈ drafts, ∀ id now, content (make id now draft) = said draft) (first : Int64)
    (clock : Clock) : (recordsOf make first clock drafts).map content = drafts.map said := by
  refine List.ext_getElem (by simp [recordsOf]) fun k _ hk => ?_
  rw [List.length_map] at hk
  simp [recordsOf, h drafts[k] (List.getElem_mem hk)]

theorem Change.map_records_clock {said : α → β}
    (h : ∀ draft id now, content (make id now draft) = said draft) (old : List ρ) (next : Int64)
    (clock clock' : Clock) (change? : Option (Change α)) :
    (records make old next clock change?).map content =
      (records make old next clock' change?).map content := by
  have hnew (first : Int64) (clock : Clock) (drafts : List α) :
      (recordsOf make first clock drafts).map content = drafts.map said :=
    map_recordsOf (fun draft _ => h draft) first clock
  match change? with
  | none => rfl
  | some (append drafts) =>
    unfold records
    rw [List.map_append, List.map_append, hnew, hnew]
  | some (replace drafts) =>
    unfold records
    rw [hnew, hnew]

end

/-- **The clock has no part in what a store holds.** -/
theorem Store.holdings_edit_clock (clock clock' : Clock) (s : Store) (e : Edit) :
    (s.edit clock e).holdings = (s.edit clock' e).holdings := by
  have hcommand (draft : CommandDraft) (id : Int64) (now : String) :
      (Command.ofDraft id now draft).content = (Command.ofDraft 0 "" draft).content := rfl
  have hitem (draft : ItemDraft) (id : Int64) (now : String) :
      (ListItem.ofDraft id now draft).content = (ListItem.ofDraft 0 "" draft).content := rfl
  have hcommands := Change.map_records_clock hcommand s.commands s.nextCommand clock clock'
    e.commandChange?
  have hitems := Change.map_records_clock hitem s.items s.nextItem clock clock' e.itemChange?
  unfold holdings commandHolding itemHolding
  rw [commands_edit_eq, commands_edit_eq, items_edit_eq, items_edit_eq, hcommands, hitems,
    commandNumbers_edit, commandNumbers_edit, itemNumbers_edit, itemNumbers_edit]

/-! ## Batches -/

/-- The clock that shows so many readings of the first clock, and then those of the other. -/
def Clock.andThen (first : Clock) (n : Nat) (later : Clock) : Clock :=
  fun k => if k < n then first k else later (k - n)

theorem recordsOf_append {α ρ : Type} (make : Int64 → String → α → ρ) (first : Int64)
    (clock later : Clock) (xs ys : List α) :
    recordsOf make first (clock.andThen xs.length later) (xs ++ ys) =
      recordsOf make first clock xs ++ recordsOf make (first + .ofNat xs.length) later ys := by
  unfold recordsOf
  rw [List.mapIdx_append]
  congr 1
  · refine List.ext_getElem (by simp) fun k hk hk' => ?_
    have hclock : clock.andThen xs.length later k = clock k := if_pos (by simpa using hk)
    simp [hclock]
  · refine List.ext_getElem (by simp) fun k hk hk' => ?_
    have hclock : clock.andThen xs.length later (k + xs.length) = later k := by
      unfold Clock.andThen
      rw [if_neg (by omega), Nat.add_sub_cancel]
    simp [hclock, Numbers.add_ofNat_add_ofNat, Nat.add_comm]

namespace Store

variable (s : Store) (clock later : Clock)

theorem insertCommands_append (xs ys : List CommandDraft) :
    s.insertCommands (clock.andThen xs.length later) (xs ++ ys) =
      (s.insertCommands clock xs).insertCommands later ys := by
  have hrecords := recordsOf_append Command.ofDraft s.nextCommand clock later xs ys
  have hnext := Numbers.add_ofNat_add_ofNat s.nextCommand xs.length ys.length
  show Store.mk (s.commands ++ recordsOf _ _ _ (xs ++ ys)) s.items
      (s.nextCommand + .ofNat (xs ++ ys).length) s.nextItem =
    Store.mk (s.commands ++ recordsOf _ _ clock xs ++
        recordsOf _ (s.nextCommand + .ofNat xs.length) later ys) s.items
      (s.nextCommand + .ofNat xs.length + .ofNat ys.length) s.nextItem
  rw [hrecords, hnext, List.length_append, List.append_assoc]

theorem insertItems_append (xs ys : List ItemDraft) :
    s.insertItems (clock.andThen xs.length later) (xs ++ ys) =
      (s.insertItems clock xs).insertItems later ys := by
  have hrecords := recordsOf_append ListItem.ofDraft s.nextItem clock later xs ys
  have hnext := Numbers.add_ofNat_add_ofNat s.nextItem xs.length ys.length
  show Store.mk s.commands (s.items ++ recordsOf _ _ _ (xs ++ ys)) s.nextCommand
      (s.nextItem + .ofNat (xs ++ ys).length) =
    Store.mk s.commands (s.items ++ recordsOf _ _ clock xs ++
        recordsOf _ (s.nextItem + .ofNat xs.length) later ys) s.nextCommand
      (s.nextItem + .ofNat xs.length + .ofNat ys.length)
  rw [hrecords, hnext, List.length_append, List.append_assoc]

theorem insertCommands_nil : s.insertCommands clock [] = s := by
  show Store.mk (s.commands ++ []) s.items (s.nextCommand + 0) s.nextItem = s
  rw [List.append_nil, Int64.add_zero]

theorem insertItems_nil : s.insertItems clock [] = s := by
  show Store.mk s.commands (s.items ++ []) s.nextCommand (s.nextItem + 0) = s
  rw [List.append_nil, Int64.add_zero]

end Store

/-- The edits of one kind of records. -/
structure RecordKind (α : Type) where
  insert : α → Edit
  insertAll : List α → Edit
  refresh : List α → Edit
  clear : Edit

namespace RecordKind

/-- The edits of the commands. -/
def commands : RecordKind CommandDraft where
  insert := .insertCommand
  insertAll := .insertCommands
  refresh := .refreshCommands
  clear := .clearCommands

/-- The edits of the list items. -/
def items : RecordKind ItemDraft where
  insert := .insertItem
  insertAll := .insertItems
  refresh := .refreshItems
  clear := .clearItems

variable {α : Type}

/-- An insertion for each draft, each by a clock of its own. -/
def oneByOne (kind : RecordKind α) (clocks : Nat → Clock) (drafts : List α) : List Turn :=
  drafts.mapIdx fun k draft => ⟨clocks k, kind.insert draft⟩

/-- It makes no difference to the store in how many edits the drafts come in, nor, the times of the
records aside, what the clocks show. -/
structure BatchesAgree (kind : RecordKind α) (s : Store) (xs ys : List α) : Prop where
  /-- A batch is its drafts one by one, if its clock shows what the others show. -/
  insertAll_eq_oneByOne : ∀ clocks : Nat → Clock,
    s.edit (fun k => clocks k 0) (kind.insertAll xs) = s.after (kind.oneByOne clocks xs)
  /-- A batch is its parts one after the other. -/
  insertAll_append : ∀ clock later : Clock,
    s.edit (clock.andThen xs.length later) (kind.insertAll (xs ++ ys)) =
      (s.edit clock (kind.insertAll xs)).edit later (kind.insertAll ys)
  /-- A refresh is a clearing and a batch. -/
  refresh_eq : ∀ clock clock' : Clock,
    s.edit clock (kind.refresh xs) = (s.edit clock' kind.clear).edit clock (kind.insertAll xs)
  /-- A refresh leaves nothing of an earlier one. -/
  refresh_refresh : ∀ clock clock' : Clock,
    (s.edit clock' (kind.refresh xs)).edit clock (kind.refresh xs) =
      s.edit clock (kind.refresh xs)
  /-- The clock has no part in what the store holds. -/
  clock_aside : ∀ (clock clock' : Clock) (e : Edit),
    (s.edit clock e).holdings = (s.edit clock' e).holdings

/-- What makes a batch of one out of an insertion, and of two batches one. -/
structure IsBatched (kind : RecordKind α) : Prop where
  insert_eq : ∀ (s : Store) clock draft,
    s.edit clock (kind.insert draft) = s.edit clock (kind.insertAll [draft])
  insertAll_nil : ∀ (s : Store) clock, s.edit clock (kind.insertAll []) = s
  insertAll_append : ∀ (s : Store) (clock later : Clock) xs ys,
    s.edit (clock.andThen xs.length later) (kind.insertAll (xs ++ ys)) =
      (s.edit clock (kind.insertAll xs)).edit later (kind.insertAll ys)

theorem isBatched_commands : commands.IsBatched where
  insert_eq := Store.insertCommand_eq
  insertAll_nil := Store.insertCommands_nil
  insertAll_append := Store.insertCommands_append

theorem isBatched_items : items.IsBatched where
  insert_eq := Store.insertItem_eq
  insertAll_nil := Store.insertItems_nil
  insertAll_append := Store.insertItems_append

theorem oneByOne_cons (kind : RecordKind α) (clocks : Nat → Clock) (draft : α)
    (drafts : List α) :
    kind.oneByOne clocks (draft :: drafts) =
      ⟨clocks 0, kind.insert draft⟩ :: kind.oneByOne (fun k => clocks (k + 1)) drafts :=
  List.mapIdx_cons

/-- **A batch makes the same store as its drafts one by one.** -/
theorem IsBatched.after_oneByOne {kind : RecordKind α} (h : kind.IsBatched) (s : Store)
    (clocks : Nat → Clock) (drafts : List α) :
    s.after (kind.oneByOne clocks drafts) =
      s.edit (fun k => clocks k 0) (kind.insertAll drafts) := by
  induction drafts generalizing s clocks with
  | nil => exact (h.insertAll_nil s _).symm
  | cons draft drafts ih =>
    -- the clock of the whole batch is the first clock for one reading, then that of the rest
    have hclock : (fun k => clocks k 0) = (clocks 0).andThen 1 fun k => clocks (k + 1) 0 := by
      funext k
      cases k <;> rfl
    rw [oneByOne_cons, Store.after_cons, ih, h.insert_eq, hclock]
    exact (h.insertAll_append s (clocks 0) (fun k => clocks (k + 1) 0) [draft] drafts).symm

end RecordKind

/-- **Batches and single insertions agree**, for commands and for list items. -/
theorem Store.batches_agree (s : Store) :
    (∀ xs ys, RecordKind.commands.BatchesAgree s xs ys) ∧
      ∀ xs ys, RecordKind.items.BatchesAgree s xs ys := by
  constructor
  · intro xs ys
    have hbatched := RecordKind.isBatched_commands
    exact {
      insertAll_eq_oneByOne := fun clocks => (hbatched.after_oneByOne s clocks xs).symm
      insertAll_append := fun clock later => hbatched.insertAll_append s clock later xs ys
      refresh_eq := fun _ _ => rfl
      refresh_refresh := fun _ _ => rfl
      clock_aside := fun clock clock' e => s.holdings_edit_clock clock clock' e }
  · intro xs ys
    have hbatched := RecordKind.isBatched_items
    exact {
      insertAll_eq_oneByOne := fun clocks => (hbatched.after_oneByOne s clocks xs).symm
      insertAll_append := fun clock later => hbatched.insertAll_append s clock later xs ys
      refresh_eq := fun _ _ => rfl
      refresh_refresh := fun _ _ => rfl
      clock_aside := fun clock clock' e => s.holdings_edit_clock clock clock' e }

end VoiceIndex
