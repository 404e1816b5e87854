import Mathlib.Algebra.GroupWithZero.Nat
import VoiceIndex.Proofs.Index.Durability

/-!
# The numbers of records over time

The records of a store that grew from the empty one are numbered one, two, three in their order,
whatever was done to it (`numbered_from_one`). A store that was read from a file has the counters
that the file gives, and nothing ties these to the records beside them. So records that are
inserted then keep numbers of their own if and only if the numbers from the counter on are free
(`distinct_after_inserts_iff`); a file that leaves its counters out gives numbers a second time
(`number_given_twice`).
-/

namespace VoiceIndex

variable {s : Store} {turns : List Turn}

/-! ## Numbers from one -/

/-- The numbers were given out one after another from the first one on. -/
def Numbers.FromOne (x : Numbers) : Prop := ∃ n, x = start.add n

namespace Numbers.FromOne

variable {x : Numbers}

theorem start : Numbers.start.FromOne := ⟨0, (Numbers.start.add_zero).symm⟩

theorem take (h : x.FromOne) (intake? : Option Intake) : (x.take intake?).FromOne := by
  obtain ⟨m, rfl⟩ := h
  match intake? with
  | none => exact ⟨m, rfl⟩
  | some (.append n) => exact ⟨m + n, Numbers.start.add_add m n⟩
  | some (.replace n) => exact ⟨n, rfl⟩

theorem consecutive (h : x.FromOne) (hlength : (x.given.length : Int) < Int64.maxValue.toInt) :
    x.Consecutive := by
  obtain ⟨n, rfl⟩ := h
  rw [length_start_add] at hlength
  exact consecutive_start_add hlength

end Numbers.FromOne

namespace Store

theorem fromOne_after (hcommands : s.commandNumbers.FromOne) (hitems : s.itemNumbers.FromOne)
    (turns : List Turn) :
    (s.after turns).commandNumbers.FromOne ∧ (s.after turns).itemNumbers.FromOne := by
  induction turns generalizing s with
  | nil => exact ⟨hcommands, hitems⟩
  | cons t later ih =>
    rw [after_cons]
    apply ih
    · rw [commandNumbers_edit]
      exact hcommands.take t.edit.commandIntake?
    · rw [itemNumbers_edit]
      exact hitems.take t.edit.itemIntake?

/-- **The records of a store that grew from the empty one are numbered from one on, each kind for
itself.** At any time the commands have the numbers 1, 2, 3, … in their order and the next command
will have the number after them, if that number fits, and so it is with the list items. A record
that is inserted has the number that the insertion reports, and an edit that is not about a kind
leaves its records and its counter alone. -/
theorem numbered_from_one (turns : List Turn) :
    let s := empty.after turns
    ((s.commands.length : Int) < Int64.maxValue.toInt → s.commandNumbers.Consecutive) ∧
      ((s.items.length : Int) < Int64.maxValue.toInt → s.itemNumbers.Consecutive) ∧
      (∀ clock draft, ∃ c, (s.edit clock (.insertCommand draft)).commands = s.commands ++ [c] ∧
        s.receipt (.insertCommand draft) = .number c.id) ∧
      (∀ clock draft, ∃ i, (s.edit clock (.insertItem draft)).items = s.items ++ [i] ∧
        s.receipt (.insertItem draft) = .number i.id) ∧
      ∀ clock e,
        (e.commandIntake? = none →
          (s.edit clock e).commands = s.commands ∧
            (s.edit clock e).nextCommand = s.nextCommand) ∧
        (e.itemIntake? = none →
          (s.edit clock e).items = s.items ∧ (s.edit clock e).nextItem = s.nextItem) := by
  intro s
  obtain ⟨hcommands, hitems⟩ := fromOne_after (s := empty) .start .start turns
  refine ⟨fun h => ?_, fun h => ?_, fun clock draft => ?_, fun clock draft => ?_,
    fun clock e => ⟨commands_edit, items_edit⟩⟩
  · refine hcommands.consecutive ?_
    rwa [commandNumbers, List.length_map]
  · refine hitems.consecutive ?_
    rwa [itemNumbers, List.length_map]
  · exact ⟨.ofDraft s.nextCommand (clock 0) draft, rfl, rfl⟩
  · exact ⟨.ofDraft s.nextItem (clock 0) draft, rfl, rfl⟩

/-- Two refreshes and an insertion, with list items in between. -/
theorem numbered_from_one_refreshed :
    let go : CommandDraft := { trigger := "go", script := "", filePath := "a.talon" }
    let pen : ItemDraft := { listName := "user.tools", spokenForm := "pen", listValue := "pencil" }
    let turns : List Turn :=
      [⟨fun _ => "", .insertItem pen⟩, ⟨fun _ => "", .refreshCommands [go, go, go]⟩,
        ⟨fun _ => "", .refreshCommands [go]⟩, ⟨fun _ => "", .insertItems [pen, pen]⟩,
        ⟨fun _ => "", .insertCommand go⟩]
    let s := empty.after turns
    s.commandNumbers.given = [1, 2] ∧ s.itemNumbers.given = [1, 2, 3] ∧
      s.commandNumbers.Consecutive ∧ s.itemNumbers.Consecutive := by
  intro go pen turns s
  obtain ⟨hcommands, hitems, -⟩ := numbered_from_one turns
  exact ⟨by decide, by decide, hcommands (by decide), hitems (by decide)⟩

end Store

/-! ## Insertions after opening -/

/-- How many records come in. -/
def Intake.size : Intake → Nat
  | append n | replace n => n

namespace Edit

/-- Whether an edit puts records after those that are there. -/
def isInsertion : Edit → Bool
  | insertCommand _ | insertCommands _ | insertItem _ | insertItems _ => true
  | refreshCommands _ | refreshItems _ | clearCommands | clearItems | clearAll => false

/-- The number of commands that come in. -/
def newCommands (e : Edit) : Nat := (e.commandIntake?.map Intake.size).getD 0

/-- The number of list items that come in. -/
def newItems (e : Edit) : Nat := (e.itemIntake?.map Intake.size).getD 0

end Edit

namespace Store

theorem numbers_insertion (clock : Clock) (s : Store) {e : Edit} (h : e.isInsertion = true) :
    (s.edit clock e).commandNumbers = s.commandNumbers.add e.newCommands ∧
      (s.edit clock e).itemNumbers = s.itemNumbers.add e.newItems := by
  rw [commandNumbers_edit, itemNumbers_edit]
  cases e with
  | insertCommand _ | insertCommands _ => exact ⟨rfl, s.itemNumbers.add_zero.symm⟩
  | insertItem _ | insertItems _ => exact ⟨s.commandNumbers.add_zero.symm, rfl⟩
  | _ => cases h

/-- Insertions give out the next numbers of each kind, one for each record. -/
theorem numbers_after_insertions (h : ∀ t ∈ turns, t.edit.isInsertion = true) :
    (s.after turns).commandNumbers =
        s.commandNumbers.add (turns.map (·.edit.newCommands)).sum ∧
      (s.after turns).itemNumbers = s.itemNumbers.add (turns.map (·.edit.newItems)).sum := by
  induction turns generalizing s with
  | nil => exact ⟨s.commandNumbers.add_zero.symm, s.itemNumbers.add_zero.symm⟩
  | cons t later ih =>
    obtain ⟨hcommands, hitems⟩ := numbers_insertion t.clock s (h t List.mem_cons_self)
    obtain ⟨hcommands', hitems'⟩ :=
      ih (s := s.edit t.clock t.edit) fun t' ht' => h t' (List.mem_cons_of_mem t ht')
    rw [after_cons, hcommands', hitems', hcommands, hitems, Numbers.add_add, Numbers.add_add,
      List.map_cons, List.map_cons, List.sum_cons, List.sum_cons]
    exact ⟨rfl, rfl⟩

end Store

namespace Database

open Disk

variable {d₀ d : Disk} {p : Path} {db : Database}

/-- The store after all the moments. -/
def storeAfter (s : Store) (moments : List Moment) : Store :=
  match moments.getLast? with
  | some m => m.db.store
  | none => s

theorem storeAfter_cons (s : Store) (m : Moment) (moments : List Moment) :
    storeAfter s (m :: moments) = storeAfter m.db.store moments := by
  unfold storeAfter
  rw [List.getLast?_cons]
  cases moments.getLast? <;> rfl

theorem storeAfter_live (h : db.snapshot? = some p) (d : Disk) (turns : List Turn) :
    storeAfter db.store (db.live d turns) = db.store.after turns := by
  induction turns generalizing db d with
  | nil => rfl
  | cons t later ih =>
    have hnext : (db.turn d t).db.snapshot? = some p := by rw [turn_eq h]
    have hstore : (db.turn d t).db.store = db.store.edit t.clock t.edit := by rw [turn_eq h]
    rw [Store.after_cons, ← hstore, ← ih hnext (db.turn d t).disk]
    exact storeAfter_cons _ _ _

/-- **Records that are inserted into an index keep numbers of their own if and only if the numbers
from its counters on are free.** -/
theorem distinct_after_inserts_iff (h : opened d₀ p = (.ok db, d))
    (hcommands : db.store.commandNumbers.given.Nodup) (hitems : db.store.itemNumbers.given.Nodup)
    (hinserts : ∀ t ∈ turns, t.edit.isInsertion = true) :
    let s := storeAfter db.store (db.live d turns)
    s.commandNumbers.given.Nodup ∧ s.itemNumbers.given.Nodup ↔
      db.store.commandNumbers.Free (turns.map (·.edit.newCommands)).sum ∧
        db.store.itemNumbers.Free (turns.map (·.edit.newItems)).sum := by
  intro s
  have hs : s = db.store.after turns := storeAfter_live (opened_eq_ok_iff.1 h).2.2 d turns
  obtain ⟨hnumbers, hnumbers'⟩ := Store.numbers_after_insertions (s := db.store) hinserts
  rw [hs, hnumbers, hnumbers', Numbers.nodup_add_iff, Numbers.nodup_add_iff]
  simp only [hcommands, hitems, true_and]

/-- A command with the first number. -/
def goHome : Command where
  id := 1
  trigger := "go home"
  script := "key(home)"
  application := "global"
  filePath := "a.talon"
  createdAt := "2024"

/-- A file that holds a command and its counter. -/
theorem distinct_after_inserts_counted :
    let counted : Store := { commands := [goHome], nextCommand := 2 }
    let turns : List Turn := [⟨fun _ => "", .insertCommands [default, default]⟩]
    opened (diskOf counted.toText) ⟨"index.json"⟩ =
        (.ok ⟨counted, some ⟨"index.json"⟩⟩, diskOf counted.toText) ∧
      (storeAfter counted (live ⟨counted, some ⟨"index.json"⟩⟩ (diskOf counted.toText)
        turns)).commandNumbers.given.Nodup := by
  intro counted turns
  have hopen := opened_diskOf (Store.ofText_toText counted)
  have hinserts : ∀ t ∈ turns, t.edit.isInsertion = true := by decide
  have hfree : counted.commandNumbers.Free 2 ∧ counted.itemNumbers.Free 0 := by
    unfold Numbers.Free
    decide
  exact ⟨hopen, ((distinct_after_inserts_iff hopen (by decide) (by decide) hinserts).2 hfree).1⟩

/-- A store as JSON with its commands alone. -/
def uncounted (commands : List Command) : Json :=
  .record [("commands", .list (commands.map Command.toJson))]

/-- Without the counters, they start at the first number. -/
theorem ofText_uncounted (commands : List Command) :
    Store.ofText (uncounted commands).pretty = .ok { commands } := by
  have hvalue : (uncounted commands).IsIntegral := by
    refine Json.isIntegral_record ?_
    simpa using Json.isIntegral_list_map Command.isIntegral_toJson commands
  have hread : Store.ofJson? (uncounted commands) = some { commands } := by
    unfold Store.ofJson? uncounted
    rw [Json.Fields.of?_record]
    · simp [Json.Fields.withDefault, List.lookup_cons, Json.list?_map Command.ofJson?_toJson]
    · decide
    · show List.Sublist ["commands"] Store.fieldNames
      decide
  unfold Store.ofText Json.decode
  simp only [Json.parse?_pretty hvalue, hread]

/-- A command that is inserted into an index without counters has the number of the one that is
there. -/
theorem number_given_twice :
    let s : Store := { commands := [goHome] }
    let text := (uncounted [goHome]).pretty
    let turns : List Turn := [⟨fun _ => "", .insertCommand default⟩]
    opened (diskOf text) ⟨"index.json"⟩ = (.ok ⟨s, some ⟨"index.json"⟩⟩, diskOf text) ∧
      s.commandNumbers.given.Nodup ∧ s.itemNumbers.given.Nodup ∧
      ¬ (storeAfter s (live ⟨s, some ⟨"index.json"⟩⟩ (diskOf text)
        turns)).commandNumbers.given.Nodup := by
  intro s text turns
  have hplace : (⟨s, some ⟨"index.json"⟩⟩ : Database).snapshot? = some ⟨"index.json"⟩ := rfl
  have hstore := storeAfter_live hplace (diskOf text) turns
  refine ⟨opened_diskOf (ofText_uncounted [goHome]), by decide, by decide, ?_⟩
  rw [hstore]
  decide

end Database

end VoiceIndex
