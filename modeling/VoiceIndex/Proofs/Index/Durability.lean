import VoiceIndex.Proofs.Index.Snapshot
import VoiceIndex.Proofs.Store.RoundTrip
import VoiceIndex.Proofs.Store.Run

/-!
# Databases over time

A store that is saved is opened again as it was, whatever its records hold (`snapshot_lossless`).

A database is edited turn after turn, on a disk that may fail any write and any move. The store in
memory goes through the history that it would have without a disk. The snapshot goes from one
whole store to a later one: it is the text of the store as of the last turn that was saved
(`file?_live`), so that a database opened there carries on from that turn (`live_of_opened`).
-/

namespace VoiceIndex

open Disk

/-- What there is after a turn. -/
structure Moment where
  receipt : Receipt
  db : Database
  disk : Disk
  /-- Whether the new snapshot was written and moved to its place. -/
  saved : Bool

/-- What the turns report, and the stores they make one of the other, without any disk. -/
def Store.history (s : Store) : List Turn → List (Receipt × Store)
  | [] => []
  | t :: later =>
    let after := s.edit t.clock t.edit
    (s.receipt t.edit, after) :: after.history later

namespace Database

variable {d d' : Disk} {p : Path} {db : Database} {original : Option ByteArray}

/-- Whether the snapshot of the database can be replaced on the disk as it is. -/
def saves (db : Database) (d : Disk) : Bool :=
  match db.snapshot? with
  | none => false
  | some p => (replaced d p db.store).1.isOk

/-- The moment after a turn. -/
def turn (db : Database) (d : Disk) (t : Turn) : Moment :=
  let ((after, receipt), disk) := (db.edit t.clock t.edit : StateM Disk _).run d
  { receipt, db := after, disk, saved := after.saves d }

/-- The moments after each of the turns. -/
def live (db : Database) (d : Disk) : List Turn → List Moment
  | [] => []
  | t :: later =>
    let m := db.turn d t
    m :: m.db.live m.disk later

/-- The disk after all the moments. -/
def diskAfter (d : Disk) (moments : List Moment) : Disk :=
  match moments.getLast? with
  | some m => m.disk
  | none => d

/-- The last of the moments that was saved. -/
def lastSaved (moments : List Moment) : Option Moment := moments.reverse.find? (·.saved)

/-- The content of the snapshot after these moments: the store of the last one that was saved, or
what there was before. -/
def keptAfter (original : Option ByteArray) (moments : List Moment) : Option ByteArray :=
  match lastSaved moments with
  | some m => some m.db.store.toText.toUTF8
  | none => original

theorem keptAfter_cons (m : Moment) (moments : List Moment) :
    keptAfter original (m :: moments) = keptAfter (keptAfter original [m]) moments := by
  unfold keptAfter lastSaved
  rw [List.reverse_cons, List.find?_append]
  cases moments.reverse.find? (·.saved) <;> rfl

theorem keptAfter_singleton (m : Moment) :
    keptAfter original [m] = if m.saved then some m.db.store.toText.toUTF8 else original := by
  unfold keptAfter lastSaved
  rw [List.reverse_singleton, List.find?_singleton]
  cases m.saved <;> rfl

/-! ## One store -/

theorem bytesAt_replaced {store : Store} (h : (replaced d p store).1 = .ok ()) :
    (replaced d p store).2.bytesAt p = .ok store.toText.toUTF8 := by
  rcases replaced_cases d p store with ⟨-, hbytes⟩ | ⟨hfail, -⟩
  · exact hbytes
  · exact absurd h hfail

/-- Opening a path at which a store was saved gives this store, and changes nothing. -/
theorem opened_replaced {store : Store} (h : (replaced d p store).1 = .ok ()) :
    opened (replaced d p store).2 p = (.ok ⟨store, some p⟩, (replaced d p store).2) :=
  opened_of_bytesAt (bytesAt_replaced h) (Store.ofText_toText store)

/-- **A snapshot loses nothing.** Whatever its records hold and whatever its counters are, a store
is read back from its own text, so that a text which was accepted once gives the same store after
the store was written anew. On a disk the text is the whole content of the file at the path, and
opening the path gives the store. -/
theorem snapshot_lossless (store : Store) :
    Store.ofText store.toText = .ok store ∧
      (∀ text, Store.ofText text = .ok store → Store.ofText store.toText = Store.ofText text) ∧
      ∀ d p, (replaced d p store).1 = .ok () →
        (replaced d p store).2.bytesAt p = .ok store.toText.toUTF8 ∧
          opened (replaced d p store).2 p = (.ok ⟨store, some p⟩, (replaced d p store).2) := by
  have hread := Store.ofText_toText store
  refine ⟨hread, fun text htext => ?_, fun d p hok => ⟨bytesAt_replaced hok, opened_replaced hok⟩⟩
  rw [hread, htext]

/-- Texts with all kinds of characters that JSON escapes, an empty text beside absent ones, an
empty list beside one that holds an empty text, and the outermost numbers. -/
def oddStore : Store where
  commands :=
    [{ id := Int64.minValue, trigger := "say \"\\\u0000\u001f\n\t\u2028😀", script := "",
       application := "", filePath := "a.talon", createdAt := "", mode := some "" },
      { id := 0, trigger := "", script := "\r", application := "one", applications := ["one", ""],
        filePath := "", createdAt := "", title := some "null" }]
  items :=
    [{ id := Int64.maxValue, listName := "", spokenForm := "", listValue := "\u007f/",
       sourceFile := none, createdAt := "", importedAt := "" }]
  nextCommand := Int64.maxValue
  nextItem := -1

/-- A store that is saved in place of an empty text. -/
theorem snapshot_lossless_odd :
    let saved := replaced (diskOf "") ⟨"index.json"⟩ oddStore
    saved.1 = .ok () ∧
      opened saved.2 ⟨"index.json"⟩ = (.ok ⟨oddStore, some ⟨"index.json"⟩⟩, saved.2) := by
  intro saved
  have hsaved : (replaced (diskOf "") ⟨"index.json"⟩ oddStore).1 = .ok () := by rfl
  exact ⟨hsaved, ((snapshot_lossless oddStore).2.2 (diskOf "") ⟨"index.json"⟩ hsaved).2⟩

/-! ## One turn -/

theorem run_persist (h : db.snapshot? = some p) (d : Disk) :
    (db.persist : StateM Disk _).run d = ((), (replaced d p db.store).2) := by
  have hreplace : (replaceSnapshot p db.store : StateM Disk _).run d =
      ((replaced d p db.store).1, (replaced d p db.store).2) := by
    rw [Prod.eta, replaced]
  unfold persist
  rw [h]
  simp only
  rw [run_bind_of hreplace]
  rfl

theorem run_edit (db : Database) (d : Disk) (t : Turn) :
    (db.edit t.clock t.edit : StateM Disk _).run d =
      (((db.turn d t).db, (db.turn d t).receipt), (db.turn d t).disk) := by
  unfold turn
  rcases (db.edit t.clock t.edit : StateM Disk _).run d with ⟨⟨after, receipt⟩, disk⟩
  rfl

theorem turn_eq (h : db.snapshot? = some p) (d : Disk) (t : Turn) :
    db.turn d t =
      { receipt := db.store.receipt t.edit
        db := ⟨db.store.edit t.clock t.edit, some p⟩
        disk := (replaced d p (db.store.edit t.clock t.edit)).2
        saved := (replaced d p (db.store.edit t.clock t.edit)).1.isOk } := by
  obtain ⟨store, snapshot?⟩ := db
  obtain rfl : snapshot? = some p := h
  have hedit : (Database.edit t.clock ⟨store, some p⟩ t.edit : StateM Disk _).run d =
      ((⟨store.edit t.clock t.edit, some p⟩, store.receipt t.edit),
        (replaced d p (store.edit t.clock t.edit)).2) := by
    unfold Database.edit
    rw [run_bind_of (run_persist rfl d)]
    rfl
  unfold turn saves
  rw [hedit]

/-- A turn brings the snapshot to the new store, or leaves it as it is. -/
theorem file?_turn (h : db.snapshot? = some p) (d : Disk) (t : Turn) :
    (db.turn d t).disk.file? p = keptAfter (d.file? p) [db.turn d t] := by
  rw [keptAfter_singleton, turn_eq h]
  simp only
  rcases replaced_cases d p (db.store.edit t.clock t.edit) with ⟨hok, hbytes⟩ | ⟨hfail, hfile⟩
  · rw [hok, file?_eq_some_iff.2 hbytes]
    rfl
  · cases hresult : (replaced d p (db.store.edit t.clock t.edit)).1 with
    | error fault => exact hfile
    | ok done => exact absurd hresult hfail

/-- After a turn that was saved, opening gives the database as it is, and changes nothing. -/
theorem opened_turn (h : db.snapshot? = some p) (d : Disk) (t : Turn)
    (hsaved : (db.turn d t).saved = true) :
    opened (db.turn d t).disk p = (.ok (db.turn d t).db, (db.turn d t).disk) := by
  rw [turn_eq h] at hsaved ⊢
  simp only at hsaved ⊢
  cases hresult : (replaced d p (db.store.edit t.clock t.edit)).1 with
  | error fault => simp [hresult, Except.isOk, Except.toBool] at hsaved
  | ok done => exact opened_replaced hresult

/-! ## All turns -/

/-- The disk has no part in what the turns report and what becomes of the store. -/
theorem history_of_live (h : db.snapshot? = some p) (d : Disk) (turns : List Turn) :
    (db.live d turns).map (fun m => (m.receipt, m.db.store)) = db.store.history turns := by
  induction turns generalizing db d with
  | nil => rfl
  | cons t later ih =>
    unfold live Store.history
    rw [List.map_cons, turn_eq h]
    simp only
    rw [ih rfl]

theorem file?_live (h : db.snapshot? = some p) (d : Disk) (turns : List Turn)
    {past future : List Moment} {m : Moment} (hsplit : db.live d turns = past ++ m :: future) :
    m.disk.file? p = keptAfter (d.file? p) (past ++ [m]) ∧
      (m.saved = true → opened m.disk p = (.ok m.db, m.disk)) := by
  -- for any disk and store, since each turn leaves others; the place of the snapshot is the same
  induction turns generalizing db d past with
  | nil => simp [live] at hsplit
  | cons t later ih =>
    have hnext : (db.turn d t).db.snapshot? = some p := by rw [turn_eq h]
    unfold live at hsplit
    cases past with
    | nil =>
      obtain ⟨rfl, -⟩ := List.cons.inj hsplit
      exact ⟨file?_turn h d t, opened_turn h d t⟩
    | cons first past =>
      obtain ⟨rfl, hrest⟩ := List.cons.inj hsplit
      have hlater := ih hnext _ hrest
      rw [file?_turn h d t] at hlater
      rw [List.cons_append, keptAfter_cons]
      exact hlater

theorem file?_diskAfter (h : db.snapshot? = some p) (d : Disk) (turns : List Turn) :
    (diskAfter d (db.live d turns)).file? p = keptAfter (d.file? p) (db.live d turns) := by
  rcases List.eq_nil_or_concat' (db.live d turns) with hnil | ⟨past, m, hlast⟩
  · rw [hnil]
    rfl
  · have hfile := (file?_live h d turns hlast).1
    unfold diskAfter
    rw [hlast, List.getLast?_concat]
    exact hfile

/-- Each moment carries on the run by itself. -/
theorem future_of_live (db : Database) (d : Disk) (turns : List Turn) {past future : List Moment}
    {m : Moment} (hsplit : db.live d turns = past ++ m :: future) :
    future = m.db.live m.disk (turns.drop (past.length + 1)) := by
  induction turns generalizing db d past with
  | nil => simp [live] at hsplit
  | cons t later ih =>
    unfold live at hsplit
    cases past with
    | nil =>
      obtain ⟨rfl, hrest⟩ := List.cons.inj hsplit
      exact hrest.symm
    | cons first past =>
      obtain ⟨rfl, hrest⟩ := List.cons.inj hsplit
      exact ih _ _ hrest

/-- **What is in memory never depends on the disk, and what is on the disk is never less than a
whole store.** The reports and stores of a database that was opened at a path are those of the
plain store. At any moment the file at the path is that of the last moment that was saved, or the
first one. At a moment that was saved, opening the path gives the same database on the same disk,
and from these alone the run goes on as it does. -/
theorem live_of_opened {d₀ : Disk} (h : opened d₀ p = (.ok db, d)) (turns : List Turn) :
    (db.live d turns).map (fun m => (m.receipt, m.db.store)) = db.store.history turns ∧
      ∀ past m future, db.live d turns = past ++ m :: future →
        m.disk.file? p = keptAfter (d.file? p) (past ++ [m]) ∧
          (m.saved = true → opened m.disk p = (.ok m.db, m.disk)) ∧
          future = m.db.live m.disk (turns.drop (past.length + 1)) := by
  have hplace := (opened_eq_ok_iff.1 h).2.2
  refine ⟨history_of_live hplace d turns, fun past m future hsplit => ?_⟩
  obtain ⟨hfile, hopen⟩ := file?_live hplace d turns hsplit
  exact ⟨hfile, hopen, future_of_live db d turns hsplit⟩

/-- A new database: nothing stands at the path, and of the writes to come the second one ends
after a byte. -/
theorem live_of_opened_new :
    let d : Disk := { top := .folder [], outages := [none, none, some (.cutShort 1)] }
    let turns : List Turn :=
      [⟨fun _ => "", .insertItem ⟨"user.tools", "pen", "pencil", none, none, none⟩⟩,
        ⟨fun _ => "", .clearAll⟩]
    let moments := live ⟨.empty, some ⟨"index.json"⟩⟩ d turns
    opened d ⟨"index.json"⟩ = (.ok ⟨.empty, some ⟨"index.json"⟩⟩, d) ∧
      moments.map (·.saved) = [true, false] ∧
      ∀ past m future, moments = past ++ m :: future →
        (m.saved = true → opened m.disk ⟨"index.json"⟩ = (.ok m.db, m.disk)) := by
  intro d turns moments
  have hopen : opened d ⟨"index.json"⟩ = (.ok ⟨.empty, some ⟨"index.json"⟩⟩, d) := by rfl
  have hsaved : moments.map (·.saved) = [true, false] := by rfl
  exact ⟨hopen, hsaved, fun past m future hsplit =>
    ((live_of_opened hopen turns).2 past m future hsplit).2.1⟩

end Database

end VoiceIndex
