import VoiceIndex.Index.Database
import VoiceIndex.Proofs.Disk.Program

/-!
# The snapshot of a database

A snapshot is written beside its place first, under a name that differs from its own
(`bytesAt_writeDraft_iff`). So its replacement either puts the whole new text at the path or
leaves there what it found (`replaced_cases`), and opening a path at which a store is kept gives
this store and changes nothing (`opened_of_bytesAt`).
-/

namespace VoiceIndex

/-- The content of the file at a path, if a file can be read there. -/
def Disk.file? (d : Disk) (p : Path) : Option ByteArray := (d.bytesAt p).toOption

namespace Disk

variable {d d' : Disk} {p : Path} {bytes : ByteArray}

theorem file?_eq_some_iff : d.file? p = some bytes ↔ d.bytesAt p = .ok bytes := by
  unfold file?
  cases d.bytesAt p <;> simp [Except.toOption]

theorem file?_congr (h : ∀ bytes, d'.bytesAt p = .ok bytes ↔ d.bytesAt p = .ok bytes) :
    d'.file? p = d.file? p := by
  ext bytes
  rw [file?_eq_some_iff, file?_eq_some_iff, h]

end Disk

namespace Database

open Disk
open VoiceIndex.Path (EndsIn)

variable {d d' : Disk} {p : Path} {front name : List Char} {store : Store}
  {bytes found : ByteArray}

/-! ## The draft -/

/-- A draft that can be written lies beside its snapshot. -/
theorem exists_endsIn_draftPath (h : p.EndsIn front name) {front' name' : List Char}
    (h' : (draftPath p).EndsIn front' name') :
    ∃ other ≠ name, (draftPath p).EndsIn front other :=
  Path.exists_endsIn_withExtension h (by decide) (by decide) h'

theorem bytesAt_writeDraft_iff_of_endsIn (h : p.EndsIn front name) :
    (d.writeBytes (draftPath p) bytes).2.bytesAt p = .ok found ↔ d.bytesAt p = .ok found := by
  obtain ⟨hhere, ⟨-, htop⟩ | ⟨route, written, hspot, -⟩⟩ := writeBytes_cases d (draftPath p) bytes
  · rw [bytesAt_congr htop hhere]
  · obtain ⟨front', name', h'⟩ := exists_endsIn_of_locate (fileSpot_eq_ok_iff.1 hspot).1
    obtain ⟨other, hne, hdraft⟩ := exists_endsIn_draftPath h h'
    exact bytesAt_writeBytes_iff h hdraft hne

/-- Whatever becomes of the draft, the snapshot stays as it is. -/
theorem bytesAt_writeDraft_iff :
    (d.writeBytes (draftPath p) bytes).2.bytesAt p = .ok found ↔ d.bytesAt p = .ok found := by
  constructor
  · intro hfound
    obtain ⟨front, name, h⟩ := exists_endsIn_of_bytesAt hfound
    exact (bytesAt_writeDraft_iff_of_endsIn h).1 hfound
  · intro hfound
    obtain ⟨front, name, h⟩ := exists_endsIn_of_bytesAt hfound
    exact (bytesAt_writeDraft_iff_of_endsIn h).2 hfound

/-! ## Replacement -/

/-- What the replacement of the snapshot reports, and the disk it leaves. -/
def replaced (d : Disk) (p : Path) (store : Store) : Except Fault Unit × Disk :=
  (replaceSnapshot p store : StateM Disk _).run d

theorem replaced_of_draft_failed {fault : Fault}
    (h : d.writeBytes (draftPath p) store.toText.toUTF8 = (.error fault, d')) :
    replaced d p store = (.error fault, d') := by
  have hwrite : (DiskAccess.writeText (draftPath p) store.toText : StateM Disk _).run d =
      (.error fault, d') := by
    rw [run_writeText, h]
  unfold replaced replaceSnapshot
  rw [run_bind_of hwrite]
  rfl

theorem replaced_of_draft_written
    (h : d.writeBytes (draftPath p) store.toText.toUTF8 = (.ok (), d')) :
    replaced d p store = d'.moveFile (draftPath p) p := by
  have hwrite : (DiskAccess.writeText (draftPath p) store.toText : StateM Disk _).run d =
      (.ok (), d') := by
    rw [run_writeText, h]
  unfold replaced replaceSnapshot
  rw [run_bind_of hwrite]
  exact run_moveFile d' (draftPath p) p

/-- **The replacement of a snapshot succeeds as a whole or leaves the snapshot alone.** -/
theorem replaced_cases (d : Disk) (p : Path) (store : Store) :
    (replaced d p store).1 = .ok () ∧
        (replaced d p store).2.bytesAt p = .ok store.toText.toUTF8 ∨
      (replaced d p store).1 ≠ .ok () ∧ (replaced d p store).2.file? p = d.file? p := by
  rcases hwrite : d.writeBytes (draftPath p) store.toText.toUTF8 with ⟨fault | ⟨⟩, d'⟩
  · rw [replaced_of_draft_failed hwrite]
    refine .inr ⟨by simp, file?_congr fun bytes => ?_⟩
    rw [← bytesAt_writeDraft_iff (d := d), hwrite]
  · have hframe (bytes : ByteArray) : d'.bytesAt p = .ok bytes ↔ d.bytesAt p = .ok bytes := by
      rw [← bytesAt_writeDraft_iff (d := d), hwrite]
    rw [replaced_of_draft_written hwrite]
    by_cases hmove : (d'.moveFile (draftPath p) p).1 = .ok ()
    · left
      refine ⟨hmove, ?_⟩
      obtain ⟨bytes, hbytes, hmoved⟩ := bytesAt_of_moveFile_ok hmove
      have hdraft : d'.bytesAt (draftPath p) = .ok store.toText.toUTF8 := by
        have hfound := bytesAt_of_writeBytes_ok (congrArg Prod.fst hwrite)
        rwa [hwrite] at hfound
      obtain rfl : bytes = store.toText.toUTF8 := by simpa [hbytes] using hdraft
      exact hmoved
    · right
      refine ⟨hmove, file?_congr fun bytes => ?_⟩
      rw [bytesAt_of_moveFile_failed hmove, hframe]

/-! ## Opening -/

/-- What opening a path gives, and the disk it leaves. -/
def opened (d : Disk) (p : Path) : Except Error Database × Disk :=
  (open? p : StateM Disk _).run d

/-- The store that is kept at the path, an empty one if nothing stands there. -/
def storeAt (d : Disk) (p : Path) : Except Error Store :=
  if (d.kindAt p).isSome then
    match d.textAt p with
    | .error fault => .error (.disk fault)
    | .ok text => match Store.ofText text with
      | .error fault => .error (.data fault)
      | .ok store => .ok store
  else .ok .empty

theorem storeAt_of_bytesAt {text : String} (h : d.bytesAt p = .ok text.toUTF8)
    (ht : Store.ofText text = .ok store) : storeAt d p = .ok store := by
  unfold storeAt
  rw [kindAt_of_bytesAt h, textAt_eq_ok_iff.2 h]
  simp only [Option.isSome_some, if_true, ht]

theorem run_loadStore (hroom : (DiskAccess.makeRoom p : StateM Disk _).run d = (.ok (), d')) :
    (loadStore p : StateM Disk _).run d = (storeAt d' p, d') := by
  unfold loadStore storeAt
  rw [run_bind_of hroom, run_bind_of (run_isThere d' p)]
  cases (d'.kindAt p).isSome with
  | false => rfl
  | true =>
    simp only [if_true]
    rw [run_bind_of (run_readText d' p)]
    cases d'.textAt p with
    | error fault => rfl
    | ok text =>
      simp only
      cases Store.ofText text <;> rfl

/-- Where there is no room for a file, nothing opens. -/
theorem opened_of_no_room {fault : Fault}
    (h : (DiskAccess.makeRoom p : StateM Disk _).run d = (.error fault, d')) :
    opened d p = (.error (.indexUnavailable p (Error.disk fault).text), d') := by
  have hload : (loadStore p : StateM Disk _).run d = (.error (.disk fault), d') := by
    unfold loadStore
    rw [run_bind_of h]
    rfl
  unfold opened open?
  rw [run_bind_of hload]
  rfl

theorem opened_of_room (h : (DiskAccess.makeRoom p : StateM Disk _).run d = (.ok (), d')) :
    opened d p = match storeAt d' p with
      | .error cause => (.error (.indexUnavailable p cause.text), d')
      | .ok store => (.ok ⟨store, some p⟩, d') := by
  unfold opened open?
  rw [run_bind_of (run_loadStore h)]
  cases storeAt d' p <;> rfl

/-- **A path opens when there is room for a file and what is kept there is a store.** -/
theorem opened_eq_ok_iff {db : Database} :
    opened d p = (.ok db, d') ↔
      (DiskAccess.makeRoom p : StateM Disk _).run d = (.ok (), d') ∧
        storeAt d' p = .ok db.store ∧ db.snapshot? = some p := by
  obtain ⟨stored, snapshot?⟩ := db
  rcases hroom : (DiskAccess.makeRoom p : StateM Disk _).run d with ⟨fault | ⟨⟩, after⟩
  · rw [opened_of_no_room hroom]
    exact iff_of_false (fun h => by cases h) fun h => by cases h.1
  · rw [opened_of_room hroom]
    constructor
    · intro h
      cases hs : storeAt after p with
      | error cause => simp [hs] at h
      | ok found =>
        simp only [hs, Prod.mk.injEq, Except.ok.injEq, Database.mk.injEq] at h
        obtain ⟨⟨rfl, rfl⟩, rfl⟩ := h
        exact ⟨rfl, hs, rfl⟩
    · rintro ⟨hsame, hs, rfl⟩
      cases hsame
      simp only [hs]

/-- Opening a path at which the text of a store is kept gives the store, and changes nothing. -/
theorem opened_of_bytesAt {text : String} (hb : d.bytesAt p = .ok text.toUTF8)
    (ht : Store.ofText text = .ok store) : opened d p = (.ok ⟨store, some p⟩, d) :=
  opened_eq_ok_iff.2 ⟨makeRoom_of_bytesAt hb, storeAt_of_bytesAt hb ht, rfl⟩

/-- A disk with a file that holds only this text. -/
def diskOf (text : String) : Disk := { top := .folder [("index.json", .file text.toUTF8)] }

theorem opened_diskOf {text : String} (h : Store.ofText text = .ok store) :
    opened (diskOf text) ⟨"index.json"⟩ = (.ok ⟨store, some ⟨"index.json"⟩⟩, diskOf text) := by
  have hbytes : (diskOf text).bytesAt ⟨"index.json"⟩ = .ok text.toUTF8 := by rfl
  exact opened_of_bytesAt hbytes h

end Database

end VoiceIndex
