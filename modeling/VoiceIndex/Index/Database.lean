import VoiceIndex.Disk.Access
import VoiceIndex.Error
import VoiceIndex.Store.Edit
import VoiceIndex.Store.Format

/-!
# Databases

A database is a store together with the file that keeps it, its snapshot. After each edit the
snapshot is replaced: the new text is written beside it and then moved over it, so that the
file holds a whole store at any time. A failure to do so is not reported, and the store in
memory does not depend on it. A database whose snapshot could not be opened has none, and
leaves the disk alone.
-/

namespace VoiceIndex

/-- A store and the file that keeps it, if there is one. -/
structure Database where
  store : Store := {}
  snapshot? : Option Path := none
  deriving Inhabited

/-- How much a database holds. -/
structure DatabaseStats where
  totalCommands : Nat
  totalListItems : Nat
  distinctLists : Nat
  /-- Whether there is a snapshot. -/
  persistent : Bool
  deriving DecidableEq, Inhabited, Repr

namespace Database

/-- The database without records and without a snapshot. -/
def inMemory : Database := {}

/-- How much the database holds. -/
def stats (db : Database) : DatabaseStats where
  totalCommands := db.store.commands.length
  totalListItems := db.store.items.length
  distinctLists := db.store.listNames.length
  persistent := db.snapshot?.isSome

/-- The path at which the next snapshot is written before it is moved to its place. -/
def draftPath (snapshot : Path) : Path := snapshot.withExtension "json.tmp"

variable {m : Type → Type} [Monad m] [DiskAccess m]

/-! ## Opening -/

/-- The store in the file at the path, or the empty store if there is no such file. -/
def loadStore (p : Path) : m (Except Error Store) := do
  match ← DiskAccess.makeRoom p with
  | .error fault => return .error (.disk fault)
  | .ok () =>
    if ← DiskAccess.isThere p then
      match ← DiskAccess.readText p with
      | .error fault => return .error (.disk fault)
      | .ok text => match Store.ofText text with
        | .error fault => return .error (.data fault)
        | .ok store => return .ok store
    else return .ok .empty

/-- The database with its snapshot at the path. -/
def open? (p : Path) : m (Except Error Database) := do
  match ← loadStore p with
  | .ok store => return .ok ⟨store, some p⟩
  | .error cause => return .error (.indexUnavailable p cause.text)

/-- The database with its snapshot at the path, or one in memory and the error that made it
so. -/
def openOrDegrade (p : Path) : m (Database × Option Error) := do
  match ← open? p with
  | .ok db => return (db, none)
  | .error e => return (inMemory, some e)

/-! ## Editing -/

/-- Replaces the snapshot at the path by the text of the store. -/
def replaceSnapshot (p : Path) (store : Store) : m (Except Fault Unit) := do
  match ← DiskAccess.writeText (draftPath p) store.toText with
  | .error fault => return .error fault
  | .ok () => DiskAccess.moveFile (draftPath p) p

/-- Brings the snapshot up to date, if there is one and the disk allows it. -/
def persist (db : Database) : m Unit := do
  match db.snapshot? with
  | none => return ()
  | some p => let _ ← replaceSnapshot p db.store

/-- The database after an edit made at the times that the clock shows, and what came of it. -/
def edit (clock : Clock) (db : Database) (e : Edit) : m (Database × Receipt) := do
  let after := { db with store := db.store.edit clock e }
  after.persist
  return (after, db.store.receipt e)

end Database

end VoiceIndex
