import VoiceIndex.Proofs.Disk.Frame
import VoiceIndex.Proofs.Index.Durability
import VoiceIndex.Query.Facet
import VoiceIndex.Query.Search

/-!
# Databases that could not be opened

A path that cannot be opened gives a database in memory. Opening looks, reads and makes folders,
and so keeps every file, the one it failed on among them (`keeps_openOrDegrade`). The database it
gives makes no request of the disk, whatever is asked of it (`serve_of_no_snapshot`): it answers as
any database in memory does, and the disk stays as the opening left it
(`serve_of_openOrDegrade_failed`).
-/

namespace VoiceIndex

/-- What can be asked of a database. -/
inductive Query where
  | search (options : SearchOptions)
  | searchItems (term : String) (maxResults : Nat)
  | filterValues
  | repositoryBreakdown
  | listNames
  | itemsOf (name : String)
  | stats
  deriving Inhabited

/-- What a database answers. -/
inductive Answer where
  | commands (found : List Command)
  | items (found : List ListItem)
  | filterValues (values : FilterValues)
  | breakdown (counts : List (String × Nat))
  | names (names : List String)
  | stats (stats : DatabaseStats)
  deriving DecidableEq, Inhabited, Repr

/-- What can be done with a database. -/
inductive Request where
  | edit (turn : Turn)
  | ask (query : Query)

/-- What comes of a request. -/
inductive Reply where
  | receipt (receipt : Receipt)
  | answer (answer : Answer)
  deriving DecidableEq, Inhabited, Repr

namespace Database

/-- The answer to a query. -/
def answer (db : Database) : Query → Answer
  | .search options => .commands (db.store.search options)
  | .searchItems term maxResults => .items (db.store.searchItems term maxResults)
  | .filterValues => .filterValues db.store.filterValues
  | .repositoryBreakdown => .breakdown db.store.repositoryBreakdown
  | .listNames => .names db.store.listNames
  | .itemsOf name => .items (db.store.itemsOf name)
  | .stats => .stats db.stats

section

variable {m : Type → Type} [Monad m] [DiskAccess m]

/-- The database after a request, and the reply. -/
def handle (db : Database) : Request → m (Database × Reply)
  | .edit t => do
    let (after, receipt) ← db.edit t.clock t.edit
    return (after, .receipt receipt)
  | .ask query => return (db, .answer (db.answer query))

/-- The database after requests, one after another, and the replies. -/
def serve (db : Database) : List Request → m (Database × List Reply)
  | [] => return (db, [])
  | r :: later => do
    let (after, reply) ← db.handle r
    let (last, replies) ← after.serve later
    return (last, reply :: replies)

end

/-! ## Opening -/

section

variable {σ : Type} [DiskAccess (StateM σ)] {R : σ → σ → Prop}

theorem keeps_loadStore (h : Harmless R) (p : Path) : Keeps R (loadStore p) := by
  refine h.bind (h.makeRoom p) fun room => ?_
  cases room with
  | error fault => exact h.pure _
  | ok done =>
    refine h.bind (h.isThere p) fun there => ?_
    cases there with
    | false => exact h.pure _
    | true =>
      refine h.bind (h.readText p) fun result => ?_
      cases result with
      | error fault => exact h.pure _
      | ok text =>
        simp only
        cases Store.ofText text <;> exact h.pure _

theorem keeps_open? (h : Harmless R) (p : Path) : Keeps R (open? p) := by
  refine h.bind (keeps_loadStore h p) fun loaded => ?_
  cases loaded <;> exact h.pure _

/-- **Opening does no harm**, whether it succeeds or not. -/
theorem keeps_openOrDegrade (h : Harmless R) (p : Path) : Keeps R (openOrDegrade p) := by
  refine h.bind (keeps_open? h p) fun opened => ?_
  cases opened <;> exact h.pure _

theorem eq_inMemory_of_openOrDegrade_failed {p : Path} {w w' : σ} {db : Database} {e : Error}
    (h : (openOrDegrade p : StateM σ _).run w = ((db, some e), w')) : db = inMemory := by
  unfold openOrDegrade at h
  rw [StateT.run_bind] at h
  rcases hopen : (open? p : StateM σ _).run w with ⟨cause | opened, after⟩
  · rw [hopen] at h
    cases h
    rfl
  · -- what opened is given without an error
    rw [hopen] at h
    cases h

end

/-! ## Serving -/

section

variable {m : Type → Type} [Monad m] [LawfulMonad m] [DiskAccess m] {db : Database}

/-- Without a snapshot, an edit is a matter of the store alone. -/
theorem edit_of_no_snapshot (h : db.snapshot? = none) (clock : Clock) (e : Edit) :
    (db.edit clock e : m _) =
      pure ({ db with store := db.store.edit clock e }, db.store.receipt e) := by
  unfold edit persist
  simp only [h, pure_bind]

end

variable {db : Database}

/-- A database without a snapshot handles a request wherever it is the same way, and without a
request to the disk. -/
theorem handle_of_no_snapshot (h : db.snapshot? = none) (r : Request) :
    ∃ after reply, after.snapshot? = none ∧
      ∀ (m : Type → Type) [Monad m] [LawfulMonad m] [DiskAccess m],
        (db.handle r : m _) = pure (after, reply) := by
  cases r with
  | ask query => exact ⟨db, .answer (db.answer query), h, fun m => rfl⟩
  | edit t =>
    refine ⟨{ db with store := db.store.edit t.clock t.edit }, .receipt (db.store.receipt t.edit),
      h, fun m => ?_⟩
    intro _ _ _
    unfold handle
    simp only [edit_of_no_snapshot h, pure_bind]

/-- **What a database without a snapshot does is no matter of the disk**: one and the same last
database and replies, in any monad. -/
theorem serve_of_no_snapshot (h : db.snapshot? = none) (requests : List Request) :
    ∃ last replies, ∀ (m : Type → Type) [Monad m] [LawfulMonad m] [DiskAccess m],
      (db.serve requests : m _) = pure (last, replies) := by
  -- for any database without a snapshot, since each request leaves another one
  induction requests generalizing db with
  | nil => exact ⟨db, [], fun m => rfl⟩
  | cons r later ih =>
    obtain ⟨after, reply, hafter, hhandle⟩ := handle_of_no_snapshot h r
    obtain ⟨last, replies, hserve⟩ := ih hafter
    refine ⟨last, reply :: replies, fun m => ?_⟩
    intro _ _ _
    unfold serve
    simp only [hhandle m, hserve m, pure_bind]

/-- **A database that could not be opened never harms a file.** The opening that failed keeps every
file, byte for byte. What is asked of the database afterwards leaves the disk just as it is, and
the database answers as one in memory does anywhere else. -/
theorem serve_of_openOrDegrade_failed {p : Path} {w w' : GuardedDisk} {e : Error}
    (h : (openOrDegrade p : StateM GuardedDisk _).run w = ((db, some e), w')) :
    w.disk.FilesKept w'.disk ∧
      (∀ q bytes, w.disk.bytesAt q = .ok bytes → w'.disk.bytesAt q = .ok bytes) ∧
      ∀ requests, ∃ last replies,
        (db.serve requests : StateM GuardedDisk _).run w' = ((last, replies), w') ∧
          ∀ elsewhere, (inMemory.serve requests : StateM GuardedDisk _).run elsewhere =
            ((last, replies), elsewhere) := by
  have hkept : w.disk.FilesKept w'.disk := by
    have hkeeps := keeps_openOrDegrade GuardedDisk.harmless_filesKept p w
    rwa [h] at hkeeps
  refine ⟨hkept, fun q bytes => hkept.bytesAt_eq_ok, fun requests => ?_⟩
  obtain rfl := eq_inMemory_of_openOrDegrade_failed h
  have hplace : inMemory.snapshot? = none := rfl
  obtain ⟨last, replies, hserve⟩ := serve_of_no_snapshot hplace requests
  have hrun (there : GuardedDisk) :
      (inMemory.serve requests : StateM GuardedDisk _).run there = ((last, replies), there) := by
    rw [hserve]
    rfl
  exact ⟨last, replies, hrun w', hrun⟩

/-- A file that is no JSON text: it stays as it is, and the database gives the number one. -/
theorem serve_of_openOrDegrade_malformed :
    let w : GuardedDisk := { disk := diskOf "\x7b not json" }
    let requests : List Request := [.edit ⟨fun _ => "", .insertItem default⟩, .ask (.itemsOf "")]
    (∃ e, (openOrDegrade ⟨"index.json"⟩ : StateM GuardedDisk _).run w = ((inMemory, some e), w)) ∧
      ∃ last, (inMemory.serve requests : StateM GuardedDisk _).run w =
        ((last, [.receipt (.number 1), .answer (.items [.ofDraft 1 "" default])]), w) := by
  have hopen : (openOrDegrade ⟨"index.json"⟩ : StateM GuardedDisk _).run
      { disk := diskOf "\x7b not json" } =
        ((inMemory, some (.indexUnavailable ⟨"index.json"⟩
          "Serialization error: the text is not a JSON value")),
          { disk := diskOf "\x7b not json" }) := by rfl
  intro w requests
  obtain ⟨-, -, hserve⟩ := serve_of_openOrDegrade_failed hopen
  obtain ⟨last, replies, hrun, -⟩ := hserve requests
  have hreplies : ((inMemory.serve requests : StateM GuardedDisk _).run w).1.2 =
      [.receipt (.number 1), .answer (.items [.ofDraft 1 "" default])] := by rfl
  rw [hrun] at hreplies
  obtain rfl : replies = _ := hreplies
  exact ⟨⟨_, hopen⟩, last, hrun⟩

end Database

end VoiceIndex
