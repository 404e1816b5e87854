import VoiceIndex.Cli.Run
import VoiceIndex.Proofs.Disk.Frame
import VoiceIndex.Proofs.Disk.Program

/-!
# Actions on a disk

An action gives a result or an error, adds to what is shown and leaves a disk, which `acted` puts
together. Showing lines does nothing else (`shows_forM`), and what is done before an index is made
is no more than reading (`keeps_load`, `keeps_userFolder`, `keeps_scan`).
-/

namespace VoiceIndex.Cli

open Disk

variable {σ α β : Type} {d d' : σ} {t t' : Transcript} {e : Error}

/-- What an action gives and all it has shown, and the disk it leaves. -/
def acted (x : Action (StateM σ) α) (t : Transcript) (d : σ) :
    (Except Error α × Transcript) × σ :=
  (x.run.run t).run d

/-! ## Steps -/

theorem acted_bind_ok {x : Action (StateM σ) α} {f : α → Action (StateM σ) β} {a : α}
    (h : acted x t d = ((.ok a, t'), d')) : acted (x >>= f) t d = acted (f a) t' d' := by
  unfold acted at h ⊢
  rw [ExceptT.run_bind, StateT.run_bind, run_bind_of h]

theorem acted_bind_error {x : Action (StateM σ) α} {f : α → Action (StateM σ) β}
    (h : acted x t d = ((.error e, t'), d')) :
    acted (x >>= f) t d = ((.error e, t'), d') := by
  unfold acted at h ⊢
  rw [ExceptT.run_bind, StateT.run_bind, run_bind_of h]
  rfl

theorem acted_say (line : String) (t : Transcript) (d : σ) :
    acted (say line) t d = ((.ok (), { t with out := t.out ++ line ++ "\n" }), d) := rfl

theorem acted_warn (line : String) (t : Transcript) (d : σ) :
    acted (warn line) t d = ((.ok (), { t with err := t.err ++ line ++ "\n" }), d) := rfl

theorem acted_orFail (result : Except Error α) (t : Transcript) (d : σ) :
    acted (orFail result) t d = ((result, t), d) := by
  cases result <;> rfl

theorem acted_onDisk {x : StateM σ α} {a : α} (h : x.run d = (a, d')) :
    acted (onDisk x) t d = ((.ok a, t), d') := by
  unfold acted onDisk
  rw [ExceptT.run_lift, StateT.run_map]
  have hlift : ((liftM x : StateT Transcript (StateM σ) α).run t).run d = ((a, t), d') := by
    show (x >>= fun a => pure (a, t)).run d = ((a, t), d')
    rw [run_bind_of h]
    rfl
  rw [StateT.run_map, hlift]
  rfl

/-- What comes after and leaves the disk alone does not count for the disk. -/
theorem disk_bind (x : Action (StateM σ) α) {f : α → Action (StateM σ) β}
    (hf : ∀ a t d, (acted (f a) t d).2 = d) (t : Transcript) (d : σ) :
    (acted (x >>= f) t d).2 = (acted x t d).2 := by
  rcases hx : acted x t d with ⟨⟨e | a, t'⟩, d'⟩
  · rw [acted_bind_error hx]
  · rw [acted_bind_ok hx, hf]

/-- A run ends where its command ends, and with the code 1 if this failed. -/
theorem run_eq [DiskAccess (StateM σ)] (clock : Clock) (env : Environment) (argv : List String)
    (d : σ) :
    (run clock env argv : StateM σ Outcome).run d =
      match acted (command clock env (argv.filter (· ≠ "--verbose"))) {} d with
      | ((.ok (), t), d') => (⟨0, t.out, t.err⟩, d')
      | ((.error e, t), d') => (⟨1, t.out, t.err ++ "Error: " ++ e.message ++ "\n"⟩, d') := by
  unfold run acted
  rcases hrun : ((command clock env (argv.filter (· ≠ "--verbose")) :
    Action (StateM σ) Unit).run.run {}).run d with ⟨⟨e | ⟨⟩, t⟩, d'⟩ <;>
  · rw [run_bind_of hrun]
    rfl

/-! ## Showing lines -/

/-- The action shows something and does nothing else. -/
def Shows (x : Action (StateM σ) Unit) : Prop :=
  ∀ t d, ∃ t', acted x t d = ((.ok (), t'), d)

theorem shows_say (line : String) : Shows (say line : Action (StateM σ) Unit) :=
  fun t d => ⟨_, acted_say line t d⟩

theorem shows_warn (line : String) : Shows (warn line : Action (StateM σ) Unit) :=
  fun t d => ⟨_, acted_warn line t d⟩

theorem shows_forM {f : α → Action (StateM σ) Unit} (h : ∀ a, Shows (f a)) (as : List α) :
    Shows (as.forM f) := by
  induction as with
  | nil => exact fun t d => ⟨t, rfl⟩
  | cons a as ih =>
    intro t d
    obtain ⟨t', hfirst⟩ := h a t d
    show ∃ t', acted (f a >>= fun _ => as.forM f) t d = ((.ok (), t'), d)
    rw [acted_bind_ok hfirst]
    exact ih t' d

theorem shows_sayAll (lines : List String) : Shows (sayAll lines : Action (StateM σ) Unit) :=
  shows_forM shows_say lines

/-! ## What is read before an index is made -/

section

variable {σ : Type} [DiskAccess (StateM σ)] {R : σ → σ → Prop}

theorem keeps_load (h : Quiet R) (p : Path) : Keeps R (Settings.load p) := by
  unfold Settings.load
  refine h.bind (h.isThere p) fun there => ?_
  cases there with
  | false => exact h.pure _
  | true =>
    refine h.bind (h.readText p) fun read => ?_
    cases read with
    | error fault => exact h.pure _
    | ok text =>
      simp only
      cases Settings.ofText text <;> exact h.pure _

theorem keeps_firstFolder? (h : Quiet R) (places : List Path) :
    Keeps R (UserFolder.firstFolder? places) := by
  induction places with
  | nil => exact h.pure none
  | cons p rest ih =>
    unfold UserFolder.firstFolder?
    refine h.bind (h.isFolder p) fun found => ?_
    cases found with
    | false => exact ih
    | true => exact h.pure (some p)

theorem keeps_userFolder (h : Quiet R) (settings : Settings) (env : Environment) :
    Keeps R (settings.userFolder env) := by
  unfold Settings.userFolder UserFolder.detect
  split
  · split_ifs
    · exact keeps_firstFolder? h _
    · exact h.pure _
  · exact keeps_firstFolder? h _

theorem keeps_readFile (h : Quiet R) (report : ScanReport) (p : Path) :
    Keeps R (UserFolder.readFile report p) := by
  unfold UserFolder.readFile
  split
  · exact h.pure _
  · exact h.bind (h.readText p) fun read => h.pure _

theorem keeps_meetEntry (h : Quiet R) (p : Path) (state : ScanReport × List Path)
    (entry : String × Except Fault Kind) : Keeps R (UserFolder.meetEntry p state entry) := by
  unfold UserFolder.meetEntry
  split
  · exact h.pure _
  · exact h.pure _
  · exact h.bind (keeps_readFile h _ _) fun report => h.pure _

theorem keeps_walk (h : Quiet R) (depth : Nat) (report : ScanReport) (p : Path) :
    Keeps R (UserFolder.walk depth report p) := by
  induction depth generalizing report p with
  | zero => exact h.pure _
  | succ depth ih =>
    unfold UserFolder.walk
    refine h.bind (h.listFolder p) fun listed => ?_
    cases listed with
    | error fault => exact h.pure _
    | ok listing => exact h.bind (h.foldlM (keeps_meetEntry h p) _ _) fun met => h.foldlM ih _ _

theorem keeps_scan (h : Quiet R) (root : Path) : Keeps R (UserFolder.scan root) := by
  unfold UserFolder.scan
  refine h.bind (h.isFolder root) fun found => ?_
  cases found with
  | false => exact h.pure _
  | true => exact h.bind (keeps_walk h _ _ root) fun report => h.pure _

end

/-- A program that leaves the disk as it is gives its result there. -/
theorem run_of_keeps_eq {x : StateM Disk α} (h : Keeps (fun d d' => d' = d) x) (d : Disk) :
    x.run d = ((x.run d).1, d) :=
  Prod.ext rfl (h d)

end VoiceIndex.Cli
