import VoiceIndex.Proofs.Cli.Search
import VoiceIndex.Proofs.Index.Degraded
import VoiceIndex.Proofs.Index.Import

/-!
# Calls that leave the index alone

Only an import and a clearing change the snapshot, and each command comes to them last, after
everything in it that can fail. So a call that fails changes no file (`safeIfFailing_command`). Nor
does a call of a command that only reads (`safe_command`), or a search that does not make the index
anew (`runSearch_of_not_autoIndexes`). Such calls may make folders, in which the index is to lie,
and nothing else: the files of the disk stay as they are (`run_keeps_files`). But a path that goes
back from a folder that was missing may lead to one of them only now (`index_comes_within_reach`).
-/

namespace VoiceIndex.Cli

open DiskAccess

variable {σ α β : Type} {R : σ → σ → Prop} {x : Action (StateM σ) α} {f : α → Action (StateM σ) β}

/-! ## Actions that are safe -/

/-- Whatever comes of the action, it keeps to the relation. -/
def Safe (R : σ → σ → Prop) (x : Action (StateM σ) α) : Prop := ∀ t w, R w (acted x t w).2

/-- The action keeps to the relation if it fails. -/
def SafeIfFailing (R : σ → σ → Prop) (x : Action (StateM σ) α) : Prop :=
  ∀ t w e, (acted x t w).1.1 = .error e → R w (acted x t w).2

/-- The action does not fail. -/
def Succeeds (x : Action (StateM σ) α) : Prop := ∀ t w, ∃ a, (acted x t w).1.1 = .ok a

theorem Safe.ifFailing (h : Safe R x) : SafeIfFailing R x := fun t w _ _ => h t w

theorem Succeeds.safeIfFailing (h : Succeeds x) : SafeIfFailing R x := by
  intro t w e he
  obtain ⟨a, ha⟩ := h t w
  rw [ha] at he
  cases he

theorem Succeeds.bind (hx : Succeeds x) (hf : ∀ a, Succeeds (f a)) : Succeeds (x >>= f) := by
  intro t w
  obtain ⟨a, ha⟩ := hx t w
  rcases hacted : acted x t w with ⟨⟨result, t'⟩, w'⟩
  obtain rfl : result = .ok a := by rw [hacted] at ha; exact ha
  rw [acted_bind_ok hacted]
  exact hf a t' w'

/-- What comes last may do anything if it does not fail. -/
theorem SafeIfFailing.bind_succeeds (hx : SafeIfFailing R x) (hf : ∀ a, Succeeds (f a)) :
    SafeIfFailing R (x >>= f) := by
  intro t w e he
  rcases hacted : acted x t w with ⟨⟨e' | a, t'⟩, w'⟩
  · have hsafe := hx t w e' (by rw [hacted])
    rw [acted_bind_error hacted]
    rwa [hacted] at hsafe
  · rw [acted_bind_ok hacted] at he
    obtain ⟨b, hb⟩ := hf a t' w'
    rw [hb] at he
    cases he

theorem Shows.succeeds {x : Action (StateM σ) Unit} (h : Shows x) : Succeeds x := by
  intro t w
  obtain ⟨t', hacted⟩ := h t w
  exact ⟨(), by rw [hacted]⟩

theorem acted_onDisk_eq (y : StateM σ α) (t : Transcript) (w : σ) :
    acted (onDisk y) t w = ((.ok (y.run w).1, t), (y.run w).2) := acted_onDisk rfl

theorem succeeds_onDisk (y : StateM σ α) : Succeeds (onDisk y) := by
  intro t w
  exact ⟨(y.run w).1, by rw [acted_onDisk_eq]⟩

theorem safe_onDisk {y : StateM σ α} (hy : Keeps R y) : Safe R (onDisk y) := by
  intro t w
  rw [acted_onDisk_eq]
  exact hy w

theorem succeeds_pure (a : α) : Succeeds (pure a : Action (StateM σ) α) := fun _ _ => ⟨a, rfl⟩

section

variable [DiskAccess (StateM σ)]

theorem Safe.bind (h : Quiet R) (hx : Safe R x) (hf : ∀ a, Safe R (f a)) : Safe R (x >>= f) := by
  intro t w
  have hfirst := hx t w
  rcases hacted : acted x t w with ⟨⟨e | a, t'⟩, w'⟩ <;> rw [hacted] at hfirst
  · rw [acted_bind_error hacted]
    exact hfirst
  · rw [acted_bind_ok hacted]
    exact h.trans hfirst (hf a t' w')

theorem SafeIfFailing.bind (h : Quiet R) (hx : Safe R x) (hf : ∀ a, SafeIfFailing R (f a)) :
    SafeIfFailing R (x >>= f) := by
  intro t w e he
  have hfirst := hx t w
  rcases hacted : acted x t w with ⟨⟨e' | a, t'⟩, w'⟩ <;> rw [hacted] at hfirst
  · rw [acted_bind_error hacted]
    exact hfirst
  · rw [acted_bind_ok hacted] at he ⊢
    exact h.trans hfirst (hf a t' w' e he)

theorem safe_pure (h : Quiet R) (a : α) : Safe R (pure a : Action (StateM σ) α) :=
  fun _ w => h.refl w

theorem safe_throw (h : Quiet R) (e : Error) : Safe R (throw e : Action (StateM σ) α) :=
  fun _ w => h.refl w

theorem safe_orFail (h : Quiet R) (result : Except Error α) :
    Safe R (orFail result : Action (StateM σ) α) := by
  intro t w
  rw [acted_orFail]
  exact h.refl w

theorem Shows.safe (h : Quiet R) {x : Action (StateM σ) Unit} (hx : Shows x) : Safe R x := by
  intro t w
  obtain ⟨t', hacted⟩ := hx t w
  rw [hacted]
  exact h.refl w

/-! ## What commands share -/

variable {env : Environment} {settings : Settings} {args : List String} {clock : Clock}

theorem safe_loadSettings (h : Quiet R) (env : Environment) :
    Safe R (loadSettings env : Action (StateM σ) Settings) :=
  .bind h (safe_orFail h _) fun place =>
    .bind h (safe_onDisk (keeps_load h place)) fun loaded => safe_orFail h loaded

theorem safe_openIndex (h : Harmless R) (env : Environment) (settings : Settings) :
    Safe R (openIndex env settings : Action (StateM σ) Database) := by
  refine .bind h.toQuiet (safe_orFail h.toQuiet _) fun place => ?_
  refine .bind h.toQuiet (safe_onDisk (Database.keeps_openOrDegrade h place)) fun opened => ?_
  obtain ⟨db, failure⟩ := opened
  cases failure with
  | none => exact safe_pure h.toQuiet db
  | some e => exact .bind h.toQuiet ((shows_warn _).safe h.toQuiet) fun _ => safe_pure h.toQuiet db

/-- An import that fails has done nothing. -/
theorem safeIfFailing_importScan (h : Quiet R) (clock : Clock) (mode : ImportMode) (root : Path)
    (report : ScanReport) (db : Database) :
    SafeIfFailing R (do orFail (← onDisk (db.importScan clock mode root report)) :
      Action (StateM σ) _) := by
  intro t w e he
  rw [acted_bind_ok (acted_onDisk_eq _ t w), acted_orFail] at he ⊢
  by_cases hrefused : mode = .refresh ∧ report.commandFiles = []
  · obtain ⟨rfl, hnone⟩ := hrefused
    rw [Database.run_importScan_of_no_commandFiles hnone]
    exact h.refl w
  · obtain ⟨w', hrun⟩ := Database.exists_run_importScan hrefused clock root db w
    rw [hrun] at he
    cases he

theorem safeIfFailing_indexFolder (h : Quiet R) (clock : Clock) (mode : ImportMode) (root : Path)
    (db : Database) :
    SafeIfFailing R (indexFolder clock mode root db : Action (StateM σ) _) := by
  refine .bind h (safe_onDisk (keeps_scan h root)) fun scanned => ?_
  refine .bind h (safe_orFail h scanned) fun report => ?_
  have hwarns : Shows (report.skipped.forM fun skipped =>
      warn ("  (skipped " ++ skipped.1.text ++ ": " ++ skipped.2.text ++ ")") :
      Action (StateM σ) Unit) := shows_forM (fun _ => shows_warn _) report.skipped
  exact .bind h (hwarns.safe h) fun _ => safeIfFailing_importScan h clock mode root report db

/-! ## Commands -/

/-- What the command `index` does once the folder is known. -/
def runIndexAt {m : Type → Type} [Monad m] [DiskAccess m] (clock : Clock) (env : Environment)
    (settings : Settings) (root : Path) : Action m Unit := do
  let db ← openIndex env settings
  say ("Indexing " ++ root.text ++ " ...")
  let (_, commands, lists) ← indexFolder clock .refresh root db
  say ("✓ " ++ Text.decimal commands.recordsImported ++ " commands from " ++
    Text.decimal commands.filesProcessed ++ " files")
  say ("✓ " ++ Text.decimal lists.recordsImported ++ " list items from " ++
    Text.decimal lists.filesProcessed ++ " files")

theorem safeIfFailing_runIndexAt (h : Harmless R) (clock : Clock) (env : Environment)
    (settings : Settings) (root : Path) :
    SafeIfFailing R (runIndexAt clock env settings root : Action (StateM σ) Unit) := by
  refine .bind h.toQuiet (safe_openIndex h env settings) fun db => ?_
  refine .bind h.toQuiet ((shows_say _).safe h.toQuiet) fun _ => ?_
  refine (safeIfFailing_indexFolder h.toQuiet clock .refresh root db).bind_succeeds fun made => ?_
  exact .bind (shows_say _).succeeds fun _ => (shows_say _).succeeds

theorem safeIfFailing_runIndex (h : Harmless R) (clock : Clock) (env : Environment)
    (args : List String) : SafeIfFailing R (runIndex clock env args : Action (StateM σ) Unit) := by
  refine .bind h.toQuiet (safe_loadSettings h.toQuiet env) fun settings => ?_
  cases args with
  | nil =>
    refine .bind h.toQuiet (safe_onDisk (keeps_userFolder h.toQuiet settings env)) fun root? => ?_
    cases root? with
    | none => exact (safe_throw h.toQuiet _).ifFailing
    | some root => exact safeIfFailing_runIndexAt h clock env settings root
  | cons path rest => exact safeIfFailing_runIndexAt h clock env settings ⟨path⟩

theorem safeIfFailing_runImport (h : Harmless R) (clock : Clock) (env : Environment)
    (args : List String) : SafeIfFailing R (runImport clock env args : Action (StateM σ) Unit) := by
  unfold runImport
  cases args with
  | nil => exact ((shows_warn _).safe h.toQuiet).ifFailing
  | cons path rest =>
    refine .bind h.toQuiet (safe_loadSettings h.toQuiet env) fun settings => ?_
    refine .bind h.toQuiet (safe_openIndex h env settings) fun db => ?_
    refine .bind h.toQuiet (safe_onDisk (h.isFolder _)) fun isFolder => ?_
    cases isFolder with
    | true =>
      refine (safeIfFailing_indexFolder h.toQuiet clock .append _ db).bind_succeeds fun added => ?_
      exact (shows_say _).succeeds
    | false =>
      refine .bind h.toQuiet (safe_onDisk (h.readText _)) fun read => ?_
      cases read with
      | error fault => exact (safe_throw h.toQuiet _).ifFailing
      | ok content =>
        refine Succeeds.safeIfFailing (.bind (succeeds_onDisk _) fun added => ?_)
        exact (shows_say _).succeeds

theorem safeIfFailing_runClear (h : Harmless R) (clock : Clock) (env : Environment)
    (args : List String) : SafeIfFailing R (runClear clock env args : Action (StateM σ) Unit) := by
  refine .bind h.toQuiet (safe_loadSettings h.toQuiet env) fun settings => ?_
  refine .bind h.toQuiet (safe_openIndex h env settings) fun db => ?_
  simp only
  cases clearing? (args.head?.getD "all") with
  | none => exact ((shows_warn _).safe h.toQuiet).ifFailing
  | some change =>
    exact Succeeds.safeIfFailing (.bind (succeeds_onDisk _) fun _ => (shows_say _).succeeds)

/-- What a search settles before it looks into the index: what it is for, the index that was
opened, and the folder from which it makes the index anew first, if it does. -/
def planSearch {m : Type → Type} [Monad m] [DiskAccess m] (env : Environment)
    (args : List String) : Action m (SearchOptions × Database × Option Path) := do
  let settings ← loadSettings env
  let options ← orFail (searchOptions settings args)
  let db ← openIndex env settings
  if db.store.commands.isEmpty && settings.enableAutoIndexing then
    return (options, db, ← onDisk (settings.userFolder env))
  else return (options, db, none)

/-- The index that a search looks into, once this is settled. -/
def indexAsPlanned {m : Type → Type} [Monad m] [DiskAccess m] (clock : Clock) (db : Database) :
    Option Path → Action m Database
  | none => return db
  | some root => do
    say ("Index is empty, indexing " ++ root.text ++ " first...")
    let (db, _, _) ← indexFolder clock .refresh root db
    return db

theorem runSearch_eq (clock : Clock) (env : Environment) (args : List String) :
    (runSearch clock env args : Action (StateM σ) Unit) = (do
      let (options, db, root?) ← planSearch env args
      let db ← indexAsPlanned clock db root?
      sayAll (searchLines options (db.store.search options))) := by
  unfold runSearch planSearch indexForSearch
  simp only [bind_assoc]
  refine bind_congr fun settings => bind_congr fun options => bind_congr fun db => ?_
  split_ifs
  · simp only [bind_assoc, pure_bind]
    refine bind_congr fun root? => ?_
    cases root? <;> rfl
  · simp only [pure_bind, indexAsPlanned]

theorem safe_planSearch (h : Harmless R) (env : Environment) (args : List String) :
    Safe R (planSearch env args : Action (StateM σ) _) := by
  refine .bind h.toQuiet (safe_loadSettings h.toQuiet env) fun settings => ?_
  refine .bind h.toQuiet (safe_orFail h.toQuiet _) fun options => ?_
  refine .bind h.toQuiet (safe_openIndex h env settings) fun db => ?_
  split_ifs
  · exact .bind h.toQuiet (safe_onDisk (keeps_userFolder h.toQuiet settings env)) fun root? =>
      safe_pure h.toQuiet _
  · exact safe_pure h.toQuiet _

theorem safeIfFailing_runSearch (h : Harmless R) (clock : Clock) (env : Environment)
    (args : List String) : SafeIfFailing R (runSearch clock env args : Action (StateM σ) Unit) := by
  rw [runSearch_eq]
  refine .bind h.toQuiet (safe_planSearch h env args) fun (options, db, root?) => ?_
  have hindex : SafeIfFailing R (indexAsPlanned clock db root? : Action (StateM σ) Database) := by
    cases root? with
    | none => exact (safe_pure h.toQuiet db).ifFailing
    | some root =>
      refine .bind h.toQuiet ((shows_say _).safe h.toQuiet) fun _ => ?_
      exact (safeIfFailing_indexFolder h.toQuiet clock .refresh root db).bind_succeeds fun made =>
        succeeds_pure made.1
  exact hindex.bind_succeeds fun db => (shows_sayAll _).succeeds

/-- A search with these arguments makes the index anew, before it looks into it. -/
def AutoIndexes (env : Environment) (args : List String) (w : σ) : Prop :=
  ∃ options db root t w', acted (planSearch env args) {} w = ((.ok (options, db, some root), t), w')

/-- A search that does not make the index anew keeps to the relation, whether it fails or not. -/
theorem runSearch_of_not_autoIndexes (h : Harmless R) {w : σ} (hnot : ¬ AutoIndexes env args w) :
    R w (acted (runSearch clock env args) {} w).2 := by
  have hplan := safe_planSearch h env args {} w
  rw [runSearch_eq]
  rcases hacted : acted (planSearch env args) {} w with ⟨⟨e | ⟨options, db, root?⟩, t⟩, w'⟩ <;>
    rw [hacted] at hplan
  · rw [acted_bind_error hacted]
    exact hplan
  · cases root? with
    | some root => exact absurd ⟨options, db, root, t, w', hacted⟩ hnot
    | none =>
      rw [acted_bind_ok hacted]
      obtain ⟨t', hshow⟩ := shows_sayAll (searchLines options (db.store.search options)) t w'
      show R w (acted (sayAll (searchLines options (db.store.search options))) t w').2
      rw [hshow]
      exact hplan

theorem safe_runLists (h : Harmless R) (env : Environment) (args : List String) :
    Safe R (runLists env args : Action (StateM σ) Unit) := by
  refine .bind h.toQuiet (safe_loadSettings h.toQuiet env) fun settings => ?_
  refine .bind h.toQuiet (safe_orFail h.toQuiet _) fun request => ?_
  refine .bind h.toQuiet (safe_openIndex h env settings) fun db => ?_
  exact (shows_sayAll _).safe h.toQuiet

theorem safe_runStatus (h : Harmless R) (env : Environment) :
    Safe R (runStatus env : Action (StateM σ) Unit) := by
  refine .bind h.toQuiet (safe_loadSettings h.toQuiet env) fun settings => ?_
  refine .bind h.toQuiet (safe_openIndex h env settings) fun db => ?_
  refine .bind h.toQuiet (safe_onDisk (keeps_userFolder h.toQuiet settings env)) fun root? => ?_
  exact (shows_sayAll _).safe h.toQuiet

theorem safe_runConfig (h : Quiet R) (env : Environment) :
    Safe R (runConfig env : Action (StateM σ) Unit) := by
  refine .bind h (safe_orFail h _) fun place => ?_
  refine .bind h (safe_loadSettings h env) fun settings => ?_
  refine .bind h ((shows_say _).safe h) fun _ => ?_
  refine .bind h (safe_orFail h _) fun path => ?_
  exact .bind h ((shows_say _).safe h) fun _ => (shows_say _).safe h

theorem safe_runClear_of_unknown (h : Harmless R) (clock : Clock) (env : Environment)
    (hunknown : clearing? (args.head?.getD "all") = none) :
    Safe R (runClear clock env args : Action (StateM σ) Unit) := by
  refine .bind h.toQuiet (safe_loadSettings h.toQuiet env) fun settings => ?_
  refine .bind h.toQuiet (safe_openIndex h env settings) fun db => ?_
  simp only [hunknown]
  exact (shows_warn _).safe h.toQuiet

/-! ## Calls -/

/-- The arguments ask for something that does not change an index: they name none of the four
commands that may, or leave out what to import, or name nothing that can be cleared. -/
def OnlyReads : List String → Prop
  | [] => True
  | name :: args =>
    name ∉ ["index", "import", "search", "clear"] ∨ name = "import" ∧ args = [] ∨
      name = "clear" ∧ clearing? (args.head?.getD "all") = none

/-- **A call that only reads keeps to the relation**, whether it fails or not. -/
theorem safe_command (h : Harmless R) (clock : Clock) (env : Environment) {args : List String}
    (honly : OnlyReads args) : Safe R (command clock env args : Action (StateM σ) Unit) := by
  have hshows {x : Action (StateM σ) Unit} (hx : Shows x) : Safe R x := hx.safe h.toQuiet
  cases args with
  | nil => exact hshows (shows_sayAll usage)
  | cons name args =>
    rcases honly with hname | ⟨rfl, rfl⟩ | ⟨rfl, hunknown⟩
    · unfold command
      simp only
      split
      case h_1 | h_2 | h_3 | h_6 => simp at hname
      case h_4 => exact safe_runLists h env args
      case h_5 => exact safe_runStatus h env
      case h_7 => exact safe_runConfig h.toQuiet env
      case h_8 | h_9 | h_10 => exact hshows (shows_say versionLine)
      case h_11 | h_12 | h_13 => exact hshows (shows_sayAll usage)
      case h_14 => exact .bind h.toQuiet (hshows (shows_warn _)) fun _ => hshows (shows_sayAll usage)
    · exact hshows (shows_warn _)
    · exact safe_runClear_of_unknown h clock env hunknown

/-- **A call that fails keeps to the relation.** -/
theorem safeIfFailing_command (h : Harmless R) (clock : Clock) (env : Environment)
    (args : List String) : SafeIfFailing R (command clock env args : Action (StateM σ) Unit) := by
  by_cases honly : OnlyReads args
  · exact (safe_command h clock env honly).ifFailing
  · cases args with
    | nil => exact absurd trivial honly
    | cons name args =>
      have hname : name ∈ ["index", "import", "search", "clear"] :=
        not_not.1 fun hnot => honly (.inl hnot)
      simp only [List.mem_cons, List.not_mem_nil, or_false] at hname
      rcases hname with rfl | rfl | rfl | rfl
      · exact safeIfFailing_runIndex h clock env args
      · exact safeIfFailing_runImport h clock env args
      · exact safeIfFailing_runSearch h clock env args
      · exact safeIfFailing_runClear h clock env args

/-- A run keeps to the relation if it fails, if it only reads, or if it is a search that does not
make the index anew. -/
theorem run_keeps (h : Harmless R) (clock : Clock) (env : Environment) (argv : List String) (w : σ)
    (hcall : ((run clock env argv : StateM σ Outcome).run w).1.code = 1 ∨
      OnlyReads (argv.filter (· ≠ "--verbose")) ∨
      ∃ args, argv.filter (· ≠ "--verbose") = "search" :: args ∧ ¬ AutoIndexes env args w) :
    R w ((run clock env argv : StateM σ Outcome).run w).2 := by
  have hsafe := safeIfFailing_command h clock env (argv.filter (· ≠ "--verbose")) {} w
  rw [run_eq] at hcall ⊢
  rcases hacted : acted (command clock env (argv.filter (· ≠ "--verbose"))) {} w
    with ⟨⟨e | ⟨⟩, t⟩, w'⟩ <;> rw [hacted] at hcall hsafe
  · exact hsafe e rfl
  · rcases hcall with hcode | honly | ⟨args, hargs, hnot⟩
    · cases hcode
    · have hkept := safe_command h clock env honly {} w
      rwa [hacted] at hkept
    · have hkept : R w (acted (runSearch clock env args) {} w).2 :=
        runSearch_of_not_autoIndexes h hnot
      have hcommand : command clock env (argv.filter (· ≠ "--verbose")) =
          (runSearch clock env args : Action (StateM σ) Unit) := by
        rw [hargs]
        rfl
      rw [← hcommand, hacted] at hkept
      exact hkept

end

/-- **A call that fails or only reads leaves every file alone.** If a run ends with the code 1, if
its command is none of those that change an index, if there is nothing to import or no such thing to
clear, or if it is a search that does not make the index anew, then the files of the disk are the
same ones after it, byte for byte, and no file is missing or new, the snapshot among them. Folders
may have been made, so that a path with two dots in it may lead through a new folder to a file that
was there all along; at any other path there is the same file as before, or none as before. -/
theorem run_keeps_files (clock : Clock) (env : Environment) (argv : List String) (w : GuardedDisk) :
    let ended := (run clock env argv : StateM GuardedDisk Outcome).run w
    ended.1.code = 1 ∨ OnlyReads (argv.filter (· ≠ "--verbose")) ∨
        (∃ args, argv.filter (· ≠ "--verbose") = "search" :: args ∧ ¬ AutoIndexes env args w) →
      w.disk.FilesKept ended.2.disk ∧
      (∀ p bytes, w.disk.file? p = some bytes → ended.2.disk.file? p = some bytes) ∧
      ∀ p, (∃ place, w.disk.locate p = .ok place) ∨ ".." ∉ p.segments →
        ended.2.disk.file? p = w.disk.file? p := by
  intro ended hcall
  have hkept : w.disk.FilesKept ended.2.disk :=
    run_keeps GuardedDisk.harmless_filesKept clock env argv w hcall
  refine ⟨hkept, fun p bytes hfile => ?_, fun p hpath => ?_⟩
  · exact Disk.file?_eq_some_iff.2 (hkept.bytesAt_eq_ok (Disk.file?_eq_some_iff.1 hfile))
  · exact Disk.file?_congr fun bytes => hkept.bytesAt_iff hpath

/-- A home folder with an index. -/
def indexedDisk : Disk where
  top := .folder [("h", .folder [(".local", .folder [("share", .folder [("talon-search", .folder [
    ("talon-commands.json", .file "\x7b\x7d".toUTF8)])])])])]

/-- There is nothing to import at the path, and so the index stays as it is. -/
theorem run_keeps_files_missing :
    let w : GuardedDisk := { disk := indexedDisk }
    let ended := (run (fun _ => "") penHome ["import", "/h/a.talon"] :
      StateM GuardedDisk Outcome).run w
    ended.1.code = 1 ∧ indexedDisk.file? penPath = some "\x7b\x7d".toUTF8 ∧
      ended.2.disk.file? penPath = some "\x7b\x7d".toUTF8 := by
  intro w ended
  have hcode : ended.1.code = 1 := by decide +kernel
  have hthere : indexedDisk.file? penPath = some "\x7b\x7d".toUTF8 := by rfl
  have hkept := (run_keeps_files (fun _ => "") penHome ["import", "/h/a.talon"] w (.inl hcode)).2.1
  exact ⟨hcode, hthere, hkept penPath _ hthere⟩

/-- The settings put the index behind a folder that is missing and two dots. -/
def dottedDisk : Disk where
  top := .folder [
    ("home", .folder [(".config", .folder [("talon-search", .folder [("settings.json",
      .file "\x7b\"dataPath\": \"data/new/../index.json\"\x7d".toUTF8)])])]),
    ("data", .folder [("index.json", .file "\x7b\x7d".toUTF8)])]

/-- Nothing can be read at the path of this index. A call that only reads makes the missing folder,
and the path leads to a file. -/
theorem index_comes_within_reach :
    let w : GuardedDisk := { disk := dottedDisk }
    let env : Environment := { home? := some ⟨"/home"⟩ }
    let p : Path := ⟨"data/new/../index.json"⟩
    let ended := (run (fun _ => "") env ["lists"] : StateM GuardedDisk Outcome).run w
    (∃ settings, (acted (loadSettings env) {} w).1.1 = .ok settings ∧
      settings.indexPath env = .ok p) ∧ OnlyReads ["lists"] ∧
      dottedDisk.file? p = none ∧ ended.2.disk.file? p = some "\x7b\x7d".toUTF8 := by
  intro w env p ended
  have hsettings : (acted (loadSettings env) {} w).1.1.toOption = some { dataPath := some p } := by
    decide +kernel
  have hplace : ∃ settings, (acted (loadSettings env) {} w).1.1 = .ok settings ∧
      settings.indexPath env = .ok p := by
    rcases hloaded : (acted (loadSettings env) {} w).1.1 with e | settings <;>
      rw [hloaded] at hsettings
    · cases hsettings
    · exact ⟨settings, rfl, by rw [Option.some.inj hsettings]; rfl⟩
  have hbefore : dottedDisk.file? p = none := by decide +kernel
  have hafter : ended.2.disk.file? p = some "\x7b\x7d".toUTF8 := by decide +kernel
  exact ⟨hplace, .inl (by decide), hbefore, hafter⟩

end VoiceIndex.Cli
