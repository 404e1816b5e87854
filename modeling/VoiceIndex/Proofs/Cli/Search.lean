import VoiceIndex.Proofs.Cli.Action
import VoiceIndex.Proofs.Index.Durability

/-!
# What a search does to the index

A search leaves the snapshot alone unless it makes the index anew, which it does for an index
without commands even if that holds list items. `reindexing?` says from what files it does, and
`LeavesIndex` when it does not; `recordsAt?_search` says what records the snapshot then holds.
-/

namespace VoiceIndex

open Disk Database

variable {clock : Clock} {d d₁ : Disk} {p : Path} {db : Database}

/-! ## What is kept -/

/-- The commands and the list items that are found when the path is opened. -/
def recordsAt? (d : Disk) (p : Path) : Option (List Command × List ListItem) :=
  match (opened d p).1 with
  | .ok db => some (db.store.commands, db.store.items)
  | .error _ => none

theorem recordsAt?_of_opened (h : opened d p = (.ok db, d₁)) :
    recordsAt? d p = some (db.store.commands, db.store.items) := by
  unfold recordsAt?
  rw [h]

theorem recordsAt?_of_bytesAt {text : String} {store : Store} (hb : d.bytesAt p = .ok text.toUTF8)
    (ht : Store.ofText text = .ok store) :
    recordsAt? d p = some (store.commands, store.items) :=
  recordsAt?_of_opened (opened_of_bytesAt hb ht)

/-- A store with records is kept in a file. -/
theorem exists_text_of_storeAt {store : Store} (h : storeAt d p = .ok store)
    (hne : store ≠ .empty) :
    ∃ text : String, d.bytesAt p = .ok text.toUTF8 ∧ Store.ofText text = .ok store := by
  unfold storeAt at h
  cases hkind : d.kindAt p with
  | none =>
    rw [hkind] at h
    cases h
    exact absurd rfl hne
  | some kind =>
    rw [hkind] at h
    cases htext : d.textAt p with
    | error fault => simp [htext] at h
    | ok text =>
      refine ⟨text, textAt_eq_ok_iff.1 htext, ?_⟩
      cases hstore : Store.ofText text <;> simp_all

/-- The records at the path are those of the store last saved, or those there were. -/
theorem recordsAt?_of_keptAfter {d' : Disk} {moments : List Moment}
    (hstore : storeAt d p = .ok db.store) (hne : db.store ≠ .empty)
    (h : d'.file? p = keptAfter (d.file? p) moments) :
    recordsAt? d' p = match lastSaved moments with
      | none => some (db.store.commands, db.store.items)
      | some m => some (m.db.store.commands, m.db.store.items) := by
  unfold keptAfter at h
  cases hlast : lastSaved moments with
  | none =>
    obtain ⟨text, hbytes, htext⟩ := exists_text_of_storeAt hstore hne
    rw [hlast, file?_eq_some_iff.2 hbytes] at h
    exact recordsAt?_of_bytesAt (file?_eq_some_iff.1 h) htext
  | some m =>
    rw [hlast] at h
    exact recordsAt?_of_bytesAt (file?_eq_some_iff.1 h) (Store.ofText_toText m.db.store)

/-! ## Making the index anew -/

/-- The edits that put what was found in a folder in the place of all records. -/
def ScanReport.refreshTurns (clock : Clock) (report : ScanReport) : List Turn := [
  ⟨clock, .refreshCommands
    (report.commandFiles.map fun file => CommandFile.commands file.path.text file.content).flatten⟩,
  ⟨clock, .refreshItems
    (report.listFiles.map fun file => ListFile.items file.path.text file.content).flatten⟩]

theorem run_importScan {report : ScanReport} (h : report.commandFiles ≠ []) (clock : Clock)
    (root : Path) (db : Database) (d : Disk) :
    ∃ found, (db.importScan clock .refresh root report : StateM Disk _).run d =
      (.ok found, diskAfter d (db.live d (report.refreshTurns clock))) := by
  let turn₁ : Turn := ⟨clock, .refreshCommands
    (report.commandFiles.map fun file => CommandFile.commands file.path.text file.content).flatten⟩
  let turn₂ : Turn := ⟨clock, .refreshItems
    (report.listFiles.map fun file => ListFile.items file.path.text file.content).flatten⟩
  let m₁ := db.turn d turn₁
  let m₂ := m₁.db.turn m₁.disk turn₂
  have hedit₁ : (db.edit clock turn₁.edit : StateM Disk _).run d =
      ((m₁.db, m₁.receipt), m₁.disk) := run_edit db d turn₁
  have hedit₂ : (m₁.db.edit clock turn₂.edit : StateM Disk _).run m₁.disk =
      ((m₂.db, m₂.receipt), m₂.disk) := run_edit m₁.db m₁.disk turn₂
  have hcommands : ∃ summary, (db.importCommandFiles clock .refresh report.commandFiles :
      StateM Disk _).run d = ((m₁.db, summary), m₁.disk) := by
    unfold importCommandFiles importDrafts ImportMode.commandEdit
    rw [run_bind_of hedit₁]
    exact ⟨_, rfl⟩
  have hlists : ∃ summary, (m₁.db.importListFiles clock .refresh report.listFiles :
      StateM Disk _).run m₁.disk = ((m₂.db, summary), m₂.disk) := by
    unfold importListFiles importItemDrafts ImportMode.itemEdit
    rw [run_bind_of hedit₂]
    exact ⟨_, rfl⟩
  obtain ⟨commands, hcommands⟩ := hcommands
  obtain ⟨lists, hlists⟩ := hlists
  refine ⟨(m₂.db, commands, lists), ?_⟩
  unfold importScan
  rw [if_neg (by simp [h]), run_bind_of hcommands]
  simp only
  rw [run_bind_of hlists]
  rfl

namespace Cli

variable {env : Environment} {settings : Settings} {args : List String} {t t' : Transcript}

/-- The files from which a search makes the index anew, if it does. -/
def reindexing? (env : Environment) (settings : Settings) (db : Database) (d : Disk) :
    Option ScanReport :=
  if db.store.commands.isEmpty && settings.enableAutoIndexing then
    match ((settings.userFolder env : StateM Disk _).run d).1 with
    | none => none
    | some root => match ((UserFolder.scan root : StateM Disk _).run d).1 with
      | .error _ => none
      | .ok report => if report.commandFiles = [] then none else some report
  else none

/-- A search leaves the index as it is: there is a command in it, or it is not to be made anew, or
no folder of voice commands is found, or no command file is found in it. -/
inductive LeavesIndex (env : Environment) (settings : Settings) (db : Database) (d : Disk) :
    Prop where
  | hasCommand (h : db.store.commands ≠ [])
  | switchedOff (h : settings.enableAutoIndexing = false)
  | noFolder (h : ((settings.userFolder env : StateM Disk _).run d).1 = none)
  | noCommandFile {root : Path}
      (hroot : ((settings.userFolder env : StateM Disk _).run d).1 = some root)
      (h : ∀ report, ((UserFolder.scan root : StateM Disk _).run d).1 = .ok report →
        report.commandFiles = [])

theorem reindexing?_eq_none_iff :
    reindexing? env settings db d = none ↔ LeavesIndex env settings db d := by
  unfold reindexing?
  by_cases hwanted : (db.store.commands.isEmpty && settings.enableAutoIndexing) = true
  · obtain ⟨hempty, hon⟩ := Bool.and_eq_true_iff.1 hwanted
    rw [if_pos hwanted]
    cases hfolder : ((settings.userFolder env : StateM Disk _).run d).1 with
    | none => exact iff_of_true rfl (.noFolder hfolder)
    | some root =>
      constructor
      · intro h
        refine .noCommandFile hfolder fun report hreport => ?_
        simpa [hreport] using h
      · rintro (hcommand | hoff | hnone | ⟨hroot, h⟩)
        · exact absurd (List.isEmpty_iff.1 hempty) hcommand
        · rw [hoff] at hon
          cases hon
        · rw [hfolder] at hnone
          cases hnone
        · obtain rfl := Option.some.inj (hfolder.symm.trans hroot)
          simp only
          cases hscan : ((UserFolder.scan root : StateM Disk _).run d).1 with
          | error e => rfl
          | ok report => exact if_pos (h report hscan)
  · rw [if_neg hwanted, iff_true_left rfl]
    cases hon : settings.enableAutoIndexing with
    | false => exact .switchedOff hon
    | true => exact .hasCommand (by simpa [hon] using hwanted)

/-- Without a command file in the folder nothing changes; with one, the index is made anew. -/
theorem disk_indexFolder (root : Path) (db : Database) (t : Transcript) (d : Disk) :
    (acted (indexFolder clock .refresh root db) t d).2 =
      match ((UserFolder.scan root : StateM Disk _).run d).1 with
      | .error _ => d
      | .ok report =>
        if report.commandFiles = [] then d
        else diskAfter d (db.live d (report.refreshTurns clock)) := by
  unfold indexFolder
  rw [acted_bind_ok (acted_onDisk (run_of_keeps_eq (keeps_scan quiet_eq root) d))]
  cases ((UserFolder.scan root : StateM Disk _).run d).1 with
  | error e => rw [acted_bind_error (acted_orFail _ t d)]
  | ok report =>
    rw [acted_bind_ok (acted_orFail _ t d)]
    obtain ⟨t', hwarn⟩ := shows_forM (fun skipped : Path × Fault =>
      shows_warn ("  (skipped " ++ skipped.1.text ++ ": " ++ skipped.2.text ++ ")"))
        report.skipped t d
    simp only
    rw [acted_bind_ok hwarn]
    by_cases hnone : report.commandFiles = []
    · have hscan : (db.importScan clock .refresh root report : StateM Disk _).run d =
          (.error (.noCommandFiles root.text), d) := by
        unfold importScan
        rw [if_pos ⟨rfl, hnone⟩]
        rfl
      rw [if_pos hnone, acted_bind_ok (acted_onDisk hscan), acted_orFail]
    · obtain ⟨found, hscan⟩ := run_importScan hnone clock root db d
      rw [if_neg hnone, acted_bind_ok (acted_onDisk hscan), acted_orFail]

/-- The index that opens is the one that is used. -/
theorem acted_openIndex (hplace : settings.indexPath env = .ok p)
    (hopen : opened d p = (.ok db, d₁)) :
    acted (openIndex env settings) t d = ((.ok db, t), d₁) := by
  have hopen' : (openOrDegrade p : StateM Disk _).run d = ((db, none), d₁) := by
    unfold openOrDegrade
    unfold opened at hopen
    rw [run_bind_of hopen]
    rfl
  unfold openIndex
  rw [hplace, acted_bind_ok (acted_orFail _ t d), acted_bind_ok (acted_onDisk hopen')]
  rfl

/-- The disk on which a search looks into the index. -/
theorem disk_indexForSearch (hplace : settings.indexPath env = .ok p)
    (hopen : opened d p = (.ok db, d₁)) :
    (acted (indexForSearch clock env settings) t d).2 =
      match reindexing? env settings db d₁ with
      | none => d₁
      | some report => diskAfter d₁ (db.live d₁ (report.refreshTurns clock)) := by
  unfold indexForSearch reindexing?
  rw [acted_bind_ok (acted_openIndex hplace hopen)]
  by_cases hwanted : (db.store.commands.isEmpty && settings.enableAutoIndexing) = true
  · rw [if_pos hwanted, if_pos hwanted,
      acted_bind_ok (acted_onDisk (run_of_keeps_eq (keeps_userFolder quiet_eq settings env) d₁))]
    cases ((settings.userFolder env : StateM Disk _).run d₁).1 with
    | none => rfl
    | some root =>
      simp only
      rw [acted_bind_ok (acted_say _ t d₁), disk_bind _ (fun _ _ _ => rfl), disk_indexFolder]
      cases ((UserFolder.scan root : StateM Disk _).run d₁).1 with
      | error e => rfl
      | ok report =>
        by_cases hnone : report.commandFiles = []
        · simp only [if_pos hnone]
        · simp only [if_neg hnone]
  · rw [if_neg hwanted, if_neg hwanted]
    rfl

/-- The disk after a search. One with arguments that cannot be read does not come to the index. -/
theorem disk_runSearch {place : Path} (hsettings : env.settingsPath = .ok place)
    (hload : ((Settings.load place : StateM Disk _).run d).1 = .ok settings)
    (hplace : settings.indexPath env = .ok p) (hopen : opened d p = (.ok db, d₁)) :
    (acted (runSearch clock env args) t d).2 =
      match searchOptions settings args with
      | .error _ => d
      | .ok _ => match reindexing? env settings db d₁ with
        | none => d₁
        | some report => diskAfter d₁ (db.live d₁ (report.refreshTurns clock)) := by
  have hread : (Settings.load place : StateM Disk _).run d = (.ok settings, d) := by
    rw [run_of_keeps_eq (keeps_load quiet_eq place) d, hload]
  have hloaded : acted (loadSettings env) t d = ((.ok settings, t), d) := by
    unfold loadSettings
    rw [hsettings, acted_bind_ok (acted_orFail _ t d), acted_bind_ok (acted_onDisk hread),
      acted_orFail]
  unfold runSearch
  rw [acted_bind_ok hloaded]
  cases searchOptions settings args with
  | error e => rw [acted_bind_error (acted_orFail _ t d)]
  | ok options =>
    rw [acted_bind_ok (acted_orFail _ t d), disk_bind, disk_indexForSearch hplace hopen]
    intro db t d
    obtain ⟨t', hshow⟩ := shows_sayAll (searchLines options (db.store.search options)) t d
    rw [hshow]

theorem disk_run_search {argv : List String}
    (hargv : argv.filter (· ≠ "--verbose") = "search" :: args) :
    ((run clock env argv : StateM Disk _).run d).2 =
      (acted (runSearch clock env args) {} d).2 := by
  have hcommand : command clock env (argv.filter (· ≠ "--verbose")) =
      runSearch (m := StateM Disk) clock env args := by
    rw [hargv]
    rfl
  rw [run_eq, hcommand]
  rcases acted (runSearch clock env args) {} d with ⟨⟨e | ⟨⟩, t⟩, d'⟩ <;> rfl

/-! ## The records after a search -/

/-- The records that the snapshot holds after a search are those it held before, or those of the
last store that was saved while the index was made anew. -/
theorem recordsAt?_search {argv : List String} {place : Path}
    (hargv : argv.filter (· ≠ "--verbose") = "search" :: args)
    (hsettings : env.settingsPath = .ok place)
    (hload : ((Settings.load place : StateM Disk _).run d).1 = .ok settings)
    (hplace : settings.indexPath env = .ok p) (hopen : opened d p = (.ok db, d₁))
    (hrecords : db.store.commands ≠ [] ∨ db.store.items ≠ []) :
    recordsAt? ((run clock env argv : StateM Disk _).run d).2 p =
      match searchOptions settings args with
      | .error _ => some (db.store.commands, db.store.items)
      | .ok _ => match reindexing? env settings db d₁ with
        | none => some (db.store.commands, db.store.items)
        | some report => match lastSaved (db.live d₁ (report.refreshTurns clock)) with
          | none => some (db.store.commands, db.store.items)
          | some m => some (m.db.store.commands, m.db.store.items) := by
  have hne : db.store ≠ .empty := by
    intro hempty
    rw [hempty] at hrecords
    exact hrecords.elim (fun h => h rfl) (fun h => h rfl)
  obtain ⟨-, hstore, hsnapshot⟩ := opened_eq_ok_iff.1 hopen
  rw [disk_run_search hargv, disk_runSearch hsettings hload hplace hopen]
  -- an opened index may have had its folder made; its records are found there all the same
  cases searchOptions settings args with
  | error e => exact recordsAt?_of_opened hopen
  | ok options =>
    cases reindexing? env settings db d₁ with
    | none =>
      obtain ⟨text, hbytes, htext⟩ := exists_text_of_storeAt hstore hne
      exact recordsAt?_of_bytesAt hbytes htext
    | some report =>
      exact recordsAt?_of_keptAfter hstore hne
        (file?_diskAfter hsnapshot d₁ (report.refreshTurns clock))

/-- **A search keeps the records of an index that opens, but for an index without commands that it
makes anew.** It does so if the arguments can be read, the settings allow it and there is a folder
of voice commands with a command file in it; then the records are kept if and only if no snapshot
could be written, or the last one that was has the same ones. In every other state of the index, the
settings and the folder they are kept. -/
theorem search_keeps_records_iff {argv : List String} {place : Path}
    (hargv : argv.filter (· ≠ "--verbose") = "search" :: args)
    (hsettings : env.settingsPath = .ok place)
    (hload : ((Settings.load place : StateM Disk _).run d).1 = .ok settings)
    (hplace : settings.indexPath env = .ok p) (hopen : opened d p = (.ok db, d₁))
    (hrecords : db.store.commands ≠ [] ∨ db.store.items ≠ []) :
    (recordsAt? ((run clock env argv : StateM Disk _).run d).2 p = recordsAt? d p ↔
      ∀ options report m, searchOptions settings args = .ok options →
        reindexing? env settings db d₁ = some report →
        lastSaved (db.live d₁ (report.refreshTurns clock)) = some m →
          m.db.store.commands = db.store.commands ∧ m.db.store.items = db.store.items) ∧
    (LeavesIndex env settings db d₁ →
      recordsAt? ((run clock env argv : StateM Disk _).run d).2 p = recordsAt? d p) := by
  rw [recordsAt?_search hargv hsettings hload hplace hopen hrecords, recordsAt?_of_opened hopen]
  refine ⟨⟨?_, ?_⟩, ?_⟩
  · intro h options report m hoptions hreport hlast
    simpa [hoptions, hreport, hlast] using h
  · intro h
    cases hoptions : searchOptions settings args with
    | error e => rfl
    | ok options =>
      cases hreport : reindexing? env settings db d₁ with
      | none => rfl
      | some report =>
        cases hlast : lastSaved (db.live d₁ (report.refreshTurns clock)) with
        | none => simp only [hlast]
        | some m =>
          obtain ⟨hcommands, hitems⟩ := h options report m hoptions hreport hlast
          simp only [hlast, hcommands, hitems]
  · intro hleaves
    rw [reindexing?_eq_none_iff.2 hleaves]
    cases searchOptions settings args <;> rfl

/-- A store with a list item and no command. -/
def penStore : Store :=
  { items := [⟨1, "user.tools", "pen", "pencil", none, "2024", "2024"⟩], nextItem := 2 }

/-- A home folder with this store and a folder of voice commands with these files. -/
def homeDisk (files : List (String × Tree)) : Disk where
  top := .folder [("h", .folder [
    (".local", .folder [("share", .folder [("talon-search", .folder [
      ("talon-commands.json", .file penStore.toText.toUTF8)])])]),
    (".talon", .folder [("user", .folder files)])])]

/-- The path of the store in this home folder. -/
def penPath : Path := ⟨"/h/.local/share/talon-search/talon-commands.json"⟩

theorem opened_homeDisk (files : List (String × Tree)) :
    opened (homeDisk files) penPath = (.ok ⟨penStore, some penPath⟩, homeDisk files) := by
  have hbytes : (homeDisk files).bytesAt penPath = .ok penStore.toText.toUTF8 := by rfl
  exact opened_of_bytesAt hbytes penStore.ofText_toText

/-- The surroundings of the one whose home folder this is. -/
def penHome : Environment := { home? := some ⟨"/h"⟩ }

theorem settingsPath_penHome :
    penHome.settingsPath = .ok ⟨"/h/.config/talon-search/settings.json"⟩ := by rfl

theorem indexPath_penHome : ({} : Settings).indexPath penHome = .ok penPath := by rfl

theorem settings_homeDisk (files : List (String × Tree)) :
    ((Settings.load ⟨"/h/.config/talon-search/settings.json"⟩ : StateM Disk _).run
      (homeDisk files)).1 = .ok {} := by rfl

/-- This home folder with a list file among the voice commands. -/
def listsDisk : Disk := homeDisk [("a.talon-list", .file "-".toUTF8)]

theorem leavesIndex_listsDisk : LeavesIndex penHome {} ⟨penStore, some penPath⟩ listsDisk := by
  have hfolder : ((({} : Settings).userFolder penHome : StateM Disk _).run listsDisk).1 =
      some ⟨"/h/.talon/user"⟩ := by rfl
  have hscan : ((UserFolder.scan ⟨"/h/.talon/user"⟩ : StateM Disk _).run listsDisk).1 =
      .ok (ScanReport.ordered { listFiles := [⟨⟨"/h/.talon/user/a.talon-list"⟩, "-"⟩] }) := by rfl
  refine .noCommandFile hfolder fun report hreport => ?_
  rw [hscan] at hreport
  cases hreport
  simp [ScanReport.ordered, ScanReport.inOrder]

/-- A search keeps the list item of an index without commands if no command file is found. -/
theorem search_keeps_records_lists :
    recordsAt? listsDisk penPath = some ([], penStore.items) ∧
      recordsAt? ((run (fun _ => "") penHome ["search", "pen"] : StateM Disk _).run listsDisk).2
        penPath = recordsAt? listsDisk penPath := by
  have hargv : ["search", "pen"].filter (· ≠ "--verbose") = "search" :: ["pen"] := by decide
  have hload : ((Settings.load ⟨"/h/.config/talon-search/settings.json"⟩ : StateM Disk _).run
      listsDisk).1 = .ok {} := settings_homeDisk _
  have hopen : opened listsDisk penPath = (.ok ⟨penStore, some penPath⟩, listsDisk) :=
    opened_homeDisk _
  refine ⟨recordsAt?_of_opened hopen, ?_⟩
  exact (search_keeps_records_iff hargv settingsPath_penHome hload indexPath_penHome hopen
    (.inr (by decide))).2 leavesIndex_listsDisk

/-- This home folder with a command file among the voice commands. -/
def penDisk : Disk := homeDisk [("a.talon", .file "-".toUTF8)]

/-- The one file of the folder, which holds no command. -/
def penReport : ScanReport := { commandFiles := [⟨⟨"/h/.talon/user/a.talon"⟩, "-"⟩] }

theorem reindexing?_penDisk :
    reindexing? penHome {} ⟨penStore, some penPath⟩ penDisk = some penReport := by
  have hfolder : ((({} : Settings).userFolder penHome : StateM Disk _).run penDisk).1 =
      some ⟨"/h/.talon/user"⟩ := by rfl
  have hscan : ((UserFolder.scan ⟨"/h/.talon/user"⟩ : StateM Disk _).run penDisk).1 =
      .ok penReport.ordered := by rfl
  have hordered : penReport.ordered = penReport := by
    simp [ScanReport.ordered, ScanReport.inOrder, penReport]
  unfold reindexing?
  rw [hfolder]
  simp only
  rw [hscan, hordered]
  rfl

/-- A search loses the list item of an index without commands. -/
theorem items_lost_by_search :
    recordsAt? penDisk penPath = some ([], penStore.items) ∧
      recordsAt? ((run (fun _ => "") penHome ["search", "pen"] : StateM Disk _).run penDisk).2
        penPath = some ([], []) := by
  have hargv : ["search", "pen"].filter (· ≠ "--verbose") = "search" :: ["pen"] := by decide
  have hload : ((Settings.load ⟨"/h/.config/talon-search/settings.json"⟩ : StateM Disk _).run
      penDisk).1 = .ok {} := settings_homeDisk _
  have hopen : opened penDisk penPath = (.ok ⟨penStore, some penPath⟩, penDisk) :=
    opened_homeDisk _
  refine ⟨recordsAt?_of_opened hopen, ?_⟩
  rw [recordsAt?_search hargv settingsPath_penHome hload indexPath_penHome hopen
    (.inr (by decide)), reindexing?_penDisk]
  decide +kernel

end Cli

end VoiceIndex
