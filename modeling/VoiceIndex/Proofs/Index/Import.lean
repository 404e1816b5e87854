import VoiceIndex.Index.Import
import VoiceIndex.Proofs.Disk.Program
import VoiceIndex.Proofs.Source.Verbatim
import VoiceIndex.Proofs.Store.Run

/-!
# What an import brings in

An import is one edit of each kind, whatever the disk makes of it (`exists_run_importScan`). The
records say what the files hold (`SourceFile.content_ofDraft_commands`), so that each edit adds this
to what the mode of the import leaves (`holdings_imported`). So an import depends on the files
alone, can be repeated and can be made in parts (`importScan_function_of_files`).
-/

namespace VoiceIndex

/-! ## Records of files -/

namespace SourceFile

/-- The commands that stand in a command file. -/
def commands (file : SourceFile) : List CommandDraft :=
  CommandFile.commands file.path.text file.content

/-- The items that stand in a list file. -/
def items (file : SourceFile) : List ItemDraft := ListFile.items file.path.text file.content

end SourceFile

/-- Records that came after others, known by what all of them say. -/
theorem exists_new {α ρ : Type} {content : ρ → α} {old now : List ρ} {drafts : List α}
    (hkept : old <+: now) (hsaid : now.map content = old.map content ++ drafts) :
    ∃ new, now = old ++ new ∧ new.map content = drafts := by
  obtain ⟨new, rfl⟩ := hkept
  rw [List.map_append] at hsaid
  exact ⟨new, rfl, List.append_cancel_left hsaid⟩

/-- Records that say what stands in files have a property of what they say if it stands there. -/
theorem exists_content_iff {α ρ : Type} {content : ρ → α} {parse : SourceFile → List α}
    {records : List ρ} {files : List SourceFile}
    (h : records.map content = files.flatMap parse) (P : α → Prop) :
    (∃ r ∈ records, P (content r)) ↔ ∃ file ∈ files, ∃ a ∈ parse file, P a := by
  constructor
  · rintro ⟨r, hr, hP⟩
    have hmem : content r ∈ files.flatMap parse := h ▸ List.mem_map_of_mem hr
    obtain ⟨file, hfile, ha⟩ := List.mem_flatMap.1 hmem
    exact ⟨file, hfile, content r, ha, hP⟩
  · rintro ⟨file, hfile, a, ha, hP⟩
    have hmem : a ∈ records.map content := h ▸ List.mem_flatMap.2 ⟨file, hfile, ha⟩
    obtain ⟨r, hr, rfl⟩ := List.mem_map.1 hmem
    exact ⟨r, hr, hP⟩

/-! ## Holdings -/

/-- What an import leaves of what is held. -/
def ImportMode.leaves {α : Type} : ImportMode → Holding α → Holding α
  | refresh, _ => .empty
  | append, x => x

namespace Store

variable {s : Store}

/-- The store after an import at the times that the clock shows. -/
def imported (clock : Clock) (mode : ImportMode) (commands : List CommandDraft)
    (items : List ItemDraft) (s : Store) : Store :=
  (s.edit clock (mode.commandEdit commands)).edit clock (mode.itemEdit items)

theorem commandHolding_insertCommands {drafts : List CommandDraft}
    (h : ∀ d ∈ drafts, ∀ id now, (Command.ofDraft id now d).content = d) (clock : Clock)
    (s : Store) : (s.insertCommands clock drafts).commandHolding = s.commandHolding.add drafts := by
  have hsaid : (recordsOf Command.ofDraft s.nextCommand clock drafts).map Command.content = drafts :=
    (map_recordsOf h s.nextCommand clock).trans (List.map_id' drafts)
  unfold commandHolding Holding.add
  rw [commandNumbers_insertCommands]
  show Holding.mk ((s.commands ++ recordsOf _ _ clock drafts).map _) _ = _
  rw [List.map_append, hsaid]

theorem itemHolding_insertItems {drafts : List ItemDraft}
    (h : ∀ d ∈ drafts, ∀ id now, (ListItem.ofDraft id now d).content = d) (clock : Clock)
    (s : Store) : (s.insertItems clock drafts).itemHolding = s.itemHolding.add drafts := by
  have hsaid : (recordsOf ListItem.ofDraft s.nextItem clock drafts).map ListItem.content = drafts :=
    (map_recordsOf h s.nextItem clock).trans (List.map_id' drafts)
  unfold itemHolding Holding.add
  rw [itemNumbers_insertItems]
  show Holding.mk ((s.items ++ recordsOf _ _ clock drafts).map _) _ = _
  rw [List.map_append, hsaid]

theorem commandHolding_commandEdit {drafts : List CommandDraft}
    (h : ∀ d ∈ drafts, ∀ id now, (Command.ofDraft id now d).content = d) (clock : Clock)
    (mode : ImportMode) (s : Store) :
    (s.edit clock (mode.commandEdit drafts)).commandHolding =
      (mode.leaves s.commandHolding).add drafts := by
  cases mode with
  | refresh => exact commandHolding_insertCommands h clock s.clearCommands
  | append => exact commandHolding_insertCommands h clock s

theorem itemHolding_itemEdit {drafts : List ItemDraft}
    (h : ∀ d ∈ drafts, ∀ id now, (ListItem.ofDraft id now d).content = d) (clock : Clock)
    (mode : ImportMode) (s : Store) :
    (s.edit clock (mode.itemEdit drafts)).itemHolding =
      (mode.leaves s.itemHolding).add drafts := by
  cases mode with
  | refresh => exact itemHolding_insertItems h clock s.clearItems
  | append => exact itemHolding_insertItems h clock s

/-- An edit of one kind leaves the other alone. -/
theorem itemHolding_commandEdit (clock : Clock) (mode : ImportMode) (drafts : List CommandDraft)
    (s : Store) : (s.edit clock (mode.commandEdit drafts)).itemHolding = s.itemHolding := by
  cases mode <;> rfl

theorem commandHolding_itemEdit (clock : Clock) (mode : ImportMode) (drafts : List ItemDraft)
    (s : Store) : (s.edit clock (mode.itemEdit drafts)).commandHolding = s.commandHolding := by
  cases mode <;> rfl

end Store

/-! ## Reports -/

namespace ScanReport

/-- The commands in the command files, one file after another. -/
def commands (report : ScanReport) : List CommandDraft :=
  report.commandFiles.flatMap SourceFile.commands

/-- The items in the list files, one file after another. -/
def items (report : ScanReport) : List ItemDraft := report.listFiles.flatMap SourceFile.items

/-- The files of both reports. -/
def both (report later : ScanReport) : ScanReport where
  commandFiles := report.commandFiles ++ later.commandFiles
  listFiles := report.listFiles ++ later.listFiles
  skipped := report.skipped ++ later.skipped

theorem commands_both (report later : ScanReport) :
    (report.both later).commands = report.commands ++ later.commands := List.flatMap_append

theorem items_both (report later : ScanReport) :
    (report.both later).items = report.items ++ later.items := List.flatMap_append

end ScanReport

theorem SourceFile.content_ofDraft_commands {files : List SourceFile} {draft : CommandDraft}
    (h : draft ∈ files.flatMap commands) (id : Int64) (now : String) :
    (Command.ofDraft id now draft).content = draft := by
  obtain ⟨file, -, hdraft⟩ := List.mem_flatMap.1 h
  exact CommandFile.content_ofDraft hdraft id now

theorem SourceFile.content_ofDraft_items {files : List SourceFile} {draft : ItemDraft}
    (h : draft ∈ files.flatMap items) (id : Int64) (now : String) :
    (ListItem.ofDraft id now draft).content = draft := by
  obtain ⟨file, -, hdraft⟩ := List.mem_flatMap.1 h
  obtain ⟨spoken, value, hitem⟩ := ListFile.exists_itemDraft? hdraft
  exact content_ofDraft_of_itemDraft? hitem id now

/-- **An import adds what the files hold to what its mode leaves.** -/
theorem Store.holdings_imported (clock : Clock) (mode : ImportMode) (report : ScanReport)
    (s : Store) :
    (s.imported clock mode report.commands report.items).holdings =
      ((mode.leaves s.commandHolding).add report.commands,
        (mode.leaves s.itemHolding).add report.items) := by
  have hcommands : ∀ draft ∈ report.commands, ∀ id now,
      (Command.ofDraft id now draft).content = draft :=
    fun _ => SourceFile.content_ofDraft_commands
  have hitems : ∀ draft ∈ report.items, ∀ id now, (ListItem.ofDraft id now draft).content = draft :=
    fun _ => SourceFile.content_ofDraft_items
  unfold holdings imported
  rw [commandHolding_itemEdit, commandHolding_commandEdit hcommands, itemHolding_itemEdit hitems,
    itemHolding_commandEdit]

/-! ## Imports -/

/-- The counts of an import, file by file. -/
theorem ImportSummary.ofFiles_map {α : Type} (parse : SourceFile → List α)
    (files : List SourceFile) (total : Nat) :
    ofFiles (files.map parse) total =
      ⟨files.length, files.countP fun file => (parse file).isEmpty, (files.flatMap parse).length,
        total⟩ := by
  unfold ofFiles
  rw [List.length_map, List.countP_map, ← List.flatMap_def]
  rfl

namespace Database

section

variable {σ : Type} [DiskAccess (StateM σ)] {clock : Clock} {mode : ImportMode} {db : Database}

/-- An edit is an edit of the store, whatever the disk makes of it. -/
theorem exists_run_edit (clock : Clock) (e : Edit) (db : Database) (w : σ) :
    ∃ w', (db.edit clock e : StateM σ _).run w =
      (({ db with store := db.store.edit clock e }, db.store.receipt e), w') :=
  ⟨((persist { db with store := db.store.edit clock e } : StateM σ Unit).run w).2, rfl⟩

theorem exists_run_importCommandFiles (clock : Clock) (mode : ImportMode) (files : List SourceFile)
    (db : Database) (w : σ) :
    let s := db.store.edit clock (mode.commandEdit (files.flatMap SourceFile.commands))
    ∃ w', (db.importCommandFiles clock mode files : StateM σ _).run w =
      (({ db with store := s }, ⟨files.length, files.countP (·.commands.isEmpty),
        (files.flatMap SourceFile.commands).length, s.commands.length⟩), w') := by
  intro s
  obtain ⟨w', hedit⟩ :=
    exists_run_edit clock (mode.commandEdit (files.flatMap SourceFile.commands)) db w
  have hfiles : (files.map fun file => CommandFile.commands file.path.text file.content).flatten =
      files.flatMap SourceFile.commands := rfl
  refine ⟨w', ?_⟩
  unfold importCommandFiles importDrafts
  rw [hfiles, Disk.run_bind_of hedit, ← ImportSummary.ofFiles_map SourceFile.commands]
  rfl

theorem exists_run_importListFiles (clock : Clock) (mode : ImportMode) (files : List SourceFile)
    (db : Database) (w : σ) :
    let s := db.store.edit clock (mode.itemEdit (files.flatMap SourceFile.items))
    ∃ w', (db.importListFiles clock mode files : StateM σ _).run w =
      (({ db with store := s }, ⟨files.length, files.countP (·.items.isEmpty),
        (files.flatMap SourceFile.items).length, s.items.length⟩), w') := by
  intro s
  obtain ⟨w', hedit⟩ :=
    exists_run_edit clock (mode.itemEdit (files.flatMap SourceFile.items)) db w
  have hfiles : (files.map fun file => ListFile.items file.path.text file.content).flatten =
      files.flatMap SourceFile.items := rfl
  refine ⟨w', ?_⟩
  unfold importListFiles importItemDrafts
  rw [hfiles, Disk.run_bind_of hedit, ← ImportSummary.ofFiles_map SourceFile.items]
  rfl

/-- An import that has a command file, or needs none, succeeds. -/
theorem exists_run_importScan {report : ScanReport}
    (h : ¬ (mode = .refresh ∧ report.commandFiles = [])) (clock : Clock) (root : Path)
    (db : Database) (w : σ) :
    let s := db.store.imported clock mode report.commands report.items
    ∃ w', (db.importScan clock mode root report : StateM σ _).run w =
      (.ok ({ db with store := s },
        ⟨report.commandFiles.length, report.commandFiles.countP (·.commands.isEmpty),
          report.commands.length, s.commands.length⟩,
        ⟨report.listFiles.length, report.listFiles.countP (·.items.isEmpty),
          report.items.length, s.items.length⟩), w') := by
  intro s
  let first := db.store.edit clock
    (mode.commandEdit (report.commandFiles.flatMap SourceFile.commands))
  obtain ⟨w₁, hcommands⟩ := exists_run_importCommandFiles clock mode report.commandFiles db w
  obtain ⟨w₂, hitems⟩ :=
    exists_run_importListFiles clock mode report.listFiles { db with store := first } w₁
  -- the list items come in last and leave the commands as they are
  have hsame : first.commands = s.commands := by
    cases mode <;> rfl
  refine ⟨w₂, ?_⟩
  unfold importScan
  rw [if_neg h, Disk.run_bind_of hcommands]
  simp only
  rw [hsame, Disk.run_bind_of hitems]
  rfl

/-- Without a command file nothing is replaced: there is an error and no other database, and the
disk is as it was. -/
theorem run_importScan_of_no_commandFiles {report : ScanReport} (h : report.commandFiles = [])
    (clock : Clock) (root : Path) (db : Database) (w : σ) :
    (db.importScan clock .refresh root report : StateM σ _).run w =
      (.error (.noCommandFiles root.text), w) := by
  unfold importScan
  rw [if_pos ⟨rfl, h⟩]
  rfl

variable (σ) in
/-- The one database comes of the other by an import, at some time and on some disk. -/
def Imports (mode : ImportMode) (report : ScanReport) (db after : Database) : Prop :=
  ∃ clock root, ∃ w w' : σ, ∃ summaries,
    (db.importScan clock mode root report : StateM σ _).run w = (.ok (after, summaries), w')

theorem Imports.exists_imported {report : ScanReport} {after : Database}
    (h : Imports σ mode report db after) :
    ∃ clock, after.store = db.store.imported clock mode report.commands report.items := by
  obtain ⟨clock, root, w, w', summaries, hrun⟩ := h
  refine ⟨clock, ?_⟩
  by_cases hrefused : mode = .refresh ∧ report.commandFiles = []
  · obtain ⟨rfl, hnone⟩ := hrefused
    rw [run_importScan_of_no_commandFiles hnone] at hrun
    cases hrun
  · obtain ⟨w'', hok⟩ := exists_run_importScan hrefused clock root db w
    rw [hok] at hrun
    cases hrun
    rfl

theorem Imports.holdings {report : ScanReport} {after : Database}
    (h : Imports σ mode report db after) :
    after.store.holdings =
      ((mode.leaves db.store.commandHolding).add report.commands,
        (mode.leaves db.store.itemHolding).add report.items) := by
  obtain ⟨clock, hstore⟩ := h.exists_imported
  rw [hstore]
  exact db.store.holdings_imported clock mode report

/-- **What an import leaves is a matter of the files it read.** To replace what is there it needs a
command file, and is refused without one; otherwise it succeeds, and counts the files, those of them
without records, their records, and all records of the kind that are there in the end. It replaces
what is there by the records of the files in their order, numbered from one on, so that it changes
nothing to do so again. Or it adds these records to those that are there and stay as they are, so
that it makes no difference whether files come in together or one lot after the other. -/
theorem importScan_function_of_files (report : ScanReport) (db : Database) :
    (∀ clock root (w : σ), report.commandFiles = [] →
      (db.importScan clock .refresh root report : StateM σ _).run w =
        (.error (.noCommandFiles root.text), w)) ∧
    (∀ mode clock root (w : σ), mode = .append ∨ report.commandFiles ≠ [] → ∃ after w',
      (db.importScan clock mode root report : StateM σ _).run w =
        (.ok (after,
          ⟨report.commandFiles.length, report.commandFiles.countP (·.commands.isEmpty),
            report.commands.length, after.store.commands.length⟩,
          ⟨report.listFiles.length, report.listFiles.countP (·.items.isEmpty),
            report.items.length, after.store.items.length⟩), w')) ∧
    (∀ after, Imports σ .refresh report db after →
      after.store.commands.map Command.content = report.commands ∧
      after.store.items.map ListItem.content = report.items ∧
      ((report.commands.length : Int) < Int64.maxValue.toInt →
        after.store.commandNumbers.Consecutive) ∧
      ((report.items.length : Int) < Int64.maxValue.toInt →
        after.store.itemNumbers.Consecutive) ∧
      ∀ other again, Imports σ .refresh report other again →
        again.store.holdings = after.store.holdings) ∧
    ∀ after, Imports σ .append report db after →
      (∃ new, after.store.commands = db.store.commands ++ new ∧
        new.map Command.content = report.commands) ∧
      (∃ new, after.store.items = db.store.items ++ new ∧
        new.map ListItem.content = report.items) ∧
      after.store.commandNumbers = db.store.commandNumbers.add report.commands.length ∧
      after.store.itemNumbers = db.store.itemNumbers.add report.items.length ∧
      ∀ later last atOnce, Imports σ .append later after last →
        Imports σ .append (report.both later) db atOnce →
          last.store.holdings = atOnce.store.holdings := by
  refine ⟨fun clock root w h => run_importScan_of_no_commandFiles h clock root db w,
    fun mode clock root w h => ?succeeds, fun after h => ?replaces, fun after h => ?adds⟩
  case succeeds =>
    have hallowed : ¬ (mode = .refresh ∧ report.commandFiles = []) := by
      rintro ⟨rfl, hnone⟩
      rcases h with happend | hsome
      · cases happend
      · exact hsome hnone
    obtain ⟨w', hrun⟩ := exists_run_importScan hallowed clock root db w
    exact ⟨_, w', hrun⟩
  case replaces =>
    obtain ⟨hcommands, hitems⟩ := Prod.ext_iff.1 h.holdings
    have hnumbers : after.store.commandNumbers = Numbers.start.add report.commands.length :=
      congrArg Holding.numbers hcommands
    have hnumbers' : after.store.itemNumbers = Numbers.start.add report.items.length :=
      congrArg Holding.numbers hitems
    refine ⟨congrArg Holding.said hcommands, congrArg Holding.said hitems, fun hfits => ?_,
      fun hfits => ?_, fun other again hagain => hagain.holdings.trans h.holdings.symm⟩
    · rw [hnumbers]
      exact Numbers.consecutive_start_add hfits
    · rw [hnumbers']
      exact Numbers.consecutive_start_add hfits
  case adds =>
    obtain ⟨clock, hstore⟩ := h.exists_imported
    obtain ⟨hcommands, hitems⟩ := Prod.ext_iff.1 h.holdings
    have hkept : db.store.commands <+: after.store.commands := by
      rw [hstore]
      exact List.prefix_append _ _
    have hkept' : db.store.items <+: after.store.items := by
      rw [hstore]
      exact List.prefix_append _ _
    refine ⟨exists_new hkept (congrArg Holding.said hcommands),
      exists_new hkept' (congrArg Holding.said hitems), congrArg Holding.numbers hcommands,
      congrArg Holding.numbers hitems, fun later last atOnce hlast hatOnce => ?_⟩
    rw [hlast.holdings, hatOnce.holdings, ScanReport.commands_both, ScanReport.items_both,
      ← Holding.add_add, ← Holding.add_add]
    exact congrArg₂ (fun x y => (x.add later.commands, y.add later.items)) hcommands hitems

end

/-- An import in place of one command, which is numbered anew. -/
theorem importScan_function_of_files_home :
    let report : ScanReport :=
      { commandFiles := [⟨⟨"user/mine/keys.talon"⟩, "-\ngo home: key(home)"⟩] }
    let db : Database := { store := { commands := [{ (default : Command) with id := 7 }] } }
    ∃ after w', (db.importScan (fun _ => "") .refresh ⟨"user"⟩ report : StateM Disk _).run default =
        (.ok (after, ⟨1, 0, 1, 1⟩, ⟨0, 0, 0, 0⟩), w') ∧
      after.store.commands.map (·.trigger) = ["go home"] ∧
      after.store.commandNumbers.Consecutive := by
  intro report db
  have hcommands : report.commands.map (·.trigger) = ["go home"] := by decide +kernel
  have hcount : report.commandFiles.countP (·.commands.isEmpty) = 0 := by decide +kernel
  obtain ⟨-, hsucceeds, hreplaces, -⟩ := @importScan_function_of_files Disk _ report db
  obtain ⟨after, w', hrun⟩ :=
    hsucceeds .refresh (fun _ => "") ⟨"user"⟩ default (.inr (List.cons_ne_nil _ _))
  obtain ⟨hsaid, hsaid', hnumbers, -⟩ := hreplaces after ⟨_, _, _, _, _, hrun⟩
  have htriggers : after.store.commands.map (·.trigger) = ["go home"] := by
    rw [← hcommands, ← hsaid, List.map_map]
    rfl
  have hone : report.commands.length = 1 := by simpa using congrArg List.length hcommands
  have hone' : after.store.commands.length = 1 := by simpa using congrArg List.length htriggers
  have hnone : after.store.items = [] := List.map_eq_nil_iff.1 hsaid'
  refine ⟨after, w', ?_, htriggers, hnumbers (by rw [hone]; decide)⟩
  rw [hrun, hcount, hone, hone', hnone]
  rfl

end Database

end VoiceIndex
