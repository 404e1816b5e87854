import VoiceIndex.Proofs.Disk.Program
import VoiceIndex.Proofs.Disk.Walk
import VoiceIndex.Source.UserFolder

/-!
# Walking a folder of voice commands

The program meets the entries of a folder one by one, reads the files among them and then walks the
folders. What it does in all is to take the places where the walk of the tree ends into its report,
one after another (`run_walk`). A place adds one file to the report, one thing that is skipped, or
nothing at all (`readAs?_eq_some_iff`, `unread?_eq_some_iff`).
-/

namespace VoiceIndex

open Disk (IsShort)

/-! ## Kinds of files -/

/-- The extension of the files of this kind. -/
def SourceKind.extension : SourceKind → String
  | .commands => "talon"
  | .list => "talon-list"

theorem SourceKind.ofPath?_eq_some_iff {p : Path} {kind : SourceKind} :
    SourceKind.ofPath? p = some kind ↔ p.extension? = some kind.extension := by
  unfold SourceKind.ofPath?
  split <;> cases kind <;> simp_all [SourceKind.extension]

/-- The name of a file of this kind has the extension after a dot that is not its first character. -/
def SourceKind.Names (kind : SourceKind) (name : String) : Prop :=
  ∃ stem, stem ≠ "" ∧ name = stem ++ "." ++ kind.extension

theorem SourceKind.ofPath?_join {p : Path} {name : String} (h : Path.IsName name)
    {kind : SourceKind} : SourceKind.ofPath? (p.join name) = some kind ↔ kind.Names name := by
  rw [SourceKind.ofPath?_eq_some_iff, Path.extension?_join p h (by cases kind <;> decide)]
  rfl

/-! ## Taking in what is found -/

/-- The files of this kind. -/
def ScanReport.filesOf (r : ScanReport) : SourceKind → List SourceFile
  | .commands => r.commandFiles
  | .list => r.listFiles

/-- What comes of reading the file with these bytes at this path. -/
def textIn (p : Path) (bytes : ByteArray) : Except Fault String :=
  if IsShort p then
    match String.fromUTF8? bytes with
    | some text => .ok text
    | none => .error .notText
  else .error .nameTooLong

theorem textIn_eq_ok_iff {p : Path} {bytes : ByteArray} {text : String} :
    textIn p bytes = .ok text ↔ IsShort p ∧ bytes = text.toUTF8 := by
  unfold textIn
  rw [← Disk.fromUTF8?_eq_some_iff]
  split_ifs with h
  · cases String.fromUTF8? bytes <;> simp [h]
  · simp [h]

theorem textIn_eq_error_iff {p : Path} {bytes : ByteArray} {fault : Fault} :
    textIn p bytes = .error fault ↔
      IsShort p ∧ ¬ bytes.IsValidUTF8 ∧ fault = .notText ∨ ¬ IsShort p ∧ fault = .nameTooLong := by
  unfold textIn String.fromUTF8?
  by_cases hp : IsShort p <;> by_cases hb : bytes.IsValidUTF8 <;> simp [hp, hb, eq_comm]

namespace ScanReport

variable {r : ScanReport} {kind : SourceKind} {p q : Path} {u : Tree} {fault : Fault}
  {file : SourceFile}

/-- The report with one more place where the walk ended. -/
def takeIn (r : ScanReport) : Path × Tree → ScanReport
  | (p, .folder _) => r.skip p .nameTooLong
  | (p, .file bytes) => match SourceKind.ofPath? p with
    | none => r
    | some kind => r.add kind p (textIn p bytes)

/-- What a place where the walk ended adds to the files of this kind. -/
def readAs? (kind : SourceKind) : Path × Tree → Option SourceFile
  | (_, .folder _) => none
  | (p, .file bytes) =>
    if SourceKind.ofPath? p = some kind then (textIn p bytes).toOption.map (⟨p, ·⟩) else none

/-- What a place where the walk ended adds to what is skipped. -/
def unread? : Path × Tree → Option (Path × Fault)
  | (p, .folder _) => some (p, .nameTooLong)
  | (p, .file bytes) => match SourceKind.ofPath? p, textIn p bytes with
    | some _, .error fault => some (p, fault)
    | _, _ => none

theorem filesOf_takeIn (r : ScanReport) (kind : SourceKind) (leaf : Path × Tree) :
    (r.takeIn leaf).filesOf kind = r.filesOf kind ++ (readAs? kind leaf).toList := by
  obtain ⟨p, bytes | entries⟩ := leaf
  · cases hk : SourceKind.ofPath? p with
    | none => simp [takeIn, readAs?, hk]
    | some found =>
      cases ht : textIn p bytes <;> cases found <;> cases kind <;>
        simp [takeIn, readAs?, add, skip, filesOf, Except.toOption, hk, ht]
  · cases kind <;> simp [takeIn, readAs?, skip, filesOf]

theorem skipped_takeIn (r : ScanReport) (leaf : Path × Tree) :
    (r.takeIn leaf).skipped = r.skipped ++ (unread? leaf).toList := by
  obtain ⟨p, bytes | entries⟩ := leaf
  · cases hk : SourceKind.ofPath? p with
    | none => simp [takeIn, unread?, hk]
    | some found =>
      cases ht : textIn p bytes <;> cases found <;> simp [takeIn, unread?, add, skip, hk, ht]
  · simp [takeIn, unread?, skip]

theorem filesOf_foldl_takeIn (r : ScanReport) (kind : SourceKind) (leaves : List (Path × Tree)) :
    (leaves.foldl takeIn r).filesOf kind = r.filesOf kind ++ leaves.filterMap (readAs? kind) := by
  induction leaves generalizing r with
  | nil => simp
  | cons leaf rest ih =>
    rw [List.foldl_cons, ih, filesOf_takeIn, List.append_assoc]
    cases h : readAs? kind leaf <;> simp [h]

theorem skipped_foldl_takeIn (r : ScanReport) (leaves : List (Path × Tree)) :
    (leaves.foldl takeIn r).skipped = r.skipped ++ leaves.filterMap unread? := by
  induction leaves generalizing r with
  | nil => simp
  | cons leaf rest ih =>
    rw [List.foldl_cons, ih, skipped_takeIn, List.append_assoc]
    cases h : unread? leaf <;> simp [h]

theorem readAs?_eq_some_iff :
    readAs? kind (q, u) = some file ↔
      u = .file file.content.toUTF8 ∧ SourceKind.ofPath? q = some kind ∧ IsShort q ∧
        q = file.path := by
  obtain ⟨path, content⟩ := file
  cases u with
  | folder entries => simp [readAs?]
  | file bytes =>
    have htext : (textIn q bytes).toOption = some content ↔ IsShort q ∧ bytes = content.toUTF8 := by
      rw [← textIn_eq_ok_iff]
      cases textIn q bytes <;> simp [Except.toOption]
    simp only [readAs?, Option.ite_none_right_eq_some, Option.map_eq_some_iff, SourceFile.mk.injEq,
      Tree.file.injEq]
    constructor
    · rintro ⟨hkind, text, hok, rfl, rfl⟩
      obtain ⟨hshort, hbytes⟩ := htext.1 hok
      exact ⟨hbytes, hkind, hshort, rfl⟩
    · rintro ⟨hbytes, hkind, hshort, rfl⟩
      exact ⟨hkind, content, htext.2 ⟨hshort, hbytes⟩, rfl, rfl⟩

theorem unread?_eq_some_iff :
    unread? (q, u) = some (p, fault) ↔ q = p ∧
      ((∃ entries, u = .folder entries) ∧ fault = .nameTooLong ∨
        ∃ bytes kind, u = .file bytes ∧ SourceKind.ofPath? q = some kind ∧
          textIn q bytes = .error fault) := by
  cases u with
  | folder entries => simp [unread?, eq_comm]
  | file bytes =>
    cases hk : SourceKind.ofPath? q <;> cases ht : textIn q bytes <;> simp [unread?, hk, ht]

end ScanReport

namespace UserFolder

open DiskAccess Disk
open VoiceIndex.Tree (IsSound leaves)

variable {d : Disk} {p root : Path} {t : Tree} {bytes : ByteArray} {depth : Nat}
  {entries : List (String × Tree)}

/-! ## The walk -/

/-- A path leads to this tree, unless it is too long. -/
def LeadsTo (d : Disk) (p : Path) (t : Tree) : Prop :=
  d.find p = if IsShort p then .ok t else .error .nameTooLong

theorem addressable_of_find (h : d.find p = .ok (.folder entries)) : Addressable p := by
  obtain ⟨route, only, hl, -⟩ := find_eq_folder_iff.1 h
  exact addressable_of_locate hl

theorem leadsTo_of_find (h : d.find p = .ok (.folder entries)) :
    LeadsTo d p (.folder entries) := by
  have hshort : IsShort p := (addressable_of_find h).2.2
  rw [LeadsTo, if_pos hshort, h]

theorem textAt_eq_textIn (h : LeadsTo d p (.file bytes)) : d.textAt p = textIn p bytes := by
  unfold textAt bytesAt textIn
  rw [h]
  by_cases hp : IsShort p <;> cases hb : String.fromUTF8? bytes <;> simp [hp, hb]

theorem run_readFile (h : LeadsTo d p (.file bytes)) (report : ScanReport) :
    (readFile report p : StateM Disk _).run d = (report.takeIn (p, .file bytes), d) := by
  unfold readFile ScanReport.takeIn
  simp only
  cases SourceKind.ofPath? p with
  | none => rfl
  | some kind =>
    simp only
    rw [run_bind_of (run_readText d p), textAt_eq_textIn h]
    rfl

/-- What an entry of the folder does to the report and to the folders that are still to be walked. -/
def meet (p : Path) (state : ScanReport × List Path) : String × Tree → ScanReport × List Path
  | (name, .file bytes) => (state.1.takeIn (p.join name, .file bytes), state.2)
  | (name, .folder _) => (state.1, p.join name :: state.2)

theorem run_meetEntry {name : String} (h : LeadsTo d (p.join name) t)
    (state : ScanReport × List Path) :
    (meetEntry p state (name, .ok t.kind) : StateM Disk _).run d = (meet p state (name, t), d) := by
  cases t with
  | folder inner => rfl
  | file bytes =>
    show (do return (← readFile state.1 (p.join name), state.2) : StateM Disk _).run d = _
    rw [run_bind_of (run_readFile h state.1)]
    rfl

/-- The files of a folder are taken in, in their order, and its folders are laid on one another. -/
theorem foldl_meet (p : Path) (report : ScanReport) (folders : List Path) :
    entries.foldl (meet p) (report, folders) =
      (((entries.filter (·.2.kind == .file)).map fun e => (p.join e.1, e.2)).foldl
        ScanReport.takeIn report,
        ((entries.filter (·.2.kind != .file)).reverse.map (p.join ·.1)) ++ folders) := by
  induction entries generalizing report folders with
  | nil => rfl
  | cons entry rest ih =>
    obtain ⟨name, bytes | inner⟩ := entry
    · rw [List.foldl_cons, meet, ih]
      simp [Tree.kind]
    · rw [List.foldl_cons, meet, ih]
      simp [Tree.kind]

theorem run_meetEntries (h : ∀ e ∈ entries, LeadsTo d (p.join e.1) e.2)
    (state : ScanReport × List Path) :
    ((entries.map fun e => (e.1, .ok e.2.kind)).foldlM (meetEntry p) state : StateM Disk _).run d =
      (entries.foldl (meet p) state, d) := by
  rw [List.foldlM_map]
  exact run_foldlM (fun e he state => run_meetEntry (h e he) state) state

theorem run_walkFolders {folders : List (String × Tree)}
    (h : ∀ e ∈ folders, ∀ report, (walk depth report (p.join e.1) : StateM Disk _).run d =
      ((leaves depth (p.join e.1) e.2).foldl ScanReport.takeIn report, d)) (report : ScanReport) :
    ((folders.map (p.join ·.1)).foldlM (walk depth) report : StateM Disk _).run d =
      ((folders.flatMap fun e => leaves depth (p.join e.1) e.2).foldl
        ScanReport.takeIn report, d) := by
  rw [List.foldlM_map, List.foldl_flatMap]
  exact run_foldlM h report

/-- **A walk takes in the places where it ends, one after another,** and changes nothing. -/
theorem run_walk (ht : IsSound (.folder entries)) (h : LeadsTo d p (.folder entries))
    (report : ScanReport) :
    (walk depth report p : StateM Disk _).run d =
      ((leaves depth p (.folder entries)).foldl ScanReport.takeIn report, d) := by
  induction depth generalizing report p entries with
  | zero => rfl
  | succ depth ih =>
    by_cases hp : IsShort p
    · have hfind : d.find p = .ok (.folder entries) := by rw [h, if_pos hp]
      have hlist : (DiskAccess.listFolder p : StateM Disk _).run d =
          (.ok { entries := entries.map fun e => (e.1, .ok e.2.kind) }, d) := by
        show (d.listFolder p, d) = _
        rw [Disk.listFolder, hfind]
      cases ht with
      | folder names distinct inner =>
        have hleads : ∀ e ∈ entries, LeadsTo d (p.join e.1) e.2 := fun e he =>
          find_join hfind (names e he) ((Tree.lookup_eq_some_iff_mem distinct).2 he)
        have hfolders : ∀ e ∈ (entries.filter (·.2.kind != .file)).reverse, ∀ report,
            (walk depth report (p.join e.1) : StateM Disk _).run d =
              ((leaves depth (p.join e.1) e.2).foldl ScanReport.takeIn report, d) := by
          intro e he report
          obtain ⟨hmem, hkind⟩ := List.mem_filter.1 (List.mem_reverse.1 he)
          obtain ⟨name, bytes | inside⟩ := e
          · simp [Tree.kind] at hkind
          · exact ih (inner _ hmem) (hleads _ hmem) report
        unfold walk
        rw [run_bind_of hlist]
        simp only
        rw [run_bind_of (run_meetEntries hleads _), foldl_meet]
        simp only [Option.map_none, Option.getD_none, List.append_nil]
        rw [run_walkFolders hfolders, Tree.leaves_folder_eq_append hp, List.foldl_append]
    · have hlist : (DiskAccess.listFolder p : StateM Disk _).run d = (.error .nameTooLong, d) := by
        show (d.listFolder p, d) = _
        rw [Disk.listFolder, h, if_neg hp]
      unfold walk
      rw [run_bind_of hlist, Tree.leaves_of_not_isShort hp]
      rfl

end UserFolder

end VoiceIndex
