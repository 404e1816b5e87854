import Mathlib.Data.List.Nodup
import VoiceIndex.Proofs.Path.Order
import VoiceIndex.Proofs.Source.Walk

/-!
# Reading a folder of voice commands

A scan reports just the files of the two kinds at any depth below a folder, each of them once, read
in the order of the paths or skipped (`isScanOf_reportOf`). This says all about the report, whatever
the order in which the folders list what they hold (`IsScanOf.eq_of_holdsSame`). The system opens no
path of more than 4095 bytes, so that a file or folder with a longer one is skipped
(`skipped_of_long_path`).
-/

namespace VoiceIndex.UserFolder

open DiskAccess Disk
open VoiceIndex.Tree (IsSound leaves)

variable {d : Disk} {root : Path} {t : Tree} {entries : List (String × Tree)}

/-! ## What a report says -/

/-- The name leads to a file of this kind with these bytes, in the folder to which the route leads. -/
def IsSource (t : Tree) (kind : SourceKind) (folder : Route) (name : String) (bytes : ByteArray) :
    Prop :=
  t.get? (folder ++ [name]) = some (.file bytes) ∧ kind.Names name

/-- What can be seen at the path but cannot be read, for this reason: a file that holds no text, or a
file or folder with a path that is too long. -/
def IsUnreadable (t : Tree) (root p : Path) (fault : Fault) : Prop :=
  ∃ folder name, p = root.below (folder ++ [name]) ∧ IsShort (root.below folder) ∧
    ((∃ kind bytes, IsSource t kind folder name bytes ∧ ¬ bytes.IsValidUTF8) ∧ IsShort p ∧
        fault = .notText ∨
      (t.IsFolderAt (folder ++ [name]) ∨ ∃ kind bytes, IsSource t kind folder name bytes) ∧
        ¬ IsShort p ∧ fault = .nameTooLong)

/-- The report says what lies below `root`: the files of each kind with their texts, strictly in the
order of their paths, and what could not be read, each once. -/
structure IsScanOf (t : Tree) (root : Path) (report : ScanReport) : Prop where
  mem_files : ∀ kind file, file ∈ report.filesOf kind ↔ ∃ folder name,
    IsSource t kind folder name file.content.toUTF8 ∧ file.path = root.below (folder ++ [name]) ∧
      IsShort file.path
  ordered : ∀ kind, (report.filesOf kind).Pairwise fun a b => a.path.Before b.path
  mem_skipped : ∀ p fault, (p, fault) ∈ report.skipped ↔ IsUnreadable t root p fault
  distinct : (report.skipped.map (·.1)).Nodup

/-- Files with paths that differ are strictly in order. -/
theorem pairwise_before_inOrder {files : List SourceFile}
    (h : files.Pairwise fun a b => a.path.components ≠ b.path.components) :
    (ScanReport.inOrder files).Pairwise fun a b => a.path.Before b.path := by
  have hle : (ScanReport.inOrder files).Pairwise fun a b => a.path.le b.path := by
    have htrans (a b c : SourceFile) (hab : a.path.le b.path) (hbc : b.path.le c.path) :
        a.path.le c.path := Path.le_trans hab hbc
    have htotal (a b : SourceFile) : a.path.le b.path || b.path.le a.path := Path.le_total _ _
    exact List.pairwise_mergeSort htrans htotal files
  have hperm : (ScanReport.inOrder files).Perm files := List.mergeSort_perm files _
  have hne := (hperm.pairwise_iff fun {a b : SourceFile} (hab : a.path.components ≠
    b.path.components) => hab.symm).2 h
  exact hle.imp₂ (fun a b hab hne => ⟨hab, hne⟩) hne

/-- What was found below the folder, in order. -/
def reportOf (root : Path) (t : Tree) : ScanReport :=
  ((leaves maxDepth root t).foldl ScanReport.takeIn {}).ordered

theorem run_scan (h : d.find root = .ok (.folder entries)) (ht : IsSound (.folder entries)) :
    (scan root : StateM Disk _).run d = (.ok (reportOf root (.folder entries)), d) := by
  have hkind : d.kindAt root = some .folder := by
    rw [Disk.kindAt, h]
  unfold scan
  rw [run_bind_of (run_isFolder d root), hkind, if_pos (beq_self_eq_true _),
    run_bind_of (run_walk ht (leadsTo_of_find h) {})]
  rfl

theorem run_scan_of_not_folder (h : d.kindAt root ≠ some .folder) :
    (scan root : StateM Disk _).run d = (.error (.noUserFolder root.text), d) := by
  unfold scan
  rw [run_bind_of (run_isFolder d root), beq_eq_false_iff_ne.2 h]
  rfl

theorem filesOf_reportOf (root : Path) (t : Tree) (kind : SourceKind) :
    (reportOf root t).filesOf kind =
      ScanReport.inOrder ((leaves maxDepth root t).filterMap (ScanReport.readAs? kind)) := by
  have hfiles := ScanReport.filesOf_foldl_takeIn {} kind (leaves maxDepth root t)
  cases kind <;>
  · simp only [ScanReport.filesOf, List.nil_append] at hfiles
    simp only [reportOf, ScanReport.ordered, ScanReport.filesOf, hfiles]

theorem skipped_reportOf (root : Path) (t : Tree) :
    (reportOf root t).skipped = (leaves maxDepth root t).filterMap ScanReport.unread? := by
  exact ScanReport.skipped_foldl_takeIn {} (leaves maxDepth root t)

/-- The kind of a file is told by its name. -/
theorem ofPath?_below (ht : IsSound (.folder entries)) {folder : Route} {name : String} {u : Tree}
    (hget : Tree.get? (.folder entries) (folder ++ [name]) = some u) {kind : SourceKind} :
    SourceKind.ofPath? (root.below (folder ++ [name])) = some kind ↔ kind.Names name := by
  rw [Path.below_concat]
  exact SourceKind.ofPath?_join ((ht.get? hget).2 name (by simp)).toIsName

/-- No path is so long that the walk does not go deep enough. -/
theorem mem_leaves_maxDepth_iff (hroot : Addressable root) (ht : IsSound (.folder entries))
    {q : Path} {u : Tree} :
    (q, u) ∈ leaves maxDepth root (.folder entries) ↔ ∃ folder name,
      Tree.get? (.folder entries) (folder ++ [name]) = some u ∧ q = root.below (folder ++ [name]) ∧
        IsShort (root.below folder) ∧ (u.kind = .file ∨ ¬ IsShort q) := by
  refine Tree.mem_leaves_below_iff ht hroot.2.2 ?_
  have hsize : root.text.utf8ByteSize ≠ 0 := mt String.utf8ByteSize_eq_zero_iff.1 hroot.2.1
  show 4095 < root.text.utf8ByteSize + 4095
  omega

theorem mem_filesOf_reportOf (hroot : Addressable root) (ht : IsSound (.folder entries))
    (kind : SourceKind) (file : SourceFile) :
    file ∈ (reportOf root (.folder entries)).filesOf kind ↔ ∃ folder name,
      IsSource (.folder entries) kind folder name file.content.toUTF8 ∧
        file.path = root.below (folder ++ [name]) ∧ IsShort file.path := by
  rw [filesOf_reportOf, ScanReport.inOrder, List.mem_mergeSort, List.mem_filterMap]
  constructor
  · rintro ⟨⟨q, u⟩, hleaf, hread⟩
    obtain ⟨rfl, hkind, hshort, rfl⟩ := ScanReport.readAs?_eq_some_iff.1 hread
    obtain ⟨folder, name, hget, hq, -, -⟩ := (mem_leaves_maxDepth_iff hroot ht).1 hleaf
    rw [hq] at hkind
    exact ⟨folder, name, ⟨hget, (ofPath?_below ht hget).1 hkind⟩, hq, hshort⟩
  · rintro ⟨folder, name, ⟨hget, hname⟩, hq, hshort⟩
    have hfolder : IsShort (root.below folder) := by
      rw [hq, Path.below_append] at hshort
      exact Tree.isShort_of_below hshort
    refine ⟨(file.path, .file file.content.toUTF8), ?_, ?_⟩
    · exact (mem_leaves_maxDepth_iff hroot ht).2 ⟨folder, name, hget, hq, hfolder, .inl rfl⟩
    · refine ScanReport.readAs?_eq_some_iff.2 ⟨rfl, ?_, hshort, rfl⟩
      rw [hq]
      exact (ofPath?_below ht hget).2 hname

theorem mem_skipped_reportOf (hroot : Addressable root) (ht : IsSound (.folder entries)) (p : Path)
    (fault : Fault) :
    (p, fault) ∈ (reportOf root (.folder entries)).skipped ↔
      IsUnreadable (.folder entries) root p fault := by
  rw [skipped_reportOf, List.mem_filterMap]
  constructor
  · rintro ⟨⟨q, u⟩, hleaf, hunread⟩
    obtain ⟨folder, name, hget, hq, hfolder, hu⟩ := (mem_leaves_maxDepth_iff hroot ht).1 hleaf
    obtain ⟨rfl, ⟨⟨inner, rfl⟩, rfl⟩ | ⟨bytes, kind, rfl, hkind, hfault⟩⟩ :=
      ScanReport.unread?_eq_some_iff.1 hunread
    · have hlong : ¬ IsShort q := hu.resolve_left (by simp [Tree.kind])
      exact ⟨folder, name, hq, hfolder, .inr ⟨.inl ⟨inner, hget⟩, hlong, rfl⟩⟩
    · rw [hq] at hkind
      have hsource : IsSource (.folder entries) kind folder name bytes :=
        ⟨hget, (ofPath?_below ht hget).1 hkind⟩
      rcases textIn_eq_error_iff.1 hfault with ⟨hshort, hbytes, rfl⟩ | ⟨hlong, rfl⟩
      · exact ⟨folder, name, hq, hfolder, .inl ⟨⟨kind, bytes, hsource, hbytes⟩, hshort, rfl⟩⟩
      · exact ⟨folder, name, hq, hfolder, .inr ⟨.inr ⟨kind, bytes, hsource⟩, hlong, rfl⟩⟩
  · rintro ⟨folder, name, rfl, hfolder, hcases⟩
    have hleaf {u : Tree} (hget : Tree.get? (.folder entries) (folder ++ [name]) = some u)
        (hu : u.kind = .file ∨ ¬ IsShort (root.below (folder ++ [name]))) :=
      (mem_leaves_maxDepth_iff hroot ht).2 ⟨folder, name, hget, rfl, hfolder, hu⟩
    have hfile {kind : SourceKind} {bytes : ByteArray}
        (hsource : IsSource (.folder entries) kind folder name bytes)
        (hfault : textIn (root.below (folder ++ [name])) bytes = .error fault) :
        ∃ leaf ∈ leaves maxDepth root (.folder entries),
          ScanReport.unread? leaf = some (root.below (folder ++ [name]), fault) :=
      ⟨_, hleaf hsource.1 (.inl rfl), ScanReport.unread?_eq_some_iff.2 ⟨rfl, .inr ⟨bytes, kind, rfl,
        (ofPath?_below ht hsource.1).2 hsource.2, hfault⟩⟩⟩
    rcases hcases with ⟨⟨kind, bytes, hsource, hbytes⟩, hshort, rfl⟩ |
      ⟨⟨inner, hget⟩ | ⟨kind, bytes, hsource⟩, hlong, rfl⟩
    · exact hfile hsource (textIn_eq_error_iff.2 (.inl ⟨hshort, hbytes, rfl⟩))
    · exact ⟨_, hleaf hget (.inr hlong),
        ScanReport.unread?_eq_some_iff.2 ⟨rfl, .inl ⟨⟨inner, rfl⟩, rfl⟩⟩⟩
    · exact hfile hsource (textIn_eq_error_iff.2 (.inr ⟨hlong, rfl⟩))

theorem pairwise_filesOf_reportOf (ht : IsSound (.folder entries)) (kind : SourceKind) :
    ((reportOf root (.folder entries)).filesOf kind).Pairwise fun a b => a.path.Before b.path := by
  rw [filesOf_reportOf]
  refine pairwise_before_inOrder ?_
  refine (Tree.pairwise_leaves maxDepth root ht).filterMap _ fun x y hxy a ha b hb => ?_
  obtain ⟨-, -, -, hx⟩ := ScanReport.readAs?_eq_some_iff.1 ha
  obtain ⟨-, -, -, hy⟩ := ScanReport.readAs?_eq_some_iff.1 hb
  rwa [← hx, ← hy]

theorem nodup_skipped_reportOf (ht : IsSound (.folder entries)) :
    ((reportOf root (.folder entries)).skipped.map (·.1)).Nodup := by
  rw [skipped_reportOf, List.nodup_iff_pairwise_ne, List.pairwise_map]
  refine (Tree.pairwise_leaves maxDepth root ht).filterMap _ fun x y hxy a ha b hb heq => hxy ?_
  obtain ⟨hx, -⟩ := ScanReport.unread?_eq_some_iff.1 ha
  obtain ⟨hy, -⟩ := ScanReport.unread?_eq_some_iff.1 hb
  rw [hx, hy, heq]

theorem isScanOf_reportOf (hroot : Addressable root) (ht : IsSound (.folder entries)) :
    IsScanOf (.folder entries) root (reportOf root (.folder entries)) where
  mem_files := mem_filesOf_reportOf hroot ht
  ordered := pairwise_filesOf_reportOf ht
  mem_skipped := mem_skipped_reportOf hroot ht
  distinct := nodup_skipped_reportOf ht

/-- **What lies below a folder decides what a scan of it says,** up to the order of what is skipped. -/
theorem IsScanOf.eq_of_holdsSame {t' : Tree} {report report' : ScanReport}
    (h : IsScanOf t root report) (h' : IsScanOf t' root report') (hsame : t.HoldsSame t') :
    (∀ kind, report'.filesOf kind = report.filesOf kind) ∧
      report'.skipped.Perm report.skipped := by
  have hsource (kind : SourceKind) (folder : Route) (name : String) (bytes : ByteArray) :
      IsSource t' kind folder name bytes ↔ IsSource t kind folder name bytes := by
    rw [IsSource, IsSource, hsame.file_iff]
  constructor
  · intro kind
    have hirrefl {a b : SourceFile} (hab : a.path.Before b.path) : a ≠ b := by
      rintro rfl
      exact hab.2 rfl
    refine List.Perm.eq_of_pairwise (fun a b _ _ hab hba => ?_) (h'.ordered kind) (h.ordered kind)
      ((List.perm_ext_iff_of_nodup ((h'.ordered kind).imp hirrefl)
        ((h.ordered kind).imp hirrefl)).2 fun file => ?_)
    · exact absurd (Path.components_eq_of_le hab.1 hba.1) hab.2
    · rw [h'.mem_files, h.mem_files]
      simp only [hsource]
  · refine (List.perm_ext_iff_of_nodup (.of_map _ h'.distinct) (.of_map _ h.distinct)).2
      fun ⟨p, fault⟩ => ?_
    rw [h'.mem_skipped, h.mem_skipped]
    simp only [IsUnreadable, hsource, hsame.folder_iff]

/-- **A scan finds every file of the two kinds, at any depth and in folders of any name,** reads it or
says that it cannot be read, and does not depend on the order in which folders list what they hold.
At anything but a folder it fails. -/
theorem scan_exact (d : Disk) (root : Path) :
    (d.kindAt root ≠ some .folder →
      (scan root : StateM Disk _).run d = (.error (.noUserFolder root.text), d)) ∧
    ∀ entries, d.find root = .ok (.folder entries) → IsSound (.folder entries) →
      ∃ report, (scan root : StateM Disk _).run d = (.ok report, d) ∧
        IsScanOf (.folder entries) root report ∧
        ∀ d' entries', d'.find root = .ok (.folder entries') → IsSound (.folder entries') →
          Tree.HoldsSame (.folder entries) (.folder entries') →
          ∃ report', (scan root : StateM Disk _).run d' = (.ok report', d') ∧
            (∀ kind, report'.filesOf kind = report.filesOf kind) ∧
            report'.skipped.Perm report.skipped := by
  refine ⟨run_scan_of_not_folder, fun entries hfind hsound => ?_⟩
  have hscan := isScanOf_reportOf (addressable_of_find hfind) hsound
  refine ⟨_, run_scan hfind hsound, hscan, fun d' entries' hfind' hsound' hsame => ?_⟩
  exact ⟨_, run_scan hfind' hsound',
    hscan.eq_of_holdsSame (isScanOf_reportOf (addressable_of_find hfind') hsound') hsame⟩

/-- A folder with a name like that of a file, a file with several dots, one that begins with a dot,
and one that is no text. -/
def oddEntries : List (String × Tree) :=
  [("x.talon", .folder [("a.b.talon", .file "-".toUTF8), (".talon", .file "-".toUTF8)]),
    ("c.talon-list", .file "a: b".toUTF8), ("d.talon", .file ⟨#[0xff]⟩)]

theorem isSound_oddEntries : IsSound (.folder oddEntries) := by
  refine .folder (by decide) (by decide) ?_
  have hinner : IsSound (.folder [("a.b.talon", .file "-".toUTF8), (".talon", .file "-".toUTF8)]) :=
    .folder (by decide) (by decide) (by simp [IsSound.file])
  simpa [oddEntries, IsSound.file] using hinner

/-- A disk with these entries in a folder. -/
def diskWith (entries : List (String × Tree)) : Disk := { top := .folder [("u", .folder entries)] }

/-- What is found in the folder, and in the one that lists it backwards. -/
theorem scan_exact_odd :
    ((diskWith oddEntries).kindAt ⟨"u/d.talon"⟩ ≠ some .folder ∧
      (scan ⟨"u/d.talon"⟩ : StateM Disk _).run (diskWith oddEntries) =
        (.error (.noUserFolder "u/d.talon"), diskWith oddEntries)) ∧
    ∃ report, (scan ⟨"u"⟩ : StateM Disk _).run (diskWith oddEntries) =
        (.ok report, diskWith oddEntries) ∧
      IsScanOf (.folder oddEntries) ⟨"u"⟩ report ∧
      ∃ report', (scan ⟨"u"⟩ : StateM Disk _).run (diskWith oddEntries.reverse) =
          (.ok report', diskWith oddEntries.reverse) ∧
        (∀ kind, report'.filesOf kind = report.filesOf kind) ∧
        report'.skipped.Perm report.skipped := by
  have hfile : (diskWith oddEntries).kindAt ⟨"u/d.talon"⟩ ≠ some .folder := by decide
  have hfind : (diskWith oddEntries).find ⟨"u"⟩ = .ok (.folder oddEntries) := by rfl
  have hfind' : (diskWith oddEntries.reverse).find ⟨"u"⟩ = .ok (.folder oddEntries.reverse) := by rfl
  have hperm : oddEntries.Perm oddEntries.reverse := (List.reverse_perm _).symm
  obtain ⟨report, hrun, hscan, hother⟩ :=
    (scan_exact (diskWith oddEntries) ⟨"u"⟩).2 oddEntries hfind isSound_oddEntries
  exact ⟨⟨hfile, (scan_exact (diskWith oddEntries) ⟨"u/d.talon"⟩).1 hfile⟩, report, hrun, hscan,
    hother (diskWith oddEntries.reverse) oddEntries.reverse hfind' (isSound_oddEntries.of_perm hperm)
      (Tree.holdsSame_of_perm (by decide) hperm)⟩

/-! ## A path that is too long -/

/-- The path of the folder `u` with this many slashes after its name. -/
def slashed (n : Nat) : Path := ⟨"u" ++ String.ofList (List.replicate n '/')⟩

theorem size_slashed (n : Nat) : (slashed n).text.utf8ByteSize = n + 1 := by
  have hslashes : (String.ofList (List.replicate n '/')).utf8ByteSize = n := by
    induction n with
    | zero => rfl
    | succ n ih =>
      rw [List.replicate_succ', String.ofList_append, String.utf8ByteSize_append, ih]
      rfl
  rw [slashed, String.utf8ByteSize_append, hslashes, Nat.add_comm]
  rfl

theorem segments_slashed (n : Nat) : (slashed n).segments = ["u"] := by
  have hslashes : Path.partsOf (List.replicate n '/') = [] := by
    induction n with
    | zero => exact Path.partsOf_nil
    | succ n ih =>
      rw [List.replicate_succ, ← List.nil_append ('/' :: List.replicate n '/'),
        Path.partsOf_append_slash, Path.partsOf_nil, ih, List.append_nil]
  have hname : Path.partsOf ['u'] = ["u"] := Path.partsOf_of_not_mem (by simp) (by decide)
  have htext : (slashed n).text.toList = ['u'] ++ List.replicate n '/' := by simp [slashed]
  rw [Path.segments_eq, htext]
  cases n with
  | zero => exact hname
  | succ n =>
    rw [List.replicate_succ] at hslashes ⊢
    rw [Path.partsOf_append_slash, hname]
    rw [← List.nil_append ('/' :: _), Path.partsOf_append_slash, Path.partsOf_nil,
      List.nil_append] at hslashes
    rw [hslashes, List.append_nil]

theorem find_slashed {n : Nat} (h : n < maxPathBytes) (entries : List (String × Tree)) :
    (diskWith entries).find (slashed n) = .ok (.folder entries) := by
  have hne : (slashed n).text ≠ "" := fun hempty => by
    have hsize := size_slashed n
    rw [hempty] at hsize
    exact absurd hsize (Nat.succ_ne_zero n).symm
  have haddr : Addressable (slashed n) :=
    ⟨by simp [slashed, List.mem_replicate], hne, by rw [size_slashed]; exact h⟩
  have hlocate : (diskWith entries).locate (slashed n) =
      .ok (["u"], (slashed n).endsWithSlash) := by
    have habs : (slashed n).isAbsolute = false := by simp [Path.isAbsolute_eq, slashed]
    rw [locate_of_addressable haddr, segments_slashed, habs]
    rfl
  rw [Disk.find, hlocate]
  rfl

/-- A folder with a file of commands. -/
def plainEntries : List (String × Tree) := [("a.talon", .file "-\nx: y".toUTF8)]

theorem isSound_plainEntries : IsSound (.folder plainEntries) :=
  .folder (by decide) (by decide) (by simp [plainEntries, IsSound.file])

/-- The file in this folder, at a path with this many slashes. -/
def farFile (n : Nat) : SourceFile := ⟨(slashed n).join "a.talon", "-\nx: y"⟩

theorem isSource_plainEntries (n : Nat) :
    IsSource (.folder plainEntries) .commands [] "a.talon" (farFile n).content.toUTF8 :=
  ⟨rfl, "a", by decide, by decide⟩

/-- The folder can be opened, and the file cannot. -/
theorem skipped_of_long_path {n : Nat} (h : n < maxPathBytes) (hlong : maxPathBytes < n + 8) :
    ∃ report, (scan (slashed n) : StateM Disk _).run (diskWith plainEntries) =
        (.ok report, diskWith plainEntries) ∧
      farFile n ∉ report.commandFiles ∧ ((farFile n).path, .nameTooLong) ∈ report.skipped := by
  have hfind := find_slashed h plainEntries
  have hsound := isSound_plainEntries
  have hfile : ¬ IsShort (farFile n).path := by
    have hsize : (slashed n).text.utf8ByteSize + 7 ≤ (farFile n).path.text.utf8ByteSize :=
      Path.size_join (slashed n) "a.talon"
    rw [size_slashed] at hsize
    exact Nat.not_le.2 (hlong.trans_le hsize)
  have hscan := isScanOf_reportOf (addressable_of_find hfind) hsound
  refine ⟨_, run_scan hfind hsound, fun hmem => ?_, ?_⟩
  · obtain ⟨-, -, -, -, hshort⟩ := (hscan.mem_files .commands (farFile n)).1 hmem
    exact hfile hshort
  · exact (hscan.mem_skipped _ _).2 ⟨[], "a.talon", rfl, (addressable_of_find hfind).2.2,
      .inr ⟨.inr ⟨_, _, isSource_plainEntries n⟩, hfile, rfl⟩⟩

/-- A text of the right kind is not read at a path of 4098 bytes. -/
theorem far_file_skipped :
    (diskWith plainEntries).find (slashed 4090) = .ok (.folder plainEntries) ∧
      IsSound (.folder plainEntries) ∧
      IsSource (.folder plainEntries) .commands [] "a.talon" (farFile 4090).content.toUTF8 ∧
      ∃ report, (scan (slashed 4090) : StateM Disk _).run (diskWith plainEntries) =
          (.ok report, diskWith plainEntries) ∧
        farFile 4090 ∉ report.commandFiles ∧
        ((farFile 4090).path, .nameTooLong) ∈ report.skipped :=
  ⟨find_slashed (by decide) plainEntries, isSound_plainEntries, isSource_plainEntries 4090,
    skipped_of_long_path (by decide) (by decide)⟩

end VoiceIndex.UserFolder
