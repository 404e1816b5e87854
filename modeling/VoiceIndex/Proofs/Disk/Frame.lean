import VoiceIndex.Proofs.Disk.Access

/-!
# Requests that harm no file

Looking, reading, listing and making folders change no file: after them the files of the tree are
the same ones, byte for byte, and every path to one still leads there (`FilesKept`). A relation that
these requests keep to is kept to by every program made of them (`Harmless`, and `Quiet` where no
folder is made). This holds on a disk
that refuses requests as well, whatever the reasons it gives (`GuardedDisk.harmless_filesKept`).
-/

namespace VoiceIndex

/-! ## Folders that are made -/

namespace Tree

variable {t : Tree} {route other : Route} {bytes : ByteArray}

/-- The bytes of a file. -/
def bytes? : Tree → Option ByteArray
  | .file bytes => some bytes
  | .folder _ => none

/-- After a folder is made where nothing stood, a route leads to the same file as before, to a
folder where it led to one, or to the new folder where it led nowhere. -/
theorem get?_put_folder_cases (h : t.get? route = none) (other : Route) :
    ((t.put route (.folder [])).get? other).map bytes? = (t.get? other).map bytes? ∨
      t.get? other = none ∧ (t.put route (.folder [])).get? other = some (.folder []) := by
  -- along the route to the folder; the other route is followed beside it, as far as they agree
  induction route generalizing t other with
  | nil => simp [get?] at h
  | cons key rest ih =>
    cases t with
    | file _ => exact .inl rfl
    | folder entries =>
      cases other with
      | nil =>
        left
        cases hl : entries.lookup key <;> by_cases hr : rest = [] <;>
          simp [put, hl, hr, get?, bytes?]
      | cons key' rest' =>
        cases hl : entries.lookup key with
        | some child =>
          -- what is made lies inside this entry; the other entries stay as they are
          have hchild : child.get? rest = none := by simpa [get?, hl] using h
          simp only [put, hl, get?, lookup_putEntry]
          by_cases hk : key' = key
          · simpa [hk, hl] using ih hchild rest'
          · simp [hk]
        | none =>
          by_cases hr : rest = []
          · simp only [put, hl, hr, if_true, get?, lookup_putEntry]
            by_cases hk : key' = key
            · cases rest' <;> simp [hk, hl, get?]
            · simp [hk]
          · simp [put, hl, hr]

theorem get?_eq_file_iff_map :
    t.get? other = some (.file bytes) ↔ (t.get? other).map bytes? = some (some bytes) := by
  rcases t.get? other with - | ⟨_⟩ | ⟨_⟩ <;> simp [bytes?]

theorem isFolderAt_iff_map : t.IsFolderAt other ↔ (t.get? other).map bytes? = some none := by
  unfold IsFolderAt
  rcases t.get? other with - | ⟨_⟩ | ⟨_⟩ <;> simp [bytes?]

theorem get?_put_folder_eq_file_iff (h : t.get? route = none) :
    (t.put route (.folder [])).get? other = some (.file bytes) ↔
      t.get? other = some (.file bytes) := by
  rcases get?_put_folder_cases h other with hsame | ⟨hnone, hmade⟩
  · rw [get?_eq_file_iff_map, get?_eq_file_iff_map, hsame]
  · simp [hnone, hmade]

theorem isFolderAt_put_folder (h : t.get? route = none) (hother : t.IsFolderAt other) :
    (t.put route (.folder [])).IsFolderAt other := by
  rcases get?_put_folder_cases h other with hsame | ⟨-, hmade⟩
  · rw [isFolderAt_iff_map] at hother ⊢
    rw [hsame, hother]
  · exact ⟨[], hmade⟩

end Tree

namespace Disk

variable {d d' d'' : Disk} {p : Path} {bytes : ByteArray}

/-- The files are the same ones, byte for byte, and every path to one still leads there. -/
structure FilesKept (d d' : Disk) : Prop where
  folders : d.KeepsFolders d'
  file_iff : ∀ route bytes,
    d'.top.get? route = some (.file bytes) ↔ d.top.get? route = some (.file bytes)

namespace FilesKept

theorem refl (d : Disk) : d.FilesKept d := ⟨⟨rfl, fun _ => id⟩, fun _ _ => Iff.rfl⟩

theorem trans (h : d.FilesKept d') (h' : d'.FilesKept d'') : d.FilesKept d'' where
  folders := ⟨h'.folders.1.trans h.folders.1, fun _ hr => h'.folders.2 _ (h.folders.2 _ hr)⟩
  file_iff route bytes := (h'.file_iff route bytes).trans (h.file_iff route bytes)

/-- A file that can be read has the same bytes afterwards. -/
theorem bytesAt_eq_ok (h : d.FilesKept d') (hb : d.bytesAt p = .ok bytes) :
    d'.bytesAt p = .ok bytes := by
  obtain ⟨front, name, hends⟩ := exists_endsIn_of_bytesAt hb
  obtain ⟨route, hl, hget⟩ := bytesAt_eq_ok_iff.1 hb
  exact bytesAt_eq_ok_iff.2
    ⟨route, h.folders.locate_eq_ok hends hl, (h.file_iff route bytes).2 hget⟩

/-- No file comes up at a path which led somewhere before, or which has no two dots. -/
theorem bytesAt_iff (h : d.FilesKept d')
    (hpath : (∃ place, d.locate p = .ok place) ∨ ".." ∉ p.segments) :
    d'.bytesAt p = .ok bytes ↔ d.bytesAt p = .ok bytes := by
  refine ⟨fun hb => ?_, h.bytesAt_eq_ok⟩
  obtain ⟨front, name, hends⟩ := exists_endsIn_of_bytesAt hb
  obtain ⟨route, hl', hget'⟩ := bytesAt_eq_ok_iff.1 hb
  have hget : d.top.get? route = some (.file bytes) := (h.file_iff route bytes).1 hget'
  refine bytesAt_eq_ok_iff.2 ⟨route, ?_, hget⟩
  rcases hpath with ⟨⟨route', only⟩, hl⟩ | hdots
  · have hsame := h.folders.locate_eq_ok hends hl
    rwa [← hl', hsame]
  · obtain ⟨haddr, honly, hsize, folder, hfolder, rfl⟩ := (locate_eq_ok_iff hends).1 hl'
    have hparts : ".." ∉ Path.partsOf front := fun hmem => hdots (by
      rw [Path.segments_of_endsIn hends]
      exact List.mem_append_left _ hmem)
    unfold enterFront at hfolder
    rw [h.folders.1] at hfolder
    exact (locate_eq_ok_iff hends).2 ⟨haddr, honly, hsize, folder,
      enter_of_isFolderAt hparts hfolder (Tree.isFolderAt_of_get?_append hget), rfl⟩

end FilesKept

theorem filesKept_makeFolder (d : Disk) (p : Path) : d.FilesKept (d.makeFolder p).2 := by
  unfold makeFolder
  rcases d.locate p with fault | ⟨route, only⟩
  · exact .refl d
  · simp only
    cases hget : d.top.get? route with
    | some _ => exact .refl d
    | none =>
      split_ifs
      · exact ⟨⟨rfl, fun _ => Tree.isFolderAt_put_folder hget⟩,
          fun _ _ => Tree.get?_put_folder_eq_file_iff hget⟩
      · exact .refl d

end Disk

/-! ## Programs that look, read and make folders -/

section

open DiskAccess

variable {σ α β : Type} {R : σ → σ → Prop}

/-- The program ends in a state to which its first one has the relation. -/
def Keeps (R : σ → σ → Prop) (x : StateM σ α) : Prop := ∀ w, R w (x.run w).2

variable [DiskAccess (StateM σ)]

/-- A relation that is kept to by looking, by reading and by listing. -/
structure Quiet (R : σ → σ → Prop) : Prop where
  refl : ∀ w, R w w
  trans : ∀ {u v w}, R u v → R v w → R u w
  kindAt : ∀ p, Keeps R (kindAt p)
  readBytes : ∀ p, Keeps R (readBytes p)
  listFolder : ∀ p, Keeps R (listFolder p)

/-- A relation that is kept to by making folders as well. -/
structure Harmless (R : σ → σ → Prop) : Prop extends Quiet R where
  makeFolder : ∀ p, Keeps R (makeFolder p)

namespace Quiet

theorem pure (h : Quiet R) (a : α) : Keeps R (Pure.pure a : StateM σ α) := fun w => h.refl w

theorem bind (h : Quiet R) {x : StateM σ α} {f : α → StateM σ β} (hx : Keeps R x)
    (hf : ∀ a, Keeps R (f a)) : Keeps R (x >>= f) := fun w =>
  h.trans (hx w) (hf (x.run w).1 (x.run w).2)

theorem foldlM (h : Quiet R) {f : β → α → StateM σ β} (hf : ∀ b a, Keeps R (f b a)) (as : List α)
    (b : β) : Keeps R (as.foldlM f b) := by
  induction as generalizing b with
  | nil => exact h.pure b
  | cons a as ih =>
    rw [List.foldlM_cons]
    exact h.bind (hf b a) ih

theorem isFolder (h : Quiet R) (p : Path) : Keeps R (isFolder p) :=
  h.bind (h.kindAt p) fun _ => h.pure _

theorem isThere (h : Quiet R) (p : Path) : Keeps R (isThere p) :=
  h.bind (h.kindAt p) fun _ => h.pure _

theorem readText (h : Quiet R) (p : Path) : Keeps R (readText p) := by
  refine h.bind (h.readBytes p) fun result => ?_
  cases result with
  | error fault => exact h.pure _
  | ok bytes =>
    simp only
    cases String.fromUTF8? bytes <;> exact h.pure _

end Quiet

namespace Harmless

/-- The answer to a folder that could not be made. -/
theorem orFolder (h : Harmless R) (p : Path) (fault : Fault) :
    Keeps R (do return if ← DiskAccess.isFolder p then .ok () else .error fault :
      StateM σ (Except Fault Unit)) :=
  h.bind (h.isFolder p) fun _ => h.pure _

theorem makeFoldersFrom (h : Harmless R) (folders : List Path) :
    Keeps R (makeFoldersFrom folders) := by
  induction folders with
  | nil => exact h.pure _
  | cons p above ih =>
    unfold DiskAccess.makeFoldersFrom
    split_ifs
    · exact h.pure _
    · refine h.bind (h.makeFolder p) fun _ => ?_
      split
      · exact h.pure _
      · -- the folder above is missing: it is made, and the folder is tried once more
        refine h.bind ih fun _ => ?_
        split
        · exact h.pure _
        · refine h.bind (h.makeFolder p) fun _ => ?_
          split
          · exact h.pure _
          · exact h.orFolder p _
      · exact h.orFolder p _

theorem makeRoom (h : Harmless R) (p : Path) : Keeps R (makeRoom p) := by
  unfold DiskAccess.makeRoom
  cases p.parent? with
  | none => exact h.pure _
  | some folder => exact h.makeFoldersFrom folder.ancestors

end Harmless

end

/-- Looking, reading and listing leave a disk as it is. -/
theorem Disk.quiet_eq : Quiet fun d d' : Disk => d' = d where
  refl _ := rfl
  trans h h' := h'.trans h
  kindAt _ _ := rfl
  readBytes _ _ := rfl
  listFolder _ _ := rfl

/-! ## Disks that refuse requests -/

/-- A disk before which requests are refused: for want of permission, say, or by a device that
fails for a while. -/
structure GuardedDisk where
  disk : Disk
  /-- The reasons for which the requests to come are refused, one after another. Those that come
  later reach the disk. -/
  refusals : List (Option Fault) := []

namespace GuardedDisk

variable {α : Type}

/-- A request that reaches the disk unless it is refused first. -/
def request (refused : Fault → α) (x : StateM Disk α) : StateM GuardedDisk α := fun w =>
  match w.refusals.head?.join with
  | some fault => (refused fault, ⟨w.disk, w.refusals.tail⟩)
  | none => ((x.run w.disk).1, ⟨(x.run w.disk).2, w.refusals.tail⟩)

/-- Nothing can be seen at a path to which the way is barred. -/
instance : DiskAccess (StateM GuardedDisk) where
  kindAt p := request (fun _ => none) (DiskAccess.kindAt p)
  readBytes p := request .error (DiskAccess.readBytes p)
  writeBytes p bytes := request .error (DiskAccess.writeBytes p bytes)
  moveFile source target := request .error (DiskAccess.moveFile source target)
  makeFolder p := request .error (DiskAccess.makeFolder p)
  listFolder p := request .error (DiskAccess.listFolder p)

theorem keeps_request {R : Disk → Disk → Prop} (refl : ∀ d, R d d) (refused : Fault → α)
    {x : StateM Disk α} (hx : Keeps R x) :
    Keeps (fun w w' => R w.disk w'.disk) (request refused x) := by
  intro w
  show R w.disk (request refused x w).2.disk
  unfold request
  cases w.refusals.head?.join with
  | some fault => exact refl w.disk
  | none => exact hx w.disk

/-- **Looking, reading, listing and making folders change no file**, whether they are refused or not. -/
theorem harmless_filesKept : Harmless fun w w' : GuardedDisk => w.disk.FilesKept w'.disk where
  refl w := .refl w.disk
  trans := .trans
  kindAt _ := keeps_request .refl _ fun d => .refl d
  readBytes _ := keeps_request .refl _ fun d => .refl d
  listFolder _ := keeps_request .refl _ fun d => .refl d
  makeFolder p := keeps_request .refl _ fun d => d.filesKept_makeFolder p

end GuardedDisk

end VoiceIndex
