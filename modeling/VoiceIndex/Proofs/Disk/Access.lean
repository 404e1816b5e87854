import VoiceIndex.Proofs.Disk.Folders
import VoiceIndex.Proofs.Path.Ending

/-!
# Requests to a disk

What a request to a disk finds and changes, said of routes. A path to a file ends in a name that
lies in a folder (`locate_eq_ok_iff`). A write puts one file at the spot of its path or does
nothing (`writeBytes_cases`), a move takes one file away and puts it elsewhere or does nothing
(`moveFile_cases`). A write touches no file of another name in the folder
(`bytesAt_writeBytes_iff`). What was written is found at its path (`bytesAt_of_writeBytes_ok`), and
a file that was moved where it was moved to (`bytesAt_of_moveFile_ok`).
-/

namespace VoiceIndex.Disk

open VoiceIndex.Path (EndsIn partsOf)

variable {d d' : Disk} {p q : Path} {front name name' : List Char} {route : Route} {only : Bool}
  {bytes found : ByteArray}

/-! ## Finding -/

/-- The folder that the part of a path before its name leads to. -/
def enterFront (d : Disk) (front : List Char) : Except Fault Route :=
  enter d.top (if front.head? = some '/' then [] else d.here) (partsOf front)

/-- The text of a path can be looked up at all. -/
def Addressable (p : Path) : Prop :=
  '\x00' ∉ p.text.toList ∧ p.text ≠ "" ∧ p.text.utf8ByteSize ≤ maxPathBytes

theorem addressable_of_locate {r : Route × Bool} (h : d.locate p = .ok r) : Addressable p := by
  unfold locate at h
  by_cases hnul : p.text.toList.contains '\x00'
  · rw [if_pos hnul] at h
    simp at h
  by_cases hempty : p.text = ""
  · rw [if_neg hnul, if_pos hempty] at h
    simp at h
  by_cases hsize : maxPathBytes < p.text.utf8ByteSize
  · rw [if_neg hnul, if_neg hempty, if_pos hsize] at h
    simp at h
  exact ⟨by simpa using hnul, hempty, Nat.not_lt.1 hsize⟩

theorem locate_of_addressable (h : Addressable p) :
    d.locate p =
      match p.segments.getLast? with
      | none => .ok (if p.isAbsolute then [] else d.here, true)
      | some last =>
        if last = "." ∨ last = ".." then
          (enter d.top (if p.isAbsolute then [] else d.here) p.segments).map (·, true)
        else match enter d.top (if p.isAbsolute then [] else d.here) p.segments.dropLast with
          | .error fault => .error fault
          | .ok folder =>
            if maxNameBytes < last.utf8ByteSize then .error .nameTooLong
            else .ok (folder ++ [last], p.endsWithSlash) := by
  obtain ⟨hnul, hempty, hsize⟩ := h
  unfold locate
  have hnul' : ¬ p.text.toList.contains '\x00' := by simpa using hnul
  exact (if_neg hnul').trans ((if_neg hempty).trans (if_neg (Nat.not_lt.2 hsize)))

theorem locate_eq_ok_iff (h : p.EndsIn front name) :
    d.locate p = .ok (route, only) ↔
      Addressable p ∧ only = false ∧ (String.ofList name).utf8ByteSize ≤ maxNameBytes ∧
        ∃ folder, d.enterFront front = .ok folder ∧ route = folder ++ [.ofList name] := by
  have hdot : String.ofList name ≠ "." := fun heq =>
    h.ne_dot (by rw [← String.toList_ofList (l := name), heq]; rfl)
  have hdots : String.ofList name ≠ ".." := fun heq =>
    h.ne_dots (by rw [← String.toList_ofList (l := name), heq]; rfl)
  have hstart : (if p.isAbsolute then [] else d.here) =
      if front.head? = some '/' then [] else d.here := by
    simp only [Path.isAbsolute_of_endsIn h, beq_iff_eq]
  have hlocate (ha : Addressable p) : d.locate p =
      match d.enterFront front with
      | .error fault => .error fault
      | .ok folder =>
        if maxNameBytes < (String.ofList name).utf8ByteSize then .error .nameTooLong
        else .ok (folder ++ [.ofList name], false) := by
    rw [locate_of_addressable ha, Path.segments_of_endsIn h,
      List.getLast?_append_of_ne_nil _ (by simp), hstart, Path.endsWithSlash_of_endsIn h]
    simp only [List.getLast?_singleton, hdot, hdots, or_self, if_false, List.dropLast_concat]
    rfl
  constructor
  · intro hok
    have ha := addressable_of_locate hok
    rw [hlocate ha] at hok
    cases hf : d.enterFront front with
    | error fault => simp [hf] at hok
    | ok folder =>
      simp only [hf] at hok
      split_ifs at hok with hsize
      simp only [Except.ok.injEq, Prod.mk.injEq] at hok
      exact ⟨ha, hok.2.symm, Nat.not_lt.1 hsize, folder, rfl, hok.1.symm⟩
  · rintro ⟨ha, rfl, hsize, folder, hf, rfl⟩
    simp only [hlocate ha, hf, if_neg (Nat.not_lt.2 hsize)]

/-- A path that does not end in a name leads to nothing but a folder. -/
theorem exists_endsIn_of_locate (h : d.locate p = .ok (route, false)) :
    ∃ front name, p.EndsIn front name := by
  rw [locate_of_addressable (addressable_of_locate h)] at h
  generalize (if p.isAbsolute then [] else d.here) = start at h
  cases hlast : p.segments.getLast? with
  | none => simp [hlast] at h
  | some last =>
    simp only [hlast] at h
    by_cases hdots : last = "." ∨ last = ".."
    · rw [if_pos hdots] at h
      cases he : enter d.top start p.segments <;> simp [he, Except.map] at h
    · rw [if_neg hdots] at h
      rw [not_or] at hdots
      refine Path.exists_endsIn ?_ hlast hdots.1 hdots.2
      cases he : enter d.top start p.segments.dropLast with
      | error fault => simp [he] at h
      | ok folder =>
        simp only [he] at h
        by_cases hsize : maxNameBytes < last.utf8ByteSize
        · simp [hsize] at h
        · simp only [if_neg hsize, Except.ok.injEq, Prod.mk.injEq] at h
          exact h.2

theorem bytesAt_eq_ok_iff :
    d.bytesAt p = .ok bytes ↔
      ∃ route, d.locate p = .ok (route, false) ∧ d.top.get? route = some (.file bytes) := by
  unfold bytesAt find
  rcases hl : d.locate p with fault | ⟨route, only⟩
  · simp
  · rcases hg : d.top.get? route with - | ⟨found⟩ | ⟨entries⟩
    · simp [hg]
    · cases only <;> simp [hg]
    · simp [hg]

theorem exists_endsIn_of_bytesAt (h : d.bytesAt p = .ok bytes) :
    ∃ front name, p.EndsIn front name := by
  obtain ⟨route, hl, -⟩ := bytesAt_eq_ok_iff.1 h
  exact exists_endsIn_of_locate hl

theorem fileSpot_eq_ok_iff :
    d.fileSpot p = .ok route ↔
      d.locate p = .ok (route, false) ∧ ¬ d.top.IsFolderAt route ∧
        d.top.IsFolderAt route.dropLast := by
  rw [← Tree.hasRoom_iff]
  unfold fileSpot Tree.IsFolderAt
  rcases hl : d.locate p with fault | ⟨there, only⟩
  · simp
  · rcases hg : d.top.get? there with - | ⟨found⟩ | ⟨entries⟩ <;> cases only <;>
      cases hroom : d.top.hasRoom there <;> simp [hg, hroom]
    all_goals
      rintro rfl
      simp [hg, hroom]

/-! ## Disks with the same folders -/

/-- Every path to a folder of the first disk leads to the same place on the second. -/
def KeepsFolders (d d' : Disk) : Prop :=
  d'.here = d.here ∧ ∀ route, d.top.IsFolderAt route → d'.top.IsFolderAt route

/-- Two disks on which every path to a folder leads to the same place. -/
def SameFolders (d d' : Disk) : Prop :=
  d'.here = d.here ∧ ∀ route, d'.top.IsFolderAt route ↔ d.top.IsFolderAt route

theorem SameFolders.symm (h : d.SameFolders d') : d'.SameFolders d :=
  ⟨h.1.symm, fun route => (h.2 route).symm⟩

theorem SameFolders.keeps (h : d.SameFolders d') : d.KeepsFolders d' :=
  ⟨h.1, fun route => (h.2 route).2⟩

theorem KeepsFolders.locate_eq_ok (h : d.KeepsFolders d') (hends : p.EndsIn front name)
    (hl : d.locate p = .ok (route, only)) : d'.locate p = .ok (route, only) := by
  rw [locate_eq_ok_iff hends] at hl ⊢
  obtain ⟨haddr, honly, hsize, folder, hf, hroute⟩ := hl
  refine ⟨haddr, honly, hsize, folder, ?_, hroute⟩
  unfold enterFront at hf ⊢
  rw [h.1]
  exact enter_mono h.2 hf

/-- A file stays as it is while the folders and what stands at its route stay as they are. -/
theorem KeepsFolders.bytesAt_eq_ok (h : d.KeepsFolders d')
    (hget : ∀ route, d.locate p = .ok (route, false) → d'.top.get? route = d.top.get? route)
    (hb : d.bytesAt p = .ok bytes) : d'.bytesAt p = .ok bytes := by
  obtain ⟨front, name, hends⟩ := exists_endsIn_of_bytesAt hb
  obtain ⟨route, hl, hg⟩ := bytesAt_eq_ok_iff.1 hb
  exact bytesAt_eq_ok_iff.2 ⟨route, h.locate_eq_ok hends hl, (hget route hl).trans hg⟩

/-! ## Writing -/

@[simp] theorem meetOutage_top (d : Disk) : d.meetOutage.2.top = d.top := by
  unfold meetOutage
  split <;> rfl

@[simp] theorem meetOutage_here (d : Disk) : d.meetOutage.2.here = d.here := by
  unfold meetOutage
  split <;> rfl

theorem locate_congr (htop : d'.top = d.top) (hhere : d'.here = d.here) :
    d'.locate p = d.locate p := by
  unfold locate
  rw [htop, hhere]

theorem bytesAt_congr (htop : d'.top = d.top) (hhere : d'.here = d.here) :
    d'.bytesAt p = d.bytesAt p := by
  unfold bytesAt find
  rw [locate_congr htop hhere, htop]

theorem fileSpot_congr (htop : d'.top = d.top) (hhere : d'.here = d.here) :
    d'.fileSpot p = d.fileSpot p := by
  unfold fileSpot
  rw [locate_congr htop hhere, htop]

/-- A write fails and changes no file, or puts one at the spot of the path; if it succeeds, this
one holds all the bytes. -/
theorem writeBytes_cases (d : Disk) (p : Path) (bytes : ByteArray) :
    (d.writeBytes p bytes).2.here = d.here ∧
      ((d.writeBytes p bytes).1 ≠ .ok () ∧ (d.writeBytes p bytes).2.top = d.top ∨
        ∃ route written, d.fileSpot p = .ok route ∧
          (d.writeBytes p bytes).2.top = d.top.put route (.file written) ∧
          ((d.writeBytes p bytes).1 = .ok () → written = bytes)) := by
  have hspot : d.meetOutage.2.fileSpot p = d.fileSpot p :=
    fileSpot_congr (meetOutage_top d) (meetOutage_here d)
  unfold writeBytes
  simp only [hspot]
  cases hs : d.fileSpot p with
  | error fault => simp
  | ok route =>
    rcases d.meetOutage.1 with - | - | kept
    · exact ⟨by simp, .inr ⟨route, bytes, rfl, by simp, fun _ => rfl⟩⟩
    · simp
    · exact ⟨by simp, .inr ⟨route, bytes.extract 0 kept, rfl, by simp, by simp⟩⟩

/-- A move fails and changes no file, or takes the file from the one spot and puts it at the
other. -/
theorem moveFile_cases (d : Disk) (source target : Path) :
    (d.moveFile source target).2.here = d.here ∧
      ((d.moveFile source target).1 ≠ .ok () ∧ (d.moveFile source target).2.top = d.top ∨
        ∃ bytes old new, d.bytesAt source = .ok bytes ∧ d.locate source = .ok (old, false) ∧
          d.fileSpot target = .ok new ∧ (d.moveFile source target).1 = .ok () ∧
          (d.moveFile source target).2.top = (d.top.erase old).put new (.file bytes)) := by
  have hspot : d.meetOutage.2.fileSpot target = d.fileSpot target :=
    fileSpot_congr (meetOutage_top d) (meetOutage_here d)
  have hbytes : d.meetOutage.2.bytesAt source = d.bytesAt source :=
    bytesAt_congr (meetOutage_top d) (meetOutage_here d)
  have hlocate : d.meetOutage.2.locate source = d.locate source :=
    locate_congr (meetOutage_top d) (meetOutage_here d)
  unfold moveFile
  simp only [hspot, hbytes, hlocate]
  cases hb : d.bytesAt source with
  | error fault => simp
  | ok bytes =>
    obtain ⟨old, hl, -⟩ := bytesAt_eq_ok_iff.1 hb
    rw [hl]
    cases hs : d.fileSpot target with
    | error fault => simp
    | ok new =>
      rcases d.meetOutage.1 with - | outage
      · exact ⟨by simp, .inr ⟨bytes, old, new, rfl, rfl, rfl, rfl, by simp⟩⟩
      · simp

/-! ## One file after a change -/

theorem sameFolders_put {bytes : ByteArray} (hhere : d'.here = d.here)
    (hspot : d.fileSpot p = .ok route) (htop : d'.top = d.top.put route (.file bytes)) :
    d.SameFolders d' := by
  refine ⟨hhere, fun other => ?_⟩
  rw [htop]
  exact Tree.isFolderAt_put_iff (fileSpot_eq_ok_iff.1 hspot).2.1

theorem sameFolders_writeBytes (d : Disk) (p : Path) (bytes : ByteArray) :
    d.SameFolders (d.writeBytes p bytes).2 := by
  obtain ⟨hhere, ⟨-, htop⟩ | ⟨route, written, hspot, htop, -⟩⟩ := writeBytes_cases d p bytes
  · exact ⟨hhere, fun other => by rw [htop]⟩
  · exact sameFolders_put hhere hspot htop

/-- Two names in one folder are beside each other. -/
theorem not_prefix_of_ne {folder : Route} {a b : String} (h : a ≠ b) :
    ¬ folder ++ [a] <+: folder ++ [b] := by
  rw [List.prefix_append_right_inj]
  simpa using h

/-- **A write changes no file of another name in the folder.** -/
theorem bytesAt_writeBytes_iff (hp : p.EndsIn front name) (hq : q.EndsIn front name')
    (hne : name' ≠ name) :
    (d.writeBytes q bytes).2.bytesAt p = .ok found ↔ d.bytesAt p = .ok found := by
  have hsame := sameFolders_writeBytes d q bytes
  have hget (there : Route) (hthere : d.locate p = .ok (there, false)) :
      (d.writeBytes q bytes).2.top.get? there = d.top.get? there := by
    obtain ⟨-, ⟨-, htop⟩ | ⟨route, written, hspot, htop, -⟩⟩ := writeBytes_cases d q bytes
    · rw [htop]
    · obtain ⟨-, -, -, folder, hf, rfl⟩ := (locate_eq_ok_iff hp).1 hthere
      obtain ⟨-, -, -, folder', hf', rfl⟩ :=
        (locate_eq_ok_iff hq).1 (fileSpot_eq_ok_iff.1 hspot).1
      obtain rfl : folder = folder' := by simpa [hf] using hf'
      have hname : String.ofList name' ≠ String.ofList name :=
        fun heq => hne (String.ofList_injective heq)
      rw [htop]
      exact Tree.get?_put_of_not_prefix _ _ (not_prefix_of_ne hname) (not_prefix_of_ne hname.symm)
  constructor
  · intro h
    refine hsame.symm.keeps.bytesAt_eq_ok (fun route hl => ?_) h
    exact (hget route (hsame.symm.keeps.locate_eq_ok hp hl)).symm
  · exact fun h => hsame.keeps.bytesAt_eq_ok hget h

/-- What is put at the end of a route whose folder exists is found there. -/
theorem get?_put_fileSpot {t : Tree} {new : Tree} (hspot : d.fileSpot p = .ok route)
    (hroom : t.IsFolderAt route.dropLast) : (t.put route new).get? route = some new := by
  obtain ⟨hl, -⟩ := fileSpot_eq_ok_iff.1 hspot
  obtain ⟨front, name, hends⟩ := exists_endsIn_of_locate hl
  obtain ⟨-, -, -, folder, -, rfl⟩ := (locate_eq_ok_iff hends).1 hl
  rw [List.dropLast_concat] at hroom
  obtain ⟨entries, hfolder⟩ := hroom
  exact Tree.get?_put_self t new folder _ hfolder

/-- **A write that succeeds is found at its path.** -/
theorem bytesAt_of_writeBytes_ok (hok : (d.writeBytes p bytes).1 = .ok ()) :
    (d.writeBytes p bytes).2.bytesAt p = .ok bytes := by
  obtain ⟨hhere, ⟨hfail, -⟩ | ⟨route, written, hspot, htop, hwritten⟩⟩ := writeBytes_cases d p bytes
  · exact absurd hok hfail
  obtain rfl := hwritten hok
  obtain ⟨hl, -, hroom⟩ := fileSpot_eq_ok_iff.1 hspot
  obtain ⟨front, name, hends⟩ := exists_endsIn_of_locate hl
  have hsame := sameFolders_put hhere hspot htop
  refine bytesAt_eq_ok_iff.2 ⟨route, hsame.keeps.locate_eq_ok hends hl, ?_⟩
  rw [htop]
  exact get?_put_fileSpot hspot hroom

/-- **A file that was moved is found at its new path.** -/
theorem bytesAt_of_moveFile_ok (hok : (d.moveFile p q).1 = .ok ()) :
    ∃ bytes, d.bytesAt p = .ok bytes ∧ (d.moveFile p q).2.bytesAt q = .ok bytes := by
  obtain ⟨hhere, ⟨hfail, -⟩ | ⟨bytes, old, new, hb, hl, hspot, -, htop⟩⟩ := moveFile_cases d p q
  · exact absurd hok hfail
  refine ⟨bytes, hb, ?_⟩
  obtain ⟨route, hl', hget⟩ := bytesAt_eq_ok_iff.1 hb
  obtain rfl : route = old := by simpa [hl] using hl'.symm
  have hfile : ¬ d.top.IsFolderAt route := by simp [Tree.IsFolderAt, hget]
  obtain ⟨hnew, hnot, hroom⟩ := fileSpot_eq_ok_iff.1 hspot
  obtain ⟨front, name, hends⟩ := exists_endsIn_of_locate hnew
  -- the folders are those of before, after the file is gone and after it is put elsewhere
  have hnot' : ¬ (d.top.erase route).IsFolderAt new := by rwa [Tree.isFolderAt_erase_iff hfile]
  have hsame : d.SameFolders (d.moveFile p q).2 := by
    refine ⟨hhere, fun other => ?_⟩
    rw [htop, Tree.isFolderAt_put_iff hnot', Tree.isFolderAt_erase_iff hfile]
  refine bytesAt_eq_ok_iff.2 ⟨new, hsame.keeps.locate_eq_ok hends hnew, ?_⟩
  rw [htop]
  exact get?_put_fileSpot hspot ((Tree.isFolderAt_erase_iff hfile).2 hroom)

/-- A move that fails changes no file. -/
theorem bytesAt_of_moveFile_failed {r : Path} (h : (d.moveFile p q).1 ≠ .ok ()) :
    (d.moveFile p q).2.bytesAt r = d.bytesAt r := by
  obtain ⟨hhere, ⟨-, htop⟩ | ⟨_, _, _, -, -, -, hok, -⟩⟩ := moveFile_cases d p q
  · exact bytesAt_congr htop hhere
  · exact absurd hok h

end VoiceIndex.Disk
