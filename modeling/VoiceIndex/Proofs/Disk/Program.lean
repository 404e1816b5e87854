import VoiceIndex.Proofs.Disk.Access

/-!
# Programs on a disk

What the programs over `DiskAccess` do when they run on a disk as a value. Where a file is
already, there is nothing to make room for (`makeRoom_of_bytesAt`), and the text that is read from
it is the one whose bytes it holds (`textAt_eq_ok_iff`).
-/

namespace VoiceIndex.Disk

open DiskAccess
open VoiceIndex.Path (EndsIn partsOf)

variable {σ α β : Type} {d : Disk} {p q : Path} {bytes : ByteArray}

/-- A program goes on where its first part left the state. -/
theorem run_bind_of {x : StateM σ α} {f : α → StateM σ β} {a : α} {w w' : σ}
    (h : x.run w = (a, w')) : (x >>= f).run w = (f a).run w' := by
  rw [StateT.run_bind, h]
  rfl

/-- A loop whose rounds leave the state as it is does what they do to the value that is carried. -/
theorem run_foldlM {f : β → α → StateM σ β} {g : β → α → β} {w : σ} {as : List α}
    (h : ∀ a ∈ as, ∀ b, (f b a).run w = (g b a, w)) (b : β) :
    (as.foldlM f b).run w = (as.foldl g b, w) := by
  induction as generalizing b with
  | nil => rfl
  | cons a as ih =>
    obtain ⟨ha, has⟩ := List.forall_mem_cons.1 h
    rw [List.foldlM_cons, run_bind_of (ha b), ih has, List.foldl_cons]

@[simp] theorem run_isFolder (d : Disk) (p : Path) :
    (isFolder p : StateM Disk Bool).run d = (d.kindAt p == some .folder, d) := rfl

@[simp] theorem run_isThere (d : Disk) (p : Path) :
    (isThere p : StateM Disk Bool).run d = ((d.kindAt p).isSome, d) := rfl

@[simp] theorem run_makeFolder (d : Disk) (p : Path) :
    (DiskAccess.makeFolder p : StateM Disk _).run d = d.makeFolder p := rfl

theorem run_writeText (d : Disk) (p : Path) (text : String) :
    (writeText p text : StateM Disk _).run d = d.writeBytes p text.toUTF8 := rfl

theorem run_moveFile (d : Disk) (p q : Path) :
    (DiskAccess.moveFile p q : StateM Disk _).run d = d.moveFile p q := rfl

/-! ## Reading -/

theorem kindAt_of_bytesAt (h : d.bytesAt p = .ok bytes) : d.kindAt p = some .file := by
  unfold bytesAt at h
  unfold kindAt
  rcases hf : d.find p with fault | ⟨found⟩ | ⟨entries⟩ <;> simp_all

theorem fromUTF8?_eq_some_iff {text : String} :
    String.fromUTF8? bytes = some text ↔ bytes = text.toUTF8 := by
  unfold String.fromUTF8?
  constructor
  · intro h
    split at h
    · cases h
      rfl
    · cases h
  · rintro rfl
    have hvalid : text.toUTF8.IsValidUTF8 := text.isValidUTF8
    rw [dif_pos hvalid]
    rfl

/-- The text of the file that a path leads to. -/
def textAt (d : Disk) (p : Path) : Except Fault String :=
  match d.bytesAt p with
  | .error fault => .error fault
  | .ok bytes => match String.fromUTF8? bytes with
    | some text => .ok text
    | none => .error .notText

theorem run_readText (d : Disk) (p : Path) :
    (readText p : StateM Disk _).run d = (d.textAt p, d) := by
  have hread : (readBytes p : StateM Disk _).run d = (d.bytesAt p, d) := rfl
  unfold readText textAt
  rw [run_bind_of hread]
  cases d.bytesAt p with
  | error fault => rfl
  | ok bytes =>
    simp only
    cases String.fromUTF8? bytes <;> rfl

theorem textAt_eq_ok_iff {text : String} :
    d.textAt p = .ok text ↔ d.bytesAt p = .ok text.toUTF8 := by
  unfold textAt
  cases d.bytesAt p with
  | error fault => simp
  | ok bytes =>
    simp only [Except.ok.injEq, ← fromUTF8?_eq_some_iff]
    cases String.fromUTF8? bytes <;> simp

/-! ## Making room -/

theorem locate_of_enter {there : Route} (haddr : Addressable q)
    (h : enter d.top (if q.isAbsolute then [] else d.here) q.segments = .ok there) :
    ∃ only, d.locate q = .ok (there, only) := by
  rw [locate_of_addressable haddr]
  generalize (if q.isAbsolute then [] else d.here) = start at h ⊢
  cases hlast : q.segments.getLast? with
  | none =>
    rw [List.getLast?_eq_none_iff.1 hlast, enter] at h
    exact ⟨true, by simpa using h⟩
  | some last =>
    by_cases hdots : last = "." ∨ last = ".."
    · exact ⟨true, by simp [hdots, h, Except.map]⟩
    · have hsplit : q.segments = q.segments.dropLast ++ [last] := by
        obtain ⟨front, hfront⟩ := List.getLast?_eq_some_iff.1 hlast
        rw [hfront, List.dropLast_concat]
      rw [hsplit, enter_append] at h
      cases he : enter d.top start q.segments.dropLast with
      | error fault => simp [he] at h
      | ok folder =>
        obtain ⟨hdot, hup⟩ := not_or.1 hdots
        simp only [he] at h
        obtain ⟨hsize, rfl, -⟩ := (enter_name_eq_ok_iff hdot hup).1 h
        exact ⟨q.endsWithSlash, by simp [hdot, hup, Nat.not_lt.2 hsize]⟩

/-- Where a folder is already, no folder is made. -/
theorem makeFolders_of_locate {there : Route} {only : Bool} (hl : d.locate q = .ok (there, only))
    (hfolder : d.top.IsFolderAt there) :
    (makeFolders q : StateM Disk _).run d = (.ok (), d) := by
  obtain ⟨entries, hget⟩ := hfolder
  have hmake : (DiskAccess.makeFolder q : StateM Disk _).run d = (.error .alreadyThere, d) := by
    rw [run_makeFolder, Disk.makeFolder, hl]
    simp only [hget]
  have hkind : d.kindAt q = some .folder := by
    simp [kindAt, find, hl, hget]
  unfold makeFolders Path.ancestors Path.upward makeFoldersFrom
  by_cases hempty : q.text = ""
  · rw [if_pos hempty]
    rfl
  · rw [if_neg hempty, run_bind_of hmake, run_bind_of (run_isFolder d q), hkind]
    rfl

/-- **Where a file is already, its folder is there.** -/
theorem makeRoom_of_bytesAt (h : d.bytesAt p = .ok bytes) :
    (makeRoom p : StateM Disk _).run d = (.ok (), d) := by
  obtain ⟨front, name, hends⟩ := exists_endsIn_of_bytesAt h
  obtain ⟨route, hl, hget⟩ := bytesAt_eq_ok_iff.1 h
  obtain ⟨⟨hnul, -, hsize⟩, -, -, folder, hf, rfl⟩ := (locate_eq_ok_iff hends).1 hl
  have hfolder := Tree.isFolderAt_of_get?_append hget
  unfold makeRoom
  by_cases hfront : front = []
  · subst hfront
    rw [Path.parent?_of_endsIn_nil hends]
    rfl
  obtain ⟨q, hparent, hne, hprefix, n, hparts⟩ := Path.parent?_of_endsIn hends hfront
  rw [hparent]
  have hsub : q.text.toList <+: p.text.toList := by
    rw [hends.toList_eq]
    exact hprefix.trans (List.prefix_append front name)
  have hle : q.text.utf8ByteSize ≤ p.text.utf8ByteSize := by
    obtain ⟨tail, htail⟩ := hsub
    rw [← String.ofList_toList (s := p.text), ← htail, String.ofList_append, String.ofList_toList,
      String.utf8ByteSize_append]
    exact Nat.le_add_right _ _
  have haddr : Addressable q :=
    ⟨fun hmem => hnul (hsub.subset hmem), fun hempty => hne (by rw [hempty]; rfl),
      hle.trans hsize⟩
  have habs : (if q.isAbsolute then [] else d.here) =
      if front.head? = some '/' then [] else d.here := by
    obtain ⟨c, rest, hc⟩ := List.exists_cons_of_ne_nil hne
    obtain ⟨tail, htail⟩ := hprefix
    rw [hc] at htail
    simp only [Path.isAbsolute_eq, hc, ← htail, List.cons_append, List.head?_cons, beq_iff_eq]
  -- the dots at the end of what stands before the name lead nowhere else
  have henter : enter d.top (if q.isAbsolute then [] else d.here) q.segments = .ok folder := by
    rw [habs]
    unfold enterFront at hf
    rw [hparts, enter_append] at hf
    revert hf
    cases enter d.top (if front.head? = some '/' then [] else d.here) q.segments with
    | error fault => exact id
    | ok there => simp only [enter_replicate_dot, imp_self]
  obtain ⟨only, hq⟩ := locate_of_enter haddr henter
  exact makeFolders_of_locate hq hfolder

end VoiceIndex.Disk
