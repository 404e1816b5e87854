import Mathlib.Data.List.Perm.Basic
import VoiceIndex.Proofs.Disk.Access
import VoiceIndex.Proofs.Path.Below

/-!
# Walking down a tree

A walk of a folder opens the folders at any depth below it and ends at files, and at folders with a
path that the system does not open. `leaves` lists where it ends, in the order in which it gets
there. Whatever the order, these are the files, and the folders too long to open, that lie in folders
which it opened (`mem_leaves_iff`), each once (`pairwise_leaves`), and a path leads from the top of the
disk to what the walk finds there (`find_join`).
-/

namespace VoiceIndex

namespace Disk

/-- The path is short enough for the system to open it. -/
def IsShort (p : Path) : Prop := p.text.utf8ByteSize ≤ maxPathBytes

instance : DecidablePred IsShort := fun _ => inferInstanceAs (Decidable (_ ≤ _))

end Disk

namespace Tree

open Disk (IsShort maxPathBytes)

variable {t u : Tree} {p q : Path} {depth : Nat} {name : String} {route : Route}
  {entries : List (String × Tree)}

/-! ## Trees that a disk can hold -/

/-- A name that an entry of a folder can have. -/
structure IsEntryName (name : String) : Prop extends Path.IsName name where
  no_nul : '\x00' ∉ name.toList
  size_le : name.utf8ByteSize ≤ Disk.maxNameBytes

instance (name : String) : Decidable (IsEntryName name) :=
  decidable_of_iff ((name ≠ "" ∧ name ≠ "." ∧ name ≠ ".." ∧ '/' ∉ name.toList) ∧
      '\x00' ∉ name.toList ∧ name.utf8ByteSize ≤ Disk.maxNameBytes)
    ⟨fun ⟨⟨h₁, h₂, h₃, h₄⟩, h₅, h₆⟩ => ⟨⟨h₁, h₂, h₃, h₄⟩, h₅, h₆⟩,
      fun ⟨⟨h₁, h₂, h₃, h₄⟩, h₅, h₆⟩ => ⟨⟨h₁, h₂, h₃, h₄⟩, h₅, h₆⟩⟩

/-- Every folder holds names that it can hold, each of them once. -/
inductive IsSound : Tree → Prop
  | file (bytes : ByteArray) : IsSound (.file bytes)
  | folder {entries : List (String × Tree)} (names : ∀ e ∈ entries, IsEntryName e.1)
      (distinct : (entries.map Prod.fst).Nodup) (inner : ∀ e ∈ entries, IsSound e.2) :
      IsSound (.folder entries)

/-- The same files and folders are at the same routes, whatever the order in which the folders list
them. -/
structure HoldsSame (t t' : Tree) : Prop where
  file_iff : ∀ route bytes,
    t'.get? route = some (.file bytes) ↔ t.get? route = some (.file bytes)
  folder_iff : ∀ route, t'.IsFolderAt route ↔ t.IsFolderAt route

theorem lookup_eq_some_iff_mem (h : (entries.map Prod.fst).Nodup) :
    entries.lookup name = some t ↔ (name, t) ∈ entries := by
  induction entries with
  | nil => simp
  | cons entry rest ih =>
    obtain ⟨key, u⟩ := entry
    obtain ⟨hkey, hrest⟩ := List.nodup_cons.1 h
    rw [List.lookup_cons]
    by_cases hk : name = key
    · subst hk
      have hnot : (name, t) ∉ rest := fun hmem => hkey (List.mem_map.2 ⟨_, hmem, rfl⟩)
      simp [hnot, eq_comm]
    · simp [hk, beq_eq_false_iff_ne.2 hk, ih hrest]

/-- A folder may list what it holds in any order. -/
theorem IsSound.of_perm {entries' : List (String × Tree)} (h : IsSound (.folder entries))
    (hperm : entries.Perm entries') : IsSound (.folder entries') := by
  cases h with
  | folder names distinct inner =>
    exact .folder (fun e he => names e (hperm.mem_iff.2 he))
      ((hperm.map Prod.fst).nodup_iff.1 distinct) fun e he => inner e (hperm.mem_iff.2 he)

theorem holdsSame_of_perm {entries' : List (String × Tree)} (h : (entries.map Prod.fst).Nodup)
    (hperm : entries.Perm entries') : HoldsSame (.folder entries) (.folder entries') := by
  have h' : (entries'.map Prod.fst).Nodup := (hperm.map Prod.fst).nodup_iff.1 h
  have hlookup (name : String) : entries'.lookup name = entries.lookup name := by
    ext t
    rw [lookup_eq_some_iff_mem h', lookup_eq_some_iff_mem h, hperm.mem_iff]
  refine ⟨fun route bytes => ?_, fun route => ?_⟩
  · cases route <;> simp [get?, hlookup]
  · cases route <;> simp [isFolderAt_folder_nil, isFolderAt_folder_cons, hlookup]

theorem get?_append (t : Tree) (route other : Route) :
    t.get? (route ++ other) = (t.get? route).bind (·.get? other) := by
  induction route generalizing t with
  | nil => rfl
  | cons key rest ih =>
    cases t with
    | file bytes => rfl
    | folder entries =>
      simp only [List.cons_append, get?]
      cases entries.lookup key with
      | none => rfl
      | some child => exact ih child

/-- What lies in a sound tree is sound, and the names that lead to it are names. -/
theorem IsSound.get? (h : t.IsSound) (hget : t.get? route = some u) :
    u.IsSound ∧ ∀ name ∈ route, IsEntryName name := by
  induction route generalizing t with
  | nil =>
    obtain rfl : t = u := by simpa [Tree.get?] using hget
    exact ⟨h, by simp⟩
  | cons key rest ih =>
    cases h with
    | file bytes => simp [Tree.get?] at hget
    | @folder entries names distinct inner =>
      obtain ⟨child, hchild, hrest⟩ : ∃ child, entries.lookup key = some child ∧
          child.get? rest = some u := by
        simpa [Tree.get?, Option.bind_eq_some_iff] using hget
      have hmem := (lookup_eq_some_iff_mem distinct).1 hchild
      obtain ⟨hu, hnames⟩ := ih (inner _ hmem) hrest
      exact ⟨hu, List.forall_mem_cons.2 ⟨names _ hmem, hnames⟩⟩

/-! ## Where a walk ends -/

/-- The entries of a folder in the order in which a walk turns to them: the files, then the folders,
the last one first. -/
def visitOrder (entries : List (String × Tree)) : List (String × Tree) :=
  entries.filter (·.2.kind == .file) ++ (entries.filter (·.2.kind != .file)).reverse

/-- Where a walk of the tree at this path ends, if it goes so deep at most. -/
def leaves : Nat → Path → Tree → List (Path × Tree)
  | _, p, .file bytes => [(p, .file bytes)]
  | 0, p, .folder entries => [(p, .folder entries)]
  | depth + 1, p, .folder entries =>
    if IsShort p then (visitOrder entries).flatMap fun (name, t) => leaves depth (p.join name) t
    else [(p, .folder entries)]

theorem visitOrder_perm (entries : List (String × Tree)) : (visitOrder entries).Perm entries :=
  ((List.reverse_perm _).append_left _).trans (List.filter_append_perm _ entries)

@[simp] theorem leaves_file (depth : Nat) (p : Path) (bytes : ByteArray) :
    leaves depth p (.file bytes) = [(p, .file bytes)] := by
  cases depth <;> rfl

theorem leaves_of_not_isShort (h : ¬ IsShort p) : leaves depth p t = [(p, t)] := by
  cases t with
  | file bytes => exact leaves_file depth p bytes
  | folder entries => cases depth <;> simp [leaves, h]

theorem leaves_folder (h : IsShort p) :
    leaves (depth + 1) p (.folder entries) =
      (visitOrder entries).flatMap fun (name, t) => leaves depth (p.join name) t := by
  rw [leaves, if_pos h]

/-- The files of a folder are leaves themselves. -/
theorem leaves_folder_eq_append (h : IsShort p) :
    leaves (depth + 1) p (.folder entries) =
      ((entries.filter (·.2.kind == .file)).map fun e => (p.join e.1, e.2)) ++
        ((entries.filter (·.2.kind != .file)).reverse.flatMap fun e =>
          leaves depth (p.join e.1) e.2) := by
  rw [leaves_folder h, visitOrder, List.flatMap_append, List.map_eq_flatMap]
  congr 1
  refine List.flatMap_congr fun e he => ?_
  obtain ⟨name, bytes | inner⟩ := e
  · exact leaves_file depth _ bytes
  · simp [kind] at he

theorem mem_leaves_folder {leaf : Path × Tree} (h : IsShort p) :
    leaf ∈ leaves (depth + 1) p (.folder entries) ↔
      ∃ name t, (name, t) ∈ entries ∧ leaf ∈ leaves depth (p.join name) t := by
  rw [leaves_folder h, List.mem_flatMap]
  simp only [(visitOrder_perm entries).mem_iff, Prod.exists]

/-! ## What is found -/

/-- The folders on the way from `p` to the end of the route have paths that the system opens. -/
def Reaches : Path → Route → Prop
  | _, [] => True
  | p, name :: rest => IsShort p ∧ Reaches (p.join name) rest

theorem isShort_of_below (h : IsShort (p.below route)) : IsShort p :=
  (Path.size_below p route).trans h

/-- The last of the folders has the longest path. -/
theorem reaches_concat : Reaches p (route ++ [name]) ↔ IsShort (p.below route) := by
  induction route generalizing p with
  | nil => simp [Reaches]
  | cons key rest ih =>
    rw [List.cons_append, Reaches, ih]
    refine and_iff_right_of_imp fun h => ?_
    rw [← Path.below_cons] at h
    exact isShort_of_below h

/-- A walk ends at once at a file and at a folder that is not opened. -/
theorem mem_singleton_iff_reaches (hend : t.kind = .file ∨ ¬ IsShort p) :
    (q, u) ∈ [(p, t)] ↔ ∃ route, t.get? route = some u ∧ q = p.below route ∧
      Reaches p route ∧ (u.kind = .file ∨ ¬ IsShort q) := by
  rw [List.mem_singleton, Prod.mk.injEq]
  constructor
  · rintro ⟨rfl, rfl⟩
    exact ⟨[], rfl, rfl, trivial, hend⟩
  · rintro ⟨route, hget, rfl, hreach, -⟩
    cases route with
    | nil => exact ⟨rfl, (Option.some.inj hget).symm⟩
    | cons name rest =>
      -- nothing lies below a file, and nothing is reached below a folder that is not opened
      rcases hend with hfile | hlong
      · cases t with
        | file bytes => simp [Tree.get?] at hget
        | folder entries => simp [kind] at hfile
      · exact absurd hreach.1 hlong

/-- **A walk that goes deep enough ends at every file in a folder that it opens, at every folder in one
that is itself too long to open, and nowhere else.** -/
theorem mem_leaves_iff (h : t.IsSound) (hdepth : maxPathBytes < p.text.utf8ByteSize + depth) :
    (q, u) ∈ leaves depth p t ↔ ∃ route, t.get? route = some u ∧ q = p.below route ∧
      Reaches p route ∧ (u.kind = .file ∨ ¬ IsShort q) := by
  induction depth generalizing p t with
  | zero =>
    have hlong : ¬ IsShort p := Nat.not_le.2 hdepth
    rw [leaves_of_not_isShort hlong, mem_singleton_iff_reaches (.inr hlong)]
  | succ depth ih =>
    by_cases hp : IsShort p
    · cases h with
      | file bytes => rw [leaves_file, mem_singleton_iff_reaches (.inl rfl)]
      | @folder entries names distinct inner =>
        have hinner {name : String} {t : Tree} (hmem : (name, t) ∈ entries) :
            (q, u) ∈ leaves depth (p.join name) t ↔ ∃ route, t.get? route = some u ∧
              q = (p.join name).below route ∧ Reaches (p.join name) route ∧
              (u.kind = .file ∨ ¬ IsShort q) := by
          refine ih (inner _ hmem) ?_
          have hsize := Path.size_join p name
          have hname : name.utf8ByteSize ≠ 0 :=
            mt String.utf8ByteSize_eq_zero_iff.1 (names _ hmem).ne_empty
          omega
        rw [mem_leaves_folder hp]
        constructor
        · rintro ⟨name, t, hmem, hleaf⟩
          obtain ⟨route, hget, hq, hreach, hu⟩ := (hinner hmem).1 hleaf
          have hchild := (lookup_eq_some_iff_mem distinct).2 hmem
          exact ⟨name :: route, by simp [Tree.get?, hchild, hget], hq, ⟨hp, hreach⟩, hu⟩
        · rintro ⟨route, hget, rfl, hreach, hu⟩
          cases route with
          | nil =>
            obtain rfl : u = .folder entries := (Option.some.inj hget).symm
            exact absurd hp (hu.resolve_left (by simp [kind]))
          | cons name rest =>
            obtain ⟨t, hchild, hrest⟩ : ∃ t, entries.lookup name = some t ∧
                t.get? rest = some u := by
              simpa [Tree.get?, Option.bind_eq_some_iff] using hget
            have hmem := (lookup_eq_some_iff_mem distinct).1 hchild
            exact ⟨name, t, hmem, (hinner hmem).2 ⟨rest, hrest, rfl, hreach.2, hu⟩⟩
    · rw [leaves_of_not_isShort hp, mem_singleton_iff_reaches (.inr hp)]

/-- Below a folder that is opened, a walk ends at what lies in the folders with short paths. -/
theorem mem_leaves_below_iff (h : IsSound (.folder entries)) (hp : IsShort p)
    (hdepth : maxPathBytes < p.text.utf8ByteSize + depth) :
    (q, u) ∈ leaves depth p (.folder entries) ↔ ∃ folder name,
      get? (.folder entries) (folder ++ [name]) = some u ∧ q = p.below (folder ++ [name]) ∧
        IsShort (p.below folder) ∧ (u.kind = .file ∨ ¬ IsShort q) := by
  rw [mem_leaves_iff h hdepth]
  constructor
  · rintro ⟨route, hget, rfl, hreach, hu⟩
    rcases List.eq_nil_or_concat route with rfl | ⟨folder, name, rfl⟩
    · obtain rfl : u = .folder entries := (Option.some.inj hget).symm
      exact absurd hp (hu.resolve_left (by simp [kind]))
    · rw [List.concat_eq_append] at hget hreach hu ⊢
      exact ⟨folder, name, hget, rfl, reaches_concat.1 hreach, hu⟩
  · rintro ⟨folder, name, hget, hq, hfolder, hu⟩
    exact ⟨folder ++ [name], hget, hq, reaches_concat.2 hfolder, hu⟩

/-! ## Nothing is found twice -/

/-- The path of what is found below a folder begins as the path of the folder does. -/
theorem components_prefix_of_mem (h : t.IsSound) (hmem : (q, u) ∈ leaves depth p t) :
    p.components <+: q.components := by
  induction depth generalizing p t with
  | zero =>
    cases t with
    | file bytes => simp_all
    | folder entries => simp_all [leaves]
  | succ depth ih =>
    by_cases hp : IsShort p
    · cases h with
      | file bytes => simp_all
      | @folder entries names distinct inner =>
        obtain ⟨name, t, hentry, hleaf⟩ := (mem_leaves_folder hp).1 hmem
        have hprefix := ih (inner _ hentry) hleaf
        rw [Path.components_join p (names _ hentry).toIsName] at hprefix
        exact (List.prefix_append _ _).trans hprefix
    · rw [leaves_of_not_isShort hp] at hmem
      simp_all

/-- **No two of the places where a walk ends have the same path.** -/
theorem pairwise_leaves (depth : Nat) (p : Path) (h : t.IsSound) :
    (leaves depth p t).Pairwise fun a b => a.1.components ≠ b.1.components := by
  induction depth generalizing p t with
  | zero => cases t <;> simp [leaves]
  | succ depth ih =>
    by_cases hp : IsShort p
    · cases h with
      | file bytes => simp
      | @folder entries names distinct inner =>
        have hsymm {a b : Path × Tree} (hab : a.1.components ≠ b.1.components) :
            b.1.components ≠ a.1.components := hab.symm
        rw [leaves_folder hp,
          (((visitOrder_perm entries).flatMap_right _)).pairwise_iff hsymm, List.pairwise_flatMap]
        refine ⟨fun entry hmem => ih _ (inner _ hmem), ?_⟩
        rw [List.nodup_iff_pairwise_ne, List.pairwise_map] at distinct
        refine distinct.imp_of_mem fun {a b} ha hb hne => ?_
        rintro ⟨q, u⟩ hleft ⟨q', u'⟩ hright heq
        -- what lies below two entries is told apart by the names of the entries
        have hpre := components_prefix_of_mem (inner _ ha) hleft
        have hpre' := components_prefix_of_mem (inner _ hb) hright
        rw [Path.components_join p (names _ ha).toIsName] at hpre
        rw [Path.components_join p (names _ hb).toIsName, ← heq] at hpre'
        have hlist := (List.prefix_of_prefix_length_le hpre hpre' (by simp)).eq_of_length (by simp)
        exact hne (by simpa using hlist)
    · rw [leaves_of_not_isShort hp]
      exact List.pairwise_singleton _ _

end Tree

namespace Disk

open VoiceIndex.Tree (IsEntryName)

variable {d : Disk} {p : Path} {name : String} {t : Tree} {entries : List (String × Tree)}
  {route : Route} {only : Bool}

/-! ## Following a path one name further -/

theorem find_eq_folder_iff :
    d.find p = .ok (.folder entries) ↔
      ∃ route only, d.locate p = .ok (route, only) ∧
        d.top.get? route = some (.folder entries) := by
  unfold find
  rcases hl : d.locate p with fault | ⟨route, only⟩
  · simp
  · rcases hg : d.top.get? route with - | ⟨bytes⟩ | ⟨inner⟩
    · simp [hg]
    · cases only <;> simp [hg]
    · simp [hg]

/-- Where a path leads to a folder, all its parts can be followed. -/
theorem enter_of_locate (hl : d.locate p = .ok (route, only)) (hfolder : d.top.IsFolderAt route) :
    enter d.top (if p.isAbsolute then [] else d.here) p.segments = .ok route := by
  rw [locate_of_addressable (addressable_of_locate hl)] at hl
  generalize (if p.isAbsolute then [] else d.here) = start at hl ⊢
  cases hlast : p.segments.getLast? with
  | none =>
    rw [List.getLast?_eq_none_iff.1 hlast, enter]
    simp only [hlast, Except.ok.injEq, Prod.mk.injEq] at hl
    rw [hl.1]
  | some last =>
    simp only [hlast] at hl
    by_cases hdots : last = "." ∨ last = ".."
    · rw [if_pos hdots] at hl
      cases he : enter d.top start p.segments <;> simp_all [Except.map]
    · rw [if_neg hdots] at hl
      obtain ⟨hdot, hup⟩ := not_or.1 hdots
      obtain ⟨front, hfront⟩ := List.getLast?_eq_some_iff.1 hlast
      rw [hfront, List.dropLast_concat] at hl
      rw [hfront, enter_append]
      cases he : enter d.top start front with
      | error fault => simp [he] at hl
      | ok folder =>
        simp only [he] at hl ⊢
        by_cases hsize : maxNameBytes < last.utf8ByteSize
        · simp [hsize] at hl
        · simp only [if_neg hsize, Except.ok.injEq, Prod.mk.injEq] at hl
          exact (enter_name_eq_ok_iff hdot hup).2 ⟨Nat.not_lt.1 hsize, hl.1.symm, hfolder⟩

/-- **What a folder holds is found under its name**, unless the path gets too long by it. -/
theorem find_join (h : d.find p = .ok (.folder entries)) (hname : IsEntryName name)
    (hentry : entries.lookup name = some t) :
    d.find (p.join name) =
      if IsShort (p.join name) then .ok t else .error .nameTooLong := by
  obtain ⟨route, only, hl, hroute⟩ := find_eq_folder_iff.1 h
  have hends := Path.endsIn_join p hname.toIsName
  have hnul : '\x00' ∉ (p.join name).text.toList := by
    rw [Path.toList_join, List.mem_append, not_or]
    refine ⟨fun hmem => ?_, hname.no_nul⟩
    rcases Path.mem_frontOf hmem with hmem | hslash
    · exact (addressable_of_locate hl).1 hmem
    · cases hslash
  have hne : (p.join name).text ≠ "" := fun hempty => by
    have := hends.toList_eq
    simp [hempty, hends.ne_nil] at this
  by_cases hshort : IsShort (p.join name)
  · have hlocate : d.locate (p.join name) = .ok (route ++ [name], false) := by
      refine (locate_eq_ok_iff hends).2 ⟨⟨hnul, hne, hshort⟩, rfl, ?_, route, ?_, ?_⟩
      · rw [String.ofList_toList]
        exact hname.size_le
      · have hhead : (if p.frontOf.head? = some '/' then [] else d.here) =
            if p.isAbsolute then [] else d.here := by
          simp only [Path.head?_frontOf, Path.isAbsolute_eq, beq_iff_eq]
        rw [enterFront, hhead, Path.partsOf_frontOf]
        exact enter_of_locate hl ⟨entries, hroute⟩
      · rw [String.ofList_toList]
    have hget : d.top.get? (route ++ [name]) = some t := by
      simp [Tree.get?_append, hroute, Tree.get?, hentry]
    rw [if_pos hshort, find, hlocate]
    cases t <;> simp [hget]
  · have hlocate : d.locate (p.join name) = .error .nameTooLong := by
      have hnul' : ¬ (p.join name).text.toList.contains '\x00' := by simpa using hnul
      unfold locate
      rw [if_neg hnul', if_neg hne, if_pos (Nat.not_le.1 hshort)]
    rw [if_neg hshort, find, hlocate]

end Disk

end VoiceIndex
