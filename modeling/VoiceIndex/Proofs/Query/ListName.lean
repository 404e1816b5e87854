import VoiceIndex.Proofs.Index.Import
import VoiceIndex.Proofs.Query.ListIndex
import VoiceIndex.Proofs.Source.ListFile
import VoiceIndex.Proofs.Source.Provenance

/-!
# Lists by the names of their files

A trigger names a list by its prefix and the name of its file alone, `user.arrow_key` for
`user/community/core/keys/arrow_key.talon-list`. The name of the list has that base, however deep
the file lies (`hasBase_listNameOfPath`), as long as the name is kept: one that was cut has no base
(`hasBase_clipMarked_iff`). So a list is found by the name of its file unless its own name is too
long (`resolve?_base_of_listFile`, `resolve?_base_deep`).
-/

namespace VoiceIndex

/-- The last part of a path between slashes, empty parts aside. -/
def lastSegment? (path : String) : Option String :=
  ((Text.pieces isSlash path).filter (· ≠ "")).getLast?

/-- A name without prefixes and folders. -/
structure IsBaseName (base : String) : Prop where
  ne_empty : base ≠ ""
  no_dot : '.' ∉ base.toList
  no_slash : ∀ c ∈ base.toList, isSlash c = false

instance : DecidablePred IsBaseName := fun base =>
  decidable_of_iff (base ≠ "" ∧ '.' ∉ base.toList ∧ base.toList.all (!isSlash ·)) <| by
    simp only [List.all_eq_true, Bool.not_eq_true']
    exact ⟨fun ⟨h₁, h₂, h₃⟩ => ⟨h₁, h₂, h₃⟩, fun ⟨h₁, h₂, h₃⟩ => ⟨h₁, h₂, h₃⟩⟩

/-! ## Bases -/

namespace IsAfterLast

variable {sep : Char} {s part : String}

theorem self (h : sep ∉ s.toList) : IsAfterLast sep s s := ⟨h, .inl rfl⟩

theorem of_append (front : List Char) (h : sep ∉ part.toList)
    (heq : s.toList = front ++ [sep] ++ part.toList) : IsAfterLast sep s part :=
  ⟨h, .inr ⟨front, by rw [heq, List.append_assoc, List.singleton_append]⟩⟩

theorem suffix (h : IsAfterLast sep s part) : part.toList <:+ s.toList := by
  obtain ⟨-, rfl | ⟨front, heq⟩⟩ := h
  · exact List.suffix_refl _
  · exact ⟨front ++ [sep], by rw [heq, List.append_assoc, List.singleton_append]⟩

end IsAfterLast

namespace IsBaseName

variable {base : String}

theorem slash_not_mem (h : IsBaseName base) : '/' ∉ base.toList :=
  fun hmem => absurd (h.no_slash '/' hmem) (by decide)

theorem isAfterLast_prefixed (h : IsBaseName base) :
    IsAfterLast '.' (listNameStart ++ base) base := by
  refine .of_append "user".toList h.no_dot ?_
  rw [String.toList_append]
  rfl

theorem hasBase_prefixed (h : IsBaseName base) : HasBase (listNameStart ++ base) base := by
  refine ⟨listNameStart ++ base, .self ?_, h.isAfterLast_prefixed⟩
  rw [String.toList_append, List.mem_append, not_or]
  exact ⟨by decide, h.slash_not_mem⟩

end IsBaseName

/-! ## From a path to a base -/

theorem following?_suffix {α : Type} {p : α → Bool} {xs rest : List α}
    (h : following? p xs = some rest) : rest <:+ xs := by
  induction xs with
  | nil => cases h
  | cons x xs ih =>
    unfold following? at h
    split_ifs at h with hx
    · obtain rfl := Option.some.inj h
      exact List.suffix_cons x xs
    · exact (ih h).trans (List.suffix_cons x xs)

/-- What a path says below the folder `user` ends with the last part of the path. -/
theorem exists_pathBelowUser_eq {path last : String} (h : lastSegment? path = some last) :
    ∃ front : String, pathBelowUser path = front ++ last ∧
      (front = "" ∨ ∃ folder, front.toList = folder ++ ['/']) := by
  unfold lastSegment? at h
  unfold pathBelowUser
  simp only
  generalize (Text.pieces isSlash path).filter (· ≠ "") = parts at h
  split
  · rename_i part rest hfollowing
    have hlast : (part :: rest).getLast? = some last := by
      obtain ⟨before, hbefore⟩ := following?_suffix hfollowing
      rw [← hbefore, List.getLast?_append_cons] at h
      exact h
    obtain ⟨folders, hfolders⟩ := List.getLast?_eq_some_iff.1 hlast
    rw [hfolders]
    by_cases hnone : folders = []
    · exact ⟨"", by simp [hnone], .inl rfl⟩
    · refine ⟨"/".intercalate folders ++ "/", ?_, .inr ⟨("/".intercalate folders).toList, ?_⟩⟩
      · rw [String.intercalate_append_of_ne_nil hnone (List.cons_ne_nil _ _),
          String.intercalate_singleton]
      · simp
  · exact ⟨"", by simp [h], .inl rfl⟩

/-- **A list has the base that its file has for a name**, in whatever folder the file lies. -/
theorem hasBase_listNameOfPath {path base : String} (hbase : IsBaseName base)
    (h : lastSegment? path = some (base ++ listFileEnding)) :
    HasBase (listNameOfPath path) base := by
  obtain ⟨front, hbelow, hfront⟩ := exists_pathBelowUser_eq h
  rw [← String.append_assoc] at hbelow
  rw [listNameOfPath_of_below hbelow]
  unfold listNameBelow
  rcases hfront with rfl | ⟨folder, hfolder⟩
  · -- the file lies right there: the prefix comes before its name, which cannot begin with one
    have hbegins : ¬ Text.startsWith listNameStart ("" ++ base) = true := by
      intro hbegins
      rw [String.empty_append, Text.startsWith, List.isPrefixOf_iff_prefix] at hbegins
      exact hbase.no_dot (hbegins.subset (by decide))
    rw [if_neg hbegins, String.empty_append]
    exact hbase.hasBase_prefixed
  · refine ⟨base, ?_, .self hbase.no_dot⟩
    split_ifs
    · refine .of_append folder hbase.slash_not_mem ?_
      rw [String.toList_append, hfolder]
    · refine .of_append (listNameStart.toList ++ folder) hbase.slash_not_mem ?_
      simp [hfolder]

/-! ## Names that were cut -/

/-- **A name has a base after it was cut to its limit if it is not cut.** The mark of a loss ends
with a dot, after which nothing stands. -/
theorem hasBase_clipMarked_iff {limit : Nat} {name base : String} (hne : base ≠ "") :
    HasBase (Text.clipMarked limit name) base ↔
      name.toList.length ≤ limit ∧ HasBase name base := by
  by_cases hfits : name.toList.length ≤ limit
  · rw [Text.clipMarked_of_length_le hfits, and_iff_right hfits]
  · refine iff_of_false (fun ⟨file, hfile, hbase⟩ => ?_) fun h => hfits h.1
    obtain ⟨front, hfront⟩ := hbase.suffix.trans hfile.suffix
    rw [Text.toList_clipMarked_of_lt (Nat.not_le.1 hfits)] at hfront
    have hlast : base.toList.getLast? = some '.' := by
      have hends := congrArg List.getLast? hfront
      rw [List.getLast?_append_of_ne_nil _ (mt String.toList_eq_nil_iff.1 hne),
        List.getLast?_append_of_ne_nil _ (by decide)] at hends
      exact hends.trans (by decide)
    exact hbase.1 (List.mem_of_getLast? hlast)

/-! ## Lists that were imported -/

/-- A name with a prefix and a base refers to a list with this base, if there is one. -/
theorem resolve?_prefixed_iff {items : List ListItem} {base : String} (hbase : IsBaseName base) :
    (∃ list, (ListIndex.ofItems items).resolve? (listNameStart ++ base) = some list ∧
      (∃ i ∈ items, i.listName = list) ∧ HasBase list base) ↔
      ∃ i ∈ items, HasBase i.listName base := by
  constructor
  · rintro ⟨list, -, ⟨i, hi, rfl⟩, hlist⟩
    exact ⟨i, hi, hlist⟩
  · rintro ⟨i, hi, hib⟩
    by_cases hexact : ∃ i ∈ items, i.listName = listNameStart ++ base
    · exact ⟨_, ListIndex.resolve?_eq_some_iff.2 (.exact hexact), hexact, hbase.hasBase_prefixed⟩
    · -- the first item of a list with the base decides
      have hsome : (items.find? (baseName ·.listName = base)).isSome :=
        List.find?_isSome.2 ⟨i, hi, by simpa using hasBase_iff.1 hib⟩
      obtain ⟨item, hfind⟩ := Option.isSome_iff_exists.1 hsome
      obtain ⟨hitem, before, after, heq, hfirst⟩ := List.find?_eq_some_iff_append.1 hfind
      have hitembase : HasBase item.listName base := hasBase_iff.2 (by simpa using hitem)
      have hbefore : ∀ j ∈ before, ¬ HasBase j.listName base := fun j hj hjb => by
        simpa [hasBase_iff.1 hjb] using hfirst j hj
      have hrefers : RefersTo items (listNameStart ++ base) item.listName :=
        .byBase (fun j hj hjn => hexact ⟨j, hj, hjn⟩) hbase.isAfterLast_prefixed hbase.ne_empty heq
          hitembase hbefore
      exact ⟨item.listName, ListIndex.resolve?_eq_some_iff.2 hrefers,
        ⟨item, by simp [heq], rfl⟩, hitembase⟩

/-- The items of a list file are those of one list. -/
theorem SourceFile.listName_of_mem {file : SourceFile} {draft : ItemDraft} (h : draft ∈ file.items) :
    draft.listName = Text.clipMarked Limit.listName (listNameOfPath file.path.text) := by
  obtain ⟨spoken, value, hdraft⟩ := ListFile.exists_itemDraft? h
  unfold itemDraft? at hdraft
  simp only at hdraft
  split_ifs at hdraft
  rw [← Option.some.inj hdraft]

/-- Whether there are items in a list file is a matter of its content alone. -/
theorem ListFile.items_eq_nil_iff (path path' content : String) :
    items path content = [] ↔ items path' content = [] := by
  have hname (path : String) : Text.clipMarked Limit.listName (listNameOfPath path) ≠ "" :=
    Text.clipMarked_ne_empty _ (listNameOfPath_ne_empty path)
  unfold items
  simp only [List.filterMap_eq_nil_iff, item?_eq_none_iff (hname _)]

/-- The lists of items that come from these files. -/
theorem exists_listName_iff {files : List SourceFile} {items : List ListItem} (P : String → Prop)
    (h : items.map ListItem.content = files.flatMap SourceFile.items) :
    (∃ i ∈ items, P i.listName) ↔ ∃ file ∈ files, file.items ≠ [] ∧
      P (Text.clipMarked Limit.listName (listNameOfPath file.path.text)) := by
  refine (exists_content_iff h fun draft => P draft.listName).trans ?_
  refine exists_congr fun file => and_congr_right fun _ => ?_
  constructor
  · rintro ⟨draft, hdraft, hP⟩
    exact ⟨List.ne_nil_of_mem hdraft, SourceFile.listName_of_mem hdraft ▸ hP⟩
  · rintro ⟨hsome, hP⟩
    obtain ⟨draft, hdraft⟩ := List.exists_mem_of_ne_nil _ hsome
    exact ⟨draft, hdraft, (SourceFile.listName_of_mem hdraft).symm ▸ hP⟩

namespace Database

section

variable {σ : Type} [DiskAccess (StateM σ)] {db : Database}

/-- The list items after an import into an index that has none. -/
theorem items_importListFiles (hnone : db.store.items = []) (clock : Clock) (mode : ImportMode)
    (files : List SourceFile) (w : σ) :
    ((db.importListFiles clock mode files : StateM σ _).run w).1.1.store.items.map
      ListItem.content = files.flatMap SourceFile.items := by
  obtain ⟨w', hrun⟩ := exists_run_importListFiles clock mode files db w
  have hfits : ∀ draft ∈ files.flatMap SourceFile.items, ∀ id now,
      (ListItem.ofDraft id now draft).content = draft :=
    fun _ => SourceFile.content_ofDraft_items
  have hsaid := congrArg Holding.said (Store.itemHolding_itemEdit hfits clock mode db.store)
  have hleft : (mode.leaves db.store.itemHolding).said = [] := by
    cases mode with
    | refresh => rfl
    | append => exact List.map_eq_nil_iff.2 hnone
  rw [hrun]
  exact hsaid.trans (by rw [Holding.add, hleft, List.nil_append])

/-- A base is found if and only if a file with an item gave a list with it a name that fits. -/
theorem exists_resolve?_iff {base : String} (hbase : IsBaseName base)
    (hnone : db.store.items = []) (clock : Clock) (mode : ImportMode) (files : List SourceFile)
    (w : σ) :
    let items := ((db.importListFiles clock mode files : StateM σ _).run w).1.1.store.items
    (∃ list, (ListIndex.ofItems items).resolve? ("user." ++ base) = some list ∧
      (∃ i ∈ items, i.listName = list) ∧ HasBase list base) ↔
      ∃ file ∈ files, file.items ≠ [] ∧ (listNameOfPath file.path.text).toList.length ≤ 100 ∧
        HasBase (listNameOfPath file.path.text) base := by
  intro items
  have hitems := items_importListFiles hnone clock mode files w
  refine (resolve?_prefixed_iff hbase).trans ((exists_listName_iff (HasBase · base) hitems).trans ?_)
  simp only [hasBase_clipMarked_iff hbase.ne_empty]
  rfl

/-- **A list is found by the name of its file, unless its own name is too long.** After list files
were imported into an index without list items, the base of a file's name after the common prefix
refers to a list of the index that has this base, if the file has an item and the name of its list
need not be cut; in what folder the file lies makes no difference. It refers to no list with this
base if there is no file whose list has it and a name that need not be cut. -/
theorem resolve?_base_of_listFile {base : String} (hbase : IsBaseName base)
    (hnone : db.store.items = []) (clock : Clock) (mode : ImportMode) (files : List SourceFile)
    (w : σ) :
    let items := ((db.importListFiles clock mode files : StateM σ _).run w).1.1.store.items
    let Reached := ∃ list, (ListIndex.ofItems items).resolve? ("user." ++ base) = some list ∧
      (∃ i ∈ items, i.listName = list) ∧ HasBase list base
    (∀ file ∈ files, file.items ≠ [] →
      lastSegment? file.path.text = some (base ++ ".talon-list") →
        (listNameOfPath file.path.text).toList.length ≤ 100 → Reached) ∧
    (Reached → ∃ file ∈ files, file.items ≠ [] ∧ HasBase (listNameOfPath file.path.text) base ∧
      (listNameOfPath file.path.text).toList.length ≤ 100) := by
  intro items Reached
  have hreached := exists_resolve?_iff hbase hnone clock mode files w
  refine ⟨fun file hfile hsome hlast hlength => ?_, fun h => ?_⟩
  · exact hreached.2 ⟨file, hfile, hsome, hlength, hasBase_listNameOfPath hbase hlast⟩
  · obtain ⟨file, hfile, hsome, hlength, hfilebase⟩ := hreached.1 h
    exact ⟨file, hfile, hsome, hfilebase, hlength⟩

end

/-- A list some folders down. -/
theorem resolve?_base_of_listFile_arrow :
    let file : SourceFile :=
      ⟨⟨"/home/u/.talon/user/community/core/keys/arrow_key.talon-list"⟩, "left: Left"⟩
    let items := ((inMemory.importListFiles (fun _ => "") .append [file] :
      StateM Disk _).run default).1.1.store.items
    ∃ list, (ListIndex.ofItems items).resolve? "user.arrow_key" = some list ∧
      (∃ i ∈ items, i.listName = list) ∧ HasBase list "arrow_key" := by
  intro file items
  have hsome : file.items ≠ [] := by decide +kernel
  have hlast : lastSegment? file.path.text = some ("arrow_key" ++ ".talon-list") := by
    decide +kernel
  have hlength : (listNameOfPath file.path.text).toList.length ≤ 100 := by decide +kernel
  exact (resolve?_base_of_listFile (show IsBaseName "arrow_key" by decide) rfl _ .append [file]
    default).1 file (List.mem_singleton_self file) hsome hlast hlength

/-- A list file twenty folders down. -/
def deepFile : SourceFile where
  path := ⟨"/".intercalate ("user" :: (List.replicate 20 "core" ++ ["arrow_key.talon-list"]))⟩
  content := "left: Left"

theorem pieces_deepFile : Text.pieces isSlash deepFile.path.text =
    "user" :: (List.replicate 20 "core" ++ ["arrow_key.talon-list"]) :=
  pieces_intercalate (List.cons_ne_nil _ _) (by decide)

theorem length_listNameOfPath_deepFile :
    100 < (listNameOfPath deepFile.path.text).toList.length := by
  have hbelow : pathBelowUser deepFile.path.text =
      "/".intercalate (List.replicate 20 "core") ++ "/arrow_key" ++ listFileEnding := by
    unfold pathBelowUser
    rw [pieces_deepFile, List.filter_eq_self.2 (by simp)]
    simp only [following?, decide_true, if_true]
    show "/".intercalate (List.replicate 20 "core" ++ ["arrow_key.talon-list"]) = _
    rw [String.intercalate_append_of_ne_nil (by decide) (List.cons_ne_nil _ _),
      String.append_assoc, String.append_assoc]
    rfl
  rw [listNameOfPath_of_below hbelow]
  refine lt_of_lt_of_le ?_ (le_length_listNameBelow _)
  simp

/-- The name of a list so deep is cut, and with it what the list could be found by. -/
theorem resolve?_base_deep :
    let items := ((inMemory.importListFiles (fun _ => "") .append [deepFile] :
      StateM Disk _).run default).1.1.store.items
    deepFile.items ≠ [] ∧
      lastSegment? deepFile.path.text = some ("arrow_key" ++ ".talon-list") ∧
      IsBaseName "arrow_key" ∧
      ¬ ∃ list, (ListIndex.ofItems items).resolve? ("user." ++ "arrow_key") = some list ∧
        (∃ i ∈ items, i.listName = list) ∧ HasBase list "arrow_key" := by
  intro items
  have hbase : IsBaseName "arrow_key" := by decide
  have hnone : inMemory.store.items = [] := rfl
  have hreached := exists_resolve?_iff hbase hnone (fun _ => "") .append [deepFile] (default : Disk)
  refine ⟨?_, ?_, hbase, fun h => ?_⟩
  · exact mt (ListFile.items_eq_nil_iff deepFile.path.text "" deepFile.content).1 (by decide +kernel)
  · unfold lastSegment?
    rw [pieces_deepFile]
    decide
  · obtain ⟨file, hfile, -, hlength, -⟩ := hreached.1 h
    rw [List.mem_singleton.1 hfile] at hlength
    exact absurd hlength (Nat.not_le.2 length_listNameOfPath_deepFile)

end Database

end VoiceIndex
