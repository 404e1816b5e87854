import VoiceIndex.Proofs.Record.Content
import VoiceIndex.Proofs.Source.Application
import VoiceIndex.Source.ListFile

/-!
# Drafts that are stored as they are

What is read from a file has the parts that it needs and fits the records, so that a record says
just what its draft says (`drafts_isReady`). The texts of a draft were cut to the limits of the
record already, and a cut that is made a second time changes nothing (`CommandFile.content_ofDraft`,
`content_ofDraft_of_itemDraft?`). What stands in front of a text can be seen, so that the text is
not blank after the cut either (`CommandFile.isBlank_trigger`, `isBlank_of_itemDraft?`).
-/

namespace VoiceIndex

open Text (StartsVisibly)

theorem Text.isBlank_clipMarked (limit : Nat) {s : String} (h : isBlank s = false) :
    isBlank (clipMarked limit s) = false := by
  rcases Nat.lt_or_ge limit s.toList.length with hlong | hfits
  · have hmark : '.' ∈ (clipMarked limit s).toList := by
      rw [toList_clipMarked_of_lt hlong]
      exact List.mem_append_right _ (by decide)
    rw [isBlank, List.all_eq_false]
    exact ⟨'.', hmark, by decide⟩
  · rwa [clipMarked_of_length_le hfits]

theorem Text.isBlank_trim {s : String} (h : trim s ≠ "") : isBlank (trim s) = false :=
  (startsVisibly_trim h).isBlank_eq_false

/-! ## Commands -/

theorem Context.clip_clip (c : Context) : c.clip.clip = c.clip := by
  simp [Context.clip, Option.map_map, Function.comp_def, Text.clip_self]

namespace Block

/-- The name of a command stands on a line that opens it. -/
theorem exists_opening_of_mem_gather {b : Block} {lines : List BodyLine} (h : b ∈ (gather lines).2) :
    ∃ script?, BodyLine.opening b.name script? ∈ lines := by
  induction lines with
  | nil => cases h
  | cons line rest ih =>
    cases line with
    | indented script =>
      obtain ⟨script?, hmem⟩ := ih h
      exact ⟨script?, List.mem_cons_of_mem _ hmem⟩
    | opening name script? =>
      rcases List.mem_cons.1 h with rfl | h
      · exact ⟨script?, List.mem_cons_self⟩
      · obtain ⟨other?, hmem⟩ := ih h
        exact ⟨other?, List.mem_cons_of_mem _ hmem⟩

theorem startsVisibly_name {b : Block} {lines : List String} (h : b ∈ ofLines lines) :
    StartsVisibly b.name := by
  obtain ⟨hmem, hne⟩ := List.mem_filter.1 h
  obtain ⟨script?, hopening⟩ := exists_opening_of_mem_gather hmem
  obtain ⟨line, -, hline⟩ := List.mem_filterMap.1 hopening
  unfold BodyLine.ofLine? at hline
  simp only at hline
  split_ifs at hline
  · cases hline
  · obtain ⟨⟨raw, rest⟩, -, hparts⟩ := Option.map_eq_some_iff.1 hline
    obtain ⟨hname, -⟩ := BodyLine.opening.inj hparts
    rw [← hname] at hne ⊢
    exact Text.startsVisibly_trim (by simpa using hne)

end Block

namespace CommandFile

variable {path content : String} {draft : CommandDraft}

theorem exists_block_of_mem (h : draft ∈ commands path content) :
    ∃ lines block, StartsVisibly block.name ∧
      draft = CommandFile.draft path (Header.ofLines lines) block := by
  unfold commands at h
  split at h
  · cases h
  · obtain ⟨block, hblock, rfl⟩ := List.mem_map.1 h
    exact ⟨_, block, Block.startsVisibly_name hblock, rfl⟩

theorem exists_eq_draft (h : draft ∈ commands path content) :
    ∃ lines block, draft = CommandFile.draft path (Header.ofLines lines) block := by
  obtain ⟨lines, block, -, heq⟩ := exists_block_of_mem h
  exact ⟨lines, block, heq⟩

theorem isBlank_trigger (h : draft ∈ commands path content) :
    Text.isBlank draft.trigger = false := by
  obtain ⟨lines, block, hname, rfl⟩ := exists_block_of_mem h
  have hlimit : 0 < Limit.trigger := by decide
  exact (hname.clip hlimit).isBlank_eq_false

theorem clip_mainApplication (path : String) (lines : List String) (block : Block) :
    Text.clip Limit.application (CommandFile.draft path (Header.ofLines lines) block).mainApplication =
      (CommandFile.draft path (Header.ofLines lines) block).mainApplication := by
  have hfirst : some (CommandFile.draft path (Header.ofLines lines) block).mainApplication =
      some (((Header.ofLines lines).applications.map
        (Text.clip Limit.application)).head?.getD everyApplication) :=
    (application_draft path lines block).symm
  rw [Option.some.inj hfirst]
  cases (Header.ofLines lines).applications with
  | nil => exact Text.clip_of_length_le (by decide)
  | cons app rest => exact Text.clip_self Limit.application app

/-- **The record of a command from a file says what stands there.** -/
theorem content_ofDraft (h : draft ∈ commands path content) (id : Int64) (now : String) :
    (Command.ofDraft id now draft).content = draft := by
  obtain ⟨lines, block, rfl⟩ := exists_eq_draft h
  unfold Command.content Command.ofDraft
  simp only [clip_mainApplication]
  rw [← application_draft]
  simp [CommandFile.draft, Context.clip_clip, Text.clip_self, Option.map_map, Function.comp_def]

end CommandFile

/-! ## List items -/

section

variable {path name spoken value : String} {draft : ItemDraft}

/-- **The record of an item says what stands in the file**, whatever kind of file that is. -/
theorem content_ofDraft_of_itemDraft?
    (h : itemDraft? path (Text.clipMarked Limit.listName name) spoken value = some draft)
    (id : Int64) (now : String) : (ListItem.ofDraft id now draft).content = draft := by
  unfold itemDraft? at h
  simp only at h
  split_ifs at h
  obtain rfl := Option.some.inj h
  simp [ListItem.content, ListItem.ofDraft, Text.clipMarked_clipMarked]

/-- No part of an item is blank if the name of its list is not. -/
theorem isBlank_of_itemDraft? (hname : Text.isBlank name = false)
    (h : itemDraft? path (Text.clipMarked Limit.listName name) spoken value = some draft) :
    Text.isBlank draft.listName = false ∧ Text.isBlank draft.spokenForm = false ∧
      Text.isBlank draft.listValue = false := by
  unfold itemDraft? at h
  simp only at h
  split_ifs at h with hempty
  rw [not_or, not_or] at hempty
  obtain ⟨-, hspoken, hvalue⟩ := hempty
  rw [← Option.some.inj h]
  dsimp only
  exact ⟨Text.isBlank_clipMarked _ hname, Text.isBlank_clipMarked _ (Text.isBlank_trim hspoken),
    Text.isBlank_clipMarked _ (Text.isBlank_trim hvalue)⟩

end

theorem isBlank_listNameOfPath (path : String) : Text.isBlank (listNameOfPath path) = false := by
  have hstart : 'u' ∈ (listNameOfPath path).toList := by
    unfold listNameOfPath
    simp only
    split_ifs with hbegins
    · exact (List.isPrefixOf_iff_prefix.1 hbegins).subset (by decide)
    · rw [String.toList_append]
      exact List.mem_append_left _ (by decide)
  rw [Text.isBlank, List.all_eq_false]
  exact ⟨'u', hstart, by decide⟩

theorem listNameOfPath_ne_empty (path : String) : listNameOfPath path ≠ "" := by
  intro hempty
  have hvisible := isBlank_listNameOfPath path
  rw [hempty] at hvisible
  exact absurd hvisible (by decide)

/-- An item stands on a line of a list file. -/
theorem ListFile.exists_itemDraft? {path content : String} {draft : ItemDraft}
    (h : draft ∈ items path content) : ∃ spoken value,
      itemDraft? path (Text.clipMarked Limit.listName (listNameOfPath path)) spoken value =
        some draft := by
  obtain ⟨line, -, hitem⟩ := List.mem_filterMap.1 h
  unfold item? at hitem
  simp only at hitem
  split_ifs at hitem
  obtain ⟨⟨spoken, value⟩, -, hdraft⟩ := Option.bind_eq_some_iff.1 hitem
  exact ⟨spoken, value, hdraft⟩

/-- An item stands on a line of a table, with the name of its list. -/
theorem ListTable.exists_itemDraft? {path content : String} {draft : ItemDraft}
    (h : draft ∈ items path content) : ∃ name spoken value, Text.isBlank name = false ∧
      itemDraft? path (Text.clipMarked Limit.listName name) spoken value = some draft := by
  obtain ⟨line, -, hitem⟩ := List.mem_filterMap.1 h
  unfold item? at hitem
  simp only at hitem
  split_ifs at hitem
  split at hitem
  · rename_i listName spoken value _ _
    refine ⟨Text.trim listName, spoken, value, Text.isBlank_trim fun hempty => ?_, hitem⟩
    -- without a name there is no item
    unfold itemDraft? at hitem
    rw [hempty] at hitem
    simp only at hitem
    rw [if_pos (.inl (by decide))] at hitem
    cases hitem
  · cases hitem

/-! ## What is read from a file -/

/-- The draft has what it needs, keeps to the limits and says what its record will say; the number
and the time are all that the record adds. -/
structure CommandDraft.IsReady (draft : CommandDraft) : Prop where
  trigger : Text.isBlank draft.trigger = false
  withinLimits : draft.WithinLimits
  stored : ∀ id now, let c := Command.ofDraft id now draft
    c.content = draft ∧ c.id = id ∧ c.createdAt = now

/-- The draft has what it needs, keeps to the limits and says what its record will say; the number
and the times are all that the record adds. -/
structure ItemDraft.IsReady (draft : ItemDraft) : Prop where
  listName : Text.isBlank draft.listName = false
  spokenForm : Text.isBlank draft.spokenForm = false
  listValue : Text.isBlank draft.listValue = false
  withinLimits : draft.WithinLimits
  stored : ∀ id now, let i := ListItem.ofDraft id now draft
    i.content = draft ∧ i.id = id ∧ i.createdAt = now ∧ i.importedAt = now

/-- A draft that is not changed is within the limits, since its record is. -/
theorem CommandDraft.isReady_of_content {draft : CommandDraft}
    (htrigger : Text.isBlank draft.trigger = false)
    (h : ∀ id now, (Command.ofDraft id now draft).content = draft) : draft.IsReady where
  trigger := htrigger
  withinLimits := by
    rw [← h 0 ""]
    exact (draft.keptAs_ofDraft 0 "").withinLimits
  stored id now := by
    have htime : draft.createdAt = none := congrArg CommandDraft.createdAt (h id now).symm
    refine ⟨h id now, rfl, ?_⟩
    show draft.createdAt.getD now = now
    rw [htime, Option.getD_none]

theorem ItemDraft.isReady_of_itemDraft? {path name spoken value : String} {draft : ItemDraft}
    (hname : Text.isBlank name = false)
    (h : itemDraft? path (Text.clipMarked Limit.listName name) spoken value = some draft) :
    draft.IsReady := by
  have hcontent := content_ofDraft_of_itemDraft? h
  obtain ⟨hlistName, hspoken, hvalue⟩ := isBlank_of_itemDraft? hname h
  refine ⟨hlistName, hspoken, hvalue, ?_, fun id now => ⟨hcontent id now, rfl, ?_, ?_⟩⟩
  · rw [← hcontent 0 ""]
    exact (draft.keptAs_ofDraft 0 "").withinLimits
  · have htime : draft.createdAt = none := congrArg ItemDraft.createdAt (hcontent id now).symm
    show draft.createdAt.getD now = now
    rw [htime, Option.getD_none]
  · have htime : draft.importedAt = none := congrArg ItemDraft.importedAt (hcontent id now).symm
    show draft.importedAt.getD now = now
    rw [htime, Option.getD_none]

/-- **Whatever is read from a file of any kind has what it needs, keeps to the limits and is stored
as it is.** -/
theorem drafts_isReady (path content : String) :
    (∀ draft ∈ CommandFile.commands path content, draft.IsReady) ∧
      (∀ draft ∈ ListFile.items path content, draft.IsReady) ∧
      ∀ draft ∈ ListTable.items path content, draft.IsReady := by
  refine ⟨fun draft h => ?command, fun draft h => ?item, fun draft h => ?row⟩
  case command =>
    exact CommandDraft.isReady_of_content (CommandFile.isBlank_trigger h)
      (CommandFile.content_ofDraft h)
  case item =>
    obtain ⟨spoken, value, hdraft⟩ := ListFile.exists_itemDraft? h
    exact ItemDraft.isReady_of_itemDraft? (isBlank_listNameOfPath path) hdraft
  case row =>
    obtain ⟨name, spoken, value, hname, hdraft⟩ := ListTable.exists_itemDraft? h
    exact ItemDraft.isReady_of_itemDraft? hname hdraft

/-- A file of each kind, with a line that gives nothing before the one that does. -/
theorem drafts_isReady_pen :
    (∃ draft ∈ CommandFile.commands "/user/a.talon" "app.exe: Code.EXE\n-\n: lost\ngo: x",
      draft.application = some "Code" ∧ draft.IsReady) ∧
    (∃ draft ∈ ListFile.items "/user/pens.talon-list" "ink:\n pen : quill",
      draft.listName = "user.pens" ∧ draft.IsReady) ∧
    ∃ draft ∈ ListTable.items "/user/a.csv" "pen, ink\npen, \"a, b\", quill",
      draft.spokenForm = "a, b" ∧ draft.IsReady := by
  have hcommand : ∃ draft ∈ CommandFile.commands "/user/a.talon"
      "app.exe: Code.EXE\n-\n: lost\ngo: x", draft.application = some "Code" := by
    decide +kernel
  have hitem : ∃ draft ∈ ListFile.items "/user/pens.talon-list" "ink:\n pen : quill",
      draft.listName = "user.pens" := by
    decide +kernel
  have hrow : ∃ draft ∈ ListTable.items "/user/a.csv" "pen, ink\npen, \"a, b\", quill",
      draft.spokenForm = "a, b" := by
    decide +kernel
  obtain ⟨command, hmem, happlication⟩ := hcommand
  obtain ⟨item, hmem', hname⟩ := hitem
  obtain ⟨row, hmem'', hspoken⟩ := hrow
  exact ⟨⟨command, hmem, happlication, (drafts_isReady _ _).1 command hmem⟩,
    ⟨item, hmem', hname, (drafts_isReady _ _).2.1 item hmem'⟩,
    row, hmem'', hspoken, (drafts_isReady _ _).2.2 row hmem''⟩

end VoiceIndex
