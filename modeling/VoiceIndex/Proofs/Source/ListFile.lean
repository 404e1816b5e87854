import VoiceIndex.Proofs.Source.Verbatim
import VoiceIndex.Proofs.Text.Lines
import VoiceIndex.Source.ListFile

/-!
# List files, entry by entry

A line of a list file gives an item unless it is passed over: because it is blank or a comment, has
no colon, or lacks what should stand on one side of the first one (`item?_eq_none_iff`). The blanks
around a line matter only for what is taken for a comment (`item?_eq`). An entry that is written on a
line is an item, whatever else is in its value (`item?_line`), so that a list file has one item for
each of its entries, whatever stands between them that is passed over (`items_entries`).
-/

namespace VoiceIndex

variable {path listName spoken value : String}

theorem itemDraft?_eq_none_iff (hname : listName ≠ "") :
    itemDraft? path listName spoken value = none ↔
      Text.isBlank spoken = true ∨ Text.isBlank value = true := by
  unfold itemDraft?
  simp only [hname, Text.trim_eq_empty_iff, false_or, ite_eq_left_iff, reduceCtorEq, imp_false,
    not_not]

namespace ListFile

variable {l : String}

/-! ## Lines that are passed over -/

/-- The text begins as a comment does. -/
def IsComment (s : String) : Prop := "#".toList <+: s.toList ∨ "//".toList <+: s.toList

instance : DecidablePred IsComment := fun s =>
  inferInstanceAs (Decidable ("#".toList <+: s.toList ∨ "//".toList <+: s.toList))

/-- There is nothing but blanks on one side of the first colon. -/
def LacksSide (line : String) : Prop :=
  ∃ front back, line.toList = front.toList ++ ':' :: back.toList ∧ ':' ∉ front.toList ∧
    (Text.isBlank front = true ∨ Text.isBlank back = true)

/-- The line says nothing: it is blank or a comment, has no colon, or lacks one of its sides. -/
def IsPassedOver (line : String) : Prop :=
  Text.isBlank line = true ∨ IsComment (Text.trim line) ∨ ':' ∉ line.toList ∨ LacksSide line

theorem isIdle_iff {s : String} : isIdle s = true ↔ s = "" ∨ IsComment s := by
  unfold isIdle IsComment
  rw [Bool.or_eq_true, Bool.or_eq_true, beq_iff_eq, Text.startsWith_iff, Text.startsWith_iff,
    or_assoc]

/-- The blanks around a line stand on the outer sides of what is cut at the colon, where they are
taken away once more. -/
theorem item?_eq (path listName line : String) : item? path listName line =
    if isIdle (Text.trim line) then none
    else (Text.cut ':' line).bind fun (spoken, value) => itemDraft? path listName spoken value := by
  have hsides (a b : List Char) :
      itemDraft? path listName (.ofList (Chars.trimStart a)) (.ofList (Chars.trimEnd b)) =
        itemDraft? path listName (.ofList a) (.ofList b) := by
    unfold itemDraft? Text.trim
    simp only [String.toList_ofList, Chars.trim_trimStart, Chars.trim_trimEnd]
  unfold item? Text.cut
  simp only [Text.toList_trim, Chars.cut_trim (show isBlank ':' = false by decide)]
  cases Chars.cut ':' line.toList with
  | none => rfl
  | some sides => simp [hsides]

theorem lacksSide_iff : LacksSide l ↔ ∃ sides ∈ Text.cut ':' l,
    Text.isBlank sides.1 = true ∨ Text.isBlank sides.2 = true := by
  unfold LacksSide
  simp only [Prod.exists, Option.mem_def, Text.cut_eq_some_iff, and_assoc]

instance : DecidablePred LacksSide := fun _ => decidable_of_iff' _ lacksSide_iff

instance : DecidablePred IsPassedOver := fun l =>
  inferInstanceAs (Decidable (Text.isBlank l = true ∨ IsComment (Text.trim l) ∨ ':' ∉ l.toList ∨
    LacksSide l))

/-- **A line gives an item if and only if it is not passed over.** -/
theorem item?_eq_none_iff (hname : listName ≠ "") :
    item? path listName l = none ↔ IsPassedOver l := by
  have hsides : ((Text.cut ':' l).bind fun (spoken, value) =>
      itemDraft? path listName spoken value) = none ↔ ':' ∉ l.toList ∨ LacksSide l := by
    rw [← Text.cut_eq_none_iff, lacksSide_iff]
    cases Text.cut ':' l with
    | none => simp
    | some sides => simp [itemDraft?_eq_none_iff hname]
  rw [item?_eq, IsPassedOver, ← or_assoc, ← Text.trim_eq_empty_iff, ← isIdle_iff, ← hsides]
  cases isIdle (Text.trim l) <;> simp

theorem item?_dropReturn (path listName line : String) :
    item? path listName (Text.dropReturn line) = item? path listName line := by
  unfold item?
  rw [Text.trim_dropReturn]

theorem item?_empty (path listName : String) : item? path listName "" = none := by
  have hidle : isIdle (Text.trim "") = true := by decide
  rw [item?_eq, if_pos hidle]

/-! ## Entries -/

/-- What is said and what it stands for. -/
structure Entry where
  spokenForm : String
  listValue : String
  deriving DecidableEq, Repr

namespace Entry

/-- The line on which the entry is written. -/
def line (e : Entry) : String := e.spokenForm ++ ": " ++ e.listValue

/-- The item that the entry is in the file with this path. -/
def draft (path : String) (e : Entry) : ItemDraft where
  listName := Text.clipMarked 100 (listNameOfPath path)
  spokenForm := Text.clipMarked 100 e.spokenForm
  listValue := Text.clipMarked 700 e.listValue
  sourceFile := some (Text.clipMarked 250 path)

/-- The entry can be read from its line: both sides are tidy, the first colon is the one between
them, and the line is not taken for a comment. -/
structure IsWritable (e : Entry) : Prop where
  spokenForm : Text.IsTidy e.spokenForm
  listValue : Text.IsTidy e.listValue
  noColon : ':' ∉ e.spokenForm.toList
  noComment : ¬ IsComment e.spokenForm

theorem isWritable_iff {e : Entry} : e.IsWritable ↔ Text.IsTidy e.spokenForm ∧
    Text.IsTidy e.listValue ∧ ':' ∉ e.spokenForm.toList ∧ ¬ IsComment e.spokenForm :=
  ⟨fun h => ⟨h.spokenForm, h.listValue, h.noColon, h.noComment⟩,
    fun h => ⟨h.1, h.2.1, h.2.2.1, h.2.2.2⟩⟩

instance (e : Entry) : Decidable e.IsWritable := decidable_of_iff' _ isWritable_iff

variable {e : Entry}

theorem toList_line (e : Entry) :
    e.line.toList = e.spokenForm.toList ++ ':' :: (" " ++ e.listValue).toList := by
  simp [line]

theorem IsWritable.isTidy_line (h : e.IsWritable) : Text.IsTidy e.line := by
  obtain ⟨c, cs, hspoken, hc⟩ := h.spokenForm.exists_cons
  have hfront : (e.spokenForm ++ ": ").toList = c :: (cs ++ [':', ' ']) := by simp [hspoken]
  have hfeed : '\n' ∉ (e.spokenForm ++ ": ").toList := by simp [h.spokenForm.not_mem]
  exact h.listValue.append hfront hc hfeed

/-- What begins a comment has no colon in it, and so it would stand in front of the colon. -/
theorem IsWritable.not_isComment_line (h : e.IsWritable) : ¬ IsComment e.line := by
  have hstart {start : List Char} (hcolon : ':' ∉ start) (hline : start <+: e.line.toList) :
      start <+: e.spokenForm.toList := by
    rw [toList_line] at hline
    exact Chars.prefix_of_prefix_append_cons hcolon hline
  rintro (hline | hline)
  · exact h.noComment (.inl (hstart (by decide) hline))
  · exact h.noComment (.inr (hstart (by decide) hline))

end Entry

/-- **An entry comes back from its line.** -/
theorem item?_line {e : Entry} (h : e.IsWritable) (path : String) :
    item? path (Text.clipMarked Limit.listName (listNameOfPath path)) e.line =
      some (e.draft path) := by
  have hidle : ¬ isIdle (Text.trim e.line) = true := by
    rw [h.isTidy_line.trim_eq, isIdle_iff, not_or]
    exact ⟨h.isTidy_line.ne_empty, h.not_isComment_line⟩
  have hcut : Text.cut ':' e.line = some (e.spokenForm, " " ++ e.listValue) :=
    Text.cut_eq_some_iff.2 ⟨e.toList_line, h.noColon⟩
  have hvalue : Text.trim (" " ++ e.listValue) = e.listValue := h.listValue.trim_append (by decide)
  have hname : Text.clipMarked Limit.listName (listNameOfPath path) ≠ "" :=
    Text.clipMarked_ne_empty _ (listNameOfPath_ne_empty path)
  rw [item?_eq, if_neg hidle, hcut, Option.bind_some]
  unfold itemDraft?
  simp only [h.spokenForm.trim_eq, hvalue, hname, h.spokenForm.ne_empty, h.listValue.ne_empty,
    or_self, if_false]
  rfl

/-! ## Files -/

/-- A line of a list file: an entry, or anything else. -/
inductive Line where
  | entry (e : Entry)
  | other (text : String)

namespace Line

/-- The line in the file. -/
def text : Line → String
  | entry e => e.line
  | other text => text

/-- The entry on the line. -/
def entry? : Line → Option Entry
  | entry e => some e
  | other _ => none

/-- An entry can be read from its line, and any other line is passed over. -/
def IsReadable : Line → Prop
  | entry e => e.IsWritable
  | other text => '\n' ∉ text.toList ∧ IsPassedOver text

instance : DecidablePred IsReadable
  | entry e => inferInstanceAs (Decidable e.IsWritable)
  | other text => inferInstanceAs (Decidable ('\n' ∉ text.toList ∧ IsPassedOver text))

variable {l : Line}

theorem IsReadable.not_mem (h : l.IsReadable) : '\n' ∉ l.text.toList := by
  cases l with
  | entry e => exact (Entry.IsWritable.isTidy_line h).not_mem
  | other text => exact h.1

/-- A line gives the item of its entry, if it has one. -/
theorem item?_text (h : l.IsReadable) (path : String) :
    item? path (Text.clipMarked Limit.listName (listNameOfPath path)) l.text =
      l.entry?.map (Entry.draft path) := by
  cases l with
  | entry e => exact item?_line h path
  | other text =>
    have hname := Text.clipMarked_ne_empty Limit.listName (listNameOfPath_ne_empty path)
    exact (item?_eq_none_iff hname).2 h.2

end Line

/-- **A list file yields its entries**, each of them once and in their order, whatever lines that are
passed over stand before, between and after them. -/
theorem items_entries {lines : List Line} (h : ∀ l ∈ lines, l.IsReadable) (path : String) :
    items path ("\n".intercalate (lines.map Line.text)) =
      (lines.filterMap Line.entry?).map (Entry.draft path) := by
  have hlines : ∀ text ∈ lines.map Line.text, '\n' ∉ text.toList :=
    List.forall_mem_map.2 fun l hl => (h l hl).not_mem
  have hread := Text.filterMap_lines_intercalate
    (item?_dropReturn path (Text.clipMarked Limit.listName (listNameOfPath path)))
    (item?_empty path _) hlines (.inl rfl)
  unfold items
  simp only
  rw [← String.append_empty (s := "\n".intercalate _), hread, List.filterMap_map,
    List.map_filterMap]
  refine List.filterMap_congr fun l hl => ?_
  rw [Function.comp_apply]
  exact Line.item?_text (h l hl) path

/-- Values that look like comments and like other entries, between lines that lack a side. -/
theorem items_entries_links :
    items "/user/links.talon-list"
        ("# old: x\n\ndocs: https://a.b//#c\n // new: y\n/: :\n" ++
          "\u00a0: lost\nlost: \r\nno colon") =
      [{ listName := "user.links", spokenForm := "docs", listValue := "https://a.b//#c",
         sourceFile := some "/user/links.talon-list" },
       { listName := "user.links", spokenForm := "/", listValue := ":",
         sourceFile := some "/user/links.talon-list" }] := by
  let lines : List Line := [.other "# old: x", .other "", .entry ⟨"docs", "https://a.b//#c"⟩,
    .other " // new: y", .entry ⟨"/", ":"⟩, .other "\u00a0: lost", .other "lost: \r",
    .other "no colon"]
  have htext : "\n".intercalate (lines.map Line.text) =
      "# old: x\n\ndocs: https://a.b//#c\n // new: y\n/: :\n" ++
        "\u00a0: lost\nlost: \r\nno colon" := by
    decide +kernel
  have hlines : ∀ l ∈ lines, l.IsReadable := by decide +kernel
  rw [← htext, items_entries hlines]
  decide +kernel

end ListFile

end VoiceIndex
