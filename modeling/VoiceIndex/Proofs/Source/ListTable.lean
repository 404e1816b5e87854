import VoiceIndex.Proofs.Text.Limit
import VoiceIndex.Proofs.Text.Lines
import VoiceIndex.Source.ListFile

/-!
# The list table, written and read again

A field that stands between double quotes comes back as it was, with the commas in it, as long as it
has no double quote of its own and no backslash before the one that ends it (`fieldsAfter_quoted`).
The quotation is over where the next field begins, so that quoted fields come back one after the
other, whatever stands on the line after them (`exists_fieldsAfter_intercalate`). A line with three
of them is an item (`item?_line`), and a table gives the items that were written to it
(`items_write`).
-/

namespace VoiceIndex.ListTable

/-! ## Quotations -/

section Quotation

variable {field rest : List Char} {previous : Option Char}

/-- The characters between double quotes. -/
def quoted (field : List Char) : List Char := '"' :: (field ++ ['"'])

/-- Where every quotation before has ended: the first field of the characters and the fields after
it, in one list. -/
def fieldsAfter (previous : Option Char) (cs : List Char) : List (List Char) :=
  (split false previous cs).1 :: (split false previous cs).2

/-- Characters that can be quoted: there is no quote among them, and none is escaped by the last. -/
structure IsQuotable (field : List Char) : Prop where
  not_mem : '"' ∉ field
  getLast?_ne : field.getLast? ≠ some '\\'

theorem isQuotable_iff : IsQuotable field ↔ '"' ∉ field ∧ field.getLast? ≠ some '\\' :=
  ⟨fun h => ⟨h.not_mem, h.getLast?_ne⟩, fun h => ⟨h.1, h.2⟩⟩

instance (field : List Char) : Decidable (IsQuotable field) := decidable_of_iff' _ isQuotable_iff

/-- The quotation goes on to its closing quote. By induction on the field, for any character in
front: only the last one before the quote can escape it. -/
theorem split_quotation (hquote : '"' ∉ field) (hlast : field.getLast?.or previous ≠ some '\\') :
    split true previous (field ++ '"' :: rest) =
      (field ++ (split false (some '"') rest).1, (split false (some '"') rest).2) := by
  induction field generalizing previous with
  | nil =>
    rw [List.nil_append, split, if_pos ⟨rfl, by simpa using hlast⟩]
    rfl
  | cons c field ih =>
    obtain ⟨hc, hfield⟩ := not_or.1 (mt List.mem_cons.2 hquote)
    have hlast' : field.getLast?.or (some c) ≠ some '\\' := by
      have hor : field.getLast?.or (some c) = (c :: field).getLast?.or previous := by
        rw [List.getLast?_cons]
        cases field.getLast? <;> rfl
      rwa [hor]
    rw [List.cons_append, split, if_neg fun h => hc h.1.symm, ih hfield hlast']
    simp

variable (hprevious : previous ≠ some '\\') (hfield : IsQuotable field)

include hprevious hfield

theorem split_quoted_append (rest : List Char) : split false previous (quoted field ++ rest) =
    (field ++ (split false (some '"') rest).1, (split false (some '"') rest).2) := by
  have hlast : field.getLast?.or (some '"') ≠ some '\\' := by
    have hne := hfield.getLast?_ne
    cases h : field.getLast? with
    | none => decide
    | some c => rwa [h] at hne
  have hopen : split false previous ('"' :: (field ++ '"' :: rest)) =
      split true (some '"') (field ++ '"' :: rest) := by
    rw [split, if_pos ⟨rfl, hprevious⟩]
    rfl
  calc split false previous (quoted field ++ rest)
      = split false previous ('"' :: (field ++ '"' :: rest)) := by simp [quoted]
    _ = split true (some '"') (field ++ '"' :: rest) := hopen
    _ = _ := split_quotation hfield.not_mem hlast

/-- A field between quotes comes back. -/
theorem fieldsAfter_quoted : fieldsAfter previous (quoted field) = [field] := by
  have hsplit := split_quoted_append hprevious hfield []
  rw [List.append_nil] at hsplit
  unfold fieldsAfter
  simp [hsplit, split]

/-- The comma after the quotation ends the field. -/
theorem fieldsAfter_quoted_comma (rest : List Char) :
    fieldsAfter previous (quoted field ++ ',' :: rest) = field :: fieldsAfter (some ',') rest := by
  unfold fieldsAfter
  rw [split_quoted_append hprevious hfield]
  simp [split]

end Quotation

/-- **Quoted fields come back one after the other**, whatever else stands on the line after them. -/
theorem exists_fieldsAfter_intercalate {fields : List (List Char)} {previous : Option Char}
    (h : ∀ field ∈ fields, IsQuotable field) (hprevious : previous ≠ some '\\')
    (parts : List (List Char)) :
    ∃ later, fieldsAfter previous ([','].intercalate (fields.map quoted ++ parts)) =
      fields ++ later := by
  induction fields generalizing previous with
  | nil => exact ⟨_, rfl⟩
  | cons field fields ih =>
    obtain ⟨hfield, hfields⟩ := List.forall_mem_cons.1 h
    obtain ⟨later, hlater⟩ := ih hfields (show some ',' ≠ some '\\' by decide)
    cases hrest : fields.map quoted ++ parts with
    | nil =>
      obtain ⟨hnil, -⟩ := List.append_eq_nil_iff.1 hrest
      obtain rfl := List.map_eq_nil_iff.1 hnil
      refine ⟨[], ?_⟩
      rw [List.map_cons, List.cons_append, hrest, List.intercalate_singleton,
        fieldsAfter_quoted hprevious hfield, List.append_nil]
    | cons part rest =>
      refine ⟨later, ?_⟩
      have hjoined : [','].intercalate (quoted field :: part :: rest) =
          quoted field ++ ',' :: [','].intercalate (part :: rest) := by
        simp [List.intercalate_cons_cons]
      rw [List.map_cons, List.cons_append, hrest, hjoined,
        fieldsAfter_quoted_comma hprevious hfield, ← hrest, hlater, List.cons_append]

/-- A quotation has no blanks around it. -/
theorem trim_quoted (cs : List Char) : Chars.trim (quoted cs) = quoted cs := by
  have hquote : isBlank '"' = false := by decide
  refine Chars.trim_eq_self_iff.2 ⟨?_, ?_⟩
  · simpa [quoted] using hquote
  · simpa [quoted, List.getLast?_cons] using hquote

/-! ## Rows -/

/-- A text that can be a field between quotes, of at most so many characters. -/
structure IsField (limit : Nat) (s : String) : Prop extends Text.IsTidy s where
  isQuotable : IsQuotable s.toList
  length_le : s.toList.length ≤ limit

theorem isField_iff {limit : Nat} {s : String} :
    IsField limit s ↔ Text.IsTidy s ∧ IsQuotable s.toList ∧ s.toList.length ≤ limit :=
  ⟨fun h => ⟨h.toIsTidy, h.isQuotable, h.length_le⟩, fun h => ⟨h.1, h.2.1, h.2.2⟩⟩

instance (limit : Nat) (s : String) : Decidable (IsField limit s) :=
  decidable_of_iff' _ isField_iff

/-- What a line of the table says. -/
structure Row where
  listName : String
  spokenForm : String
  listValue : String
  deriving DecidableEq, Repr

namespace Row

/-- The fields of the row, from left to right. -/
def fields (row : Row) : List String := [row.listName, row.spokenForm, row.listValue]

/-- The line of the row: its fields between double quotes, with commas between them. More can stand
on the line after another comma. -/
def line (row : Row) (more? : Option String) : String :=
  ",".intercalate (row.fields.map (fun field => "\"" ++ field ++ "\"") ++ more?.toList)

/-- The item that the row stands for. -/
def draft (path : String) (row : Row) : ItemDraft where
  listName := row.listName
  spokenForm := row.spokenForm
  listValue := row.listValue
  sourceFile := some path

/-- Each field can stand between quotes and is within its limit. -/
structure IsWritable (row : Row) : Prop where
  listName : IsField Limit.listName row.listName
  spokenForm : IsField Limit.spokenForm row.spokenForm
  listValue : IsField Limit.listValue row.listValue

theorem isWritable_iff {row : Row} : row.IsWritable ↔ IsField Limit.listName row.listName ∧
    IsField Limit.spokenForm row.spokenForm ∧ IsField Limit.listValue row.listValue :=
  ⟨fun h => ⟨h.listName, h.spokenForm, h.listValue⟩, fun h => ⟨h.1, h.2.1, h.2.2⟩⟩

instance (row : Row) : Decidable row.IsWritable := decidable_of_iff' _ isWritable_iff

variable {row : Row} {more? : Option String}

theorem toList_line (row : Row) (more? : Option String) : (row.line more?).toList =
    [','].intercalate
      ((row.fields.map String.toList).map quoted ++ (more?.map String.toList).toList) := by
  have hfields : row.fields.map (String.toList ∘ fun field => "\"" ++ field ++ "\"") =
      row.fields.map (quoted ∘ String.toList) :=
    List.map_congr_left fun field _ => by simp [quoted]
  unfold line
  rw [String.toList_intercalate, List.map_append, List.map_map, List.map_map, hfields]
  cases more? <;> rfl

/-- The fields are together in one pair of quotes. -/
theorem exists_eq_quoted (row : Row) :
    ∃ cs, [','].intercalate ((row.fields.map String.toList).map quoted) = quoted cs := by
  refine ⟨row.listName.toList ++ '"' :: ',' :: '"' :: row.spokenForm.toList ++
    '"' :: ',' :: '"' :: row.listValue.toList, ?_⟩
  simp [fields, quoted, List.intercalate_cons_cons]

/-- The fields and the comma after them are left when the blanks around the line are taken away. -/
theorem exists_trim_line (row : Row) (more? : Option String) :
    ∃ parts, Chars.trim (row.line more?).toList =
      [','].intercalate ((row.fields.map String.toList).map quoted ++ parts) := by
  obtain ⟨cs, hcs⟩ := row.exists_eq_quoted
  rw [toList_line]
  cases more? with
  | none =>
    refine ⟨[], ?_⟩
    rw [Option.map_none, Option.toList_none, List.append_nil, hcs, trim_quoted]
  | some more =>
    have hjoined (part : List Char) :
        [','].intercalate ((row.fields.map String.toList).map quoted ++ [part]) =
          quoted cs ++ [','] ++ part := by
      rw [← hcs]
      simp [fields, List.intercalate_cons_cons]
    refine ⟨[Chars.trimEnd more.toList], ?_⟩
    rw [Option.map_some, Option.toList_some, hjoined, hjoined]
    exact Chars.trim_append_eq (by simp) (by simp [quoted]; decide) (by simp; decide)

/-- A line with more on it is still one line. -/
theorem lineFeed_not_mem_line (h : row.IsWritable) (hmore : ∀ more ∈ more?, '\n' ∉ more.toList) :
    '\n' ∉ (row.line more?).toList := by
  have hname := h.listName.not_mem
  have hspoken := h.spokenForm.not_mem
  have hvalue := h.listValue.not_mem
  rw [toList_line]
  cases more? with
  | none => simp [fields, quoted, List.intercalate_cons_cons, *]
  | some more => simp [fields, quoted, List.intercalate_cons_cons, *]

/-- **The fields of a row come back**, before anything else that stands on its line. -/
theorem exists_fields_line (h : row.IsWritable) (more? : Option String) :
    ∃ later, ListTable.fields (Text.trim (row.line more?)) = row.fields ++ later := by
  have hquotable : ∀ field ∈ row.fields.map String.toList, IsQuotable field := by
    simp [fields, h.listName.isQuotable, h.spokenForm.isQuotable, h.listValue.isQuotable]
  obtain ⟨parts, hparts⟩ := row.exists_trim_line more?
  obtain ⟨later, hlater⟩ := exists_fieldsAfter_intercalate hquotable
    (show none ≠ some '\\' by decide) parts
  refine ⟨later.map .ofList, ?_⟩
  calc ListTable.fields (Text.trim (row.line more?))
      = (fieldsAfter none (Chars.trim (row.line more?).toList)).map .ofList := by
        rw [← Text.toList_trim]
        rfl
    _ = (row.fields.map String.toList ++ later).map .ofList := by rw [hparts, hlater]
    _ = row.fields ++ later.map .ofList := by simp [Function.comp_def]

end Row

/-! ## The table -/

section Table

variable {path : String} (hpath : path.toList.length ≤ Limit.sourceFile)

include hpath

/-- The parts of a row are taken over as they are. -/
theorem itemDraft?_row {row : Row} (h : row.IsWritable) :
    itemDraft? path (Text.clipMarked Limit.listName (Text.trim row.listName)) row.spokenForm
      row.listValue = some (row.draft path) := by
  unfold itemDraft? Row.draft
  simp [h.listName.trim_eq, h.spokenForm.trim_eq, h.listValue.trim_eq, h.listName.ne_empty,
    h.spokenForm.ne_empty, h.listValue.ne_empty, Text.clipMarked_of_length_le hpath,
    Text.clipMarked_of_length_le h.listName.length_le,
    Text.clipMarked_of_length_le h.spokenForm.length_le,
    Text.clipMarked_of_length_le h.listValue.length_le]

theorem item?_line {row : Row} (h : row.IsWritable) (more? : Option String) :
    item? path (row.line more?) = some (row.draft path) := by
  obtain ⟨parts, hparts⟩ := row.exists_trim_line more?
  obtain ⟨later, hlater⟩ := Row.exists_fields_line h more?
  -- a quote opens the line, so that it is neither empty nor a comment
  have hhead : (Text.trim (row.line more?)).toList.head? = some '"' := by
    rw [Text.toList_trim, hparts]
    cases parts <;> simp [Row.fields, quoted, List.intercalate_cons_cons]
  have hne : Text.trim (row.line more?) ≠ "" := by
    intro hempty
    rw [hempty] at hhead
    cases hhead
  have hcomment : Text.startsWith "#" (Text.trim (row.line more?)) = false := by
    rw [Bool.eq_false_iff, Ne, Text.startsWith_iff_head? (show "#".toList = ['#'] from rfl), hhead]
    decide
  unfold item?
  simp only [hne, hcomment, hlater, Bool.false_eq_true, or_self, if_false]
  exact itemDraft?_row hpath h

end Table

theorem item?_dropReturn (path line : String) :
    item? path (Text.dropReturn line) = item? path line := by
  unfold item?
  rw [Text.trim_dropReturn]

theorem item?_empty (path : String) : item? path "" = none := by
  have hempty : Text.trim "" = "" := by decide
  unfold item?
  simp [hempty]

/-- The text of a table, with more on some of its lines and without a line feed at its end. -/
def write (rows : List (Row × Option String)) : String :=
  "\n".intercalate (rows.map fun row => row.1.line row.2)

/-- **A table gives the items that were written to it**, one for each row and in their order. What
stands on a line after the fields of its row and another comma plays no part. -/
theorem items_write {path ending : String} {rows : List (Row × Option String)}
    (hpath : path.toList.length ≤ Limit.sourceFile) (hrows : ∀ row ∈ rows, row.1.IsWritable)
    (hmore : ∀ row ∈ rows, ∀ more ∈ row.2, '\n' ∉ more.toList)
    (hending : ending = "" ∨ ending = "\n") :
    items path (write rows ++ ending) = rows.map fun row => row.1.draft path := by
  have hlines : ∀ l ∈ rows.map fun row => row.1.line row.2, '\n' ∉ l.toList :=
    List.forall_mem_map.2 fun row hrow =>
      Row.lineFeed_not_mem_line (hrows row hrow) (hmore row hrow)
  unfold items write
  rw [Text.filterMap_lines_intercalate (item?_dropReturn path) (item?_empty path) hlines hending,
    List.filterMap_map, ← List.filterMap_eq_map]
  refine List.filterMap_congr fun row hrow => ?_
  rw [Function.comp_apply, Function.comp_apply]
  exact item?_line hpath (hrows row hrow) row.2

/-- A field with commas and one that looks like a comment, and a line that goes on with a quotation
that is never closed. -/
theorem items_write_punctuation :
    items "/lists.csv" "\"user.punct\",\"comma, please\",\",\"\n\"#b\",\"a\\b: c\",\"//\",see \"1" =
      [{ listName := "user.punct", spokenForm := "comma, please", listValue := ",",
         sourceFile := some "/lists.csv" },
       { listName := "#b", spokenForm := "a\\b: c", listValue := "//",
         sourceFile := some "/lists.csv" }] := by
  let rows : List (Row × Option String) := [(⟨"user.punct", "comma, please", ","⟩, none),
    (⟨"#b", "a\\b: c", "//"⟩, some "see \"1")]
  have htext : write rows ++ "" =
      "\"user.punct\",\"comma, please\",\",\"\n\"#b\",\"a\\b: c\",\"//\",see \"1" := by
    decide +kernel
  have hrows : ∀ row ∈ rows, row.1.IsWritable := by decide +kernel
  have hmore : ∀ row ∈ rows, ∀ more ∈ row.2, '\n' ∉ more.toList := by decide +kernel
  rw [← htext]
  exact items_write (by decide) hrows hmore (.inl rfl)

end VoiceIndex.ListTable
