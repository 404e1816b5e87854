import Mathlib.Data.List.Forall2
import VoiceIndex.Proofs.Source.Header
import VoiceIndex.Proofs.Source.Body
import VoiceIndex.Proofs.Source.ListFile
import VoiceIndex.Proofs.Source.ListTable

/-!
# Sources are read line by line

Of a line nothing counts but what stands between the blanks around it and, in the body of a command
file, whether it is indented. Files whose lines are alike in this way say the same
(`CommandFile.commands_congr`, `ListFile.items_congr`, `ListTable.items_congr`). A carriage return at
the end of a line changes neither, and so it plays no part how the lines of a file end
(`read_withReturns`). A line of a list file or of a table leaves nothing behind for the next one: what
stands before a line feed and what stands after it could as well be two files (`items_append`).
-/

namespace VoiceIndex

variable {lines lines' : List String}

/-! ## Lines that are read alike -/

theorem ReadsAlike.refl (l : String) : ReadsAlike l l := ⟨rfl, rfl⟩

/-- The lines of a text are read alike with and without carriage returns. -/
theorem forall₂_lines_withReturns (content : String) :
    List.Forall₂ ReadsAlike (Text.lines (Text.withReturns content)) (Text.lines content) := by
  obtain ⟨front, last, hreturns, hlines⟩ := Text.exists_lines_withReturns content
  rw [hreturns, hlines]
  refine List.rel_append (List.forall₂_map_right_iff.2 ?_) ?_
  · exact List.forall₂_same.2 fun l _ => readsAlike_dropReturn l
  · exact List.forall₂_same.2 fun l _ => ReadsAlike.refl l

/-- A reader that takes line after line finds the same if it finds the same on each line. -/
theorem filterMap_eq_of_forall₂ {α : Type} {f : String → Option α}
    (hf : ∀ l l', ReadsAlike l l' → f l = f l') (h : List.Forall₂ ReadsAlike lines lines') :
    lines.filterMap f = lines'.filterMap f := by
  induction h with
  | nil => rfl
  | cons hline _ ih => rw [List.filterMap_cons, List.filterMap_cons, hf _ _ hline, ih]

/-! ## Command files -/

theorem Header.ofLines_eq_of_forall₂ (h : List.Forall₂ ReadsAlike lines lines') :
    ofLines lines = ofLines lines' := by
  have htrim : lines.map Text.trim = lines'.map Text.trim := by
    rw [← List.forall₂_eq_eq_eq, List.forall₂_map_left_iff, List.forall₂_map_right_iff]
    exact h.imp fun _ _ hline => hline.trim_eq
  exact ofLines_congr (congrArg (List.filter counts) htrim)

theorem Block.ofLines_eq_of_forall₂ (h : List.Forall₂ ReadsAlike lines lines') :
    ofLines lines = ofLines lines' := by
  unfold ofLines
  rw [filterMap_eq_of_forall₂ (fun _ _ => BodyLine.ofLine?_congr) h]

namespace CommandFile

/-- Files whose lines are read alike are divided at the same line. -/
theorem divide_congr (h : List.Forall₂ ReadsAlike lines lines') :
    Option.Rel (fun parts parts' => List.Forall₂ ReadsAlike parts.1 parts'.1 ∧
      List.Forall₂ ReadsAlike parts.2 parts'.2) (divide lines) (divide lines') := by
  induction h with
  | nil => exact .none
  | @cons l l' rest rest' hline hrest ih =>
    unfold divide
    rw [hline.trim_eq]
    split_ifs
    · exact .some ⟨.nil, hrest⟩
    · generalize divide rest = parts? at ih ⊢
      generalize divide rest' = parts?' at ih ⊢
      cases ih with
      | none => exact .none
      | some hparts => exact .some ⟨.cons hline hparts.1, hparts.2⟩

/-- **Files whose lines are read alike have the same commands.** -/
theorem commands_congr {content content' : String}
    (h : List.Forall₂ ReadsAlike (Text.lines content) (Text.lines content')) (path : String) :
    commands path content = commands path content' := by
  have hdivide := divide_congr h
  unfold commands
  generalize divide (Text.lines content) = parts? at hdivide ⊢
  generalize divide (Text.lines content') = parts?' at hdivide ⊢
  cases hdivide with
  | none => rfl
  | some hparts =>
    simp only [Header.ofLines_eq_of_forall₂ hparts.1, Block.ofLines_eq_of_forall₂ hparts.2]

end CommandFile

/-! ## List files and tables -/

theorem ListFile.items_congr {content content' : String}
    (h : List.Forall₂ ReadsAlike (Text.lines content) (Text.lines content')) (path : String) :
    items path content = items path content' := by
  refine filterMap_eq_of_forall₂ (fun l l' hline => ?_) h
  unfold item?
  rw [hline.trim_eq]

theorem ListTable.items_congr {content content' : String}
    (h : List.Forall₂ ReadsAlike (Text.lines content) (Text.lines content')) (path : String) :
    items path content = items path content' := by
  refine filterMap_eq_of_forall₂ (fun l l' hline => ?_) h
  unfold item?
  rw [hline.trim_eq]

/-- **It plays no part how the lines of a source end**: with a carriage return put in front of every
line feed, a file of any kind gives what it gave without. -/
theorem read_withReturns (path content : String) :
    CommandFile.commands path (Text.withReturns content) = CommandFile.commands path content ∧
      ListFile.items path (Text.withReturns content) = ListFile.items path content ∧
      ListTable.items path (Text.withReturns content) = ListTable.items path content :=
  have hlines := forall₂_lines_withReturns content
  ⟨CommandFile.commands_congr hlines path, ListFile.items_congr hlines path,
    ListTable.items_congr hlines path⟩

/-- **No line of a list file or of a table plays a part in what another one gives**, whatever stands
on them: a quotation that is not closed ends with its line, and so does a comment. -/
theorem items_append (path a b : String) :
    ListTable.items path (a ++ "\n" ++ b) = ListTable.items path a ++ ListTable.items path b ∧
      ListFile.items path (a ++ "\n" ++ b) = ListFile.items path a ++ ListFile.items path b :=
  ⟨Text.filterMap_lines_append (ListTable.item?_dropReturn path) (ListTable.item?_empty path) a b,
    Text.filterMap_lines_append (ListFile.item?_dropReturn path _) (ListFile.item?_empty path _) a b⟩

end VoiceIndex
