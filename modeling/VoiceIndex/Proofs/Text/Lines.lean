import VoiceIndex.Proofs.Text.Blank

/-!
# Lines of a text

Lines that are joined by line feeds come back without the carriage returns that end them, and
without an empty one that stands last (`lines_intercalate_concat`). They come back as they were,
whether or not another line feed ends the last one (`lines_intercalate`), if each of them is a
single line that is not empty and does not end in a carriage return (`IsLine`). What is written on
such a line comes back too, if it is tidy (`IsTidy`).

A reader that takes line after line, and to which an empty line and the carriage return at the end
of a line say nothing, reads what stands between the line feeds (`filterMap_lines`), and so any
lines as they were before they were joined (`filterMap_lines_intercalate`). It reads two texts with
a line feed between them one after the other (`filterMap_lines_append`).

A carriage return in front of each line feed is no part of the lines, and if one stood there before,
it now is (`exists_lines_withReturns`).
-/

namespace VoiceIndex

namespace Chars

/-! ## The end of a line -/

/-- A carriage return is blank. -/
theorem trim_dropReturn (cs : List Char) : trim (dropReturn cs) = trim cs := by
  unfold dropReturn
  split_ifs with hlast
  · have hreturn : ∀ c ∈ ['\r'], isBlank c = true := List.forall_mem_singleton.2 rfl
    calc trim cs.dropLast = trim (cs.dropLast ++ ['\r']) := (trim_append_of_isBlank hreturn).symm
      _ = trim cs := by rw [List.dropLast_append_getLast? _ hlast]
  · rfl

theorem head?_dropReturn_eq_some_iff {c : Char} (hc : c ≠ '\r') (cs : List Char) :
    (dropReturn cs).head? = some c ↔ cs.head? = some c := by
  unfold dropReturn
  split_ifs with hlast
  · obtain ⟨front, rfl⟩ := List.getLast?_eq_some_iff.1 hlast
    rw [List.dropLast_concat]
    cases front with
    | nil => simpa using hc.symm
    | cons d front => rfl
  · rfl

/-! ## Joined lines -/

variable {front : List (List Char)} {last : List Char}

/-- The last line is there unless it is empty, and goes without an ending. -/
theorem lines_intercalate (h : ∀ l ∈ front ++ [last], '\n' ∉ l) :
    lines (['\n'].intercalate (front ++ [last])) =
      front.map dropReturn ++ [last].filter (!·.isEmpty) := by
  have hsplit : (['\n'].intercalate (front ++ [last])).splitOn '\n' = front ++ [last] :=
    List.splitOn_intercalate '\n' h (by simp)
  unfold lines
  simp [hsplit]

/-! ## Carriage returns before the line feeds -/

/-- The characters with a carriage return put in front of every line feed. -/
def withReturns (cs : List Char) : List Char :=
  cs.flatMap fun c => if c = '\n' then ['\r', '\n'] else [c]

theorem withReturns_of_not_mem {cs : List Char} (h : '\n' ∉ cs) : withReturns cs = cs := by
  have hself : ∀ c ∈ cs, (if c = '\n' then ['\r', '\n'] else [c]) = [c] := fun c hc =>
    if_neg (ne_of_mem_of_not_mem hc h)
  unfold withReturns
  rw [List.flatMap_congr hself, List.flatMap_singleton']

theorem splitOn_withReturns (cs : List Char) : (withReturns cs).splitOn '\n' =
    (cs.splitOn '\n').dropLast.map (· ++ ['\r']) ++ (cs.splitOn '\n').getLast?.toList := by
  refine splitOnP_induction (motive := fun cs pieces => (withReturns cs).splitOn '\n' =
      pieces.dropLast.map (· ++ ['\r']) ++ pieces.getLast?.toList) (· == '\n')
    (fun cs hcs => ?_) (fun front sep rest hfront hsep ih => ?_) cs
  · have hcs' : '\n' ∉ cs := fun hmem => by simpa using hcs _ hmem
    rw [withReturns_of_not_mem hcs']
    exact List.splitOnP_eq_singleton hcs
  · obtain rfl : sep = '\n' := by simpa using hsep
    have hfront' : '\n' ∉ front := fun hmem => by simpa using hfront _ hmem
    have hwritten : withReturns (front ++ '\n' :: rest) =
        (front ++ ['\r']) ++ '\n' :: withReturns rest := by
      conv_rhs => rw [← withReturns_of_not_mem hfront']
      simp [withReturns]
    have hreturn : ∀ c ∈ front ++ ['\r'], (c == '\n') = false :=
      List.forall_mem_append.2 ⟨hfront, List.forall_mem_singleton.2 (by decide)⟩
    have hcut : (withReturns (front ++ '\n' :: rest)).splitOn '\n' =
        (front ++ ['\r']) :: (withReturns rest).splitOn '\n' := by
      rw [hwritten]
      exact List.splitOnP_append_cons_of_forall_mem hreturn '\n' hsep _
    have hne : rest.splitOnP (· == '\n') ≠ [] := List.splitOnP_ne_nil _ _
    rw [hcut, ih, List.dropLast_cons_of_ne_nil hne, List.getLast?_cons_of_ne_nil hne,
      List.map_cons, List.cons_append]

/-- Each line feed takes the carriage return that was put in front of it along. -/
theorem lines_withReturns (cs : List Char) : lines (withReturns cs) =
    (cs.splitOn '\n').dropLast ++ (cs.splitOn '\n').getLast?.toList.filter (!·.isEmpty) := by
  obtain ⟨front, last, hpieces⟩ : ∃ front last, cs.splitOn '\n' = front ++ [last] :=
    ⟨_, _, (List.dropLast_append_getLast (List.splitOnP_ne_nil _ _)).symm⟩
  have hdrop : front.map (dropReturn ∘ (· ++ ['\r'])) = front := by
    refine List.map_id'' (fun line => ?_) front
    simp [dropReturn]
  unfold lines
  rw [splitOn_withReturns, hpieces]
  simp [hdrop]

end Chars

namespace Text

/-- The line without the carriage return that may end it. -/
def dropReturn (line : String) : String := .ofList (Chars.dropReturn line.toList)

theorem trim_dropReturn (line : String) : trim (dropReturn line) = trim line := by
  unfold trim dropReturn
  rw [String.toList_ofList, Chars.trim_dropReturn]

theorem startsWith_dropReturn {start : String} {c : Char} (hstart : start.toList = [c])
    (hc : c ≠ '\r') (line : String) :
    startsWith start (dropReturn line) = startsWith start line := by
  rw [Bool.eq_iff_iff, startsWith_iff_head? hstart, startsWith_iff_head? hstart, dropReturn,
    String.toList_ofList]
  exact Chars.head?_dropReturn_eq_some_iff hc line.toList

/-- The lines of a text that is joined from any lines. -/
theorem lines_intercalate_concat {front : List String} {last : String}
    (h : ∀ l ∈ front ++ [last], '\n' ∉ l.toList) :
    lines ("\n".intercalate (front ++ [last])) =
      front.map dropReturn ++ [last].filter (· ≠ "") := by
  have hmap : (front ++ [last]).map String.toList = front.map String.toList ++ [last.toList] := by
    simp
  have hmem : ∀ l ∈ front.map String.toList ++ [last.toList], '\n' ∉ l := by
    rw [← hmap, List.forall_mem_map]
    exact h
  have hchars : Chars.lines ("\n".intercalate (front ++ [last])).toList =
      (front.map String.toList).map Chars.dropReturn ++ [last.toList].filter (!·.isEmpty) := by
    rw [String.toList_intercalate, hmap]
    exact Chars.lines_intercalate hmem
  have hlast : ([last.toList].filter (!·.isEmpty)).map String.ofList = [last].filter (· ≠ "") := by
    by_cases hempty : last = ""
    · subst hempty
      rfl
    · simp [hempty, String.toList_eq_nil_iff]
  unfold lines
  rw [hchars, List.map_append, hlast, List.map_map, List.map_map]
  rfl

/-- A line that can be told from the ones around it: without a line feed, not empty, and with
nothing at its end that belongs to a line ending. -/
structure IsLine (s : String) : Prop where
  not_mem : '\n' ∉ s.toList
  ne_empty : s ≠ ""
  getLast?_ne : s.toList.getLast? ≠ some '\r'

theorem IsLine.dropReturn {s : String} (h : IsLine s) : Chars.dropReturn s.toList = s.toList :=
  if_neg h.getLast?_ne

theorem map_dropReturn {ls : List String} (h : ∀ l ∈ ls, IsLine l) : ls.map dropReturn = ls := by
  have hself : ∀ l ∈ ls, dropReturn l = id l := by
    intro l hl
    unfold dropReturn
    rw [(h l hl).dropReturn, String.ofList_toList, id]
  rw [List.map_congr_left hself, List.map_id]

/-- A line feed after the last line begins a line that is empty. -/
theorem intercalate_append_lineFeed {ls : List String} (hls : ls ≠ []) :
    "\n".intercalate ls ++ "\n" = "\n".intercalate (ls ++ [""]) := by
  rw [String.intercalate_append_of_ne_nil hls (by simp), String.intercalate_singleton,
    String.append_empty]

/-- **Lines come back from the text that they are joined to.** -/
theorem lines_intercalate {ls : List String} {ending : String} (hls : ls ≠ [])
    (h : ∀ l ∈ ls, IsLine l) (hending : ending = "" ∨ ending = "\n") :
    lines ("\n".intercalate ls ++ ending) = ls := by
  have hmem : ∀ l ∈ ls, '\n' ∉ l.toList := fun l hl => (h l hl).not_mem
  rcases hending with rfl | rfl
  · obtain ⟨front, last, rfl⟩ : ∃ front last, ls = front ++ [last] :=
      ⟨_, _, (List.dropLast_append_getLast hls).symm⟩
    obtain ⟨hfront, hlast⟩ := List.forall_mem_append.1 h
    have hkept : [last].filter (· ≠ "") = [last] := by
      simp [(List.forall_mem_singleton.1 hlast).ne_empty]
    rw [String.append_empty, lines_intercalate_concat hmem, map_dropReturn hfront, hkept]
  · have hempty : ∀ l ∈ ls ++ [""], '\n' ∉ l.toList :=
      List.forall_mem_append.2 ⟨hmem, List.forall_mem_singleton.2 (by simp)⟩
    have hgone : [""].filter (· ≠ "") = [] := rfl
    rw [intercalate_append_lineFeed hls, lines_intercalate_concat hempty, map_dropReturn h, hgone,
      List.append_nil]

/-! ## Lines that are read one by one -/

/-- What stands between the line feeds are the lines that were joined. -/
theorem pieces_intercalate {ls : List String} (hls : ls ≠ []) (h : ∀ l ∈ ls, '\n' ∉ l.toList) :
    pieces (· == '\n') ("\n".intercalate ls) = ls := by
  have hsplit : (['\n'].intercalate (ls.map String.toList)).splitOn '\n' = ls.map String.toList :=
    List.splitOn_intercalate '\n' (List.forall_mem_map.2 h) (by simpa using hls)
  unfold pieces
  rw [String.toList_intercalate]
  calc _ = (ls.map String.toList).map String.ofList := congrArg _ hsplit
    _ = ls := by simp [Function.comp_def]

section Reader

variable {α : Type} {f : String → Option α} (hreturn : ∀ l, f (dropReturn l) = f l)
  (hempty : f "" = none)

include hreturn hempty

/-- The reader finds what stands between the line feeds. -/
theorem filterMap_lines (s : String) :
    (lines s).filterMap f = (pieces (· == '\n') s).filterMap f := by
  obtain ⟨front, last, hpieces⟩ : ∃ front last, s.toList.splitOnP (· == '\n') = front ++ [last] :=
    ⟨_, _, (List.dropLast_append_getLast (List.splitOnP_ne_nil _ _)).symm⟩
  have hfront : front.filterMap ((f ∘ .ofList) ∘ Chars.dropReturn) =
      front.filterMap (f ∘ .ofList) := by
    refine List.filterMap_congr fun l _ => ?_
    simpa [dropReturn] using hreturn (.ofList l)
  have hlast : ([last].filter (!·.isEmpty)).filterMap (f ∘ .ofList) =
      [last].filterMap (f ∘ .ofList) := by
    by_cases h : last = []
    · subst h
      simp [hempty]
    · simp [h]
  unfold lines pieces Chars.lines List.splitOn
  simp only [hpieces, List.dropLast_concat, List.getLast?_concat, Option.toList_some,
    List.filterMap_map, List.filterMap_append]
  rw [hfront, hlast]

/-- The reader reads what stands before a line feed and what stands after it apart. -/
theorem filterMap_lines_append (a b : String) :
    (lines (a ++ "\n" ++ b)).filterMap f = (lines a).filterMap f ++ (lines b).filterMap f := by
  have hjoined : (a ++ "\n" ++ b).toList = a.toList ++ '\n' :: b.toList := by simp
  rw [filterMap_lines hreturn hempty, filterMap_lines hreturn hempty, filterMap_lines hreturn hempty,
    pieces_of_append (by decide) hjoined, List.filterMap_append]

/-- **The reader finds the lines that were joined**, however the last one ends. -/
theorem filterMap_lines_intercalate {ls : List String} {ending : String}
    (h : ∀ l ∈ ls, '\n' ∉ l.toList) (hending : ending = "" ∨ ending = "\n") :
    (lines ("\n".intercalate ls ++ ending)).filterMap f = ls.filterMap f := by
  rw [filterMap_lines hreturn hempty]
  by_cases hls : ls = []
  · subst hls
    have hnothing : pieces (· == '\n') "" = [""] ∧ pieces (· == '\n') "\n" = ["", ""] := by
      decide +kernel
    rcases hending with rfl | rfl
    · simp [hnothing.1, hempty]
    · simp [hnothing.2, hempty]
  rcases hending with rfl | rfl
  · rw [String.append_empty, pieces_intercalate hls h]
  · have hlines : ∀ l ∈ ls ++ [""], '\n' ∉ l.toList :=
      List.forall_mem_append.2 ⟨h, List.forall_mem_singleton.2 (by simp)⟩
    rw [intercalate_append_lineFeed hls, pieces_intercalate (by simp) hlines]
    simp [hempty]

end Reader

/-! ## Carriage returns before the line feeds -/

/-- The text with a carriage return put in front of every line feed. -/
def withReturns (s : String) : String := .ofList (Chars.withReturns s.toList)

/-- The lines of the text with its carriage returns are those without, but for a carriage return
that ended a line already. The last line has no line feed after it and is not touched. -/
theorem exists_lines_withReturns (s : String) : ∃ front last,
    lines (withReturns s) = front ++ last ∧ lines s = front.map dropReturn ++ last := by
  let pieces := s.toList.splitOn '\n'
  refine ⟨pieces.dropLast.map .ofList,
    (pieces.getLast?.toList.filter (!·.isEmpty)).map .ofList, ?_, ?_⟩
  · unfold lines withReturns
    rw [String.toList_ofList, Chars.lines_withReturns, List.map_append]
  · unfold lines Chars.lines
    rw [List.map_append, List.map_map, List.map_map]
    congr 1
    refine List.map_congr_left fun piece _ => ?_
    simp [dropReturn]

/-! ## What stands on a line -/

/-- A text that can be found again on a line: not empty, without a line feed and without blanks
around it. -/
structure IsTidy (s : String) : Prop where
  not_mem : '\n' ∉ s.toList
  ne_empty : s ≠ ""
  trim_eq : trim s = s

theorem isTidy_iff {s : String} : IsTidy s ↔ '\n' ∉ s.toList ∧ s ≠ "" ∧ trim s = s :=
  ⟨fun h => ⟨h.not_mem, h.ne_empty, h.trim_eq⟩, fun h => ⟨h.1, h.2.1, h.2.2⟩⟩

instance (s : String) : Decidable (IsTidy s) := decidable_of_iff' _ isTidy_iff

namespace IsTidy

variable {s front : String}

theorem ends (h : IsTidy s) : (∀ c ∈ s.toList.head?, VoiceIndex.isBlank c = false) ∧
    ∀ c ∈ s.toList.getLast?, VoiceIndex.isBlank c = false :=
  trim_eq_self_iff.1 h.trim_eq

theorem getLast?_append (h : IsTidy s) :
    (front ++ s).toList.getLast? = s.toList.getLast? := by
  rw [String.toList_append]
  exact List.getLast?_append_of_ne_nil _ (mt String.toList_eq_nil_iff.1 h.ne_empty)

theorem exists_cons (h : IsTidy s) : ∃ c cs, s.toList = c :: cs ∧ VoiceIndex.isBlank c = false := by
  obtain ⟨c, cs, heq⟩ := List.exists_cons_of_ne_nil (mt String.toList_eq_nil_iff.1 h.ne_empty)
  exact ⟨c, cs, heq, h.ends.1 c (by rw [heq]; rfl)⟩

/-- Blanks in front are taken away. -/
theorem trim_append (h : IsTidy s) (hfront : front.toList.all VoiceIndex.isBlank = true) :
    trim (front ++ s) = s := by
  rw [trim_append_left hfront, h.trim_eq]

/-- Something else in front stays. -/
theorem append {c : Char} {cs : List Char} (h : IsTidy s) (hfront : front.toList = c :: cs)
    (hc : VoiceIndex.isBlank c = false) (hline : '\n' ∉ front.toList) : IsTidy (front ++ s) where
  not_mem := by
    rw [String.toList_append, List.mem_append, not_or]
    exact ⟨hline, h.not_mem⟩
  ne_empty := by
    rw [← String.toList_inj.ne, String.toList_append, hfront]
    simp
  trim_eq := by
    rw [← String.toList_inj, toList_trim, Chars.trim_eq_self_iff, h.getLast?_append,
      String.toList_append, hfront]
    refine ⟨fun d hd => ?_, h.ends.2⟩
    obtain rfl : c = d := by simpa using hd
    exact hc

theorem isLine_append (h : IsTidy s) (hline : '\n' ∉ front.toList) : IsLine (front ++ s) where
  not_mem := by
    rw [String.toList_append, List.mem_append, not_or]
    exact ⟨hline, h.not_mem⟩
  ne_empty hempty := h.ne_empty (String.append_eq_empty_iff.1 hempty).2
  getLast?_ne hlast := by
    rw [h.getLast?_append] at hlast
    exact absurd (h.ends.2 _ hlast) (by decide)

theorem isLine (h : IsTidy s) : IsLine s := by
  rw [← String.empty_append (s := s)]
  exact h.isLine_append (by simp)

end IsTidy

end Text

end VoiceIndex
