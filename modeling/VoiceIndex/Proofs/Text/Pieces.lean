import Mathlib.Data.List.Basic
import Mathlib.Data.List.TakeWhile
import VoiceIndex.Text.Blank
import VoiceIndex.Text.Pieces

/-!
# Pieces of a text

Cutting at separators. `splitOnP_induction` follows the cuts from left to right; by it, a piece
occurs in the text (`infix_of_mem_splitOnP`), holds no separator (`not_sep_of_mem_splitOnP`), and
the last piece is what follows the last separator (`getLast?_splitOnP_iff`). The pieces are the
parts without a separator that stand between separators (`mem_splitOnP_iff`). Words are the pieces
that are not empty.
-/

namespace VoiceIndex

namespace Chars

variable {p : Char → Bool} {cs part piece w : List Char}

/-- Either nothing is cut, or the first piece ends at the first separator. -/
theorem splitOnP_cases (p : Char → Bool) (cs : List Char) :
    ((∀ c ∈ cs, p c = false) ∧ cs.splitOnP p = [cs]) ∨
      ∃ front sep rest, cs = front ++ sep :: rest ∧ (∀ c ∈ front, p c = false) ∧ p sep = true ∧
        cs.splitOnP p = front :: rest.splitOnP p := by
  by_cases h : ∀ c ∈ cs, p c = false
  · exact .inl ⟨h, List.splitOnP_eq_singleton h⟩
  · have hdrop : cs.dropWhile (!p ·) ≠ [] := by
      intro hnil
      rw [List.dropWhile_eq_nil_iff] at hnil
      exact h fun c hc => by simpa using hnil c hc
    obtain ⟨sep, rest, hcons⟩ := List.exists_cons_of_ne_nil hdrop
    have hsep : p sep = true := by
      have := List.head_dropWhile_not (!p ·) hdrop
      simpa [hcons] using this
    have hfront : ∀ c ∈ cs.takeWhile (!p ·), p c = false := fun c hc => by
      simpa using List.mem_takeWhile_imp hc
    have heq : cs = cs.takeWhile (!p ·) ++ sep :: rest := by
      rw [← hcons, List.takeWhile_append_dropWhile]
    have hcut := List.splitOnP_append_cons_of_forall_mem hfront sep hsep rest
    rw [← heq] at hcut
    exact .inr ⟨_, sep, rest, heq, hfront, hsep, hcut⟩

/-- Induction along the cuts, the first piece apart from the pieces of the rest. -/
theorem splitOnP_induction {motive : List Char → List (List Char) → Prop} (p : Char → Bool)
    (single : ∀ cs, (∀ c ∈ cs, p c = false) → motive cs [cs])
    (cut : ∀ front sep rest, (∀ c ∈ front, p c = false) → p sep = true →
      motive rest (rest.splitOnP p) → motive (front ++ sep :: rest) (front :: rest.splitOnP p))
    (cs : List Char) : motive cs (cs.splitOnP p) := by
  rcases splitOnP_cases p cs with ⟨hcs, hs⟩ | ⟨front, sep, rest, heq, hfront, hsep, hs⟩
  · rw [hs]
    exact single cs hcs
  · rw [hs, heq]
    exact cut front sep rest hfront hsep (splitOnP_induction p single cut rest)
termination_by cs.length
decreasing_by
  rw [heq, List.length_append, List.length_cons]
  omega

/-- A piece occurs in what was cut. -/
theorem infix_of_mem_splitOnP (h : piece ∈ cs.splitOnP p) : piece <:+: cs := by
  refine splitOnP_induction (motive := fun cs pieces => piece ∈ pieces → piece <:+: cs) p
    (fun cs _ h => ?_) (fun front sep rest _ _ ih h => ?_) cs h
  · obtain rfl := List.mem_singleton.1 h
    exact List.infix_refl piece
  · rcases List.mem_cons.1 h with rfl | h
    · exact (List.prefix_append _ _).isInfix
    · have hsuffix : rest <:+ front ++ sep :: rest := ⟨front ++ [sep], by simp⟩
      exact (ih h).trans hsuffix.isInfix

/-- No separator is left in a piece. -/
theorem not_sep_of_mem_splitOnP (h : piece ∈ cs.splitOnP p) : ∀ c ∈ piece, p c = false := by
  refine splitOnP_induction (motive := fun _ pieces => piece ∈ pieces → ∀ c ∈ piece, p c = false) p
    (fun cs hcs h => ?_) (fun front sep rest hfront _ ih h => ?_) cs h
  · rwa [List.mem_singleton.1 h]
  · rcases List.mem_cons.1 h with rfl | h
    · exact hfront
    · exact ih h

/-- The last piece is what follows the last separator, or everything if there is none. -/
theorem getLast?_splitOnP_iff :
    (cs.splitOnP p).getLast? = some piece ↔
      (∀ c ∈ piece, p c = false) ∧
        (cs = piece ∨ ∃ front sep, p sep = true ∧ cs = front ++ sep :: piece) := by
  constructor
  · intro h
    refine ⟨not_sep_of_mem_splitOnP (List.mem_of_getLast? h), ?_⟩
    refine splitOnP_induction (motive := fun cs pieces => pieces.getLast? = some piece →
        (cs = piece ∨ ∃ front sep, p sep = true ∧ cs = front ++ sep :: piece)) p
      (fun cs _ h => .inl (by simpa using h)) (fun front sep rest _ hsep ih h => ?_) cs h
    rw [List.getLast?_cons_of_ne_nil (List.splitOnP_ne_nil p rest)] at h
    rcases ih h with rfl | ⟨front', sep', hsep', rfl⟩
    · exact .inr ⟨front, sep, hsep, rfl⟩
    · exact .inr ⟨front ++ sep :: front', sep', hsep', by simp⟩
  · rintro ⟨hpiece, rfl | ⟨front, sep, hsep, rfl⟩⟩
    · rw [List.splitOnP_eq_singleton hpiece]
      rfl
    · rw [List.splitOnP_append_cons front piece hsep, List.splitOnP_eq_singleton hpiece]
      simp

/-! ## Parts between separators -/

/-- `part` occurs in `cs`, and what stands next to it on either side, if anything does, satisfies
`p`. -/
def Delimited (p : Char → Bool) (part cs : List Char) : Prop :=
  ∃ before after, cs = before ++ part ++ after ∧
    (∀ c ∈ before.getLast?, p c = true) ∧ ∀ c ∈ after.head?, p c = true

theorem Delimited.cons_sep {front rest : List Char} {sep : Char} (hsep : p sep = true)
    (h : Delimited p part rest) : Delimited p part (front ++ sep :: rest) := by
  obtain ⟨before, after, rfl, hbefore, hafter⟩ := h
  refine ⟨front ++ sep :: before, after, by simp, fun c hc => ?_, hafter⟩
  rw [List.getLast?_append_cons] at hc
  cases before with
  | nil =>
    obtain rfl : sep = c := by simpa using hc
    exact hsep
  | cons d before => exact hbefore c (by rwa [List.getLast?_cons_cons] at hc)

/-- The pieces are the parts between separators that hold none themselves. -/
theorem mem_splitOnP_iff : piece ∈ cs.splitOnP p ↔
    Delimited p piece cs ∧ ∀ c ∈ piece, p c = false := by
  constructor
  · intro h
    refine ⟨?_, not_sep_of_mem_splitOnP h⟩
    refine splitOnP_induction (motive := fun cs pieces => piece ∈ pieces → Delimited p piece cs) p
      (fun cs _ h => ?_) (fun front sep rest _ hsep ih h => ?_) cs h
    · obtain rfl := List.mem_singleton.1 h
      exact ⟨[], [], by simp, by simp, by simp⟩
    · rcases List.mem_cons.1 h with rfl | h
      · exact ⟨[], sep :: rest, by simp, by simp, by simpa using hsep⟩
      · exact (ih h).cons_sep hsep
  · rintro ⟨⟨before, after, rfl, hbefore, hafter⟩, hpiece⟩
    have hlast : piece ∈ (piece ++ after).splitOnP p := by
      cases after with
      | nil => rw [List.append_nil, List.splitOnP_eq_singleton hpiece]; exact List.mem_cons_self
      | cons sep after =>
        rw [List.splitOnP_append_cons_of_forall_mem hpiece sep (hafter sep rfl)]
        exact List.mem_cons_self
    rcases List.eq_nil_or_concat before with rfl | ⟨before, sep, rfl⟩
    · exact hlast
    · have hsep : p sep = true := hbefore sep (by simp)
      rw [List.append_assoc, List.concat_eq_append, List.append_assoc, List.singleton_append,
        List.splitOnP_append_cons _ _ hsep]
      exact List.mem_append_right _ hlast

/-! ## The first separator -/

/-- There is no cut if and only if there is no separator. -/
theorem cut_eq_none_iff {sep : Char} : cut sep cs = none ↔ sep ∉ cs := by
  constructor
  · intro hnone hmem
    obtain ⟨a, b, heq, ha⟩ := List.eq_append_cons_of_mem hmem
    have hcut : cut sep cs = some (a, b) := cut_eq_some_iff.2 ⟨heq, ha⟩
    rw [hnone] at hcut
    cases hcut
  · intro hsep
    rw [Option.eq_none_iff_forall_ne_some]
    rintro ⟨a, b⟩ hcut
    rw [(cut_eq_some_iff.1 hcut).1] at hsep
    exact hsep (by simp)

/-- What holds no separator and stands at the beginning stands before the first one. -/
theorem prefix_of_prefix_append_cons {sep : Char} {start a b : List Char} (hsep : sep ∉ start)
    (h : start <+: a ++ sep :: b) : start <+: a := by
  have hfront : a ++ [sep] <+: a ++ sep :: b := ⟨b, by simp⟩
  rcases List.prefix_or_prefix_of_prefix h hfront with hstart | hstart
  · exact (List.prefix_concat_iff.1 hstart).resolve_left fun heq => hsep (by simp [heq])
  · exact absurd (hstart.subset (by simp)) hsep

/-! ## Words -/

theorem infix_of_mem_words (h : w ∈ words cs) : w <:+: cs :=
  infix_of_mem_splitOnP (List.mem_filter.1 h).1

end Chars

namespace Text

variable {p : Char → Bool} {s a b : String} {sep : Char}

/-! ## Pieces and occurrences in texts -/

theorem pieces_of_append (hsep : p sep = true) (hs : s.toList = a.toList ++ sep :: b.toList) :
    pieces p s = pieces p a ++ pieces p b := by
  unfold pieces
  rw [hs, List.splitOnP_append_cons _ _ hsep, List.map_append]

theorem pieces_of_not_sep (h : ∀ c ∈ s.toList, p c = false) : pieces p s = [s] := by
  unfold pieces
  rw [List.splitOnP_eq_singleton h, List.map_singleton, String.ofList_toList]

theorem before?_eq_some_iff {ending rest : String} :
    before? ending s = some rest ↔ rest ++ ending = s := by
  unfold before?
  rw [Option.map_eq_some_iff]
  simp only [List.isSuffixOf?_eq_some_iff_append_eq]
  constructor
  · rintro ⟨cs, hcs, rfl⟩
    rw [← String.toList_inj, String.toList_append, String.toList_ofList, hcs]
  · rintro rfl
    exact ⟨rest.toList, by rw [String.toList_append], String.ofList_toList⟩

theorem after?_eq_some_iff {start rest : String} :
    after? start s = some rest ↔ start ++ rest = s := by
  unfold after?
  rw [Option.map_eq_some_iff]
  simp only [List.isPrefixOf?_eq_some_iff_append_eq]
  constructor
  · rintro ⟨cs, hcs, rfl⟩
    rw [← String.toList_inj, String.toList_append, String.toList_ofList, hcs]
  · rintro rfl
    exact ⟨rest.toList, by rw [String.toList_append], String.ofList_toList⟩

theorem startsWith_iff {start s : String} :
    startsWith start s = true ↔ start.toList <+: s.toList :=
  List.isPrefixOf_iff_prefix

/-- A text begins with a character if the character is its first one. -/
theorem startsWith_iff_head? {start s : String} {c : Char} (hstart : start.toList = [c]) :
    startsWith start s = true ↔ s.toList.head? = some c := by
  rw [startsWith_iff, hstart]
  constructor
  · rintro ⟨rest, hrest⟩
    rw [← hrest]
    rfl
  · intro h
    obtain ⟨rest, hrest⟩ := List.head?_eq_some_iff.1 h
    exact ⟨rest, hrest.symm⟩

theorem cut_eq_none_iff {sep : Char} : cut sep s = none ↔ sep ∉ s.toList := by
  unfold cut
  rw [Option.map_eq_none_iff]
  exact Chars.cut_eq_none_iff

/-- A cut is made at the first separator. -/
theorem cut_eq_some_iff : cut sep s = some (a, b) ↔
    s.toList = a.toList ++ sep :: b.toList ∧ sep ∉ a.toList := by
  rw [← Chars.cut_eq_some_iff, cut, Option.map_eq_some_iff]
  constructor
  · rintro ⟨sides, hcut, hsides⟩
    obtain ⟨rfl, rfl⟩ := Prod.mk.inj hsides
    rwa [String.toList_ofList, String.toList_ofList]
  · exact fun hcut => ⟨_, hcut, by simp only [String.ofList_toList]⟩

theorem after?_eq_none_iff {start : String} :
    after? start s = none ↔ ¬ start.toList <+: s.toList := by
  constructor
  · rintro hnone ⟨rest, hrest⟩
    have hsome : after? start s = some (.ofList rest) := by
      rw [after?_eq_some_iff, ← String.toList_inj, String.toList_append, String.toList_ofList,
        hrest]
    rw [hnone] at hsome
    cases hsome
  · intro h
    rw [Option.eq_none_iff_forall_ne_some]
    intro rest hrest
    exact h ⟨rest.toList, by rw [← after?_eq_some_iff.1 hrest, String.toList_append]⟩

/-- A text that goes on from `a` begins with no other text, unless one of the two begins with the
other. -/
theorem after?_append_eq_none {start : String} (h : ¬ start.toList <+: a.toList)
    (h' : ¬ a.toList <+: start.toList) : after? start (a ++ b) = none := by
  rw [after?_eq_none_iff, String.toList_append]
  intro hstart
  exact (List.prefix_or_prefix_of_prefix hstart (List.prefix_append _ _)).elim h h'

/-- A word of a text occurs in it. -/
theorem infix_of_mem_words {s w : String} (h : w ∈ words s) : w.toList <:+: s.toList := by
  obtain ⟨cs, hcs, rfl⟩ := List.mem_map.1 h
  rw [String.toList_ofList]
  exact Chars.infix_of_mem_words hcs

/-- `contains` decides whether one text occurs in another. -/
theorem contains_iff {s part : String} : contains s part = true ↔ part.toList <:+: s.toList :=
  Chars.hasInfix_iff

end Text

end VoiceIndex
