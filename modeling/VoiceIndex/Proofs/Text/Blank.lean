import VoiceIndex.Proofs.Text.Pieces
import VoiceIndex.Text.Blank

/-!
# Blanks around and between words

A text is its trimmed form with blanks on either side (`exists_eq_trim`), and the only text with
an end that is not blank on both sides that can be so written (`trim_append`). A text is cut at the
same place before and after it is trimmed (`cut_trim`). Blanks around a text make no word of it and
take none away (`words_trim`), and a text without a word is blank (`words_eq_nil_iff`).
-/

namespace VoiceIndex

namespace Chars

variable {cs a b : List Char}

/-! ## Trimming -/

theorem trimStart_of_head? (h : ∀ c ∈ cs.head?, isBlank c = false) : trimStart cs = cs := by
  cases cs with
  | nil => rfl
  | cons c cs =>
    unfold trimStart
    rw [List.dropWhile_cons_of_neg]
    simpa using h c rfl

theorem trimEnd_of_getLast? (h : ∀ c ∈ cs.getLast?, isBlank c = false) : trimEnd cs = cs := by
  have hrev : trimStart cs.reverse = cs.reverse :=
    trimStart_of_head? (by rwa [List.head?_reverse])
  unfold trimEnd
  unfold trimStart at hrev
  rw [hrev, List.reverse_reverse]

/-- Blanks around a text that neither begins nor ends with one are what trimming takes away. -/
theorem trim_append (ha : ∀ c ∈ a, isBlank c = true) (hb : ∀ c ∈ b, isBlank c = true)
    (hhead : ∀ c ∈ cs.head?, isBlank c = false) (hlast : ∀ c ∈ cs.getLast?, isBlank c = false) :
    trim (a ++ cs ++ b) = cs := by
  have hend : trimEnd (cs ++ b) = cs := by
    have hrev := trimEnd_of_getLast? hlast
    unfold trimEnd at hrev ⊢
    rw [List.reverse_append, List.dropWhile_append_of_pos (by simpa using hb), hrev]
  unfold trim
  by_cases hcs : cs = []
  · subst hcs
    have hall : ∀ c ∈ a ++ [] ++ b, isBlank c = true := by
      intro c hc
      rcases List.mem_append.1 hc with hc | hc
      · exact ha c (by simpa using hc)
      · exact hb c hc
    unfold trimStart
    rw [List.dropWhile_eq_nil_iff.2 hall]
    rfl
  · have hstart : trimStart (a ++ cs ++ b) = cs ++ b := by
      unfold trimStart
      rw [List.append_assoc, List.dropWhile_append_of_pos ha]
      exact trimStart_of_head? (by rwa [List.head?_append_of_ne_nil _ hcs])
    rw [hstart, hend]

/-- Trimming the end takes blanks away. -/
theorem exists_trimEnd_append (cs : List Char) :
    ∃ b, cs = trimEnd cs ++ b ∧ ∀ c ∈ b, isBlank c = true := by
  refine ⟨(cs.reverse.takeWhile isBlank).reverse, ?_,
    fun c hc => List.mem_takeWhile_imp (List.mem_reverse.1 hc)⟩
  unfold trimEnd
  rw [← List.reverse_append, List.takeWhile_append_dropWhile, List.reverse_reverse]

theorem exists_trimStart_eq (cs : List Char) :
    ∃ b, trimStart cs = trim cs ++ b ∧ ∀ c ∈ b, isBlank c = true :=
  exists_trimEnd_append (trimStart cs)

/-- A text is its trimmed form with blanks on either side. -/
theorem exists_eq_trim (cs : List Char) : ∃ a b, cs = a ++ trim cs ++ b ∧
    (∀ c ∈ a, isBlank c = true) ∧ ∀ c ∈ b, isBlank c = true := by
  obtain ⟨b, hb, hblank⟩ := exists_trimStart_eq cs
  refine ⟨cs.takeWhile isBlank, b, ?_, fun c hc => List.mem_takeWhile_imp hc, hblank⟩
  calc cs = cs.takeWhile isBlank ++ trimStart cs := List.takeWhile_append_dropWhile.symm
    _ = _ := by rw [hb, List.append_assoc]

theorem isBlank_head?_trimStart (cs : List Char) :
    ∀ c ∈ (trimStart cs).head?, isBlank c = false := by
  intro c hc
  have hnot := List.head?_dropWhile_not isBlank cs
  unfold trimStart at hc
  rw [Option.mem_def] at hc
  rwa [hc] at hnot

theorem isBlank_getLast?_trim (cs : List Char) :
    ∀ c ∈ (trim cs).getLast?, isBlank c = false := by
  intro c hc
  unfold trim trimEnd at hc
  rw [List.getLast?_reverse] at hc
  exact isBlank_head?_trimStart _ c hc

theorem isBlank_head?_trim (cs : List Char) :
    ∀ c ∈ (trim cs).head?, isBlank c = false := by
  intro c hc
  obtain ⟨b, hb, -⟩ := exists_trimStart_eq cs
  refine isBlank_head?_trimStart cs c ?_
  rw [hb, List.head?_append_of_ne_nil _ (List.ne_nil_of_mem (List.mem_of_head? hc))]
  exact hc

theorem trim_eq_self_iff : trim cs = cs ↔
    (∀ c ∈ cs.head?, isBlank c = false) ∧ ∀ c ∈ cs.getLast?, isBlank c = false := by
  constructor
  · intro h
    have hhead := isBlank_head?_trim cs
    have hlast := isBlank_getLast?_trim cs
    rw [h] at hhead hlast
    exact ⟨hhead, hlast⟩
  · rintro ⟨hhead, hlast⟩
    simpa using trim_append (a := []) (b := []) (by simp) (by simp) hhead hlast

/-- Blanks at the end play no part in what trimming leaves. -/
theorem trim_append_of_isBlank (hb : ∀ c ∈ b, isBlank c = true) : trim (cs ++ b) = trim cs := by
  obtain ⟨front, back, heq, hfront, hback⟩ := exists_eq_trim cs
  have hblank : ∀ c ∈ back ++ b, isBlank c = true := by
    intro c hc
    exact (List.mem_append.1 hc).elim (hback c) (hb c)
  calc trim (cs ++ b) = trim (front ++ trim cs ++ (back ++ b)) := by
        rw [← List.append_assoc, ← heq]
    _ = trim cs := trim_append hfront hblank (isBlank_head?_trim cs) (isBlank_getLast?_trim cs)

/-- Blanks in front play no part either. -/
theorem trim_append_left (ha : ∀ c ∈ a, isBlank c = true) : trim (a ++ cs) = trim cs := by
  unfold trim trimStart
  rw [List.dropWhile_append_of_pos ha]

theorem trim_trimStart (cs : List Char) : trim (trimStart cs) = trim cs := by
  have hstart : cs = cs.takeWhile isBlank ++ trimStart cs := List.takeWhile_append_dropWhile.symm
  conv_rhs => rw [hstart]
  exact (trim_append_left fun c hc => List.mem_takeWhile_imp hc).symm

theorem trim_trimEnd (cs : List Char) : trim (trimEnd cs) = trim cs := by
  obtain ⟨b, heq, hb⟩ := exists_trimEnd_append cs
  conv_rhs => rw [heq]
  exact (trim_append_of_isBlank hb).symm

/-- Nothing is taken from the end of what stands before if that is not blank. -/
theorem trimEnd_append (hlast : ∀ c ∈ a.getLast?, isBlank c = false) :
    trimEnd (a ++ cs) = a ++ trimEnd cs := by
  have hself := trimEnd_of_getLast? hlast
  unfold trimEnd at hself ⊢
  rw [List.reverse_append, List.dropWhile_append]
  split_ifs with hempty
  · rw [hself, List.isEmpty_iff.1 hempty, List.reverse_nil, List.append_nil]
  · rw [List.reverse_append, List.reverse_reverse]

/-- What has no blank on either side stays in front, whatever follows. -/
theorem trim_append_eq (hne : a ≠ []) (hhead : ∀ c ∈ a.head?, isBlank c = false)
    (hlast : ∀ c ∈ a.getLast?, isBlank c = false) : trim (a ++ cs) = a ++ trimEnd cs := by
  have hstart : trimStart (a ++ cs) = a ++ cs :=
    trimStart_of_head? (by rwa [List.head?_append_of_ne_nil _ hne])
  rw [trim, hstart, trimEnd_append hlast]

/-- A character that is not blank keeps apart what stands on its two sides. -/
theorem trim_append_cons {c : Char} (hc : isBlank c = false) :
    trim (a ++ c :: b) = trimStart a ++ c :: trimEnd b := by
  have hstart : trimStart (a ++ c :: b) = trimStart a ++ [c] ++ b := by
    unfold trimStart
    rw [List.dropWhile_append]
    split_ifs with hempty
    · rw [List.isEmpty_iff.1 hempty, List.dropWhile_cons_of_neg (by simp [hc])]
      rfl
    · simp
  rw [trim, hstart, trimEnd_append (by simpa using hc), List.append_assoc]
  rfl

/-- Only blanks are trimmed away. -/
theorem mem_trim_iff {c : Char} (hc : isBlank c = false) : c ∈ trim cs ↔ c ∈ cs := by
  obtain ⟨a, b, heq, ha, hb⟩ := exists_eq_trim cs
  have hc' : isBlank c ≠ true := by rw [hc]; exact Bool.false_ne_true
  constructor
  · intro h
    rw [heq]
    exact List.mem_append_left _ (List.mem_append_right _ h)
  · intro h
    rw [heq, List.mem_append, List.mem_append] at h
    obtain (h | h) | h := h
    · exact absurd (ha c h) hc'
    · exact h
    · exact absurd (hb c h) hc'

/-- Trimming moves no cut: the blanks that it takes away stand before and after it. -/
theorem cut_trim {sep : Char} (hsep : isBlank sep = false) (cs : List Char) :
    cut sep (trim cs) = (cut sep cs).map fun (a, b) => (trimStart a, trimEnd b) := by
  cases hcut : cut sep cs with
  | none => rw [Option.map_none, cut_eq_none_iff, mem_trim_iff hsep, ← cut_eq_none_iff, hcut]
  | some sides =>
    obtain ⟨a, b⟩ := sides
    obtain ⟨rfl, ha⟩ := cut_eq_some_iff.1 hcut
    have hstart : sep ∉ trimStart a := fun hmem => ha ((List.dropWhile_sublist _).subset hmem)
    exact cut_eq_some_iff.2 ⟨trim_append_cons hsep, hstart⟩

/-! ## Words -/

theorem words_append_cons {c : Char} (hc : isBlank c = true) :
    words (a ++ c :: b) = words a ++ words b := by
  unfold words
  rw [List.splitOnP_append_cons _ _ hc, List.filter_append]

theorem words_append_of_isBlank (ha : ∀ c ∈ a, isBlank c = true) :
    words (a ++ b) = words b := by
  induction a with
  | nil => rfl
  | cons c a ih =>
    obtain ⟨hc, ha⟩ := List.forall_mem_cons.1 ha
    rw [List.cons_append, ← ih ha]
    exact words_append_cons (a := []) hc

theorem words_of_isBlank (h : ∀ c ∈ cs, isBlank c = true) : words cs = [] := by
  rw [← List.append_nil cs, words_append_of_isBlank h]
  rfl

/-- Blanks around a text play no part in its words. -/
theorem words_trim (cs : List Char) : words (trim cs) = words cs := by
  obtain ⟨a, b, heq, ha, hb⟩ := exists_eq_trim cs
  have hend : words (trim cs ++ b) = words (trim cs) := by
    cases b with
    | nil => rw [List.append_nil]
    | cons c b =>
      obtain ⟨hc, hb⟩ := List.forall_mem_cons.1 hb
      rw [words_append_cons hc, words_of_isBlank hb, List.append_nil]
  conv_rhs => rw [heq, List.append_assoc, words_append_of_isBlank ha, hend]

theorem isBlank_of_words_eq_nil (h : words cs = []) : ∀ c ∈ cs, isBlank c = true := by
  refine splitOnP_induction (motive := fun cs pieces =>
      pieces.filter (!·.isEmpty) = [] → ∀ c ∈ cs, isBlank c = true) isBlank
    (fun cs _ h => ?_) (fun front sep rest _ hsep ih h => ?_) cs h
  · obtain rfl : cs = [] := by simpa using h
    simp
  · cases front with
    | nil => exact List.forall_mem_cons.2 ⟨hsep, ih h⟩
    | cons c front => exact absurd h (List.cons_ne_nil _ _)

/-- A text without a word is one that trimming leaves empty. -/
theorem words_eq_nil_iff : words cs = [] ↔ trim cs = [] := by
  constructor
  · intro h
    have htrim : trim (cs ++ [] ++ []) = [] :=
      trim_append (isBlank_of_words_eq_nil h) (by simp) (by simp) (by simp)
    simpa using htrim
  · intro h
    rw [← words_trim, h]
    rfl

end Chars

namespace Text

theorem trim_trim (s : String) : trim (trim s) = trim s := by
  rw [← String.toList_inj, toList_trim, toList_trim, Chars.trim_eq_self_iff]
  exact ⟨Chars.isBlank_head?_trim s.toList, Chars.isBlank_getLast?_trim s.toList⟩

theorem trim_append_left {front : String} (hfront : front.toList.all VoiceIndex.isBlank = true)
    (s : String) : trim (front ++ s) = trim s := by
  unfold trim
  rw [String.toList_append, Chars.trim_append_left (List.all_eq_true.1 hfront)]

theorem trim_eq_self_iff {s : String} : trim s = s ↔
    (∀ c ∈ s.toList.head?, VoiceIndex.isBlank c = false) ∧
      ∀ c ∈ s.toList.getLast?, VoiceIndex.isBlank c = false := by
  rw [← String.toList_inj, toList_trim, Chars.trim_eq_self_iff]

theorem trim_infix (s : String) : (trim s).toList <:+: s.toList := by
  obtain ⟨a, b, heq, -, -⟩ := Chars.exists_eq_trim s.toList
  exact ⟨a, b, by rw [toList_trim, ← heq]⟩

/-- Nothing is left of a text that is blank. -/
theorem trim_eq_empty_iff {s : String} : trim s = "" ↔ isBlank s = true := by
  unfold trim isBlank
  rw [String.ofList_eq_empty_iff, ← Chars.words_eq_nil_iff, List.all_eq_true]
  exact ⟨Chars.isBlank_of_words_eq_nil, Chars.words_of_isBlank⟩

end Text

end VoiceIndex
