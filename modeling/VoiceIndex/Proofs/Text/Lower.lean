import VoiceIndex.Proofs.Text.Blank
import VoiceIndex.Text.Case.Lower

/-!
# Lower case and the ends of words

Lower-casing looks around a capital sigma, but never past a character that ends a word
(`lowerAfter_append_break`, `lowerAfter_of_break`). So the lower case of a part that stands between
two such characters occurs in the lower case of the whole (`lower_infix_of_delimited`), and as every
blank ends a word and only blanks become blanks, the words of a text in lower case are its words in
lower case (`words_lower`).
-/

namespace VoiceIndex

namespace Case

/-- A character that ends a word: neither a letter with case nor one that a word may carry. -/
def isBreak (c : Char) : Bool := !isCased c && !isIgnorable c

variable {c : Char} {a b before cs : List Char}

/-! ## Contexts -/

theorem reachesLetter_append_break (hc : isBreak c = true) :
    reachesLetter (a ++ c :: b) = reachesLetter a := by
  obtain ⟨hcased, hignorable⟩ : isCased c = false ∧ isIgnorable c = false := by
    simpa [isBreak] using hc
  unfold reachesLetter
  induction a with
  | nil => simp [hcased, hignorable]
  | cons d a ih =>
    cases hd : isIgnorable d with
    | true => simpa [hd] using ih
    | false => simp [hd]

/-- What follows a break does not show before it. -/
theorem lowerAfter_append_break (hc : isBreak c = true) :
    lowerAfter before (a ++ c :: b) =
      lowerAfter before a ++ lowerAfter (a.reverse ++ before) (c :: b) := by
  induction a generalizing before with
  | nil => rfl
  | cons d a ih =>
    have hends : endsWord before (a ++ c :: b) = endsWord before a := by
      unfold endsWord
      rw [reachesLetter_append_break hc]
    rw [List.cons_append, lowerAfter, lowerAfter, hends, ih, List.reverse_cons]
    simp only [List.append_assoc, List.singleton_append]

/-- What precedes a break does not show after it. -/
theorem lowerAfter_of_break (hc : isBreak c = true) :
    lowerAfter (a ++ c :: before) cs = lowerAfter a cs := by
  induction cs generalizing a with
  | nil => rfl
  | cons d cs ih =>
    have hends : endsWord (a ++ c :: before) cs = endsWord a cs := by
      unfold endsWord
      rw [reachesLetter_append_break hc]
    rw [lowerAfter, lowerAfter, hends, ← List.cons_append, ih]

/-! ## Blanks in the tables -/

/-- Whether no number lies both in a range of the one list and in a range of the other. -/
def apart (r s : List (Nat × Nat)) : Bool :=
  r.all fun a => s.all fun b => decide (a.2 < b.1) || decide (b.2 < a.1)

theorem inRanges_of_apart {r s : List (Nat × Nat)} {n : Nat} (h : apart r s = true)
    (hn : inRanges r n = true) : inRanges s n = false := by
  unfold apart at h
  unfold inRanges at hn ⊢
  simp only [List.all_eq_true, List.any_eq_true, Bool.or_eq_true, decide_eq_true_eq,
    Bool.and_eq_true, List.any_eq_false, Prod.forall, Prod.exists, not_and, not_le] at *
  obtain ⟨first, last, hmem, hfirst, hlast⟩ := hn
  intro first' last' hmem' hfirst'
  have := h first last hmem first' last' hmem'
  omega

/-- The ranges of the blanks. -/
def blankRanges : List (Nat × Nat) := [
  (0x09, 0x0D), (0x20, 0x20), (0x85, 0x85), (0xA0, 0xA0), (0x1680, 0x1680), (0x2000, 0x200A),
  (0x2028, 0x2029), (0x202F, 0x202F), (0x205F, 0x205F), (0x3000, 0x3000)]

theorem isBlank_eq_inRanges (c : Char) : isBlank c = inRanges blankRanges c.toNat := by
  unfold isBlank blankRanges inRanges
  rw [Bool.eq_iff_iff]
  simp
  omega

/-- Every blank ends a word. -/
theorem isBreak_of_isBlank (hc : isBlank c = true) : isBreak c = true := by
  rw [isBlank_eq_inRanges] at hc
  have hcased : isCased c = false := inRanges_of_apart (by decide +kernel) hc
  have hignorable : isIgnorable c = false := inRanges_of_apart (by decide +kernel) hc
  simp [isBreak, hcased, hignorable]

/-- The characters that the runs map, and those that they map to. -/
def sourceRanges : List (Nat × Nat) := lowerRuns.map fun r => (r.first, r.last)
def imageRanges : List (Nat × Nat) := lowerRuns.map fun r => (r.image r.first, r.image r.last)

theorem inRanges_of_maps {r : Run} {n : Nat} (hr : r ∈ lowerRuns) (hn : r.maps n = true) :
    inRanges sourceRanges n = true ∧ inRanges imageRanges (r.image n) = true := by
  obtain ⟨hfirst, hlast⟩ : r.first ≤ n ∧ n ≤ r.last := by
    simp only [Run.maps, Bool.and_eq_true, decide_eq_true_eq] at hn
    exact hn.1
  unfold inRanges sourceRanges imageRanges Run.image
  simp only [List.any_map, List.any_eq_true, Function.comp_apply, Bool.and_eq_true,
    decide_eq_true_eq]
  exact ⟨⟨r, hr, hfirst, hlast⟩, r, hr, by omega, by omega⟩

theorem toNat_letter_le (h : 'A' ≤ c ∧ c ≤ 'Z') : 0x41 ≤ c.toNat ∧ c.toNat ≤ 0x5A := h

theorem isBlank_ofNat {n : Nat} (h : inRanges blankRanges n = false) :
    isBlank (Char.ofNat n) = false := by
  rw [isBlank_eq_inRanges]
  by_cases hn : n.isValidChar
  · have hchar : Char.ofNat n = Char.ofNatAux n hn := dif_pos hn
    rw [hchar]
    exact h
  · have hchar : Char.ofNat n = '\u0000' := dif_neg hn
    rw [hchar]
    rfl

/-- A blank is its own counterpart. -/
theorem lowerChar_of_isBlank (hc : isBlank c = true) : lowerChar c = [c] := by
  rw [isBlank_eq_inRanges] at hc
  have hfind : lowerRuns.find? (·.maps c.toNat) = none := by
    refine List.find?_eq_none.2 fun r hr hmaps => ?_
    have hsource := inRanges_of_apart (s := sourceRanges) (by decide +kernel) hc
    simp [(inRanges_of_maps hr hmaps).1] at hsource
  have hletter : ¬ ('A' ≤ c ∧ c ≤ 'Z') := fun h => by
    have hascii : inRanges [(0x41, 0x5A)] c.toNat = true := by
      simpa [inRanges] using toNat_letter_le h
    have := inRanges_of_apart (s := blankRanges) (by decide +kernel) hascii
    simp [hc] at this
  have hdotted : c ≠ '\u0130' := by
    rintro rfl
    exact absurd hc (by decide +kernel)
  unfold lowerChar
  rw [hfind, if_neg hletter, if_neg hdotted, ite_self]

/-- The counterpart of any other character holds no blank. -/
theorem isBlank_of_mem_lowerChar {d : Char} (hc : isBlank c = false) (hd : d ∈ lowerChar c) :
    isBlank d = false := by
  unfold lowerChar at hd
  split_ifs at hd with hascii hletter hdotted
  · have hrange : inRanges [(0x61, 0x7A)] (c.toNat + 0x20) = true := by
      have := toNat_letter_le hletter
      simp [inRanges]
      omega
    rw [List.mem_singleton.1 hd]
    exact isBlank_ofNat (inRanges_of_apart (by decide +kernel) hrange)
  · rwa [List.mem_singleton.1 hd]
  · have hmarked : ['i', '\u0307'].all (!isBlank ·) = true := by decide +kernel
    simpa using List.all_eq_true.1 hmarked d hd
  · split at hd
    · next r hr =>
      have hmaps : r.maps c.toNat = true := by simpa using List.find?_some hr
      have himage := (inRanges_of_maps (List.mem_of_find?_eq_some hr) hmaps).2
      rw [List.mem_singleton.1 hd]
      exact isBlank_ofNat (inRanges_of_apart (by decide +kernel) himage)
    · rwa [List.mem_singleton.1 hd]

theorem lowerChar_ne_nil (c : Char) : lowerChar c ≠ [] := by
  unfold lowerChar
  split_ifs
  · simp
  · simp
  · simp
  · split <;> simp

end Case

namespace Chars

open Case

variable {c : Char} {a b cs part : List Char}

/-- Lower-casing goes apart at a break. -/
theorem lower_append_break (hc : isBreak c = true) :
    lower (a ++ c :: b) = lower a ++ lowerChar c ++ lower b := by
  have hsigma : c ≠ 'Σ' := by
    rintro rfl
    exact absurd hc (by decide +kernel)
  unfold lower
  rw [lowerAfter_append_break hc, lowerAfter, if_neg hsigma, List.append_nil, ← List.append_assoc]
  congr 1
  exact lowerAfter_of_break (a := []) hc

/-- A part between breaks keeps its lower case within the whole. -/
theorem lower_infix_of_delimited (h : Delimited isBreak part cs) : lower part <:+: lower cs := by
  obtain ⟨before, after, rfl, hbefore, hafter⟩ := h
  have hsuffix : lower part <:+ lower (before ++ part) := by
    rcases List.eq_nil_or_concat before with rfl | ⟨before, c, rfl⟩
    · exact List.suffix_refl _
    · rw [List.concat_eq_append, List.append_assoc, List.singleton_append,
        lower_append_break (hbefore c (by simp))]
      exact List.suffix_append _ _
  have hprefix : lower (before ++ part) <+: lower (before ++ part ++ after) := by
    cases after with
    | nil => exact ⟨[], by simp only [List.append_nil]⟩
    | cons c after =>
      rw [lower_append_break (hafter c rfl), List.append_assoc]
      exact List.prefix_append _ _
  exact hsuffix.isInfix.trans hprefix.isInfix

/-- Within a word it may not: the sigma that ends one is not the sigma inside. -/
example : ¬ lower ['Ο', 'Δ', 'Ο', 'Σ'] <:+: lower ['Ο', 'Δ', 'Ο', 'Σ', 'Α'] := by
  decide +kernel

theorem lower_eq_nil_iff : lower cs = [] ↔ cs = [] := by
  cases cs with
  | nil => exact ⟨fun _ => rfl, fun _ => rfl⟩
  | cons c cs =>
    unfold lower
    rw [lowerAfter]
    split_ifs <;> simp [lowerChar_ne_nil]

theorem isBlank_of_mem_lowerAfter {before : List Char} (h : ∀ c ∈ cs, isBlank c = false) :
    ∀ d ∈ lowerAfter before cs, isBlank d = false := by
  induction cs generalizing before with
  | nil => simp [lowerAfter]
  | cons c cs ih =>
    obtain ⟨hc, hcs⟩ := List.forall_mem_cons.1 h
    intro d hd
    rw [lowerAfter, List.mem_append] at hd
    rcases hd with hd | hd
    · split_ifs at hd
      · rw [List.mem_singleton.1 hd]
        decide +kernel
      · rw [List.mem_singleton.1 hd]
        decide +kernel
      · exact isBlank_of_mem_lowerChar hc hd
    · exact ih hcs d hd

theorem isBlank_of_mem_lower (h : ∀ c ∈ cs, isBlank c = false) :
    ∀ d ∈ lower cs, isBlank d = false :=
  isBlank_of_mem_lowerAfter h

/-- Lower-casing and cutting at blanks may change places. -/
theorem splitOnP_lower (cs : List Char) :
    (lower cs).splitOnP isBlank = (cs.splitOnP isBlank).map lower := by
  refine splitOnP_induction (motive := fun cs pieces =>
      (lower cs).splitOnP isBlank = pieces.map lower) isBlank
    (fun cs hcs => ?_) (fun front sep rest hfront hsep ih => ?_) cs
  · exact List.splitOnP_eq_singleton (isBlank_of_mem_lower hcs)
  · rw [lower_append_break (isBreak_of_isBlank hsep), lowerChar_of_isBlank hsep, List.append_assoc,
      List.singleton_append, List.splitOnP_append_cons_of_forall_mem
        (isBlank_of_mem_lower hfront) sep hsep, ih, List.map_cons]

theorem words_lower (cs : List Char) : words (lower cs) = (words cs).map lower := by
  unfold words
  rw [splitOnP_lower, List.filter_map]
  congr 2
  funext w
  rw [Function.comp_apply, Bool.not_inj_iff, Bool.eq_iff_iff]
  simp only [List.isEmpty_iff, lower_eq_nil_iff]

end Chars

namespace Text

/-- **The words of a text in lower case are its words in lower case.** -/
theorem words_lower (s : String) : words (lower s) = (words s).map lower := by
  unfold words
  rw [toList_lower, Chars.words_lower, List.map_map, List.map_map]
  congr 1
  funext w
  simp [lower]

theorem words_trim (s : String) : words (trim s) = words s := by
  unfold words
  rw [toList_trim, Chars.words_trim]

end Text

end VoiceIndex
