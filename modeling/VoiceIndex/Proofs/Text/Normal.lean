import VoiceIndex.Proofs.Text.Sigma

/-!
# Lower case once and for all

No run maps what a run maps to (`Case.maps_image`), so that lower-casing leaves what is in lower
case (`Text.lower_lower`). As it neither makes a blank nor takes one away, it may change places with
trimming (`Text.trim_lower`).
-/

namespace VoiceIndex

namespace Case

variable {c d : Char} {before cs : List Char}

/-! ## Counterparts of counterparts -/

/-- Whether the run `s` maps none of the characters to which the run `r` maps, since their ranges
lie apart or since `s` passes over every other character. -/
def Run.misses (s r : Run) : Bool :=
  (s.last + 1).ble (r.image r.first) || (r.image r.last + 1).ble s.first ||
    (decide (0 ≤ r.first + r.shift) && (r.step == 2 || r.first == r.last) && s.step == 2 &&
      (r.image r.first + s.first) % 2 == 1)

theorem maps_image_of_misses {r s : Run} {n : Nat} (h : s.misses r = true) (hn : r.maps n = true) :
    s.maps (r.image n) = false := by
  unfold Run.misses Run.image at h
  unfold Run.maps at hn
  simp only [Bool.or_eq_true, Bool.and_eq_true, Nat.ble_eq, decide_eq_true_eq, beq_iff_eq] at h hn
  obtain ⟨⟨hfirst, hlast⟩, hstep⟩ := hn
  unfold Run.maps Run.image
  rw [← Bool.not_eq_true]
  simp only [Bool.and_eq_true, decide_eq_true_eq, beq_iff_eq, not_and]
  rcases h with (habove | hbelow) | ⟨⟨⟨hrises, hodd⟩, htwo⟩, hparity⟩
  · omega
  · omega
  · rw [htwo]
    rcases hodd with hodd | hodd
    · rw [hodd] at hstep
      omega
    · omega

theorem misses_lowerRuns : (lowerRuns.all fun r => lowerRuns.all fun s => s.misses r) = true := by
  decide +kernel

/-- What a run maps to is mapped by none. -/
theorem maps_image {r s : Run} {n : Nat} (hr : r ∈ lowerRuns) (hs : s ∈ lowerRuns)
    (hn : r.maps n = true) : s.maps (r.image n) = false :=
  maps_image_of_misses (List.all_eq_true.1 (List.all_eq_true.1 misses_lowerRuns r hr) s hs) hn

theorem maps_letter (h : 'A' ≤ c ∧ c ≤ 'Z') : (⟨0x41, 0x5A, 1, 32⟩ : Run).maps c.toNat = true := by
  simp [Run.maps, toNat_letter_le h, Nat.mod_one]

/-- What no run maps is its own counterpart, but for the dotted letter. -/
theorem lowerChar_of_not_maps (h : ∀ r ∈ lowerRuns, r.maps c.toNat = false) (hc : c ≠ '\u0130') :
    lowerChar c = [c] := by
  have hletter : ¬ ('A' ≤ c ∧ c ≤ 'Z') := fun hletter => by
    have hmaps := maps_letter hletter
    rw [h _ List.mem_cons_self] at hmaps
    cases hmaps
  have hfind : lowerRuns.find? (·.maps c.toNat) = none :=
    List.find?_eq_none.2 fun r hr => by rw [h r hr]; exact Bool.false_ne_true
  unfold lowerChar
  rw [hfind, if_neg hletter, if_neg hc, ite_self]

theorem lowerChar_ofNat {n : Nat} (h : ∀ r ∈ lowerRuns, r.maps n = false) (hn : n ≠ 0x130) :
    lowerChar (Char.ofNat n) = [Char.ofNat n] := by
  by_cases hvalid : n.isValidChar
  · have hchar : Char.ofNat n = Char.ofNatAux n hvalid := dif_pos hvalid
    have htoNat : (Char.ofNat n).toNat = n := by rw [hchar]; rfl
    refine lowerChar_of_not_maps (by rwa [htoNat]) fun hdotted => hn ?_
    rw [← htoNat, hdotted]
    rfl
  · have hchar : Char.ofNat n = '\u0000' := dif_neg hvalid
    rw [hchar]
    rfl

/-- The dotted letter is in no range of counterparts. -/
theorem image_ne_dotted {r : Run} {n : Nat} (hr : r ∈ lowerRuns) (hn : r.maps n = true) :
    r.image n ≠ 0x130 := by
  have hrange : inRanges imageRanges (r.image n) = true := (inRanges_of_maps hr hn).2
  intro hdotted
  rw [hdotted] at hrange
  exact absurd hrange (by decide +kernel)

/-- A counterpart is its own counterpart. -/
theorem lowerChar_of_mem_lowerChar (h : d ∈ lowerChar c) : lowerChar d = [d] := by
  have hrun {r : Run} {n : Nat} (hr : r ∈ lowerRuns) (hn : r.maps n = true) :
      lowerChar (Char.ofNat (r.image n)) = [Char.ofNat (r.image n)] :=
    lowerChar_ofNat (fun s hs => maps_image hr hs hn) (image_ne_dotted hr hn)
  unfold lowerChar at h
  split_ifs at h with hascii hletter hdotted
  · rw [List.mem_singleton.1 h]
    exact hrun List.mem_cons_self (maps_letter hletter)
  · rw [List.mem_singleton.1 h]
    unfold lowerChar
    rw [if_pos hascii, if_neg hletter]
  · have hmarked : lowerChar 'i' = ['i'] ∧ lowerChar '\u0307' = ['\u0307'] := ⟨rfl, rfl⟩
    rcases List.mem_cons.1 h with rfl | h
    · exact hmarked.1
    · rw [List.mem_singleton.1 h, hmarked.2]
  · split at h
    · next r hr =>
      rw [List.mem_singleton.1 h]
      exact hrun (List.mem_of_find?_eq_some hr) (by simpa using List.find?_some hr)
    · next hnone =>
      rw [List.mem_singleton.1 h]
      unfold lowerChar
      rw [if_neg hascii, if_neg hdotted, hnone]

end Case

namespace Chars

open Case

variable {c : Char} {a b before cs : List Char}

/-! ## Lower case of lower case -/

theorem lowerChar_of_mem_lowerAfter {d : Char} (h : d ∈ lowerAfter before cs) :
    lowerChar d = [d] := by
  induction cs generalizing before with
  | nil => cases h
  | cons c cs ih =>
    rw [lowerAfter, List.mem_append] at h
    rcases h with h | h
    · have hsmall : lowerChar 'ς' = ['ς'] ∧ lowerChar 'σ' = ['σ'] := ⟨rfl, rfl⟩
      split_ifs at h
      · rw [List.mem_singleton.1 h, hsmall.1]
      · rw [List.mem_singleton.1 h, hsmall.2]
      · exact lowerChar_of_mem_lowerChar h
    · exact ih h

theorem lower_of_forall_mem (h : ∀ c ∈ cs, lowerChar c = [c]) : lower cs = cs := by
  have hsigma : 'Σ' ∉ cs := by
    intro hmem
    have hsmall : lowerChar 'Σ' = ['σ'] := rfl
    exact absurd ((h 'Σ' hmem).symm.trans hsmall) (by decide)
  calc lower cs = cs.flatMap lowerChar := lowerAfter_of_not_sigma hsigma
    _ = cs.flatMap fun c => [c] := List.flatMap_congr h
    _ = cs := List.flatMap_singleton' cs

/-- What is in lower case stays as it is. -/
theorem lower_lower (cs : List Char) : lower (lower cs) = lower cs :=
  lower_of_forall_mem fun _ hc => lowerChar_of_mem_lowerAfter hc

/-! ## Trimming -/

theorem lower_append_of_isBlank (ha : ∀ c ∈ a, isBlank c = true) :
    lower (a ++ b) = a ++ lower b := by
  induction a with
  | nil => rfl
  | cons c a ih =>
    obtain ⟨hc, ha⟩ := List.forall_mem_cons.1 ha
    have hbreak : lower (c :: (a ++ b)) = lower [] ++ lowerChar c ++ lower (a ++ b) :=
      lower_append_break (a := []) (isBreak_of_isBlank hc)
    rw [List.cons_append, hbreak, ih ha, lowerChar_of_isBlank hc]
    rfl

theorem lower_append_isBlank (hb : ∀ c ∈ b, isBlank c = true) : lower (a ++ b) = lower a ++ b := by
  cases b with
  | nil => simp
  | cons c b =>
    obtain ⟨hc, hb⟩ := List.forall_mem_cons.1 hb
    have hrest : lower b = b := by
      simpa [show lower [] = [] from rfl] using lower_append_of_isBlank (b := []) hb
    rw [lower_append_break (isBreak_of_isBlank hc), lowerChar_of_isBlank hc, hrest,
      List.append_assoc, List.singleton_append]

theorem lowerBetween_singleton (before after : List Char) (hc : isBlank c = false) :
    lowerBetween before after [c] ≠ [] ∧
      ∀ d ∈ lowerBetween before after [c], isBlank d = false := by
  have hsigma : isBlank 'ς' = false ∧ isBlank 'σ' = false := by decide
  simp only [lowerBetween, List.append_nil]
  split_ifs
  · exact ⟨List.cons_ne_nil _ _, List.forall_mem_singleton.2 hsigma.1⟩
  · exact ⟨List.cons_ne_nil _ _, List.forall_mem_singleton.2 hsigma.2⟩
  · exact ⟨lowerChar_ne_nil c, fun d hd => isBlank_of_mem_lowerChar hc hd⟩

theorem isBlank_head?_lower (h : ∀ c ∈ cs.head?, isBlank c = false) :
    ∀ d ∈ (lower cs).head?, isBlank d = false := by
  cases cs with
  | nil => simp [lower, lowerAfter]
  | cons c cs =>
    obtain ⟨hne, hblank⟩ := lowerBetween_singleton [] cs (h c rfl)
    have hlower : lower (c :: cs) = lowerBetween [] cs [c] ++ lowerAfter [c] cs :=
      lowerAfter_append (a := [c])
    intro d hd
    rw [hlower, List.head?_append_of_ne_nil _ hne] at hd
    exact hblank d (List.mem_of_head? hd)

theorem isBlank_getLast?_lower (h : ∀ c ∈ cs.getLast?, isBlank c = false) :
    ∀ d ∈ (lower cs).getLast?, isBlank d = false := by
  rcases List.eq_nil_or_concat cs with rfl | ⟨front, c, rfl⟩
  · simp [lower, lowerAfter]
  · rw [List.concat_eq_append] at h ⊢
    obtain ⟨hne, hblank⟩ := lowerBetween_singleton (front.reverse ++ []) [] (h c (by simp))
    have hlower : lower (front ++ [c]) =
        lowerBetween [] [c] front ++ lowerBetween (front.reverse ++ []) [] [c] :=
      lowerAfter_append.trans (congrArg _ lowerBetween_nil.symm)
    intro d hd
    rw [hlower, List.getLast?_append_of_ne_nil _ hne] at hd
    exact hblank d (List.mem_of_getLast? hd)

/-- Lower-casing and trimming may change places. -/
theorem trim_lower (cs : List Char) : trim (lower cs) = lower (trim cs) := by
  obtain ⟨a, b, heq, ha, hb⟩ := exists_eq_trim cs
  have hlower : lower cs = a ++ lower (trim cs) ++ b := by
    conv_lhs => rw [heq]
    rw [lower_append_isBlank hb, lower_append_of_isBlank ha]
  rw [hlower]
  exact trim_append ha hb (isBlank_head?_lower (isBlank_head?_trim cs))
    (isBlank_getLast?_lower (isBlank_getLast?_trim cs))

end Chars

namespace Text

/-- **A text in lower case is its own lower case.** -/
theorem lower_lower (s : String) : lower (lower s) = lower s := by
  rw [← String.toList_inj, toList_lower, toList_lower, Chars.lower_lower]

/-- **The lower case of a text is trimmed where the text is.** -/
theorem trim_lower (s : String) : trim (lower s) = lower (trim s) := by
  rw [← String.toList_inj, toList_trim, toList_lower, toList_lower, toList_trim, Chars.trim_lower]

end Text

end VoiceIndex
