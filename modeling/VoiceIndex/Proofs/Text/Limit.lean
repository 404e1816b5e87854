import VoiceIndex.Text.Limit

/-!
# Texts that were cut

Cutting a text with a mark a second time, to the same limit, leaves it as it is
(`clipMarked_clipMarked`), so that it makes no difference in how many places a limit is kept to.
What is left of a text is said by `IsCut` for the plain cut and by `IsMarkedCut` for the one with a
mark; either way it is within the limit, but for a mark that is longer than the limit. `clip_laws`
says what is left and how long it is, for every text and every limit.
-/

namespace VoiceIndex.Text

variable {limit : Nat} {s : String}

theorem clip_self (limit : Nat) (s : String) : clip limit (clip limit s) = clip limit s := by
  rw [clip_clip, Nat.min_self]

theorem clipMarked_of_length_le (h : s.toList.length ≤ limit) : clipMarked limit s = s := if_pos h

theorem toList_clipMarked_of_lt (h : limit < s.toList.length) :
    (clipMarked limit s).toList =
      s.toList.take (limit - lossMark.toList.length) ++ lossMark.toList := by
  unfold clipMarked
  rw [if_neg (Nat.not_le.2 h), String.toList_ofList]

theorem length_clipMarked_of_lt (h : limit < s.toList.length) :
    (clipMarked limit s).toList.length = max limit 3 := by
  have hmark : lossMark.toList.length = 3 := rfl
  rw [toList_clipMarked_of_lt h, List.length_append, List.length_take, hmark]
  omega

theorem clipMarked_ne_empty (limit : Nat) (hne : s ≠ "") : clipMarked limit s ≠ "" := by
  by_cases hfits : s.toList.length ≤ limit
  · rwa [clipMarked_of_length_le hfits]
  · intro hempty
    have hcut := toList_clipMarked_of_lt (Nat.not_le.1 hfits)
    rw [hempty] at hcut
    exact absurd (List.append_eq_nil_iff.1 hcut.symm).2 (by decide)

theorem clipMarked_clipMarked (limit : Nat) (s : String) :
    clipMarked limit (clipMarked limit s) = clipMarked limit s := by
  by_cases hshort : s.toList.length ≤ limit
  · rw [clipMarked_of_length_le hshort, clipMarked_of_length_le hshort]
  by_cases hfits : (clipMarked limit s).toList.length ≤ limit
  · exact clipMarked_of_length_le hfits
  -- the mark alone is longer than the limit: it is all there is, both times
  have hlong : limit < s.toList.length := Nat.not_le.1 hshort
  have hmark : limit - lossMark.toList.length = 0 := by
    rw [toList_clipMarked_of_lt hlong, List.length_append, List.length_take] at hfits
    omega
  rw [← String.toList_inj, toList_clipMarked_of_lt (Nat.not_le.1 hfits),
    toList_clipMarked_of_lt hlong, hmark, List.take_zero, List.take_zero]

/-! ## What a cut leaves -/

/-- `t` is what a limit leaves of `s`: the whole text if it fits, else its first characters. -/
structure IsCut (limit : Nat) (s t : String) : Prop where
  of_fits : s.toList.length ≤ limit → t = s
  of_long : limit < s.toList.length → t.toList = s.toList.take limit

/-- `t` is what a limit leaves of `s` when the loss is marked: the whole text if it fits, else as
many of its first characters as leave room for three dots, and the dots. -/
structure IsMarkedCut (limit : Nat) (s t : String) : Prop where
  of_fits : s.toList.length ≤ limit → t = s
  of_long : limit < s.toList.length → t.toList = s.toList.take (limit - 3) ++ ['.', '.', '.']

variable {t : String}

theorem isCut_clip (limit : Nat) (s : String) : IsCut limit s (clip limit s) :=
  ⟨clip_of_length_le, fun _ => toList_clip limit s⟩

theorem isMarkedCut_clipMarked (limit : Nat) (s : String) :
    IsMarkedCut limit s (clipMarked limit s) :=
  ⟨clipMarked_of_length_le, toList_clipMarked_of_lt⟩

theorem IsCut.eq_clip (h : IsCut limit s t) : t = clip limit s := by
  rcases Nat.lt_or_ge limit s.toList.length with hlong | hfits
  · rw [← String.toList_inj, h.of_long hlong, toList_clip]
  · rw [h.of_fits hfits, clip_of_length_le hfits]

theorem IsCut.length_le (h : IsCut limit s t) : t.toList.length ≤ limit := by
  rcases Nat.lt_or_ge limit s.toList.length with hlong | hfits
  · rw [h.of_long hlong]
    exact List.length_take_le _ _
  · rwa [h.of_fits hfits]

/-- There has to be room for the dots. -/
theorem IsMarkedCut.length_le (h : IsMarkedCut limit s t) (hlimit : 3 ≤ limit) :
    t.toList.length ≤ limit := by
  rcases Nat.lt_or_ge limit s.toList.length with hlong | hfits
  · rw [h.of_long hlong, List.length_append, List.length_take]
    show min (limit - 3) s.toList.length + 3 ≤ limit
    omega
  · rwa [h.of_fits hfits]

/-! ## The laws of the two cuts -/

/-- A text begins with what a cut leaves of it. -/
theorem exists_clip_append (limit : Nat) (s : String) : ∃ rest, s = clip limit s ++ rest := by
  refine ⟨.ofList (s.toList.drop limit), ?_⟩
  rw [← String.toList_inj, String.toList_append, toList_clip, String.toList_ofList,
    List.take_append_drop]

/-- **What a limit leaves of a text.** Plainly cut, a text keeps as many of its first characters as
the limit allows, and of two limits the smaller one counts. With the mark, a text that fits stays
whole; of a longer one the first characters stay that leave room for three dots, and the dots, which
makes it as long as the limit, or just the dots if they are longer than that. Cut once more to the
same limit it stays as it is. -/
theorem clip_laws (s : String) (m n : Nat) :
    (∃ rest, s = clip m s ++ rest) ∧ (clip m s).toList.length = min m s.toList.length ∧
      clip n (clip m s) = clip (min m n) s ∧
      (s.toList.length ≤ m → clipMarked m s = s) ∧
      (m < s.toList.length → clipMarked m s = clip (m - 3) s ++ "..." ∧
        (clipMarked m s).toList.length = max m 3) ∧
      clipMarked m (clipMarked m s) = clipMarked m s := by
  refine ⟨exists_clip_append m s, length_clip m s, clip_clip m n s, clipMarked_of_length_le,
    fun hlong => ⟨?_, length_clipMarked_of_lt hlong⟩, clipMarked_clipMarked m s⟩
  rw [← String.toList_inj, String.toList_append, toList_clip]
  exact toList_clipMarked_of_lt hlong

/-- Characters of three and of four bytes, and a limit below the length of the mark. -/
example : clip 2 "☃😀b" = "☃😀" ∧ clipMarked 2 "☃😀b" = "..." ∧ clipMarked 2 "..." = "..." := by
  decide

end VoiceIndex.Text
