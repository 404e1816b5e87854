import VoiceIndex.Proofs.Text.Normal
import VoiceIndex.Text.Numeral

/-!
# Numerals

A number is given in decimal digits, with any zeros in front of them, and a plus sign may stand in
front of it all (`IsNumeral`). What reads numbers reads exactly these texts, up to its bound
(`counter?_eq_some_iff`), so that no text gives two numbers (`IsNumeral.unique`).
-/

namespace VoiceIndex

namespace Chars

variable {c : Char} {cs : List Char} {n : Nat}

theorem digit_bounds (h : c.isDigit = true) : '0'.toNat ≤ c.toNat ∧ c.toNat - '0'.toNat < 10 := by
  have hbounds : '0'.toNat ≤ c.toNat ∧ c.toNat ≤ '0'.toNat + 9 := Char.isDigit_iff_toNat.1 h
  omega

theorem digitChar_toNat_sub (h : c.isDigit = true) : (c.toNat - '0'.toNat).digitChar = c := by
  have hbounds := digit_bounds h
  apply Char.toNat_inj.1
  rw [Nat.toNat_digitChar_of_lt_ten hbounds.2]
  show '0'.toNat + _ = _
  omega

theorem lowerChar_of_isDigit (h : c.isDigit = true) : Case.lowerChar c = [c] := by
  have hbounds : c.toNat - 0x30 < 10 := (digit_bounds h).2
  have hletter : ¬ ('A' ≤ c ∧ c ≤ 'Z') := fun hletter => by
    have hbetween := Case.toNat_letter_le hletter
    omega
  unfold Case.lowerChar
  rw [if_pos (by omega), if_neg hletter]

/-- Digits behind those of a number above zero go on with it. -/
theorem toDigits_append (hn : 0 < n) (hcs : ∀ c ∈ cs, c.isDigit = true) :
    Nat.toDigits 10 n ++ cs = Nat.toDigits 10 (Nat.ofDigitChars 10 cs n) := by
  induction cs generalizing n with
  | nil => simp
  | cons c cs ih =>
    obtain ⟨hc, hcs⟩ := List.forall_mem_cons.1 hcs
    have hlt := (digit_bounds hc).2
    have hone : Nat.toDigits 10 n ++ [c] = Nat.toDigits 10 (10 * n + (c.toNat - '0'.toNat)) := by
      rw [← Nat.toDigits_append_toDigits (by decide) hn hlt, Nat.toDigits_of_lt_base hlt,
        digitChar_toNat_sub hc]
    rw [Nat.ofDigitChars_cons, ← ih (by omega) hcs, ← hone, List.append_assoc,
      List.singleton_append]

/-- Digits are those of the number that they give, behind zeros. By induction on the zeros. -/
theorem exists_zeros_append (hne : cs ≠ []) (hcs : ∀ c ∈ cs, c.isDigit = true) :
    ∃ zeros, cs = List.replicate zeros '0' ++ Nat.toDigits 10 (Nat.ofDigitChars 10 cs 0) := by
  induction cs with
  | nil => exact absurd rfl hne
  | cons c cs ih =>
    obtain ⟨hc, hcs⟩ := List.forall_mem_cons.1 hcs
    rw [Nat.ofDigitChars_cons, Nat.mul_zero, Nat.zero_add]
    by_cases hzero : c = '0'
    · rw [hzero]
      by_cases hnil : cs = []
      · exact ⟨0, by rw [hnil]; rfl⟩
      · obtain ⟨zeros, h⟩ := ih hnil hcs
        exact ⟨zeros + 1, congrArg (List.cons '0') h⟩
    · obtain ⟨hle, hlt⟩ := digit_bounds hc
      have hpos : 0 < c.toNat - '0'.toNat :=
        Nat.sub_pos_of_lt (Nat.lt_of_le_of_ne hle fun heq => hzero (Char.toNat_inj.1 heq.symm))
      refine ⟨0, ?_⟩
      rw [← toDigits_append hpos hcs, Nat.toDigits_of_lt_base hlt, digitChar_toNat_sub hc]
      rfl

theorem isDigit_of_mem_zeros_append {zeros : Nat}
    (hc : c ∈ List.replicate zeros '0' ++ Nat.toDigits 10 n) : c.isDigit = true := by
  rcases List.mem_append.1 hc with hc | hc
  · rw [List.eq_of_mem_replicate hc]
    rfl
  · exact Nat.isDigit_of_mem_toDigits (by decide) (by decide) hc

theorem decimal?_eq_some_iff :
    decimal? cs = some n ↔ ∃ zeros, cs = List.replicate zeros '0' ++ Nat.toDigits 10 n := by
  unfold decimal?
  constructor
  · intro h
    split_ifs at h with hdigits
    cases h
    rw [Bool.and_eq_true, Bool.not_eq_true', List.isEmpty_eq_false_iff, List.all_eq_true] at hdigits
    exact exists_zeros_append hdigits.1 hdigits.2
  · rintro ⟨zeros, rfl⟩
    have hvalue : Nat.ofDigitChars 10 (List.replicate zeros '0' ++ Nat.toDigits 10 n) 0 = n := by
      rw [Nat.ofDigitChars_append, Nat.ofDigitChars_replicate_zero, Nat.mul_zero,
        Nat.ofDigitChars_ten_toDigits]
    rw [if_pos, hvalue]
    rw [Bool.and_eq_true, Bool.not_eq_true', List.isEmpty_eq_false_iff, List.all_eq_true]
    exact ⟨List.append_ne_nil_of_right_ne_nil _ Nat.toDigits_ne_nil,
      fun c hc => isDigit_of_mem_zeros_append hc⟩

end Chars

namespace Text

/-- The text gives the number. -/
def IsNumeral (text : String) (n : Nat) : Prop :=
  ∃ sign zeros, (sign = "" ∨ sign = "+") ∧
    text = sign ++ String.ofList (List.replicate zeros '0') ++ toString n

variable {text : String} {n k bound : Nat}

theorem isNumeral_iff : IsNumeral text n ↔
    ∃ zeros, text.toList = List.replicate zeros '0' ++ Nat.toDigits 10 n ∨
      text.toList = '+' :: (List.replicate zeros '0' ++ Nat.toDigits 10 n) := by
  unfold IsNumeral
  constructor
  · rintro ⟨sign, zeros, rfl | rfl, rfl⟩
    · exact ⟨zeros, .inl (by simp)⟩
    · exact ⟨zeros, .inr (by simp)⟩
  · rintro ⟨zeros, h | h⟩
    · exact ⟨"", zeros, .inl rfl, String.toList_injective (by simp [h])⟩
    · exact ⟨"+", zeros, .inr rfl, String.toList_injective (by simp [h])⟩

/-- **Exactly the numerals are read**, up to the bound. -/
theorem counter?_eq_some_iff : counter? bound text = some n ↔ IsNumeral text n ∧ n ≤ bound := by
  unfold counter?
  rw [isNumeral_iff, Option.filter_eq_some_iff, decide_eq_true_eq, Chars.decimal?_eq_some_iff]
  refine and_congr_left fun _ => exists_congr fun zeros => ?_
  have hplus : ∀ rest, List.replicate zeros '0' ++ Nat.toDigits 10 n ≠ '+' :: rest := by
    intro rest heq
    have hdigit : '+'.isDigit = true :=
      Chars.isDigit_of_mem_zeros_append (heq ▸ List.mem_cons_self)
    cases hdigit
  split
  · next rest h =>
    rw [h, List.cons.injEq, and_iff_right rfl, or_iff_right fun heq => hplus rest heq.symm]
  · next hne => rw [or_iff_left (hne _)]

theorem IsNumeral.unique (hn : IsNumeral text n) (hk : IsNumeral text k) : n = k := by
  have hn' : counter? (max n k) text = some n := counter?_eq_some_iff.2 ⟨hn, le_max_left n k⟩
  have hk' : counter? (max n k) text = some k := counter?_eq_some_iff.2 ⟨hk, le_max_right n k⟩
  exact Option.some.inj (hn'.symm.trans hk')

theorem IsNumeral.forall_mem (h : IsNumeral text n) :
    ∀ c ∈ text.toList, c = '+' ∨ c.isDigit = true := by
  intro c hc
  obtain ⟨zeros, h | h⟩ := isNumeral_iff.1 h
  · rw [h] at hc
    exact .inr (Chars.isDigit_of_mem_zeros_append hc)
  · rw [h] at hc
    exact (List.mem_cons.1 hc).imp id Chars.isDigit_of_mem_zeros_append

/-- A numeral has no case. -/
theorem IsNumeral.lower_eq (h : IsNumeral text n) : lower text = text := by
  apply String.toList_injective
  rw [toList_lower]
  refine Chars.lower_of_forall_mem fun c hc => ?_
  rcases h.forall_mem c hc with rfl | hdigit
  · rfl
  · exact Chars.lowerChar_of_isDigit hdigit

end Text

end VoiceIndex
