import Mathlib.Data.List.Basic
import VoiceIndex.Json.Reader
import VoiceIndex.Json.Writer

/-!
# Strings and numbers read back

A string literal gives the text that it was written for (`string_quote`), and so does one that was
written for no text. An integer is read back from its digits (`number_digits`) when nothing
follows that would carry the number on, which `Ends` says.
-/

namespace VoiceIndex.Json

variable {cs rest : List Char}

/-! ## Strings -/

theorem hexCode?_control (c : Char) (h : c.toNat < 0x20) :
    hexCode? '0' '0' (hexDigit (c.toNat / 16)) (hexDigit (c.toNat % 16)) = some c.toNat := by
  have hall : ∀ n < 0x20,
      hexCode? '0' '0' (hexDigit (n / 16)) (hexDigit (n % 16)) = some n := by decide
  exact hall c.toNat h

theorem codes_letter {e : Char} {code : Nat} (hu : e ≠ 'u') (he : escapeCode? e = some code) :
    codes ('\\' :: e :: rest) = (codes rest).map fun (more, rest) => (code :: more, rest) := by
  rw [codes, if_neg (by decide), if_pos rfl, he]
  · cases codes rest <;> rfl
  · simp [hu]

theorem codes_unicode {a b c d : Char} {code : Nat} (h : hexCode? a b c d = some code) :
    codes ('\\' :: 'u' :: a :: b :: c :: d :: rest) =
      (codes rest).map fun (more, rest) => (code :: more, rest) := by
  rw [codes, if_neg (by decide), if_pos rfl]
  simp only [h]
  cases codes rest <;> rfl

theorem codes_quote (rest : List Char) : codes ('"' :: rest) = some ([], rest) := by
  rw [codes.eq_def]
  simp

/-- A character is read back from the way it is written in a string. -/
theorem codes_escape (c : Char) (rest : List Char) :
    codes (escape c ++ rest) = (codes rest).map fun (more, rest) => (c.toNat :: more, rest) := by
  unfold escape
  split_ifs with hquote hslash hback hfeed hline hreturn htab hcontrol
  · subst hquote; exact codes_letter (by decide) rfl
  · subst hslash; exact codes_letter (by decide) rfl
  · subst hback; exact codes_letter (by decide) rfl
  · subst hfeed; exact codes_letter (by decide) rfl
  · subst hline; exact codes_letter (by decide) rfl
  · subst hreturn; exact codes_letter (by decide) rfl
  · subst htab; exact codes_letter (by decide) rfl
  · exact codes_unicode (hexCode?_control c hcontrol)
  · rw [List.singleton_append, codes.eq_def]
    simp only [if_neg hquote, if_neg hslash, if_neg hcontrol]
    cases codes rest <;> rfl

theorem codes_flatMap_escape (cs rest : List Char) :
    codes (cs.flatMap escape ++ '"' :: rest) = some (cs.map Char.toNat, rest) := by
  induction cs with
  | nil => exact codes_quote rest
  | cons c cs ih => rw [List.flatMap_cons, List.append_assoc, codes_escape, ih]; rfl

/-- No character is half of a surrogate pair. -/
theorem not_surrogate (c : Char) : isHigh c.toNat = false ∧ isLow c.toNat = false := by
  have hvalid := c.valid
  have hnat : c.toNat = c.val.toNat := rfl
  unfold isHigh isLow
  simp only [Bool.and_eq_false_iff, decide_eq_false_iff_not]
  rcases hvalid with h | h <;> simp_all <;> omega

theorem charsOfCodes_map_toNat (cs : List Char) : charsOfCodes (cs.map Char.toNat) = some cs := by
  match cs with
  | [] => rfl
  | [c] => simp [charsOfCodes, not_surrogate]
  | c :: d :: cs =>
    have ih := charsOfCodes_map_toNat (d :: cs)
    rw [List.map_cons] at ih
    simp [charsOfCodes, not_surrogate, ih]

theorem quote_eq (content : Option String) : quote content = '"' :: (quote content).tail := by
  cases content <;> rfl

/-- **A string literal gives back what it was written for.** -/
theorem string_quote (content : Option String) (rest : List Char) :
    string ((quote content).tail ++ rest) = some (content, rest) := by
  unfold string
  cases content with
  | none =>
    have hcode : hexCode? 'd' '8' '0' '0' = some 0xD800 := by decide
    simp only [quote, List.tail_cons, List.cons_append, List.nil_append]
    rw [codes_unicode hcode, codes_quote]
    rfl
  | some s =>
    simp only [quote, List.cons_append, List.tail_cons, List.append_assoc, List.nil_append]
    rw [codes_flatMap_escape]
    simp [charsOfCodes_map_toNat]

/-! ## Numbers -/

/-- The character carries on a number that stands before it. -/
def carriesOn (c : Char) : Bool := c.isDigit || c == '.' || c == 'e' || c == 'E'

/-- A number that stands before these characters is over. -/
def Ends (cs : List Char) : Prop := ∀ c, cs.head? = some c → carriesOn c = false

theorem ends_nil : Ends [] := by simp [Ends]

theorem ends_cons {c : Char} (h : carriesOn c = false) (rest : List Char) : Ends (c :: rest) := by
  intro d hd
  obtain rfl : c = d := by simpa using hd
  exact h

theorem not_carriesOn {c : Char} (h : carriesOn c = false) :
    c.isDigit = false ∧ c ≠ '.' ∧ c ≠ 'e' ∧ c ≠ 'E' := by
  simpa [carriesOn, and_assoc] using h

theorem isDigit_decimal (n : Nat) : ∀ c ∈ Chars.decimal n, c.isDigit = true := fun _ hc =>
  Nat.isDigit_of_mem_toDigits (by decide) (by decide) hc

/-- A number above zero does not begin with a zero. -/
theorem head?_decimal_ne {n : Nat} (h : 0 < n) : (Chars.decimal n).head? ≠ some '0' := by
  unfold Chars.decimal
  induction n using Nat.strongRecOn with
  | _ n ih =>
    by_cases hlt : n < 10
    · have hall : ∀ n < 10, 0 < n → n.digitChar ≠ '0' := by decide
      rw [Nat.toDigits_of_lt_base hlt]
      simpa using hall n hlt h
    · have hpos : 0 < n / 10 := by omega
      rw [Nat.toDigits_of_base_le (by decide) (by omega),
        List.head?_append_of_ne_nil _ Nat.toDigits_ne_nil]
      exact ih (n / 10) (by omega) hpos

theorem digitsAfter_decimal (n : Nat) (h : Ends rest) :
    digitsAfter [] (Chars.decimal n ++ rest) = some (Chars.decimal n, rest) := by
  have hne : Chars.decimal n ≠ [] := Nat.toDigits_ne_nil
  have hstop : rest.takeWhile Char.isDigit = [] ∧ rest.dropWhile Char.isDigit = rest := by
    cases rest with
    | nil => exact ⟨rfl, rfl⟩
    | cons c rest => simp [(not_carriesOn (h c rfl)).1]
  unfold digitsAfter
  rw [List.takeWhile_append_of_pos (isDigit_decimal n),
    List.dropWhile_append_of_pos (isDigit_decimal n), hstop.1, hstop.2, List.append_nil]
  simp [hne]

theorem fraction_of_ends (h : Ends cs) : fraction cs = some ([], cs) := by
  unfold fraction
  split
  · next rest => exact absurd rfl (not_carriesOn (h '.' rfl)).2.1
  · rfl

theorem exponent_of_ends (h : Ends cs) : exponent cs = some ([], cs) := by
  match cs with
  | [] => rfl
  | [c] =>
    have hc := not_carriesOn (h c rfl)
    simp [exponent, hc.2.2]
  | c :: sign :: rest =>
    have hc := not_carriesOn (h c rfl)
    simp [exponent, hc.2.2]

theorem unsigned_decimal {negative : Bool} {n : Nat} (hzero : negative = true → 0 < n)
    (h : Ends rest) :
    unsigned negative (Chars.decimal n ++ rest) =
      some (.int (if negative then -(n : Int) else n), rest) := by
  have hvalue : Nat.ofDigitChars 10 (Chars.decimal n) 0 = n := Nat.ofDigitChars_ten_toDigits
  have hwhole : ¬ ((Chars.decimal n).head? = some '0' ∧ Chars.decimal n ≠ ['0']) := by
    rintro ⟨hhead, hne⟩
    cases Nat.eq_zero_or_pos n with
    | inl hn => exact hne (by rw [hn]; rfl)
    | inr hn => exact head?_decimal_ne hn hhead
  have hsign : ¬ (negative ∧ Chars.decimal n = ['0']) := by
    rintro ⟨hneg, hn⟩
    exact head?_decimal_ne (hzero hneg) (by rw [hn]; rfl)
  unfold unsigned
  simp only [digitsAfter_decimal n h, Option.bind_eq_bind, Option.bind_some, if_neg hwhole,
    fraction_of_ends h, exponent_of_ends h, hvalue]
  rw [if_pos ⟨rfl, rfl, hsign⟩]
  rfl

/-- **An integer is read back from its digits.** -/
theorem number_digits (n : Int) (h : Ends rest) :
    number (digits n ++ rest) = some (.int n, rest) := by
  cases n with
  | ofNat n =>
    obtain ⟨c, tail, hc⟩ := List.exists_cons_of_ne_nil
      (show Chars.decimal n ≠ [] from Nat.toDigits_ne_nil)
    have hdigit : c.isDigit = true := isDigit_decimal n c (by simp [hc])
    have hminus : c ≠ '-' := by
      rintro rfl
      simp at hdigit
    have hnumber : number (Chars.decimal n ++ rest) = unsigned false (Chars.decimal n ++ rest) := by
      rw [hc, List.cons_append]
      unfold number
      split
      · next heq => exact absurd (List.cons.inj heq).1 hminus
      · rfl
    rw [digits, hnumber, unsigned_decimal (by simp) h]
    rfl
  | negSucc n =>
    rw [digits, List.cons_append, number, unsigned_decimal (fun _ => n.succ_pos) h]
    rfl

/-- An integer begins with a digit or the sign. -/
theorem exists_digits_eq (n : Int) :
    ∃ c tail, digits n = c :: tail ∧ (c.isDigit = true ∨ c = '-') := by
  cases n with
  | ofNat n =>
    obtain ⟨c, tail, hc⟩ := List.exists_cons_of_ne_nil
      (show Chars.decimal n ≠ [] from Nat.toDigits_ne_nil)
    exact ⟨c, tail, hc, .inl (isDigit_decimal n c (by simp [hc]))⟩
  | negSucc n => exact ⟨'-', _, rfl, .inr rfl⟩

end VoiceIndex.Json
