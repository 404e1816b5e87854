import VoiceIndex.Proofs.Text.Lower

/-!
# The form of a capital sigma

Lower-casing goes part by part if each part is read between what stands around it
(`Case.lowerAfter_append`). What stands around shows in the form of the capital sigmas only, and not
in the form of one that is settled: there is something in the part itself that decides whether it
ends a word (`Case.endsWord_append`). So the lower case of a part occurs in the lower case of every
text in which the part occurs, if and only if all its capital sigmas are settled
(`Chars.isSettled_iff`).
-/

namespace VoiceIndex

namespace Case

variable {c : Char} {a b a' b' before after cs : List Char}

/-! ## Parts -/

/-- Lower-casing of characters that stand between `before`, given nearest first, and `after`. -/
def lowerBetween (before after : List Char) : List Char → List Char
  | [] => []
  | c :: cs =>
    (if c = 'Σ' then [if endsWord before (cs ++ after) then 'ς' else 'σ'] else lowerChar c) ++
      lowerBetween (c :: before) after cs

theorem lowerAfter_append :
    lowerAfter before (a ++ b) = lowerBetween before b a ++ lowerAfter (a.reverse ++ before) b := by
  induction a generalizing before with
  | nil => rfl
  | cons c a ih =>
    rw [List.cons_append, lowerAfter, lowerBetween, ih, List.append_assoc, List.reverse_cons,
      List.append_assoc, List.singleton_append]

theorem lowerBetween_nil : lowerBetween before [] cs = lowerAfter before cs := by
  have happend : lowerAfter before (cs ++ []) =
      lowerBetween before [] cs ++ lowerAfter (cs.reverse ++ before) [] := lowerAfter_append
  rwa [List.append_nil, lowerAfter, List.append_nil, eq_comm] at happend

theorem lowerBetween_of_not_sigma (h : 'Σ' ∉ cs) :
    lowerBetween before after cs = cs.flatMap lowerChar := by
  induction cs generalizing before with
  | nil => rfl
  | cons c cs ih =>
    obtain ⟨hc, hcs⟩ : 'Σ' ≠ c ∧ 'Σ' ∉ cs := by simpa using h
    rw [lowerBetween, if_neg (Ne.symm hc), ih hcs, List.flatMap_cons]

/-! ## Letters in reach -/

theorem reachesLetter_append :
    reachesLetter (a ++ b) = if a.all isIgnorable then reachesLetter b else reachesLetter a := by
  induction a with
  | nil => rfl
  | cons c a ih =>
    cases hc : isIgnorable c with
    | true => simpa [reachesLetter, hc] using ih
    | false => simp [reachesLetter, hc]

theorem reachesLetter_of_all (h : a.all isIgnorable = true) : reachesLetter a = false := by
  rw [← List.append_nil a, reachesLetter_append, if_pos h]
  rfl

/-- Nothing beyond a character that is not ignorable is in reach. -/
theorem reachesLetter_append_cons (hc : isIgnorable c = false) :
    reachesLetter (a ++ c :: b) = reachesLetter (a ++ c :: b') := by
  have hletter (b : List Char) : reachesLetter (c :: b) = isCased c := by
    simp [reachesLetter, hc]
  rw [reachesLetter_append, reachesLetter_append, hletter, hletter]

theorem lowerBetween_cons (hc : isIgnorable c = false) :
    lowerBetween before (c :: b) cs = lowerBetween before (c :: b') cs := by
  induction cs generalizing before with
  | nil => rfl
  | cons d cs ih =>
    have hends : endsWord before (cs ++ c :: b) = endsWord before (cs ++ c :: b') := by
      unfold endsWord
      rw [reachesLetter_append_cons hc]
    rw [lowerBetween, lowerBetween, hends, ih]

theorem lowerAfter_append_cons (hc : isIgnorable c = false) :
    lowerAfter (a ++ c :: b) cs = lowerAfter (a ++ c :: b') cs := by
  induction cs generalizing a with
  | nil => rfl
  | cons d cs ih =>
    have hends : endsWord (a ++ c :: b) cs = endsWord (a ++ c :: b') cs := by
      unfold endsWord
      rw [reachesLetter_append_cons hc]
    rw [lowerAfter, lowerAfter, hends, ← List.cons_append, ih, List.cons_append]

/-! ## Settled sigmas -/

/-- What stands before and after a place decides whether it is the end of a word: a letter follows,
or the characters before the place are not all ignorable; and no letter precedes, or those after the
place are not all ignorable. -/
def decides (before after : List Char) : Bool :=
  (reachesLetter after || !before.all isIgnorable) &&
    (!reachesLetter before || !after.all isIgnorable)

/-- What stands further out then plays no part. -/
theorem endsWord_append (h : decides before after = true) :
    endsWord (before ++ a) (after ++ b) = endsWord before after := by
  obtain ⟨hbefore, hafter⟩ := Bool.and_eq_true_iff.1 h
  unfold endsWord
  rw [reachesLetter_append, reachesLetter_append]
  split_ifs with hallBefore hallAfter hallAfter
  · rw [hallBefore, Bool.not_true, Bool.or_false, reachesLetter_of_all hallAfter] at hbefore
    cases hbefore
  · rw [hallBefore, Bool.not_true, Bool.or_false] at hbefore
    rw [hbefore, Bool.not_true, Bool.and_false, Bool.and_false]
  · rw [hallAfter, Bool.not_true, Bool.or_false, Bool.not_eq_true'] at hafter
    rw [hafter, Bool.false_and, Bool.false_and]
  · rfl

theorem lowerBetween_append :
    lowerBetween before after (a ++ b) =
      lowerBetween before (b ++ after) a ++ lowerBetween (a.reverse ++ before) after b := by
  induction a generalizing before with
  | nil => rfl
  | cons c a ih =>
    rw [List.cons_append, lowerBetween, lowerBetween, ih, List.append_assoc, List.reverse_cons,
      List.append_assoc, List.append_assoc, List.singleton_append]

end Case

namespace Chars

open Case

variable {a b cs part front back : List Char}

/-- Each capital sigma of the text has its form from the text itself. -/
def IsSettled (cs : List Char) : Prop :=
  ∀ front back, cs = front ++ 'Σ' :: back → decides front.reverse back = true

/-- Without a capital sigma there is nothing to settle. -/
theorem isSettled_of_not_mem (h : 'Σ' ∉ cs) : IsSettled cs := by
  rintro front back rfl
  exact absurd (List.mem_append_right front List.mem_cons_self) h

/-- A settled part is in lower case what it is by itself. -/
theorem lowerBetween_of_isSettled (h : IsSettled cs) : lowerBetween a b cs = lower cs := by
  -- the characters already read go before, and the sigmas ahead are settled by them as well
  have hread (before cs : List Char)
      (h : ∀ front back, cs = front ++ 'Σ' :: back →
        decides (front.reverse ++ before) back = true) :
      lowerBetween (before ++ a) b cs = lowerAfter before cs := by
    induction cs generalizing before with
    | nil => rfl
    | cons c cs ih =>
      have hrest := ih (c :: before) fun front back heq => by
        simpa using h (c :: front) back (by rw [heq, List.cons_append])
      rw [List.cons_append] at hrest
      rw [lowerBetween, lowerAfter, hrest]
      by_cases hsigma : c = 'Σ'
      · subst hsigma
        have hsettled : decides before cs = true := h [] cs rfl
        rw [endsWord_append hsettled]
      · rw [if_neg hsigma, if_neg hsigma]
  exact hread [] cs fun front back heq => by rw [List.append_nil]; exact h front back heq

theorem lower_infix_of_isSettled (h : IsSettled part) (hin : part <:+: cs) :
    lower part <:+: lower cs := by
  obtain ⟨a, b, rfl⟩ := hin
  refine ⟨lowerBetween [] (part ++ b) a, lowerAfter ((a ++ part).reverse ++ []) b, ?_⟩
  rw [← lowerBetween_of_isSettled (a := a.reverse ++ []) (b := b) h, ← lowerBetween_append]
  exact lowerAfter_append.symm

/-! ## Sigmas that are not settled -/

theorem not_sigma_of_all_isIgnorable (h : cs.all isIgnorable = true) : 'Σ' ∉ cs := by
  intro hmem
  exact absurd (List.all_eq_true.1 h 'Σ' hmem) (by decide +kernel)

/-- A sigma that ends the part does not end a text in which a letter follows. -/
theorem not_lower_infix_concat (hfront : reachesLetter front.reverse = true)
    (hback : back.all isIgnorable = true) :
    ¬ lower (front ++ 'Σ' :: back) <:+: lower (front ++ 'Σ' :: (back ++ ['a'])) := by
  have hpart : lower (front ++ 'Σ' :: back) =
      lowerBetween [] ('Σ' :: back) front ++ 'ς' :: back.flatMap lowerChar := by
    have hends : endsWord (front.reverse ++ []) back = true := by
      simp [endsWord, hfront, reachesLetter_of_all hback]
    unfold lower
    rw [lowerAfter_append, lowerAfter, if_pos rfl, if_pos hends,
      lowerAfter_of_not_sigma (not_sigma_of_all_isIgnorable hback), List.singleton_append]
  have htext : lower (front ++ 'Σ' :: (back ++ ['a'])) =
      lowerBetween [] ('Σ' :: back) front ++ 'σ' :: (back.flatMap lowerChar ++ ['a']) := by
    have hletter : reachesLetter ['a'] = true := by decide +kernel
    have hends : ¬ endsWord (front.reverse ++ []) (back ++ ['a']) = true := by
      simp [endsWord, reachesLetter_append, hback, hletter]
    have hsigma : 'Σ' ∉ back ++ ['a'] := by
      simpa using not_sigma_of_all_isIgnorable hback
    unfold lower
    rw [lowerAfter_append, lowerAfter, if_pos rfl, if_neg hends, lowerAfter_of_not_sigma hsigma,
      lowerBetween_cons (by decide +kernel), List.flatMap_append, List.singleton_append]
    rfl
  intro hin
  have hcount := hin.sublist.count_le 'ς'
  have hletter : List.count 'ς' ['a'] = 0 := by decide
  rw [hpart, htext, List.count_append, List.count_append, List.count_cons_self,
    List.count_cons_of_ne (by decide), List.count_append, hletter] at hcount
  omega

/-- A sigma that begins the part ends the word in a text in which a letter precedes. -/
theorem not_lower_infix_cons (hfront : front.all isIgnorable = true)
    (hback : reachesLetter back = false) :
    ¬ lower (front ++ 'Σ' :: back) <:+: lower ('a' :: (front ++ 'Σ' :: back)) := by
  have hsigma : 'Σ' ∉ front := not_sigma_of_all_isIgnorable hfront
  have hafter : lowerAfter ('Σ' :: (front.reverse ++ ['a'])) back =
      lowerAfter ('Σ' :: (front.reverse ++ [])) back :=
    lowerAfter_append_cons (a := []) (by decide +kernel)
  have hpart : lower (front ++ 'Σ' :: back) =
      front.flatMap lowerChar ++ 'σ' :: lowerAfter ('Σ' :: (front.reverse ++ [])) back := by
    have hends : ¬ endsWord (front.reverse ++ []) back = true := by
      simp [endsWord, reachesLetter_of_all, hfront]
    unfold lower
    rw [lowerAfter_append, lowerBetween_of_not_sigma hsigma, lowerAfter, if_pos rfl, if_neg hends,
      List.singleton_append]
  have htext : lower ('a' :: (front ++ 'Σ' :: back)) =
      'a' :: front.flatMap lowerChar ++
        'ς' :: lowerAfter ('Σ' :: (front.reverse ++ [])) back := by
    have hletter : reachesLetter ['a'] = true := by decide +kernel
    have hends : endsWord (front.reverse ++ ['a']) back = true := by
      simp [endsWord, reachesLetter_append, hfront, hletter, hback]
    show 'a' :: lowerAfter ['a'] (front ++ 'Σ' :: back) = _
    rw [lowerAfter_append, lowerBetween_of_not_sigma hsigma, lowerAfter, if_pos rfl, if_pos hends,
      hafter, List.singleton_append, List.cons_append]
  intro hin
  have hcount := hin.sublist.count_le 'σ'
  rw [hpart, htext, List.count_append, List.count_append, List.count_cons_self,
    List.count_cons_of_ne (by decide), List.count_cons_of_ne (by decide)] at hcount
  omega

/-- **A part is in lower case the same everywhere if and only if its sigmas are settled.** -/
theorem isSettled_iff :
    IsSettled part ↔ ∀ cs, part <:+: cs → lower part <:+: lower cs := by
  constructor
  · exact fun h cs hin => lower_infix_of_isSettled h hin
  · rintro h front back rfl
    by_contra hopen
    rw [Bool.not_eq_true] at hopen
    rcases Bool.and_eq_false_iff.1 hopen with hopen | hopen
    · obtain ⟨hback, hfront⟩ := Bool.or_eq_false_iff.1 hopen
      rw [Bool.not_eq_false', List.all_reverse] at hfront
      exact not_lower_infix_cons hfront hback (h _ ⟨['a'], [], by simp⟩)
    · obtain ⟨hfront, hback⟩ := Bool.or_eq_false_iff.1 hopen
      rw [Bool.not_eq_false'] at hfront hback
      exact not_lower_infix_concat hfront hback (h _ ⟨[], ['a'], by simp⟩)

end Chars

end VoiceIndex
