import Mathlib.Data.List.Basic
import VoiceIndex.Source.ListFile

/-!
# What a line loses when it is cut into fields

A line of the table is cut at the commas outside quotations, and the double quotes that begin and
end the quotations are taken away. Nothing else is lost: with commas between them the fields are
the line without its unescaped quotes, and there is a cut at each comma that an even number of them
precedes (`fields_lose_only_quotes`). This holds of every line, also of one with a quotation that is
never closed.

The splitter knows two things of what it has read: whether a quotation is open, which is whether the
number of unescaped quotes is odd, and the last character. `fieldsFrom` is what it makes of the
rest of a line then, with one lemma for each kind of character that can come next.
-/

namespace VoiceIndex.ListTable

/-! ## Places in a line -/

/-- There is a double quote at the place, and no backslash directly before it. -/
def IsUnescapedQuote (cs : List Char) (i : Nat) : Prop :=
  cs[i]? = some '"' ∧ (i = 0 ∨ cs[i - 1]? ≠ some '\\')

instance (cs : List Char) : DecidablePred (IsUnescapedQuote cs) :=
  fun _ => inferInstanceAs (Decidable (_ ∧ _))

/-- How many unescaped quotes precede the place. -/
def quotesBefore (cs : List Char) (i : Nat) : Nat :=
  (List.range i).countP (IsUnescapedQuote cs ·)

/-- There is a comma at the place, and an even number of unescaped quotes precedes it. -/
def IsFreeComma (cs : List Char) (i : Nat) : Prop :=
  cs[i]? = some ',' ∧ quotesBefore cs i % 2 = 0

instance (cs : List Char) : DecidablePred (IsFreeComma cs) :=
  fun _ => inferInstanceAs (Decidable (_ ∧ _))

/-- The characters of a line at all places but those of its unescaped quotes. -/
def withoutQuotes (cs : List Char) : List Char :=
  (cs.zipIdx.filter fun place => ¬ IsUnescapedQuote cs place.2).map Prod.fst

/-- How many commas of a line an even number of unescaped quotes precedes. -/
def freeCommas (cs : List Char) : Nat := (List.range cs.length).countP (IsFreeComma cs ·)

theorem IsUnescapedQuote.not_isFreeComma {cs : List Char} {i : Nat} (h : IsUnescapedQuote cs i) :
    ¬ IsFreeComma cs i := by
  intro hcomma
  cases h.1.symm.trans hcomma.1

theorem quotesBefore_succ (cs : List Char) (i : Nat) :
    quotesBefore cs (i + 1) =
      quotesBefore cs i + if IsUnescapedQuote cs i then 1 else 0 := by
  unfold quotesBefore
  rw [List.range_succ, List.countP_append]
  simp [List.countP_cons]

section

variable {cs before rest : List Char} {c : Char} (h : cs = before ++ c :: rest)

include h

theorem isUnescapedQuote_iff :
    IsUnescapedQuote cs before.length ↔ c = '"' ∧ before.getLast? ≠ some '\\' := by
  subst h
  unfold IsUnescapedQuote
  rcases List.eq_nil_or_concat before with rfl | ⟨front, last, rfl⟩
  · simp
  · simp

theorem isFreeComma_iff :
    IsFreeComma cs before.length ↔ c = ',' ∧ quotesBefore cs before.length % 2 = 0 := by
  subst h
  unfold IsFreeComma
  simp

end

/-! ## Reading on -/

/-- The fields that the splitter makes of the rest of a line once it has read what is before. -/
def fieldsFrom (cs before rest : List Char) : List (List Char) :=
  let cut := split (quotesBefore cs before.length % 2 = 1) before.getLast? rest
  cut.1 :: cut.2

section

variable {cs before rest : List Char} {c : Char} (h : cs = before ++ c :: rest)

include h

/-- An unescaped quote opens or closes a quotation and is dropped. -/
theorem fieldsFrom_quote (hquote : IsUnescapedQuote cs before.length) :
    fieldsFrom cs before (c :: rest) = fieldsFrom cs (before ++ [c]) rest := by
  have hparity : (!decide (quotesBefore cs before.length % 2 = 1)) =
      decide (quotesBefore cs (before.length + 1) % 2 = 1) := by
    rw [quotesBefore_succ, if_pos hquote, ← decide_not, decide_eq_decide]
    omega
  unfold fieldsFrom
  rw [split, if_pos ((isUnescapedQuote_iff h).1 hquote), hparity]
  simp

/-- Any other character leaves the quotation as it is. -/
theorem fieldsFrom_of_not_quote (hquote : ¬ IsUnescapedQuote cs before.length) :
    ∃ field later, fieldsFrom cs (before ++ [c]) rest = field :: later ∧
      fieldsFrom cs before (c :: rest) =
        if IsFreeComma cs before.length then [] :: field :: later
        else (c :: field) :: later := by
  have hcount : quotesBefore cs (before.length + 1) = quotesBefore cs before.length := by
    rw [quotesBefore_succ, if_neg hquote, Nat.add_zero]
  have hcomma : (c = ',' ∧ (!decide (quotesBefore cs before.length % 2 = 1)) = true) ↔
      IsFreeComma cs before.length := by
    rw [isFreeComma_iff h, Bool.not_eq_true', decide_eq_false_iff_not]
    exact and_congr_right fun _ => by omega
  refine ⟨_, _, rfl, ?_⟩
  unfold fieldsFrom
  rw [split, if_neg (mt (isUnescapedQuote_iff h).2 hquote)]
  simp only [hcomma, List.length_append, List.length_singleton, List.getLast?_concat, hcount]
  split_ifs <;> rfl

end

/-! ## The whole line -/

/-- Joined with commas, the fields are what is left of the rest without its unescaped quotes. By
induction on the rest, whatever is before it. -/
theorem intercalate_fieldsFrom {cs before rest : List Char} (h : cs = before ++ rest) :
    [','].intercalate (fieldsFrom cs before rest) =
      ((rest.zipIdx before.length).filter fun place => ¬ IsUnescapedQuote cs place.2).map
        Prod.fst := by
  induction rest generalizing before with
  | nil => rfl
  | cons c rest ih =>
    have hrest : [','].intercalate (fieldsFrom cs (before ++ [c]) rest) = _ :=
      ih (by rw [h, List.append_assoc]; rfl)
    rw [List.length_append, List.length_singleton] at hrest
    rw [List.zipIdx_cons]
    by_cases hquote : IsUnescapedQuote cs before.length
    · rw [fieldsFrom_quote h hquote, hrest, List.filter_cons_of_neg (by simpa using hquote)]
    · obtain ⟨field, later, hfields, hread⟩ := fieldsFrom_of_not_quote h hquote
      rw [List.filter_cons_of_pos (by simpa using hquote), List.map_cons, ← hrest, hfields, hread]
      split_ifs with hcomma
      · rw [List.intercalate_cons_cons, ((isFreeComma_iff h).1 hcomma).1]
        rfl
      · cases later <;> simp [List.intercalate_cons_cons]

/-- There is one field more than there are free commas in the rest. -/
theorem length_fieldsFrom {cs before rest : List Char} (h : cs = before ++ rest) :
    (fieldsFrom cs before rest).length =
      (List.range' before.length rest.length).countP (IsFreeComma cs ·) + 1 := by
  induction rest generalizing before with
  | nil => rfl
  | cons c rest ih =>
    have hrest : (fieldsFrom cs (before ++ [c]) rest).length = _ :=
      ih (by rw [h, List.append_assoc]; rfl)
    rw [List.length_append, List.length_singleton] at hrest
    rw [List.length_cons, List.range'_succ, List.countP_cons]
    by_cases hquote : IsUnescapedQuote cs before.length
    · have hcomma := hquote.not_isFreeComma
      rw [fieldsFrom_quote h hquote, hrest, if_neg (by simpa using hcomma), Nat.add_zero]
    · obtain ⟨field, later, hfields, hread⟩ := fieldsFrom_of_not_quote h hquote
      rw [hfields] at hrest
      rw [hread]
      split_ifs with hcomma <;> simp_all

/-- **A line loses nothing but its quotes when it is cut into fields.** With commas between them
the fields are the line without its unescaped quotes, and there is one field more than there are
commas that an even number of unescaped quotes precedes. -/
theorem fields_lose_only_quotes (line : String) :
    ",".intercalate (fields line) = .ofList (withoutQuotes line.toList) ∧
      (fields line).length = freeCommas line.toList + 1 := by
  have hline : line.toList = [] ++ line.toList := (List.nil_append _).symm
  have hfields : fields line = (fieldsFrom line.toList [] line.toList).map .ofList := rfl
  have hjoined : [','].intercalate (fieldsFrom line.toList [] line.toList) =
      withoutQuotes line.toList := intercalate_fieldsFrom hline
  constructor
  · rw [← String.toList_inj, String.toList_intercalate, hfields, List.map_map, String.toList_ofList,
      ← hjoined]
    simp [Function.comp_def]
  · rw [hfields, List.length_map, length_fieldsFrom hline, freeCommas, List.range_eq_range']
    rfl

/-- A quote after a backslash stays, and the last quotation is never closed. -/
example : withoutQuotes "a,\\\"b\\\",\"c,d".toList = "a,\\\"b\\\",c,d".toList ∧
    freeCommas "a,\\\"b\\\",\"c,d".toList = 2 := by
  decide +kernel

end VoiceIndex.ListTable
