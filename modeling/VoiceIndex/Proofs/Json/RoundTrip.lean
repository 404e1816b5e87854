import VoiceIndex.Proofs.Json.Scalar

/-!
# Values read back

A value without fractions and exponents is read back from its text, in any layout that puts
nothing but white space between its parts (`reads_value`, `parse?_pretty`). The bound of the
reader suffices because every part is shorter than the text it stands in.
-/

namespace VoiceIndex.Json

variable {α : Type} {gap cs rest : List Char} {layout : Layout}

/-! ## White space -/

/-- White space and nothing else. -/
def IsBlank (cs : List Char) : Prop := ∀ c ∈ cs, isSpace c = true

theorem isBlank_nil : IsBlank [] := by simp [IsBlank]

theorem skip_blank (h : IsBlank gap) : skip (gap ++ cs) = skip cs :=
  List.dropWhile_append_of_pos h

theorem skip_cons {c : Char} (h : isSpace c = false) : skip (c :: cs) = c :: cs := by
  simp [skip, h]

theorem ends_blank (hgap : IsBlank gap) (h : Ends cs) : Ends (gap ++ cs) := by
  cases gap with
  | nil => exact h
  | cons c gap =>
    have hc : isSpace c = true := hgap c List.mem_cons_self
    simp only [isSpace, Bool.or_eq_true, beq_iff_eq] at hc
    rcases hc with ((rfl | rfl) | rfl) | rfl <;> exact ends_cons (by decide) _

/-- A layout that puts nothing but white space between the parts of a value. -/
structure Layout.Blank (layout : Layout) : Prop where
  gap : ∀ depth, IsBlank (layout.gap depth)
  colon : ∃ before after, layout.colon = before ++ ':' :: after ∧ IsBlank before ∧ IsBlank after

theorem Layout.blank_block : Layout.block.Blank where
  gap depth c hc := by
    rcases List.mem_cons.1 hc with rfl | hc
    · decide
    · rw [List.eq_of_mem_replicate hc]
      decide
  colon := ⟨[], [' '], rfl, isBlank_nil, by simp [IsBlank, isSpace]⟩

/-! ## Sequences -/

/-- A character that can close a sequence. -/
structure Closes (close : Char) : Prop where
  ne_comma : close ≠ ','
  not_isSpace : isSpace close = false
  not_carriesOn : carriesOn close = false

theorem closes_bracket : Closes ']' := ⟨by decide, by decide, by decide⟩

theorem closes_brace : Closes '\x7d' := ⟨by decide, by decide, by decide⟩

/-- The part reads `x` from this text, after white space and before what ends it. -/
def Reads (part : List Char → Option (α × List Char)) (text : List Char) (x : α) : Prop :=
  ∀ gap rest, IsBlank gap → Ends rest → part (gap ++ (text ++ rest)) = some (x, rest)

/-- The elements after the first, with a comma before each. -/
def following (gap : List Char) (write : α → List Char) (xs : List α) : List Char :=
  xs.flatMap fun x => ',' :: gap ++ write x

theorem following_cons (gap : List Char) (write : α → List Char) (x : α) (xs : List α) :
    following gap write (x :: xs) = ',' :: gap ++ write x ++ following gap write xs := by
  simp [following]

variable {part : List Char → Option (α × List Char)} {write : α → List Char} {close : Char}
  {last lead : List Char} {bound : Nat} {x : α} {xs : List α}

theorem ends_following (gap : List Char) (write : α → List Char) (hlast : IsBlank last)
    (hclose : Closes close) (rest : List Char) (xs : List α) :
    Ends (following gap write xs ++ (last ++ close :: rest)) := by
  cases xs with
  | nil => simpa [following] using ends_blank hlast (ends_cons hclose.not_carriesOn rest)
  | cons x xs =>
    rw [following_cons]
    exact ends_cons (by decide) _

/-- The parts of a sequence are read one after another; the bound is above their number. -/
theorem parts_of_reads (rest : List Char) (hclose : Closes close) (hgap : IsBlank gap)
    (hlast : IsBlank last) (hlead : IsBlank lead) (h : ∀ y ∈ x :: xs, Reads part (write y) y)
    (hbound : xs.length < bound) :
    parts part close bound
      (lead ++ (write x ++ (following gap write xs ++ (last ++ close :: rest)))) =
        some (x :: xs, rest) := by
  induction xs generalizing x bound lead with
  | nil =>
    obtain ⟨bound, rfl⟩ := Nat.exists_eq_add_one.2 (Nat.zero_lt_of_lt hbound)
    have hread := h x List.mem_cons_self lead _ hlead
      (ends_following gap write hlast hclose rest [])
    have hskip : skip (following gap write [] ++ (last ++ close :: rest)) = close :: rest := by
      rw [following, List.flatMap_nil, List.nil_append, skip_blank hlast,
        skip_cons hclose.not_isSpace]
    unfold parts
    simp only [hread, Option.bind_eq_bind, Option.bind_some, hskip, if_neg hclose.ne_comma, if_true]
    rfl
  | cons y ys ih =>
    obtain ⟨bound, rfl⟩ := Nat.exists_eq_add_one.2 (Nat.zero_lt_of_lt hbound)
    have hread := h x List.mem_cons_self lead _ hlead
      (ends_following gap write hlast hclose rest (y :: ys))
    have hskip : skip (following gap write (y :: ys) ++ (last ++ close :: rest)) =
        ',' :: (gap ++ (write y ++ (following gap write ys ++ (last ++ close :: rest)))) := by
      rw [following_cons]
      simp only [List.cons_append, List.append_assoc]
      exact skip_cons (by decide)
    have hrest := ih hgap (fun z hz => h z (List.mem_cons_of_mem x hz))
      (Nat.lt_of_succ_lt_succ hbound)
    unfold parts
    simp only [hread, Option.bind_eq_bind, Option.bind_some, hskip, if_true, hrest]
    rfl

/-- A sequence is read element by element. -/
theorem sequence_of_reads (rest : List Char) (hclose : Closes close) (hgap : IsBlank gap)
    (hlast : IsBlank last) (hlead : IsBlank lead) (h : ∀ y ∈ x :: xs, Reads part (write y) y)
    (hbound : xs.length < bound) {c : Char} {tail : List Char} (hstart : write x = c :: tail)
    (hc : isSpace c = false) (hne : c ≠ close) :
    sequence part close bound
      (lead ++ (write x ++ (following gap write xs ++ (last ++ close :: rest)))) =
        some (x :: xs, rest) := by
  have hparts := parts_of_reads rest hclose hgap hlast isBlank_nil h hbound
  -- the white space in front is passed over before the first part, to see whether there is any
  unfold sequence
  rw [skip_blank hlead]
  rw [List.nil_append] at hparts
  rw [hstart, List.cons_append] at hparts ⊢
  rw [skip_cons hc]
  simp only [if_neg hne, hparts]

/-! ## Members -/

/-- A member of an object as it is written. -/
def memberChars (layout : Layout) (depth : Nat) (member : Option String × Json) : List Char :=
  quote member.1 ++ layout.colon ++ chars layout depth member.2

theorem reads_member {read : List Char → Option (Json × List Char)} {depth : Nat}
    {m : Option String × Json} (hlayout : layout.Blank)
    (h : Reads read (chars layout depth m.2) m.2) :
    Reads (member read) (memberChars layout depth m) m := by
  intro gap rest hgap hrest
  obtain ⟨before, after, hcolon, hbefore, hafter⟩ := hlayout.colon
  have hstring := string_quote m.1 (layout.colon ++ (chars layout depth m.2 ++ rest))
  have hvalue : read (after ++ (chars layout depth m.2 ++ rest)) = some (m.2, rest) :=
    h after rest hafter hrest
  have hskip : skip (layout.colon ++ (chars layout depth m.2 ++ rest)) =
      ':' :: (after ++ (chars layout depth m.2 ++ rest)) := by
    rw [hcolon, List.append_assoc, skip_blank hbefore, List.cons_append, skip_cons (by decide)]
  unfold member memberChars
  rw [skip_blank hgap, quote_eq, List.cons_append, List.cons_append, List.cons_append,
    skip_cons (by decide)]
  simp only [List.append_assoc, hstring, Option.bind_eq_bind, Option.bind_some, hskip, hvalue]
  rfl

theorem charsOfItems_eq (layout : Layout) (depth : Nat) (xs : List Json) :
    charsOfItems layout depth xs = following (layout.gap depth) (chars layout depth) xs := by
  induction xs with
  | nil => simp [charsOfItems, following]
  | cons x xs ih => rw [charsOfItems, ih, following_cons]

theorem charsOfMembers_eq (layout : Layout) (depth : Nat) (members : List (Option String × Json)) :
    charsOfMembers layout depth members =
      following (layout.gap depth) (memberChars layout depth) members := by
  induction members with
  | nil => simp [charsOfMembers, following]
  | cons m members ih =>
    rw [charsOfMembers, ih, following_cons, memberChars]
    simp only [List.cons_append, List.append_assoc]

/-! ## Values -/

theorem isSpace_of_numeral {c : Char} (h : c.isDigit = true ∨ c = '-') : isSpace c = false := by
  by_contra hspace
  simp only [isSpace, Bool.not_eq_false, Bool.or_eq_true, beq_iff_eq] at hspace
  rcases hspace with ((rfl | rfl) | rfl) | rfl <;> simp at h

/-- No number in the value has a fraction or an exponent. -/
inductive IsIntegral : Json → Prop
  | null : IsIntegral .null
  | bool (b : Bool) : IsIntegral (.bool b)
  | int (n : Int) : IsIntegral (.int n)
  | text (content : Option String) : IsIntegral (.text content)
  | list {items : List Json} (h : ∀ x ∈ items, IsIntegral x) : IsIntegral (.list items)
  | object {members : List (Option String × Json)} (h : ∀ m ∈ members, IsIntegral m.2) :
    IsIntegral (.object members)

/-- A value begins with a character that neither is white space nor closes anything. -/
theorem exists_chars_eq {x : Json} (h : x.IsIntegral) (layout : Layout) (depth : Nat) :
    ∃ c tail, chars layout depth x = c :: tail ∧ isSpace c = false ∧ c ≠ ']' ∧ c ≠ '\x7d' := by
  cases h with
  | null => exact ⟨'n', _, rfl, by decide, by decide, by decide⟩
  | bool b => cases b <;> exact ⟨_, _, rfl, by decide, by decide, by decide⟩
  | int n =>
    obtain ⟨c, tail, hc, hfirst⟩ := exists_digits_eq n
    refine ⟨c, tail, hc, isSpace_of_numeral hfirst, ?_, ?_⟩ <;>
      · rintro rfl
        simp at hfirst
  | text content =>
    exact ⟨'"', _, quote_eq content, by decide, by decide, by decide⟩
  | @list items _ => cases items <;> exact ⟨'[', _, rfl, by decide, by decide, by decide⟩
  | @object members _ => cases members <;> exact ⟨'\x7b', _, rfl, by decide, by decide, by decide⟩

theorem length_le_following (gap : List Char) (write : α → List Char) (xs : List α) :
    xs.length ≤ (following gap write xs).length := by
  induction xs with
  | nil => exact Nat.zero_le _
  | cons x xs ih =>
    rw [following_cons]
    simp only [List.length_cons, List.length_append]
    omega

theorem length_lt_following (gap : List Char) (write : α → List Char) (h : x ∈ xs) :
    (write x).length < (following gap write xs).length := by
  have hsub : (',' :: gap ++ write x).Sublist (following gap write xs) :=
    List.sublist_flatten_of_mem (List.mem_map_of_mem h)
  have := hsub.length_le
  simp only [List.cons_append, List.length_cons, List.length_append] at this
  omega

/-- A sequence is read if each element that is shorter than the bound is. -/
theorem sequence_of_short (part : List Char → Option (α × List Char)) (write : α → List Char)
    (depth : Nat) (xs : List α) (rest : List Char) (hlayout : layout.Blank)
    (hclose : Closes close)
    (h : ∀ y ∈ x :: xs, (write y).length < bound → Reads part (write y) y)
    (hlength : (write x).length + (following (layout.gap (depth + 1)) write xs).length < bound)
    {c : Char} {tail : List Char} (hstart : write x = c :: tail) (hc : isSpace c = false)
    (hne : c ≠ close) :
    sequence part close bound (layout.gap (depth + 1) ++ (write x ++
      (following (layout.gap (depth + 1)) write xs ++ (layout.gap depth ++ close :: rest)))) =
        some (x :: xs, rest) := by
  have hgap := hlayout.gap (depth + 1)
  have hreads : ∀ y ∈ x :: xs, Reads part (write y) y := by
    intro y hy
    refine h y hy ?_
    rcases List.mem_cons.1 hy with rfl | hy
    · omega
    · have := length_lt_following (layout.gap (depth + 1)) write hy
      omega
  have hbound := length_le_following (layout.gap (depth + 1)) write xs
  exact sequence_of_reads rest hclose hgap (hlayout.gap depth) hgap hreads (by omega) hstart hc hne

/-- What begins like an integer is read as a number. -/
theorem value_of_numeral {c : Char} (h : c.isDigit = true ∨ c = '-') (bound : Nat) :
    value (bound + 1) (c :: cs) = number (c :: cs) := by
  have hne (d : Char) (hd : d.isDigit = false) (hminus : d ≠ '-') : c ≠ d := by
    rintro rfl
    rcases h with h | h
    · simp [h] at hd
    · exact hminus h
  unfold value
  rw [skip_cons (isSpace_of_numeral h)]
  simp only [if_neg (hne '"' (by decide) (by decide)), if_neg (hne '[' (by decide) (by decide)),
    if_neg (hne '\x7b' (by decide) (by decide)), if_neg (hne 'n' (by decide) (by decide)),
    if_neg (hne 't' (by decide) (by decide)), if_neg (hne 'f' (by decide) (by decide))]

theorem value_blank (hgap : IsBlank gap) (bound : Nat) :
    value bound (gap ++ cs) = value bound cs := by
  cases bound with
  | zero => rfl
  | succ bound => rw [value, value, skip_blank hgap]

/-- Each value without fractions and exponents that is shorter than the bound is read. -/
def ReadsShort (layout : Layout) (bound : Nat) : Prop :=
  ∀ depth (x : Json), x.IsIntegral → (chars layout depth x).length < bound →
    Reads (value bound) (chars layout depth x) x

theorem value_chars_list (hlayout : layout.Blank) (hread : ReadsShort layout bound) {depth : Nat}
    {items : List Json} (h : ∀ x ∈ items, x.IsIntegral)
    (hbound : (chars layout depth (.list items)).length < bound + 1) (rest : List Char) :
    value (bound + 1) (chars layout depth (.list items) ++ rest) = some (.list items, rest) := by
  cases items with
  | nil => rfl
  | cons x xs =>
    rw [chars, charsOfItems_eq] at hbound ⊢
    simp only [List.cons_append, List.length_cons, List.length_append] at hbound
    obtain ⟨c, tail, hstart, hc, hne, -⟩ :=
      exists_chars_eq (h x List.mem_cons_self) layout (depth + 1)
    have hsequence := sequence_of_short (fun cs => value bound cs) (chars layout (depth + 1))
      depth xs rest hlayout closes_bracket (fun y hy => hread (depth + 1) y (h y hy)) (by omega)
      hstart hc hne
    simp only [List.cons_append, List.append_assoc, List.nil_append, value]
    rw [skip_cons (by decide)]
    simp only [hsequence]
    rfl

theorem value_chars_object (hlayout : layout.Blank) (hread : ReadsShort layout bound) {depth : Nat}
    {members : List (Option String × Json)} (h : ∀ m ∈ members, m.2.IsIntegral)
    (hbound : (chars layout depth (.object members)).length < bound + 1) (rest : List Char) :
    value (bound + 1) (chars layout depth (.object members) ++ rest) =
      some (.object members, rest) := by
  cases members with
  | nil => rfl
  | cons m members =>
    rw [chars, charsOfMembers_eq] at hbound ⊢
    simp only [List.cons_append, List.length_cons, List.length_append] at hbound
    have hreads (y) (hy : y ∈ m :: members)
        (hlt : (memberChars layout (depth + 1) y).length < bound) :
        Reads (member fun cs => value bound cs) (memberChars layout (depth + 1) y) y := by
      refine reads_member hlayout (hread (depth + 1) y.2 (h y hy) ?_)
      simp only [memberChars, List.length_append] at hlt
      omega
    have hstart : memberChars layout (depth + 1) m = '"' :: ((quote m.1).tail ++
        layout.colon ++ chars layout (depth + 1) m.2) := by
      rw [memberChars, quote_eq]
      rfl
    have hlength : (memberChars layout (depth + 1) m).length = (quote m.1).length +
        layout.colon.length + (chars layout (depth + 1) m.2).length := by
      simp only [memberChars, List.length_append]
    have hsequence := sequence_of_short (member fun cs => value bound cs)
      (memberChars layout (depth + 1)) depth members rest hlayout closes_brace hreads
      (by omega) hstart (by decide) (by decide)
    rw [memberChars] at hsequence
    simp only [List.cons_append, List.append_assoc, List.nil_append, value] at hsequence ⊢
    rw [skip_cons (by decide)]
    simp only [hsequence]
    rfl

/-- **A value is read back from its text.** The induction is on the bound, which is above the
length of the text and so above that of each part. -/
theorem reads_value (hlayout : layout.Blank) (bound : Nat) : ReadsShort layout bound := by
  induction bound with
  | zero => exact fun _ _ _ hbound => absurd hbound (Nat.not_lt_zero _)
  | succ bound ih =>
    intro depth x h hbound gap rest hgap hrest
    rw [value_blank hgap]
    cases h with
    | null => rfl
    | bool b => cases b <;> rfl
    | int n =>
      obtain ⟨c, tail, hc, hfirst⟩ := exists_digits_eq n
      have hnumber := number_digits n hrest
      rw [hc, List.cons_append] at hnumber
      rw [chars, hc, List.cons_append, value_of_numeral hfirst, hnumber]
    | text content =>
      rw [chars, quote_eq, List.cons_append, value, skip_cons (by decide)]
      simp only [if_true, string_quote]
      rfl
    | list h => exact value_chars_list hlayout ih h hbound rest
    | object h => exact value_chars_object hlayout ih h hbound rest

/-- **What is written as a block is parsed to the value it was written for.** -/
theorem parse?_pretty {x : Json} (h : x.IsIntegral) : parse? x.pretty = some x := by
  have hread := reads_value Layout.blank_block _ 0 x h (Nat.lt_succ_self _) [] [] isBlank_nil
    ends_nil
  rw [List.nil_append, List.append_nil] at hread
  unfold parse? pretty
  rw [String.toList_ofList, hread]
  rfl

end VoiceIndex.Json
