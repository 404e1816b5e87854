import VoiceIndex.Proofs.Text.Pieces
import VoiceIndex.Query.Placeholder

/-!
# The names that are found in a trigger

A placeholder is an opening bracket, a name and a closing bracket, of either kind, where the name is
not empty and has no closing bracket in it. The names of a trigger are those of its placeholders
from left to right: where one begins, its name is found and the search goes on behind it
(`placeholderNames_text`), and elsewhere it goes on with the next character
(`placeholderNames_cons_of_not`). So what was written is found again (`placeholders_triggerOf`), and
what is found in any text stands there between its brackets (`exists_triggerOf_eq`).
-/

namespace VoiceIndex

/-! ## Placeholders as they are written -/

/-- A name between brackets. -/
structure Slot where
  opening : Char
  name : String
  closing : Char

namespace Slot

/-- The brackets are such as open and close a placeholder, and the name can stand between them. -/
structure IsPlaceholder (slot : Slot) : Prop where
  opening : slot.opening = '<' ∨ slot.opening = '\x7b'
  closing : slot.closing = '>' ∨ slot.closing = '\x7d'
  name_ne : slot.name ≠ ""
  angle_not_mem : '>' ∉ slot.name.toList
  brace_not_mem : '\x7d' ∉ slot.name.toList

theorem isPlaceholder_iff {slot : Slot} : slot.IsPlaceholder ↔
    (slot.opening = '<' ∨ slot.opening = '\x7b') ∧ (slot.closing = '>' ∨ slot.closing = '\x7d') ∧
      slot.name ≠ "" ∧ '>' ∉ slot.name.toList ∧ '\x7d' ∉ slot.name.toList :=
  ⟨fun h => ⟨h.1, h.2, h.3, h.4, h.5⟩, fun h => ⟨h.1, h.2.1, h.2.2.1, h.2.2.2.1, h.2.2.2.2⟩⟩

instance : DecidablePred IsPlaceholder := fun _ => decidable_of_iff' _ isPlaceholder_iff

/-- The name with its brackets. -/
def text (slot : Slot) : String :=
  String.singleton slot.opening ++ slot.name ++ String.singleton slot.closing

theorem toList_text (slot : Slot) :
    slot.text.toList = slot.opening :: (slot.name.toList ++ [slot.closing]) := by
  simp [text]

end Slot

/-- No bracket in the text opens a placeholder. -/
def OpensNothing (text : String) : Prop := '<' ∉ text.toList ∧ '\x7b' ∉ text.toList

instance : DecidablePred OpensNothing := fun _ => inferInstanceAs (Decidable (_ ∧ _))

/-- A trigger that begins with a text and goes on with placeholders, each with a text after it. -/
def triggerOf (start : String) (parts : List (Slot × String)) : String :=
  start ++ String.join (parts.map fun part => part.1.text ++ part.2)

theorem triggerOf_cons (start : String) (slot : Slot) (after : String)
    (parts : List (Slot × String)) :
    triggerOf start ((slot, after) :: parts) = start ++ slot.text ++ triggerOf after parts := by
  simp [triggerOf, String.append_assoc]

/-! ## Reading on -/

section

variable {c : Char} {cs rest : List Char} {slot : Slot}

theorem opensPlaceholder_iff : opensPlaceholder c = true ↔ c = '<' ∨ c = '\x7b' := by
  simp [opensPlaceholder]

theorem closesPlaceholder_iff : closesPlaceholder c = true ↔ c = '>' ∨ c = '\x7d' := by
  simp [closesPlaceholder]

theorem opensPlaceholder_of_closes (h : closesPlaceholder c = true) :
    opensPlaceholder c = false := by
  rcases closesPlaceholder_iff.1 h with rfl | rfl <;> decide

theorem forall_neither_iff {a b : Char} :
    (∀ c ∈ cs, (c == a || c == b) = false) ↔ a ∉ cs ∧ b ∉ cs := by
  simp only [Bool.or_eq_false_iff, beq_eq_false_iff_ne]
  grind

theorem forall_not_opens_iff :
    (∀ c ∈ cs, opensPlaceholder c = false) ↔ '<' ∉ cs ∧ '\x7b' ∉ cs := forall_neither_iff

theorem forall_not_closes_iff :
    (∀ c ∈ cs, closesPlaceholder c = false) ↔ '>' ∉ cs ∧ '\x7d' ∉ cs := forall_neither_iff

theorem placeholderNames_none_cons (h : opensPlaceholder c = false) :
    placeholderNames none (c :: rest) = placeholderNames none rest := by
  rw [placeholderNames]
  simp [h]

/-- Where nothing is closed any more, no name is found. -/
theorem placeholderNames_of_not_closes (h : ∀ c ∈ cs, closesPlaceholder c = false)
    (inside? : Option (List Char)) : placeholderNames inside? cs = [] := by
  induction cs generalizing inside? with
  | nil => rfl
  | cons c cs ih =>
    obtain ⟨hc, hcs⟩ := List.forall_mem_cons.1 h
    cases inside? with
    | none => exact ih hcs _
    | some inside =>
      rw [placeholderNames]
      simp only [hc, Bool.not_false, if_true]
      exact ih hcs _

/-- Inside a placeholder the name goes on to the next closing bracket. By induction on what is still
to come of it, whatever was read before. -/
theorem placeholderNames_inside {name : List Char} (hname : ∀ c ∈ name, closesPlaceholder c = false)
    (hc : closesPlaceholder c = true) (inside rest : List Char) :
    placeholderNames (some inside) (name ++ c :: rest) =
      if inside.reverse ++ name = [] then placeholderNames none rest
      else (inside.reverse ++ name) :: placeholderNames none rest := by
  induction name generalizing inside with
  | nil =>
    rw [List.nil_append, List.append_nil, placeholderNames]
    simp [hc]
  | cons d name ih =>
    obtain ⟨hd, hname⟩ := List.forall_mem_cons.1 hname
    rw [List.cons_append, placeholderNames]
    simp only [hd, Bool.not_false, if_true]
    rw [ih hname]
    simp

/-- Behind an opening bracket. -/
theorem placeholderNames_opened {opening : Char} {name : List Char}
    (hopening : opensPlaceholder opening = true) (hname : ∀ c ∈ name, closesPlaceholder c = false)
    (hc : closesPlaceholder c = true) (rest : List Char) :
    placeholderNames none (opening :: (name ++ c :: rest)) =
      if name = [] then placeholderNames none rest else name :: placeholderNames none rest := by
  rw [placeholderNames]
  simp only [hopening, if_true]
  exact placeholderNames_inside hname hc [] rest

/-- **Where a placeholder begins, its name is found**, and the search goes on behind it. -/
theorem placeholderNames_text (h : slot.IsPlaceholder) (rest : List Char) :
    placeholderNames none (slot.text.toList ++ rest) =
      slot.name.toList :: placeholderNames none rest := by
  have hne : slot.name.toList ≠ [] := by simpa using h.name_ne
  rw [Slot.toList_text, List.cons_append, List.append_assoc, List.singleton_append,
    placeholderNames_opened (opensPlaceholder_iff.2 h.opening)
      (forall_not_closes_iff.2 ⟨h.angle_not_mem, h.brace_not_mem⟩)
      (closesPlaceholder_iff.2 h.closing), if_neg hne]

/-- **Where none begins, the search goes on with the next character.** An opening bracket begins
none if nothing is closed after it, or if it is closed at once. -/
theorem placeholderNames_cons_of_not
    (h : ∀ (slot : Slot) (after : List Char), slot.IsPlaceholder →
      c :: rest ≠ slot.text.toList ++ after) :
    placeholderNames none (c :: rest) = placeholderNames none rest := by
  cases hopening : opensPlaceholder c with
  | false => exact placeholderNames_none_cons hopening
  | true =>
    rcases Chars.splitOnP_cases closesPlaceholder rest with
      ⟨hrest, -⟩ | ⟨name, closing, after, rfl, hname, hclosing, -⟩
    · rw [placeholderNames_of_not_closes hrest none, placeholderNames]
      exact placeholderNames_of_not_closes hrest _
    · have hnil : name = [] := by
        by_contra hne
        have hfree := forall_not_closes_iff.1 hname
        refine h ⟨c, .ofList name, closing⟩ after ⟨opensPlaceholder_iff.1 hopening,
          closesPlaceholder_iff.1 hclosing, ?_, by simpa using hfree.1, by simpa using hfree.2⟩ ?_
        · simpa [← String.toList_inj] using hne
        · simp [Slot.toList_text]
      subst hnil
      rw [placeholderNames_opened hopening hname hclosing, if_pos rfl, List.nil_append,
        placeholderNames_none_cons (opensPlaceholder_of_closes hclosing)]

/-- Where nothing is opened, the characters are passed over. -/
theorem placeholderNames_append (h : ∀ c ∈ cs, opensPlaceholder c = false) (rest : List Char) :
    placeholderNames none (cs ++ rest) = placeholderNames none rest := by
  induction cs with
  | nil => rfl
  | cons c cs ih =>
    obtain ⟨hc, hcs⟩ := List.forall_mem_cons.1 h
    rw [List.cons_append, placeholderNames_none_cons hc, ih hcs]

end

/-! ## Writing and reading -/

theorem placeholders_eq_iff {text : String} {names : List String} :
    placeholders text = names ↔ placeholderNames none text.toList = names.map String.toList := by
  unfold placeholders
  constructor
  · rintro rfl
    simp [Function.comp_def]
  · intro h
    rw [h]
    simp [Function.comp_def]

/-- What was written is found again. By induction on the placeholders. -/
theorem placeholders_triggerOf {start : String} {parts : List (Slot × String)}
    (hstart : OpensNothing start)
    (hparts : ∀ part ∈ parts, part.1.IsPlaceholder ∧ OpensNothing part.2) :
    placeholders (triggerOf start parts) = parts.map (·.1.name) := by
  rw [placeholders_eq_iff]
  induction parts generalizing start with
  | nil =>
    rw [triggerOf, String.toList_append, placeholderNames_append (forall_not_opens_iff.2 hstart)]
    rfl
  | cons part parts ih =>
    obtain ⟨⟨hslot, hafter⟩, hparts⟩ := List.forall_mem_cons.1 hparts
    rw [triggerOf_cons, String.append_assoc, String.toList_append, String.toList_append,
      placeholderNames_append (forall_not_opens_iff.2 hstart), placeholderNames_text hslot,
      ih hafter hparts]
    rfl

/-- What is found in a text stands there: the text is put together from placeholders with the names
that are found, in their order, and what is around them. By induction on its length. -/
theorem exists_triggerOf_eq (cs : List Char) :
    ∃ start parts, cs = (triggerOf start parts).toList ∧ (∀ part ∈ parts, part.1.IsPlaceholder) ∧
      placeholderNames none cs = parts.map (·.1.name.toList) := by
  by_cases hbegins : ∃ (slot : Slot) (after : List Char),
      slot.IsPlaceholder ∧ cs = slot.text.toList ++ after
  · obtain ⟨slot, after, hslot, hcs⟩ := hbegins
    have hshorter : after.length < cs.length := by
      rw [hcs, Slot.toList_text, List.length_append, List.length_cons]
      omega
    obtain ⟨start, parts, hafter, hslots, hnames⟩ := exists_triggerOf_eq after
    refine ⟨"", (slot, start) :: parts, ?_, List.forall_mem_cons.2 ⟨hslot, hslots⟩, ?_⟩
    · rw [hcs, triggerOf_cons, String.toList_append, ← hafter, String.empty_append]
    · rw [hcs, placeholderNames_text hslot, hnames, List.map_cons]
  · cases cs with
    | nil => exact ⟨"", [], rfl, by simp, rfl⟩
    | cons c rest =>
      obtain ⟨start, parts, hrest, hslots, hnames⟩ := exists_triggerOf_eq rest
      refine ⟨String.singleton c ++ start, parts, ?_, hslots, ?_⟩
      · rw [hrest]
        simp [triggerOf]
      · rw [placeholderNames_cons_of_not fun slot after hslot heq =>
          hbegins ⟨slot, after, hslot, heq⟩, hnames]
termination_by cs.length

/-- **The names that are found are those that were written.** In a trigger of placeholders, with
texts between them that open none, exactly their names are found, in their order, whatever brackets
stand around them. And a name that is found in any text is not empty, has no closing bracket in it,
and stands there between an opening bracket and a closing one. -/
theorem placeholders_as_written :
    (∀ (start : String) (parts : List (Slot × String)), OpensNothing start →
      (∀ part ∈ parts, part.1.IsPlaceholder ∧ OpensNothing part.2) →
        placeholders (triggerOf start parts) = parts.map (·.1.name)) ∧
    ∀ text name, name ∈ placeholders text →
      name ≠ "" ∧ '>' ∉ name.toList ∧ '\x7d' ∉ name.toList ∧
      ∃ before opening closing after, (opening = '<' ∨ opening = '\x7b') ∧
        (closing = '>' ∨ closing = '\x7d') ∧
        text = before ++ (String.singleton opening ++ name ++ String.singleton closing) ++ after := by
  refine ⟨fun start parts => placeholders_triggerOf, fun text name hname => ?_⟩
  obtain ⟨start, parts, htext, hslots, hnames⟩ := exists_triggerOf_eq text.toList
  obtain rfl := String.toList_inj.1 htext
  rw [placeholders_eq_iff.2 (by rw [hnames, List.map_map]; rfl)] at hname
  obtain ⟨⟨slot, after⟩, hmem, rfl⟩ := List.mem_map.1 hname
  obtain ⟨front, later, rfl⟩ := List.append_of_mem hmem
  have h := hslots _ hmem
  refine ⟨h.name_ne, h.angle_not_mem, h.brace_not_mem, triggerOf start front, slot.opening,
    slot.closing, triggerOf after later, h.opening, h.closing, ?_⟩
  simp [triggerOf, Slot.text, String.append_assoc]

/-- Two placeholders with brackets of both kinds, one with an opening bracket in its name, and
closing brackets in the texts around them. -/
theorem placeholders_as_written_mixed :
    placeholders "a > <user.x\x7d\x7b<y> \x7d" = ["user.x", "<y"] := by
  have hstart : OpensNothing "a > " := by decide
  have hparts : ∀ part ∈ [((⟨'<', "user.x", '\x7d'⟩ : Slot), ""), (⟨'\x7b', "<y", '>'⟩, " \x7d")],
      part.1.IsPlaceholder ∧ OpensNothing part.2 := by decide
  exact placeholders_as_written.1 _ _ hstart hparts

end VoiceIndex
