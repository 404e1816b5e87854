import Mathlib.Data.List.Induction
import VoiceIndex.Proofs.Text.Pieces
import VoiceIndex.Query.Placeholder

/-!
# What an index of lists finds

An index groups items that it meets one by one. It says no more than the items do: the group of
a list is the items of that list in their order (`itemsOf_ofItems`), a search among the names of
the groups is a search among the names of the items (`find?_names_ofItems`), and a name refers to
the list that `RefersTo` gives it by looking at the items alone (`resolve?_eq_some_iff`).

`matchesTerm_iff` puts these together: a trigger matches a term when one of its placeholders
refers to a list with an item that holds a word of the term.
-/

namespace VoiceIndex

/-! ## The last part of a name -/

/-- `part` is what follows the last `sep` in the text, or the text itself if it has none. -/
def IsAfterLast (sep : Char) (s part : String) : Prop :=
  sep ∉ part.toList ∧ (s = part ∨ ∃ front, s.toList = front ++ sep :: part.toList)

/-- `base` is what the name of a list ends with, folders and prefixes aside. -/
def HasBase (listName base : String) : Prop :=
  ∃ file, IsAfterLast '/' listName file ∧ IsAfterLast '.' file base

theorem isAfterLast_iff {sep : Char} {s part : String} :
    IsAfterLast sep s part ↔ lastPart sep s = part := by
  have hiff : lastPart sep s = part ↔
      (s.toList.splitOnP (· == sep)).getLast? = some part.toList := by
    unfold lastPart Text.pieces
    rw [List.getLast?_map]
    cases h : (s.toList.splitOnP (· == sep)).getLast? with
    | none => exact absurd (List.getLast?_eq_none_iff.1 h) (List.splitOnP_ne_nil _ _)
    | some piece =>
      rw [Option.map_some, Option.getD_some, Option.some.injEq]
      exact ⟨fun h => by rw [← h, String.toList_ofList], fun h => by rw [h, String.ofList_toList]⟩
  rw [hiff, Chars.getLast?_splitOnP_iff]
  unfold IsAfterLast
  simp only [beq_eq_false_iff_ne, beq_iff_eq, String.toList_inj]
  constructor
  · rintro ⟨hsep, h⟩
    refine ⟨fun c hc hcs => hsep (hcs ▸ hc), ?_⟩
    rcases h with h | ⟨front, h⟩
    · exact .inl h
    · exact .inr ⟨front, sep, rfl, h⟩
  · rintro ⟨hsep, h⟩
    refine ⟨fun hc => hsep _ hc rfl, ?_⟩
    rcases h with h | ⟨front, _, rfl, h⟩
    · exact .inl h
    · exact .inr ⟨front, h⟩

theorem hasBase_iff {listName base : String} :
    HasBase listName base ↔ baseName listName = base := by
  unfold HasBase baseName
  simp only [isAfterLast_iff]
  exact ⟨fun ⟨file, hfile, hbase⟩ => by rw [hfile, hbase], fun h => ⟨_, rfl, h⟩⟩

/-! ## What a name refers to -/

/-- The list that a placeholder's name refers to, as the items have it: the list of that name if
it has an item, else the list of the first item whose list has the base of the name, if the name
has a base. -/
inductive RefersTo (items : List ListItem) (name : String) : String → Prop where
  | exact (h : ∃ i ∈ items, i.listName = name) : RefersTo items name name
  | byBase {base : String} {before after : List ListItem} {item : ListItem}
      (hname : ∀ i ∈ items, i.listName ≠ name)
      (hbase : IsAfterLast '.' name base) (hne : base ≠ "")
      (heq : items = before ++ item :: after) (hitem : HasBase item.listName base)
      (hfirst : ∀ i ∈ before, ¬ HasBase i.listName base) : RefersTo items name item.listName

namespace ListIndex

variable {items : List ListItem} {name list term : String}

/-! ## The groups -/

theorem lookup_insertItem (item : ListItem) (groups : List (String × List ListItem))
    (name : String) :
    (insertItem item groups).lookup name =
      if name = item.listName then some ((groups.lookup name).getD [] ++ [item])
      else groups.lookup name := by
  induction groups with
  | nil =>
    by_cases h : name = item.listName <;>
      simp [insertItem, List.lookup_cons, h, beq_eq_false_iff_ne.2]
  | cons group rest ih =>
    obtain ⟨key, members⟩ := group
    by_cases hk : key = item.listName <;> by_cases hn : name = key <;>
      simp_all [insertItem, List.lookup_cons, beq_eq_false_iff_ne.2]

theorem names_insertItem (item : ListItem) (groups : List (String × List ListItem)) :
    (insertItem item groups).map (·.1) =
      if item.listName ∈ groups.map (·.1) then groups.map (·.1)
      else groups.map (·.1) ++ [item.listName] := by
  induction groups with
  | nil => simp [insertItem]
  | cons group rest ih =>
    obtain ⟨key, members⟩ := group
    by_cases hk : key = item.listName
    · simp [insertItem, hk]
    · by_cases hr : item.listName ∈ rest.map (·.1) <;> simp_all [insertItem, eq_comm]

theorem ofItems_append (items : List ListItem) (item : ListItem) :
    (ofItems (items ++ [item])).groups = insertItem item (ofItems items).groups := by
  unfold ofItems
  rw [List.foldl_append]
  rfl

/-- No item is lost, repeated, or found under another list. -/
theorem itemsOf_ofItems (items : List ListItem) (name : String) :
    (ofItems items).itemsOf name = items.filter (·.listName = name) := by
  induction items using List.reverseRecOn with
  | nil => rfl
  | append_singleton items item ih =>
    unfold itemsOf at ih ⊢
    rw [ofItems_append, lookup_insertItem, List.filter_append, ← ih]
    by_cases hn : name = item.listName
    · simp [hn]
    · simp [hn, Ne.symm hn]

/-- The lists with a group are those that have an item. -/
theorem isSome_lookup_ofItems (items : List ListItem) (name : String) :
    ((ofItems items).groups.lookup name).isSome ↔ ∃ i ∈ items, i.listName = name := by
  induction items using List.reverseRecOn with
  | nil => simp [ofItems]
  | append_singleton items item ih =>
    rw [ofItems_append, lookup_insertItem]
    by_cases hn : name = item.listName
    · simp [hn]
    · rw [if_neg hn, ih]
      simp [or_and_right, exists_or, Ne.symm hn]

theorem names_ofItems_append (items : List ListItem) (item : ListItem) :
    (ofItems (items ++ [item])).names =
      if item.listName ∈ (ofItems items).names then (ofItems items).names
      else (ofItems items).names ++ [item.listName] := by
  unfold names
  rw [ofItems_append, names_insertItem]

theorem nodup_names_ofItems (items : List ListItem) : (ofItems items).names.Nodup := by
  induction items using List.reverseRecOn with
  | nil => exact List.nodup_nil
  | append_singleton items item ih =>
    rw [names_ofItems_append]
    split_ifs with hmem
    · exact ih
    · exact List.nodup_append.2 ⟨ih, by simp, fun a ha b hb => by
        rw [List.mem_singleton.1 hb]
        exact fun h => hmem (h ▸ ha)⟩

/-- Looking for a list among the groups, in the order of their first items, is looking for an item
of such a list. -/
theorem find?_names_ofItems (items : List ListItem) (p : String → Bool) :
    (ofItems items).names.find? p = (items.find? (p ·.listName)).map (·.listName) := by
  induction items using List.reverseRecOn with
  | nil => rfl
  | append_singleton items item ih =>
    rw [names_ofItems_append, List.find?_append, Option.map_or, ← ih]
    split_ifs with hmem
    · cases hp : p item.listName with
      | false => simp [hp]
      | true =>
        -- the list was met before, so that the search does not get as far as the new item
        have hsome : ((ofItems items).names.find? p).isSome :=
          List.find?_isSome.2 ⟨_, hmem, hp⟩
        obtain ⟨found, hfound⟩ := Option.isSome_iff_exists.1 hsome
        rw [hfound, Option.some_or]
    · rw [List.find?_append]
      cases hp : p item.listName <;> simp [hp]

/-! ## Resolution -/

theorem resolve?_eq_some_iff :
    (ofItems items).resolve? name = some list ↔ RefersTo items name list := by
  unfold resolve?
  by_cases hname : ∃ i ∈ items, i.listName = name
  · rw [if_pos ((isSome_lookup_ofItems items name).2 hname), Option.some.injEq]
    constructor
    · rintro rfl
      exact .exact hname
    · intro h
      cases h with
      | exact _ => rfl
      | byBase hno _ _ _ _ _ =>
        obtain ⟨i, hi, hin⟩ := hname
        exact absurd hin (hno i hi)
  · have hno : ∀ i ∈ items, i.listName ≠ name := fun i hi hin => hname ⟨i, hi, hin⟩
    rw [if_neg (mt (isSome_lookup_ofItems items name).1 hname)]
    simp only [find?_names_ofItems]
    constructor
    · intro h
      split_ifs at h with hne
      obtain ⟨item, hfind, rfl⟩ := Option.map_eq_some_iff.1 h
      obtain ⟨hitem, before, after, heq, hfirst⟩ := List.find?_eq_some_iff_append.1 hfind
      refine .byBase hno (isAfterLast_iff.2 rfl) hne heq (hasBase_iff.2 (by simpa using hitem)) ?_
      intro i hi hb
      simpa [hasBase_iff.1 hb] using hfirst i hi
    · intro h
      cases h with
      | exact h => exact absurd h hname
      | @byBase base before after item _ hbase hne heq hitem hfirst =>
        rw [isAfterLast_iff] at hbase
        rw [hbase, if_neg hne, Option.map_eq_some_iff]
        refine ⟨item, List.find?_eq_some_iff_append.2 ⟨?_, before, after, heq, ?_⟩, rfl⟩
        · simpa using hasBase_iff.1 hitem
        · intro i hi
          simpa using fun hb => hfirst i hi (hasBase_iff.2 hb)

/-! ## Answers -/

/-- A word of the term occurs in what is said or in what it stands for. -/
def HoldsWord (term : String) (item : ListItem) : Prop :=
  ∃ word ∈ Text.words term, word.toList <:+: (Text.lower item.spokenForm).toList ∨
    word.toList <:+: (Text.lower item.listValue).toList

/-- The clauses for a whole form add nothing: a form that equals a word holds it, and one that
equals the term holds the words of the term, of which there is one. -/
theorem answers_iff (term : String) (item : ListItem) :
    (!(Text.words term).isEmpty && answers term (Text.words term) item) = true ↔
      HoldsWord term item := by
  unfold answers HoldsWord
  simp only [Bool.and_eq_true, Bool.or_eq_true, List.any_eq_true, Text.contains_iff, beq_iff_eq,
    Bool.not_eq_true', List.isEmpty_eq_false_iff]
  constructor
  · rintro ⟨hwords, ⟨-, hterm⟩ | ⟨word, hword, (heq | hspoken) | hvalue⟩⟩
    · obtain ⟨word, hword⟩ := List.exists_mem_of_ne_nil _ hwords
      have hin := Text.infix_of_mem_words hword
      exact ⟨word, hword, .inl (hterm ▸ hin)⟩
    · exact ⟨word, hword, .inl (heq ▸ List.infix_refl _)⟩
    · exact ⟨word, hword, .inl hspoken⟩
    · exact ⟨word, hword, .inr hvalue⟩
  · rintro ⟨word, hword, hspoken | hvalue⟩
    · exact ⟨List.ne_nil_of_mem hword, .inr ⟨word, hword, .inl (.inr hspoken)⟩⟩
    · exact ⟨List.ne_nil_of_mem hword, .inr ⟨word, hword, .inr hvalue⟩⟩

theorem matchesTerm_iff (items : List ListItem) (term trigger : String) :
    (ofItems items).matchesTerm term trigger = true ↔
      ∃ name ∈ placeholders trigger, ∃ list, RefersTo items name list ∧
        ∃ item ∈ items, item.listName = list ∧ HoldsWord term item := by
  have hanswers : ∀ item, HoldsWord term item ↔
      Text.words term ≠ [] ∧ answers term (Text.words term) item = true := by
    intro item
    rw [← answers_iff, Bool.and_eq_true, Bool.not_eq_true', List.isEmpty_eq_false_iff]
  unfold matchesTerm
  simp only [Bool.and_eq_true, Bool.not_eq_true', List.isEmpty_eq_false_iff, List.any_eq_true,
    List.mem_filterMap, resolve?_eq_some_iff, itemsOf_ofItems, List.mem_filter,
    decide_eq_true_eq, hanswers]
  constructor
  · rintro ⟨hwords, list, ⟨name, hname, hrefers⟩, item, ⟨hitem, hlist⟩, hans⟩
    exact ⟨name, hname, list, hrefers, item, hitem, hlist, hwords, hans⟩
  · rintro ⟨name, hname, list, hrefers, item, hitem, hlist, hwords, hans⟩
    exact ⟨hwords, list, ⟨name, hname, hrefers⟩, item, ⟨hitem, hlist⟩, hans⟩

/-- **The index says what the items say.** A trigger matches a term when a placeholder in it
refers to a list with an item that holds a word of the term. The groups are the lists, each of
them once and with its items in their order, and whether an item answers a term depends on the
single words alone. -/
theorem index_agrees_with_items (items : List ListItem) (term trigger : String) :
    ((ofItems items).matchesTerm term trigger = true ↔
      ∃ name ∈ placeholders trigger, ∃ list, RefersTo items name list ∧
        ∃ item ∈ items, item.listName = list ∧ HoldsWord term item) ∧
    ((ofItems items).names.Nodup ∧
      ∀ name, (ofItems items).itemsOf name = items.filter (·.listName = name)) ∧
    ∀ item, (!(Text.words term).isEmpty && answers term (Text.words term) item) =
      (Text.words term).any fun word =>
        Text.contains (Text.lower item.spokenForm) word ||
          Text.contains (Text.lower item.listValue) word := by
  refine ⟨matchesTerm_iff items term trigger,
    ⟨nodup_names_ofItems items, itemsOf_ofItems items⟩, fun item => ?_⟩
  rw [Bool.eq_iff_iff, answers_iff]
  unfold HoldsWord
  simp only [List.any_eq_true, Bool.or_eq_true, Text.contains_iff]

end ListIndex

end VoiceIndex
