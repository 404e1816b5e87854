import VoiceIndex.Proofs.Query.Search
import VoiceIndex.Proofs.Text.Sigma

/-!
# Texts with the term in them

A search finds a command or a list item if the term, as it is compared, occurs in the lower case of
one of its texts. A term that stands in a text word for word does so as well if it is settled, and
only then in whatever text it stands; a term that is not is found at least where it stands between
characters that end a word (`Store.literal_found_iff`). A term that ends a word is not found in a
longer one (`Store.longer_word_not_found`).
-/

namespace VoiceIndex

open Chars (Delimited IsSettled)

/-! ## Texts of an item -/

/-- A search for list items looks for its term in this text of the item. -/
def ListItem.Reads (i : ListItem) (text : String) : Prop :=
  text = i.listName ∨ text = i.spokenForm ∨ text = i.listValue ∨ i.sourceFile = some text

theorem ListItem.holdsTerm_iff {i : ListItem} {term : String} :
    i.holdsTerm term = true ↔ ∃ text, i.Reads text ∧ term.toList <:+: (Text.lower text).toList := by
  simp [holdsTerm, Reads, holds_iff, Option.any_eq_true, or_and_right, exists_or, or_assoc]

/-! ## Where a term stands -/

/-- The term stands in the text word for word. -/
def StandsIn (term text : String) : Prop := (Text.trim term).toList <:+: text.toList

/-- The term stands in the text between characters that end a word, or at its ends. -/
def StandsApart (term text : String) : Prop :=
  Delimited Case.isBreak (Text.trim term).toList text.toList

theorem lower_infix_of_standsApart {term text : String} (h : StandsApart term text) :
    (normalTerm term).toList <:+: (Text.lower text).toList := by
  unfold normalTerm
  rw [Text.toList_lower, Text.toList_lower]
  exact Chars.lower_infix_of_delimited h

/-- Only of a settled term the lower case occurs wherever the term stands. -/
theorem isSettled_iff_lower_infix {term : String} :
    IsSettled (Text.trim term).toList ↔
      ∀ text, StandsIn term text → (normalTerm term).toList <:+: (Text.lower text).toList := by
  unfold StandsIn normalTerm
  simp only [Chars.isSettled_iff, Text.toList_lower]
  constructor
  · exact fun h text hin => h _ hin
  · intro h cs hin
    have htext := h (.ofList cs)
    rw [String.toList_ofList] at htext
    exact htext hin

namespace Store

variable {s : Store} {term : String} {p : String → Prop}

/-! ## Searches without filters -/

theorem mem_search_plain_iff {c : Command} {maxResults : UInt64}
    (hmax : s.commands.length ≤ maxResults.toNat) :
    c ∈ s.search { searchTerm := term, scope := .all, maxResults } ↔
      c ∈ s.commands ∧ (normalTerm term = "" ∨ c.Matches s.items .all (normalTerm term)) := by
  rw [search_of_length_le hmax, List.mem_filter]
  unfold SearchOptions.keeps
  rw [SearchOptions.admits_plain, Bool.true_and, Bool.or_eq_true, beq_iff_eq]
  by_cases hempty : normalTerm term = ""
  · simp [hempty]
  · rw [Command.matches_iff (words_normalTerm_ne_nil hempty)]

theorem mem_searchItems_iff {i : ListItem} {maxResults : Nat} (hmax : s.items.length ≤ maxResults) :
    i ∈ s.searchItems term maxResults ↔
      i ∈ s.items ∧ (normalTerm term = "" ∨ i.holdsTerm (normalTerm term) = true) := by
  unfold searchItems
  rw [List.take_of_length_le ((List.length_filter_le _ _).trans hmax), List.mem_filter,
    Bool.or_eq_true, beq_iff_eq]

/-- A search for the term in all texts, without filters and with room for all commands, finds every
command with a text of which `p` holds. -/
def FindsCommands (term : String) (p : String → Prop) : Prop :=
  ∀ (s : Store) (maxResults : UInt64), s.commands.length ≤ maxResults.toNat →
    ∀ c ∈ s.commands, (∃ text, Scope.all.Reads c text ∧ p text) →
      c ∈ s.search { searchTerm := term, scope := .all, maxResults }

/-- A search for the term with room for all list items finds every item with a text of which `p`
holds. -/
def FindsItems (term : String) (p : String → Prop) : Prop :=
  ∀ (s : Store) (maxResults : Nat), s.items.length ≤ maxResults →
    ∀ i ∈ s.items, (∃ text, i.Reads text ∧ p text) → i ∈ s.searchItems term maxResults

/-- A command that is nothing but its trigger. -/
def saying (trigger : String) : Command where
  id := 1
  trigger := trigger
  script := ""
  application := ""
  filePath := ""
  createdAt := ""

/-- An item that is nothing but the name of its list. -/
def listed (listName : String) : ListItem where
  id := 1
  listName := listName
  spokenForm := ""
  listValue := ""
  createdAt := ""
  importedAt := ""

/-- What occurs in an empty text occurs in every text. -/
theorem infix_of_infix_lower_empty {cs : List Char} (h : cs <:+: (Text.lower "").toList)
    (text : String) : cs <:+: text.toList := by
  have hnil : cs = [] := List.infix_nil.1 h
  rw [hnil]
  exact List.nil_infix

theorem findsCommands_iff : FindsCommands term p ↔
    ∀ text, p text → (normalTerm term).toList <:+: (Text.lower text).toList := by
  constructor
  · intro h text htext
    have hmax : { commands := [saying text] : Store }.commands.length ≤ (1 : UInt64).toNat :=
      Nat.le_refl 1
    have hfound := h _ 1 hmax (saying text) List.mem_cons_self ⟨text, .inl rfl, htext⟩
    rcases ((mem_search_plain_iff hmax).1 hfound).2 with hempty | ⟨read, hread, hin⟩ | ⟨-, hlists⟩
    · rw [hempty]
      exact List.nil_infix
    · rcases hread with rfl | rfl | rfl | hread | hread
      · exact hin
      · exact infix_of_infix_lower_empty hin _
      · exact infix_of_infix_lower_empty hin _
      · cases hread
      · cases hread
    · obtain ⟨-, -, -, -, item, hitem, -⟩ := hlists
      cases hitem
  · rintro h s maxResults hmax c hc ⟨text, hread, htext⟩
    exact (mem_search_plain_iff hmax).2 ⟨hc, .inr (.inl ⟨text, hread, h text htext⟩)⟩

theorem findsItems_iff : FindsItems term p ↔
    ∀ text, p text → (normalTerm term).toList <:+: (Text.lower text).toList := by
  constructor
  · intro h text htext
    have hmax : { items := [listed text] : Store }.items.length ≤ 1 := Nat.le_refl 1
    have hfound := h _ 1 hmax (listed text) List.mem_cons_self ⟨text, .inl rfl, htext⟩
    rcases ((mem_searchItems_iff hmax).1 hfound).2 with hempty | hholds
    · rw [hempty]
      exact List.nil_infix
    · obtain ⟨read, hread, hin⟩ := ListItem.holdsTerm_iff.1 hholds
      rcases hread with rfl | rfl | rfl | hread
      · exact hin
      · exact infix_of_infix_lower_empty hin _
      · exact infix_of_infix_lower_empty hin _
      · cases hread
  · rintro h s maxResults hmax i hi ⟨text, hread, htext⟩
    have hholds : i.holdsTerm (normalTerm term) = true :=
      ListItem.holdsTerm_iff.2 ⟨text, hread, h text htext⟩
    exact (mem_searchItems_iff hmax).2 ⟨hi, .inr hholds⟩

/-- **A term is found wherever it stands word for word, if and only if it is settled**: as to
commands and as to list items. A term that is not is found where it stands between characters that
end a word. -/
theorem literal_found_iff (term : String) :
    (FindsCommands term (StandsIn term) ↔ IsSettled (Text.trim term).toList) ∧
    (FindsItems term (StandsIn term) ↔ IsSettled (Text.trim term).toList) ∧
    FindsCommands term (StandsApart term) ∧ FindsItems term (StandsApart term) := by
  rw [findsCommands_iff, findsItems_iff, findsCommands_iff, findsItems_iff,
    isSettled_iff_lower_infix]
  exact ⟨.rfl, .rfl, fun _ => lower_infix_of_standsApart, fun _ => lower_infix_of_standsApart⟩

/-- Blanks around the term are not looked for, and one inside it is. -/
theorem literal_found_iff_back :
    StandsIn " O Ba " "GO Back" ∧
      saying "GO Back" ∈ { commands := [saying "GO Back"] : Store }.search
        { searchTerm := " O Ba ", scope := .all, maxResults := 1 } := by
  have hstands : StandsIn " O Ba " "GO Back" := ⟨['G'], ['c', 'k'], by decide +kernel⟩
  have hsettled : IsSettled (Text.trim " O Ba ").toList :=
    Chars.isSettled_of_not_mem (by decide +kernel)
  have hmax : { commands := [saying "GO Back"] : Store }.commands.length ≤ (1 : UInt64).toNat :=
    Nat.le_refl 1
  exact ⟨hstands, (literal_found_iff " O Ba ").1.2 hsettled _ 1 hmax _ List.mem_cons_self
    ⟨"GO Back", .inl rfl, hstands⟩⟩

/-- A word is not found in a longer one that begins with it, neither in a command nor in a list
item: the sigma that ends it is not the one in its midst. -/
theorem longer_word_not_found :
    let s : Store := { commands := [saying "ΟΔΟΣΗΜΑΝΣΗ"], items := [listed "ΟΔΟΣΗΜΑΝΣΗ"] }
    StandsIn "ΟΔΟΣ" "ΟΔΟΣΗΜΑΝΣΗ" ∧ s.search { searchTerm := "ΟΔΟΣ" } = [] ∧
      s.searchItems "ΟΔΟΣ" 500 = [] :=
  ⟨⟨[], ['Η', 'Μ', 'Α', 'Ν', 'Σ', 'Η'], by decide +kernel⟩, by decide +kernel, by decide +kernel⟩

end Store

end VoiceIndex
