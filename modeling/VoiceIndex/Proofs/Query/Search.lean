import Mathlib.Data.List.Basic
import VoiceIndex.Proofs.Query.ListIndex
import VoiceIndex.Proofs.Text.Lower
import VoiceIndex.Query.Search

/-!
# What a search finds

`Wanted` says which commands a search is for, without an index, a cut or a Boolean: which filters
ask for something and what a command has to have then (`AsksFor`), what the preferences add where
their filter asks for nothing, and where a scope lets the term occur (`Command.Matches`): in a text
that the scope reads, or in an item of a list that a placeholder refers to.

* `search_eq`: a search finds the first commands that are wanted, as they are and in their order.
* `search_nested`: a wider scope finds everything that a narrower one finds, in the same order. The
  spoken name is a part of the trigger between characters that end a word, so that its lower case
  occurs in the trigger's (`holds_trigger_of_spokenName`).
* `mem_search_of_item`: a command is found by a word of an item that its placeholders stand for.
-/

namespace VoiceIndex

open Chars (Delimited)

/-! ## Texts of a command -/

namespace Command

/-- The name is what precedes the first bracket of the trigger, without the blanks around it. -/
def IsSpokenName (c : Command) (name : String) : Prop :=
  ∃ front rest, c.trigger.toList = front ++ rest ∧ (∀ b ∈ front, b ∉ ['<', '\x7b', '(']) ∧
    (∀ b ∈ rest.head?, b ∈ ['<', '\x7b', '(']) ∧ name = Text.trim (.ofList front)

/-- The tag is a text between commas, without the blanks around it and not empty. -/
def IsTagged (c : Command) (tag : String) : Prop :=
  tag ≠ "" ∧ ∃ tags, c.tags = some tags ∧ ∃ piece, Delimited (· == ',') piece tags.toList ∧
    ',' ∉ piece ∧ tag = Text.trim (.ofList piece)

theorem opensPattern_iff {b : Char} : opensPattern b = true ↔ b ∈ ['<', '\x7b', '('] := by
  simp [opensPattern, or_assoc]

theorem isSpokenName_iff {c : Command} {name : String} :
    c.IsSpokenName name ↔ c.spokenName = name := by
  unfold IsSpokenName spokenName
  simp only [← opensPattern_iff]
  constructor
  · rintro ⟨front, rest, heq, hfront, hrest, rfl⟩
    have htake : c.trigger.toList.takeWhile (!opensPattern ·) = front := by
      rw [heq, List.takeWhile_append_of_pos (by simpa using hfront)]
      cases rest with
      | nil => simp
      | cons b rest => simp [hrest b rfl]
    rw [htake]
  · rintro rfl
    refine ⟨_, _, List.takeWhile_append_dropWhile.symm, fun b hb => ?_, fun b hb => ?_, rfl⟩
    · simpa using List.mem_takeWhile_imp hb
    · have hnot := List.head?_dropWhile_not (!opensPattern ·) c.trigger.toList
      rw [Option.mem_def] at hb
      simpa [hb] using hnot

theorem isTagged_iff {c : Command} {tag : String} : c.IsTagged tag ↔ tag ∈ c.tagList := by
  unfold IsTagged tagList
  cases c.tags with
  | none => simp
  | some tags =>
    simp only [Text.pieces, List.map_map, List.mem_filter, List.mem_map, Chars.mem_splitOnP_iff,
      Option.some.injEq, exists_eq_left', Function.comp_apply, beq_eq_false_iff_ne,
      decide_eq_true_eq]
    constructor
    · rintro ⟨hne, piece, hpiece, hcomma, rfl⟩
      exact ⟨⟨piece, ⟨hpiece, fun c hc heq => hcomma (heq ▸ hc)⟩, rfl⟩, hne⟩
    · rintro ⟨⟨piece, ⟨hpiece, hcomma⟩, rfl⟩, hne⟩
      exact ⟨hne, piece, hpiece, fun hc => hcomma _ hc rfl, rfl⟩

/-- In its trigger the spoken name stands between characters that end a word. -/
theorem delimited_spokenName (c : Command) :
    Delimited Case.isBreak c.spokenName.toList c.trigger.toList := by
  obtain ⟨front, rest, heq, -, hrest, hname⟩ := isSpokenName_iff.2 (Eq.refl c.spokenName)
  obtain ⟨a, b, htrim, ha, hb⟩ := Chars.exists_eq_trim front
  refine ⟨a, b ++ rest, ?_, fun d hd => ?_, fun d hd => ?_⟩
  · rw [heq, hname, Text.toList_trim, String.toList_ofList, ← List.append_assoc, ← htrim]
  · exact Case.isBreak_of_isBlank (ha d (List.mem_of_getLast? hd))
  · cases b with
    | nil =>
      have hbrackets : ['<', '{', '('].all Case.isBreak = true := by decide +kernel
      exact List.all_eq_true.1 hbrackets d (hrest d hd)
    | cons e b => exact Case.isBreak_of_isBlank (hb d (List.mem_of_head? hd))

end Command

/-! ## The term -/

theorem holds_iff {term text : String} :
    holds term text = true ↔ term.toList <:+: (Text.lower text).toList :=
  Text.contains_iff

theorem words_normalTerm (term : String) :
    Text.words (normalTerm term) = (Text.words term).map Text.lower := by
  unfold normalTerm
  rw [Text.words_lower, Text.words_trim]

/-- A term that is not empty has a word. -/
theorem words_normalTerm_ne_nil {term : String} (h : normalTerm term ≠ "") :
    Text.words (normalTerm term) ≠ [] := by
  rw [words_normalTerm]
  intro hnil
  have htrim : Chars.trim term.toList = [] :=
    Chars.words_eq_nil_iff.1 (List.map_eq_nil_iff.1 (List.map_eq_nil_iff.1 hnil))
  apply h
  unfold normalTerm Text.lower
  rw [Text.toList_trim, htrim]
  rfl

/-- The item answers the term, as a form of several words or by a single word. -/
inductive ListItem.Answers (item : ListItem) (term : String) : Prop where
  | isWord {word : String} (hword : word ∈ Text.words term)
      (h : Text.lower item.spokenForm = word)
  | formHolds {word : String} (hword : word ∈ Text.words term)
      (h : word.toList <:+: (Text.lower item.spokenForm).toList)
  | valueHolds {word : String} (hword : word ∈ Text.words term)
      (h : word.toList <:+: (Text.lower item.listValue).toList)
  | isTerm (hspace : ' ' ∈ (Text.lower item.spokenForm).toList)
      (h : Text.lower item.spokenForm = term)

/-- A placeholder of the trigger refers to a list with an item that answers the term. -/
def FoundInLists (items : List ListItem) (term trigger : String) : Prop :=
  ∃ name ∈ placeholders trigger, ∃ list, RefersTo items name list ∧
    ∃ item ∈ items, item.listName = list ∧ item.Answers term

theorem ListItem.answers_iff {item : ListItem} {term : String} (hterm : Text.words term ≠ []) :
    item.Answers term ↔ ListIndex.HoldsWord term item := by
  constructor
  · rintro (⟨hword, rfl⟩ | ⟨hword, h⟩ | ⟨hword, h⟩ | ⟨-, rfl⟩)
    · exact ⟨_, hword, .inl (List.infix_refl _)⟩
    · exact ⟨_, hword, .inl h⟩
    · exact ⟨_, hword, .inr h⟩
    · obtain ⟨word, hword⟩ := List.exists_mem_of_ne_nil _ hterm
      exact ⟨word, hword, .inl (Text.infix_of_mem_words hword)⟩
  · rintro ⟨word, hword, h | h⟩
    · exact .formHolds hword h
    · exact .valueHolds hword h

theorem foundInLists_iff {items : List ListItem} {term trigger : String}
    (hterm : Text.words term ≠ []) :
    (ListIndex.ofItems items).matchesTerm term trigger = true ↔
      FoundInLists items term trigger := by
  unfold FoundInLists
  simp only [ListIndex.matchesTerm_iff, ListItem.answers_iff hterm]

/-! ## Scopes -/

/-- The scope looks for the term in this text of the command. -/
def Scope.Reads (scope : Scope) (c : Command) (text : String) : Prop :=
  match scope with
  | .names | .spoken => c.IsSpokenName text
  | .script => text = c.script
  | .all => text = c.trigger ∨ text = c.script ∨ text = c.application ∨ c.title = some text ∨
      c.tags = some text

/-- The scope looks for the term in the lists as well. -/
def Scope.ReadsLists (scope : Scope) : Prop := scope = .spoken ∨ scope = .all

/-- The command matches the term within the scope. -/
def Command.Matches (c : Command) (items : List ListItem) (scope : Scope) (term : String) : Prop :=
  (∃ text, scope.Reads c text ∧ term.toList <:+: (Text.lower text).toList) ∨
    scope.ReadsLists ∧ FoundInLists items term c.trigger

theorem Command.matches_iff {c : Command} {items : List ListItem} {scope : Scope} {term : String}
    (hterm : Text.words term ≠ []) :
    c.holdsTerm (ListIndex.ofItems items) scope term = true ↔ c.Matches items scope term := by
  unfold holdsTerm Matches Scope.Reads Scope.ReadsLists
  cases scope with
  | names => simp [isSpokenName_iff, holds_iff]
  | script => simp [holds_iff]
  | spoken => simp [isSpokenName_iff, holds_iff, foundInLists_iff hterm]
  | all =>
    simp [holds_iff, foundInLists_iff hterm, Option.any_eq_true, or_and_right, exists_or, or_assoc]

/-! ## Filters and preferences -/

/-- The filter asks for a value: it is present and not empty. -/
def AsksFor (filter : Option String) (value : String) : Prop := filter = some value ∧ value ≠ ""

/-- The filter asks for nothing. -/
def IsUnset (filter : Option String) : Prop := filter = none ∨ filter = some ""

/-- The command has what the filters ask for. -/
structure HasAsked (o : SearchOptions) (c : Command) : Prop where
  application : ∀ value, AsksFor o.application value → c.application = value
  mode : ∀ value, AsksFor o.mode value → ∃ mode, c.mode = some mode ∧ value.toList <:+: mode.toList
  repository : ∀ value, AsksFor o.repository value → c.repository = some value
  tag : ∀ value, AsksFor o.tag value → c.IsTagged value
  operatingSystem : ∀ value, AsksFor o.operatingSystem value → c.operatingSystem = some value
  title : ∀ value, AsksFor o.title value → c.title = some value
  codeLanguage : ∀ value, AsksFor o.codeLanguage value → c.codeLanguage = some value

/-- What a search is for. -/
structure Wanted (o : SearchOptions) (items : List ListItem) (c : Command) : Prop
    extends HasAsked o c where
  preferred : IsUnset o.application → o.preferredApplications ≠ [] →
    Text.lower c.application = "global" ∨
      ∃ name ∈ o.preferredApplications, Text.lower c.application = Text.lower name
  notExcluded : IsUnset o.operatingSystem → ∀ os, c.operatingSystem = some os →
    ∀ name ∈ o.excludedOperatingSystems, Text.lower os ≠ Text.lower name
  term : Text.lower (Text.trim o.searchTerm) = "" ∨
    c.Matches items o.scope (Text.lower (Text.trim o.searchTerm))

namespace SearchOptions

variable {filter : Option String} {o : SearchOptions} {c : Command}

theorem passes_iff {p : String → Bool} :
    passes filter p = true ↔ ∀ value, AsksFor filter value → p value = true := by
  unfold passes active AsksFor
  cases filter with
  | none => simp
  | some asked => by_cases h : asked = "" <;> simp [h]

theorem isSome_active_iff : (active filter).isSome = true ↔ ¬ IsUnset filter := by
  unfold active IsUnset
  cases filter <;> simp

theorem passesFilters_iff : o.passesFilters c = true ↔ HasAsked o c := by
  unfold passesFilters
  simp only [Bool.and_eq_true, passes_iff, beq_iff_eq, Option.any_eq_true, Text.contains_iff,
    List.contains_iff_mem, ← Command.isTagged_iff]
  constructor
  · rintro ⟨⟨⟨⟨⟨⟨happ, hmode⟩, hrepo⟩, htag⟩, hos⟩, htitle⟩, hlang⟩
    exact ⟨happ, hmode, hrepo, htag, hos, htitle, hlang⟩
  · rintro ⟨happ, hmode, hrepo, htag, hos, htitle, hlang⟩
    exact ⟨⟨⟨⟨⟨⟨happ, hmode⟩, hrepo⟩, htag⟩, hos⟩, htitle⟩, hlang⟩

theorem isPreferred_iff : o.isPreferred c = true ↔
    (IsUnset o.application → o.preferredApplications ≠ [] →
      Text.lower c.application = "global" ∨
        ∃ name ∈ o.preferredApplications, Text.lower c.application = Text.lower name) := by
  unfold isPreferred everyApplication
  simp only [Bool.or_eq_true, isSome_active_iff, List.isEmpty_iff, beq_iff_eq,
    List.contains_iff_mem, List.mem_map, eq_comm (a := Text.lower c.application)]
  constructor
  · rintro (((hset | hnil) | hglobal) | hname) hunset hne
    · exact absurd hunset hset
    · exact absurd hnil hne
    · exact .inl hglobal
    · exact .inr hname
  · intro h
    by_cases hunset : IsUnset o.application
    · by_cases hne : o.preferredApplications = []
      · exact .inl (.inl (.inr hne))
      · rcases h hunset hne with hglobal | hname
        · exact .inl (.inr hglobal)
        · exact .inr hname
    · exact .inl (.inl (.inl hunset))

theorem isNotExcluded_iff : o.isNotExcluded c = true ↔
    (IsUnset o.operatingSystem → ∀ os, c.operatingSystem = some os →
      ∀ name ∈ o.excludedOperatingSystems, Text.lower os ≠ Text.lower name) := by
  unfold isNotExcluded
  simp only [Bool.or_eq_true, isSome_active_iff, Option.all_eq_true, Bool.not_eq_true',
    ← Bool.not_eq_true, List.contains_iff_mem, List.mem_map, not_exists, not_and]
  constructor
  · rintro (hset | h) hunset os hos name hname heq
    · exact hset hunset
    · exact h os hos name hname heq.symm
  · intro h
    by_cases hunset : IsUnset o.operatingSystem
    · exact .inr fun os hos name hname heq => h hunset os hos name hname heq.symm
    · exact .inl hunset

/-- Without filters and preferences every command may be a result. -/
theorem admits_plain {term : String} {scope : Scope} {limit : UInt64} :
    admits { searchTerm := term, scope := scope, maxResults := limit } c = true := by
  unfold admits
  rw [Bool.and_eq_true, Bool.and_eq_true, isNotExcluded_iff]
  exact ⟨⟨rfl, rfl⟩, by simp⟩

/-- Whether a search keeps a command. -/
def keeps (o : SearchOptions) (items : List ListItem) (c : Command) : Bool :=
  o.admits c && (normalTerm o.searchTerm == "" ||
    c.holdsTerm (ListIndex.ofItems items) o.scope (normalTerm o.searchTerm))

theorem keeps_iff {items : List ListItem} : o.keeps items c = true ↔ Wanted o items c := by
  have hterm : (normalTerm o.searchTerm == "" ||
        c.holdsTerm (ListIndex.ofItems items) o.scope (normalTerm o.searchTerm)) = true ↔
      normalTerm o.searchTerm = "" ∨ c.Matches items o.scope (normalTerm o.searchTerm) := by
    rw [Bool.or_eq_true, beq_iff_eq]
    by_cases hempty : normalTerm o.searchTerm = ""
    · simp [hempty]
    · rw [Command.matches_iff (words_normalTerm_ne_nil hempty)]
  unfold keeps admits
  simp only [Bool.and_eq_true, hterm, passesFilters_iff, isPreferred_iff, isNotExcluded_iff]
  constructor
  · rintro ⟨⟨⟨hasked, hpreferred⟩, hexcluded⟩, hterm⟩
    exact ⟨hasked, hpreferred, hexcluded, hterm⟩
  · rintro ⟨hasked, hpreferred, hexcluded, hterm⟩
    exact ⟨⟨⟨hasked, hpreferred⟩, hexcluded⟩, hterm⟩

/-- Without a term and without preferences, the filters alone decide. -/
theorem keeps_iff_hasAsked {items : List ListItem} (hterm : o.searchTerm = "")
    (hpreferred : o.preferredApplications = []) (hexcluded : o.excludedOperatingSystems = []) :
    o.keeps items c = true ↔ HasAsked o c := by
  rw [keeps_iff]
  refine ⟨Wanted.toHasAsked, fun h => ⟨h, fun _ hne => absurd hpreferred hne, ?_, .inl ?_⟩⟩
  · rw [hexcluded]
    simp
  · rw [hterm]
    decide

end SearchOptions

/-! ## Wider scopes -/

/-- The lower case of the spoken name occurs in the lower case of the trigger. -/
theorem holds_trigger_of_spokenName {term : String} {c : Command}
    (h : holds term c.spokenName = true) : holds term c.trigger = true := by
  rw [holds_iff, Text.toList_lower] at h ⊢
  exact h.trans (Chars.lower_infix_of_delimited c.delimited_spokenName)

namespace Scope

/-- The scope `wide` lets a command match wherever the scope `narrow` does. -/
def Within (narrow wide : Scope) : Prop :=
  ∀ (index : ListIndex) (term : String) (c : Command),
    c.holdsTerm index narrow term = true → c.holdsTerm index wide term = true

theorem names_within_spoken : Within .names .spoken := by
  intro index term c h
  unfold Command.holdsTerm at h ⊢
  rw [Bool.or_eq_true]
  exact .inl h

theorem script_within_all : Within .script .all := by
  intro index term c h
  unfold Command.holdsTerm at h ⊢
  simp [h]

theorem spoken_within_all : Within .spoken .all := by
  intro index term c h
  unfold Command.holdsTerm at h ⊢
  rcases Bool.or_eq_true_iff.1 h with hname | hlists
  · simp [holds_trigger_of_spokenName hname]
  · simp [hlists]

end Scope

/-! ## Results -/

namespace Store

theorem search_eq_take (s : Store) (o : SearchOptions) :
    s.search o = (s.commands.filter (o.keeps s.items)).take o.maxResults.toNat := rfl

theorem keeps_of_mem_search {s : Store} {o : SearchOptions} {c : Command} (h : c ∈ s.search o) :
    c ∈ s.commands ∧ o.keeps s.items c = true := by
  rw [search_eq_take] at h
  exact List.mem_filter.1 (List.mem_of_mem_take h)

/-- With room for a result, a search that keeps a command finds something. -/
theorem search_ne_nil_iff {s : Store} {o : SearchOptions} (hroom : 0 < o.maxResults) :
    s.search o ≠ [] ↔ ∃ c ∈ s.commands, o.keeps s.items c = true := by
  have hroom' : o.maxResults.toNat ≠ 0 := Nat.pos_iff_ne_zero.1 hroom
  rw [search_eq_take, Ne, List.take_eq_nil_iff, or_iff_right hroom', List.filter_eq_nil_iff]
  simp only [not_forall, not_not, exists_prop]

/-- With room for all commands nothing is cut off. -/
theorem search_of_length_le {s : Store} {o : SearchOptions}
    (hmax : s.commands.length ≤ o.maxResults.toNat) :
    s.search o = s.commands.filter (o.keeps s.items) := by
  rw [search_eq_take]
  exact List.take_of_length_le ((List.length_filter_le _ _).trans hmax)

open Classical in
/-- **A search finds what is wanted**: the first commands that are, as many as there may be
results, unchanged and in the order of the store. -/
theorem search_eq (s : Store) (o : SearchOptions) :
    s.search o = (s.commands.filter fun c => Wanted o s.items c).take o.maxResults.toNat := by
  have hkeeps : o.keeps s.items = fun c => decide (Wanted o s.items c) := by
    funext c
    rw [Bool.eq_iff_iff, SearchOptions.keeps_iff, decide_eq_true_iff]
  rw [search_eq_take, hkeeps]

theorem search_sublist_of_within {s : Store} {o : SearchOptions} {narrow wide : Scope}
    (hmax : s.commands.length ≤ o.maxResults.toNat) (h : narrow.Within wide) :
    (s.search { o with scope := narrow }).Sublist (s.search { o with scope := wide }) := by
  have hnarrow : s.commands.length ≤ { o with scope := narrow }.maxResults.toNat := hmax
  have hwide : s.commands.length ≤ { o with scope := wide }.maxResults.toNat := hmax
  rw [search_of_length_le hnarrow, search_of_length_le hwide]
  refine List.monotone_filter_right _ fun c hc => ?_
  obtain ⟨hadmits, hterm⟩ := Bool.and_eq_true_iff.1 hc
  refine Bool.and_eq_true_iff.2 ⟨hadmits, ?_⟩
  rw [Bool.or_eq_true] at hterm ⊢
  exact hterm.imp id (h _ _ c)

/-- A trigger with a capital sigma right before a bracket, a script with the same word, and a list
in a folder of its own. -/
def streets : Store where
  commands := [
    { id := 1, trigger := "ΟΔΟΣ<user.street>", script := "find(street)", application := "global",
      filePath := "", createdAt := "" },
    { id := 2, trigger := "go home", script := "find(οδος)", application := "maps",
      filePath := "", createdAt := "" }]
  items := [
    { id := 1, listName := "user.maps/street", spokenForm := "ΠΛΑΤΕΙΑ ΛΑΡΙΣΗΣ",
      listValue := "square", createdAt := "", importedAt := "" }]

/-- **A wider scope finds no less.** With room for all commands, what is found by name is found
where lists count as well, and that, like what is found in scripts, is found in all texts; every
time in the same order. -/
theorem search_nested {s : Store} {o : SearchOptions}
    (hmax : s.commands.length ≤ o.maxResults.toNat) :
    (s.search { o with scope := .names }).Sublist (s.search { o with scope := .spoken }) ∧
    (s.search { o with scope := .spoken }).Sublist (s.search { o with scope := .all }) ∧
    (s.search { o with scope := .script }).Sublist (s.search { o with scope := .all }) :=
  ⟨search_sublist_of_within hmax Scope.names_within_spoken,
    search_sublist_of_within hmax Scope.spoken_within_all,
    search_sublist_of_within hmax Scope.script_within_all⟩

/-- Each scope finds something: the first command is found by its name, the second in its script. -/
theorem search_nested_streets :
    (streets.search { searchTerm := " ΟΔΟΣ", scope := .names }).map (·.id) = [1] ∧
    (streets.search { searchTerm := " ΟΔΟΣ", scope := .script }).map (·.id) = [2] ∧
    streets.commands.length ≤ (500 : UInt64).toNat ∧
    (streets.search { searchTerm := " ΟΔΟΣ", scope := .names }).Sublist
      (streets.search { searchTerm := " ΟΔΟΣ", scope := .spoken }) ∧
    (streets.search { searchTerm := " ΟΔΟΣ", scope := .spoken }).Sublist
      (streets.search { searchTerm := " ΟΔΟΣ", scope := .all }) ∧
    (streets.search { searchTerm := " ΟΔΟΣ", scope := .script }).Sublist
      (streets.search { searchTerm := " ΟΔΟΣ", scope := .all }) :=
  ⟨by decide +kernel, by decide +kernel, by decide,
    search_nested (s := streets) (o := { searchTerm := " ΟΔΟΣ" }) (by decide)⟩

/-! ## Words of a list -/

theorem holdsWord_of_lower_eq {item : ListItem} {term word said : String}
    (hword : word ∈ Text.words term)
    (hsaid : said ∈ Text.words item.spokenForm ∨ said ∈ Text.words item.listValue)
    (heq : Text.lower word = Text.lower said) : ListIndex.HoldsWord (normalTerm term) item := by
  have hlower : ∀ text, said ∈ Text.words text →
      (Text.lower said).toList <:+: (Text.lower text).toList := by
    intro text hmem
    apply Text.infix_of_mem_words
    rw [Text.words_lower]
    exact List.mem_map_of_mem hmem
  refine ⟨Text.lower word, ?_, ?_⟩
  · rw [words_normalTerm]
    exact List.mem_map_of_mem hword
  · rw [heq]
    exact hsaid.imp (hlower _) (hlower _)

/-- **A command is found through its lists.** If a placeholder of the trigger refers to a list, an
item of the list has a word in its form or its value, and the term has the same word up to case,
then a search for the term, without filters and with room for all commands, finds the command. -/
theorem mem_search_of_item {s : Store} {c : Command} {item : ListItem} {maxResults : UInt64}
    {name list term word said : String} (hc : c ∈ s.commands)
    (hname : name ∈ placeholders c.trigger) (hlist : RefersTo s.items name list)
    (hitem : item ∈ s.items) (hin : item.listName = list) (hword : word ∈ Text.words term)
    (hsaid : said ∈ Text.words item.spokenForm ∨ said ∈ Text.words item.listValue)
    (heq : Text.lower word = Text.lower said) (hmax : s.commands.length ≤ maxResults.toNat) :
    c ∈ s.search { searchTerm := term, scope := .spoken, maxResults } ∧
    c ∈ s.search { searchTerm := term, scope := .all, maxResults } := by
  have hfound : (ListIndex.ofItems s.items).matchesTerm (normalTerm term) c.trigger = true :=
    (ListIndex.matchesTerm_iff _ _ _).2
      ⟨name, hname, list, hlist, item, hitem, hin, holdsWord_of_lower_eq hword hsaid heq⟩
  have hspoken : c ∈ s.search { searchTerm := term, scope := .spoken, maxResults } := by
    rw [search_of_length_le hmax, List.mem_filter]
    refine ⟨hc, ?_⟩
    simp [SearchOptions.keeps, SearchOptions.admits_plain, Command.holdsTerm, hfound]
  exact ⟨hspoken, (search_sublist_of_within (o := { searchTerm := term, maxResults }) hmax
    Scope.spoken_within_all).subset hspoken⟩

theorem mem_search_of_item_streets :
    streets.commands.head (by decide) ∈
      streets.search { searchTerm := "the Πλατεια", scope := .spoken, maxResults := 2 } ∧
    streets.commands.head (by decide) ∈
      streets.search { searchTerm := "the Πλατεια", scope := .all, maxResults := 2 } :=
  mem_search_of_item (c := streets.commands.head (by decide)) (List.head_mem _)
    (show "user.street" ∈ _ by decide +kernel)
    (ListIndex.resolve?_eq_some_iff.1 (show _ = some "user.maps/street" by decide +kernel))
    List.mem_cons_self rfl (show "Πλατεια" ∈ _ by decide +kernel)
    (.inl (show "ΠΛΑΤΕΙΑ" ∈ _ by decide +kernel)) (by decide +kernel) (by decide)

end Store

end VoiceIndex
