import Mathlib.Logic.Function.Basic
import Mathlib.Tactic.Choose
import VoiceIndex.Cli.Run
import VoiceIndex.Disk.Basic
import VoiceIndex.Proofs.Query.Scope

/-!
# The arguments of a search

Flags and words may be mixed among the arguments of a search, as long as each flag has a value after
it. How they are mixed makes no difference: the words make up the term, and of each flag the last
value counts (`AskedFor`). What the values for the scope and the limit stand for is said without
their readers (`Scope.IsAskedBy`, `IsLimit`).

The arguments are read from left to right, and after each part the options hold the last values of
the parts before (`readSearch_part`, `readSearch_append`). So a search does what its words and the
last values of its flags say, and a flag at the end without a value is refused before the index is
opened (`run_search_mixed`).
-/

namespace VoiceIndex.Cli

/-! ## Limits -/

/-- The text gives the limit in digits, and it is not zero. -/
def IsLimit (limit : UInt64) (text : String) : Prop :=
  Text.IsNumeral text limit.toNat ∧ 0 < limit.toNat

/-- **A text is read as the limit that it gives.** -/
theorem readLimit_eq_ok_iff {limit : UInt64} {text : String} :
    readLimit text = .ok limit ↔ IsLimit limit text := by
  unfold readLimit IsLimit
  constructor
  · intro h
    split at h
    · next n hn =>
      cases h
      rw [Option.filter_eq_some_iff, Text.counter?_eq_some_iff, decide_eq_true_eq] at hn
      obtain ⟨⟨hnumeral, hle⟩, hpos⟩ := hn
      have hlt : n < UInt64.size := Nat.lt_of_le_sub_one (by decide) hle
      rw [UInt64.toNat_ofNat_of_lt' hlt]
      exact ⟨hnumeral, hpos⟩
    · cases h
  · rintro ⟨hnumeral, hpos⟩
    have hle : limit.toNat ≤ maxLimit := Nat.le_sub_one_of_lt limit.toNat_lt_size
    rw [Text.counter?_eq_some_iff.2 ⟨hnumeral, hle⟩, Option.filter_some,
      if_pos (decide_eq_true hpos)]
    exact congrArg _ (UInt64.ofNat_toNat)

theorem IsLimit.unique {limit limit' : UInt64} {text : String} (h : IsLimit limit text)
    (h' : IsLimit limit' text) : limit = limit' :=
  UInt64.toNat_inj.1 (h.1.unique h'.1)

/-! ## Flags and words -/

namespace SearchFlag

/-- How a flag is written. -/
def text : SearchFlag → String
  | scope => "--scope"
  | application => "--app"
  | mode => "--mode"
  | repository => "--repo"
  | tag => "--tag"
  | operatingSystem => "--os"
  | title => "--title"
  | codeLanguage => "--language"
  | limit => "--limit"

theorem ofText?_text (flag : SearchFlag) : ofText? flag.text = some flag := by
  cases flag <;> rfl

theorem eq_text_of_ofText? {arg : String} {flag : SearchFlag} (h : ofText? arg = some flag) :
    arg = flag.text := by
  unfold ofText? at h
  split at h <;> cases h <;> rfl

theorem ofText?_eq_none {arg : String} (h : ∀ flag : SearchFlag, arg ≠ flag.text) :
    ofText? arg = none :=
  Option.eq_none_iff_forall_ne_some.2 fun flag hflag => h flag (eq_text_of_ofText? hflag)

/-- The flag takes any value, but for the scope and the limit, which have to be such. -/
def Takes : SearchFlag → String → Prop
  | scope, value => ∃ scope : Scope, scope.IsAskedBy value
  | limit, value => ∃ limit, IsLimit limit value
  | _, _ => True

end SearchFlag

/-- A part of the arguments of a search: a word, or a flag with its value. -/
inductive SearchPart where
  | word (text : String)
  | pair (flag : SearchFlag) (value : String)

namespace SearchPart

/-- The arguments that make up the part. -/
def arguments : SearchPart → List String
  | word text => [text]
  | pair flag value => [flag.text, value]

/-- A word is none of the flags, and a flag takes its value, which may look like anything. -/
def IsValid : SearchPart → Prop
  | word text => ∀ flag : SearchFlag, text ≠ flag.text
  | pair flag value => flag.Takes value

/-- The word that the part is. -/
def word? : SearchPart → Option String
  | word text => some text
  | pair _ _ => none

/-- The value that the part has for the flag. -/
def value? (flag : SearchFlag) : SearchPart → Option String
  | word _ => none
  | pair other value => if other = flag then some value else none

end SearchPart

/-! ## What is asked for -/

/-- The words among the parts. -/
def wordsOf (parts : List SearchPart) : List String := parts.filterMap SearchPart.word?

/-- The last value that the flag is given. -/
def lastValue? (flag : SearchFlag) (parts : List SearchPart) : Option String :=
  (parts.filterMap (SearchPart.value? flag)).getLast?

/-- What a value stands for, or what is usual where none is given. -/
def Gives {α : Type} (means : α → String → Prop) (usual : α) (value? : Option String) (a : α) :
    Prop :=
  match value? with
  | none => a = usual
  | some value => means a value

/-- The options hold the last values of the flags: each filter is that of its flag, the scope and
the limit are what those of theirs stand for, and where they are not given, the scope is all and the
limit that of the settings. What is preferred and what is excluded is said by the settings alone. -/
structure HoldsValues (settings : Settings) (last : SearchFlag → Option String)
    (o : SearchOptions) : Prop where
  scope : Gives Scope.IsAskedBy .all (last .scope) o.scope
  application : o.application = last .application
  mode : o.mode = last .mode
  repository : o.repository = last .repository
  tag : o.tag = last .tag
  operatingSystem : o.operatingSystem = last .operatingSystem
  title : o.title = last .title
  codeLanguage : o.codeLanguage = last .codeLanguage
  maxResults : Gives IsLimit settings.maxResults (last .limit) o.maxResults
  preferredApplications : o.preferredApplications = settings.preferredApplications
  excludedOperatingSystems : o.excludedOperatingSystems = settings.excludedOperatingSystems

/-- The options are what the parts ask for: they hold the last values of the flags, and the words
with single blanks between them are the term. -/
structure AskedFor (settings : Settings) (parts : List SearchPart) (o : SearchOptions) : Prop
    extends HoldsValues settings (lastValue? · parts) o where
  searchTerm : o.searchTerm = " ".intercalate (wordsOf parts)

section

variable {settings : Settings} {last : SearchFlag → Option String}
  {parts parts' before : List SearchPart} {part : SearchPart} {o o' : SearchOptions}

theorem Gives.unique {α : Type} {means : α → String → Prop} {usual a a' : α}
    {value? : Option String} (h : Gives means usual value? a) (h' : Gives means usual value? a')
    (hmeans : ∀ value, means a value → means a' value → a = a') : a = a' := by
  cases value? with
  | none => exact Eq.trans h (Eq.symm h')
  | some value => exact hmeans value h h'

/-- Parts ask for one thing only. -/
theorem AskedFor.unique (h : AskedFor settings parts o) (h' : AskedFor settings parts o') :
    o = o' := by
  have hscope : o.scope = o'.scope := h.scope.unique h'.scope fun _ => Scope.IsAskedBy.unique
  have hlimit : o.maxResults = o'.maxResults :=
    h.maxResults.unique h'.maxResults fun _ => IsLimit.unique
  obtain ⟨hvalues, hterm⟩ := h
  cases o
  cases o'
  rw [SearchOptions.mk.injEq]
  exact ⟨hterm.trans h'.searchTerm.symm, hscope, hvalues.application.trans h'.application.symm,
    hvalues.mode.trans h'.mode.symm, hvalues.repository.trans h'.repository.symm,
    hvalues.tag.trans h'.tag.symm, hvalues.operatingSystem.trans h'.operatingSystem.symm,
    hvalues.title.trans h'.title.symm, hvalues.codeLanguage.trans h'.codeLanguage.symm, hlimit,
    hvalues.preferredApplications.trans h'.preferredApplications.symm,
    hvalues.excludedOperatingSystems.trans h'.excludedOperatingSystems.symm⟩

/-- Parts with the same words and the same last values ask for the same. -/
theorem AskedFor.congr (h : AskedFor settings parts' o) (hwords : wordsOf parts' = wordsOf parts)
    (hlast : ∀ flag, lastValue? flag parts' = lastValue? flag parts) :
    AskedFor settings parts o := by
  have hvalues := h.toHoldsValues
  rw [show (lastValue? · parts') = (lastValue? · parts) from funext hlast] at hvalues
  exact { hvalues with searchTerm := hwords ▸ h.searchTerm }

theorem lastValue?_concat (flag : SearchFlag) (parts : List SearchPart) (part : SearchPart) :
    lastValue? flag (parts ++ [part]) = (part.value? flag).or (lastValue? flag parts) := by
  unfold lastValue?
  rw [List.filterMap_append, List.getLast?_append]
  cases h : part.value? flag <;> simp [h]

theorem lastValue?_word (parts : List SearchPart) (text : String) :
    (lastValue? · (parts ++ [.word text])) = (lastValue? · parts) := by
  funext flag
  exact lastValue?_concat flag parts (.word text)

theorem lastValue?_pair (parts : List SearchPart) (flag : SearchFlag) (value : String) :
    (lastValue? · (parts ++ [.pair flag value])) =
      Function.update (lastValue? · parts) flag (some value) := by
  funext other
  rw [lastValue?_concat, Function.update_apply, SearchPart.value?]
  simp only [eq_comm (a := other)]
  split_ifs <;> rfl

/-! ## Reading the arguments -/

theorem holdsValues_searchDefaults (settings : Settings) :
    HoldsValues settings (lastValue? · []) (searchDefaults settings) := by
  constructor <;> rfl

/-- A flag puts its value in the place of the one before. -/
theorem HoldsValues.set (h : HoldsValues settings last o) {flag : SearchFlag} {value : String}
    (htakes : flag.Takes value) : ∃ o', flag.set value o = .ok o' ∧
      HoldsValues settings (Function.update last flag (some value)) o' := by
  cases flag with
  | scope =>
    obtain ⟨scope, hscope⟩ := htakes
    refine ⟨{ o with scope }, ?_, { h with scope := hscope }⟩
    rw [SearchFlag.set, Scope.ofText_eq_ok_iff.2 hscope]
    rfl
  | limit =>
    obtain ⟨limit, hlimit⟩ := htakes
    refine ⟨{ o with maxResults := limit }, ?_, { h with maxResults := hlimit }⟩
    rw [SearchFlag.set, readLimit_eq_ok_iff.2 hlimit]
    rfl
  | application => exact ⟨_, rfl, { h with application := rfl }⟩
  | mode => exact ⟨_, rfl, { h with mode := rfl }⟩
  | repository => exact ⟨_, rfl, { h with repository := rfl }⟩
  | tag => exact ⟨_, rfl, { h with tag := rfl }⟩
  | operatingSystem => exact ⟨_, rfl, { h with operatingSystem := rfl }⟩
  | title => exact ⟨_, rfl, { h with title := rfl }⟩
  | codeLanguage => exact ⟨_, rfl, { h with codeLanguage := rfl }⟩

/-- **One part of the arguments is read.** It counts for what is still to come only by the options
that it leaves. -/
theorem readSearch_part (hpart : part.IsValid) (h : HoldsValues settings (lastValue? · before) o) :
    ∃ o', HoldsValues settings (lastValue? · (before ++ [part])) o' ∧ ∀ rest,
      readSearch o (part.arguments ++ rest) =
        (readSearch o' rest).map fun (o, words) => (o, part.word?.toList ++ words) := by
  cases part with
  | word text =>
    refine ⟨o, by rwa [lastValue?_word], fun rest => ?_⟩
    rw [SearchPart.arguments, List.singleton_append, readSearch, SearchFlag.ofText?_eq_none hpart]
    rfl
  | pair flag value =>
    obtain ⟨o', hset, h'⟩ := h.set hpart
    refine ⟨o', by rwa [lastValue?_pair], fun rest => ?_⟩
    rw [SearchPart.arguments, List.cons_append, List.singleton_append, readSearch,
      SearchFlag.ofText?_text]
    simp only [hset]
    cases readSearch o' rest <;> rfl

/-- **Many parts are read one by one.** By induction on them, whatever was before. -/
theorem readSearch_append (hparts : ∀ part ∈ parts, part.IsValid)
    (h : HoldsValues settings (lastValue? · before) o) :
    ∃ o', HoldsValues settings (lastValue? · (before ++ parts)) o' ∧ ∀ rest,
      readSearch o (parts.flatMap SearchPart.arguments ++ rest) =
        (readSearch o' rest).map fun (o, words) => (o, wordsOf parts ++ words) := by
  induction parts generalizing before o with
  | nil =>
    refine ⟨o, by rwa [List.append_nil], fun rest => ?_⟩
    show readSearch o rest = _
    cases readSearch o rest <;> rfl
  | cons part parts ih =>
    obtain ⟨hpart, hparts⟩ := List.forall_mem_cons.1 hparts
    obtain ⟨o₁, h₁, hread₁⟩ := readSearch_part hpart h
    obtain ⟨o₂, h₂, hread₂⟩ := ih hparts h₁
    rw [List.append_assoc, List.singleton_append] at h₂
    refine ⟨o₂, h₂, fun rest => ?_⟩
    rw [List.flatMap_cons, List.append_assoc, hread₁, hread₂]
    cases readSearch o₂ rest with
    | error e => rfl
    | ok found => cases part <;> rfl

/-- The options that are read are those that the parts ask for. -/
theorem exists_searchOptions_eq (settings : Settings) (h : ∀ part ∈ parts, part.IsValid) :
    ∃ o, AskedFor settings parts o ∧
      searchOptions settings (parts.flatMap SearchPart.arguments) = .ok o := by
  obtain ⟨o, hholds, hread⟩ := readSearch_append h (holdsValues_searchDefaults settings)
  have hall := hread []
  rw [List.append_nil] at hall
  refine ⟨{ o with searchTerm := " ".intercalate (wordsOf parts) },
    { hholds with searchTerm := rfl }, ?_⟩
  unfold searchOptions
  rw [hall]
  simp [readSearch, Except.map]

theorem searchOptions_eq (h : ∀ part ∈ parts, part.IsValid) (hasked : AskedFor settings parts o) :
    searchOptions settings (parts.flatMap SearchPart.arguments) = .ok o := by
  obtain ⟨o', hasked', hread⟩ := exists_searchOptions_eq settings h
  rw [hread, hasked.unique hasked']

/-- A flag without a value is refused, whatever was read before. -/
theorem searchOptions_lone (settings : Settings) (h : ∀ part ∈ parts, part.IsValid)
    (flag : SearchFlag) :
    searchOptions settings (parts.flatMap SearchPart.arguments ++ [flag.text]) =
      .error (.config (.valueMissing flag.text)) := by
  obtain ⟨o, -, hread⟩ := readSearch_append h (holdsValues_searchDefaults settings)
  unfold searchOptions
  rw [hread, readSearch, SearchFlag.ofText?_text]
  rfl

end

/-! ## The run of a search -/

/-- The arguments of a run are those of a search with these parts, `--verbose` aside. -/
structure IsSearch (argv : List String) (parts : List SearchPart) : Prop where
  arguments_eq :
    argv.filter (· ≠ "--verbose") = "search" :: parts.flatMap SearchPart.arguments
  isValid : ∀ part ∈ parts, part.IsValid

section

variable {m : Type → Type} [Monad m] [DiskAccess m]

/-- A search for what the options ask for that the settings give, if they give any. -/
def searchWith (clock : Clock) (env : Environment)
    (options? : Settings → Except Error SearchOptions) : Action m Unit := do
  let settings ← loadSettings env
  let options ← orFail (options? settings)
  let db ← indexForSearch clock env settings
  sayAll (searchLines options (db.store.search options))

/-- Loading the settings and failing then. -/
def refuse (env : Environment) (e : Error) : Action m Unit := do
  let _ ← loadSettings env
  throw e

/-- How a run ends that carries out the action. -/
def concluded (action : Action m Unit) : m Outcome := do
  let (result, t) ← action.run.run {}
  match result with
  | .ok () => return ⟨0, t.out, t.err⟩
  | .error e => return ⟨1, t.out, t.err ++ "Error: " ++ e.message ++ "\n"⟩

/-- The arguments of a search come in only by the options that they ask for. -/
theorem run_search {argv args : List String}
    (h : argv.filter (· ≠ "--verbose") = "search" :: args) (clock : Clock) (env : Environment) :
    (run clock env argv : m Outcome) = concluded (searchWith clock env (searchOptions · args)) := by
  unfold run
  rw [h]
  rfl

theorem run_of_isSearch {argv : List String} {parts : List SearchPart}
    {options : Settings → SearchOptions} (h : IsSearch argv parts)
    (hasked : ∀ settings, AskedFor settings parts (options settings)) (clock : Clock)
    (env : Environment) :
    (run clock env argv : m Outcome) =
      concluded (searchWith clock env fun settings => .ok (options settings)) := by
  rw [run_search h.arguments_eq]
  simp only [searchOptions_eq h.isValid (hasked _)]

theorem searchWith_error [LawfulMonad m] (clock : Clock) (env : Environment) (e : Error) :
    (searchWith clock env fun _ => .error e : Action m Unit) = refuse env e := by
  unfold searchWith refuse
  refine bind_congr fun settings => ExceptT.ext ?_
  simp [orFail]

/-- **A search does what its words and the last values of its flags say**, however flags and words
are mixed among its arguments. Its options are the ones that are asked for: the words with single
blanks between them are the term, each filter, the scope and the limit are the last value of their
flag, and where a flag is not given there is no filter, the scope is all and the limit is that of
the settings. So two searches with the same words in their order and the same last values do the
same. One more flag at the end, without a value, is refused once the settings are loaded. -/
theorem run_search_mixed [LawfulMonad m] {argv : List String} {parts : List SearchPart}
    (h : IsSearch argv parts) (clock : Clock) (env : Environment) :
    ∃ options : Settings → SearchOptions,
      (∀ settings o, AskedFor settings parts o ↔ o = options settings) ∧
      (∀ settings, searchOptions settings (parts.flatMap SearchPart.arguments) =
        .ok (options settings)) ∧
      (run clock env argv : m Outcome) =
        concluded (searchWith clock env fun settings => .ok (options settings)) ∧
      (∀ argv' parts', IsSearch argv' parts' → wordsOf parts' = wordsOf parts →
        (∀ flag, lastValue? flag parts' = lastValue? flag parts) →
        (run clock env argv' : m Outcome) = run clock env argv) ∧
      ∀ (flag : SearchFlag) (argv' : List String),
        argv'.filter (· ≠ "--verbose") = argv.filter (· ≠ "--verbose") ++ [flag.text] →
        (run clock env argv' : m Outcome) =
          concluded (refuse env (.config (.valueMissing flag.text))) := by
  choose options hasked hread using fun settings => exists_searchOptions_eq settings h.isValid
  refine ⟨options, fun settings o => ⟨fun ho => ho.unique (hasked settings), ?_⟩, hread,
    run_of_isSearch h hasked clock env, ?_, ?_⟩
  · rintro rfl
    exact hasked settings
  · intro argv' parts' h' hwords hlast
    have hasked' : ∀ settings, AskedFor settings parts' (options settings) := fun settings =>
      (hasked settings).congr hwords.symm fun flag => (hlast flag).symm
    rw [run_of_isSearch h' hasked', run_of_isSearch h hasked]
  · intro flag argv' hargv'
    rw [h.arguments_eq, List.cons_append] at hargv'
    rw [run_search hargv']
    simp only [searchOptions_lone _ h.isValid, searchWith_error]

end

/-- Flags before, between and after the words, one of them given twice and one with a value that
looks like a flag. The scope is given by a name in capitals, and then by its number. -/
theorem run_search_mixed_pen :
    searchOptions {} ["--scope", "NAMES", "pen", "--app", "--limit", "case", "--scope", " +03",
      "--limit", "7"] = .ok {
        searchTerm := "pen case"
        scope := .spoken
        application := some "--limit"
        maxResults := 7 } ∧
    (run (fun _ => "") {} ["search", "pen", "case", "--app", "--limit", "--limit", "7", "--scope",
      " +03"] : StateM Disk Outcome) =
      run (fun _ => "") {} ["search", "--scope", "NAMES", "pen", "--app", "--limit", "--verbose",
        "case", "--scope", " +03", "--limit", "7"] ∧
    (run (fun _ => "") {} ["search", "--scope", "NAMES", "pen", "--app", "--limit", "case",
      "--scope", " +03", "--limit", "7", "--tag"] : StateM Disk Outcome) =
      concluded (refuse {} (.config (.valueMissing "--tag"))) := by
  have hnames : Scope.names.IsAskedBy "NAMES" := .inr (by decide +kernel)
  have hspoken : Scope.spoken.IsAskedBy " +03" := .inl ⟨"+", 1, .inr rfl, by decide +kernel⟩
  have hseven : IsLimit 7 "7" := ⟨⟨"", 0, .inl rfl, by decide +kernel⟩, by decide⟩
  have hpen : (SearchPart.word "pen").IsValid := by intro flag; cases flag <;> decide
  have hcase : (SearchPart.word "case").IsValid := by intro flag; cases flag <;> decide
  have happ : (SearchPart.pair .application "--limit").IsValid := trivial
  have hscope : (SearchPart.pair .scope "NAMES").IsValid := ⟨_, hnames⟩
  have hscope' : (SearchPart.pair .scope " +03").IsValid := ⟨_, hspoken⟩
  have hlimit : (SearchPart.pair .limit "7").IsValid := ⟨_, hseven⟩
  have h : IsSearch ["search", "--scope", "NAMES", "pen", "--app", "--limit", "--verbose", "case",
      "--scope", " +03", "--limit", "7"] [.pair .scope "NAMES", .word "pen",
        .pair .application "--limit", .word "case", .pair .scope " +03", .pair .limit "7"] :=
    ⟨by decide, by simp [hscope, hpen, happ, hcase, hscope', hlimit]⟩
  have h' : IsSearch ["search", "pen", "case", "--app", "--limit", "--limit", "7", "--scope",
      " +03"] [.word "pen", .word "case", .pair .application "--limit", .pair .limit "7",
        .pair .scope " +03"] :=
    ⟨by decide, by simp [hpen, hcase, happ, hlimit, hscope']⟩
  obtain ⟨options, hoptions, hread, -, halike, hlone⟩ :=
    run_search_mixed (m := StateM Disk) h (fun _ => "") {}
  refine ⟨?_, halike _ _ h' rfl fun flag => by cases flag <;> rfl, hlone .tag _ rfl⟩
  refine (hread {}).trans (congrArg _ ((hoptions {} _).1 ?_).symm)
  exact ⟨⟨hspoken, rfl, rfl, rfl, rfl, rfl, rfl, rfl, hseven, rfl, rfl⟩, rfl⟩

end VoiceIndex.Cli
