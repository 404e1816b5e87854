import VoiceIndex.Proofs.Index.Import
import VoiceIndex.Proofs.Query.FacetValues

/-!
# Offered values

Five of the filters of a search compare one value of a command with the one asked for. What is
offered for such a filter are values of commands too, without the blanks around them, and for the
applications all those that a file names. A search finds something for a value if and only if a
command is compared under just this value (`search_asking_ne_nil_iff`). In an index that grew from
command files this is so for everything offered if no file names a second application and no value
has blanks at its ends (`search_offered_iff`). A second application is offered in vain
(`second_application_not_found`).
-/

namespace VoiceIndex

/-! ## Filters that compare one value -/

/-- A filter that compares one value of a command with the one asked for. -/
inductive ExactFilter where
  | application
  | repository
  | operatingSystem
  | title
  | codeLanguage
  deriving DecidableEq, Repr

namespace ExactFilter

/-- The search that asks for this value and for nothing else. -/
def asking (value : String) (limit : UInt64) : ExactFilter → SearchOptions
  | application => { application := some value, maxResults := limit }
  | repository => { repository := some value, maxResults := limit }
  | operatingSystem => { operatingSystem := some value, maxResults := limit }
  | title => { title := some value, maxResults := limit }
  | codeLanguage => { codeLanguage := some value, maxResults := limit }

/-- The values that are offered for the filter. -/
def offered (values : FilterValues) : ExactFilter → List String
  | application => values.applications
  | repository => values.repositories
  | operatingSystem => values.operatingSystems
  | title => values.titles
  | codeLanguage => values.codeLanguages

/-- The value under which a command is compared. -/
def compared (c : CommandDraft) : ExactFilter → Option String
  | application => c.application
  | repository => c.repository
  | operatingSystem => c.operatingSystem
  | title => c.title
  | codeLanguage => c.codeLanguage

/-- The values that a command adds to those offered. -/
def listed (c : CommandDraft) (filter : ExactFilter) : List String :=
  if filter = application ∧ c.applications ≠ [] then c.applications
  else (filter.compared c).toList

variable {filter : ExactFilter} {value : String} {limit : UInt64}

/-- A search for a value keeps the commands that are compared under it. -/
theorem keeps_asking_iff (hvalue : value ≠ "") (items : List ListItem) (c : Command) :
    (filter.asking value limit).keeps items c = true ↔
      filter.compared c.content = some value := by
  have hasked : HasAsked (filter.asking value limit) c ↔
      filter.compared c.content = some value := by
    rw [← SearchOptions.passesFilters_iff]
    cases filter <;>
      simp [asking, compared, Command.content, SearchOptions.passesFilters, SearchOptions.passes,
        SearchOptions.active, hvalue]
  rw [← hasked]
  cases filter <;> exact SearchOptions.keeps_iff_hasAsked rfl rfl rfl

end ExactFilter

/-! ## What is offered -/

theorem ExactFilter.exists_of_mem_offered {s : Store} {filter : ExactFilter} {v : String}
    (h : v ∈ filter.offered s.filterValues) :
    v ≠ "" ∧ ∃ c ∈ s.commands, ∃ value ∈ filter.listed c.content, Text.trim value = v := by
  have hlisted : ∃ values, v ∈ facet values ∧
      ∀ value ∈ values, ∃ c ∈ s.commands, value ∈ filter.listed c.content := by
    cases filter with
    | application =>
      refine ⟨_, h, fun value hvalue => ?_⟩
      obtain ⟨c, hc, happ⟩ := List.mem_flatMap.1 hvalue
      refine ⟨c, hc, ?_⟩
      unfold Command.allApplications at happ
      by_cases hnone : c.applications = [] <;>
        simpa [listed, compared, Command.content, hnone] using happ
    | repository | operatingSystem | title | codeLanguage =>
      refine ⟨_, h, fun value hvalue => ?_⟩
      obtain ⟨c, hc, hfield⟩ := List.mem_filterMap.1 hvalue
      exact ⟨c, hc, by simp [listed, compared, Command.content, hfield]⟩
  obtain ⟨values, hv, hvalues⟩ := hlisted
  obtain ⟨hne, value, hvalue, htrim⟩ := exists_of_mem_facet hv
  obtain ⟨c, hc, hlisted⟩ := hvalues value hvalue
  exact ⟨hne, c, hc, value, hlisted, htrim⟩

/-- A search for a value finds something if and only if a command is compared under it. -/
theorem Store.search_asking_ne_nil_iff {s : Store} {filter : ExactFilter} {value : String}
    {limit : UInt64} (hvalue : value ≠ "") (hlimit : 0 < limit) :
    s.search (filter.asking value limit) ≠ [] ↔
      ∃ c ∈ s.commands, filter.compared c.content = some value := by
  have hroom : 0 < (filter.asking value limit).maxResults := by
    cases filter <;> exact hlimit
  rw [search_ne_nil_iff hroom]
  simp only [ExactFilter.keeps_asking_iff hvalue]

/-! ## An index that grew from command files -/

/-- The files whose commands are there after an import. -/
def ImportMode.holding : ImportMode → List SourceFile → List SourceFile → List SourceFile
  | refresh, _, files => files
  | append, held, files => held ++ files

variable (σ : Type) [DiskAccess (StateM σ)] in
/-- The database was filled by imports of files and of folders, and its commands are those of the
given command files. -/
inductive Database.FromFiles : List SourceFile → Database → Prop
  | new (snapshot? : Option Path) : FromFiles [] { snapshot? }
  | files {held : List SourceFile} {db : Database} (h : FromFiles held db) (clock : Clock)
      (mode : ImportMode) (files : List SourceFile) (w : σ) :
      FromFiles (mode.holding held files)
        ((db.importCommandFiles clock mode files : StateM σ _).run w).1.1
  | folder {held : List SourceFile} {db after : Database} (h : FromFiles held db)
      {mode : ImportMode} {report : ScanReport} (himport : Imports σ mode report db after) :
      FromFiles (mode.holding held report.commandFiles) after

namespace Database.FromFiles

variable {σ : Type} [DiskAccess (StateM σ)] {held : List SourceFile} {db : Database}

/-- The commands of the files are all there is. -/
theorem content_eq (h : FromFiles σ held db) :
    db.store.commands.map Command.content = held.flatMap SourceFile.commands := by
  have hholding {mode : ImportMode} {s after : Store} {held files : List SourceFile}
      (hs : s.commands.map Command.content = held.flatMap SourceFile.commands)
      (hafter : after.commandHolding =
        (mode.leaves s.commandHolding).add (files.flatMap SourceFile.commands)) :
      after.commands.map Command.content =
        (mode.holding held files).flatMap SourceFile.commands := by
    refine (congrArg Holding.said hafter).trans ?_
    cases mode with
    | refresh => rfl
    | append => exact (congrArg (· ++ _) hs).trans List.flatMap_append.symm
  induction h with
  | new snapshot? => rfl
  | @files held db h clock mode files w ih =>
    obtain ⟨w', hrun⟩ := exists_run_importCommandFiles clock mode files db w
    rw [hrun]
    refine hholding ih (Store.commandHolding_commandEdit (fun _ hdraft => ?_) clock mode db.store)
    exact SourceFile.content_ofDraft_commands hdraft
  | folder h himport ih => exact hholding ih (Prod.ext_iff.1 himport.holdings).1

end Database.FromFiles

/-- The application of a command is the first of those that its file names, if any. -/
theorem SourceFile.application_of_mem {file : SourceFile} {draft : CommandDraft}
    (h : draft ∈ file.commands) :
    draft.application = some (draft.applications.head?.getD everyApplication) := by
  obtain ⟨lines, block, rfl⟩ := CommandFile.exists_eq_draft h
  rfl

/-- A command is compared under the value that it adds to those offered, unless its file names a
second application. -/
theorem SourceFile.compared_of_listed {file : SourceFile} {draft : CommandDraft}
    {filter : ExactFilter} {value : String} (h : draft ∈ file.commands)
    (hone : filter = .application → draft.applications.length ≤ 1)
    (hvalue : value ∈ filter.listed draft) : filter.compared draft = some value := by
  unfold ExactFilter.listed at hvalue
  split_ifs at hvalue with happs
  · obtain ⟨rfl, hsome⟩ := happs
    obtain ⟨app, happlications⟩ : ∃ app, draft.applications = [app] :=
      List.length_eq_one_iff.1 (le_antisymm (hone rfl) (List.length_pos_iff.2 hsome))
    rw [happlications, List.mem_singleton] at hvalue
    show draft.application = some value
    rw [application_of_mem h, happlications, hvalue]
    rfl
  · exact Option.mem_toList.1 hvalue

namespace Database

section

variable {σ : Type} [DiskAccess (StateM σ)] {held : List SourceFile} {db : Database}

/-- **What is offered is found, unless it is a second application or lost blanks.** In an index that
grew from command files, a search for a value finds something if and only if a command of the files
is compared under just this value. So everything that is offered for a filter is found if no value
of the filter has blanks at its ends and, as to applications, no file names more than one. -/
theorem search_offered_iff (h : FromFiles σ held db) (filter : ExactFilter) :
    (∀ value limit, value ≠ "" → 0 < limit →
      (db.store.search (filter.asking value limit) ≠ [] ↔
        ∃ file ∈ held, ∃ draft ∈ file.commands, filter.compared draft = some value)) ∧
    ((filter = .application →
        ∀ file ∈ held, ∀ draft ∈ file.commands, draft.applications.length ≤ 1) →
      (∀ file ∈ held, ∀ draft ∈ file.commands, ∀ value ∈ filter.compared draft,
        Text.trim value = value) →
      ∀ value ∈ filter.offered db.store.filterValues, ∀ limit, 0 < limit →
        db.store.search (filter.asking value limit) ≠ []) := by
  have hfound (value : String) (limit : UInt64) (hvalue : value ≠ "") (hlimit : 0 < limit) :
      db.store.search (filter.asking value limit) ≠ [] ↔
        ∃ file ∈ held, ∃ draft ∈ file.commands, filter.compared draft = some value :=
    (Store.search_asking_ne_nil_iff hvalue hlimit).trans
      (exists_content_iff h.content_eq fun draft => filter.compared draft = some value)
  refine ⟨hfound, fun hone htrimmed v hoffered limit hlimit => ?_⟩
  obtain ⟨hne, hlisted⟩ := ExactFilter.exists_of_mem_offered hoffered
  obtain ⟨file, hfile, draft, hdraft, value, hvalue, htrim⟩ :=
    (exists_content_iff h.content_eq
      fun draft => ∃ value ∈ filter.listed draft, Text.trim value = v).1 hlisted
  have hcompared : filter.compared draft = some value :=
    SourceFile.compared_of_listed hdraft (fun happ => hone happ file hfile draft hdraft) hvalue
  rw [htrimmed file hfile draft hdraft value hcompared] at htrim
  exact (hfound v limit hne hlimit).2 ⟨file, hfile, draft, hdraft, htrim ▸ hcompared⟩

end

/-- An index with one command file. -/
def ofFile (file : SourceFile) : Database :=
  ((inMemory.importCommandFiles (fun _ => "") .append [file] : StateM Disk _).run default).1.1

theorem fromFiles_ofFile (file : SourceFile) : FromFiles Disk [file] (ofFile file) :=
  .files (.new none) (fun _ => "") .append [file] default

/-- A title that is offered, and found. -/
theorem search_offered_iff_titled :
    let file : SourceFile := ⟨⟨"user/mine/keys.talon"⟩, "title: Inbox\n-\ngo back: key(alt-left)"⟩
    "Inbox" ∈ ExactFilter.title.offered (ofFile file).store.filterValues ∧
      (ofFile file).store.search (ExactFilter.title.asking "Inbox" 1) ≠ [] := by
  intro file
  have hoffered : "Inbox" ∈ ExactFilter.title.offered (ofFile file).store.filterValues :=
    mem_facet_iff.2 (by decide +kernel)
  have htrimmed : ∀ file' ∈ [file], ∀ draft ∈ file'.commands,
      ∀ value ∈ ExactFilter.title.compared draft, Text.trim value = value := by decide +kernel
  have hone : ExactFilter.title = .application →
      ∀ file' ∈ [file], ∀ draft ∈ file'.commands, draft.applications.length ≤ 1 :=
    fun happ => by cases happ
  have hfound := (search_offered_iff (fromFiles_ofFile file) .title).2 hone htrimmed
  exact ⟨hoffered, hfound "Inbox" hoffered 1 (by decide)⟩

/-- A second application is offered, and nothing is found for it. -/
theorem second_application_not_found :
    let file : SourceFile :=
      ⟨⟨"user/mine/keys.talon"⟩, "app: chrome\napp: firefox\n-\ngo back: key(alt-left)"⟩
    FromFiles Disk [file] (ofFile file) ∧
      "firefox" ∈ ExactFilter.application.offered (ofFile file).store.filterValues ∧
      (ofFile file).store.search (ExactFilter.application.asking "firefox" 500) = [] := by
  intro file
  exact ⟨fromFiles_ofFile file, mem_facet_iff.2 (by decide +kernel), by decide +kernel⟩

end Database

end VoiceIndex
