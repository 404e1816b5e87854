import VoiceIndex.Proofs.Source.Application
import VoiceIndex.Proofs.Source.CommandFile

/-!
# What a header means

The last line with a key decides the value of the key, and says that there is none if nothing but
blanks follows the key (`Header.get_ofLines_eq_some_iff`). The applications are those that the lines
name, each where it is named first (`Header.applications_ofLines`). Lines that do neither could as
well be left out (`Header.ofLines_congr`). A file takes the header from the lines before its first
hyphen and the commands from those after it; `CommandFile.commands_carry_header` says what follows
for each command.
-/

namespace VoiceIndex

namespace ContextKey

theorem mem_all (key : ContextKey) : key ∈ all := by
  cases key <;> decide

/-- The last of the lines that begin with the key has this text after it. -/
def IsLastIn (key : ContextKey) (lines : List String) (rest : String) : Prop :=
  ∃ front line back, lines = front ++ line :: back ∧ Text.trim line = key.text ++ ":" ++ rest ∧
    ∀ l ∈ back, ¬ (key.text ++ ":").toList <+: (Text.trim l).toList

end ContextKey

namespace Header

variable {line : String} {lines lines' : List String}

/-! ## One line -/

theorem exists_eq_of_mem_keys {entry : String × (Header → Option String → Header)}
    (h : entry ∈ keys) : ∃ key : ContextKey, entry = (key.text ++ ":", key.set) := by
  simp only [keys, List.mem_cons, List.not_mem_nil, or_false] at h
  rcases h with rfl | rfl | rfl | rfl | rfl | rfl | rfl
  exacts [⟨.mode, rfl⟩, ⟨.os, rfl⟩, ⟨.tag, rfl⟩, ⟨.title, rfl⟩, ⟨.codeLanguage, rfl⟩,
    ⟨.language, rfl⟩, ⟨.hostname, rfl⟩]

/-- A line names an application, gives a key its value, or says nothing. -/
theorem line_cases (line : String) :
    (∃ app, application? line = some app ∧
      ∀ key : ContextKey, Text.after? (key.text ++ ":") line = none) ∨
    (∃ key rest, line = ContextKey.text key ++ ":" ++ rest) ∨
    application? line = none ∧ ∀ key : ContextKey, Text.after? (key.text ++ ":") line = none := by
  by_cases hkey : ∃ key rest, line = ContextKey.text key ++ ":" ++ rest
  · exact .inr (.inl hkey)
  · have hnone (key : ContextKey) : Text.after? (key.text ++ ":") line = none := by
      rw [Option.eq_none_iff_forall_ne_some]
      exact fun rest hrest => hkey ⟨key, rest, (Text.after?_eq_some_iff.1 hrest).symm⟩
    cases happ : application? line with
    | some app => exact .inl ⟨app, rfl, hnone⟩
    | none => exact .inr (.inr ⟨rfl, hnone⟩)

/-- No key begins with another, so that a line has one key at most. -/
theorem after?_of_ne {key other : ContextKey} (hne : other ≠ key) (rest : String) :
    Text.after? (other.text ++ ":") (key.text ++ ":" ++ rest) = none := by
  have hapart : ¬ (other.text ++ ":").toList <+: (key.text ++ ":").toList ∧
      ¬ (key.text ++ ":").toList <+: (other.text ++ ":").toList := by
    revert hne
    cases key <;> cases other <;> decide +kernel
  exact Text.after?_append_eq_none hapart.1 hapart.2

/-- A line that neither names an application nor begins with a key is passed over. -/
theorem read_of_says_nothing (happ : application? line = none)
    (hkeys : ∀ key : ContextKey, Text.after? (key.text ++ ":") line = none) (h : Header) :
    h.read line = h := by
  have hnone : keys.findSome? (fun entry => (Text.after? entry.1 line).map fun rest =>
      entry.2 h (value? rest)) = none := by
    rw [List.findSome?_eq_none_iff]
    intro entry hentry
    obtain ⟨key, rfl⟩ := exists_eq_of_mem_keys hentry
    rw [hkeys key]
    rfl
  unfold read
  rw [happ]
  exact congrArg (Option.getD · h) hnone

/-- The line that begins with a key decides its value, and any other line leaves it. -/
theorem get_read (key : ContextKey) (h : Header) (line : String) :
    key.get (h.read line).toContext =
      match Text.after? (key.text ++ ":") line with
      | some rest => value? rest
      | none => key.get h.toContext := by
  rcases line_cases line with ⟨app, happ, hkeys⟩ | ⟨other, rest, rfl⟩ | ⟨happ, hkeys⟩
  · rw [hkeys key]
    unfold read
    rw [happ]
    simp only
    split_ifs <;> rfl
  · rw [read_key, ContextKey.get_set]
    by_cases hkey : key = other
    · subst hkey
      rw [if_pos rfl, Text.after?_eq_some_iff.2 rfl]
    · rw [if_neg hkey, after?_of_ne hkey]
  · rw [hkeys key, read_of_says_nothing happ hkeys]

/-! ## All lines -/

theorem get_ofLines (key : ContextKey) (lines : List String) :
    key.get (ofLines lines).toContext =
      (lines.filterMap fun line =>
        Text.after? (key.text ++ ":") (Text.trim line)).getLast?.bind value? := by
  induction lines using List.reverseRecOn with
  | nil => cases key <;> rfl
  | append_singleton lines line ih =>
    rw [ofLines_concat, get_read, ih, List.filterMap_append]
    cases hafter : Text.after? (key.text ++ ":") (Text.trim line) <;> simp [hafter]

theorem isLastIn_iff {key : ContextKey} {rest : String} :
    key.IsLastIn lines rest ↔
      (lines.filterMap fun line =>
        Text.after? (key.text ++ ":") (Text.trim line)).getLast? = some rest := by
  rw [List.getLast?_filterMap, List.findSome?_eq_some_iff]
  unfold ContextKey.IsLastIn
  simp only [← Text.after?_eq_none_iff]
  constructor
  · rintro ⟨front, line, back, rfl, hline, hback⟩
    exact ⟨back.reverse, line, front.reverse, by simp, Text.after?_eq_some_iff.2 hline.symm,
      fun l hl => hback l (List.mem_reverse.1 hl)⟩
  · rintro ⟨back, line, front, hlines, hline, hback⟩
    exact ⟨front.reverse, line, back.reverse, by simpa using congrArg List.reverse hlines,
      (Text.after?_eq_some_iff.1 hline).symm, fun l hl => hback l (List.mem_reverse.1 hl)⟩

theorem value?_eq_some_iff {rest value : String} :
    value? rest = some value ↔ Text.isBlank rest = false ∧ value = Text.trim rest := by
  unfold value?
  rw [← Bool.not_eq_true, ← Text.trim_eq_empty_iff]
  by_cases hempty : Text.trim rest = "" <;> simp [hempty, eq_comm]

/-- **The last line with a key decides**: what follows the key is its value, unless only blanks
follow. -/
theorem get_ofLines_eq_some_iff {key : ContextKey} {value : String} :
    key.get (ofLines lines).toContext = some value ↔
      ∃ rest, key.IsLastIn lines rest ∧ Text.isBlank rest = false ∧ value = Text.trim rest := by
  rw [get_ofLines, Option.bind_eq_some_iff]
  simp only [← isLastIn_iff, value?_eq_some_iff]

/-- The line says something: it names an application or begins with a key. -/
def counts (line : String) : Bool :=
  (application? line).isSome || ContextKey.all.any fun key => Text.startsWith (key.text ++ ":") line

theorem read_of_not_counts (h : Header) (hcounts : counts line = false) : h.read line = h := by
  unfold counts at hcounts
  rw [Bool.or_eq_false_iff, Option.isSome_eq_false_iff, Option.isNone_iff_eq_none,
    List.any_eq_false] at hcounts
  refine read_of_says_nothing hcounts.1 (fun key => ?_) h
  rw [Text.after?_eq_none_iff, ← Text.startsWith_iff]
  exact hcounts.2 key key.mem_all

theorem ofLines_eq_foldl_filter (lines : List String) :
    ofLines lines = ((lines.map Text.trim).filter counts).foldl read {} := by
  unfold ofLines
  have hread : (fun h line => if counts (Text.trim line) then read h (Text.trim line) else h) =
      fun h line => read h (Text.trim line) := by
    funext h line
    cases hcounts : counts (Text.trim line) with
    | true => rw [if_pos rfl]
    | false => rw [if_neg Bool.false_ne_true, read_of_not_counts h hcounts]
  rw [List.foldl_filter, List.foldl_map, hread]

/-- **Lines that say nothing could as well be left out.** -/
theorem ofLines_congr
    (h : (lines.map Text.trim).filter counts = (lines'.map Text.trim).filter counts) :
    ofLines lines = ofLines lines' := by
  rw [ofLines_eq_foldl_filter, h, ← ofLines_eq_foldl_filter]

end Header

/-! ## Files -/

namespace CommandFile

/-- The lines before and after the first line of the file that is a hyphen with blanks around it. -/
def IsDividedInto (content : String) (above below : List String) : Prop :=
  ∃ hyphen, Text.lines content = above ++ hyphen :: below ∧ Text.trim hyphen = "-" ∧
    ∀ l ∈ above, Text.trim l ≠ "-"

theorem divide_eq_none {lines : List String} (h : ∀ l ∈ lines, Text.trim l ≠ "-") :
    divide lines = none := by
  induction lines with
  | nil => rfl
  | cons line lines ih =>
    obtain ⟨hline, hlines⟩ := List.forall_mem_cons.1 h
    rw [divide, if_neg hline, ih hlines]
    rfl

/-- A file with a hyphen is divided at the first one. -/
theorem exists_isDividedInto {content : String}
    (h : ¬ ∀ l ∈ Text.lines content, Text.trim l ≠ "-") :
    ∃ above below, IsDividedInto content above below := by
  have hsome : ((Text.lines content).find? (Text.trim · = "-")).isSome := by
    simpa [List.find?_isSome] using h
  obtain ⟨hyphen, hfind⟩ := Option.isSome_iff_exists.1 hsome
  obtain ⟨hhyphen, above, below, hlines, habove⟩ := List.find?_eq_some_iff_append.1 hfind
  exact ⟨above, below, hyphen, hlines, by simpa using hhyphen, fun l hl => by simpa using habove l hl⟩

theorem exists_isDividedInto_of_mem {path content : String} {found : CommandDraft}
    (h : found ∈ commands path content) : ∃ above below, IsDividedInto content above below := by
  refine exists_isDividedInto fun hnone => ?_
  unfold commands at h
  rw [divide_eq_none hnone] at h
  cases h

/-- The header is that of the lines above, and the commands are those of the lines below. -/
theorem IsDividedInto.commands_eq {content : String} {above below : List String}
    (h : IsDividedInto content above below) (path : String) :
    commands path content = (Block.ofLines below).map (draft path (Header.ofLines above)) := by
  obtain ⟨hyphen, hlines, hhyphen, habove⟩ := h
  unfold commands
  rw [hlines, divide_append habove hhyphen]

/-- **A header means what its last lines say.** Without a hyphen there are no commands. With one,
every command has, under each key, what the last line with the key gives above the hyphen, and has
nothing there if no line has the key or the last one has blanks only; and it has the applications
that the lines name, each one once. All lines above that do neither could be left out or be others,
and the lines below make no difference to the header. -/
theorem commands_carry_header (path content : String) :
    ((∀ l ∈ Text.lines content, Text.trim l ≠ "-") → commands path content = []) ∧
    ∀ above below, IsDividedInto content above below →
      (∀ draft ∈ commands path content,
        (∀ key value, ContextKey.get key draft.toContext = some value ↔
          ∃ rest, key.IsLastIn above rest ∧ Text.isBlank rest = false ∧
            value = Text.clip key.limit (Text.trim rest)) ∧
        draft.applications =
          (firstPer id (above.filterMap fun line => Header.application? (Text.trim line))).map
            (Text.clip Limit.application) ∧
        draft.application = some (draft.applications.head?.getD "global")) ∧
      ∀ other above' below', IsDividedInto other above' below' →
        (below' = below →
          (above'.map Text.trim).filter Header.counts =
            (above.map Text.trim).filter Header.counts →
          commands path other = commands path content) ∧
        (above' = above → ∀ draft ∈ commands path content, ∀ draft' ∈ commands path other,
          draft'.toContext = draft.toContext ∧ draft'.applications = draft.applications ∧
            draft'.application = draft.application) := by
  refine ⟨fun hnone => ?_, fun above below hdivided => ⟨fun found hfound => ?_,
    fun other above' below' hother => ⟨fun hbelow hcounts => ?_, fun habove => ?_⟩⟩⟩
  · unfold commands
    rw [divide_eq_none hnone]
  · rw [hdivided.commands_eq] at hfound
    obtain ⟨block, -, rfl⟩ := List.mem_map.1 hfound
    refine ⟨fun key value => ?_, ?_, rfl⟩
    · show key.get (Header.ofLines above).toContext.clip = some value ↔ _
      rw [ContextKey.get_clip, Option.map_eq_some_iff]
      simp only [Header.get_ofLines_eq_some_iff]
      constructor
      · rintro ⟨_, ⟨rest, hlast, hblank, rfl⟩, rfl⟩
        exact ⟨rest, hlast, hblank, rfl⟩
      · rintro ⟨rest, hlast, hblank, rfl⟩
        exact ⟨_, ⟨rest, hlast, hblank, rfl⟩, rfl⟩
    · rw [← Header.applications_ofLines]
      rfl
  · rw [hother.commands_eq, hdivided.commands_eq, hbelow, Header.ofLines_congr hcounts]
  · intro found hfound found' hfound'
    rw [hdivided.commands_eq] at hfound
    rw [hother.commands_eq, habove] at hfound'
    obtain ⟨block, -, rfl⟩ := List.mem_map.1 hfound
    obtain ⟨block', -, rfl⟩ := List.mem_map.1 hfound'
    exact ⟨rfl, rfl, rfl⟩

/-- A header that takes one value back, gives another twice, and has a key that ends in another
key. -/
theorem commands_carry_header_reset :
    let content := "mode: a\nos: mac\nlanguage: en\ncode.language: c\nmode: \napp: b\r\n" ++
      "app.exe: b.EXE\napp: d\n os: win \n - \ngo: up\nos: x"
    commands "a.talon" content ≠ [] ∧ ∀ draft ∈ commands "a.talon" content,
      draft.mode = none ∧ draft.operatingSystem = some "win" ∧ draft.language = some "en" ∧
        draft.applications = ["b", "d"] ∧ draft.application = some "b" := by
  intro content
  let above := ["mode: a", "os: mac", "language: en", "code.language: c", "mode: ", "app: b",
    "app.exe: b.EXE", "app: d", " os: win "]
  have hdivided : IsDividedInto content above ["go: up", "os: x"] :=
    ⟨" - ", by decide +kernel, by decide +kernel, by decide +kernel⟩
  refine ⟨?_, fun draft hdraft => ?_⟩
  · rw [hdivided.commands_eq, Ne, List.map_eq_nil_iff]
    decide +kernel
  obtain ⟨hvalue, happlications, happlication⟩ :=
    ((commands_carry_header "a.talon" content).2 above _ hdivided).1 draft hdraft
  have happs : draft.applications = ["b", "d"] := happlications.trans (by decide +kernel)
  have hmode : draft.mode = none := by
    rw [Option.eq_none_iff_forall_ne_some]
    intro value hmode
    obtain ⟨rest, hlast, hblank, -⟩ := (hvalue .mode value).1 hmode
    have hempty : ContextKey.mode.IsLastIn above "" := Header.isLastIn_iff.2 (by decide +kernel)
    rw [Header.isLastIn_iff] at hlast hempty
    obtain rfl : "" = rest := Option.some.inj (hempty.symm.trans hlast)
    exact absurd hblank (by decide)
  have hos : draft.operatingSystem = some "win" :=
    (hvalue .os "win").2
      ⟨" win", Header.isLastIn_iff.2 (by decide +kernel), by decide, by decide +kernel⟩
  have hlanguage : draft.language = some "en" :=
    (hvalue .language "en").2
      ⟨" en", Header.isLastIn_iff.2 (by decide +kernel), by decide, by decide +kernel⟩
  exact ⟨hmode, hos, hlanguage, happs, by rw [happlication, happs]; rfl⟩

end CommandFile

end VoiceIndex
