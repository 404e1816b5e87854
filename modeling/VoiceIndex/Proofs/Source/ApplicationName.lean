import Mathlib.Data.List.Nodup
import VoiceIndex.Proofs.Source.Header

/-!
# Names of applications

The blanks around the name of an application are taken away, and a name is listed once. What comes
after can undo this. When `.exe` is taken from the end of a name, a blank in front of it is left
(`Header.trim_iff_of_application?`), so that the name is another one when it is read again
(`Header.application?_app_iff`). When a name is cut to its limit, a blank may come to stand at its
end, and two names may become one. Nothing else can happen: `CommandFile.applications_normal_iff`
says when the names that a file gives come out in order.
-/

namespace VoiceIndex

open Text (StartsVisibly)

namespace Text

/-- The limit cuts the text right after a blank. -/
def IsCutAfterBlank (limit : Nat) (s : String) : Prop :=
  limit < s.toList.length ∧ ∃ c ∈ s.toList[limit - 1]?, VoiceIndex.isBlank c = true

/-- What is left of a text ends with a blank if the text does and fits, or if it is cut after one. -/
theorem StartsVisibly.trim_clip_iff {limit : Nat} {s : String} (h : StartsVisibly s)
    (hlimit : 0 < limit) : trim (Text.clip limit s) = Text.clip limit s ↔
      ¬ IsCutAfterBlank limit s ∧ (s.toList.length ≤ limit → trim s = s) := by
  unfold IsCutAfterBlank
  rcases Nat.lt_or_ge limit s.toList.length with hlong | hfits
  · have hlast : (Text.clip limit s).toList.getLast? = s.toList[limit - 1]? := by
      rw [toList_clip, List.getLast?_take, if_neg (by omega),
        List.getElem?_eq_getElem (show limit - 1 < s.toList.length by omega), Option.some_or]
    rw [(h.clip hlimit).trim_eq_self_iff, hlast]
    simp [hlong, Nat.not_le.2 hlong]
  · rw [clip_of_length_le hfits]
    simp [hfits, Nat.not_lt.2 hfits]

end Text

namespace Header

variable {name app line : String}

/-! ## Names that end in `.exe` -/

/-- The name ends in `.exe`, in any case, and has a blank before that. -/
def HasBlankBeforeExe (name : String) : Prop :=
  ∃ stem blank ending, name.toList = stem ++ blank :: ending ∧ isBlank blank = true ∧
    Chars.lowerAscii ending = ".exe".toList

theorem dropExe_of_append {stem ending : List Char} (hname : name.toList = stem ++ ending)
    (hending : Chars.lowerAscii ending = ".exe".toList) : dropExe name = .ofList stem := by
  have hlength : ending.length = 4 := by
    have hlower := congrArg List.length hending
    rwa [Chars.lowerAscii, List.length_map] at hlower
  have hcut : name.toList.length - 4 = stem.length := by
    rw [hname, List.length_append, hlength, Nat.add_sub_cancel]
  unfold dropExe
  simp only [hcut]
  rw [hname, List.drop_left, List.take_left]
  exact if_pos hending

theorem dropExe_cases (name : String) :
    (∃ stem ending, name.toList = stem ++ ending ∧ Chars.lowerAscii ending = ".exe".toList ∧
      dropExe name = .ofList stem) ∨ dropExe name = name := by
  unfold dropExe
  simp only
  split_ifs with hending
  · exact .inl ⟨_, _, (List.take_append_drop _ _).symm, hending, rfl⟩
  · exact .inr rfl

/-- **A blank before `.exe` is left**, and no other one. -/
theorem trim_dropExe_iff (h : Text.trim name = name) :
    Text.trim (dropExe name) = dropExe name ↔ ¬ HasBlankBeforeExe name := by
  constructor
  · rintro htrim ⟨stem, blank, ending, hname, hblank, hending⟩
    rw [List.append_cons] at hname
    rw [dropExe_of_append hname hending, Text.trim_eq_self_iff, String.toList_ofList] at htrim
    rw [htrim.2 blank (by simp)] at hblank
    cases hblank
  · intro hnone
    rcases dropExe_cases name with ⟨stem, ending, hname, hending, hdrop⟩ | hdrop
    · rw [hdrop, Text.trim_eq_self_iff, String.toList_ofList]
      refine ⟨fun c hc => ?_, fun c hc => ?_⟩
      · refine (Text.trim_eq_self_iff.1 h).1 c ?_
        rw [hname, List.head?_append_of_ne_nil _ (List.ne_nil_of_mem (List.mem_of_head? hc))]
        exact hc
      · obtain ⟨front, rfl⟩ := List.getLast?_eq_some_iff.1 hc
        rw [← Bool.not_eq_true]
        exact fun hblank => hnone ⟨front, c, ending, by simp [hname], hblank, hending⟩
    · rw [hdrop, h]

/-! ## Common names -/

/-- The names for what comes under many. -/
def commonNames : List String := ["powershell", "windows_terminal"]

theorem commonName_cases (name : String) :
    commonName name ∈ commonNames ∨ commonName name = name := by
  unfold commonName commonNames
  simp only
  split_ifs <;> simp

theorem commonName_of_mem (h : name ∈ commonNames) : commonName name = name := by
  revert name
  decide +kernel

theorem trim_of_mem_commonNames (h : name ∈ commonNames) : Text.trim name = name := by
  revert name
  decide +kernel

theorem commonName_commonName (name : String) : commonName (commonName name) = commonName name := by
  rcases commonName_cases name with hcommon | hself
  · exact commonName_of_mem hcommon
  · rw [hself, hself]

theorem trim_commonName (h : Text.trim name = name) :
    Text.trim (commonName name) = commonName name := by
  rcases commonName_cases name with hcommon | hself
  · exact trim_of_mem_commonNames hcommon
  · rw [hself, h]

/-! ## Header lines -/

/-- The line names a program with a blank before the `.exe` at its end, and no common name stands
for it. -/
def LeavesBlank (line : String) : Prop :=
  (∃ rest, line = "app.exe:" ++ rest ∧ HasBlankBeforeExe (Text.trim rest)) ∧
    application? line ≠ some "powershell" ∧ application? line ≠ some "windows_terminal"

/-- No other way to name an application leaves a blank. -/
theorem Names.trim_iff (h : Names line name) : Text.trim name = name ↔
    ¬ ∃ rest, line = "app.exe:" ++ rest ∧ HasBlankBeforeExe (Text.trim rest) := by
  have hother {start rest : String} (hline : line = start ++ rest)
      (hstart : ¬ "app.exe:".toList <+: start.toList)
      (hstart' : ¬ start.toList <+: "app.exe:".toList) :
      ¬ ∃ rest, line = "app.exe:" ++ rest ∧ HasBlankBeforeExe (Text.trim rest) := by
    rintro ⟨rest', hexe, -⟩
    have hnone : Text.after? "app.exe:" line = none := by
      rw [hline]
      exact Text.after?_append_eq_none hstart hstart'
    rw [Text.after?_eq_some_iff.2 hexe.symm] at hnone
    cases hnone
  cases h with
  | byName hline => exact iff_of_true (Text.trim_trim _) (hother hline (by decide) (by decide))
  | plainly hline => exact iff_of_true (Text.trim_trim _) (hother hline (by decide) (by decide))
  | @byProgram rest hline =>
    rw [trim_dropExe_iff (Text.trim_trim _)]
    refine not_congr ⟨fun hblank => ⟨rest, hline, hblank⟩, ?_⟩
    rintro ⟨rest', hline', hblank⟩
    obtain rfl : rest' = rest := String.append_right_inj _ |>.1 (hline'.symm.trans hline)
    exact hblank

/-- **Only a blank before `.exe` is left around a name.** -/
theorem trim_iff_of_application? (h : application? line = some app) :
    Text.trim app = app ↔ ¬ LeavesBlank line := by
  unfold LeavesBlank
  rw [h]
  obtain ⟨name, hnames, -, rfl⟩ := application?_eq_some_iff.1 h
  by_cases hcommon : commonName name ∈ commonNames
  · refine iff_of_true (trim_of_mem_commonNames hcommon) ?_
    rintro ⟨-, hpower, hterminal⟩
    rcases List.mem_pair.1 hcommon with heq | heq
    · exact hpower (congrArg some heq)
    · exact hterminal (congrArg some heq)
  · have hself : commonName name = name := (commonName_cases name).resolve_left hcommon
    have hother : some (commonName name) ≠ some "powershell" ∧
        some (commonName name) ≠ some "windows_terminal" := by
      constructor <;> intro heq <;> exact hcommon (by rw [Option.some.inj heq]; decide)
    rw [and_iff_left hother, hself, hnames.trim_iff]

/-- **A name is read as itself if it has no blank at its end.** -/
theorem application?_app_iff (h : application? line = some app) :
    application? ("app: " ++ app) = some app ↔ Text.trim app = app := by
  have hvisible : StartsVisibly app := startsVisibly_of_application? h
  obtain ⟨name, -, -, rfl⟩ := application?_eq_some_iff.1 h
  rw [application?_app_eq]
  constructor
  · intro hread
    split_ifs at hread
    have heq := Option.some.inj hread
    calc Text.trim (commonName name)
        = Text.trim (commonName (Text.trim (commonName name))) := by rw [heq]
      _ = commonName (Text.trim (commonName name)) := trim_commonName (Text.trim_trim _)
      _ = commonName name := heq
  · intro htrim
    have hne : commonName name ≠ "" := by
      intro hempty
      obtain ⟨c, hc, -⟩ := hvisible
      rw [hempty] at hc
      cases hc
    rw [htrim, if_neg hne, commonName_commonName]

/-- The name of the application ends with a blank when it has been cut to its limit: one before
`.exe` is left, or the limit cuts the name right after one. -/
def EndsInBlank (line : String) : Prop :=
  ∃ app, application? line = some app ∧ (Text.IsCutAfterBlank Limit.application app ∨
    app.toList.length ≤ Limit.application ∧ LeavesBlank line)

theorem trim_clip_iff_of_application? (h : application? line = some app) :
    Text.trim (Text.clip Limit.application app) = Text.clip Limit.application app ↔
      ¬ EndsInBlank line := by
  unfold EndsInBlank
  rw [(startsVisibly_of_application? h).trim_clip_iff (by decide), trim_iff_of_application? h, h]
  simp only [Option.some.injEq, exists_eq_left', not_or, not_and]

/-! ## Headers -/

/-- The applications that the lines name, as often as they do. -/
def namedIn (lines : List String) : List String :=
  lines.filterMap fun line => application? (Text.trim line)

theorem mem_applications_iff {lines : List String} :
    app ∈ (ofLines lines).applications ↔ app ∈ namedIn lines := by
  rw [applications_ofLines, mem_firstPer_id_iff, namedIn]

theorem nodup_applications (lines : List String) : (ofLines lines).applications.Nodup := by
  rw [applications_ofLines]
  exact pairwise_firstPer id _

theorem forall_trim_clip_iff (lines : List String) :
    (∀ app ∈ (ofLines lines).applications.map (Text.clip Limit.application), Text.trim app = app) ↔
      ∀ line ∈ lines, ¬ EndsInBlank (Text.trim line) := by
  simp only [List.forall_mem_map, mem_applications_iff, namedIn, List.mem_filterMap]
  constructor
  · intro h line hline hblank
    have ⟨app, happ, _⟩ := hblank
    exact (trim_clip_iff_of_application? happ).1 (h app ⟨line, hline, happ⟩) hblank
  · rintro h app ⟨line, hline, happ⟩
    exact (trim_clip_iff_of_application? happ).2 (h line hline)

/-- Names become one if they differ only in what is cut away. -/
theorem nodup_clip_iff (lines : List String) :
    ((ofLines lines).applications.map (Text.clip Limit.application)).Nodup ↔
      ∀ app ∈ namedIn lines, ∀ app' ∈ namedIn lines,
        app.toList.take Limit.application = app'.toList.take Limit.application → app = app' := by
  rw [List.nodup_map_iff_inj_on (nodup_applications lines)]
  simp only [mem_applications_iff, Text.clip, String.ofList_inj]

end Header

/-! ## Files -/

namespace CommandFile

/-- **When the applications of a command are in order.** Their names begin with something that can be
seen, and the first one is the application of the command. There are no blanks at their ends if and
only if no line of the header leaves one there, and no name is listed twice if and only if no two
names become one when they are cut. A name is read as itself if and only if the line that gives it
leaves no blank. -/
theorem applications_normal_iff (path content : String) :
    (∀ draft ∈ commands path content, ∃ above below, IsDividedInto content above below ∧
      (∀ app ∈ draft.applications, StartsVisibly app) ∧
      draft.application = some (draft.applications.head?.getD "global") ∧
      ((∀ app ∈ draft.applications, Text.trim app = app) ↔
        ∀ line ∈ above, ¬ Header.EndsInBlank (Text.trim line)) ∧
      (draft.applications.Nodup ↔ ∀ app ∈ Header.namedIn above, ∀ app' ∈ Header.namedIn above,
        app.toList.take 200 = app'.toList.take 200 → app = app')) ∧
    ∀ line app, Header.application? line = some app →
      (Header.application? ("app: " ++ app) = some app ↔ ¬ Header.LeavesBlank line) := by
  refine ⟨fun found hfound => ?_, fun line app happ => ?_⟩
  · obtain ⟨above, below, hdivided⟩ := exists_isDividedInto_of_mem hfound
    rw [hdivided.commands_eq] at hfound
    obtain ⟨block, -, rfl⟩ := List.mem_map.1 hfound
    refine ⟨above, below, hdivided, List.forall_mem_map.2 fun app happ => ?_, rfl,
      Header.forall_trim_clip_iff above, Header.nodup_clip_iff above⟩
    exact (Header.startsVisibly_of_mem happ).clip (by decide)
  · rw [Header.application?_app_iff happ, Header.trim_iff_of_application? happ]

/-- Programs with a blank before `.exe`, one of them under a common name. -/
theorem applications_normal_iff_terminal :
    (∃ draft ∈ commands "a.talon" "app.exe: Terminal .exe\napp: Code\n-\ngo: x",
      draft.applications = ["windows_terminal", "Code"] ∧
        ∀ app ∈ draft.applications, StartsVisibly app) ∧
    Header.application? "app.exe: Terminal .exe" = some "windows_terminal" ∧
      ¬ Header.LeavesBlank "app.exe: Terminal .exe" ∧
    Header.application? "app.exe: Code .exe" = some "Code " ∧
      Header.LeavesBlank "app.exe: Code .exe" := by
  obtain ⟨draft, hdraft, happlications⟩ :
      ∃ draft ∈ commands "a.talon" "app.exe: Terminal .exe\napp: Code\n-\ngo: x",
        draft.applications = ["windows_terminal", "Code"] := by
    decide +kernel
  obtain ⟨hdrafts, hread⟩ := applications_normal_iff "a.talon"
    "app.exe: Terminal .exe\napp: Code\n-\ngo: x"
  obtain ⟨-, -, -, hvisible, -⟩ := hdrafts draft hdraft
  have hterminal : Header.application? "app.exe: Terminal .exe" = some "windows_terminal" := by
    decide +kernel
  have hcode : Header.application? "app.exe: Code .exe" = some "Code " := by decide +kernel
  refine ⟨⟨draft, hdraft, happlications, hvisible⟩, hterminal,
    (hread _ _ hterminal).1 (by decide +kernel), hcode, ?_⟩
  exact not_not.1 (mt (hread _ _ hcode).2 (by decide +kernel))

/-- **A blank before `.exe` stays at the end of the name**, which is another name when it is read
again. -/
theorem blank_left_before_exe :
    ((commands "a.talon" "app.exe: Code .exe\n-\ngo: x").map fun draft => draft.applications) =
      [["Code "]] ∧
    Text.trim "Code " ≠ "Code " ∧
    Header.application? "app.exe: Code .exe" = some "Code " ∧
    Header.application? ("app: " ++ "Code ") ≠ some "Code " := by
  decide +kernel

end CommandFile

end VoiceIndex
