import Mathlib.Data.List.Induction
import VoiceIndex.Proofs.Text.Blank
import VoiceIndex.Proofs.Text.Order
import VoiceIndex.Source.CommandFile

/-!
# The applications of a command file

The name of an application that a header gives begins with something that can be seen
(`Header.startsVisibly_of_mem`). It keeps this when it is cut to its limit, so that no command of
a file lacks its application: it is the first one of the header, or the one that stands for all of
them (`CommandFile.application_draft`).
-/

namespace VoiceIndex

namespace Text

/-- The first character is there and is not blank. -/
def StartsVisibly (s : String) : Prop := ∃ c ∈ s.toList.head?, VoiceIndex.isBlank c = false

theorem startsVisibly_trim {s : String} (h : trim s ≠ "") : StartsVisibly (trim s) := by
  obtain ⟨c, cs, heq⟩ := List.exists_cons_of_ne_nil (mt String.toList_eq_nil_iff.1 h)
  have hc : c ∈ (trim s).toList.head? := by rw [heq]; rfl
  refine ⟨c, hc, Chars.isBlank_head?_trim s.toList c ?_⟩
  rwa [toList_trim] at hc

namespace StartsVisibly

variable {s t : String}

/-- What begins such a text begins visibly too, if it is not empty. -/
theorem of_prefix (h : StartsVisibly s) (hfront : t.toList <+: s.toList) (hne : t ≠ "") :
    StartsVisibly t := by
  obtain ⟨c, hc, hvisible⟩ := h
  obtain ⟨rest, hrest⟩ := hfront
  refine ⟨c, ?_, hvisible⟩
  rwa [← hrest, List.head?_append_of_ne_nil _ (mt String.toList_eq_nil_iff.1 hne)] at hc

theorem clip (h : StartsVisibly s) {limit : Nat} (hlimit : 0 < limit) :
    StartsVisibly (clip limit s) := by
  obtain ⟨c, hc, hvisible⟩ := h
  refine ⟨c, ?_, hvisible⟩
  rwa [toList_clip, List.head?_take, if_neg (by omega)]

/-- Only a blank at the end is trimmed away. -/
theorem trim_eq_self_iff (h : StartsVisibly s) :
    trim s = s ↔ ∀ c ∈ s.toList.getLast?, VoiceIndex.isBlank c = false := by
  obtain ⟨c, hc, hvisible⟩ := h
  rw [Text.trim_eq_self_iff]
  refine and_iff_right fun d hd => ?_
  obtain rfl : c = d := Option.some.inj (hc.symm.trans hd)
  exact hvisible

theorem isBlank_eq_false (h : StartsVisibly s) : isBlank s = false := by
  obtain ⟨c, hc, hvisible⟩ := h
  rw [isBlank, List.all_eq_false]
  exact ⟨c, List.mem_of_head? hc, by simp [hvisible]⟩

end StartsVisibly

end Text

open Text (StartsVisibly)

namespace Header

variable {name app line : String}

theorem startsVisibly_dropExe (h : StartsVisibly name) (hne : dropExe name ≠ "") :
    StartsVisibly (dropExe name) := by
  refine h.of_prefix ?_ hne
  unfold dropExe
  simp only
  split_ifs
  · rw [String.toList_ofList]
    exact List.take_prefix _ _
  · exact List.prefix_refl _

theorem startsVisibly_commonName (h : StartsVisibly name) : StartsVisibly (commonName name) := by
  unfold commonName
  simp only
  split_ifs
  · exact ⟨'p', rfl, by decide⟩
  · exact ⟨'w', rfl, by decide⟩
  · exact h

/-- The ways in which a line names an application. -/
inductive Names (line : String) : String → Prop where
  | byName {rest : String} : line = "app.name:" ++ rest → Names line (Text.trim rest)
  | byProgram {rest : String} : line = "app.exe:" ++ rest → Names line (dropExe (Text.trim rest))
  | plainly {rest : String} : line = "app:" ++ rest → Names line (Text.trim rest)

/-- An application is known under the common name for what the line names, if anything is left of
it. -/
theorem application?_eq_some_iff : application? line = some app ↔
    ∃ name, Names line name ∧ name ≠ "" ∧ commonName name = app := by
  constructor
  · intro h
    unfold application? at h
    obtain ⟨name, hname, rfl⟩ := Option.map_eq_some_iff.1 h
    obtain ⟨hfound, hne⟩ := Option.filter_eq_some_iff.1 hname
    refine ⟨name, ?_, by simpa using hne, rfl⟩
    split at hfound
    case h_1 rest _ _ hrest =>
      obtain rfl := Option.some.inj hfound
      exact .byName (Text.after?_eq_some_iff.1 hrest).symm
    case h_2 rest _ _ hrest =>
      obtain rfl := Option.some.inj hfound
      exact .byProgram (Text.after?_eq_some_iff.1 hrest).symm
    case h_3 rest _ _ hrest =>
      obtain rfl := Option.some.inj hfound
      exact .plainly (Text.after?_eq_some_iff.1 hrest).symm
    case h_4 => cases hfound
  · rintro ⟨name, hnames, hne, rfl⟩
    have hself (start rest : String) : Text.after? start (start ++ rest) = some rest :=
      Text.after?_eq_some_iff.2 rfl
    have hother {start other : String} (h : ¬ other.toList <+: start.toList)
        (h' : ¬ start.toList <+: other.toList) (rest : String) :
        Text.after? other (start ++ rest) = none := Text.after?_append_eq_none h h'
    unfold application?
    cases hnames with
    | byName h =>
      rw [h, hself]
      simp [hne]
    | byProgram h =>
      rw [h, hself, hother (by decide) (by decide)]
      simp [hne]
    | plainly h =>
      rw [h, hself, hother (by decide) (by decide), hother (by decide) (by decide)]
      simp [hne]

theorem startsVisibly_of_application? (h : application? line = some app) : StartsVisibly app := by
  obtain ⟨name, hnames, hne, rfl⟩ := application?_eq_some_iff.1 h
  apply startsVisibly_commonName
  cases hnames with
  | byName => exact Text.startsVisibly_trim hne
  | byProgram =>
    refine startsVisibly_dropExe (Text.startsVisibly_trim fun hempty => hne ?_) hne
    rw [hempty]
    rfl
  | plainly => exact Text.startsVisibly_trim hne

/-- A key sets something else. -/
theorem applications_of_mem_keys {key : String × (Header → Option String → Header)}
    (hkey : key ∈ keys) (h : Header) (value : Option String) :
    (key.2 h value).applications = h.applications := by
  revert key
  simp [keys]

/-- A line adds the application that it names, if that is a new one. -/
theorem applications_read (h : Header) (line : String) :
    (h.read line).applications =
      match application? line with
      | some app => if app ∈ h.applications then h.applications else h.applications ++ [app]
      | none => h.applications := by
  unfold read
  cases happ : application? line with
  | some app => by_cases hmem : app ∈ h.applications <;> simp [hmem]
  | none =>
    simp only
    generalize hset : List.findSome? _ keys = h'?
    cases h'? with
    | none => rfl
    | some h' =>
      obtain ⟨key, hkey, hset⟩ := List.exists_of_findSome?_eq_some hset
      obtain ⟨rest, -, rfl⟩ := Option.map_eq_some_iff.1 hset
      exact applications_of_mem_keys hkey h (value? rest)

/-- **The applications are those that the lines name**, each where it is named first. -/
theorem applications_ofLines (lines : List String) :
    (ofLines lines).applications =
      firstPer id (lines.filterMap fun line => application? (Text.trim line)) := by
  induction lines using List.reverseRecOn with
  | nil => rfl
  | append_singleton lines line ih =>
    rw [ofLines_concat, applications_read, List.filterMap_append]
    cases happ : application? (Text.trim line) with
    | none => simp [happ, ih]
    | some app => simp [happ, ih, firstPer_concat, mem_firstPer_id_iff]

/-- **The name of an application begins with something that can be seen.** -/
theorem startsVisibly_of_mem {lines : List String} (h : app ∈ (ofLines lines).applications) :
    StartsVisibly app := by
  rw [applications_ofLines, mem_firstPer_id_iff] at h
  obtain ⟨line, -, happ⟩ := List.mem_filterMap.1 h
  exact startsVisibly_of_application? happ

end Header

namespace CommandFile

/-- **The application of a command is the first one of its file**, or the one for every
application. -/
theorem application_draft (path : String) (lines : List String) (block : Block) :
    (draft path (Header.ofLines lines) block).application =
      some (draft path (Header.ofLines lines) block).mainApplication := by
  have hlimit : 0 < Limit.application := by decide
  have hvisible : StartsVisibly (((Header.ofLines lines).applications.map
      (Text.clip Limit.application)).head?.getD everyApplication) := by
    cases happs : (Header.ofLines lines).applications with
    | nil => exact ⟨'g', rfl, by decide⟩
    | cons app rest =>
      have hmem : app ∈ (Header.ofLines lines).applications := by simp [happs]
      exact (Header.startsVisibly_of_mem hmem).clip hlimit
  unfold CommandDraft.mainApplication draft
  simp only [Option.toList_some, List.singleton_append]
  rw [List.find?_cons_of_pos (by rw [hvisible.isBlank_eq_false]; rfl), Option.getD_some]

end CommandFile

end VoiceIndex
