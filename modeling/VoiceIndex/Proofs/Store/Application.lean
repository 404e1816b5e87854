import VoiceIndex.Proofs.Store.Drafts

/-!
# The application of a stored command

The application that a draft is for has something to see in it
(`CommandDraft.Chooses.isBlank_eq_false`), but it is cut to its limit only after it was chosen. So
the record shows none when the text begins with as many blanks as the limit allows
(`CommandDraft.HidesApplication`), and only then (`CommandDraft.KeptAs.isBlank_application_iff`). A
draft within the limits hides nothing. A record that shows no application is another one when it is
made again from its own texts (`Command.application_again_iff`); `Store.applications_seen_iff` says
when no stored command is such.
-/

namespace VoiceIndex

theorem Text.isBlank_clip_iff {limit : Nat} {s : String} :
    isBlank (clip limit s) = true ↔ ∀ c ∈ s.toList.take limit, VoiceIndex.isBlank c = true := by
  rw [isBlank, toList_clip, List.all_eq_true]

/-! ## Drafts -/

namespace CommandDraft

variable {draft : CommandDraft} {app : String}

/-- The application that the draft is for begins with so many blanks that the limit leaves nothing
else of it. -/
def HidesApplication (draft : CommandDraft) : Prop :=
  ∃ app, draft.Chooses app ∧ ∀ c ∈ app.toList.take 200, isBlank c = true

/-- There is something to see in the application that a draft is for. -/
theorem Chooses.isBlank_eq_false (h : draft.Chooses app) : Text.isBlank app = false := by
  cases h with
  | given _ hseen => exact hseen
  | listed _ _ _ hseen => exact hseen
  | everyApplication => decide

/-- A draft is for one application. -/
theorem Chooses.eq_mainApplication (h : draft.Chooses app) : app = draft.mainApplication := by
  unfold mainApplication
  cases h with
  | given hgiven hseen =>
    rw [hgiven, Option.toList_some, List.singleton_append, List.find?_cons_of_pos (by simp [hseen]),
      Option.getD_some]
  | @listed front back app hgiven hlisted hfront hseen =>
    have hfind : (draft.application.toList ++ draft.applications).find? (!Text.isBlank ·) =
        some app := by
      refine List.find?_eq_some_iff_append.2
        ⟨by simp [hseen], draft.application.toList ++ front, back, ?_, fun a ha => ?_⟩
      · rw [hlisted, List.append_assoc]
      · rcases List.mem_append.1 ha with ha | ha
        · simp [hgiven a (Option.mem_toList.1 ha)]
        · simp [hfront a ha]
    rw [hfind, Option.getD_some]
  | everyApplication hgiven hlisted =>
    have hfind : (draft.application.toList ++ draft.applications).find? (!Text.isBlank ·) =
        none := by
      refine List.find?_eq_none.2 fun a ha => ?_
      rcases List.mem_append.1 ha with ha | ha
      · simp [hgiven a (Option.mem_toList.1 ha)]
      · simp [hlisted a ha]
    rw [hfind]
    rfl

theorem hidesApplication_iff : draft.HidesApplication ↔
    Text.isBlank (Text.clip Limit.application draft.mainApplication) = true := by
  rw [Text.isBlank_clip_iff]
  constructor
  · rintro ⟨app, happ, hblank⟩
    obtain rfl := happ.eq_mainApplication
    exact hblank
  · exact fun hblank => ⟨_, draft.chooses_mainApplication, hblank⟩

/-- Within the limits nothing is cut, and so nothing is hidden. -/
theorem WithinLimits.clip_mainApplication (h : draft.WithinLimits) :
    Text.clip Limit.application draft.mainApplication = draft.mainApplication := by
  have hchosen := draft.chooses_mainApplication
  generalize draft.mainApplication = app at hchosen ⊢
  apply Text.clip_of_length_le
  cases hchosen with
  | given hgiven _ => exact h.application app hgiven
  | listed _ hlisted _ _ =>
    apply h.applications app
    rw [hlisted]
    exact List.mem_append_right _ List.mem_cons_self
  | everyApplication => decide

theorem WithinLimits.not_hidesApplication (h : draft.WithinLimits) : ¬ draft.HidesApplication := by
  rw [hidesApplication_iff, h.clip_mainApplication, Bool.not_eq_true]
  exact draft.chooses_mainApplication.isBlank_eq_false

/-- **The record of a draft shows an application unless the draft hides it.** -/
theorem KeptAs.isBlank_application_iff {c : Command} (h : draft.KeptAs c) :
    Text.isBlank c.application = true ↔ draft.HidesApplication := by
  obtain ⟨app, happ, hcut⟩ := h.application
  rw [hidesApplication_iff, hcut.eq_clip, happ.eq_mainApplication]

end CommandDraft

/-! ## Records that are made again -/

/-- **A record has the same application when it is made again from its own texts if and only if it
shows one.** -/
theorem Command.application_again_iff {c : Command} (h : c.content.WithinLimits) (id : Int64)
    (now : String) :
    (ofDraft id now c.content).application = c.application ↔
      Text.isBlank c.application = false := by
  constructor
  · intro hsame
    rw [← hsame, ← Bool.not_eq_true, (c.content.keptAs_ofDraft id now).isBlank_application_iff]
    exact h.not_hidesApplication
  · intro hseen
    have hchosen : c.content.Chooses c.application := .given rfl hseen
    calc (ofDraft id now c.content).application
        = Text.clip Limit.application c.content.mainApplication := rfl
      _ = c.content.mainApplication := h.clip_mainApplication
      _ = c.application := hchosen.eq_mainApplication.symm

/-! ## Stored commands -/

namespace Store

/-- **The application of a stored command can be seen unless its draft hides it.** After any turns
from the empty store on, the commands and the drafts that are held correspond one to one, and a
command shows no application just when its draft hides it. So every command shows one, and has the
same one when it is made again from its own texts, if and only if none of the drafts that are held
hides its application. -/
theorem applications_seen_iff (turns : List Turn) :
    let s := empty.after turns
    List.Forall₂ (fun draft c => Text.isBlank c.application = true ↔ draft.HidesApplication)
        (commandDrafts [] turns) s.commands ∧
      ((∀ c ∈ s.commands, Text.isBlank c.application = false ∧
          ∀ id now, (Command.ofDraft id now c.content).application = c.application) ↔
        ∀ draft ∈ commandDrafts [] turns, ¬ draft.HidesApplication) := by
  intro s
  have hkept : List.Forall₂ CommandDraft.KeptAs (commandDrafts [] turns) s.commands :=
    (keptAs_after (s := empty) .nil .nil turns).1
  refine ⟨hkept.imp fun _ _ h => h.isBlank_application_iff,
    (forall_mem_iff_of_forall₂ hkept fun draft c h => ?_).symm⟩
  have hagain := Command.application_again_iff h.withinLimits
  rw [← h.isBlank_application_iff, Bool.not_eq_true]
  exact ⟨fun hseen => ⟨hseen, fun id now => (hagain id now).2 hseen⟩, fun hboth => hboth.1⟩

/-- A draft for an application with so many blanks before its name. -/
def indented (blanks : Nat) : CommandDraft where
  trigger := "go"
  script := "x()"
  application := some (.ofList (List.replicate blanks ' ' ++ "code".toList))
  filePath := "a.talon"

theorem hidesApplication_indented_iff (blanks : Nat) :
    (indented blanks).HidesApplication ↔ 200 ≤ blanks := by
  let app := String.ofList (List.replicate blanks ' ' ++ "code".toList)
  have hlist : app.toList = List.replicate blanks ' ' ++ "code".toList := String.toList_ofList
  have hletter : 'c' ∈ app.toList := by
    rw [hlist]
    exact List.mem_append_right _ (by decide)
  have hseen : Text.isBlank app = false := by
    rw [Text.isBlank, List.all_eq_false]
    exact ⟨'c', hletter, by decide⟩
  have hchosen : (indented blanks).Chooses app := .given rfl hseen
  constructor
  · rintro ⟨app', happ', hblank⟩
    obtain rfl : app' = app := happ'.eq_mainApplication.trans hchosen.eq_mainApplication.symm
    by_contra hfew
    -- the first letter is among the two hundred characters
    obtain ⟨room, hroom⟩ := Nat.exists_eq_add_one.2 (Nat.sub_pos_of_lt (Nat.lt_of_not_le hfew))
    have hkept : 'c' ∈ app.toList.take 200 := by
      rw [hlist, List.take_append, List.length_replicate, hroom]
      exact List.mem_append_right _ List.mem_cons_self
    exact absurd (hblank 'c' hkept) (by decide)
  · intro hmany
    refine ⟨app, hchosen, fun c hc => ?_⟩
    rw [hlist, List.take_append_of_le_length (by simpa using hmany)] at hc
    obtain rfl : c = ' ' := List.eq_of_mem_replicate (List.mem_of_mem_take hc)
    decide

theorem applications_seen_iff_indented :
    let turns : List Turn := [⟨fun _ => "", .insertCommand (indented 199)⟩]
    (∀ draft ∈ commandDrafts [] turns, ¬ draft.HidesApplication) ∧
      ∀ c ∈ (empty.after turns).commands, Text.isBlank c.application = false := by
  intro turns
  have hnone : ∀ draft ∈ commandDrafts [] turns, ¬ draft.HidesApplication := by
    intro draft hdraft
    obtain rfl := List.mem_singleton.1 hdraft
    rw [hidesApplication_indented_iff]
    decide
  exact ⟨hnone, fun c hc => ((applications_seen_iff turns).2.2 hnone c hc).1⟩

/-- **An application that begins with two hundred blanks is stored as blanks**, and the command is for
every application when it is made again. -/
theorem application_cut_to_blank :
    ∃ c ∈ (empty.after [⟨fun _ => "", .insertCommand (indented 200)⟩]).commands,
      Text.isBlank c.application = true ∧
        (Command.ofDraft 2 "" c.content).application = "global" ∧
        (Command.ofDraft 2 "" c.content).application ≠ c.application := by
  let c := Command.ofDraft 1 "" (indented 200)
  have hkept : (indented 200).KeptAs c := (indented 200).keptAs_ofDraft 1 ""
  have hblank : Text.isBlank c.application = true :=
    hkept.isBlank_application_iff.2 ((hidesApplication_indented_iff 200).2 (Nat.le_refl 200))
  have hall : c.content.Chooses "global" := by
    refine .everyApplication (fun app happ => ?_) (List.forall_mem_nil _)
    have hgiven : some c.application = some app := happ
    rw [← Option.some.inj hgiven]
    exact hblank
  have hagain : (Command.ofDraft 2 "" c.content).application = "global" :=
    calc (Command.ofDraft 2 "" c.content).application
        = Text.clip Limit.application c.content.mainApplication := rfl
      _ = Text.clip Limit.application "global" := by rw [← hall.eq_mainApplication]
      _ = "global" := by decide
  refine ⟨c, List.mem_singleton_self c, hblank, hagain, ?_⟩
  rw [Ne, Command.application_again_iff hkept.withinLimits, hblank]
  decide

end Store

end VoiceIndex
