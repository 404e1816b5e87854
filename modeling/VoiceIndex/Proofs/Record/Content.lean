import Mathlib.Data.List.Forall2
import VoiceIndex.Proofs.Text.Limit
import VoiceIndex.Record.Command
import VoiceIndex.Record.ListItem

/-!
# What a record says

A record says what its draft says, within the limits: each text is the one of the draft if that
fits, and else what its limit leaves of it (`CommandDraft.KeptAs`, `ItemDraft.KeptAs`). For the
application of a command it is the text that `CommandDraft.Chooses` names. Texts that were kept so
are within their limits (`CommandDraft.KeptAs.withinLimits`, `ItemDraft.KeptAs.withinLimits`).
-/

namespace VoiceIndex

/-! ## The values of a context -/

/-- The keys of a header line that gives one value of the context. -/
inductive ContextKey where
  | mode | os | tag | title | codeLanguage | language | hostname
  deriving DecidableEq

namespace ContextKey

/-- The value in a context. -/
def get : ContextKey → Context → Option String
  | mode => (·.mode) | os => (·.operatingSystem) | tag => (·.tags) | title => (·.title)
  | codeLanguage => (·.codeLanguage) | language => (·.language) | hostname => (·.hostname)

/-- The greatest length of the value. -/
def limit : ContextKey → Nat
  | mode => Limit.mode | os => Limit.operatingSystem | tag => Limit.tags | title => Limit.title
  | codeLanguage => Limit.codeLanguage | language => Limit.language | hostname => Limit.hostname

theorem get_clip (key : ContextKey) (c : Context) :
    key.get c.clip = (key.get c).map (Text.clip key.limit) := by
  cases key <;> rfl

/-- A context is what it has under each key. -/
theorem ext_get {c d : Context} (h : ∀ key : ContextKey, key.get c = key.get d) : c = d := by
  cases c
  cases d
  congr
  exacts [h title, h mode, h os, h tag, h codeLanguage, h language, h hostname]

end ContextKey

/-! ## Records as drafts -/

/-- What a command says, its number and its time aside. -/
def Command.content (c : Command) : CommandDraft where
  toContext := c.toContext
  trigger := c.trigger
  script := c.script
  application := some c.application
  applications := c.applications
  filePath := c.filePath
  repository := c.repository

/-- What a list item says, its number and its times aside. -/
def ListItem.content (i : ListItem) : ItemDraft where
  listName := i.listName
  spokenForm := i.spokenForm
  listValue := i.listValue
  sourceFile := i.sourceFile

/-! ## Within the limits -/

/-- Every text of the draft is within its limit. -/
structure CommandDraft.WithinLimits (draft : CommandDraft) : Prop where
  trigger : draft.trigger.toList.length ≤ Limit.trigger
  script : draft.script.toList.length ≤ Limit.script
  application : ∀ app ∈ draft.application, app.toList.length ≤ Limit.application
  applications : ∀ app ∈ draft.applications, app.toList.length ≤ Limit.application
  context : ∀ key : ContextKey, ∀ value ∈ key.get draft.toContext,
    value.toList.length ≤ key.limit
  filePath : draft.filePath.toList.length ≤ Limit.filePath
  repository : ∀ name ∈ draft.repository, name.toList.length ≤ Limit.repository

/-- Every text of the draft is within its limit. -/
structure ItemDraft.WithinLimits (draft : ItemDraft) : Prop where
  listName : draft.listName.toList.length ≤ Limit.listName
  spokenForm : draft.spokenForm.toList.length ≤ Limit.spokenForm
  listValue : draft.listValue.toList.length ≤ Limit.listValue
  sourceFile : ∀ path ∈ draft.sourceFile, path.toList.length ≤ Limit.sourceFile

/-! ## Records of drafts -/

/-- The application that a draft is for: the one it gives, if there is something to see in it; else
the first such one that it lists; else every application. -/
inductive CommandDraft.Chooses (draft : CommandDraft) : String → Prop where
  | given {app : String} : draft.application = some app → Text.isBlank app = false →
      draft.Chooses app
  | listed {front back : List String} {app : String} :
      (∀ a ∈ draft.application, Text.isBlank a = true) →
      draft.applications = front ++ app :: back → (∀ a ∈ front, Text.isBlank a = true) →
      Text.isBlank app = false → draft.Chooses app
  | everyApplication : (∀ a ∈ draft.application, Text.isBlank a = true) →
      (∀ a ∈ draft.applications, Text.isBlank a = true) → draft.Chooses "global"

/-- The command says what the draft says, as far as the limits allow. -/
structure CommandDraft.KeptAs (draft : CommandDraft) (c : Command) : Prop where
  trigger : Text.IsCut Limit.trigger draft.trigger c.trigger
  script : Text.IsCut Limit.script draft.script c.script
  application : ∃ app, draft.Chooses app ∧ Text.IsCut Limit.application app c.application
  applications : List.Forall₂ (Text.IsCut Limit.application) draft.applications c.applications
  context : ∀ key : ContextKey,
    Option.Rel (Text.IsCut key.limit) (key.get draft.toContext) (key.get c.toContext)
  filePath : Text.IsCut Limit.filePath draft.filePath c.filePath
  repository : Option.Rel (Text.IsCut Limit.repository) draft.repository c.repository

/-- The list item says what the draft says, as far as the limits allow. -/
structure ItemDraft.KeptAs (draft : ItemDraft) (i : ListItem) : Prop where
  listName : Text.IsMarkedCut Limit.listName draft.listName i.listName
  spokenForm : Text.IsMarkedCut Limit.spokenForm draft.spokenForm i.spokenForm
  listValue : Text.IsMarkedCut Limit.listValue draft.listValue i.listValue
  sourceFile : Option.Rel (Text.IsMarkedCut Limit.sourceFile) draft.sourceFile i.sourceFile

section

variable {α β : Type} {R : α → β → Prop}

theorem rel_map {f : α → β} (h : ∀ a, R a (f a)) (o : Option α) : Option.Rel R o (o.map f) := by
  cases o with
  | none => exact .none
  | some a => exact .some (h a)

/-- What is at the right of a relation has something at its left. -/
theorem forall_mem_of_rel {P : β → Prop} {o : Option α} {o' : Option β} (h : Option.Rel R o o')
    (hP : ∀ a b, R a b → P b) : ∀ b ∈ o', P b := by
  intro b hb
  cases h with
  | none => cases hb
  | some hab =>
    cases hb
    exact hP _ b hab

theorem forall_mem_of_forall₂ {P : β → Prop} {l : List α} {l' : List β} (h : List.Forall₂ R l l')
    (hP : ∀ a b, R a b → P b) : ∀ b ∈ l', P b := by
  induction h with
  | nil => exact List.forall_mem_nil P
  | cons hab _ ih => exact List.forall_mem_cons.2 ⟨hP _ _ hab, ih⟩

/-- What holds of all at the left of a relation holds of all at its right, if it does so member by
member. -/
theorem forall_mem_iff_of_forall₂ {P : α → Prop} {Q : β → Prop} {l : List α} {l' : List β}
    (h : List.Forall₂ R l l') (hPQ : ∀ a b, R a b → (P a ↔ Q b)) :
    (∀ a ∈ l, P a) ↔ ∀ b ∈ l', Q b := by
  induction h with
  | nil => exact iff_of_true (List.forall_mem_nil P) (List.forall_mem_nil Q)
  | cons hab _ ih => rw [List.forall_mem_cons, List.forall_mem_cons, hPQ _ _ hab, ih]

end

theorem CommandDraft.chooses_mainApplication (draft : CommandDraft) :
    draft.Chooses draft.mainApplication := by
  have hblank {apps : List String} (h : ∀ a ∈ apps, ¬ (!Text.isBlank a) = true) :
      ∀ a ∈ apps, Text.isBlank a = true := fun a ha => by simpa using h a ha
  unfold mainApplication
  cases hfind : (draft.application.toList ++ draft.applications).find? (!Text.isBlank ·) with
  | none =>
    have hall := hblank (List.find?_eq_none.1 hfind)
    exact .everyApplication
      (fun a ha => hall a (List.mem_append_left _ (Option.mem_toList.2 ha)))
      fun a ha => hall a (List.mem_append_right _ ha)
  | some app =>
    obtain ⟨happ, front, back, heq, hfront⟩ := List.find?_eq_some_iff_append.1 hfind
    replace happ : Text.isBlank app = false := by simpa using happ
    replace hfront : ∀ a ∈ front, Text.isBlank a = true := by simpa using hfront
    rw [Option.getD_some]
    cases hgiven : draft.application with
    | none =>
      rw [hgiven] at heq
      exact .listed (by simp [hgiven]) heq hfront happ
    | some first =>
      -- the first of all is the one that is chosen, or one of the blank ones
      rw [hgiven, Option.toList_some, List.singleton_append] at heq
      cases front with
      | nil =>
        obtain ⟨rfl, -⟩ := List.cons.inj heq
        exact .given hgiven happ
      | cons blank front =>
        obtain ⟨rfl, hrest⟩ := List.cons.inj heq
        obtain ⟨hfirst, hfront⟩ := List.forall_mem_cons.1 hfront
        exact .listed (by simpa [hgiven] using hfirst) hrest hfront happ

/-- **The record of a draft says what the draft says, as far as the limits allow.** -/
theorem CommandDraft.keptAs_ofDraft (draft : CommandDraft) (id : Int64) (now : String) :
    draft.KeptAs (.ofDraft id now draft) where
  trigger := Text.isCut_clip _ _
  script := Text.isCut_clip _ _
  application := ⟨_, draft.chooses_mainApplication, Text.isCut_clip _ _⟩
  applications :=
    List.forall₂_map_right_iff.2 (List.forall₂_same.2 fun _ _ => Text.isCut_clip _ _)
  context key := by
    show Option.Rel _ (key.get draft.toContext) (key.get draft.toContext.clip)
    rw [key.get_clip]
    exact rel_map (Text.isCut_clip key.limit) _
  filePath := Text.isCut_clip _ _
  repository := rel_map (Text.isCut_clip _) _

theorem ItemDraft.keptAs_ofDraft (draft : ItemDraft) (id : Int64) (now : String) :
    draft.KeptAs (.ofDraft id now draft) where
  listName := Text.isMarkedCut_clipMarked _ _
  spokenForm := Text.isMarkedCut_clipMarked _ _
  listValue := Text.isMarkedCut_clipMarked _ _
  sourceFile := rel_map (Text.isMarkedCut_clipMarked _) _

theorem CommandDraft.KeptAs.withinLimits {draft : CommandDraft} {c : Command}
    (h : draft.KeptAs c) : c.content.WithinLimits where
  trigger := h.trigger.length_le
  script := h.script.length_le
  application := by
    rintro app ⟨rfl⟩
    obtain ⟨_, -, happ⟩ := h.application
    exact happ.length_le
  applications := forall_mem_of_forall₂ h.applications fun _ _ happ => happ.length_le
  context key := forall_mem_of_rel (h.context key) fun _ _ hvalue => hvalue.length_le
  filePath := h.filePath.length_le
  repository := forall_mem_of_rel h.repository fun _ _ hname => hname.length_le

theorem ItemDraft.KeptAs.withinLimits {draft : ItemDraft} {i : ListItem} (h : draft.KeptAs i) :
    i.content.WithinLimits where
  listName := h.listName.length_le (by decide)
  spokenForm := h.spokenForm.length_le (by decide)
  listValue := h.listValue.length_le (by decide)
  sourceFile := forall_mem_of_rel h.sourceFile fun _ _ hpath => hpath.length_le (by decide)

end VoiceIndex
