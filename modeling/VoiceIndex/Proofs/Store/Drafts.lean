import VoiceIndex.Proofs.Store.Run

/-!
# The drafts that a store holds

Of the drafts that come to a store turn after turn, some are held and some have gone with their kind
(`commandDrafts`, `itemDrafts`). The records of a store that grew from the empty one are the records
of the drafts that are held, one for each in their order, and each says what its draft says as far
as the limits allow (`texts_kept_within_limits`).
-/

namespace VoiceIndex

section

variable {α ρ : Type}

/-- The drafts that are held after a change. -/
def Change.drafts (held : List α) : Option (Change α) → List α
  | none => held
  | some (append drafts) => held ++ drafts
  | some (replace drafts) => drafts

variable {R : α → ρ → Prop} {make : Int64 → String → α → ρ}

theorem forall₂_recordsOf (h : ∀ draft id now, R draft (make id now draft)) (first : Int64)
    (clock : Clock) (drafts : List α) : List.Forall₂ R drafts (recordsOf make first clock drafts) := by
  refine List.forall₂_iff_get.2 ⟨by simp [recordsOf], fun k hk hk' => ?_⟩
  simp [recordsOf, h]

/-- A change does to the records what it does to the drafts. -/
theorem Change.forall₂_records (h : ∀ draft id now, R draft (make id now draft)) {held : List α}
    {old : List ρ} (hold : List.Forall₂ R held old) (next : Int64) (clock : Clock)
    (change? : Option (Change α)) :
    List.Forall₂ R (drafts held change?) (records make old next clock change?) := by
  match change? with
  | none => exact hold
  | some (append drafts) => exact List.rel_append hold (forall₂_recordsOf h next clock drafts)
  | some (replace drafts) => exact forall₂_recordsOf h 1 clock drafts

end

/-- The drafts of commands that are held after these turns, of those that were held before. -/
def commandDrafts (held : List CommandDraft) (turns : List Turn) : List CommandDraft :=
  turns.foldl (fun held t => Change.drafts held t.edit.commandChange?) held

/-- The drafts of list items that are held after these turns, of those that were held before. -/
def itemDrafts (held : List ItemDraft) (turns : List Turn) : List ItemDraft :=
  turns.foldl (fun held t => Change.drafts held t.edit.itemChange?) held

namespace Store

variable {s : Store}

/-- A turn keeps the records in step with the drafts. -/
theorem keptAs_edit {held : List CommandDraft} {heldItems : List ItemDraft}
    (hcommands : List.Forall₂ CommandDraft.KeptAs held s.commands)
    (hitems : List.Forall₂ ItemDraft.KeptAs heldItems s.items) (clock : Clock) (e : Edit) :
    List.Forall₂ CommandDraft.KeptAs (Change.drafts held e.commandChange?)
        (s.edit clock e).commands ∧
      List.Forall₂ ItemDraft.KeptAs (Change.drafts heldItems e.itemChange?)
        (s.edit clock e).items := by
  rw [commands_edit_eq, items_edit_eq]
  exact ⟨Change.forall₂_records CommandDraft.keptAs_ofDraft hcommands _ _ _,
    Change.forall₂_records ItemDraft.keptAs_ofDraft hitems _ _ _⟩

theorem keptAs_after {held : List CommandDraft} {heldItems : List ItemDraft}
    (hcommands : List.Forall₂ CommandDraft.KeptAs held s.commands)
    (hitems : List.Forall₂ ItemDraft.KeptAs heldItems s.items) (turns : List Turn) :
    List.Forall₂ CommandDraft.KeptAs (commandDrafts held turns) (s.after turns).commands ∧
      List.Forall₂ ItemDraft.KeptAs (itemDrafts heldItems turns) (s.after turns).items := by
  induction turns generalizing s held heldItems with
  | nil => exact ⟨hcommands, hitems⟩
  | cons t later ih =>
    obtain ⟨hcommands', hitems'⟩ := keptAs_edit hcommands hitems t.clock t.edit
    exact ih hcommands' hitems'

/-- **The records of a store that grew from the empty one are those of the drafts that it holds.**
Each text of a record is the one of its draft if that fits the limit, and else what the limit leaves
of it; so every text is within its limit. -/
theorem texts_kept_within_limits (turns : List Turn) :
    let s := empty.after turns
    (∀ c ∈ s.commands, c.content.WithinLimits) ∧ (∀ i ∈ s.items, i.content.WithinLimits) ∧
      List.Forall₂ CommandDraft.KeptAs (commandDrafts [] turns) s.commands ∧
      List.Forall₂ ItemDraft.KeptAs (itemDrafts [] turns) s.items := by
  intro s
  obtain ⟨hcommands, hitems⟩ := keptAs_after (s := empty) .nil .nil turns
  exact ⟨forall_mem_of_forall₂ hcommands fun _ _ h => h.withinLimits,
    forall_mem_of_forall₂ hitems fun _ _ h => h.withinLimits, hcommands, hitems⟩

/-- Texts that are too long, and an application to be found among those listed. -/
theorem texts_kept_within_limits_long :
    let long := String.ofList (List.replicate 201 'ß')
    let go : CommandDraft :=
      { trigger := long, script := "", application := some " ", applications := ["", "Code"],
        filePath := "a.talon" }
    let pen : ItemDraft := { listName := long, spokenForm := "pen", listValue := "pencil" }
    let clock : Clock := fun _ => ""
    let s := empty.after [⟨clock, .insertCommands [default, go]⟩, ⟨clock, .refreshCommands [go]⟩,
      ⟨clock, .insertItem pen⟩]
    (∃ c ∈ s.commands, c.content.WithinLimits ∧ c.application = "Code" ∧
        c.trigger.toList = List.replicate 200 'ß') ∧
      ∃ i ∈ s.items, i.content.WithinLimits ∧
          i.listName.toList = List.replicate 97 'ß' ++ ['.', '.', '.'] := by
  intro long go pen clock s
  obtain ⟨hcommands, hitems, -, -⟩ := texts_kept_within_limits
    [⟨clock, .insertCommands [default, go]⟩, ⟨clock, .refreshCommands [go]⟩,
      ⟨clock, .insertItem pen⟩]
  have hgo : Command.ofDraft 1 "" go ∈ s.commands := List.mem_singleton.2 rfl
  have hpen : ListItem.ofDraft 1 "" pen ∈ s.items := List.mem_singleton.2 rfl
  have hlong : long.toList = List.replicate 201 'ß' := String.toList_ofList
  have hlength : long.toList.length = 201 := by rw [hlong, List.length_replicate]
  have htrigger : (Command.ofDraft 1 "" go).trigger.toList = List.replicate 200 'ß' := by
    rw [(go.keptAs_ofDraft 1 "").trigger.of_long (by rw [hlength]; decide), hlong,
      List.take_replicate]
    rfl
  have hname : (ListItem.ofDraft 1 "" pen).listName.toList =
      List.replicate 97 'ß' ++ ['.', '.', '.'] := by
    rw [(pen.keptAs_ofDraft 1 "").listName.of_long (by rw [hlength]; decide), hlong,
      List.take_replicate]
    rfl
  exact ⟨⟨_, hgo, hcommands _ hgo, by decide +kernel, htrigger⟩, _, hpen, hitems _ hpen, hname⟩

end Store

end VoiceIndex
