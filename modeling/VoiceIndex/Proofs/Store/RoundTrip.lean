import VoiceIndex.Proofs.Json.Record
import VoiceIndex.Store.Format

/-!
# Stores read back

Every command and every list item is read back from its record, and a store from its text
(`Store.ofText_toText`).
-/

namespace VoiceIndex

open Json Fields

/-! ## Records -/

theorem ListItem.ofJson?_toJson (i : ListItem) : ofJson? i.toJson = some i := by
  unfold ofJson? toJson
  rw [of?_record]
  · simp [required, Fields.optional, List.lookup_cons]
  · decide
  · exact List.Sublist.refl fieldNames

theorem Command.ofJson?_toJson (c : Command) : ofJson? c.toJson = some c := by
  obtain ⟨context, id, trigger, script, application, applications, filePath, repository,
    createdAt⟩ := c
  unfold ofJson? toJson
  cases applications with
  | nil =>
    rw [of?_record]
    · simp only [applicationsMember, List.isEmpty_nil, if_true, List.append_nil, Context.members,
        List.cons_append, List.nil_append, required, withDefault, Context.ofFields?,
        Fields.optional, Option.pure_def, Option.bind_eq_bind, Option.bind_some,
        List.lookup_cons, List.lookup_nil, String.reduceBEq, int64?_ofInt64, text?_ofText,
        orNull?_ofText?]
    · decide
    · show List.Sublist (["id", "command", "script", "application"] ++ Context.fieldNames ++
        ["filePath", "repository", "createdAt"]) fieldNames
      decide
  | cons first others =>
    rw [of?_record]
    · simp only [applicationsMember, List.isEmpty_cons, Bool.false_eq_true, if_false,
        List.cons_append, List.nil_append, Context.members, required, withDefault,
        Context.ofFields?, Fields.optional, Option.pure_def, Option.bind_eq_bind,
        Option.bind_some, List.lookup_cons, String.reduceBEq, int64?_ofInt64, text?_ofText,
        list?_ofTexts, orNull?_ofText?]
    · decide
    · exact List.Sublist.refl fieldNames

theorem Store.ofJson?_toJson (s : Store) : ofJson? s.toJson = some s := by
  unfold ofJson? toJson
  rw [of?_record]
  · simp [withDefault, List.lookup_cons, list?_map Command.ofJson?_toJson,
      list?_map ListItem.ofJson?_toJson]
  · decide
  · exact List.Sublist.refl fieldNames

/-! ## Texts -/

theorem ListItem.isIntegral_toJson (i : ListItem) : i.toJson.IsIntegral :=
  isIntegral_record (by simp)

theorem Command.isIntegral_toJson (c : Command) : c.toJson.IsIntegral := by
  obtain ⟨context, id, trigger, script, application, applications, filePath, repository,
    createdAt⟩ := c
  refine isIntegral_record ?_
  cases applications <;> simp [applicationsMember, Context.members]

theorem Store.isIntegral_toJson (s : Store) : s.toJson.IsIntegral := by
  refine isIntegral_record ?_
  simp [isIntegral_list_map, Command.isIntegral_toJson, ListItem.isIntegral_toJson]

/-- **A store is read back from its text.** -/
theorem Store.ofText_toText (s : Store) : ofText s.toText = .ok s :=
  decode_pretty s.ofJson?_toJson s.isIntegral_toJson

end VoiceIndex
