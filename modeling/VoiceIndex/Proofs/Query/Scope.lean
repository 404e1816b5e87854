import VoiceIndex.Proofs.Text.Numeral
import VoiceIndex.Query.Scope

/-!
# Scopes that are asked for

A scope is asked for by its number or, in any case, by one of its names, blanks around them aside
(`IsAskedBy`). A text is read as the scope that it asks for, if it asks for one
(`ofText_eq_ok_iff`): a numeral has no case and is none of the names, so that no text asks for two
scopes.
-/

namespace VoiceIndex.Scope

/-- The number of a scope, and its names. -/
def calls : Scope → Nat × List String
  | .names => (0, ["names", "commands", "command_names"])
  | .script => (1, ["script", "scripts"])
  | .all => (2, ["all"])
  | .spoken => (3, ["spoken", "spoken_forms"])

/-- Without the blanks around it, the text is the number of the scope or, in any case, one of its
names. -/
def IsAskedBy (scope : Scope) (text : String) : Prop :=
  Text.IsNumeral (Text.trim text) scope.calls.1 ∨ Text.lower (Text.trim text) ∈ scope.calls.2

variable {scope : Scope} {name : String} {n : Nat}

theorem ofCode_eq_ok_iff : ofCode n = .ok scope ↔ n = scope.calls.1 := by
  constructor
  · intro h
    unfold ofCode at h
    split at h <;> cases h <;> rfl
  · rintro rfl
    cases scope <;> rfl

theorem ofName?_eq_some_iff : ofName? name = some scope ↔ name ∈ scope.calls.2 := by
  constructor
  · intro h
    unfold ofName? at h
    split_ifs at h with hnames hscript hall hspoken
    · cases h
      exact List.contains_iff_mem.1 hnames
    · cases h
      exact List.contains_iff_mem.1 hscript
    · cases h
      exact List.mem_singleton.2 hall
    · cases h
      exact List.contains_iff_mem.1 hspoken
  · intro h
    cases scope <;> simp only [calls, List.mem_cons, List.not_mem_nil, or_false] at h
    · rcases h with rfl | rfl | rfl <;> rfl
    · rcases h with rfl | rfl <;> rfl
    · rw [h]
      rfl
    · rcases h with rfl | rfl <;> rfl

/-- A scope has no numeral for a name. -/
theorem not_isNumeral_of_mem_calls (h : name ∈ scope.calls.2) : ¬ Text.IsNumeral name n := by
  intro hnumeral
  have hletters : ∀ name ∈ scope.calls.2,
      (name.toList.all fun c => c == '+' || c.isDigit) = false := by
    cases scope <;> decide
  have hsigns : (name.toList.all fun c => c == '+' || c.isDigit) = true := by
    simpa using hnumeral.forall_mem
  rw [hletters name h] at hsigns
  cases hsigns

/-- **A text is read as the scope that it asks for.** -/
theorem ofText_eq_ok_iff {text : String} : ofText text = .ok scope ↔ scope.IsAskedBy text := by
  unfold ofText IsAskedBy
  cases hcode : Text.counter? 255 (Text.trim text) with
  | some code =>
    have hnumeral := (Text.counter?_eq_some_iff.1 hcode).1
    simp only [hcode]
    rw [hnumeral.lower_eq, or_iff_left fun h => not_isNumeral_of_mem_calls h hnumeral,
      ofCode_eq_ok_iff]
    constructor
    · rintro rfl
      exact hnumeral
    · exact hnumeral.unique
  | none =>
    have hnot : ¬ Text.IsNumeral (Text.trim text) scope.calls.1 := by
      intro hnumeral
      have hle : scope.calls.1 ≤ 255 := by cases scope <;> decide
      rw [Text.counter?_eq_some_iff.2 ⟨hnumeral, hle⟩] at hcode
      cases hcode
    simp only [hcode]
    rw [or_iff_right hnot, ← ofName?_eq_some_iff]
    cases ofName? (Text.lower (Text.trim text)) <;> simp

theorem IsAskedBy.unique {scope' : Scope} {text : String} (h : scope.IsAskedBy text)
    (h' : scope'.IsAskedBy text) : scope = scope' :=
  Except.ok.inj ((ofText_eq_ok_iff.2 h).symm.trans (ofText_eq_ok_iff.2 h'))

end VoiceIndex.Scope
