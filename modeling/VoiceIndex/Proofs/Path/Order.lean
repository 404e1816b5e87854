import VoiceIndex.Path

/-!
# The order of paths

Paths are ordered by their components, the first difference deciding. The order is total and
transitive (`le_total`, `le_trans`), and two paths that come each before the other have the same
components (`components_eq_of_le`).
-/

namespace VoiceIndex.Path

/-! ## Components -/

namespace Component

theorem le_total (a b : Component) : a.le b || b.le a := by
  cases a <;> cases b <;> simp [le, String.le_total]

theorem le_trans {a b c : Component} (h : a.le b) (h' : b.le c) : a.le c := by
  cases a <;> cases b <;> cases c <;> simp_all [le]
  exact String.le_trans h h'

theorem le_antisymm {a b : Component} (h : a.le b) (h' : b.le a) : a = b := by
  cases a <;> cases b <;> simp_all [le]
  exact String.le_antisymm h h'

end Component

variable {as bs cs : List Component}

theorem leComponents_cons {a b : Component} :
    leComponents (a :: as) (b :: bs) ↔ (a = b ∧ leComponents as bs) ∨ (a ≠ b ∧ a.le b) := by
  rw [leComponents]
  by_cases h : a = b <;> simp [h]

theorem leComponents_total (as bs : List Component) : leComponents as bs || leComponents bs as := by
  induction as generalizing bs with
  | nil => simp [leComponents]
  | cons a as ih =>
    cases bs with
    | nil => simp [leComponents]
    | cons b bs =>
      by_cases h : a = b
      · simpa [leComponents, h] using ih bs
      · simpa [leComponents, h, Ne.symm h] using Component.le_total a b

theorem leComponents_trans (h : leComponents as bs) (h' : leComponents bs cs) :
    leComponents as cs := by
  induction as generalizing bs cs with
  | nil => simp [leComponents]
  | cons a as ih =>
    match bs, cs with
    | [], _ => simp [leComponents] at h
    | _ :: _, [] => simp [leComponents] at h'
    | b :: bs, c :: cs =>
      rw [leComponents_cons] at h h' ⊢
      obtain ⟨rfl, hab⟩ | ⟨hne, hab⟩ := h
      · exact h'.imp_left fun hbc => ⟨hbc.1, ih hab hbc.2⟩
      · obtain ⟨rfl, -⟩ | ⟨-, hbc⟩ := h'
        · exact .inr ⟨hne, hab⟩
        · refine .inr ⟨?_, Component.le_trans hab hbc⟩
          -- a component that came before and after another one would be that one
          rintro rfl
          exact hne (Component.le_antisymm hab hbc)

theorem leComponents_antisymm (h : leComponents as bs) (h' : leComponents bs as) : as = bs := by
  induction as generalizing bs with
  | nil => cases bs <;> simp_all [leComponents]
  | cons a as ih =>
    cases bs with
    | nil => simp [leComponents] at h
    | cons b bs =>
      rw [leComponents_cons] at h h'
      obtain ⟨rfl, hab⟩ | ⟨hne, hab⟩ := h
      · rw [ih hab (by simpa using h')]
      · obtain ⟨rfl, -⟩ | ⟨-, hba⟩ := h'
        · exact absurd rfl hne
        · exact absurd (Component.le_antisymm hab hba) hne

/-! ## Paths -/

variable {p q r : Path}

theorem le_total (p q : Path) : p.le q || q.le p := leComponents_total _ _

theorem le_trans (h : p.le q) (h' : q.le r) : p.le r := leComponents_trans h h'

theorem components_eq_of_le (h : p.le q) (h' : q.le p) : p.components = q.components :=
  leComponents_antisymm h h'

/-- One path comes strictly before another. -/
def Before (p q : Path) : Prop := p.le q ∧ p.components ≠ q.components

end VoiceIndex.Path
