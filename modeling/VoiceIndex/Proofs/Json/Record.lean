import VoiceIndex.Json.Decode
import VoiceIndex.Json.Fields
import VoiceIndex.Proofs.Json.RoundTrip

/-!
# Records in JSON read back

Each kind of value that a field can have is read back from its value. A record is written with each
of its fields at most once and in their order, so that reading finds the very fields that were
written (`Fields.of?_record`). None of these values has a fraction or an exponent
(`isIntegral_record`), so that a record can be read back from its text as well (`decode_pretty`).
-/

namespace VoiceIndex.Json

variable {α : Type}

/-! ## Values -/

@[simp] theorem text?_ofText (s : String) : (ofText s).text? = some s := rfl

@[simp] theorem orNull?_ofText? (s : Option String) : orNull? text? (ofText? s) = some s := by
  cases s <;> rfl

@[simp] theorem int64?_ofInt64 (n : Int64) : (ofInt64 n).int64? = some n := by
  have hbounds : Int64.minValue.toInt ≤ n.toInt ∧ n.toInt ≤ Int64.maxValue.toInt :=
    ⟨Int64.minValue_le_toInt n, Int64.toInt_le n⟩
  unfold int64? ofInt64 between?
  simp only [if_pos hbounds, Option.map_some, Int64.ofInt_toInt]

@[simp] theorem bool?_bool (b : Bool) : (bool b).bool? = some b := rfl

@[simp] theorem uint64?_ofUInt64 (n : UInt64) : (ofUInt64 n).uint64? = some n := by
  have hlt : n.toNat < UInt64.size := n.toNat_lt
  have hbounds : (0 : Int) ≤ n.toNat ∧ (n.toNat : Int) ≤ UInt64.size - 1 := by omega
  unfold uint64? ofUInt64 between?
  simp only [if_pos hbounds, Option.map_some, Int.toNat_natCast, UInt64.ofNat_toNat]

theorem list?_map {write : α → Json} {read : Json → Option α}
    (h : ∀ a, read (write a) = some a) (xs : List α) :
    list? read (.list (xs.map write)) = some xs := by
  show (xs.map write).mapM read = some xs
  induction xs with
  | nil => rfl
  | cons x xs ih => simp [h, ih]

@[simp] theorem list?_ofTexts (texts : List String) : list? text? (ofTexts texts) = some texts :=
  list?_map text?_ofText texts

/-! ## Fields -/

namespace Fields

theorem known?_of_sublist {names : List String} {members : List (String × Json)}
    (hnames : names.Nodup) (h : (members.map Prod.fst).Sublist names) :
    known? names (members.map fun (key, x) => (some key, x)) = some members := by
  have hkeys : (members.map Prod.fst).Nodup := hnames.sublist h
  have hmem : ∀ m ∈ members, m.1 ∈ names := fun m hm => h.subset (List.mem_map_of_mem hm)
  clear h
  induction members with
  | nil => rfl
  | cons m members ih =>
    obtain ⟨key, x⟩ := m
    rw [List.map_cons, List.nodup_cons] at hkeys
    have hrest := ih hkeys.2 fun m hm => hmem m (List.mem_cons_of_mem _ hm)
    have hkey : names.contains key = true := by simpa using hmem _ List.mem_cons_self
    have hnew : members.lookup key = none := by
      rw [List.lookup_eq_none_iff]
      intro m hm
      have hne : key ≠ m.1 := by
        intro heq
        exact hkeys.1 (List.mem_map.2 ⟨m, hm, heq.symm⟩)
      simpa using hne
    rw [List.map_cons, known?, hrest]
    simp only [Option.bind_eq_bind, Option.bind_some, hkey, hnew]
    rfl

/-- The fields that are found are the fields that were written. -/
theorem of?_record {names : List String} {members : List (String × Json)}
    (hnames : names.Nodup) (h : (members.map Prod.fst).Sublist names) :
    of? names (.record members) = some ⟨members, false⟩ := by
  show (known? names _).map _ = _
  rw [known?_of_sublist hnames h]
  rfl

end Fields

/-! ## Without fractions -/

@[simp] theorem isIntegral_ofText (s : String) : (ofText s).IsIntegral := .text (some s)

@[simp] theorem isIntegral_ofText? (s : Option String) : (ofText? s).IsIntegral := by
  cases s with
  | none => exact .null
  | some s => exact .text (some s)

@[simp] theorem isIntegral_ofInt64 (n : Int64) : (ofInt64 n).IsIntegral := .int n.toInt

@[simp] theorem isIntegral_bool (b : Bool) : (bool b).IsIntegral := .bool b

@[simp] theorem isIntegral_ofUInt64 (n : UInt64) : (ofUInt64 n).IsIntegral := .int n.toNat

theorem isIntegral_list_map {α : Type} {write : α → Json} (h : ∀ a, (write a).IsIntegral)
    (xs : List α) : (Json.list (xs.map write)).IsIntegral := by
  refine .list fun x hx => ?_
  obtain ⟨a, -, rfl⟩ := List.mem_map.1 hx
  exact h a

@[simp] theorem isIntegral_ofTexts (texts : List String) : (ofTexts texts).IsIntegral :=
  isIntegral_list_map isIntegral_ofText texts

theorem isIntegral_record {members : List (String × Json)}
    (h : ∀ m ∈ members, m.2.IsIntegral) : (record members).IsIntegral := by
  refine .object fun m hm => ?_
  obtain ⟨⟨key, x⟩, hx, rfl⟩ := List.mem_map.1 hm
  exact h (key, x) hx

/-! ## Texts -/

/-- What is read from a value without fractions is read from its text. -/
theorem decode_pretty {read : Json → Option α} {x : Json} {a : α} (hread : read x = some a)
    (hx : x.IsIntegral) : decode read x.pretty = .ok a := by
  unfold decode
  simp only [parse?_pretty hx, hread]

end VoiceIndex.Json
