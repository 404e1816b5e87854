import Mathlib.Data.List.Basic
import VoiceIndex.Proofs.Path.Ending

/-!
# Paths below a folder

The path of something in a folder ends in its name (`endsIn_join`), has one component more than that
of the folder (`components_join`), and what follows the last dot of the name is its extension
(`extension?_join`). Names that lead further down from a folder are joined one after the other
(`below`).
-/

namespace VoiceIndex.Path

/-- A name that stands for something in a folder: it cannot be empty, lead back or stay. -/
structure IsName (name : String) : Prop where
  ne_empty : name ≠ ""
  ne_here : name ≠ "."
  ne_up : name ≠ ".."
  no_slash : '/' ∉ name.toList

variable {p : Path} {name : String}

/-! ## One name -/

/-- What stands before a name that is joined to the path. -/
def frontOf (p : Path) : List Char :=
  if p.text = "" ∨ p.endsWithSlash then p.text.toList else p.text.toList ++ ['/']

theorem toList_join (p : Path) (name : String) :
    (p.join name).text.toList = p.frontOf ++ name.toList := by
  unfold join frontOf
  split_ifs <;> simp

theorem mem_frontOf {c : Char} (h : c ∈ p.frontOf) : c ∈ p.text.toList ∨ c = '/' := by
  unfold frontOf at h
  split_ifs at h
  · exact .inl h
  · simpa using h

theorem partsOf_frontOf (p : Path) : partsOf p.frontOf = p.segments := by
  unfold frontOf
  split_ifs
  · exact (segments_eq p).symm
  · rw [partsOf_append_slash, partsOf_nil, List.append_nil, segments_eq]

theorem head?_frontOf (p : Path) : p.frontOf.head? = p.text.toList.head? := by
  unfold frontOf
  split_ifs with h
  · rfl
  · have hne : p.text.toList ≠ [] := fun heq => h (.inl (String.toList_eq_nil_iff.1 heq))
    exact List.head?_append_of_ne_nil _ hne

theorem endsIn_join (p : Path) (h : IsName name) : (p.join name).EndsIn p.frontOf name.toList where
  toList_eq := toList_join p name
  front_cases := by
    unfold frontOf
    split_ifs with hp
    · rcases hp with hempty | hslash
      · exact .inl (by rw [hempty]; rfl)
      · exact .inr (List.getLast?_eq_some_iff.1 (by simpa [endsWithSlash] using hslash))
    · exact .inr ⟨p.text.toList, rfl⟩
  not_mem := h.no_slash
  ne_nil := fun heq => h.ne_empty (String.toList_eq_nil_iff.1 heq)
  ne_dot := fun heq => h.ne_here (String.toList_injective heq)
  ne_dots := fun heq => h.ne_up (String.toList_injective heq)

theorem segments_join (p : Path) (h : IsName name) :
    (p.join name).segments = p.segments ++ [name] := by
  rw [segments_of_endsIn (endsIn_join p h), partsOf_frontOf, String.ofList_toList]

theorem isAbsolute_join (p : Path) (h : IsName name) : (p.join name).isAbsolute = p.isAbsolute := by
  rw [isAbsolute_of_endsIn (endsIn_join p h), head?_frontOf, isAbsolute_eq]

/-- **A name is a component of its own** at the end of a path. -/
theorem components_join (p : Path) (h : IsName name) :
    (p.join name).components = p.components ++ [.name name] := by
  have hname : Component.ofSegment? name = some (.name name) := by
    simp [Component.ofSegment?, h.ne_here, h.ne_up]
  -- a dot that stood first still does, and the name does not count as one
  have hhead : (p.segments ++ [name]).head? = some "." ↔ p.segments.head? = some "." := by
    cases p.segments with
    | nil => simpa using h.ne_here
    | cons part rest => simp
  unfold components
  rw [segments_join p h, isAbsolute_join p h, List.filterMap_append, List.filterMap_cons_some hname,
    List.filterMap_nil]
  by_cases habs : p.isAbsolute
  · simp [habs]
  · by_cases hdot : p.segments.head? = some "."
    · simp only [habs, hhead, hdot, if_true, Bool.false_eq_true, if_false, List.cons_append]
    · simp only [habs, hhead, hdot, Bool.false_eq_true, if_false]

theorem size_join (p : Path) (name : String) :
    p.text.utf8ByteSize + name.utf8ByteSize ≤ (p.join name).text.utf8ByteSize := by
  unfold join
  split_ifs
  · rw [String.utf8ByteSize_append]
  · rw [String.utf8ByteSize_append, String.utf8ByteSize_append]
    omega

/-- What follows the last dot is the extension, unless the name begins with this dot. -/
theorem extension?_join (p : Path) (h : IsName name) {extension : String}
    (hdot : '.' ∉ extension.toList) :
    (p.join name).extension? = some extension ↔
      ∃ stem, stem ≠ "" ∧ name = stem ++ "." ++ extension := by
  unfold extension?
  rw [fileName?_of_endsIn (endsIn_join p h), String.ofList_toList]
  simp only [Option.bind_eq_bind, Option.bind_some, Option.bind_eq_some_iff, Option.pure_def,
    Option.some.injEq, Prod.exists, cutName_eq_some_iff]
  constructor
  · rintro ⟨after, stem, ⟨hname, -, hstem⟩, rfl⟩
    refine ⟨.ofList stem.reverse, by simpa using hstem, String.toList_injective ?_⟩
    simpa using List.reverse_eq_iff.1 hname
  · rintro ⟨stem, hstem, rfl⟩
    refine ⟨extension.toList.reverse, stem.toList.reverse, ⟨by simp, by simpa using hdot, ?_⟩,
      by simp⟩
    simpa using hstem

/-! ## Several names -/

/-- The path of what these names lead to from the folder at the path. -/
def below (p : Path) (route : List String) : Path := route.foldl join p

@[simp] theorem below_nil (p : Path) : p.below [] = p := rfl

@[simp] theorem below_cons (p : Path) (name : String) (route : List String) :
    p.below (name :: route) = (p.join name).below route := rfl

theorem below_append (p : Path) (route other : List String) :
    p.below (route ++ other) = (p.below route).below other := List.foldl_append

theorem below_concat (p : Path) (route : List String) (name : String) :
    p.below (route ++ [name]) = (p.below route).join name := below_append p route [name]

theorem size_below (p : Path) (route : List String) :
    p.text.utf8ByteSize ≤ (p.below route).text.utf8ByteSize := by
  induction route generalizing p with
  | nil => exact Nat.le_refl _
  | cons name rest ih =>
    exact (Nat.le_of_add_right_le (size_join p name)).trans (ih (p.join name))

end VoiceIndex.Path
