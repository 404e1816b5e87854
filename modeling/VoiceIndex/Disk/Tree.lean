import VoiceIndex.Disk.Access

/-!
# Trees of files

A tree is a file with its bytes or a folder with named entries, in the order in which the
folder lists them. A route is a list of names that leads from a tree to one inside it. There is
nothing else in a tree: links, device files and names that are not UTF-8 text are outside the
model.

`get?_put_self` and `get?_put_of_not_prefix` say what a change at a route does: it shows
there and nowhere beside it.
-/

namespace VoiceIndex

/-- A file or a folder. -/
inductive Tree where
  | file (bytes : ByteArray)
  | folder (entries : List (String × Tree))
  deriving Inhabited

/-- The names that lead from a folder to something inside it. -/
abbrev Route := List String

namespace Tree

/-- What kind of thing a tree is. -/
def kind : Tree → Kind
  | .file _ => .file
  | .folder _ => .folder

/-- What the route leads to. -/
def get? : Tree → Route → Option Tree
  | t, [] => some t
  | .file _, _ :: _ => none
  | .folder entries, name :: rest => (entries.lookup name).bind (·.get? rest)

/-- Whether the folder exists that is to hold what is put at the end of the route. -/
def hasRoom (t : Tree) (route : Route) : Bool := (t.get? route.dropLast).map kind == some .folder

/-- The entries with this one in place of the one of its name, or at the end. -/
def putEntry (name : String) (t : Tree) : List (String × Tree) → List (String × Tree)
  | [] => [(name, t)]
  | (other, u) :: rest =>
    if other = name then (name, t) :: rest else (other, u) :: putEntry name t rest

/-- The tree with `new` at the end of the route. Nothing changes if the folder that is to hold
it does not exist. -/
def put : Tree → Route → Tree → Tree
  | _, [], new => new
  | .file bytes, _ :: _, _ => .file bytes
  | .folder entries, name :: rest, new =>
    match entries.lookup name with
    | some child => .folder (putEntry name (child.put rest new) entries)
    | none => if rest = [] then .folder (putEntry name new entries) else .folder entries

/-- The tree without what the route leads to. -/
def erase : Tree → Route → Tree
  | t, [] => t
  | .file bytes, _ :: _ => .file bytes
  | .folder entries, [name] => .folder (entries.filter (·.1 ≠ name))
  | .folder entries, name :: rest =>
    match entries.lookup name with
    | some child => .folder (putEntry name (child.erase rest) entries)
    | none => .folder entries

mutual

/-- Everything below a tree, with a slash after the path of a folder. -/
def listing (p : Path) : Tree → List String
  | .file _ => []
  | .folder entries => listingOfEntries p entries

/-- Entries of the folder at this path, and everything below them. -/
def listingOfEntries (p : Path) : List (String × Tree) → List String
  | [] => []
  | (name, t) :: rest =>
    let path := p.join name
    (match t with
      | .file _ => path.text
      | .folder _ => path.text ++ "/") :: listing path t ++ listingOfEntries p rest

end

theorem lookup_putEntry (name other : String) (t : Tree) (entries : List (String × Tree)) :
    (putEntry name t entries).lookup other =
      if other = name then some t else entries.lookup other := by
  induction entries with
  | nil => by_cases h : other = name <;> simp [putEntry, List.lookup_cons, h, beq_eq_false_iff_ne.2]
  | cons entry rest ih =>
    obtain ⟨key, u⟩ := entry
    by_cases hk : key = name <;> by_cases h : other = name <;> by_cases ho : other = key <;>
      simp_all [putEntry, List.lookup_cons, beq_eq_false_iff_ne.2]

/-- A route whose folder exists leads, after a change at its end, to what was put there. -/
theorem get?_put_self (t new : Tree) (route : Route) (name : String)
    {entries : List (String × Tree)} (h : t.get? route = some (.folder entries)) :
    (t.put (route ++ [name]) new).get? (route ++ [name]) = some new := by
  induction route generalizing t with
  | nil =>
    obtain rfl : t = .folder entries := by simpa [get?] using h
    cases hl : entries.lookup name <;> simp [put, get?, hl, lookup_putEntry]
  | cons key rest ih =>
    cases t with
    | file bytes => simp [get?] at h
    | folder inner =>
      obtain ⟨child, hc, hr⟩ : ∃ child, inner.lookup key = some child ∧
          child.get? rest = some (.folder entries) := by
        simpa [get?, Option.bind_eq_some_iff] using h
      simp [put, get?, hc, lookup_putEntry, ih child hr]

/-- A change at a route does not show at a route that does not pass through its end and that
its end does not lie below. -/
theorem get?_put_of_not_prefix (t new : Tree) {route other : Route}
    (h : ¬ route <+: other) (h' : ¬ other <+: route) :
    (t.put route new).get? other = t.get? other := by
  induction route generalizing t other with
  | nil => simp at h
  | cons key rest ih =>
    cases other with
    | nil => simp at h'
    | cons key' rest' =>
      cases t with
      | file bytes => simp [put]
      | folder entries =>
        by_cases hk : key' = key
        · subst hk
          have hr : ¬ rest <+: rest' := fun p => h (List.cons_prefix_cons.2 ⟨rfl, p⟩)
          have hr' : ¬ rest' <+: rest := fun p => h' (List.cons_prefix_cons.2 ⟨rfl, p⟩)
          cases hl : entries.lookup key' with
          | none =>
            cases rest with
            | nil => exact absurd List.nil_prefix hr
            | cons _ _ => simp [put, get?, hl]
          | some child => simp [put, get?, hl, lookup_putEntry, ih child hr hr']
        · cases hl : entries.lookup key with
          | none => by_cases hn : rest = [] <;> simp [put, get?, hl, lookup_putEntry, hk, hn]
          | some child => simp [put, get?, hl, lookup_putEntry, hk]

end Tree

end VoiceIndex
