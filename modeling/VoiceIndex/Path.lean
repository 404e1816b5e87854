import VoiceIndex.Text.Pieces

/-!
# Paths

A path is a text whose parts are separated by slashes. Empty parts and single dots inside it
carry no meaning, so `a//b/./c` and `a/b/c` have the same components; a path is nevertheless
shown as it was given. What stands at a path is a file or a folder: links and device files are
outside the model, and so are names that are not UTF-8, since a path is a text throughout.

The functions below give the components and their order, the file name with its extension,
the path without its last component, and the path extended by one more. `bare` works from
the end, on the characters in reverse, and is what they share.
-/

namespace VoiceIndex

/-- A path of a file or folder. -/
structure Path where
  text : String
  deriving DecidableEq, Inhabited, Repr

namespace Path

/-! ## Components -/

/-- A meaningful part of a path. -/
inductive Component where
  | root
  | here
  | up
  | name (name : String)
  deriving DecidableEq

/-- The parts between the slashes that are not empty. -/
def segments (p : Path) : List String :=
  (Text.pieces (· == '/') p.text).filter (· ≠ "")

/-- Whether the path starts at the root. -/
def isAbsolute (p : Path) : Bool := Text.startsWith "/" p.text

/-- Whether the path ends with a slash. -/
def endsWithSlash (p : Path) : Bool := p.text.toList.getLast? == some '/'

/-- The component that a part stands for; a single dot stands for none. -/
def Component.ofSegment? (segment : String) : Option Component :=
  if segment = "." then none else if segment = ".." then some .up else some (.name segment)

/-- The components from left to right. A dot counts where a relative path begins with it. -/
def components (p : Path) : List Component :=
  let inner := p.segments.filterMap Component.ofSegment?
  if p.isAbsolute then .root :: inner
  else if p.segments.head? = some "." then .here :: inner
  else inner

/-- Whether one component comes before another or is the same: the root, then dots, then
double dots, then names by their characters. -/
def Component.le : Component → Component → Bool
  | .root, _ => true
  | .here, .root => false
  | .here, _ => true
  | .up, .root | .up, .here => false
  | .up, _ => true
  | .name a, .name b => a ≤ b
  | .name _, _ => false

/-- Whether one list of components comes before another or is the same, the first difference
deciding. -/
def leComponents : List Component → List Component → Bool
  | [], _ => true
  | _ :: _, [] => false
  | a :: as, b :: bs => if a = b then leComponents as bs else a.le b

/-- The order of paths by their components. -/
def le (p q : Path) : Bool := leComponents p.components q.components

/-! ## The end of a path -/

/-- The characters of a path in reverse, from its last component on: trailing slashes, and
dots that follow a slash, are passed over. -/
def bare : List Char → List Char
  | '/' :: rest => bare rest
  | '.' :: '/' :: rest => bare rest
  | cs => cs

/-- The last component, if it is a name. -/
def fileName? (p : Path) : Option String :=
  let name := ((bare p.text.toList.reverse).takeWhile (· ≠ '/')).reverse
  if name = [] ∨ name = ['.'] ∨ name = ['.', '.'] then none else some (.ofList name)

/-- The path without its last component; undefined for the empty path and for the root. -/
def parent? (p : Path) : Option Path :=
  match bare p.text.toList.reverse with
  | [] => none
  | last => match last.dropWhile (· ≠ '/') with
    | [] => some ⟨""⟩
    | above => match bare above with
      | [] => some ⟨"/"⟩
      | rest => some ⟨.ofList rest.reverse⟩

/-- The path and what is left of it after each of the last components is dropped in turn,
`bound` paths at most. -/
def upward : Nat → Path → List Path
  | 0, _ => []
  | bound + 1, p => p :: (p.parent?.map (upward bound)).getD []

/-- The path, its parent, the parent of that, and so on. -/
def ancestors (p : Path) : List Path := p.upward (p.text.toList.length + 1)

/-- The path of something in the folder at this path. -/
def join (p : Path) (name : String) : Path :=
  if p.text = "" ∨ p.endsWithSlash then ⟨p.text ++ name⟩ else ⟨p.text ++ "/" ++ name⟩

/-! ## Extensions -/

/-- A file name in reverse, cut at its last dot into what follows the dot and what precedes
it. A dot at the beginning of the name makes no cut. -/
def cutName (reversed : List Char) : Option (List Char × List Char) :=
  (Chars.cut '.' reversed).filter fun (_, stem) => !stem.isEmpty

/-- What follows the last dot of the file name, unless the name begins with that dot. -/
def extension? (p : Path) : Option String := do
  let name ← p.fileName?
  let (after, _) ← cutName name.toList.reverse
  return .ofList after.reverse

/-- The path up to the stem of its file name, with a dot and this extension after it. A path
without a file name stays as it is. -/
def extendStem (p : Path) (extension : String) : Path :=
  match p.fileName? with
  | none => p
  | some name =>
    let stem := match cutName name.toList.reverse with
      | some (_, stem) => stem
      | none => name.toList.reverse
    let folder := (bare p.text.toList.reverse).dropWhile (· ≠ '/')
    ⟨.ofList (folder.reverse ++ stem.reverse ++ '.' :: extension.toList)⟩

/-- The path without as many characters at its end as its extension has. -/
def dropExtension (p : Path) : Path :=
  let length := (p.extension?.getD "").toList.length
  ⟨.ofList (p.text.toList.take (p.text.toList.length - length))⟩

/-- The path with this extension in place of the one it has, or at its end if it has none.
Trailing slashes are dropped. A name such as `..old` is two dots once its extension is gone;
these lead back and name no file, so that they are all that is left of it. -/
def withExtension (p : Path) (extension : String) : Path :=
  p.dropExtension.extendStem extension

end Path

end VoiceIndex
