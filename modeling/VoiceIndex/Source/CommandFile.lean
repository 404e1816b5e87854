import VoiceIndex.Record.Command
import VoiceIndex.Source.Origin
import VoiceIndex.Text.Case.Lower

/-!
# Command files

A command file has a header and a body, parted by a line with a single hyphen. The header
gives the context of all commands in the file. In the body an unindented line with a colon
opens a command, and indented lines continue its script. Blank lines and comments of the
body, and lines that are none of these, are passed over; nothing in a file is an error.

`Header.ofLines` reads the one part, `BodyLine.ofLine?` and `gather` the other, and
`CommandFile.commands` puts them together.
-/

namespace VoiceIndex

/-! ## The header -/

/-- What the header of a command file says. -/
structure Header extends Context where
  applications : List String := []
  deriving DecidableEq, Inhabited, Repr

namespace Header

/-- The name without `.exe` at its end, in any case. -/
def dropExe (name : String) : String :=
  let cs := name.toList
  let stem := cs.take (cs.length - 4)
  if Chars.lowerAscii (cs.drop (cs.length - 4)) = ['.', 'e', 'x', 'e'] then .ofList stem else name

/-- The name under which an application is known: one for every kind of the two shells that
come under many names, its own for any other. -/
def commonName (name : String) : String :=
  let low := Text.lower name
  if Text.contains low "powershell" then "powershell"
  else if Text.contains low "terminal" then "windows_terminal"
  else name

/-- The application that a header line names. -/
def application? (line : String) : Option String :=
  let name? :=
    match Text.after? "app.name:" line, Text.after? "app.exe:" line, Text.after? "app:" line with
    | some value, _, _ => some (Text.trim value)
    | none, some value, _ => some (dropExe (Text.trim value))
    | none, none, some value => some (Text.trim value)
    | none, none, none => none
  (name?.filter (· ≠ "")).map commonName

/-- The value after a key: what follows it without the blanks around, or nothing if only
blanks follow. -/
def value? (rest : String) : Option String :=
  let value := Text.trim rest
  if value = "" then none else some value

/-- The keys of the header lines that set one value each, with what they set. -/
def keys : List (String × (Header → Option String → Header)) := [
  ("mode:", fun h value => { h with mode := value }),
  ("os:", fun h value => { h with operatingSystem := value }),
  ("tag:", fun h value => { h with tags := value }),
  ("title:", fun h value => { h with title := value }),
  ("code.language:", fun h value => { h with codeLanguage := value }),
  ("language:", fun h value => { h with language := value }),
  ("hostname:", fun h value => { h with hostname := value })]

/-- The header after one more line, given without the blanks around it. An application is
added to those named before; any other line with a key sets the value of the key, or takes
it away. -/
def read (h : Header) (line : String) : Header :=
  match application? line with
  | some app =>
    if h.applications.contains app then h
    else { h with applications := h.applications ++ [app] }
  | none =>
    let set? := fun (key, set) => (Text.after? key line).map fun rest => set h (value? rest)
    (keys.findSome? set?).getD h

/-- The header that lines give. -/
def ofLines (lines : List String) : Header :=
  lines.foldl (fun h line => h.read (Text.trim line)) {}

theorem ofLines_concat (lines : List String) (line : String) :
    ofLines (lines ++ [line]) = (ofLines lines).read (Text.trim line) := by
  simp [ofLines]

end Header

/-! ## The body -/

/-- A line of the body that counts. -/
inductive BodyLine where
  /-- A command begins, perhaps with the first line of its script. -/
  | opening (name : String) (script? : Option String)
  /-- The script goes on. -/
  | indented (script : String)
  deriving DecidableEq, Inhabited, Repr

/-- What a line of the body is. -/
def BodyLine.ofLine? (line : String) : Option BodyLine :=
  let inner := Text.trim line
  if inner = "" ∨ Text.startsWith "#" inner then none
  else if Text.startsWith " " line ∨ Text.startsWith "\t" line then some (.indented inner)
  else (Text.cut ':' inner).map fun (name, rest) =>
    .opening (Text.trim name) (Header.value? rest)

/-- A command of the body: what is said, and the lines of the script. -/
structure Block where
  name : String
  script : List String
  deriving DecidableEq, Inhabited, Repr

/-- The script lines before the first opening, and the commands from there on. -/
def gather : List BodyLine → List String × List Block
  | [] => ([], [])
  | .indented script :: rest => let (own, blocks) := gather rest; (script :: own, blocks)
  | .opening name script? :: rest =>
    let (own, blocks) := gather rest
    ([], ⟨name, script?.toList ++ own⟩ :: blocks)

/-- The commands in lines of a body. Script lines without a command are lost, and so is a
command without a name. -/
def Block.ofLines (lines : List String) : List Block :=
  (gather (lines.filterMap BodyLine.ofLine?)).2.filter (·.name ≠ "")

/-! ## The file -/

namespace CommandFile

/-- The lines before and after the first line with a single hyphen. -/
def divide : List String → Option (List String × List String)
  | [] => none
  | line :: rest =>
    if Text.trim line = "-" then some ([], rest)
    else (divide rest).map fun (above, below) => (line :: above, below)

/-- The draft of a command in a file with this header. -/
def draft (path : String) (header : Header) (block : Block) : CommandDraft :=
  let applications := header.applications.map (Text.clip Limit.application)
  { toContext := header.toContext.clip
    trigger := Text.clip Limit.trigger block.name
    script := Text.clip Limit.script ("\n".intercalate block.script)
    application := some (applications.head?.getD everyApplication)
    applications
    filePath := Text.clip Limit.filePath path
    repository := (repository? path).map (Text.clip Limit.repository)
    createdAt := none }

/-- The commands in a file with this path and content. -/
def commands (path content : String) : List CommandDraft :=
  match divide (Text.lines content) with
  | none => []
  | some (above, below) => (Block.ofLines below).map (draft path (Header.ofLines above))

end CommandFile

end VoiceIndex
