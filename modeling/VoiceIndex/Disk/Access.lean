import VoiceIndex.Path

/-!
# Access to files

`DiskAccess` is all that the library asks of the place where files are kept; `Fault` says why
a request was refused. What is built from the requests alone stands here too: reading a file
as text, and making a folder together with those above it.
-/

namespace VoiceIndex

/-- Why a request to the disk was refused. -/
inductive Fault where
  | notFound
  | notAFolder
  | isAFolder
  | alreadyThere
  | nameTooLong
  | nulInName
  | notText
  /-- The disk itself failed. -/
  | broken
  /-- A cause that the system reports in words. -/
  | reported (text : String)
  deriving DecidableEq, Inhabited, Repr

/-- The cause in words. -/
def Fault.text : Fault → String
  | .notFound => "no such file or folder"
  | .notAFolder => "not a folder"
  | .isAFolder => "is a folder"
  | .alreadyThere => "already there"
  | .nameTooLong => "name too long"
  | .nulInName => "a name cannot hold a null character"
  | .notText => "the file is not UTF-8 text"
  | .broken => "the disk failed"
  | .reported text => text

/-- What can stand at a path. -/
inductive Kind where
  | file
  | folder
  deriving DecidableEq, Repr

/-- What a folder lists. -/
structure Listing where
  /-- The names in it, and what stands there, or why this cannot be told. -/
  entries : List (String × Except Fault Kind)
  /-- Why the listing ends too early, if it does. -/
  cutOff : Option Fault := none
  deriving Inhabited

/-- A place where files are kept. -/
class DiskAccess (m : Type → Type) where
  /-- What stands at the path, if anything can be reached there. -/
  kindAt : Path → m (Option Kind)
  /-- The bytes of the file at the path. -/
  readBytes : Path → m (Except Fault ByteArray)
  /-- Makes these the bytes of the file at the path, which need not exist. -/
  writeBytes : Path → ByteArray → m (Except Fault Unit)
  /-- Moves the file at the first path to the second, in place of a file that is there. -/
  moveFile : Path → Path → m (Except Fault Unit)
  /-- Makes a folder at the path, in a folder that exists. -/
  makeFolder : Path → m (Except Fault Unit)
  /-- What the folder at the path lists. A link is listed as a file. -/
  listFolder : Path → m (Except Fault Listing)

namespace DiskAccess

variable {m : Type → Type} [Monad m] [DiskAccess m]

/-- Whether there is a folder at the path. -/
def isFolder (p : Path) : m Bool := do return (← kindAt p) == some .folder

/-- Whether anything stands at the path. -/
def isThere (p : Path) : m Bool := do return (← kindAt p).isSome

/-- The text of the file at the path, which must be UTF-8. -/
def readText (p : Path) : m (Except Fault String) := do
  match ← readBytes p with
  | .error fault => return .error fault
  | .ok bytes => match String.fromUTF8? bytes with
    | some text => return .ok text
    | none => return .error .notText

/-- Makes the text, in UTF-8, the content of the file at the path. -/
def writeText (p : Path) (text : String) : m (Except Fault Unit) := writeBytes p text.toUTF8

/-- Makes the first of these folders, if need be after the next one, which is the folder it
lies in. A folder that is there already is as good as a new one, and so is no name at all. -/
def makeFoldersFrom : List Path → m (Except Fault Unit)
  | [] => return .error .notFound
  | p :: above => do
    if p.text = "" then return .ok ()
    match ← makeFolder p with
    | .ok () => return .ok ()
    | .error .notFound =>
      match ← makeFoldersFrom above with
      | .error fault => return .error fault
      | .ok () => match ← makeFolder p with
        | .ok () => return .ok ()
        | .error fault => return if ← isFolder p then .ok () else .error fault
    | .error fault => return if ← isFolder p then .ok () else .error fault

/-- Makes a folder at the path, and those above it that are missing. -/
def makeFolders (p : Path) : m (Except Fault Unit) := makeFoldersFrom p.ancestors

/-- Makes the folder in which the file at the path is to lie. -/
def makeRoom (p : Path) : m (Except Fault Unit) :=
  match p.parent? with
  | some folder => makeFolders folder
  | none => return .ok ()

end DiskAccess

end VoiceIndex
