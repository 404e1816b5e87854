import VoiceIndex.Environment
import VoiceIndex.Error

/-!
# The folder of voice commands

The folder is looked for at the usual places, and read as a whole: `UserFolder.scan` gives
its command files and its list files with their texts, in the order of their paths, and says
which of them could not be read. Other files are no concern of it.
-/

namespace VoiceIndex

/-- A file with its text. -/
structure SourceFile where
  path : Path
  content : String
  deriving DecidableEq, Inhabited, Repr

/-- What a file in the folder holds. -/
inductive SourceKind where
  | commands
  | list
  deriving DecidableEq, Repr

/-- What a file holds, by the extension of its name. -/
def SourceKind.ofPath? (p : Path) : Option SourceKind :=
  match p.extension? with
  | some "talon" => some .commands
  | some "talon-list" => some .list
  | _ => none

/-- What was found in a folder. -/
structure ScanReport where
  commandFiles : List SourceFile := []
  listFiles : List SourceFile := []
  /-- The files and folders that could not be read, and why. -/
  skipped : List (Path × Fault) := []
  deriving Inhabited

namespace ScanReport

/-- The report with one more file or folder that could not be read. -/
def skip (r : ScanReport) (p : Path) (fault : Fault) : ScanReport :=
  { r with skipped := r.skipped ++ [(p, fault)] }

/-- The report with one more file, which was read or not. -/
def add (r : ScanReport) (kind : SourceKind) (p : Path) : Except Fault String → ScanReport
  | .error fault => r.skip p fault
  | .ok content => match kind with
    | .commands => { r with commandFiles := r.commandFiles ++ [⟨p, content⟩] }
    | .list => { r with listFiles := r.listFiles ++ [⟨p, content⟩] }

/-- The files in the order of their paths. -/
def inOrder (files : List SourceFile) : List SourceFile := files.mergeSort fun a b => a.path.le b.path

/-- The report with its files in the order of their paths. -/
def ordered (r : ScanReport) : ScanReport :=
  { r with commandFiles := inOrder r.commandFiles, listFiles := inOrder r.listFiles }

end ScanReport

namespace UserFolder

open DiskAccess

variable {m : Type → Type} [Monad m] [DiskAccess m]

/-- The first of the paths at which there is a folder. -/
def firstFolder? : List Path → m (Option Path)
  | [] => return none
  | p :: rest => do if ← isFolder p then return some p else firstFolder? rest

/-- The folder of voice commands at one of the usual places. -/
def detect (env : Environment) : m (Option Path) := firstFolder? env.userFolders

/-- Reads a file if it holds commands or a list. -/
def readFile (report : ScanReport) (p : Path) : m ScanReport :=
  match SourceKind.ofPath? p with
  | none => return report
  | some kind => return report.add kind p (← readText p)

/-- Deals with one entry of the folder at the path: a file is read at once, a folder is laid on top
of those that are still to be walked. -/
def meetEntry (p : Path) (state : ScanReport × List Path) :
    String × Except Fault Kind → m (ScanReport × List Path)
  | (name, .error fault) => return (state.1.skip (p.join name) fault, state.2)
  | (name, .ok .folder) => return (state.1, p.join name :: state.2)
  | (name, .ok .file) => return (← readFile state.1 (p.join name), state.2)

/-- Reads what lies at any depth below the folder at the path: its own files first, then the folders
in it, the last one first. A folder that cannot be opened is skipped, and so is one that lies deeper
than `depth`. -/
def walk : Nat → ScanReport → Path → m ScanReport
  | 0, report, p => return report.skip p .nameTooLong
  | depth + 1, report, p => do
    match ← listFolder p with
    | .error fault => return report.skip p fault
    | .ok listing =>
      let (report, folders) ← listing.entries.foldlM (meetEntry p) (report, [])
      let report := (listing.cutOff.map (report.skip p)).getD report
      folders.foldlM (walk depth) report

/-- More folders than there can be on the way to a file: the system opens no path of more than 4095
bytes, and each folder on the way takes some of them. -/
def maxDepth : Nat := 4095

/-- All command files and list files at any depth below a folder. -/
def scan (root : Path) : m (Except Error ScanReport) := do
  if ← isFolder root then return .ok (← walk maxDepth {} root).ordered
  else return .error (.noUserFolder root.text)

end UserFolder

end VoiceIndex
