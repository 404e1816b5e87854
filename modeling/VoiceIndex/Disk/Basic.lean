import VoiceIndex.Disk.Tree

/-!
# A disk as a value

A tree of files, a working folder in it, and the failures that lie ahead. Programs over
`DiskAccess` run on it in the state monad, which makes what they do to the files a matter of
calculation.

A path is followed from the top or from the working folder, part by part: each part before
the last must lead to a folder, two dots lead back, and a slash at the end demands a folder.
-/

namespace VoiceIndex

/-- How the disk itself fails a request. -/
inductive Outage where
  /-- Nothing happens. -/
  | refused
  /-- A write ends after this number of bytes. -/
  | cutShort (kept : Nat)
  deriving DecidableEq, Repr

/-- A tree of files together with what decides how requests to it go. -/
structure Disk where
  /-- All there is. -/
  top : Tree
  /-- The folder at which relative paths start. -/
  here : Route := []
  /-- What happens to the writes and moves to come, one after another. Those that come later
  do not fail. -/
  outages : List (Option Outage) := []
  deriving Inhabited

namespace Disk

/-! ## Following a path -/

/-- The greatest length of a name, in bytes. -/
def maxNameBytes : Nat := 255

/-- The greatest length of a path, in bytes. -/
def maxPathBytes : Nat := 4095

/-- The folder that parts of a path lead to from the folder at `spot`. -/
def enter (t : Tree) : Route → List String → Except Fault Route
  | spot, [] => .ok spot
  | spot, part :: rest =>
    if part = "." then enter t spot rest
    else if part = ".." then enter t spot.dropLast rest
    else if maxNameBytes < part.utf8ByteSize then .error .nameTooLong
    else match t.get? (spot ++ [part]) with
      | none => .error .notFound
      | some (.file _) => .error .notAFolder
      | some (.folder _) => enter t (spot ++ [part]) rest

/-- Where a path leads, and whether only a folder will do there. Nothing need exist there. -/
def locate (d : Disk) (p : Path) : Except Fault (Route × Bool) :=
  if p.text.toList.contains '\x00' then .error .nulInName
  else if p.text = "" then .error .notFound
  else if maxPathBytes < p.text.utf8ByteSize then .error .nameTooLong
  else
    let start := if p.isAbsolute then [] else d.here
    match p.segments.getLast? with
    | none => .ok (start, true)
    | some last =>
      if last = "." ∨ last = ".." then (enter d.top start p.segments).map (·, true)
      else match enter d.top start p.segments.dropLast with
        | .error fault => .error fault
        | .ok folder =>
          if maxNameBytes < last.utf8ByteSize then .error .nameTooLong
          else .ok (folder ++ [last], p.endsWithSlash)

/-- What a path leads to. -/
def find (d : Disk) (p : Path) : Except Fault Tree :=
  match d.locate p with
  | .error fault => .error fault
  | .ok (route, folderOnly) => match d.top.get? route with
    | none => .error .notFound
    | some (.file bytes) => if folderOnly then .error .notAFolder else .ok (.file bytes)
    | some (.folder entries) => .ok (.folder entries)

/-- The bytes of the file that a path leads to. -/
def bytesAt (d : Disk) (p : Path) : Except Fault ByteArray :=
  match d.find p with
  | .error fault => .error fault
  | .ok (.file bytes) => .ok bytes
  | .ok (.folder _) => .error .isAFolder

/-- What kind of thing a path leads to. -/
def kindAt (d : Disk) (p : Path) : Option Kind :=
  match d.find p with
  | .error _ => none
  | .ok (.file _) => some .file
  | .ok (.folder _) => some .folder

/-! ## Changes -/

/-- The failure ahead of the next write or move, and the disk once it has been met. -/
def meetOutage (d : Disk) : Option Outage × Disk :=
  match d.outages with
  | [] => (none, d)
  | outage :: later => (outage, { d with outages := later })

/-- The route at which a path allows a file to be put. -/
def fileSpot (d : Disk) (p : Path) : Except Fault Route :=
  match d.locate p with
  | .error fault => .error fault
  | .ok (route, folderOnly) => match d.top.get? route with
    | some (.folder _) => .error .isAFolder
    | _ =>
      if folderOnly then .error .notAFolder
      else if d.top.hasRoom route then .ok route
      else .error .notFound

/-- The disk with these bytes as the file at the path. -/
def writeBytes (d : Disk) (p : Path) (bytes : ByteArray) : Except Fault Unit × Disk :=
  let (outage, d) := d.meetOutage
  match d.fileSpot p with
  | .error fault => (.error fault, d)
  | .ok route => match outage with
    | none => (.ok (), { d with top := d.top.put route (.file bytes) })
    | some .refused => (.error .broken, d)
    | some (.cutShort kept) =>
      (.error .broken, { d with top := d.top.put route (.file (bytes.extract 0 kept)) })

/-- The disk with the file at the first path moved to the second. -/
def moveFile (d : Disk) (source target : Path) : Except Fault Unit × Disk :=
  let (outage, d) := d.meetOutage
  match d.bytesAt source, d.locate source, d.fileSpot target with
  | .error fault, _, _ | _, .error fault, _ | _, _, .error fault => (.error fault, d)
  | .ok bytes, .ok (old, _), .ok new => match outage with
    | none => (.ok (), { d with top := (d.top.erase old).put new (.file bytes) })
    | some _ => (.error .broken, d)

/-- The disk with an empty folder at the path. -/
def makeFolder (d : Disk) (p : Path) : Except Fault Unit × Disk :=
  match d.locate p with
  | .error fault => (.error fault, d)
  | .ok (route, _) => match d.top.get? route with
    | some _ => (.error .alreadyThere, d)
    | none =>
      if d.top.hasRoom route then (.ok (), { d with top := d.top.put route (.folder []) })
      else (.error .notFound, d)

/-- The disk without what the path leads to. -/
def remove (d : Disk) (p : Path) : Disk :=
  match d.locate p with
  | .error _ => d
  | .ok (route, _) => { d with top := d.top.erase route }

/-! ## Listing -/

/-- What the folder that a path leads to lists. -/
def listFolder (d : Disk) (p : Path) : Except Fault Listing :=
  match d.find p with
  | .error fault => .error fault
  | .ok (.file _) => .error .notAFolder
  | .ok (.folder entries) => .ok { entries := entries.map fun (name, t) => (name, .ok t.kind) }

/-- Everything below the working folder, with a slash after the path of a folder. -/
def listing (d : Disk) : List String :=
  match d.top.get? d.here with
  | some t => t.listing ⟨""⟩
  | none => []

/-- Programs over files run on a disk in the state monad. -/
instance : DiskAccess (StateM Disk) where
  kindAt p := fun d => (d.kindAt p, d)
  readBytes p := fun d => (d.bytesAt p, d)
  writeBytes p bytes := fun d => d.writeBytes p bytes
  moveFile source target := fun d => d.moveFile source target
  makeFolder p := fun d => d.makeFolder p
  listFolder p := fun d => (d.listFolder p, d)

end Disk

end VoiceIndex
