import Std.Time.DateTime.Timestamp
import VoiceIndex.Cli.Run
import VoiceIndex.Timestamp

/-!
# The executable

Connects the program to the files, the clock and the surroundings of the one who runs it.
-/

namespace VoiceIndex.Main

/-- The path as the system takes it. -/
def place (p : Path) := System.mkFilePath [p.text]

/-- The cause of a refusal by the system. -/
def fault : IO.Error → Fault
  | .noFileOrDirectory .. => .notFound
  | .alreadyExists .. => .alreadyThere
  | e => .reported (toString e)

/-- The result of a request to the system. -/
def attempt {α : Type} (x : IO α) : IO (Except Fault α) := do
  match ← x.toBaseIO with
  | .ok a => return .ok a
  | .error e => return .error (fault e)

/-- What the folder at the path lists. Links are not followed. -/
def listFolder (p : Path) : IO (Except Fault Listing) := do
  match ← attempt (place p).readDir with
  | .error cause => return .error cause
  | .ok found =>
    let entries ← found.toList.mapM fun entry => do
      let looked ← attempt (place (p.join entry.fileName)).symlinkMetadata
      return (entry.fileName, looked.map fun data => if data.type == .dir then .folder else .file)
    return .ok { entries }

/-- The disk of the machine. -/
instance : DiskAccess IO where
  kindAt p := do
    match ← attempt (place p).metadata with
    | .error _ => return none
    | .ok found => return some (if found.type == .dir then .folder else .file)
  readBytes p := attempt (IO.FS.readBinFile (place p))
  writeBytes p bytes := attempt (IO.FS.writeBinFile (place p) bytes)
  moveFile source target := attempt (IO.FS.rename (place source) (place target))
  makeFolder p := attempt (IO.FS.createDir (place p))
  listFolder := listFolder

/-- A path in a variable of the surroundings, if `p` holds of it. -/
def variablePath? (name : String) (p : Path → Bool) : IO (Option Path) := do
  match ← IO.getEnv name with
  | some text => return if p ⟨text⟩ then some ⟨text⟩ else none
  | none => return none

/-- The surroundings of the one who runs the program. -/
def environment : IO Environment := do
  let home? ← variablePath? "HOME" (·.text ≠ "")
  let configHome? ← variablePath? "XDG_CONFIG_HOME" Path.isAbsolute
  let dataHome? ← variablePath? "XDG_DATA_HOME" Path.isAbsolute
  return { home?, configHome?, dataHome? }

/-- The present time. -/
def now : IO String := do
  let present ← Std.Time.Timestamp.now
  return Timestamp.text present.toNanosecondsSinceUnixEpoch.toInt.toNat

end VoiceIndex.Main

/-- Runs the program with the arguments it was called with. -/
def main (args : List String) : IO UInt32 := do
  let now ← VoiceIndex.Main.now
  let outcome ← VoiceIndex.Cli.run (fun _ => now) (← VoiceIndex.Main.environment) args
  IO.print outcome.out
  IO.eprint outcome.err
  return .ofNat outcome.code
