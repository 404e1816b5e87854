import VoiceIndex.Text.Case.Lower
import VoiceIndex.Text.Pieces

/-!
# What a path says about a file

The folder of voice commands is named `user`. The folder below it is the repository that a
command file belongs to, and the path below it names the list that a list file holds.
Both kinds of slash part a path.
-/

namespace VoiceIndex

/-- Whether a character parts a path. -/
def isSlash (c : Char) : Bool := c == '/' || c == '\\'

/-- What follows the first member that satisfies `p`. -/
def following? {α : Type} (p : α → Bool) : List α → Option (List α)
  | [] => none
  | a :: rest => if p a then some rest else following? p rest

/-- The folder right below the first folder named `user`, in any case of its letters. It must
be a folder, which shows in that something follows it. -/
def repository? (path : String) : Option String :=
  match following? (Text.sameAscii "user") (Text.pieces isSlash path) with
  | some (name :: _ :: _) => if name = "" then none else some name
  | _ => none

/-- The ending of the name of a list file. -/
def listFileEnding : String := ".talon-list"

/-- The beginning of the name of every list. -/
def listNameStart : String := "user."

/-- The path of a file from below the first folder named `user`, or the file's own name if
there is no such folder. -/
def pathBelowUser (path : String) : String :=
  let parts := (Text.pieces isSlash path).filter (· ≠ "")
  match following? (· = "user") parts with
  | some (part :: rest) => "/".intercalate (part :: rest)
  | _ => parts.getLast?.getD ""

/-- The name of the list in the file with this path: the path below the folder `user`, without
its ending and with the common beginning. -/
def listNameOfPath (path : String) : String :=
  let below := pathBelowUser path
  let name := (Text.before? listFileEnding below).getD below
  if Text.startsWith listNameStart name then name else listNameStart ++ name

end VoiceIndex
