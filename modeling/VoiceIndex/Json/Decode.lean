import VoiceIndex.Json.Reader

/-!
# Data in JSON texts

Reading data from a text fails in two ways: the text is not JSON, or the value it holds is
not the data.
-/

namespace VoiceIndex

/-- Why a text is not the data it should be. -/
inductive DataFault where
  | notJson
  | wrongShape
  /-- A cause given in words. -/
  | reported (text : String)
  deriving DecidableEq, Inhabited, Repr

/-- The cause in words. -/
def DataFault.text : DataFault → String
  | .notJson => "the text is not a JSON value"
  | .wrongShape => "the value does not have the expected fields"
  | .reported text => text

/-- The data in a text, which `read` finds in the value of the text. -/
def Json.decode {α : Type} (read : Json → Option α) (text : String) : Except DataFault α :=
  match parse? text with
  | none => .error .notJson
  | some x => match read x with
    | none => .error .wrongShape
    | some a => .ok a

end VoiceIndex
