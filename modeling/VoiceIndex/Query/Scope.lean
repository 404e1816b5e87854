import VoiceIndex.Error
import VoiceIndex.Text.Blank
import VoiceIndex.Text.Case.Lower

/-!
# Search scopes

The texts of a command in which a search looks for its term. A scope has a number, by which
it is stored, and names, by which it is asked for.
-/

namespace VoiceIndex

/-- Where a search looks for its term. -/
inductive Scope where
  /-- What is spoken word for word. -/
  | names
  /-- The script. -/
  | script
  /-- The texts of the command, and the lists its placeholders refer to. -/
  | all
  /-- What is spoken word for word, and the lists its placeholders refer to. -/
  | spoken
  deriving DecidableEq, Inhabited, Repr

namespace Scope

/-- The number of a scope. -/
def code : Scope → Nat
  | names => 0
  | script => 1
  | all => 2
  | spoken => 3

/-- The name of a scope. -/
def name : Scope → String
  | names => "names"
  | script => "script"
  | all => "all"
  | spoken => "spoken"

/-- The scope with this number. -/
def ofCode : Nat → Except Error Scope
  | 0 => .ok names
  | 1 => .ok script
  | 2 => .ok all
  | 3 => .ok spoken
  | n => .error (.unknownScope (Text.decimal n))

theorem ofCode_code (s : Scope) : ofCode s.code = .ok s := by cases s <;> rfl

/-- The scope with this name, of which some have several. -/
def ofName? (name : String) : Option Scope :=
  if ["names", "commands", "command_names"].contains name then some names
  else if ["script", "scripts"].contains name then some script
  else if name = "all" then some all
  else if ["spoken", "spoken_forms"].contains name then some spoken
  else none

/-- The scope that a text asks for, by its number or by a name in any case. -/
def ofText (given : String) : Except Error Scope :=
  let given := Text.trim given
  match Text.counter? 255 given with
  | some code => ofCode code
  | none => match ofName? (Text.lower given) with
    | some scope => .ok scope
    | none => .error (.unknownScope given)

end Scope

end VoiceIndex
