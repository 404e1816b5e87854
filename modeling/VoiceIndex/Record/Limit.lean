/-!
# Limits of the recorded texts

The greatest number of characters that each text of a record may have.
-/

namespace VoiceIndex.Limit

/-! ## Commands -/

def trigger : Nat := 200
def script : Nat := 2000
def application : Nat := 200
def title : Nat := 200
def mode : Nat := 300
def operatingSystem : Nat := 100
def tags : Nat := 500
def codeLanguage : Nat := 100
def language : Nat := 100
def hostname : Nat := 100
def filePath : Nat := 500
def repository : Nat := 200

/-! ## List items -/

def listName : Nat := 100
def spokenForm : Nat := 100
def listValue : Nat := 700
def sourceFile : Nat := 250

end VoiceIndex.Limit
