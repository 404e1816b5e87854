import VoiceIndex.Text.Case.Classes
import VoiceIndex.Text.Case.Runs

/-!
# Lower case

Full lower-casing without a locale. Each character is replaced by its counterpart, with two
exceptions: the dotted capital I becomes two characters, and the capital sigma becomes the
final form where it ends a word, that is, where a letter precedes it and none follows, marks
and apostrophes aside.

`lower_append_of_not_sigma` says that without a capital sigma the context plays no part.
-/

namespace VoiceIndex

namespace Case

/-- The lower-case counterpart of one character, context aside. -/
def lowerChar (c : Char) : List Char :=
  if c.toNat < 0x80 then
    if 'A' ≤ c ∧ c ≤ 'Z' then [Char.ofNat (c.toNat + 0x20)] else [c]
  else if c = '\u0130' then ['i', '\u0307']
  else match lowerRuns.find? (·.maps c.toNat) with
    | some run => [Char.ofNat (run.image c.toNat)]
    | none => [c]

/-- Whether the first character that is not ignorable is a letter with case. -/
def reachesLetter (cs : List Char) : Bool :=
  match cs.dropWhile isIgnorable with
  | [] => false
  | c :: _ => isCased c

/-- Whether a place is the end of a word, given what precedes it, nearest first, and what
follows. -/
def endsWord (before after : List Char) : Bool := reachesLetter before && !reachesLetter after

/-- Lower-casing of characters that stand after `before`, given nearest first. -/
def lowerAfter (before : List Char) : List Char → List Char
  | [] => []
  | c :: after =>
    (if c = 'Σ' then [if endsWord before after then 'ς' else 'σ'] else lowerChar c) ++
      lowerAfter (c :: before) after

theorem lowerAfter_of_not_sigma {before cs : List Char} (h : 'Σ' ∉ cs) :
    lowerAfter before cs = cs.flatMap lowerChar := by
  induction cs generalizing before with
  | nil => rfl
  | cons c cs ih =>
    obtain ⟨hc, hcs⟩ : 'Σ' ≠ c ∧ 'Σ' ∉ cs := by simpa using h
    simp [lowerAfter, Ne.symm hc, ih hcs]

end Case

namespace Chars

/-- The characters in lower case. -/
def lower (cs : List Char) : List Char := Case.lowerAfter [] cs

theorem lower_append_of_not_sigma {a b : List Char} (ha : 'Σ' ∉ a) (hb : 'Σ' ∉ b) :
    lower (a ++ b) = lower a ++ lower b := by
  have hab : 'Σ' ∉ a ++ b := by simp [ha, hb]
  simp [lower, Case.lowerAfter_of_not_sigma, ha, hb, hab]

/-- The characters with the ASCII capitals made small. -/
def lowerAscii (cs : List Char) : List Char := cs.map Char.toLower

end Chars

namespace Text

/-- The text in lower case. -/
def lower (s : String) : String := .ofList (Chars.lower s.toList)

@[simp] theorem toList_lower (s : String) : (lower s).toList = Chars.lower s.toList :=
  String.toList_ofList

/-- Whether two texts differ at most in the case of ASCII letters. -/
def sameAscii (s t : String) : Bool := Chars.lowerAscii s.toList == Chars.lowerAscii t.toList

end Text

end VoiceIndex
