/-!
# Length limits

A text that is too long is cut to its limit, in characters: plainly, or with a mark that
shows the loss. `length_clip` and `clip_clip` are the laws of the plain cut.
-/

namespace VoiceIndex.Text

/-- The first `limit` characters. -/
def clip (limit : Nat) (s : String) : String := .ofList (s.toList.take limit)

@[simp] theorem toList_clip (limit : Nat) (s : String) :
    (clip limit s).toList = s.toList.take limit := String.toList_ofList

theorem length_clip (limit : Nat) (s : String) :
    (clip limit s).toList.length = min limit s.toList.length := by simp

theorem clip_clip (m n : Nat) (s : String) : clip n (clip m s) = clip (min m n) s := by
  simp [clip, List.take_take, Nat.min_comm]

theorem clip_of_length_le {limit : Nat} {s : String} (h : s.toList.length ≤ limit) :
    clip limit s = s := by
  rw [clip, List.take_of_length_le h, String.ofList_toList]

/-- The mark at the end of a text that was cut. -/
def lossMark : String := "..."

/-- The text itself where it fits; else its first characters and the mark, as long together
as the limit. Under a limit shorter than the mark, the mark alone is left. -/
def clipMarked (limit : Nat) (s : String) : String :=
  if s.toList.length ≤ limit then s
  else .ofList (s.toList.take (limit - lossMark.toList.length) ++ lossMark.toList)

end VoiceIndex.Text
