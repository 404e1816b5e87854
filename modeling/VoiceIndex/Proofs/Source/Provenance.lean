import VoiceIndex.Proofs.Text.Pieces
import VoiceIndex.Source.Origin

/-!
# Where a file comes from

What a path says about a file in the folder of voice commands, `.talon/user` in somebody's home
folder. The first part `user` of the whole path is taken for that folder. So the repository of
every command file and the name of every list are told by the path below the folder if no part of
the home folder is called `user`, and only then (`provenance_iff`); the repository takes `User`
for such a part too. The home folder `/home/user` is the common case in which both go wrong
(`provenance_below_home_user`).
-/

namespace VoiceIndex

/-! ## The part that follows -/

section Following

variable {α : Type} {p : α → Bool} {xs ys rest : List α}

theorem following?_append (p : α → Bool) (xs ys : List α) :
    following? p (xs ++ ys) = ((following? p xs).map (· ++ ys)).or (following? p ys) := by
  induction xs with
  | nil => simp [following?]
  | cons x xs ih => by_cases h : p x = true <;> simp [following?, h, ih]

theorem following?_eq_none_iff : following? p xs = none ↔ ∀ x ∈ xs, p x = false := by
  induction xs with
  | nil => simp [following?]
  | cons x xs ih => by_cases h : p x = true <;> simp [following?, h, ih]

end Following

/-! ## Paths in the folder -/

/-- A name of a file or folder, as it stands between the slashes of a path. -/
def IsSegment (s : String) : Prop := s ≠ "" ∧ ∀ c ∈ s.toList, isSlash c = false

instance : DecidablePred IsSegment := fun s =>
  decidable_of_iff (s ≠ "" ∧ s.toList.all (!isSlash ·)) (by simp [IsSegment])

/-- The path of a file in the folder of voice commands in this home folder, given the path below
that folder. -/
def inUserFolder (home below : String) : String := home ++ "/.talon/user/" ++ below

theorem pieces_intercalate {segments : List String} (hne : segments ≠ [])
    (h : ∀ s ∈ segments, IsSegment s) :
    Text.pieces isSlash ("/".intercalate segments) = segments := by
  induction segments with
  | nil => exact absurd rfl hne
  | cons s rest ih =>
    have hs : Text.pieces isSlash s = [s] := Text.pieces_of_not_sep (h s List.mem_cons_self).2
    by_cases hrest : rest = []
    · rw [hrest, String.intercalate_singleton, hs]
    · have hcut : ("/".intercalate (s :: rest)).toList =
          s.toList ++ '/' :: ("/".intercalate rest).toList := by
        rw [String.intercalate_cons_of_ne_nil hrest]
        simp
      rw [Text.pieces_of_append (by decide) hcut, hs,
        ih hrest fun t ht => h t (List.mem_cons_of_mem s ht), List.singleton_append]

theorem pieces_inUserFolder (home below : String) :
    Text.pieces isSlash (inUserFolder home below) =
      Text.pieces isSlash home ++ ".talon" :: "user" :: Text.pieces isSlash below := by
  have htalon : Text.pieces isSlash ".talon" = [".talon"] :=
    Text.pieces_of_not_sep (show IsSegment ".talon" by decide).2
  have huser : Text.pieces isSlash "user" = ["user"] :=
    Text.pieces_of_not_sep (show IsSegment "user" by decide).2
  have h₁ : (inUserFolder home below).toList =
      home.toList ++ '/' :: (".talon" ++ "/" ++ ("user" ++ "/" ++ below)).toList := by
    unfold inUserFolder
    simp
  have h₂ : (".talon" ++ "/" ++ ("user" ++ "/" ++ below)).toList =
      ".talon".toList ++ '/' :: ("user" ++ "/" ++ below).toList := by simp
  have h₃ : ("user" ++ "/" ++ below).toList = "user".toList ++ '/' :: below.toList := by simp
  rw [Text.pieces_of_append (by decide) h₁, Text.pieces_of_append (by decide) h₂,
    Text.pieces_of_append (by decide) h₃, htalon, huser]
  rfl

/-! ## Repositories -/

/-- What is taken for the repository of a file below the folder: the folder that it lies in there,
or what follows the first part `user` of the home folder, which is `.talon` at its end. -/
theorem repository?_inUserFolder (home : String) {r s : String} {more : List String}
    (h : ∀ part ∈ r :: s :: more, IsSegment part) :
    repository? (inUserFolder home ("/".intercalate (r :: s :: more))) =
      match following? (Text.sameAscii "user") (Text.pieces isSlash home) with
      | none => some r
      | some [] => some ".talon"
      | some (name :: _) => if name = "" then none else some name := by
  have htalon : Text.sameAscii "user" ".talon" = false := by decide
  have huser : Text.sameAscii "user" "user" = true := by decide
  have hr : r ≠ "" := (h r List.mem_cons_self).1
  unfold repository?
  rw [pieces_inUserFolder, pieces_intercalate (List.cons_ne_nil _ _) h, following?_append]
  simp only [following?, htalon, huser, if_true, Bool.false_eq_true, if_false]
  rcases following? (Text.sameAscii "user") (Text.pieces isSlash home) with - | - | ⟨name, rest⟩
  · simp [hr]
  · simp
  · cases rest <;> simp

theorem repository_iff (home : String) :
    (∀ r s more, (∀ part ∈ r :: s :: more, IsSegment part) →
      repository? (inUserFolder home ("/".intercalate (r :: s :: more))) = some r) ↔
      ∀ part ∈ Text.pieces isSlash home, Text.sameAscii "user" part = false := by
  rw [← following?_eq_none_iff]
  constructor
  · intro h
    -- two files in different repositories show that the answer is not read off the home folder
    have ha : ∀ part ∈ ["a", "f"], IsSegment part := by decide
    have hb : ∀ part ∈ ["b", "f"], IsSegment part := by decide
    have hanswer := (repository?_inUserFolder home ha).symm.trans (h "a" "f" [] ha)
    have hanswer' := (repository?_inUserFolder home hb).symm.trans (h "b" "f" [] hb)
    cases hf : following? (Text.sameAscii "user") (Text.pieces isSlash home) with
    | none => rfl
    | some rest =>
      rw [hf] at hanswer hanswer'
      have hsame : some "a" = some "b" := by
        cases rest with
        | nil => exact hanswer.symm.trans hanswer'
        | cons _ _ => exact hanswer.symm.trans hanswer'
      exact absurd hsame (by decide)
  · intro h r s more hseg
    rw [repository?_inUserFolder home hseg, h]

/-! ## Names of lists -/

/-- The name that a list should have that lies at `q`, without its ending, below the folder. -/
def listNameBelow (q : String) : String :=
  if Text.startsWith listNameStart q then q else listNameStart ++ q

theorem length_listNameBelow_le (q : String) :
    (listNameBelow q).toList.length ≤ q.toList.length + 5 := by
  have hstart : listNameStart.toList.length = 5 := rfl
  unfold listNameBelow
  split_ifs
  · omega
  · rw [String.toList_append, List.length_append]
    omega

theorem le_length_listNameBelow (q : String) :
    q.toList.length ≤ (listNameBelow q).toList.length := by
  unfold listNameBelow
  split_ifs
  · exact Nat.le_refl _
  · rw [String.toList_append, List.length_append]
    omega

theorem listNameOfPath_of_below {path q : String} (h : pathBelowUser path = q ++ listFileEnding) :
    listNameOfPath path = listNameBelow q := by
  have hcut : Text.before? listFileEnding (q ++ listFileEnding) = some q :=
    Text.before?_eq_some_iff.2 rfl
  unfold listNameOfPath listNameBelow
  simp only [h, hcut, Option.getD_some]

/-- What is taken for the path of a file below the folder: what it should be, or, if there is a
part `user` in the home folder, also what stands before it from that part on. -/
theorem pathBelowUser_inUserFolder (home : String) {segments : List String}
    (hne : segments ≠ []) (h : ∀ s ∈ segments, IsSegment s) :
    pathBelowUser (inUserFolder home ("/".intercalate segments)) =
      match following? (· = "user") ((Text.pieces isSlash home).filter (· ≠ "")) with
      | none => "/".intercalate segments
      | some rest => "/".intercalate (rest ++ ".talon" :: "user" :: segments) := by
  have hfilter : segments.filter (· ≠ "") = segments :=
    List.filter_eq_self.2 fun s hs => by simpa using (h s hs).1
  unfold pathBelowUser
  rw [pieces_inUserFolder, pieces_intercalate hne h, List.filter_append,
    List.filter_cons_of_pos (by decide), List.filter_cons_of_pos (by decide), hfilter]
  dsimp only
  rw [following?_append]
  simp only [following?, decide_true, if_true, show (".talon" = "user") = False by decide,
    decide_false, Bool.false_eq_true, if_false]
  rcases following? (· = "user") ((Text.pieces isSlash home).filter (· ≠ "")) with - | - | ⟨_, _⟩
  · obtain ⟨s, rest, rfl⟩ := List.exists_cons_of_ne_nil hne
    rfl
  · rfl
  · rfl

theorem exists_intercalate_append (sep : String) (front : List String) {rest : List String}
    (hne : rest ≠ []) :
    ∃ before, sep.intercalate (front ++ rest) = before ++ sep.intercalate rest := by
  by_cases hfront : front = []
  · exact ⟨"", by rw [hfront, List.nil_append, String.empty_append]⟩
  · exact ⟨_, String.intercalate_append_of_ne_nil hfront hne⟩

theorem listName_iff {home q : String} {segments : List String}
    (h : ∀ s ∈ segments, IsSegment s) (hq : "/".intercalate segments = q ++ listFileEnding) :
    listNameOfPath (inUserFolder home (q ++ listFileEnding)) = listNameBelow q ↔
      ∀ part ∈ Text.pieces isSlash home, part ≠ "user" := by
  have hne : segments ≠ [] := by
    rintro rfl
    have hlen := congrArg (·.toList.length) hq
    simp [listFileEnding] at hlen
  have hfree : (∀ part ∈ Text.pieces isSlash home, part ≠ "user") ↔
      following? (· = "user") ((Text.pieces isSlash home).filter (· ≠ "")) = none := by
    rw [following?_eq_none_iff]
    simp only [List.mem_filter, decide_eq_true_eq, decide_eq_false_iff_not, and_imp]
    exact ⟨fun h part hpart _ => h part hpart, fun h part hpart huser =>
      h part hpart (by rw [huser]; decide) huser⟩
  rw [hfree]
  have hbelow := pathBelowUser_inUserFolder home hne h
  rw [hq] at hbelow
  cases hf : following? (· = "user") ((Text.pieces isSlash home).filter (· ≠ "")) with
  | none =>
    rw [hf] at hbelow
    simp only [listNameOfPath_of_below hbelow]
  | some rest =>
    rw [hf] at hbelow
    -- what comes before the file's own path makes the name longer than it should be
    obtain ⟨front, hfront⟩ := exists_intercalate_append "/" rest
      (List.cons_ne_nil ".talon" ("user" :: segments))
    rw [String.intercalate_cons_of_ne_nil (List.cons_ne_nil _ _),
      String.intercalate_cons_of_ne_nil hne, hq] at hfront
    have hlonger : pathBelowUser (inUserFolder home (q ++ listFileEnding)) =
        (front ++ ".talon/user/" ++ q) ++ listFileEnding := by
      rw [hbelow]
      show "/".intercalate (rest ++ ".talon" :: "user" :: segments) = _
      rw [hfront, ← String.toList_inj]
      simp
    rw [listNameOfPath_of_below hlonger]
    refine iff_of_false (fun hsame => ?_) (by simp)
    have hlong := le_length_listNameBelow (front ++ ".talon/user/" ++ q)
    have hshort := length_listNameBelow_le q
    have htalon : ".talon/user/".toList.length = 12 := rfl
    rw [hsame, String.toList_append, String.toList_append, List.length_append,
      List.length_append] at hlong
    omega

/-! ## The home folder -/

/-- **The path below the folder decides, unless the home folder has a part `user`.** The files of
a home folder are all told their repositories by the path below the folder of voice commands if
and only if no part of the home folder is `user` in any case of its letters; a list has the name
that its path below the folder gives it if and only if no part of the home folder is `user`. -/
theorem provenance_iff (home : String) :
    ((∀ r s more, (∀ part ∈ r :: s :: more, IsSegment part) →
        repository? (inUserFolder home ("/".intercalate (r :: s :: more))) = some r) ↔
      ∀ part ∈ Text.pieces isSlash home, Text.sameAscii "user" part = false) ∧
    ∀ segments q, (∀ part ∈ segments, IsSegment part) →
      "/".intercalate segments = q ++ ".talon-list" →
        (listNameOfPath (inUserFolder home (q ++ ".talon-list")) = listNameBelow q ↔
          ∀ part ∈ Text.pieces isSlash home, part ≠ "user") :=
  ⟨repository_iff home, fun _ _ h hq => listName_iff h hq⟩

theorem provenance_below_home_user :
    (repository? (inUserFolder "/home/user" "community/a.talon") = some ".talon" ∧
      repository? (inUserFolder "/home/user" "community/a.talon") ≠ some "community") ∧
    (listNameOfPath (inUserFolder "/home/user" "emoji.talon-list") = "user..talon/user/emoji" ∧
      listNameOfPath (inUserFolder "/home/user" "emoji.talon-list") ≠ listNameBelow "emoji") := by
  decide +kernel

end VoiceIndex
