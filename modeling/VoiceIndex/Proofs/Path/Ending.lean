import VoiceIndex.Path
import VoiceIndex.Proofs.Text.Pieces

/-!
# The end of a path

A path that leads to a file ends in a name: `EndsIn front name` splits it there. The parts of
`front` are those of the parent but for single dots at its end (`parent?_of_endsIn`), and an
extension is changed within the name, so that the path stays in the same folder
(`withExtension_of_endsIn`).
-/

namespace VoiceIndex.Path

/-! ## Parts -/

/-- The parts between the slashes that are not empty. -/
def partsOf (cs : List Char) : List String :=
  ((cs.splitOnP (· == '/')).map String.ofList).filter (· ≠ "")

theorem segments_eq (p : Path) : p.segments = partsOf p.text.toList := rfl

variable {p q : Path} {front name cs : List Char}

theorem partsOf_append_slash (a b : List Char) :
    partsOf (a ++ '/' :: b) = partsOf a ++ partsOf b := by
  unfold partsOf
  rw [List.splitOnP_append_cons a b (by decide), List.map_append, List.filter_append]

@[simp] theorem partsOf_nil : partsOf [] = [] := by
  unfold partsOf
  rw [List.splitOnP_nil]
  decide

theorem partsOf_of_not_mem (hne : name ≠ []) (h : '/' ∉ name) :
    partsOf name = [.ofList name] := by
  have hname : ∀ c ∈ name, (c == '/') = false := fun c hc =>
    beq_eq_false_iff_ne.2 fun heq => h (heq ▸ hc)
  have hne' : String.ofList name ≠ "" := fun heq => hne (String.ofList_eq_empty_iff.1 heq)
  unfold partsOf
  rw [List.splitOnP_eq_singleton hname, List.map_singleton,
    List.filter_cons_of_pos (by simpa using hne'), List.filter_nil]

/-! ## Names at the end -/

/-- The path ends in this name, which is neither empty nor dots; what stands before it is empty or
ends with a slash. -/
structure EndsIn (p : Path) (front name : List Char) : Prop where
  toList_eq : p.text.toList = front ++ name
  front_cases : front = [] ∨ ∃ before, front = before ++ ['/']
  not_mem : '/' ∉ name
  ne_nil : name ≠ []
  ne_dot : name ≠ ['.']
  ne_dots : name ≠ ['.', '.']

theorem segments_of_endsIn (h : p.EndsIn front name) :
    p.segments = partsOf front ++ [.ofList name] := by
  rw [segments_eq, h.toList_eq, ← partsOf_of_not_mem h.ne_nil h.not_mem]
  rcases h.front_cases with rfl | ⟨before, rfl⟩
  · rw [List.nil_append, partsOf_nil, List.nil_append]
  · rw [List.append_assoc, List.singleton_append, partsOf_append_slash, partsOf_append_slash,
      partsOf_nil, List.append_nil]

theorem isAbsolute_eq (p : Path) : p.isAbsolute = (p.text.toList.head? == some '/') := by
  unfold isAbsolute Text.startsWith
  cases p.text.toList <;> simp [List.isPrefixOf, eq_comm]

theorem isAbsolute_of_endsIn (h : p.EndsIn front name) :
    p.isAbsolute = (front.head? == some '/') := by
  rw [isAbsolute_eq, h.toList_eq]
  rcases h.front_cases with rfl | ⟨before, rfl⟩
  · obtain ⟨c, rest, rfl⟩ := List.exists_cons_of_ne_nil h.ne_nil
    have hc : c ≠ '/' := fun hc => h.not_mem (hc ▸ List.mem_cons_self)
    simp [hc]
  · cases before <;> rfl

theorem endsWithSlash_of_endsIn (h : p.EndsIn front name) : p.endsWithSlash = false := by
  unfold endsWithSlash
  rw [h.toList_eq, List.getLast?_append_of_ne_nil _ h.ne_nil, beq_eq_false_iff_ne]
  exact fun hlast => h.not_mem (List.mem_of_getLast? hlast)

/-- A path ends in its last part if that is a name and nothing follows it. -/
theorem exists_endsIn {last : String} (hslash : p.endsWithSlash = false)
    (hlast : p.segments.getLast? = some last) (hdot : last ≠ ".") (hdots : last ≠ "..") :
    ∃ front name, p.EndsIn front name := by
  obtain ⟨name, hname⟩ : ∃ name, (p.text.toList.splitOnP (· == '/')).getLast? = some name :=
    Option.ne_none_iff_exists'.1 fun h => List.splitOnP_ne_nil _ _ (List.getLast?_eq_none_iff.1 h)
  obtain ⟨hmem, hcut⟩ := Chars.getLast?_splitOnP_iff.1 hname
  have hnot : '/' ∉ name := fun h => by simpa using hmem '/' h
  -- an empty last piece stands after a slash at the end, or the path is empty
  have hne : name ≠ [] := by
    rintro rfl
    rcases hcut with hcut | ⟨front, sep, hsep, hcut⟩
    · simp [segments_eq, hcut] at hlast
    · rw [beq_iff_eq] at hsep
      simp [endsWithSlash, hcut, hsep] at hslash
  obtain ⟨front, hfront, hsegments⟩ : ∃ front, p.text.toList = front ++ name ∧
      (front = [] ∨ ∃ before, front = before ++ ['/']) := by
    rcases hcut with hcut | ⟨before, sep, hsep, hcut⟩
    · exact ⟨[], hcut, .inl rfl⟩
    · rw [beq_iff_eq] at hsep
      exact ⟨before ++ ['/'], by rw [hcut, hsep, List.append_assoc]; rfl, .inr ⟨before, rfl⟩⟩
  have hlast' : last = .ofList name := by
    rw [segments_eq, hfront] at hlast
    rcases hsegments with rfl | ⟨before, rfl⟩
    · rw [List.nil_append, partsOf_of_not_mem hne hnot] at hlast
      simpa using hlast.symm
    · rw [List.append_assoc, List.singleton_append, partsOf_append_slash,
        partsOf_of_not_mem hne hnot] at hlast
      simpa using hlast.symm
  refine ⟨front, name, hfront, hsegments, hnot, hne, ?_, ?_⟩
  · rintro rfl
    exact hdot hlast'
  · rintro rfl
    exact hdots hlast'

/-! ## From the end -/

theorem bare_of_endsIn (h : p.EndsIn front name) :
    bare p.text.toList.reverse = name.reverse ++ front.reverse := by
  rw [h.toList_eq, List.reverse_append]
  have hmem : '/' ∉ name.reverse := mt List.mem_reverse.1 h.not_mem
  have hne : name.reverse ≠ [] := mt List.reverse_eq_nil_iff.1 h.ne_nil
  have hdot : name.reverse ≠ ['.'] := fun hn => h.ne_dot (List.reverse_eq_iff.1 hn)
  match hn : name.reverse with
  | [] => exact absurd hn hne
  | [c] =>
    have hc : c ≠ '/' := fun hc => hmem (by simp [hn, hc])
    have hc' : c ≠ '.' := fun hc' => hdot (by rw [hn, hc'])
    unfold bare
    split <;> simp_all
  | c :: d :: rest =>
    have hc : c ≠ '/' := fun hc => hmem (by simp [hn, hc])
    have hd : d ≠ '/' := fun hd => hmem (by simp [hn, hd])
    unfold bare
    split <;> simp_all

/-- Reading backwards, the name comes first and then what stands before it. -/
theorem takeWhile_reverse_of_endsIn (h : p.EndsIn front name) :
    (name.reverse ++ front.reverse).takeWhile (· ≠ '/') = name.reverse := by
  have hname : ∀ c ∈ name.reverse, decide (c ≠ '/') = true := fun c hc => by
    simpa using fun heq : c = '/' => h.not_mem (heq ▸ List.mem_reverse.1 hc)
  rw [List.takeWhile_append_of_pos hname]
  rcases h.front_cases with rfl | ⟨before, rfl⟩ <;> simp

theorem dropWhile_reverse_of_endsIn (h : p.EndsIn front name) :
    (name.reverse ++ front.reverse).dropWhile (· ≠ '/') = front.reverse := by
  have hname : ∀ c ∈ name.reverse, decide (c ≠ '/') = true := fun c hc => by
    simpa using fun heq : c = '/' => h.not_mem (heq ▸ List.mem_reverse.1 hc)
  rw [List.dropWhile_append_of_pos hname]
  rcases h.front_cases with rfl | ⟨before, rfl⟩ <;> simp

theorem fileName?_of_endsIn (h : p.EndsIn front name) : p.fileName? = some (.ofList name) := by
  unfold fileName?
  rw [bare_of_endsIn h, takeWhile_reverse_of_endsIn h, List.reverse_reverse]
  simp only [h.ne_nil, h.ne_dot, h.ne_dots, or_self, if_false]

/-! ## Extensions -/

/-- The characters of a name before its extension. -/
def stemOf (name : List Char) : List Char :=
  match cutName name.reverse with
  | some (_, stem) => stem.reverse
  | none => name

theorem toList_extendStem (h : p.EndsIn front name) (extension : String) :
    (p.extendStem extension).text.toList = front ++ (stemOf name ++ '.' :: extension.toList) := by
  unfold extendStem stemOf
  rw [fileName?_of_endsIn h]
  simp only [bare_of_endsIn h, dropWhile_reverse_of_endsIn h, String.toList_ofList,
    List.reverse_reverse]
  cases cutName name.reverse <;> simp

theorem cutName_eq_some_iff {after stem : List Char} :
    cutName cs = some (after, stem) ↔ cs = after ++ '.' :: stem ∧ '.' ∉ after ∧ stem ≠ [] := by
  unfold cutName
  rw [Option.filter_eq_some_iff, Chars.cut_eq_some_iff, and_assoc]
  simp

/-- A name without extension stays as it is when its extension is dropped. -/
theorem dropExtension_of_cutName_none (h : p.EndsIn front name)
    (hcut : cutName name.reverse = none) :
    p.dropExtension = p := by
  have hext : p.extension? = none := by
    unfold extension?
    simp [fileName?_of_endsIn h, hcut]
  unfold dropExtension
  simp [hext]

/-- Of a name with an extension the dot is left when its extension is dropped. -/
theorem toList_dropExtension {after stem : List Char} (h : p.EndsIn front name)
    (hcut : cutName name.reverse = some (after, stem)) :
    p.dropExtension.text.toList = front ++ (stem.reverse ++ ['.']) := by
  have hext : p.extension? = some (.ofList after.reverse) := by
    unfold extension?
    simp [fileName?_of_endsIn h, hcut]
  have hname : name = stem.reverse ++ ['.'] ++ after.reverse := by
    have := List.reverse_eq_iff.1 (cutName_eq_some_iff.1 hcut).1
    simpa using this
  have htext : p.text.toList = front ++ (stem.reverse ++ ['.']) ++ after.reverse := by
    rw [h.toList_eq, hname, ← List.append_assoc]
  unfold dropExtension
  simp only [hext, Option.getD_some, String.toList_ofList, htext, List.length_append,
    Nat.add_sub_cancel]
  rw [List.take_append_of_le_length (by simp), List.take_of_length_le (by simp)]

theorem stemOf_of_none (hcut : cutName name.reverse = none) : stemOf name = name := by
  unfold stemOf
  rw [hcut]

theorem stemOf_of_some {after stem : List Char} (hcut : cutName name.reverse = some (after, stem)) :
    stemOf name = stem.reverse := by
  unfold stemOf
  rw [hcut]

/-- A stem with an extension makes a name. -/
theorem endsIn_extended {stem : List Char} {extension : String}
    (htext : p.text.toList = front ++ (stem ++ '.' :: extension.toList))
    (hfront : front = [] ∨ ∃ before, front = before ++ ['/']) (hstem : '/' ∉ stem)
    (hne : stem ≠ []) (hdot : stem ≠ ['.']) (hext : '/' ∉ extension.toList) :
    p.EndsIn front (stem ++ '.' :: extension.toList) := by
  refine ⟨htext, hfront, ?_, by simp, ?_, ?_⟩
  · simp [hstem, hext]
  · intro heq
    cases stem with
    | nil => exact hne rfl
    | cons c rest => simp at heq
  · intro heq
    match stem with
    | [] => exact hne rfl
    | [c] =>
      rw [List.singleton_append, List.cons.injEq] at heq
      exact hdot (by rw [heq.1])
    | c :: d :: rest => simp at heq

/-- With another extension, a path ends in another name in the same folder, unless two dots are
all that is left of its name. -/
theorem withExtension_of_endsIn (h : p.EndsIn front name) {extension : String}
    (hext : '/' ∉ extension.toList) :
    (p.withExtension extension).fileName? = none ∨
      (p.withExtension extension).EndsIn front (stemOf name ++ '.' :: extension.toList) := by
  unfold withExtension
  cases hcut : cutName name.reverse with
  | none =>
    rw [dropExtension_of_cutName_none h hcut]
    refine .inr (endsIn_extended (toList_extendStem h extension) h.front_cases ?_ ?_ ?_ hext) <;>
      rw [stemOf_of_none hcut]
    · exact h.not_mem
    · exact h.ne_nil
    · exact h.ne_dot
  | some cut =>
    obtain ⟨after, stem⟩ := cut
    have htext := toList_dropExtension h hcut
    obtain ⟨hname, -, hne⟩ := cutName_eq_some_iff.1 hcut
    have hmem : '/' ∉ stem := fun hmem => h.not_mem (by
      rw [← List.mem_reverse, hname]
      simp [hmem])
    by_cases hdot : stem = ['.']
    · left
      rw [hdot] at htext
      have hnone : p.dropExtension.fileName? = none := by
        unfold fileName?
        rw [htext]
        rcases h.front_cases with rfl | ⟨before, rfl⟩ <;> simp [bare]
      unfold extendStem
      simp only [hnone]
    · right
      have hends : p.dropExtension.EndsIn front (stem.reverse ++ ['.']) := by
        show p.dropExtension.EndsIn front (stem.reverse ++ '.' :: "".toList)
        refine endsIn_extended htext h.front_cases ?_ ?_ ?_ (by decide)
        · exact mt List.mem_reverse.1 hmem
        · exact mt List.reverse_eq_nil_iff.1 hne
        · exact fun hs => hdot (List.reverse_eq_iff.1 hs)
      have hcut' : cutName (stem.reverse ++ ['.']).reverse = some ([], stem) := by
        rw [cutName_eq_some_iff]
        simp [hne]
      have hextended := toList_extendStem hends extension
      rw [stemOf_of_some hcut'] at hextended
      rw [stemOf_of_some hcut]
      refine endsIn_extended hextended h.front_cases ?_ ?_ ?_ hext
      · exact mt List.mem_reverse.1 hmem
      · exact mt List.reverse_eq_nil_iff.1 hne
      · exact fun hs => hdot (List.reverse_eq_iff.1 hs)

/-- An extension of several parts is never the one that a name has. -/
theorem stemOf_append_ne {extension : String} (hext : '.' ∈ extension.toList) :
    stemOf name ++ '.' :: extension.toList ≠ name := by
  cases hcut : cutName name.reverse with
  | none =>
    rw [stemOf_of_none hcut]
    simp
  | some cut =>
    obtain ⟨after, stem⟩ := cut
    obtain ⟨hname, hafter, -⟩ := cutName_eq_some_iff.1 hcut
    have hname' : name = stem.reverse ++ '.' :: after.reverse := by
      simpa using List.reverse_eq_iff.1 hname
    rw [stemOf_of_some hcut]
    intro heq
    rw [hname', List.append_cancel_left_eq, List.cons.injEq] at heq
    rw [heq.2, List.mem_reverse] at hext
    exact hafter hext

/-- With an extension of several parts, a path that still ends in a name ends in another one in
the same folder. -/
theorem exists_endsIn_withExtension (h : p.EndsIn front name) {extension : String}
    (hext : '/' ∉ extension.toList) (hdot : '.' ∈ extension.toList) {front' name' : List Char}
    (h' : (p.withExtension extension).EndsIn front' name') :
    ∃ other ≠ name, (p.withExtension extension).EndsIn front other := by
  rcases withExtension_of_endsIn h hext with hnone | hends
  · simp [fileName?_of_endsIn h'] at hnone
  · exact ⟨_, stemOf_append_ne hdot, hends⟩

/-! ## Parents -/

theorem bare_suffix (cs : List Char) : bare cs <:+ cs := by
  fun_induction bare cs with
  | case1 rest ih => exact ih.trans (List.suffix_cons _ _)
  | case2 rest ih => exact ih.trans ((List.suffix_cons _ _).trans (List.suffix_cons _ _))
  | case3 cs => exact List.suffix_refl cs

/-- What is passed over at the end of a path are single dots, and slashes. -/
theorem exists_partsOf_eq (cs : List Char) :
    ∃ n, partsOf cs.reverse = partsOf (bare cs).reverse ++ List.replicate n "." := by
  fun_induction bare cs with
  | case1 rest ih =>
    obtain ⟨n, hn⟩ := ih
    refine ⟨n, ?_⟩
    rw [List.reverse_cons, partsOf_append_slash, partsOf_nil, List.append_nil, hn]
  | case2 rest ih =>
    obtain ⟨n, hn⟩ := ih
    refine ⟨n + 1, ?_⟩
    have hdot : partsOf ['.'] = ["."] := partsOf_of_not_mem (by simp) (by decide)
    rw [List.reverse_cons, List.reverse_cons, List.append_assoc, List.singleton_append,
      partsOf_append_slash, hn, hdot, List.append_assoc, List.replicate_succ']
  | case3 cs => exact ⟨0, by simp⟩

theorem getLast?_of_bare_eq_nil (hne : cs ≠ []) (h : bare cs = []) : cs.getLast? = some '/' := by
  fun_induction bare cs with
  | case1 rest ih =>
    by_cases hrest : rest = []
    · simp [hrest]
    · rw [List.getLast?_cons_of_ne_nil hrest, ih hrest h]
  | case2 rest ih =>
    by_cases hrest : rest = []
    · simp [hrest]
    · rw [List.getLast?_cons_of_ne_nil (List.cons_ne_nil _ _),
        List.getLast?_cons_of_ne_nil hrest, ih hrest h]
  | case3 cs => exact absurd h hne

/-- The parent of a name alone is the empty path. -/
theorem parent?_of_endsIn_nil (h : p.EndsIn [] name) : p.parent? = some ⟨""⟩ := by
  have hdrop := dropWhile_reverse_of_endsIn h
  have hbare := bare_of_endsIn h
  unfold parent?
  rw [hbare]
  split
  · next heq => simp [h.ne_nil] at heq
  · rw [hdrop]
    rfl

/-- The parent of any other path is a beginning of what stands before the name, with the same
parts but for single dots at the end. -/
theorem parent?_of_endsIn (h : p.EndsIn front name) (hfront : front ≠ []) :
    ∃ q : Path, p.parent? = some q ∧ q.text.toList ≠ [] ∧ q.text.toList <+: front ∧
      ∃ n, partsOf front = q.segments ++ List.replicate n "." := by
  have hdrop := dropWhile_reverse_of_endsIn h
  have hbare := bare_of_endsIn h
  obtain ⟨n, hn⟩ := exists_partsOf_eq front.reverse
  rw [List.reverse_reverse] at hn
  unfold parent?
  rw [hbare]
  split
  · next heq => simp [h.ne_nil] at heq
  · rw [hdrop]
    split
    · next heq => exact absurd (List.reverse_eq_nil_iff.1 heq) hfront
    · split
      · next hnil =>
        refine ⟨⟨"/"⟩, rfl, by decide, ?_, n, ?_⟩
        · have hlast := getLast?_of_bare_eq_nil (mt List.reverse_eq_nil_iff.1 hfront) hnil
          rw [List.getLast?_reverse] at hlast
          obtain ⟨rest, hrest⟩ := List.head?_eq_some_iff.1 hlast
          exact ⟨rest, hrest.symm⟩
        · have hroot : (⟨"/"⟩ : Path).segments = [] := by
            simpa [segments_eq] using partsOf_append_slash [] []
          rw [hn, hnil, hroot, List.reverse_nil, partsOf_nil]
      · next hne =>
        refine ⟨_, rfl, ?_, ?_, n, ?_⟩
        · rw [String.toList_ofList]
          exact mt List.reverse_eq_nil_iff.1 (fun h => hne h)
        · rw [String.toList_ofList]
          simpa using List.reverse_prefix.2 (bare_suffix front.reverse)
        · rw [hn, segments_eq, String.toList_ofList]

end VoiceIndex.Path
