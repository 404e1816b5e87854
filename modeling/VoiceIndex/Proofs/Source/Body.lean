import VoiceIndex.Proofs.Source.CommandFile

/-!
# The body of a command file, line by line

Of a line no more is read than what stands between the blanks around it and whether it is indented
(`BodyLine.ofLine?_congr`). A body is read from left to right, and nothing of it is read twice. When
the lines after some point begin with a command of their own (`StartsAfresh`), they are read as if
they stood alone (`Block.ofLines_append`). A line that is passed over can stand anywhere in a body
and changes nothing (`Block.ofLines_insert`). Both hold whatever the header says, since the header is
read apart from the body (`CommandFile.commands_joined`); `CommandFile.body_read_locally` puts them
together.
-/

namespace VoiceIndex

/-! ## Lines -/

namespace BodyLine

/-- The line is blank or a comment. -/
def isIdle (line : String) : Bool :=
  Text.trim line = "" || Text.startsWith "#" (Text.trim line)

/-- The line begins with a space or a tab. -/
def isIndented (line : String) : Bool := Text.startsWith " " line || Text.startsWith "\t" line

/-- The line says nothing: it is blank or a comment, or neither indented nor with a colon. -/
def IsPassedOver (line : String) : Prop :=
  isIdle line = true ∨ (isIndented line = false ∧ ':' ∉ line.toList)

variable {line : String}

theorem ofLine?_of_isIdle (h : isIdle line = true) : ofLine? line = none := by
  unfold isIdle at h
  rw [Bool.or_eq_true, decide_eq_true_iff] at h
  unfold ofLine?
  exact if_pos h

/-- A line that counts and is not indented is cut at its first colon. -/
theorem ofLine?_of_not_isIndented (hidle : isIdle line = false) (h : isIndented line = false) :
    ofLine? line = (Text.cut ':' (Text.trim line)).map fun (name, rest) =>
      .opening (Text.trim name) (Header.value? rest) := by
  unfold isIdle at hidle
  unfold isIndented at h
  unfold ofLine?
  simp only
  rw [if_neg (by simpa using hidle), if_neg (by simpa using h)]

theorem cut_trim_eq_none_iff : Text.cut ':' (Text.trim line) = none ↔ ':' ∉ line.toList := by
  have hcolon : isBlank ':' = false := by decide
  rw [Text.cut_eq_none_iff, Text.toList_trim, Chars.mem_trim_iff hcolon]

theorem ofLine?_of_isPassedOver (h : IsPassedOver line) : ofLine? line = none := by
  cases hidle : isIdle line with
  | true => exact ofLine?_of_isIdle hidle
  | false =>
    obtain hidle' | ⟨hindented, hcolon⟩ := h
    · rw [hidle] at hidle'
      cases hidle'
    · rw [ofLine?_of_not_isIndented hidle hindented, cut_trim_eq_none_iff.2 hcolon]
      rfl

theorem exists_opening (hidle : isIdle line = false) (hindented : isIndented line = false)
    (hcolon : ':' ∈ line.toList) : ∃ name script?, ofLine? line = some (.opening name script?) := by
  obtain ⟨⟨name, rest⟩, hcut⟩ :=
    Option.ne_none_iff_exists'.1 (mt cut_trim_eq_none_iff.1 (not_not_intro hcolon))
  refine ⟨Text.trim name, Header.value? rest, ?_⟩
  rw [ofLine?_of_not_isIndented hidle hindented, hcut]
  rfl

end BodyLine

/-- The lines hold the same text between blanks, and both of them or neither are indented. -/
structure ReadsAlike (l l' : String) : Prop where
  trim_eq : Text.trim l = Text.trim l'
  isIndented_eq : BodyLine.isIndented l = BodyLine.isIndented l'

/-- A carriage return at the end is a blank, and it indents no line. -/
theorem readsAlike_dropReturn (l : String) : ReadsAlike l (Text.dropReturn l) where
  trim_eq := (Text.trim_dropReturn l).symm
  isIndented_eq := by
    unfold BodyLine.isIndented
    rw [Text.startsWith_dropReturn rfl (by decide), Text.startsWith_dropReturn rfl (by decide)]

/-- No more of a line is read. -/
theorem BodyLine.ofLine?_congr {l l' : String} (h : ReadsAlike l l') : ofLine? l = ofLine? l' := by
  have hindented := h.isIndented_eq
  unfold isIndented at hindented
  unfold ofLine?
  simp only [← Bool.or_eq_true, h.trim_eq, hindented]

/-! ## Bodies -/

/-- The first line that is neither blank nor a comment, if there is one, opens a command. -/
def StartsAfresh (lines : List String) : Prop :=
  ∀ line ∈ lines.find? (!BodyLine.isIdle ·),
    BodyLine.isIndented line = false ∧ ':' ∈ line.toList

instance (lines : List String) : Decidable (StartsAfresh lines) :=
  inferInstanceAs (Decidable (∀ line ∈ lines.find? (!BodyLine.isIdle ·),
    BodyLine.isIndented line = false ∧ ':' ∈ line.toList))

/-- No script line stands before the first command. -/
theorem StartsAfresh.gather_fst {lines : List String} (h : StartsAfresh lines) :
    (gather (lines.filterMap BodyLine.ofLine?)).1 = [] := by
  induction lines with
  | nil => rfl
  | cons line rest ih =>
    cases hidle : BodyLine.isIdle line with
    | true =>
      rw [List.filterMap_cons_none (BodyLine.ofLine?_of_isIdle hidle)]
      refine ih fun first hfirst => h first ?_
      rwa [List.find?_cons_of_neg (by simpa using hidle)]
    | false =>
      obtain ⟨hindented, hcolon⟩ := h line (List.find?_cons_of_pos (by simpa using hidle))
      obtain ⟨name, script?, hopening⟩ := BodyLine.exists_opening hidle hindented hcolon
      rw [List.filterMap_cons_some hopening]
      rfl

/-- Lines that begin with a command add nothing to the commands before them. -/
theorem gather_append {front back : List BodyLine} (h : (gather back).1 = []) :
    gather (front ++ back) = ((gather front).1, (gather front).2 ++ (gather back).2) := by
  induction front with
  | nil =>
    show gather back = ([], (gather back).2)
    rw [← h]
  | cons line front ih =>
    cases line with
    | opening name script? => rw [List.cons_append, gather, gather, ih]; rfl
    | indented script => rw [List.cons_append, gather, gather, ih]

namespace Block

/-- **Lines that start afresh are read as if they stood alone.** -/
theorem ofLines_append {body more : List String} (h : StartsAfresh more) :
    ofLines (body ++ more) = ofLines body ++ ofLines more := by
  unfold ofLines
  rw [List.filterMap_append, gather_append h.gather_fst, List.filter_append]

/-- **A line that is passed over changes nothing.** -/
theorem ofLines_insert {line : String} (h : BodyLine.IsPassedOver line) (body more : List String) :
    ofLines (body ++ line :: more) = ofLines (body ++ more) := by
  unfold ofLines
  rw [List.filterMap_append, List.filterMap_append,
    List.filterMap_cons_none (BodyLine.ofLine?_of_isPassedOver h)]

end Block

/-! ## Files -/

theorem Header.ofLines_map_dropReturn (lines : List String) :
    ofLines (lines.map Text.dropReturn) = ofLines lines := by
  unfold ofLines
  rw [List.foldl_map]
  simp only [Text.trim_dropReturn]

namespace CommandFile

/-- The text of a file with these lines in its header and in its body. -/
def joined (header body : List String) : String := "\n".intercalate (header ++ "-" :: body)

variable {header body : List String}

/-- The lines of the file are those that it was joined from, as far as they are read. -/
theorem exists_lines_joined (hheader : ∀ l ∈ header, '\n' ∉ l.toList)
    (hbody : ∀ l ∈ body, '\n' ∉ l.toList) :
    ∃ below, Text.lines (joined header body) = header.map Text.dropReturn ++ "-" :: below ∧
      below.filterMap BodyLine.ofLine? = body.filterMap BodyLine.ofLine? := by
  have hhyphen : '\n' ∉ "-".toList := by decide
  have hlines : ∀ l ∈ header ++ "-" :: body, '\n' ∉ l.toList :=
    List.forall_mem_append.2 ⟨hheader, List.forall_mem_cons.2 ⟨hhyphen, hbody⟩⟩
  obtain rfl | ⟨init, last, rfl⟩ := List.eq_nil_or_concat' body
  · refine ⟨[], ?_, rfl⟩
    exact Text.lines_intercalate_concat hlines
  · -- an empty last line is not there, but it would be passed over anyway
    refine ⟨init.map Text.dropReturn ++ [last].filter (· ≠ ""), ?_, ?_⟩
    · have hkept : Text.dropReturn "-" = "-" := by decide +kernel
      unfold joined
      rw [← List.cons_append, ← List.append_assoc] at hlines ⊢
      rw [Text.lines_intercalate_concat hlines]
      simp [hkept]
    · have hempty : ([last].filter (· ≠ "")).filterMap BodyLine.ofLine? =
          [last].filterMap BodyLine.ofLine? := by
        by_cases h : last = ""
        · subst h
          decide +kernel
        · rw [List.filter_singleton]
          simp [h]
      have hinit : (init.map Text.dropReturn).filterMap BodyLine.ofLine? =
          init.filterMap BodyLine.ofLine? := by
        rw [List.filterMap_map]
        refine List.filterMap_congr fun l _ => ?_
        rw [Function.comp_apply, BodyLine.ofLine?_congr (readsAlike_dropReturn l)]
      rw [List.filterMap_append, List.filterMap_append, hempty, hinit]

/-- **The header and the body are read apart.** -/
theorem commands_joined (path : String)
    (hheader : ∀ l ∈ header, '\n' ∉ l.toList ∧ Text.trim l ≠ "-")
    (hbody : ∀ l ∈ body, '\n' ∉ l.toList) :
    commands path (joined header body) =
      (Block.ofLines body).map (draft path (Header.ofLines header)) := by
  obtain ⟨below, hlines, hbelow⟩ := exists_lines_joined (fun l hl => (hheader l hl).1) hbody
  have hdivide : divide (Text.lines (joined header body)) =
      some (header.map Text.dropReturn, below) := by
    rw [hlines]
    refine divide_append (List.forall_mem_map.2 fun l hl => ?_) (by decide +kernel)
    rw [Text.trim_dropReturn]
    exact (hheader l hl).2
  have hblocks : Block.ofLines below = Block.ofLines body := by
    unfold Block.ofLines
    rw [hbelow]
  unfold commands
  rw [hdivide]
  simp only [Header.ofLines_map_dropReturn, hblocks]

/-- **The body of a file is read locally**: it can be parted wherever its lines start afresh, and a
line that is passed over can be put in anywhere. -/
theorem body_read_locally (path : String) {more : List String}
    (hheader : ∀ l ∈ header, '\n' ∉ l.toList ∧ Text.trim l ≠ "-")
    (hlines : ∀ l ∈ body ++ more, '\n' ∉ l.toList) :
    (StartsAfresh more → commands path (joined header (body ++ more)) =
      commands path (joined header body) ++ commands path (joined header more)) ∧
    ∀ line, '\n' ∉ line.toList → BodyLine.IsPassedOver line →
      commands path (joined header (body ++ line :: more)) =
        commands path (joined header (body ++ more)) := by
  obtain ⟨hbody, hmore⟩ := List.forall_mem_append.1 hlines
  rw [commands_joined path hheader hlines]
  constructor
  · intro hafresh
    rw [commands_joined path hheader hbody, commands_joined path hheader hmore,
      Block.ofLines_append hafresh, List.map_append]
  · intro line hline hpassed
    have hinserted : ∀ l ∈ body ++ line :: more, '\n' ∉ l.toList :=
      List.forall_mem_append.2 ⟨hbody, List.forall_mem_cons.2 ⟨hline, hmore⟩⟩
    rw [commands_joined path hheader hinserted, Block.ofLines_insert hpassed]

/-- A body with lines of all kinds: the first part ends in a hyphen, the second one begins with
lines that are passed over and a command without a name, and the line between is a comment. -/
theorem body_read_locally_orphan :
    let header := ["app: chrome", "mode: command"]
    let body := ["    key(lost)", "go home:", "\tkey(home)", "-"]
    let more := ["", "  # moving", ": orphan", "    key(end)", "next\r", "go on: key(a:b)\r"]
    commands "a.talon" (joined header (body ++ more)) =
        commands "a.talon" (joined header body) ++ commands "a.talon" (joined header more) ∧
      commands "a.talon" (joined header (body ++ " # note" :: more)) =
        commands "a.talon" (joined header (body ++ more)) := by
  intro header body more
  have hheader : ∀ l ∈ header, '\n' ∉ l.toList ∧ Text.trim l ≠ "-" := by decide +kernel
  have hlines : ∀ l ∈ body ++ more, '\n' ∉ l.toList := by decide +kernel
  obtain ⟨hafresh, hpassed⟩ := body_read_locally "a.talon" hheader hlines
  exact ⟨hafresh (by decide +kernel), hpassed " # note" (by decide +kernel)
    (.inl (by decide +kernel))⟩

end CommandFile

end VoiceIndex
