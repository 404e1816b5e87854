import Mathlib.Data.List.Induction
import VoiceIndex.Proofs.Record.Content
import VoiceIndex.Proofs.Text.Lines
import VoiceIndex.Source.CommandFile

/-!
# Writing and reading a command file

A command file that is written line by line comes back as it was (`CommandFile.commands_write`).

* A line with a key sets the value of that key alone, since no key begins with another
  (`Header.read_key`). Lines that name the applications in their order and give each key at most one
  value therefore make the header, in whatever order they stand (`Header.ofLines_of_isWrittenAs`),
  and for every header there are such lines (`Header.isWrittenAs_lines`).
* The line with the name of a command opens it and the indented lines go on with its script,
  whatever else is in them (`BodyLine.ofLine?_opening`, `BodyLine.ofLine?_indented`), so that the
  commands come back one by one (`Block.ofLines_flatMap`).
* The lines themselves come back from the text, and the hyphen is the first line that parts the
  header from the body (`CommandFile.divide_lines`).
-/

namespace VoiceIndex

/-! ## Keys -/

namespace ContextKey

/-- The key as it stands in a file. -/
def text : ContextKey → String
  | mode => "mode" | os => "os" | tag => "tag" | title => "title"
  | codeLanguage => "code.language" | language => "language" | hostname => "hostname"

/-- The header with another value. -/
def set : ContextKey → Header → Option String → Header
  | mode => fun h value => { h with mode := value }
  | os => fun h value => { h with operatingSystem := value }
  | tag => fun h value => { h with tags := value }
  | title => fun h value => { h with title := value }
  | codeLanguage => fun h value => { h with codeLanguage := value }
  | language => fun h value => { h with language := value }
  | hostname => fun h value => { h with hostname := value }

theorem get_set (key other : ContextKey) (h : Header) (value : Option String) :
    other.get (key.set h value).toContext =
      if other = key then value else other.get h.toContext := by
  cases key <;> cases other <;> rfl

theorem applications_set (key : ContextKey) (h : Header) (value : Option String) :
    (key.set h value).applications = h.applications := by
  cases key <;> rfl

/-- All keys. -/
def all : List ContextKey := [mode, os, tag, title, codeLanguage, language, hostname]

theorem filterMap_all {α : Type} (key : ContextKey) (o : Option α) :
    all.filterMap (fun other => if other = key then o else none) = o.toList := by
  cases key <;> cases o <;> rfl

theorem mem_keys (key : ContextKey) : (key.text ++ ":", key.set) ∈ Header.keys := by
  cases key <;> simp [Header.keys, text, set]

end ContextKey

namespace Header

/-! ## Reading a line with a key -/

/-- No key begins with another. -/
theorem pairwise_keys : keys.Pairwise fun a b =>
    ¬ a.1.toList <+: b.1.toList ∧ ¬ b.1.toList <+: a.1.toList := by
  decide +kernel

/-- The beginnings of the lines that name an application. -/
def applicationKeys : List String := ["app.name:", "app.exe:", "app:"]

theorem application?_key (key : ContextKey) (rest : String) :
    application? (key.text ++ ":" ++ rest) = none := by
  have hkeys : ∀ start ∈ applicationKeys, ¬ start.toList <+: (key.text ++ ":").toList ∧
      ¬ (key.text ++ ":").toList <+: start.toList := by
    cases key <;> decide +kernel
  have hnone : ∀ start ∈ applicationKeys, Text.after? start (key.text ++ ":" ++ rest) = none :=
    fun start hstart => Text.after?_append_eq_none (hkeys start hstart).1 (hkeys start hstart).2
  unfold application?
  rw [hnone "app.name:" (by decide), hnone "app.exe:" (by decide), hnone "app:" (by decide)]
  rfl

/-- A line with a key sets the value of the key. -/
theorem read_key (key : ContextKey) (h : Header) (rest : String) :
    h.read (key.text ++ ":" ++ rest) = key.set h (value? rest) := by
  obtain ⟨front, back, hkeys⟩ := List.append_of_mem key.mem_keys
  have hfront : ∀ x ∈ front, Text.after? x.1 (key.text ++ ":" ++ rest) = none := by
    intro x hx
    have hpair := pairwise_keys
    rw [hkeys, List.pairwise_append] at hpair
    obtain ⟨h, h'⟩ := hpair.2.2 x hx _ List.mem_cons_self
    exact Text.after?_append_eq_none h h'
  have hself : Text.after? (key.text ++ ":") (key.text ++ ":" ++ rest) = some rest :=
    Text.after?_eq_some_iff.2 rfl
  have hfind : keys.findSome? (fun x => (Text.after? x.1 (key.text ++ ":" ++ rest)).map
      fun rest => x.2 h (value? rest)) = some (key.set h (value? rest)) :=
    List.findSome?_eq_some_iff.2 ⟨front, _, back, hkeys, by rw [hself]; rfl, fun x hx => by
      rw [hfront x hx]; rfl⟩
  unfold read
  rw [application?_key]
  exact congrArg (Option.getD · h) hfind

theorem application?_app_eq (name : String) : application? ("app: " ++ name) =
    if Text.trim name = "" then none else some (commonName (Text.trim name)) := by
  have hrest : "app: " ++ name = "app:" ++ (" " ++ name) := by rw [← String.append_assoc]; rfl
  have hname : Text.after? "app.name:" ("app:" ++ (" " ++ name)) = none :=
    Text.after?_append_eq_none (by decide) (by decide)
  have hexe : Text.after? "app.exe:" ("app:" ++ (" " ++ name)) = none :=
    Text.after?_append_eq_none (by decide) (by decide)
  have happ : Text.after? "app:" ("app:" ++ (" " ++ name)) = some (" " ++ name) :=
    Text.after?_eq_some_iff.2 rfl
  have htrim : Text.trim (" " ++ name) = Text.trim name := Text.trim_append_left (by decide) name
  unfold application?
  rw [hrest, hname, hexe, happ]
  by_cases hempty : Text.trim name = "" <;> simp [htrim, hempty]

theorem application?_app {name : String} (h : Text.IsTidy name) (hcommon : commonName name = name) :
    application? ("app: " ++ name) = some name := by
  rw [application?_app_eq, h.trim_eq, if_neg h.ne_empty, hcommon]

end Header

/-! ## Lines of a header -/

/-- A line of a header as it is written. -/
inductive HeaderLine where
  | application (name : String)
  | value (key : ContextKey) (text : String)

namespace HeaderLine

/-- The line in the file. -/
def text : HeaderLine → String
  | application name => "app: " ++ name
  | value key text => key.text ++ ": " ++ text

/-- The application that the line names. -/
def application? : HeaderLine → Option String
  | application name => some name
  | value .. => none

/-- The value that the line gives to a key. -/
def value? (key : ContextKey) : HeaderLine → Option String
  | application _ => none
  | value other text => if other = key then some text else none

/-- What the line says comes back from it. -/
def IsReadable : HeaderLine → Prop
  | application name => Text.IsTidy name ∧ Header.commonName name = name
  | value _ text => Text.IsTidy text

theorem isTidy_text {l : HeaderLine} (h : l.IsReadable) : Text.IsTidy l.text := by
  cases l with
  | application name => exact h.1.append (c := 'a') rfl (by decide) (by decide)
  | value key text =>
    have hline : '\n' ∉ (key.text ++ ": ").toList := by cases key <;> decide
    obtain ⟨c, cs, hkey, hc⟩ : ∃ c cs, (key.text ++ ": ").toList = c :: cs ∧ isBlank c = false := by
      cases key <;> exact ⟨_, _, rfl, by decide⟩
    exact Text.IsTidy.append h hkey hc hline

/-- No line of a header ends it. -/
theorem text_ne_hyphen (l : HeaderLine) : l.text ≠ "-" := by
  intro h
  have hhead : l.text.toList.head? = some '-' := by rw [h]; rfl
  cases l with
  | application name => exact absurd hhead (by simp [text])
  | value key rest => cases key <;> simp [text, ContextKey.text] at hhead

end HeaderLine

namespace Header

/-- The lines say what the header says: they name its applications in their order, and give each
key its value if it has one. -/
structure IsWrittenAs (h : Header) (lines : List HeaderLine) : Prop where
  applications : lines.filterMap HeaderLine.application? = h.applications
  value : ∀ key, lines.filterMap (HeaderLine.value? key) = (ContextKey.get key h.toContext).toList

/-- Lines of the header: its applications, then the keys with a value. -/
def lines (h : Header) : List HeaderLine :=
  h.applications.map .application ++
    ContextKey.all.filterMap fun key => (key.get h.toContext).map (.value key)

/-- Every header can be written. -/
theorem isWrittenAs_lines (h : Header) : h.IsWrittenAs h.lines where
  applications := by
    have hvalues : (ContextKey.all.filterMap fun key => (key.get h.toContext).map
        (HeaderLine.value key)).filterMap HeaderLine.application? = [] := by
      rw [List.filterMap_filterMap, List.filterMap_eq_nil_iff]
      intro key _
      cases key.get h.toContext <;> rfl
    unfold lines
    rw [List.filterMap_append, hvalues, List.filterMap_map, List.append_nil]
    exact List.filterMap_some
  value key := by
    have happlications : (h.applications.map HeaderLine.application).filterMap
        (HeaderLine.value? key) = [] := by
      rw [List.filterMap_map]
      exact List.filterMap_eq_nil_iff.2 fun _ _ => rfl
    have hvalue : ∀ other : ContextKey,
        ((other.get h.toContext).map (HeaderLine.value other)).bind (HeaderLine.value? key) =
          if other = key then key.get h.toContext else none := by
      intro other
      by_cases hkey : other = key
      · subst hkey
        cases other.get h.toContext <;> simp [HeaderLine.value?]
      · cases other.get h.toContext <;> simp [HeaderLine.value?, hkey]
    unfold lines
    rw [List.filterMap_append, happlications, List.nil_append, List.filterMap_filterMap,
      funext hvalue, key.filterMap_all]

theorem IsWrittenAs.unique {h h' : Header} {lines : List HeaderLine} (hw : h.IsWrittenAs lines)
    (hw' : h'.IsWrittenAs lines) : h = h' := by
  have happ : h.applications = h'.applications := hw.applications.symm.trans hw'.applications
  have hcontext : h.toContext = h'.toContext := by
    refine ContextKey.ext_get fun key => ?_
    have hlist := (hw.value key).symm.trans (hw'.value key)
    simpa using congrArg List.head? hlist
  cases h
  cases h'
  congr

theorem read_application {h : Header} {name : String}
    (hl : (HeaderLine.application name).IsReadable) (hnew : name ∉ h.applications) :
    h.read (HeaderLine.application name).text =
      { h with applications := h.applications ++ [name] } := by
  unfold Header.read
  rw [HeaderLine.text, application?_app hl.1 hl.2]
  simp [hnew]

theorem read_value {h : Header} {key : ContextKey} {text : String}
    (hl : (HeaderLine.value key text).IsReadable) :
    h.read (HeaderLine.value key text).text = key.set h (some text) := by
  have htidy : Text.IsTidy text := hl
  have htrim : Text.trim (" " ++ text) = text := htidy.trim_append (by decide)
  have hrest : key.text ++ ": " ++ text = key.text ++ ":" ++ (" " ++ text) := by
    rw [show ": " = ":" ++ " " from rfl, ← String.append_assoc, ← String.append_assoc]
  rw [HeaderLine.text, hrest, read_key, Header.value?, htrim, if_neg htidy.ne_empty]

/-- One more line adds what it says, if it names a new application or gives a key its only value. -/
theorem IsWrittenAs.read {h : Header} {lines : List HeaderLine} {l : HeaderLine}
    (hw : h.IsWrittenAs lines) (hl : l.IsReadable)
    (happ : ((lines ++ [l]).filterMap HeaderLine.application?).Nodup)
    (hvalue : ∀ key, ((lines ++ [l]).filterMap (HeaderLine.value? key)).length ≤ 1) :
    (h.read (Text.trim l.text)).IsWrittenAs (lines ++ [l]) := by
  rw [(HeaderLine.isTidy_text hl).trim_eq]
  cases l with
  | application name =>
    have hnew : name ∉ h.applications := by
      rw [List.filterMap_append, hw.applications] at happ
      have hdisjoint := (List.nodup_append.1 happ).2.2
      exact fun hmem => hdisjoint name hmem name (by simp [HeaderLine.application?]) rfl
    rw [read_application hl hnew]
    refine ⟨?_, fun key => ?_⟩
    · rw [List.filterMap_append, hw.applications]
      rfl
    · rw [List.filterMap_append, hw.value]
      simp [HeaderLine.value?]
  | value key text =>
    rw [read_value hl]
    refine ⟨?_, fun other => ?_⟩
    · rw [List.filterMap_append, hw.applications, key.applications_set]
      simp [HeaderLine.application?]
    · have hlength := hvalue other
      rw [List.filterMap_append, hw.value] at hlength ⊢
      rw [key.get_set]
      by_cases hkey : other = key
      · subst hkey
        -- The key has no value yet, or the lines would give it two.
        have hnone : other.get h.toContext = none := by
          simpa [HeaderLine.value?] using hlength
        simp [HeaderLine.value?, hnone]
      · simp [HeaderLine.value?, hkey, Ne.symm hkey]

theorem isWrittenAs_ofLines {lines : List HeaderLine} (hlines : ∀ l ∈ lines, l.IsReadable)
    (happ : (lines.filterMap HeaderLine.application?).Nodup)
    (hvalue : ∀ key, (lines.filterMap (HeaderLine.value? key)).length ≤ 1) :
    (ofLines (lines.map HeaderLine.text)).IsWrittenAs lines := by
  induction lines using List.reverseRecOn with
  | nil => exact ⟨rfl, fun key => by cases key <;> rfl⟩
  | append_singleton lines l ih =>
    rw [List.map_append, List.map_singleton, ofLines_concat]
    refine IsWrittenAs.read (ih (fun m hm => hlines m (List.mem_append_left _ hm)) ?_ fun key => ?_)
      (hlines l (by simp)) happ hvalue
    · rw [List.filterMap_append] at happ
      exact (List.nodup_append.1 happ).1
    · have hlength := hvalue key
      rw [List.filterMap_append, List.length_append] at hlength
      omega

/-- **A header comes back from its lines.** -/
theorem ofLines_of_isWrittenAs {h : Header} {lines : List HeaderLine} (hw : h.IsWrittenAs lines)
    (hnodup : h.applications.Nodup) (hlines : ∀ l ∈ lines, l.IsReadable) :
    ofLines (lines.map HeaderLine.text) = h := by
  have hread : (ofLines (lines.map HeaderLine.text)).IsWrittenAs lines := by
    refine isWrittenAs_ofLines hlines (by rwa [hw.applications]) fun key => ?_
    rw [hw.value]
    exact Option.length_toList_le
  exact hread.unique hw

end Header

/-! ## Lines of the body -/

namespace Block

/-- The lines of a command as it is written: its name, and its script indented below. -/
def lines (b : Block) : List String := (b.name ++ ":") :: b.script.map ("    " ++ ·)

/-- The lines of the command can be told apart: the name has no colon, and nothing in it is taken
for a comment. -/
structure IsReadable (b : Block) : Prop where
  name : Text.IsTidy b.name
  noColon : ':' ∉ b.name.toList
  noComment : b.name.toList.head? ≠ some '#'
  script : ∀ line ∈ b.script, Text.IsTidy line ∧ line.toList.head? ≠ some '#'

variable {b : Block}

theorem IsReadable.isTidy_name (h : b.IsReadable) : Text.IsTidy (b.name ++ ":") := by
  obtain ⟨c, cs, hname, hc⟩ := h.name.exists_cons
  have hcolon : Text.IsTidy ":" := by decide +kernel
  exact hcolon.append hname hc h.name.not_mem

theorem IsReadable.isLine (h : b.IsReadable) : ∀ l ∈ b.lines, Text.IsLine l := by
  intro l hl
  rcases List.mem_cons.1 hl with rfl | hl
  · exact h.isTidy_name.isLine
  · obtain ⟨line, hline, rfl⟩ := List.mem_map.1 hl
    exact (h.script line hline).1.isLine_append (by decide)

end Block

namespace BodyLine

theorem not_startsWith {start s : String} {c : Char} (hstart : start.toList = [c])
    (h : s.toList.head? ≠ some c) : Text.startsWith start s = false := by
  rw [Bool.eq_false_iff]
  exact mt (Text.startsWith_iff_head? hstart).1 h

/-- The line with a name opens a command. -/
theorem ofLine?_opening {b : Block} (h : b.IsReadable) :
    ofLine? (b.name ++ ":") = some (.opening b.name none) := by
  obtain ⟨c, cs, hname, hc⟩ := h.name.exists_cons
  have hhead : (b.name ++ ":").toList.head? = some c := by rw [String.toList_append, hname]; rfl
  have htidy : Text.IsTidy (b.name ++ ":") := h.isTidy_name
  have hcomment : Text.startsWith "#" (b.name ++ ":") = false := by
    refine not_startsWith (show _ = ['#'] from rfl) ?_
    rw [hhead, ← List.head?_cons, ← hname]
    exact h.noComment
  have hblank : ∀ start d, start.toList = [d] → isBlank d = true →
      Text.startsWith start (b.name ++ ":") = false := by
    intro start d hstart hd
    refine not_startsWith hstart ?_
    rw [hhead]
    rintro ⟨rfl⟩
    simp [hc] at hd
  have hspace := hblank " " ' ' rfl (by decide)
  have htab := hblank "\t" '\t' rfl (by decide)
  have hcut : Text.cut ':' (b.name ++ ":") = some (b.name, "") := by
    unfold Text.cut
    have hchars : Chars.cut ':' (b.name ++ ":").toList = some (b.name.toList, []) :=
      Chars.cut_eq_some_iff.2 ⟨String.toList_append, h.noColon⟩
    rw [hchars, Option.map_some]
    simp only [String.ofList_toList, String.ofList_nil]
  have hempty : Header.value? "" = none := by decide +kernel
  unfold ofLine?
  simp [htidy.trim_eq, htidy.ne_empty, hcomment, hspace, htab, hcut, h.name.trim_eq, hempty]

/-- An indented line goes on with the script. -/
theorem ofLine?_indented {line : String} (h : Text.IsTidy line)
    (hcomment : line.toList.head? ≠ some '#') :
    ofLine? ("    " ++ line) = some (.indented line) := by
  have htrim : Text.trim ("    " ++ line) = line := h.trim_append (by decide)
  have hspace : Text.startsWith " " ("    " ++ line) = true := by
    unfold Text.startsWith
    rw [String.toList_append]
    rfl
  have hhash : Text.startsWith "#" line = false :=
    not_startsWith (show "#".toList = ['#'] from rfl) hcomment
  unfold ofLine?
  simp [htrim, h.ne_empty, hhash, hspace]

end BodyLine

/-! ## Commands of the body -/

theorem gather_indented (script : List String) (rest : List BodyLine) :
    gather (script.map .indented ++ rest) = (script ++ (gather rest).1, (gather rest).2) := by
  induction script with
  | nil => rfl
  | cons line script ih => rw [List.map_cons, List.cons_append, gather, ih]; rfl

/-- Commands come back one by one. -/
theorem gather_flatMap (blocks : List Block) :
    gather (blocks.flatMap fun b => .opening b.name none :: b.script.map .indented) =
      ([], blocks) := by
  induction blocks with
  | nil => rfl
  | cons b blocks ih =>
    rw [List.flatMap_cons, List.cons_append, gather, gather_indented, ih]
    simp

namespace Block

theorem filterMap_lines {b : Block} (h : b.IsReadable) :
    b.lines.filterMap BodyLine.ofLine? = .opening b.name none :: b.script.map .indented := by
  unfold lines
  have hscript : b.script.filterMap (BodyLine.ofLine? ∘ ("    " ++ ·)) =
      b.script.map .indented := by
    rw [← List.filterMap_eq_map]
    apply List.filterMap_congr
    intro line hline
    rw [Function.comp_apply, Function.comp_apply]
    exact BodyLine.ofLine?_indented (h.script line hline).1 (h.script line hline).2
  rw [List.filterMap_cons_some (BodyLine.ofLine?_opening h), List.filterMap_map, hscript]

/-- **The commands come back from their lines.** -/
theorem ofLines_flatMap {blocks : List Block} (h : ∀ b ∈ blocks, b.IsReadable) :
    ofLines (blocks.flatMap lines) = blocks := by
  unfold ofLines
  rw [List.filterMap_flatMap, List.flatMap_congr fun b hb => filterMap_lines (h b hb),
    gather_flatMap]
  exact List.filter_eq_self.2 fun b hb => by simpa using (h b hb).name.ne_empty

end Block

/-! ## The file -/

namespace CommandFile

theorem divide_append {above below : List String} {line : String}
    (habove : ∀ l ∈ above, Text.trim l ≠ "-") (hline : Text.trim line = "-") :
    divide (above ++ line :: below) = some (above, below) := by
  induction above with
  | nil => rw [List.nil_append, divide, if_pos hline]
  | cons l above ih =>
    obtain ⟨hl, habove⟩ := List.forall_mem_cons.1 habove
    rw [List.cons_append, divide, if_neg hl, ih habove]
    rfl

/-- The lines of a command file as it is written. -/
def lines (header : List HeaderLine) (blocks : List Block) : List String :=
  header.map HeaderLine.text ++ "-" :: blocks.flatMap Block.lines

/-- The text of a command file, without a line feed at its end. -/
def write (header : List HeaderLine) (blocks : List Block) : String :=
  "\n".intercalate (lines header blocks)

end CommandFile

/-- The header can be written: its applications differ, are known under their own names, and like
the other values are tidy and within their limits. -/
structure Header.IsWritable (h : Header) : Prop where
  nodup : h.applications.Nodup
  application : ∀ name ∈ h.applications, Text.IsTidy name ∧
    name.toList.length ≤ Limit.application ∧
    ¬ "powershell".toList <:+: (Text.lower name).toList ∧
    ¬ "terminal".toList <:+: (Text.lower name).toList
  value : ∀ key value, ContextKey.get key h.toContext = some value →
    Text.IsTidy value ∧ value.toList.length ≤ key.limit

/-- The command can be written: its lines can be told apart, and it is within its limits. -/
structure Block.IsWritable (b : Block) : Prop extends b.IsReadable where
  name_length : b.name.toList.length ≤ Limit.trigger
  script_length : ("\n".intercalate b.script).toList.length ≤ Limit.script

namespace Header

theorem commonName_eq_self {name : String}
    (hpower : ¬ "powershell".toList <:+: (Text.lower name).toList)
    (hterminal : ¬ "terminal".toList <:+: (Text.lower name).toList) : commonName name = name := by
  unfold commonName
  rw [if_neg (mt Text.contains_iff.1 hpower), if_neg (mt Text.contains_iff.1 hterminal)]

variable {h : Header} {lines : List HeaderLine}

theorem IsWritable.isReadable (hh : h.IsWritable) (hw : h.IsWrittenAs lines) :
    ∀ l ∈ lines, l.IsReadable := by
  intro l hl
  cases l with
  | application name =>
    have hname : name ∈ h.applications := by
      rw [← hw.applications]
      exact List.mem_filterMap.2 ⟨_, hl, rfl⟩
    obtain ⟨htidy, -, hpower, hterminal⟩ := hh.application name hname
    exact ⟨htidy, commonName_eq_self hpower hterminal⟩
  | value key text =>
    have htext : text ∈ (key.get h.toContext).toList := by
      rw [← hw.value]
      exact List.mem_filterMap.2 ⟨_, hl, if_pos rfl⟩
    exact (hh.value key text (Option.mem_toList.1 htext)).1

theorem IsWritable.clip_toContext (hh : h.IsWritable) : h.toContext.clip = h.toContext := by
  refine ContextKey.ext_get fun key => ?_
  rw [ContextKey.get_clip]
  cases hvalue : key.get h.toContext with
  | none => rfl
  | some value => rw [Option.map_some, Text.clip_of_length_le (hh.value key value hvalue).2]

theorem IsWritable.clip_applications (hh : h.IsWritable) :
    h.applications.map (Text.clip Limit.application) = h.applications := by
  have hclip : ∀ name ∈ h.applications, Text.clip Limit.application name = id name :=
    fun name hname => Text.clip_of_length_le (hh.application name hname).2.1
  rw [List.map_congr_left hclip, List.map_id]

end Header

namespace CommandFile

variable {header : Header} {headerLines : List HeaderLine} {blocks : List Block}

theorem isLine_lines (hheader : ∀ l ∈ headerLines, l.IsReadable)
    (hblocks : ∀ b ∈ blocks, b.IsReadable) : ∀ l ∈ lines headerLines blocks, Text.IsLine l := by
  intro l hl
  rcases List.mem_append.1 hl with hl | hl
  · obtain ⟨line, hline, rfl⟩ := List.mem_map.1 hl
    exact (HeaderLine.isTidy_text (hheader line hline)).isLine
  · rcases List.mem_cons.1 hl with rfl | hl
    · exact ⟨by decide, by decide, by decide⟩
    · obtain ⟨b, hb, hl⟩ := List.mem_flatMap.1 hl
      exact (hblocks b hb).isLine l hl

theorem divide_lines (hheader : ∀ l ∈ headerLines, l.IsReadable) :
    divide (lines headerLines blocks) =
      some (headerLines.map HeaderLine.text, blocks.flatMap Block.lines) := by
  refine divide_append (fun l hl => ?_) (by decide +kernel)
  obtain ⟨line, hline, rfl⟩ := List.mem_map.1 hl
  rw [(HeaderLine.isTidy_text (hheader line hline)).trim_eq]
  exact line.text_ne_hyphen

/-- **A command file comes back from its text.** -/
theorem commands_write {path ending : String} (hheader : header.IsWritable)
    (hlines : header.IsWrittenAs headerLines) (hblocks : ∀ b ∈ blocks, b.IsWritable)
    (hending : ending = "" ∨ ending = "\n") :
    commands path (write headerLines blocks ++ ending) = blocks.map fun b =>
      { toContext := header.toContext
        trigger := b.name
        script := "\n".intercalate b.script
        application := some (header.applications.head?.getD "global")
        applications := header.applications
        filePath := Text.clip Limit.filePath path
        repository := (repository? path).map (Text.clip Limit.repository)
        createdAt := none } := by
  have hheaderLines : ∀ l ∈ headerLines, l.IsReadable := hheader.isReadable hlines
  have hreadable : ∀ b ∈ blocks, b.IsReadable := fun b hb => (hblocks b hb).toIsReadable
  have htext : Text.lines (write headerLines blocks ++ ending) = lines headerLines blocks :=
    Text.lines_intercalate (by simp [lines]) (isLine_lines hheaderLines hreadable) hending
  have hread : commands path (write headerLines blocks ++ ending) =
      blocks.map (draft path header) := by
    unfold commands
    rw [htext, divide_lines hheaderLines]
    simp only [Header.ofLines_of_isWrittenAs hlines hheader.nodup hheaderLines,
      Block.ofLines_flatMap hreadable]
  rw [hread]
  refine List.map_congr_left fun b hb => ?_
  unfold draft
  rw [hheader.clip_toContext, hheader.clip_applications,
    Text.clip_of_length_le (hblocks b hb).name_length,
    Text.clip_of_length_le (hblocks b hb).script_length]
  rfl

/-! A file with the lines of its header out of order, and commands that look like other lines. -/

def tabHeader : Header where
  applications := ["Code", "code"]
  mode := some "command"
  title := some "- a: b"

def tabLines : List HeaderLine :=
  [.value .title "- a: b", .application "Code", .value .mode "command", .application "code"]

def tabBlocks : List Block :=
  [⟨"-", ["key(a:b)", "-", "app: x"]⟩, ⟨"mode", []⟩, ⟨"next\rtab <number>", ["one\rtwo"]⟩]

theorem isWritable_tabHeader : tabHeader.IsWritable where
  nodup := by decide
  application := by decide +kernel
  value := by
    intro key value h
    have hvalue : ∀ value ∈ (key.get tabHeader.toContext).toList,
        Text.IsTidy value ∧ value.toList.length ≤ key.limit := by
      cases key <;> decide +kernel
    exact hvalue value (Option.mem_toList.2 h)

theorem isWritable_of_mem_tabBlocks {b : Block} (hb : b ∈ tabBlocks) : b.IsWritable where
  name := by revert b; decide +kernel
  noColon := by revert b; decide +kernel
  noComment := by revert b; decide +kernel
  script := by revert b; decide +kernel
  name_length := by revert b; decide +kernel
  script_length := by revert b; decide +kernel

theorem commands_write_tabs :
    commands "/home/u/.talon/user/tabs/a.talon" (write tabLines tabBlocks ++ "\n") =
      tabBlocks.map fun b =>
        { toContext := tabHeader.toContext
          trigger := b.name
          script := "\n".intercalate b.script
          application := some "Code"
          applications := ["Code", "code"]
          filePath := "/home/u/.talon/user/tabs/a.talon"
          repository := some "tabs"
          createdAt := none } := by
  have hpath : Text.clip Limit.filePath "/home/u/.talon/user/tabs/a.talon" =
      "/home/u/.talon/user/tabs/a.talon" := by decide +kernel
  have hrepository : (repository? "/home/u/.talon/user/tabs/a.talon").map
      (Text.clip Limit.repository) = some "tabs" := by decide +kernel
  have hlines : tabHeader.IsWrittenAs tabLines :=
    ⟨by decide, fun key => by cases key <;> decide⟩
  rw [← hrepository]
  refine (commands_write isWritable_tabHeader hlines (fun b hb => isWritable_of_mem_tabBlocks hb)
    (.inr rfl)).trans ?_
  rw [hpath]
  rfl

end CommandFile

end VoiceIndex
