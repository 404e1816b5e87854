import VoiceIndex.Record.Limit
import VoiceIndex.Text.Blank
import VoiceIndex.Text.Limit
import VoiceIndex.Text.Pieces

/-!
# Voice commands

A command is what is said, its trigger, together with what is then done, its script, and the
context in which it is active. A draft is a command as it was found, before the index gives
it a number; `Command.ofDraft` makes the record, with every text cut to its limit and the
gaps filled.
-/

namespace VoiceIndex

/-- Where a command is active, as far as its file says so. -/
structure Context where
  title : Option String := none
  mode : Option String := none
  operatingSystem : Option String := none
  /-- Tags separated by commas. -/
  tags : Option String := none
  codeLanguage : Option String := none
  language : Option String := none
  hostname : Option String := none
  deriving DecidableEq, Inhabited, Repr

/-- The context with every text cut to its limit. -/
def Context.clip (c : Context) : Context where
  title := c.title.map (Text.clip Limit.title)
  mode := c.mode.map (Text.clip Limit.mode)
  operatingSystem := c.operatingSystem.map (Text.clip Limit.operatingSystem)
  tags := c.tags.map (Text.clip Limit.tags)
  codeLanguage := c.codeLanguage.map (Text.clip Limit.codeLanguage)
  language := c.language.map (Text.clip Limit.language)
  hostname := c.hostname.map (Text.clip Limit.hostname)

/-- A command as it was found. -/
structure CommandDraft extends Context where
  /-- What is said, with placeholders in brackets. -/
  trigger : String
  /-- What is done. -/
  script : String
  /-- The application the command is for. -/
  application : Option String := none
  /-- All applications that the command's file names. -/
  applications : List String := []
  /-- The file the command stands in. -/
  filePath : String
  /-- The set of commands that the file belongs to. -/
  repository : Option String := none
  createdAt : Option String := none
  deriving DecidableEq, Inhabited, Repr

/-- A command in the index. -/
structure Command extends Context where
  id : Int64
  trigger : String
  script : String
  application : String
  applications : List String := []
  filePath : String
  repository : Option String := none
  createdAt : String
  deriving DecidableEq, Inhabited, Repr

/-- The application of a command that is for all of them. -/
def everyApplication : String := "global"

/-- The application of a draft: the one given, or the first of those listed, blank ones
aside; without any the command is for every application. -/
def CommandDraft.mainApplication (draft : CommandDraft) : String :=
  ((draft.application.toList ++ draft.applications).find? (!Text.isBlank ·)).getD
    everyApplication

namespace Command

/-- The record of a draft under a number. A draft without a time gets the time `now`. -/
def ofDraft (id : Int64) (now : String) (draft : CommandDraft) : Command where
  toContext := draft.toContext.clip
  id := id
  trigger := Text.clip Limit.trigger draft.trigger
  script := Text.clip Limit.script draft.script
  application := Text.clip Limit.application draft.mainApplication
  applications := draft.applications.map (Text.clip Limit.application)
  filePath := Text.clip Limit.filePath draft.filePath
  repository := draft.repository.map (Text.clip Limit.repository)
  createdAt := draft.createdAt.getD now

/-- A bracket that begins the part of a trigger that is not spoken word for word. -/
def opensPattern (c : Char) : Bool := c == '<' || c == '\x7b' || c == '('

/-- The part of the trigger that is spoken as it stands: what precedes the first bracket. -/
def spokenName (c : Command) : String :=
  Text.trim (.ofList (c.trigger.toList.takeWhile (!opensPattern ·)))

/-- The tags one by one. -/
def tagList (c : Command) : List String :=
  match c.tags with
  | none => []
  | some tags => ((Text.pieces (· == ',') tags).map Text.trim).filter (· ≠ "")

/-- Every application the command is for. -/
def allApplications (c : Command) : List String :=
  if c.applications.isEmpty then [c.application] else c.applications

end Command

end VoiceIndex
