/-
**Keeping one section of a file up to date.**

A section is the first element of a name. Whether its content is replaced depends on the file's mode
and on the mark of the section: a forced file has it replaced in any case, and a new one is appended
if there is none; otherwise only a section that belongs to the generator is replaced. The element is
found by its offset when the text is written out again, and everything else stays as it is.
-/

import Scaffold.Tag.Directive

namespace Scaffold

namespace Forest

/-- The text of a forest with `replacement` for the element that starts at `offset`. -/
def renderReplacing (offset : Nat) (replacement : Text) : Forest → Text
  | empty => []
  | text content next => content ++ next.renderReplacing offset replacement
  | element tag inner next =>
    (if tag.offset = offset then replacement
      else tag.around (inner.renderReplacing offset replacement)) ++
      next.renderReplacing offset replacement

end Forest

namespace Section

/-- Whether a character ends a line. -/
def isLineBreak (char : Char) : Bool := char == '\r' || char == '\n'

/-- The open and the close marker that a marker closing itself turns into. They keep the blanks
before it and the line end after it; a line without a line end gets one. -/
def expandMarkers (delimiter : Text) (tag : Tag) : Text × Text :=
  let body := tag.openMarker.dropEndWhile isLineBreak
  let ending := tag.openMarker.drop body.length
  let lineEnd := if ending = [] then ['\n'] else ending
  let indent := tag.openMarker.takeWhile Text.isInlineBlank
  let trimmed := body.trimEnd
  let opened := match trimmed.before? "/>".toList with
    | some head => head.trimEnd ++ ['>']
    | none => trimmed
  (opened ++ lineEnd, indent ++ delimiter ++ '<' :: '/' :: tag.name ++ '>' :: lineEnd)

/-- The markers of a section that gets content. -/
def markers (delimiter : Text) (tag : Tag) : Text × Text :=
  if tag.isSelfClosing then expandMarkers delimiter tag else (tag.openMarker, tag.closeMarker)

/-- A section's text with new content. -/
def replaced (delimiter : Text) (tag : Tag) (content : Text) : Text :=
  let around := markers delimiter tag
  around.1 ++ content.closeLine ++ around.2

/-- The tag of a section that is added. -/
def added (name : Text) : Directive :=
  (Directive.named name).withAttribute Tag.genKey (Named.label RegionGen.replace)

/-- A text with a new section after it. -/
def append (delimiter existing name content : Text) : Text :=
  existing.closeLine ++ (added name).wrap content delimiter

/-- What is done with a section. -/
inductive Action where
  | replace (tag : Tag)
  | append
  | leave
  deriving DecidableEq

/-- What is done with the section `found` of a file in this mode. -/
def Action.of (mode : GenMode) (found : Option Element) : Action :=
  match mode, found with
  | .force, some element => .replace element.tag
  | .force, none => .append
  | _, some element => if element.tag.isMachineOwned then .replace element.tag else .leave
  | _, none => .leave

/-- The mode of a file. -/
def modeFor (delimiter existing : Text) : GenMode :=
  (Tag.fileGenMode? delimiter existing).getD .demand

/-- The file with the content of a section brought up to date. -/
def regenerate (delimiter existing name content : Text) : Except Fault Text :=
  if Tag.isName name then
    match modeFor delimiter existing with
    | .skip => .ok existing
    | mode => do
      let forest ← Forest.parse delimiter existing
      match Action.of mode (forest.find? name) with
      | .append => return append delimiter existing name content
      | .replace tag => return forest.renderReplacing tag.offset (replaced delimiter tag content)
      | .leave => return existing
  else .error ((Defect.malformed (.invalidSectionName name) 0).locate name)

/-- What is reported while a section is brought up to date. -/
def reports (delimiter existing name : Text) : List Event :=
  if Tag.isName name then
    let mode := modeFor delimiter existing
    let started : Event := ⟨.debug, "regenerating section",
      [("section", name), ("mode", Named.label mode)]⟩
    let working :=
      if mode = .skip then []
      else
        Forest.parseReports delimiter existing ++
          match Forest.parse delimiter existing with
          | .error _ => []
          | .ok forest =>
            match Action.of mode (forest.find? name) with
            | .replace _ => []
            | .append => [⟨.debug, "section not found, appending", [("section", name)]⟩]
            | .leave =>
              [⟨.debug, "no machine owned section, leaving file untouched",
                [("section", name),
                  ("found", (if (forest.find? name).isSome then "true" else "false").toList)]⟩]
    started :: working
  else []

end Section

end Scaffold
