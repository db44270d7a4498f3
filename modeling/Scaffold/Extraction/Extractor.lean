/-
**From a source to its property model.**

An extractor knows the macro keywords and the endings of class names. It reads the outline of a
source and then the comments in it, in the order of the source: those of a declaration before those
of its members. The first defect ends the extraction, and nothing partial is returned.
-/

import Scaffold.Extraction.Attributes
import Scaffold.Extraction.Outline
import Scaffold.Extraction.Registry
import Scaffold.Extraction.Slots

namespace Scaffold

/-- What an extraction is guided by. -/
structure Extractor where
  registry : MacroRegistry
  kinds : ClassKindRules

namespace Extractor

/-- The extractor in force when nothing is configured. -/
def standard : Extractor := ⟨.standard, .standard⟩

/-- What is reported about arguments without a slot. -/
def surplusReport? (keyword member : Text) (surplus : Nat) : Option Event :=
  if surplus = 0 then none
  else some ⟨.warn, "ignoring extra macro arguments",
    [("keyword", keyword), ("member", member), ("extra", (toString surplus).toList)]⟩

/-- The invocation of a recognised macro at the front of an excerpt, put into a property; `rest` is
the excerpt after the keyword. -/
def applyInvocation (keyword : Text) (type : MacroType) (rest : Excerpt) (property : Property) :
    Outcome Defect (Property × Excerpt) := do
  let (group, after) ← .lift (Invocation.group keyword rest)
  let invocation := Invocation.ofGroup keyword group rest.offset
  let marked := { property with rawMacro := keyword ++ group, macroType := type }
  let filled ← .lift (invocation.fill type marked)
  .reportIf (surplusReport? keyword property.enumName (invocation.surplus type))
  return (filled, after)

/-- The keyword that a comment starts with and its macro type, if it is recognised. -/
def invoked? (extractor : Extractor) (comment : Excerpt) : Option (Text × MacroType) :=
  match comment.leading with
  | .invocation keyword =>
    (extractor.registry.lookup keyword).map fun type => (keyword, type)
  | _ => none

/-- The macro that a comment starts with, put into a property, and the rest of the comment. -/
def applyMacro (extractor : Extractor) (comment : Excerpt) (property : Property) :
    Outcome Defect (Property × Excerpt) :=
  match extractor.invoked? comment with
  | some (keyword, type) =>
    applyInvocation keyword type
      (comment.skip keyword (comment.text.drop keyword.length)) property
  | none => pure (property, comment)

/-- The property of a member with this comment. -/
def annotate (extractor : Extractor) (comment : Excerpt) (property : Property) :
    Outcome Defect Property := do
  let (filled, rest) ← extractor.applyMacro comment.skipBlanks property
  let remark ← .lift (Remark.ofExcerpt rest)
  remark.applyToMember filled

/-- The property of a member. -/
def property (extractor : Extractor) (member : Member) : Outcome Defect Property :=
  match member.comment with
  | none => pure (.plain member.name member.ordinal)
  | some comment => extractor.annotate comment (.plain member.name member.ordinal)

/-- A class after one of the comments of its declaration; the free text is added to what the
comments before it said. -/
def applyComment (state : Class × List Text) (comment : Excerpt) :
    Outcome Defect (Class × List Text) := do
  let remark ← .lift (Remark.ofExcerpt comment)
  let changed ← remark.applyToClass state.1
  return (changed,
    if remark.rawCommand = [] then state.2 else state.2 ++ [remark.rawCommand])

/-- The class of a declaration, without its members. -/
def classHead (extractor : Extractor) (declaration : Declaration) : Outcome Defect Class := do
  let plain := Class.plain (Text.join ['.'] declaration.path)
    (extractor.kinds.classify declaration.name) declaration.name
  let (described, parts) ← declaration.comments.foldlM applyComment (plain, [])
  return { described with rawCommand := Text.join [' '] parts }

/-- The class of a declaration. -/
def describe (extractor : Extractor) (declaration : Declaration) : Outcome Defect Class := do
  let head ← extractor.classHead declaration
  let properties ← declaration.members.mapM extractor.property
  return { head with properties }

/-- An optional number, as events show it. -/
def showDepth : Option Nat → String
  | none => "None"
  | some depth => "Some(" ++ toString depth ++ ")"

/-- The classes of one entry of an outline: none or one. -/
def item (extractor : Extractor) : OutlineItem → Outcome Defect (List Class)
  | .scope path depth => do
    .report ⟨.trace, "entering namespace",
      [("namespace", Text.join ['.'] path), ("depth", (showDepth depth).toList)]⟩
    return []
  | .forward name => do
    .report ⟨.trace, "skipping forward declaration", [("name", name)]⟩
    return []
  | .declaration declaration => do
    let cls ← extractor.describe declaration
    .report ⟨.debug, "parsed declaration",
      [("class", cls.qualifiedName), ("kind", Named.label cls.kind),
        ("properties", (toString cls.properties.length).toList)]⟩
    return [cls]
  | .unfinished declaration => do
    let _ ← extractor.describe declaration
    return []

/-- The classes of an outline, or its defect if no comment has one before it. -/
def outline (extractor : Extractor) (outline : Outline) : Outcome Defect (List Class) := do
  let classes ← outline.items.mapM extractor.item
  match outline.defect with
  | some defect => .fail defect
  | none =>
    .report ⟨.debug, "extracted declarations",
      [("declarations", (toString classes.flatten.length).toList)]⟩
    return classes.flatten

/-- The classes that a source declares, with what is reported on the way. -/
def run (extractor : Extractor) (source : Text) : Outcome Defect (List Class) := do
  let tokens ← .lift (Token.tokenize source)
  extractor.outline (.ofSource source tokens)

/-- The classes that a source declares. -/
def parse (extractor : Extractor) (source : Text) : Except Fault (List Class) :=
  match (extractor.run source).result with
  | .ok classes => .ok classes
  | .error defect => .error (defect.locate source)

end Extractor

end Scaffold
