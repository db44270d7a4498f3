/-
**Extraction by byte offsets.**

The extraction of a source, with every slice and every difference of sizes that it takes: those of
the lexer, of the stack of namespaces, of the cursors in its comments, of the arguments of macros,
and of the location of a fault. All of them exist, for every source and every extractor, and the
result is that of the model (`parse?_eq`).
-/

import Scaffold.Extraction.Extractor
import Scaffold.Proofs.Bytes.Invocations
import Scaffold.Proofs.Bytes.Locations
import Scaffold.Proofs.Bytes.Remarks
import Scaffold.Proofs.Bytes.Scopes
import Scaffold.Proofs.Bytes.Tokens
import Scaffold.Proofs.Results

namespace Scaffold.Extractor

open Cursor (ReadsAs)

/-! ### Members -/

/-- The invocation of a recognised macro at a cursor, put into a property, and the cursor behind
it. -/
def applyInvocation? (keyword : Text) (type : MacroType) (cursor : Cursor) (property : Property) :
    Checked Defect (Property × Cursor) := do
  let opened ← cursor.advance? keyword.size
  match ← opened.balanced? Invocation.quotes with
  | none => throw (.malformed (.unclosedInvocation keyword) opened.offset)
  | some (group, next) =>
    let invocation ← Invocation.ofGroup? keyword group opened.offset
    let marked := { property with rawMacro := keyword ++ group, macroType := type }
    let filled ← Checked.of (invocation.fill type marked)
    let _ ← invocation.surplus? type
    return (filled, next)

/-- The macro at a cursor, put into a property, and the cursor behind it. -/
def applyMacro? (extractor : Extractor) (cursor : Cursor) (property : Property) :
    Checked Defect (Property × Cursor) := do
  match ← cursor.leading? with
  | .invocation keyword =>
    match extractor.registry.lookup keyword with
    | some type => applyInvocation? keyword type cursor property
    | none => return (property, cursor)
  | _ => return (property, cursor)

/-- The property of a member with this comment. -/
def annotate? (extractor : Extractor) (comment : Excerpt) (property : Property) :
    Checked Defect Property := do
  let cursor ← (Cursor.start comment).skipBlanks?
  let (filled, next) ← extractor.applyMacro? cursor property
  let remark ← Remark.read? next
  Checked.of (remark.applyToMember filled).result

/-- The property of a member. -/
def property? (extractor : Extractor) (member : Member) : Checked Defect Property :=
  match member.comment with
  | none => return .plain member.name member.ordinal
  | some comment => extractor.annotate? comment (.plain member.name member.ordinal)

/-! ### Declarations -/

/-- A class after one of the comments of its declaration. -/
def applyComment? (state : Class × List Text) (comment : Excerpt) :
    Checked Defect (Class × List Text) := do
  let remark ← Remark.read? (Cursor.start comment)
  let changed ← Checked.of (remark.applyToClass state.1).result
  return (changed,
    if remark.rawCommand = [] then state.2 else state.2 ++ [remark.rawCommand])

/-- The class of a declaration, without its members. -/
def classHead? (extractor : Extractor) (declaration : Declaration) : Checked Defect Class := do
  let plain := Class.plain (Text.join ['.'] declaration.path)
    (extractor.kinds.classify declaration.name) declaration.name
  let (described, parts) ← declaration.comments.foldlM applyComment? (plain, [])
  return { described with rawCommand := Text.join [' '] parts }

/-- The class of a declaration. -/
def describe? (extractor : Extractor) (declaration : Declaration) : Checked Defect Class := do
  let head ← extractor.classHead? declaration
  let properties ← declaration.members.mapM extractor.property?
  return { head with properties }

/-- The classes of one entry of an outline: none or one. -/
def item? (extractor : Extractor) : OutlineItem → Checked Defect (List Class)
  | .scope _ _ | .forward _ => return []
  | .declaration declaration => do
    let cls ← extractor.describe? declaration
    return [cls]
  | .unfinished declaration => do
    let _ ← extractor.describe? declaration
    return []

/-! ### Sources -/

/-- The classes of an outline, or its defect if no comment has one before it. -/
def outline? (extractor : Extractor) (outline : Outline) : Checked Defect (List Class) := do
  let classes ← outline.items.mapM extractor.item?
  match outline.defect with
  | some defect => throw defect
  | none => return classes.flatten

/-- The classes that a source declares, or its defect. -/
def run? (extractor : Extractor) (source : Text) : Checked Defect (List Class) := do
  let tokens ← Token.tokenize? source
  let outline ← Outline.walk? source.size ⟨[], [], 0⟩ tokens
  extractor.outline? outline

/-- The classes that a source declares. -/
def parse? (extractor : Extractor) (source : Text) : Option (Except Fault (List Class)) := do
  match ← (extractor.run? source).run with
  | .ok classes => return .ok classes
  | .error defect =>
    let fault ← defect.locate? source
    return .error fault

variable {extractor : Extractor} {cursor : Cursor} {excerpt : Excerpt}

/-! ### Members by byte offsets -/

/-- **An invocation** is read where the model reads it: behind the keyword there is a parenthesis. -/
theorem follows_applyInvocation {keyword more : Text} (isAt : cursor.At excerpt)
    (opens : excerpt.text = keyword ++ '(' :: more) (type : MacroType) (property : Property) :
    Checked.Follows (ReadsAs cursor.text) (applyInvocation? keyword type cursor property)
      (applyInvocation keyword type (excerpt.skip keyword ('(' :: more)) property).result := by
  have isOpened := isAt.move opens.symm
  rw [applyInvocation?, isAt.advance? opens.symm, Checked.lift_some_bind, isOpened.balanced?,
    Checked.lift_some_bind, isOpened.offset_eq, applyInvocation]
  simp only [Outcome.result_bind, Outcome.result_lift, Outcome.result_reportIf,
    Outcome.result_pure, Invocation.group]
  cases balanced : (excerpt.skip keyword ('(' :: more)).balanced? Invocation.quotes with
  | none => exact .error _
  | some found =>
    obtain ⟨group, after⟩ := found
    obtain ⟨inner, closer, rfl, narrow⟩ := Excerpt.balanced?_parenthesis rfl balanced
    dsimp only [Option.map_some]
    rw [Invocation.ofGroup?_eq narrow, Checked.lift_some_bind]
    refine (Checked.Follows.of_self _).bind fun own filled same => ?_
    subst same
    rw [Invocation.surplus?_eq, Checked.lift_some_bind]
    exact .ok ⟨rfl, isOpened.move_balanced balanced, rfl⟩

theorem follows_applyMacro (isAt : cursor.At excerpt) (property : Property) :
    Checked.Follows (ReadsAs cursor.text) (extractor.applyMacro? cursor property)
      (extractor.applyMacro excerpt property).result := by
  have unchanged : Checked.Follows (ReadsAs cursor.text) (pure (property, cursor))
      (pure (property, excerpt) : Outcome Defect (Property × Excerpt)).result :=
    .ok ⟨rfl, isAt, rfl⟩
  rw [applyMacro?, isAt.leading?, Checked.lift_some_bind, applyMacro, invoked?]
  cases leads : excerpt.leading with
  | invocation keyword =>
    obtain ⟨more, opens⟩ := Excerpt.exists_of_leading leads
    dsimp only
    cases extractor.registry.lookup keyword with
    | none => exact unchanged
    | some type =>
      have rest : excerpt.text.drop keyword.length = '(' :: more := by
        rw [opens, List.drop_left]
      dsimp only [Option.map_some]
      rw [rest]
      exact follows_applyInvocation isAt opens type property
  | _ => exact unchanged

/-- **The property of a member** is that of the model. -/
theorem property?_eq (extractor : Extractor) (member : Member) :
    extractor.property? member = .of (extractor.property member).result := by
  rw [property?, property]
  cases member.comment with
  | none => rfl
  | some comment =>
    have isAt := Cursor.at_start comment
    dsimp only
    rw [annotate?, isAt.skipBlanks?, Checked.lift_some_bind, annotate]
    simp only [Outcome.result_bind, Outcome.result_lift]
    refine (follows_applyMacro isAt.move_blanks _).bind_eq fun own value readsAs => ?_
    obtain ⟨same, isLeft, -⟩ := readsAs
    rw [Remark.read?_eq isLeft, same]
    exact Checked.of_bind fun _ _ => rfl

/-! ### Declarations by byte offsets -/

theorem applyComment?_eq (state : Class × List Text) (comment : Excerpt) :
    applyComment? state comment = .of (applyComment state comment).result := by
  rw [applyComment?, Remark.read?_eq (Cursor.at_start comment), applyComment]
  simp only [Outcome.result_bind, Outcome.result_lift, Outcome.result_pure]
  exact Checked.of_bind fun _ _ => Checked.of_bind fun _ _ => rfl

theorem classHead?_eq (extractor : Extractor) (declaration : Declaration) :
    extractor.classHead? declaration = .of (extractor.classHead declaration).result := by
  rw [classHead?, classHead, Outcome.result_bind, Outcome.result_foldlM,
    Checked.foldlM_of fun comment _ state => applyComment?_eq state comment]
  exact Checked.of_bind fun _ _ => rfl

/-- **The class of a declaration** is that of the model. -/
theorem describe?_eq (extractor : Extractor) (declaration : Declaration) :
    extractor.describe? declaration = .of (extractor.describe declaration).result := by
  rw [describe?, describe, Outcome.result_bind, classHead?_eq]
  refine Checked.of_bind fun _ _ => ?_
  rw [Outcome.result_bind, Outcome.result_mapM,
    Checked.mapM_of fun member _ => property?_eq extractor member]
  exact Checked.of_bind fun _ _ => rfl

theorem item?_eq (extractor : Extractor) (item : OutlineItem) :
    extractor.item? item = .of (extractor.item item).result := by
  cases item with
  | scope path depth | forward name => rfl
  | declaration declaration | unfinished declaration =>
    rw [item?, describe?_eq, Extractor.item, Outcome.result_bind]
    exact Checked.of_bind fun _ _ => rfl

/-! ### Sources by byte offsets -/

theorem outline?_eq (extractor : Extractor) (outline : Outline) :
    extractor.outline? outline = .of (extractor.outline outline).result := by
  rw [outline?, Extractor.outline, Outcome.result_bind, Outcome.result_mapM,
    Checked.mapM_of fun item _ => item?_eq extractor item]
  refine Checked.of_bind fun _ _ => ?_
  cases outline.defect <;> rfl

theorem run?_eq (extractor : Extractor) (source : Text) :
    extractor.run? source = .of (extractor.run source).result := by
  rw [run?, run, Token.tokenize?_eq]
  simp only [Outcome.result_bind, Outcome.result_lift]
  refine Checked.of_bind fun tokens _ => ?_
  have walked := Outline.walk?_of source.size [] 0 tokens
  rw [show (⟨[], [], 0⟩ : Outline.Stack) = .of [] 0 from rfl, walked, Checked.lift_some_bind,
    outline?_eq, Outline.ofSource]

/-- **No source makes the extraction slice or subtract out of range**: the extraction on bytes has a
result, and the result is that of the model. -/
theorem parse?_eq (extractor : Extractor) (source : Text) :
    extractor.parse? source = some (extractor.parse source) := by
  rw [parse?, run?_eq, parse]
  cases (extractor.run source).result with
  | ok classes => rfl
  | error defect =>
    show (defect.locate? source).bind _ = _
    rw [Defect.locate?_eq]
    rfl

end Scaffold.Extractor
