/-
**Every enum of a source, in the namespaces it stands in.**

A source that is written down as a tree is read to its end, and what is extracted from it is one
class for each of its enums with a body, in their order, named after the namespaces around it. Only
a comment that annotates an enum or a member can be in the way, by what it says.

* `parse_eq_ok_iff`: the classes of a source without a defect are the descriptions of what it lists;
* `parse_of_file`: the classes of a source that is written as a tree;
* `not_readsFiles`: what a layout may not do, and that comments can be in the way.
-/

import Scaffold.Proofs.Extraction.Description
import Scaffold.Proofs.Extraction.Walk

namespace Scaffold

/-! ### Declarations of an outline -/

/-- The declaration that an entry lists with its body. -/
def OutlineItem.declaration? : OutlineItem → Option Declaration
  | declaration item => some item
  | _ => none

@[simp] theorem OutlineItem.filterMap_declaration (first : Declaration) (rest : List OutlineItem) :
    (declaration first :: rest).filterMap declaration? = first :: rest.filterMap declaration? := rfl

/-- The entry is a declaration whose body ends too soon. -/
def OutlineItem.IsUnfinished (item : OutlineItem) : Prop :=
  ∃ declaration, item = .unfinished declaration

theorem SourceTree.filterMap_items (tree : SourceTree) (path : List Text) (depth : Nat) :
    (tree.items path depth).filterMap OutlineItem.declaration? = tree.declarations path := by
  induction tree generalizing path depth with
  | empty => rfl
  | namespaced names inner next ihInner ihNext =>
    rw [items, List.filterMap_cons_none rfl, List.filterMap_append, ihInner, ihNext, declarations]
  | block inner next ihInner ihNext =>
    rw [items, List.filterMap_append, ihInner, ihNext, declarations]
  | forward name next ih => rw [items, List.filterMap_cons_none rfl, ih, declarations]
  | enumeration name comments members next ih =>
    rw [items, OutlineItem.filterMap_declaration, ih, declarations]

theorem SourceTree.not_isUnfinished (tree : SourceTree) (path : List Text) (depth : Nat) :
    ∀ item ∈ tree.items path depth, ¬ item.IsUnfinished := by
  induction tree generalizing path depth with
  | empty => exact nofun
  | namespaced names inner next ihInner ihNext =>
    rw [items, List.forall_mem_cons, List.forall_mem_append]
    exact ⟨nofun, ihInner _ _, ihNext _ _⟩
  | block inner next ihInner ihNext =>
    rw [items, List.forall_mem_append]
    exact ⟨ihInner _ _, ihNext _ _⟩
  | forward name next ih | enumeration name comments members next ih =>
    rw [items, List.forall_mem_cons]
    exact ⟨nofun, ih _ _⟩

theorem SourceFile.filterMap_items (file : SourceFile) (path : List Text) :
    (file.items path).filterMap OutlineItem.declaration? = file.declarationsIn path := by
  induction file generalizing path with
  | last items => exact items.filterMap_items path 0
  | fileScope listed names rest ih =>
    rw [items, List.filterMap_append, List.filterMap_cons_none rfl, listed.filterMap_items, ih,
      declarationsIn]

theorem SourceFile.not_isUnfinished (file : SourceFile) (path : List Text) :
    ∀ item ∈ file.items path, ¬ item.IsUnfinished := by
  induction file generalizing path with
  | last items => exact items.not_isUnfinished path 0
  | fileScope listed names rest ih =>
    rw [items, List.forall_mem_append, List.forall_mem_cons]
    exact ⟨listed.not_isUnfinished path 0, nofun, ih _⟩

/-! ### Classes of an outline -/

namespace Extractor

variable {extractor : Extractor} {source : Text} {tokens : Tokens} {classes : List Class}

theorem result_item_declaration (declaration : Declaration) :
    (extractor.item (.declaration declaration)).result =
      (extractor.describe declaration).result.map fun cls => [cls] := by
  rw [item, Outcome.result_bind]
  cases (extractor.describe declaration).result <;> rfl

/-- Entries without an unfinished one have the classes of the declarations among them. -/
theorem flatten_mapM_item {items : List OutlineItem}
    (finished : ∀ item ∈ items, ¬ item.IsUnfinished) :
    (items.mapM fun item => (extractor.item item).result).map List.flatten =
      (items.filterMap OutlineItem.declaration?).mapM fun declaration =>
        (extractor.describe declaration).result := by
  induction items with
  | nil => rfl
  | cons item rest ih =>
    obtain ⟨ended, restFinished⟩ := List.forall_mem_cons.mp finished
    rw [List.mapM_cons]
    cases item with
    | scope path depth | forward name =>
      rw [List.filterMap_cons_none rfl, ← ih restFinished]
      cases rest.mapM fun item => (extractor.item item).result <;> rfl
    | declaration declaration =>
      rw [OutlineItem.filterMap_declaration, List.mapM_cons, ← ih restFinished,
        result_item_declaration]
      cases (extractor.describe declaration).result with
      | error defect => rfl
      | ok cls => cases rest.mapM fun item => (extractor.item item).result <;> rfl
    | unfinished declaration => exact absurd ⟨declaration, rfl⟩ ended

/-- **The classes of a source** without a defect are the descriptions of its declarations. -/
theorem parse_eq_ok_iff {items : List OutlineItem} (cut : Token.tokenize source = .ok tokens)
    (outlined : Outline.ofSource source tokens = ⟨items, none⟩)
    (finished : ∀ item ∈ items, ¬ item.IsUnfinished) :
    extractor.parse source = .ok classes ↔
      List.Forall₂ (fun declaration cls => (extractor.describe declaration).result = .ok cls)
        (items.filterMap OutlineItem.declaration?) classes := by
  rw [← mapM_eq_ok_iff, ← flatten_mapM_item finished]
  have ran : (extractor.run source).result =
      (items.mapM fun item => (extractor.item item).result).map List.flatten := by
    have listed : (extractor.run source).result =
        (extractor.outline (Outline.ofSource source tokens)).result := by
      rw [run, Outcome.result_bind, Outcome.result_lift, cut]
      rfl
    rw [listed, outlined, outline, Outcome.result_bind, Outcome.result_mapM]
    cases items.mapM fun item => (extractor.item item).result <;> rfl
  rw [parse, ran]
  cases (items.mapM fun item => (extractor.item item).result).map List.flatten with
  | error defect => exact ⟨nofun, nofun⟩
  | ok found =>
    exact ⟨fun same => congrArg Except.ok (Except.ok.inj same), fun same =>
      congrArg Except.ok (Except.ok.inj same)⟩

/-- The classes of a file are the descriptions of its enums. -/
theorem parse_file_eq_ok_iff {file : SourceFile} (cut : Token.tokenize source = .ok tokens)
    (written : Layout.File (· == .whitespace) file tokens) :
    extractor.parse source = .ok classes ↔
      List.Forall₂ (fun declaration cls => (extractor.describe declaration).result = .ok cls)
        file.declarations classes := by
  have outlined : Outline.ofSource source tokens = ⟨file.items [], none⟩ :=
    Outline.ofTokens_of_file written nofun
  rw [parse_eq_ok_iff cut outlined (file.not_isUnfinished []), file.filterMap_items,
    SourceFile.declarations]

/-- **Namespaces and order**. A file in which only blanks stand between a member and its comma is
extracted exactly if the comments of each of its enums can be read, so certainly if they annotate
nothing. It then has one class for each enum with a body, in the order of the source, with the names
of the namespaces around it joined by points, its own name and the names of its members. -/
theorem parse_of_file (extractor : Extractor) {source : Text} {tokens : Tokens} {file : SourceFile}
    (cut : Token.tokenize source = .ok tokens)
    (written : Layout.File (· == .whitespace) file tokens) :
    ((∃ classes, extractor.parse source = .ok classes) ↔
        ∀ declaration ∈ file.declarations, extractor.Accepts declaration) ∧
      ((∀ declaration ∈ file.declarations, extractor.Unannotated declaration) →
        ∃ classes, extractor.parse source = .ok classes) ∧
      ∀ classes, extractor.parse source = .ok classes →
        classes.map (fun cls => (cls.enclosing, cls.name, cls.properties.map Property.enumName)) =
          file.declarations.map fun declaration =>
            (Text.join ['.'] declaration.path, declaration.name,
              declaration.members.map Member.name) := by
  have succeeds : (∃ classes, extractor.parse source = .ok classes) ↔
      ∀ declaration ∈ file.declarations, extractor.Accepts declaration := by
    simp only [parse_file_eq_ok_iff cut written, exists_forall₂_iff, exists_describe_iff]
  refine ⟨succeeds, fun plain => ?_, fun classes parsed => ?_⟩
  · exact succeeds.mpr fun declaration among => (plain declaration among).accepts
  · have run := mapM_eq_ok_iff.mpr ((parse_file_eq_ok_iff cut written).mp parsed)
    refine map_eq_of_mapM _ _ (fun declaration _ cls described => ?_) run
    obtain ⟨enclosing, name, members⟩ := describe_placed described
    rw [enclosing, name, members]

/-- A namespace without braces, two with braces and a block around one enum, and a forward enum. -/
theorem parse_of_file_nested : ∃ source tokens file,
    source =
      "namespace f;\nnamespace a::b\x7bstruct\x7benum E\x7bA // 1\n\x7d;\x7d;\x7d\nenum G;".toList ∧
      Token.tokenize source = .ok tokens ∧ Layout.File (· == .whitespace) file tokens ∧
      (∀ declaration ∈ file.declarations, Extractor.standard.Unannotated declaration) ∧
      ∃ classes, Extractor.standard.parse source = .ok classes ∧
        classes.map (fun cls => (cls.enclosing, cls.name, cls.properties.map Property.enumName)) =
          [("f.a.b".toList, "E".toList, ["A".toList])] := by
  obtain ⟨tokens, file, cut, written, plain, placed⟩ : ∃ tokens file,
      Token.tokenize
      "namespace f;\nnamespace a::b\x7bstruct\x7benum E\x7bA // 1\n\x7d;\x7d;\x7d\nenum G;".toList =
          .ok tokens ∧
      Layout.File (· == .whitespace) file tokens ∧
      (∀ declaration ∈ file.declarations, Extractor.standard.Unannotated declaration) ∧
      file.declarations.map (fun declaration => (Text.join ['.'] declaration.path,
          declaration.name, declaration.members.map Member.name)) =
        [("f.a.b".toList, "E".toList, ["A".toList])] := by
    exact ⟨
      [⟨.identifier, "namespace".toList, 0⟩, ⟨.whitespace, " ".toList, 9⟩,
        ⟨.identifier, "f".toList, 10⟩, ⟨.semicolon, ";".toList, 11⟩, ⟨.newline, "\n".toList, 12⟩,
        ⟨.identifier, "namespace".toList, 13⟩, ⟨.whitespace, " ".toList, 22⟩,
        ⟨.identifier, "a".toList, 23⟩, ⟨.doubleColon, "::".toList, 24⟩,
        ⟨.identifier, "b".toList, 26⟩, ⟨.openBrace, "\x7b".toList, 27⟩,
        ⟨.identifier, "struct".toList, 28⟩, ⟨.openBrace, "\x7b".toList, 34⟩,
        ⟨.identifier, "enum".toList, 35⟩, ⟨.whitespace, " ".toList, 39⟩,
        ⟨.identifier, "E".toList, 40⟩, ⟨.openBrace, "\x7b".toList, 41⟩,
        ⟨.identifier, "A".toList, 42⟩, ⟨.whitespace, " ".toList, 43⟩,
        ⟨.lineComment, "// 1".toList, 44⟩, ⟨.newline, "\n".toList, 48⟩,
        ⟨.closeBrace, "\x7d".toList, 49⟩, ⟨.semicolon, ";".toList, 50⟩,
        ⟨.closeBrace, "\x7d".toList, 51⟩, ⟨.semicolon, ";".toList, 52⟩,
        ⟨.closeBrace, "\x7d".toList, 53⟩, ⟨.newline, "\n".toList, 54⟩,
        ⟨.identifier, "enum".toList, 55⟩, ⟨.whitespace, " ".toList, 59⟩,
        ⟨.identifier, "G".toList, 60⟩, ⟨.semicolon, ";".toList, 61⟩], _,
      by decide +kernel,
      .fileScope (.empty _) (by decide) (.skip (.inl rfl) (.single rfl (by decide) _)) rfl
        (.last (.filler (by decide) (.namespaced (by decide)
          (.skip (.inl rfl) (@Layout.Path.more _ _ _ [] _ _ rfl (by decide) nofun rfl
            (.single rfl (by decide) _))) rfl
          (.filler (by decide) (.block rfl
            (.enumeration (by decide) (.spaced rfl rfl (by decide) (by decide) _) (.nil _) rfl
              (.bare rfl (.trivia rfl (.nil _ rfl))) (by decide)
              (.filler (by decide) (.empty _)))
            rfl (.filler (by decide) (.empty _)))) rfl
          (.filler (by decide) (.forward (by decide) (.spaced rfl rfl (by decide) (by decide) _)
            (.nil _) rfl (.empty _)))))),
      by decide +kernel, by decide +kernel⟩
  obtain ⟨-, succeeds, same⟩ := parse_of_file Extractor.standard cut written
  obtain ⟨classes, parsed⟩ := succeeds plain
  exact ⟨_, tokens, file, rfl, cut, written, plain, classes, parsed,
    (same classes parsed).trans placed⟩

/-- Every file that is written with tokens of the kinds `gap` between members and their commas is
extracted, with one class for each of its enums where that enum is. -/
def ReadsFiles (extractor : Extractor) (gap : TokenKind → Bool) : Prop :=
  ∀ (source : Text) (tokens : Tokens) (file : SourceFile),
    Token.tokenize source = .ok tokens → Layout.File gap file tokens →
      ∃ classes, extractor.parse source = .ok classes ∧
        classes.map (fun cls => (cls.enclosing, cls.name)) =
          file.declarations.map fun declaration =>
            (Text.join ['.'] declaration.path, declaration.name)

/-- A line feed before a comma is in the way, as what follows a member belongs to it up to the end
of its line. And without one, a comment on the line of a member can be. -/
theorem not_readsFiles :
    ¬ standard.ReadsFiles TokenKind.isTrivia ∧ ¬ standard.ReadsFiles (· == .whitespace) := by
  constructor
  · intro reads
    obtain ⟨classes, parsed, -⟩ := reads "enum E\x7bA\n,B\x7d;".toList
      [⟨.identifier, "enum".toList, 0⟩, ⟨.whitespace, " ".toList, 4⟩, ⟨.identifier, "E".toList, 5⟩,
        ⟨.openBrace, "\x7b".toList, 6⟩, ⟨.identifier, "A".toList, 7⟩, ⟨.newline, "\n".toList, 8⟩,
        ⟨.comma, ",".toList, 9⟩, ⟨.identifier, "B".toList, 10⟩, ⟨.closeBrace, "\x7d".toList, 11⟩,
        ⟨.semicolon, ";".toList, 12⟩]
      _ (by decide +kernel)
      (.last (.enumeration (by decide) (.spaced rfl rfl (by decide) (by decide) _) (.nil _) rfl
        (@Layout.Members.separated _ _ _ _ [_] _ _ rfl (by decide) rfl (.bare rfl (.nil _ rfl)))
        (by decide) (.filler (by decide) (.empty _))))
    have refused : (standard.parse "enum E\x7bA\n,B\x7d;".toList).isOk = false := by decide +kernel
    rw [parsed] at refused
    cases refused
  · intro reads
    obtain ⟨classes, parsed, -⟩ := reads "enum E\x7bA,// @@\n\x7d;".toList
      [⟨.identifier, "enum".toList, 0⟩, ⟨.whitespace, " ".toList, 4⟩, ⟨.identifier, "E".toList, 5⟩,
        ⟨.openBrace, "\x7b".toList, 6⟩, ⟨.identifier, "A".toList, 7⟩, ⟨.comma, ",".toList, 8⟩,
        ⟨.lineComment, "// @@".toList, 9⟩, ⟨.newline, "\n".toList, 14⟩,
        ⟨.closeBrace, "\x7d".toList, 15⟩, ⟨.semicolon, ";".toList, 16⟩]
      _ (by decide +kernel)
      (.last (.enumeration (by decide) (.spaced rfl rfl (by decide) (by decide) _) (.nil _) rfl
        (@Layout.Members.separated _ _ _ _ [] _ _ rfl nofun rfl (.trivia rfl (.nil _ rfl)))
        (by decide) (.filler (by decide) (.empty _))))
    have refused : (standard.parse "enum E\x7bA,// @@\n\x7d;".toList).isOk = false := by
      decide +kernel
    rw [parsed] at refused
    cases refused

end Extractor

end Scaffold
