/-
**What is extracted and what is said about it.**

The classes of a source have the skeletons of the declarations that its outline lists, whatever the
comments do to them (`skeletons_of_parse`). The outline of a source does not depend on what comments
say. So two sources that differ in nothing else have classes of the same skeletons
(`skeletons_eq_of_alike`): the comments may decide whether a source is extracted and how its classes
and members are described, but not which they are.
-/

import Scaffold.Proofs.Extraction.Namespaces
import Scaffold.Proofs.Extraction.Silence

namespace Scaffold

theorem OutlineItem.declaration?_silenced (item : OutlineItem) :
    item.silenced.declaration? = item.declaration?.map Declaration.silenced := by
  cases item <;> rfl

namespace Extractor

variable {extractor : Extractor} {source : Text} {classes : List Class}

theorem skeleton_silenced (declaration : Declaration) :
    extractor.skeleton declaration.silenced = extractor.skeleton declaration := by
  unfold skeleton Declaration.silenced
  rw [List.map_map]
  rfl

/-- What the classes of an outline have before any comment is read. -/
def skeletons (extractor : Extractor) (outline : Outline) :
    List ((Text × ClassKind × Text) × List (Text × Int)) :=
  (outline.items.filterMap OutlineItem.declaration?).map extractor.skeleton

theorem skeletons_silenced (outline : Outline) :
    extractor.skeletons outline.silenced = extractor.skeletons outline := by
  unfold skeletons Outline.silenced
  rw [List.filterMap_map, List.map_filterMap, List.map_filterMap]
  congr 1
  funext item
  show (item.silenced.declaration?).map extractor.skeleton = _
  rw [OutlineItem.declaration?_silenced, Option.map_map]
  congr 1
  funext declaration
  exact skeleton_silenced declaration

/-- An entry has the class of its declaration, if it lists one. -/
theorem skeletons_of_item {item : OutlineItem}
    (done : (extractor.item item).result = .ok classes) :
    classes.map Class.skeleton = item.declaration?.toList.map extractor.skeleton := by
  cases item with
  | scope path depth | forward name =>
    cases done
    rfl
  | declaration declaration =>
    rw [result_item_declaration] at done
    obtain ⟨cls, described, rfl⟩ := map_eq_ok_iff.mp done
    rw [List.map_singleton, skeleton_of_describe described]
    rfl
  | unfinished declaration =>
    rw [item, Outcome.result_bind] at done
    obtain ⟨cls, -, same⟩ := bind_eq_ok_iff.mp done
    cases same
    rfl

theorem skeletons_of_outline {outline : Outline}
    (done : (extractor.outline outline).result = .ok classes) :
    classes.map Class.skeleton = extractor.skeletons outline := by
  rw [Extractor.outline, Outcome.result_bind, Outcome.result_mapM] at done
  obtain ⟨frames, ran, ended⟩ := bind_eq_ok_iff.mp done
  have flat : classes = frames.flatten := by
    cases defect : outline.defect with
    | none =>
      rw [defect] at ended
      exact (Except.ok.inj ended).symm
    | some defect' =>
      rw [defect] at ended
      cases ended
  have listed := map_eq_of_mapM (List.map Class.skeleton) _
    (fun _ _ _ => skeletons_of_item) ran
  rw [flat, List.map_flatten, listed, skeletons, List.filterMap_eq_flatMap_toList, List.map_flatMap,
    List.flatMap]

/-- A source that is extracted is cut into tokens, and its classes are those of its outline. -/
theorem outline_of_parse (parsed : extractor.parse source = .ok classes) :
    ∃ tokens, Token.tokenize source = .ok tokens ∧
      (extractor.outline (.ofSource source tokens)).result = .ok classes := by
  have ran : (extractor.run source).result = .ok classes := by
    unfold parse at parsed
    split at parsed
    · rename_i found
      rw [found, Except.ok.inj parsed]
    · cases parsed
  rw [run, Outcome.result_bind, Outcome.result_lift] at ran
  exact bind_eq_ok_iff.mp ran

/-- **The classes of a source** have the skeletons of the declarations that it lists. -/
theorem skeletons_of_parse {tokens : List Token} (cut : Token.tokenize source = .ok tokens)
    (parsed : extractor.parse source = .ok classes) :
    classes.map Class.skeleton = extractor.skeletons (.ofSource source tokens) := by
  obtain ⟨others, again, outlined⟩ := outline_of_parse parsed
  cases cut.symm.trans again
  exact skeletons_of_outline outlined

/-- **Comments never change the structure**. Take two sources whose tokens are of the same kinds,
one by one, and of the same texts unless they are comments. If both are extracted, there are as many
classes in the one as in the other, and those in the same place stand in the same namespaces and
have the same kind, the same name and the same members in the same order with the same values. -/
theorem skeletons_eq_of_alike (extractor : Extractor) {first second : Text}
    {firstTokens secondTokens : List Token} (firstCut : Token.tokenize first = .ok firstTokens)
    (secondCut : Token.tokenize second = .ok secondTokens)
    (alike : List.Forall₂ Token.Alike firstTokens secondTokens) {classes others : List Class}
    (parsed : extractor.parse first = .ok classes)
    (parsedOther : extractor.parse second = .ok others) :
    List.Forall₂ (fun cls other => cls.enclosing = other.enclosing ∧ cls.kind = other.kind ∧
        cls.name = other.name ∧
        cls.properties.map (fun property => (property.enumName, property.ordinal)) =
          other.properties.map fun property => (property.enumName, property.ordinal))
      classes others := by
  have outlined : (Outline.ofSource first firstTokens).silenced =
      (Outline.ofSource second secondTokens).silenced := by
    rw [← Outline.ofSource_silenced, ← Outline.ofSource_silenced, Tokens.silenced_eq_iff.mpr alike]
  have same : classes.map Class.skeleton = others.map Class.skeleton := by
    rw [skeletons_of_parse firstCut parsed, skeletons_of_parse secondCut parsedOther,
      ← skeletons_silenced, outlined, skeletons_silenced]
  refine (map_eq_map_iff.mp same).imp fun cls other equal => ?_
  obtain ⟨placed, listed⟩ := Prod.mk.inj equal
  obtain ⟨enclosing, kindAndName⟩ := Prod.mk.inj placed
  obtain ⟨kind, name⟩ := Prod.mk.inj kindAndName
  exact ⟨enclosing, kind, name, listed⟩

/-- Two comments that annotate nothing, and what makes of one member an inherited one and of the
other one that can only be read. -/
theorem skeletons_eq_of_alike_annotated :
    ∃ first second firstTokens secondTokens classes others,
      first = "enum E\x7bA, // a\nB=4 /* b */\x7d;".toList ∧
      second = "enum E\x7bA, // @@Inherit\nB=4 /* @@ReadOnly */\x7d;".toList ∧
      Token.tokenize first = .ok firstTokens ∧ Token.tokenize second = .ok secondTokens ∧
      List.Forall₂ Token.Alike firstTokens secondTokens ∧
      Extractor.standard.parse first = .ok classes ∧
      Extractor.standard.parse second = .ok others ∧
      classes.map (fun cls => cls.properties.map Property.isInherited) = [[false, false]] ∧
      others.map (fun cls => cls.properties.map Property.isInherited) = [[true, false]] ∧
      List.Forall₂ (fun cls other => cls.enclosing = other.enclosing ∧ cls.kind = other.kind ∧
          cls.name = other.name ∧
          cls.properties.map (fun property => (property.enumName, property.ordinal)) =
            other.properties.map fun property => (property.enumName, property.ordinal))
        classes others := by
  obtain ⟨firstTokens, found⟩ := Option.isSome_iff_exists.mp
    (show (Token.tokenize "enum E\x7bA, // a\nB=4 /* b */\x7d;".toList).toOption.isSome = true by
      decide +kernel)
  obtain ⟨secondTokens, foundOther⟩ := Option.isSome_iff_exists.mp
    (show (Token.tokenize
        "enum E\x7bA, // @@Inherit\nB=4 /* @@ReadOnly */\x7d;".toList).toOption.isSome = true by
      decide +kernel)
  have alike : List.Forall₂ Token.Alike firstTokens secondTokens := by
    have silenced : (Token.tokenize "enum E\x7bA, // a\nB=4 /* b */\x7d;".toList).toOption.map
        Tokens.silenced = (Token.tokenize
          "enum E\x7bA, // @@Inherit\nB=4 /* @@ReadOnly */\x7d;".toList).toOption.map
        Tokens.silenced := by decide +kernel
    rw [found, foundOther] at silenced
    exact Tokens.silenced_eq_iff.mp (Option.some.inj silenced)
  obtain ⟨classes, parsed, plain⟩ := Option.map_eq_some_iff.mp
    (show (standard.parse "enum E\x7bA, // a\nB=4 /* b */\x7d;".toList).toOption.map
        (List.map fun cls => cls.properties.map Property.isInherited) = some [[false, false]] by
      decide +kernel)
  obtain ⟨others, parsedOther, annotated⟩ := Option.map_eq_some_iff.mp
    (show (standard.parse
        "enum E\x7bA, // @@Inherit\nB=4 /* @@ReadOnly */\x7d;".toList).toOption.map
        (List.map fun cls => cls.properties.map Property.isInherited) = some [[true, false]] by
      decide +kernel)
  have firstCut := ok_of_toOption found
  have secondCut := ok_of_toOption foundOther
  have ran := ok_of_toOption parsed
  have ranOther := ok_of_toOption parsedOther
  exact ⟨_, _, firstTokens, secondTokens, classes, others, rfl, rfl, firstCut, secondCut, alike, ran,
    ranOther, plain, annotated,
    skeletons_eq_of_alike standard firstCut secondCut alike ran ranOther⟩

end Extractor

end Scaffold
