/-
**Open namespaces as counts on one stack of names.**

The walk over a source keeps the names of all open namespaces in one list, and for each namespace
only how many of these names are its own. A closing brace may end several namespaces, and the names
of each one are dropped by a difference of lengths. Whatever braces the source has, and whichever
namespaces without braces stand between others, the counts stay those of the namespaces that are
open (`Stack.of`), so no difference is negative:

* `enter_of`, `unwind?_of`, `closeBrace?_of`: each way to change the stack;
* `walk?_of`: the whole walk, which lists what the model lists.
-/

import Scaffold.Proofs.Bytes.Slices
import Scaffold.Proofs.Extraction.Silence

namespace Scaffold.Outline

/-! ### Stacks -/

/-- How many names an open namespace has, and the number of braces that are open inside it. -/
structure Count where
  names : Nat
  depth : Option Nat

/-- Whether a namespace ends when only `depth` braces are open. -/
def Count.endsAt (depth : Nat) (count : Count) : Bool :=
  match count.depth with
  | some inside => depth < inside
  | none => false

/-- The open namespaces, innermost first, the names of all of them, outermost first, and the number
of open braces. -/
structure Stack where
  counts : List Count
  names : List Text
  depth : Nat

namespace Stack

/-- The stack in a namespace. -/
def enter (path : List Text) (depth : Option Nat) (stack : Stack) : Stack :=
  { stack with counts := ⟨path.length, depth⟩ :: stack.counts, names := stack.names ++ path }

/-- The stack behind an opening brace. -/
def openBrace (stack : Stack) : Stack := { stack with depth := stack.depth + 1 }

/-- What stays open of namespaces when only `depth` braces are open, and the names that stay. -/
def unwind? (depth : Nat) : List Count → List Text → Option (List Count × List Text)
  | [], names => some ([], names)
  | count :: outer, names =>
    if count.endsAt depth then do
      let kept ← minus? names.length count.names
      unwind? depth outer (names.take kept)
    else some (count :: outer, names)

/-- The stack behind a closing brace; a brace that was never opened closes nothing. -/
def closeBrace? (stack : Stack) : Option Stack := do
  let depth := stack.depth - 1
  let (counts, names) ← unwind? depth stack.counts stack.names
  return ⟨counts, names, depth⟩

/-- The stack of the scopes that are open. -/
def of (scopes : List Scope) (depth : Nat) : Stack :=
  ⟨scopes.map fun scope => ⟨scope.path.length, scope.depth⟩, scopePath scopes, depth⟩

theorem enter_of (path : List Text) (inside : Option Nat) (scopes : List Scope) (depth : Nat) :
    (of scopes depth).enter path inside = of (⟨path, inside⟩ :: scopes) depth := by
  rw [of, of, scopePath_cons]
  rfl

/-- **Names are dropped with their namespace**: those of the innermost one come last. -/
theorem unwind?_of (depth : Nat) (scopes : List Scope) (before : Nat) :
    unwind? depth (of scopes before).counts (of scopes before).names =
      some ((of (closeScopes depth scopes) depth).counts,
        (of (closeScopes depth scopes) depth).names) := by
  induction scopes with
  | nil => rfl
  | cons scope outer ih =>
    have own : minus? (scopePath (scope :: outer)).length scope.path.length =
        some (scopePath outer).length := by
      rw [minus?_eq_some_iff, scopePath_cons, List.length_append, Nat.add_comm]
    have rest : (scopePath (scope :: outer)).take (scopePath outer).length = scopePath outer := by
      rw [scopePath_cons, List.take_left]
    by_cases ends : scope.endsAt depth = true
    · have counted : Count.endsAt depth ⟨scope.path.length, scope.depth⟩ = true := ends
      rw [closeScopes, List.dropWhile_cons_of_pos ends]
      show unwind? depth (⟨scope.path.length, scope.depth⟩ :: _) (scopePath (scope :: outer)) = _
      rw [unwind?, if_pos counted, own, Option.bind_eq_bind, Option.bind_some, rest]
      exact ih
    · have counted : ¬ Count.endsAt depth ⟨scope.path.length, scope.depth⟩ = true := ends
      rw [closeScopes, List.dropWhile_cons_of_neg ends]
      show unwind? depth (⟨scope.path.length, scope.depth⟩ :: _) (scopePath (scope :: outer)) = _
      rw [unwind?, if_neg counted]
      rfl

theorem closeBrace?_of (scopes : List Scope) (depth : Nat) :
    (of scopes depth).closeBrace? = some (of (closeScopes (depth - 1) scopes) (depth - 1)) := by
  have unwound := unwind?_of (depth - 1) scopes depth
  rw [closeBrace?]
  dsimp only [of] at unwound ⊢
  rw [unwound]
  rfl

end Stack

/-! ### Walks -/

/-- The outline from a place in the source on, with a stack of open namespaces. -/
def walk? (sourceEnd : Nat) (stack : Stack) (tokens : Tokens) : Option Outline :=
  match tokens with
  | [] => some ⟨[], none⟩
  | token :: rest =>
    match token.kind with
    | .hash =>
      have := Tokens.skipLine_length rest
      walk? sourceEnd stack (Tokens.skipLine rest)
    | .openBrace => walk? sourceEnd stack.openBrace rest
    | .closeBrace => do
      let closed ← stack.closeBrace?
      walk? sourceEnd closed rest
    | .identifier =>
      if token.text = "namespace".toList then
        match head : namespaceHead sourceEnd rest with
        | .error defect => some ⟨[], some defect⟩
        | .ok (path, shape, after) =>
          have := namespaceHead_length head
          match shape with
          | .braces =>
            let inside := stack.openBrace
            (walk? sourceEnd (inside.enter path (some inside.depth)) after).map
              (startingWith (.scope path (some inside.depth)))
          | .wholeFile =>
            (walk? sourceEnd (stack.enter path none) after).map (startingWith (.scope path none))
          | .alias =>
            have := Tokens.skipStatement_length after
            walk? sourceEnd stack after.skipStatement
      else if token.text = "using".toList then
        have := Tokens.skipStatement_length rest
        walk? sourceEnd stack (Tokens.skipStatement rest)
      else if token.text = "enum".toList then
        have := skipEnumKind_length rest
        match named : (skipEnumKind rest).identifier? with
        | none =>
          some (failed (.missingIdentifier "declaration name".toList)
            ((skipEnumKind rest).skipTrivia.offset sourceEnd))
        | some (name, after) =>
          have := Tokens.identifier?_length named
          match head : declarationHead sourceEnd name.text after with
          | .error defect => some ⟨[], some defect⟩
          | .ok (none, later) =>
            have := declarationHead_length head
            (walk? sourceEnd stack later).map (startingWith (.forward name.text))
          | .ok (some comments, later) =>
            have := declarationHead_length head
            let first := later.trailingComment
            have : first.2.length ≤ later.length := Tokens.trailingComment_length later
            let content := body sourceEnd name.text [] 0 first.2
            let declaration : Declaration :=
              ⟨stack.names, name.text, comments ++ first.1.toList, content.members⟩
            match ended : content.after with
            | .error defect => some ⟨[.unfinished declaration], some defect⟩
            | .ok last =>
              have := body_length ended
              have := Tokens.skipSpacing_length last
              have := Tokens.dropOne_length .semicolon last.skipSpacing
              (walk? sourceEnd stack (last.skipSpacing.dropOne .semicolon)).map
                (startingWith (.declaration declaration))
      else walk? sourceEnd stack rest
    | _ => walk? sourceEnd stack rest
  termination_by tokens.length
  decreasing_by all_goals simp only [List.length_cons]; omega

/-- A step of the walk, by the token it is at. -/
theorem walk?_cons (sourceEnd : Nat) (stack : Stack) (token : Token) (rest : Tokens) :
    walk? sourceEnd stack (token :: rest) =
      match token.kind with
      | .hash => walk? sourceEnd stack rest.skipLine
      | .openBrace => walk? sourceEnd stack.openBrace rest
      | .closeBrace => stack.closeBrace?.bind fun closed => walk? sourceEnd closed rest
      | .identifier =>
        if token.text = "namespace".toList then
          match namespaceHead sourceEnd rest with
          | .error defect => some ⟨[], some defect⟩
          | .ok (path, .braces, after) =>
            (walk? sourceEnd (stack.openBrace.enter path (some stack.openBrace.depth)) after).map
              (startingWith (.scope path (some stack.openBrace.depth)))
          | .ok (path, .wholeFile, after) =>
            (walk? sourceEnd (stack.enter path none) after).map (startingWith (.scope path none))
          | .ok (_, .alias, after) => walk? sourceEnd stack after.skipStatement
        else if token.text = "using".toList then walk? sourceEnd stack rest.skipStatement
        else if token.text = "enum".toList then
          match enumHead sourceEnd rest with
          | .error defect => some ⟨[], some defect⟩
          | .ok (name, none, later) =>
            (walk? sourceEnd stack later).map (startingWith (.forward name))
          | .ok (name, some comments, later) =>
            let content := body sourceEnd name [] 0 later.trailingComment.2
            let declaration : Declaration :=
              ⟨stack.names, name, comments ++ later.trailingComment.1.toList, content.members⟩
            match content.after with
            | .error defect => some ⟨[.unfinished declaration], some defect⟩
            | .ok last =>
              (walk? sourceEnd stack (last.skipSpacing.dropOne .semicolon)).map
                (startingWith (.declaration declaration))
        else walk? sourceEnd stack rest
      | _ => walk? sourceEnd stack rest := by
  rw [walk?]
  cases token.kind <;> try rfl
  dsimp only
  split
  · split <;> rename_i head <;> simp only [head]
    split <;> rfl
  · split
    · rfl
    · split
      · unfold enumHead
        split <;> rename_i named <;> simp only [named]
        · rfl
        · split <;> rename_i head <;> rw [head]
          · rfl
          · rfl
          · dsimp only [Except.map]
            split <;> rename_i ended <;> rw [ended]
      · rfl

/-- A namespace, by what its head says. -/
theorem walk?_of_namespace {token : Token} (word : token.isWord "namespace".toList = true)
    (sourceEnd : Nat) (stack : Stack) (rest : Tokens) :
    walk? sourceEnd stack (token :: rest) =
      match namespaceHead sourceEnd rest with
      | .error defect => some ⟨[], some defect⟩
      | .ok (path, .braces, after) =>
        (walk? sourceEnd (stack.openBrace.enter path (some stack.openBrace.depth)) after).map
          (startingWith (.scope path (some stack.openBrace.depth)))
      | .ok (path, .wholeFile, after) =>
        (walk? sourceEnd (stack.enter path none) after).map (startingWith (.scope path none))
      | .ok (_, .alias, after) => walk? sourceEnd stack after.skipStatement := by
  obtain ⟨kind, text⟩ := Token.isWord_iff.mp word
  rw [walk?_cons, kind]
  exact if_pos text

/-- An enum, by what its head starts. -/
theorem walk?_of_enum {token : Token} (word : token.isWord "enum".toList = true)
    (sourceEnd : Nat) (stack : Stack) (rest : Tokens) :
    walk? sourceEnd stack (token :: rest) =
      match enumHead sourceEnd rest with
      | .error defect => some ⟨[], some defect⟩
      | .ok (name, none, later) => (walk? sourceEnd stack later).map (startingWith (.forward name))
      | .ok (name, some comments, later) =>
        let content := body sourceEnd name [] 0 later.trailingComment.2
        let declaration : Declaration :=
          ⟨stack.names, name, comments ++ later.trailingComment.1.toList, content.members⟩
        match content.after with
        | .error defect => some ⟨[.unfinished declaration], some defect⟩
        | .ok last =>
          (walk? sourceEnd stack (last.skipSpacing.dropOne .semicolon)).map
            (startingWith (.declaration declaration)) := by
  obtain ⟨kind, text⟩ := Token.isWord_iff.mp word
  rw [walk?_cons, kind]
  dsimp only
  rw [text, if_neg (by decide), if_neg (by decide), if_pos rfl]

/-- **The walk never drops names that are not there**, and lists what the model lists. -/
theorem walk?_of (sourceEnd : Nat) (scopes : List Scope) (depth : Nat) (tokens : Tokens) :
    walk? sourceEnd (.of scopes depth) tokens =
      some (ofTokens sourceEnd scopes depth tokens) := by
  have opened (scopes : List Scope) (depth : Nat) :
      (Stack.of scopes depth).openBrace = .of scopes (depth + 1) := rfl
  have isWord {token : Token} {word : Text} (kind : token.kind = .identifier)
      (text : token.text = word) : token.isWord word = true := Token.isWord_iff.mpr ⟨kind, text⟩
  fun_induction ofTokens sourceEnd scopes depth tokens with
  | case1 scopes depth => rw [walk?]
  | case2 scopes depth token rest kind bounded ih | case3 scopes depth token rest kind ih =>
    rw [walk?_cons, kind]
    exact ih
  | case4 scopes depth token rest kind ih =>
    rw [walk?_cons, kind]
    dsimp only
    rw [Stack.closeBrace?_of, Option.bind_some, ih]
  | case5 scopes depth token rest kind word defect head =>
    rw [walk?_of_namespace (isWord kind word), head]
  | case6 scopes depth token rest kind word path after head again shorter ih =>
    rw [walk?_of_namespace (isWord kind word), head]
    dsimp only
    rw [opened, Stack.enter_of]
    exact congrArg (Option.map _) ih
  | case7 scopes depth token rest kind word path after head again shorter ih =>
    rw [walk?_of_namespace (isWord kind word), head]
    dsimp only
    rw [Stack.enter_of]
    exact congrArg (Option.map _) ih
  | case8 scopes depth token rest kind word path after head bounded again shorter ih =>
    rw [walk?_of_namespace (isWord kind word), head]
    exact ih
  | case9 scopes depth token rest kind noNamespace word bounded ih =>
    rw [walk?_cons, kind]
    dsimp only
    rw [if_neg noNamespace, if_pos word, ih]
  | case10 scopes depth token rest kind noNamespace noUsing word bounded named =>
    rw [walk?_of_enum (isWord kind word), enumHead, named]
    rfl
  | case11 scopes depth token rest kind noNamespace noUsing word bounded name after named shorter
      defect head =>
    rw [walk?_of_enum (isWord kind word), enumHead_of_identifier? named, head]
    rfl
  | case12 scopes depth token rest kind noNamespace noUsing word bounded name after named shorter
      later head again ih =>
    rw [walk?_of_enum (isWord kind word), enumHead_of_identifier? named, head]
    exact congrArg (Option.map _) ih
  | case13 scopes depth token rest kind noNamespace noUsing word bounded name after named shorter
      comments later head again first fits content declaration defect ended =>
    have found : (body sourceEnd name.text [] 0 later.trailingComment.2).after = .error defect :=
      ended
    rw [walk?_of_enum (isWord kind word), enumHead_of_identifier? named, head]
    dsimp only [Except.map]
    rw [found]
    rfl
  | case14 scopes depth token rest kind noNamespace noUsing word bounded name after named shorter
      comments later head again first fits content declaration last ended inner spaced dropped ih =>
    have found : (body sourceEnd name.text [] 0 later.trailingComment.2).after = .ok last := ended
    rw [walk?_of_enum (isWord kind word), enumHead_of_identifier? named, head]
    dsimp only [Except.map]
    rw [found]
    exact congrArg (Option.map _) ih
  | case15 scopes depth token rest kind noNamespace noUsing noEnum ih =>
    rw [walk?_cons, kind]
    dsimp only
    rw [if_neg noNamespace, if_neg noUsing, if_neg noEnum, ih]
  | case16 scopes depth token rest noHash noOpen noClose noName ih =>
    rw [walk?_cons]
    cases kind : token.kind <;> first | exact ih | contradiction

end Scaffold.Outline
