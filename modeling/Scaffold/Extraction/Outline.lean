/-
**What a source declares, before any comment is read.**

An outline lists the namespaces that are entered and the enum declarations with their members, in
the order of the source, and keeps the text of the comments that belong to them. It depends on the
tokens that are no comments, and on where comments stand, but not on what they say. Reading stops at
the first defect, and the outline then ends with what was read so far.

The walk is linear. Outside of enum declarations a token either opens or closes a namespace or a
block, skips a line or a statement, or does not matter.
-/

import Scaffold.Extraction.Literal
import Scaffold.Fault
import Scaffold.Token.Stream

namespace Scaffold

/-- A member as the source lists it. -/
structure Member where
  name : Text
  ordinal : Int
  /-- The comment on the member's line. -/
  comment : Option Excerpt
  deriving DecidableEq, Repr

/-- An enum declaration as the source lists it. -/
structure Declaration where
  /-- The enclosing namespaces, the outermost first. -/
  path : List Text
  name : Text
  /-- The comments between the name and the first member. -/
  comments : List Excerpt
  members : List Member
  deriving DecidableEq, Repr

/-- An entry of an outline. -/
inductive OutlineItem where
  /-- A namespace is entered; `depth` is the number of open braces inside it, if it has braces. -/
  | scope (path : List Text) (depth : Option Nat)
  /-- A declaration without a body. -/
  | forward (name : Text)
  /-- A declaration with its body. -/
  | declaration (declaration : Declaration)
  /-- A declaration whose body could not be read to its end. -/
  | unfinished (declaration : Declaration)
  deriving DecidableEq, Repr

/-- What a source declares, up to the first defect. -/
structure Outline where
  items : List OutlineItem
  defect : Option Defect
  deriving DecidableEq, Repr

namespace Outline

/-- An outline that starts with an item. -/
def startingWith (item : OutlineItem) (outline : Outline) : Outline :=
  ⟨item :: outline.items, outline.defect⟩

/-- An outline that ends right away with a defect. -/
def failed (flaw : Flaw) (offset : Nat) : Outline := ⟨[], some (.malformed flaw offset)⟩

/-- A namespace that is open. -/
structure Scope where
  path : List Text
  /-- The number of open braces inside the namespace; a namespace without braces has none. -/
  depth : Option Nat
  deriving DecidableEq, Repr

/-- Whether a scope ends when only `depth` braces are open. -/
def Scope.endsAt (depth : Nat) (scope : Scope) : Bool :=
  match scope.depth with
  | some inside => depth < inside
  | none => false

/-- The scopes that stay open when only `depth` braces are; the innermost scope comes first. -/
def closeScopes (depth : Nat) (scopes : List Scope) : List Scope :=
  scopes.dropWhile (Scope.endsAt depth)

/-- The names of the open namespaces, the outermost first. -/
def scopePath (scopes : List Scope) : List Text := scopes.reverse.flatMap Scope.path

/-- The names of a namespace after its keyword, with `::` between them. -/
def namespaceNames (tokens : Tokens) : List Text × Tokens :=
  have shorter := Tokens.skipTrivia_length tokens
  match found : tokens.skipTrivia with
  | [] => ([], [])
  | token :: rest =>
    have inner : rest.length < tokens.length := by
      rw [found, List.length_cons] at shorter
      omega
    if token.kind ≠ .identifier then ([], token :: rest)
    else if token.text = "inline".toList then namespaceNames rest
    else
      match next : Tokens.eat .doubleColon rest with
      | (false, after) => ([token.text], after)
      | (true, after) =>
        have : after.length ≤ rest.length := by
          simpa only [next] using Tokens.eat_length .doubleColon rest
        let more := namespaceNames after
        (token.text :: more.1, more.2)
  termination_by tokens.length

/-- What a namespace's names are followed by. -/
inductive NamespaceBody where
  | braces
  | wholeFile
  | alias

/-- The names of a namespace, its kind of body and the tokens after the start of the body. -/
def namespaceHead (sourceEnd : Nat) (tokens : Tokens) :
    Except Defect (List Text × NamespaceBody × Tokens) :=
  let names := namespaceNames tokens
  let next := names.2.skipTrivia
  match next with
  | [] => .error (.malformed .missingNamespaceBody (next.offset sourceEnd))
  | token :: rest =>
    match token.kind with
    | .openBrace => .ok (names.1, .braces, rest)
    | .semicolon => .ok (names.1, .wholeFile, rest)
    | .equals => .ok (names.1, .alias, rest)
    | _ => .error (.malformed .missingNamespaceBody (next.offset sourceEnd))

/-- The tokens after the words that may follow `enum`. -/
def skipEnumKind (tokens : Tokens) : Tokens :=
  let next := tokens.eatWord "class".toList
  if next.1 then next.2 else (next.2.eatWord "struct".toList).2

/-- The comments between a declaration's name and its body, and the tokens after the opening brace.
There are no comments when the declaration has no body. -/
def declarationHead (sourceEnd : Nat) (name : Text) (tokens : Tokens) :
    Except Defect (Option (List Excerpt) × Tokens) :=
  have shorter := Tokens.skipTrivia_length tokens
  match found : tokens.skipTrivia with
  | [] => .error (.malformed (.missingBody name) sourceEnd)
  | token :: rest =>
    have inner : rest.length < tokens.length := by
      rw [found, List.length_cons] at shorter
      omega
    match token.kind with
    | .openBrace => .ok (some tokens.leadingComments, rest)
    | .semicolon => .ok (none, rest)
    | .colon | .doubleColon | .identifier =>
      (declarationHead sourceEnd name rest).map fun head =>
        (head.1.map (tokens.leadingComments ++ ·), head.2)
    | _ => .error (.malformed (.missingBody name) token.offset)
  termination_by tokens.length

/-- The number after an equals sign, with its sign. -/
def signedValue (sourceEnd : Nat) (member : Text) (tokens : Tokens) :
    Except Defect (Int × Tokens) :=
  let signed := tokens.skipSpacing
  let negative := signed.peek? == some .minus
  let digits := if negative then (signed.dropOne .minus).skipSpacing else signed
  match digits with
  | [] => .error (.malformed (.valueNotInteger member) sourceEnd)
  | token :: rest =>
    match if token.kind = .number then Literal.value? token.text else none with
    | some value => .ok (if negative then -value else value, rest)
    | none => .error (.malformed (.valueNotInteger member) token.offset)

/-- The value that a member is given, if it is, and the tokens after it. -/
def memberValue (sourceEnd : Nat) (member : Text) (tokens : Tokens) :
    Except Defect (Option Int × Tokens) :=
  match tokens.skipSpacing with
  | [] => .ok (none, [])
  | token :: rest =>
    if token.kind = .equals then
      (signedValue sourceEnd member rest).map fun value => (some value.1, value.2)
    else .ok (none, token :: rest)

/-- The value of a member that follows one with the value `ordinal` and has none of its own. -/
def nextOrdinal (ordinal : Int) : Int := min (ordinal + 1) greatestOrdinal

/-- The members of a body and the tokens after its closing brace. -/
structure Body where
  members : List Member
  after : Except Defect Tokens

theorem signedValue_length {sourceEnd : Nat} {member : Text} {tokens rest : Tokens} {value : Int}
    (found : signedValue sourceEnd member tokens = .ok (value, rest)) :
    rest.length ≤ tokens.length := by
  have spaced := Tokens.skipSpacing_length tokens
  have dropped := Tokens.dropOne_length .minus tokens.skipSpacing
  have again := Tokens.skipSpacing_length (tokens.skipSpacing.dropOne .minus)
  unfold signedValue at found
  simp only at found
  split at found
  · simp at found
  · rename_i token more digits
    have bounded : (token :: more).length ≤ tokens.length := by
      rw [← digits]
      split <;> omega
    simp only [List.length_cons] at bounded
    split at found
    · simp only [Except.ok.injEq, Prod.mk.injEq] at found
      rw [← found.2]
      omega
    · simp at found

theorem memberValue_length {sourceEnd : Nat} {member : Text} {tokens rest : Tokens}
    {value : Option Int} (found : memberValue sourceEnd member tokens = .ok (value, rest)) :
    rest.length ≤ tokens.length := by
  have spaced := Tokens.skipSpacing_length tokens
  unfold memberValue at found
  split at found
  · simp only [Except.ok.injEq, Prod.mk.injEq] at found
    rw [← found.2]
    simp
  · rename_i token more next
    rw [next, List.length_cons] at spaced
    split at found
    · cases read : signedValue sourceEnd member more with
      | error defect => simp [read, Except.map] at found
      | ok pair =>
          simp only [read, Except.map, Except.ok.injEq, Prod.mk.injEq] at found
          obtain ⟨signed, after⟩ := pair
          have := signedValue_length read
          simp only at found
          rw [← found.2]
          omega
    · simp only [Except.ok.injEq, Prod.mk.injEq] at found
      rw [← found.2, List.length_cons]
      exact spaced

/-- The members from a place in a body on. `seen` are the names that are taken, `ordinal` is the
value of a member without one of its own. -/
def body (sourceEnd : Nat) (declaration : Text) (seen : List Text) (ordinal : Int)
    (tokens : Tokens) : Body :=
  have shorter := Tokens.skipTrivia_length tokens
  match found : tokens.skipTrivia with
  | [] => ⟨[], .error (.malformed (.unclosedBody declaration) sourceEnd)⟩
  | token :: rest =>
    have inner : rest.length < tokens.length := by
      rw [found, List.length_cons] at shorter
      omega
    match token.kind with
    | .closeBrace => ⟨[], .ok rest⟩
    | .hash =>
      have := Tokens.skipLine_length rest
      body sourceEnd declaration seen ordinal (Tokens.skipLine rest)
    | .identifier =>
      if token.text ∈ seen then ⟨[], .error ⟨.keyRepeated token.text, token.offset⟩⟩
      else
        match valued : memberValue sourceEnd token.text rest with
        | .error defect => ⟨[], .error defect⟩
        | .ok (value, after) =>
          match trailing : (after.skipSpacing.dropOne .comma).trailingComment with
          | (comment, later) =>
            have : later.length ≤ after.length := by
              have := Tokens.skipSpacing_length after
              have := Tokens.dropOne_length .comma after.skipSpacing
              have := Tokens.trailingComment_length (after.skipSpacing.dropOne .comma)
              rw [trailing] at this
              simp only at this
              omega
            have := memberValue_length valued
            let own := value.getD ordinal
            let more := body sourceEnd declaration (token.text :: seen) (nextOrdinal own) later
            ⟨⟨token.text, own, comment⟩ :: more.members, more.after⟩
    | _ => ⟨[], .error (.malformed (.missingMember declaration) token.offset)⟩
  termination_by tokens.length

theorem namespaceNames_length (tokens : Tokens) :
    (namespaceNames tokens).2.length ≤ tokens.length := by
  fun_induction namespaceNames tokens with
  | case1 => simp
  | case2 tokens shorter token rest found inner kind =>
      rw [← found]
      exact shorter
  | case3 tokens shorter token rest found inner kind word ih => omega
  | case4 tokens shorter token rest found inner kind word after next =>
      have : after.length ≤ rest.length := by
        simpa only [next] using Tokens.eat_length .doubleColon rest
      simp only
      omega
  | case5 tokens shorter token rest found inner kind word after next bounded more ih =>
      have same : more.2.length ≤ after.length := ih
      simp only
      omega

theorem namespaceHead_length {sourceEnd : Nat} {tokens rest : Tokens} {names : List Text}
    {shape : NamespaceBody} (found : namespaceHead sourceEnd tokens = .ok (names, shape, rest)) :
    rest.length < tokens.length := by
  have named := namespaceNames_length tokens
  have spaced := Tokens.skipTrivia_length (namespaceNames tokens).2
  unfold namespaceHead at found
  simp only at found
  split at found
  · simp at found
  · rename_i token more next
    rw [next, List.length_cons] at spaced
    split at found <;> simp only [Except.ok.injEq, Prod.mk.injEq, reduceCtorEq] at found
    all_goals
      obtain ⟨-, -, rfl⟩ := found
      omega

theorem skipEnumKind_length (tokens : Tokens) : (skipEnumKind tokens).length ≤ tokens.length := by
  have first := Tokens.eatWord_length "class".toList tokens
  have second := Tokens.eatWord_length "struct".toList (tokens.eatWord "class".toList).2
  unfold skipEnumKind
  simp only
  split <;> omega

theorem declarationHead_length {sourceEnd : Nat} {name : Text} {tokens rest : Tokens}
    {comments : Option (List Excerpt)}
    (found : declarationHead sourceEnd name tokens = .ok (comments, rest)) :
    rest.length < tokens.length := by
  have mapped : ∀ {inner : Tokens} {edit : List Excerpt → List Excerpt}
      {comments : Option (List Excerpt)},
      ((declarationHead sourceEnd name inner).map fun head => (head.1.map edit, head.2)) =
        .ok (comments, rest) → ∃ kept, declarationHead sourceEnd name inner = .ok (kept, rest) := by
    intro inner edit comments same
    cases read : declarationHead sourceEnd name inner with
    | error defect => simp [read, Except.map] at same
    | ok pair =>
        simp only [read, Except.map, Except.ok.injEq, Prod.mk.injEq] at same
        exact ⟨pair.1, by rw [← same.2]⟩
  fun_induction declarationHead sourceEnd name tokens generalizing comments with
  | case1 => simp at found
  | case2 tokens shorter token more next inner kind =>
      simp only [Except.ok.injEq, Prod.mk.injEq] at found
      rw [← found.2]
      exact inner
  | case3 tokens shorter token more next inner kind =>
      simp only [Except.ok.injEq, Prod.mk.injEq] at found
      rw [← found.2]
      exact inner
  | case4 tokens shorter token more next inner kind ih =>
      obtain ⟨kept, read⟩ := mapped found
      have := ih read
      omega
  | case5 tokens shorter token more next inner kind ih =>
      obtain ⟨kept, read⟩ := mapped found
      have := ih read
      omega
  | case6 tokens shorter token more next inner kind ih =>
      obtain ⟨kept, read⟩ := mapped found
      have := ih read
      omega
  | case7 => simp at found

theorem body_length {sourceEnd : Nat} {declaration : Text} {seen : List Text} {ordinal : Int}
    {tokens rest : Tokens}
    (found : (body sourceEnd declaration seen ordinal tokens).after = .ok rest) :
    rest.length < tokens.length := by
  fun_induction body sourceEnd declaration seen ordinal tokens with
  | case1 => simp at found
  | case2 =>
      simp only [Except.ok.injEq] at found
      rw [← found]
      assumption
  | case3 seen ordinal tokens shorter token more next inner kind bounded ih =>
      have := ih found
      omega
  | case4 => simp at found
  | case5 => simp at found
  | case6 =>
      rename_i ih
      have := ih found
      omega
  | case7 => simp at found

/-- The outline from a place in the source on, with so many braces open. -/
def ofTokens (sourceEnd : Nat) (scopes : List Scope) (depth : Nat) (tokens : Tokens) : Outline :=
  match tokens with
  | [] => ⟨[], none⟩
  | token :: rest =>
    match token.kind with
    | .hash =>
      have := Tokens.skipLine_length rest
      ofTokens sourceEnd scopes depth (Tokens.skipLine rest)
    | .openBrace => ofTokens sourceEnd scopes (depth + 1) rest
    | .closeBrace => ofTokens sourceEnd (closeScopes (depth - 1) scopes) (depth - 1) rest
    | .identifier =>
      if token.text = "namespace".toList then
        match head : namespaceHead sourceEnd rest with
        | .error defect => ⟨[], some defect⟩
        | .ok (path, shape, after) =>
          have := namespaceHead_length head
          match shape with
          | .braces =>
            (ofTokens sourceEnd (⟨path, some (depth + 1)⟩ :: scopes) (depth + 1) after).startingWith
              (.scope path (some (depth + 1)))
          | .wholeFile =>
            (ofTokens sourceEnd (⟨path, none⟩ :: scopes) depth after).startingWith
              (.scope path none)
          | .alias =>
            have := Tokens.skipStatement_length after
            ofTokens sourceEnd scopes depth after.skipStatement
      else if token.text = "using".toList then
        have := Tokens.skipStatement_length rest
        ofTokens sourceEnd scopes depth (Tokens.skipStatement rest)
      else if token.text = "enum".toList then
        have := skipEnumKind_length rest
        match named : (skipEnumKind rest).identifier? with
        | none =>
          failed (.missingIdentifier "declaration name".toList)
            ((skipEnumKind rest).skipTrivia.offset sourceEnd)
        | some (name, after) =>
          have := Tokens.identifier?_length named
          match head : declarationHead sourceEnd name.text after with
          | .error defect => ⟨[], some defect⟩
          | .ok (none, later) =>
            have := declarationHead_length head
            (ofTokens sourceEnd scopes depth later).startingWith (.forward name.text)
          | .ok (some comments, later) =>
            have := declarationHead_length head
            let first := later.trailingComment
            have : first.2.length ≤ later.length := Tokens.trailingComment_length later
            let content := body sourceEnd name.text [] 0 first.2
            let declaration : Declaration :=
              ⟨scopePath scopes, name.text, comments ++ first.1.toList, content.members⟩
            match ended : content.after with
            | .error defect => ⟨[.unfinished declaration], some defect⟩
            | .ok last =>
              have := body_length ended
              have := Tokens.skipSpacing_length last
              have := Tokens.dropOne_length .semicolon last.skipSpacing
              (ofTokens sourceEnd scopes depth (last.skipSpacing.dropOne .semicolon)).startingWith
                (.declaration declaration)
      else ofTokens sourceEnd scopes depth rest
    | _ => ofTokens sourceEnd scopes depth rest
  termination_by tokens.length
  decreasing_by all_goals simp only [List.length_cons]; omega

/-- What a source with these tokens declares. -/
def ofSource (source : Text) (tokens : Tokens) : Outline := ofTokens source.size [] 0 tokens

end Outline

end Scaffold
