/-
**Sources with their namespaces and enums as a tree.**

A source is a tree of namespaces, other pairs of braces and enums, and the tokens that write it
down fix nothing else: blanks, comments, preprocessor lines, `using` statements, aliases of
namespaces and every other token may stand between its items.

* `SourceTree`, `SourceFile` — the tree. Namespaces without braces occur outside of all braces only,
  and they stay open to the end of the file, so a file is a row of trees with their names between.
* `SourceFile.declarations` — the enums with a body that a file has, in their order, each with the
  names of the namespaces it stands in. This says what is declared without any token.
* `Layout.File gap file tokens` — the tokens write the file down. The relations below it are about
  one level of braces and about the parts of an enum; each relates a part and the tokens it starts
  with to the tokens after it. Tokens of a kind in `gap` may stand between a member and its comma.
-/

import Scaffold.Extraction.Outline

namespace Scaffold

theorem Token.isWord_iff {token : Token} {word : Text} :
    token.isWord word = true ↔ token.kind = .identifier ∧ token.text = word := by
  rw [isWord, Bool.and_eq_true, beq_iff_eq, beq_iff_eq]

/-! ### Trees -/

/-- The items at one level of braces, in the order of the source. -/
inductive SourceTree where
  | empty
  /-- A namespace with braces; its names, the outermost first. -/
  | namespaced (path : List Text) (inner next : SourceTree)
  /-- Any other pair of braces. -/
  | block (inner next : SourceTree)
  /-- An enum without a body. -/
  | forward (name : Text) (next : SourceTree)
  /-- An enum with a body: the comments before its first member, and the members, each with the
  comment on its line. -/
  | enumeration (name : Text) (comments : List Excerpt) (members : List (Text × Option Excerpt))
      (next : SourceTree)

/-- A whole source: trees outside of all braces, and the names of the namespaces without braces
between them. -/
inductive SourceFile where
  | last (items : SourceTree)
  | fileScope (items : SourceTree) (path : List Text) (rest : SourceFile)

/-- Members without values of their own, numbered on from a value. -/
def Member.numbered : Int → List (Text × Option Excerpt) → List Member
  | _, [] => []
  | ordinal, (name, comment) :: rest =>
    ⟨name, ordinal, comment⟩ :: numbered (Outline.nextOrdinal ordinal) rest

/-- The enums with a body of a tree inside the namespaces `path`. -/
def SourceTree.declarations (path : List Text) : SourceTree → List Declaration
  | empty => []
  | namespaced names inner next => inner.declarations (path ++ names) ++ next.declarations path
  | block inner next => inner.declarations path ++ next.declarations path
  | forward _ next => next.declarations path
  | enumeration name comments members next =>
    ⟨path, name, comments, Member.numbered 0 members⟩ :: next.declarations path

/-- The enums with a body of the rest of a file inside the namespaces `path`. -/
def SourceFile.declarationsIn (path : List Text) : SourceFile → List Declaration
  | last items => items.declarations path
  | fileScope items names rest => items.declarations path ++ rest.declarationsIn (path ++ names)

/-- The enums with a body of a file. -/
def SourceFile.declarations (file : SourceFile) : List Declaration := file.declarationsIn []

namespace Layout

/-! ### Parts of an item -/

/-- The names of a namespace after its keyword, with `::` between them. The word `inline` may stand
before each of them. -/
inductive Path : List Text → Tokens → Tokens → Prop
  | nil (rest : Tokens) : Path [] rest rest
  | skip {names : List Text} {token : Token} {tokens rest : Tokens} :
      token.kind.isTrivia = true ∨ token.isWord "inline".toList = true → Path names tokens rest →
      Path names (token :: tokens) rest
  | last {name : Token} {space rest : Tokens} :
      name.kind = .identifier → name.text ≠ "inline".toList →
      (∀ token ∈ space, token.kind.isTrivia = true) →
      Path [name.text] (name :: (space ++ rest)) rest
  | more {names : List Text} {name colons : Token} {space tokens rest : Tokens} :
      name.kind = .identifier → name.text ≠ "inline".toList →
      (∀ token ∈ space, token.kind.isTrivia = true) → colons.kind = .doubleColon →
      Path names tokens rest →
      Path (name.text :: names) (name :: (space ++ colons :: tokens)) rest

/-- The name of an enum after its keyword. -/
inductive EnumName : Text → Tokens → Tokens → Prop
  | bare {space : Tokens} {name : Token} (rest : Tokens) :
      (∀ token ∈ space, token.kind.isTrivia = true) → name.kind = .identifier →
      name.text ≠ "class".toList → name.text ≠ "struct".toList →
      EnumName name.text (space ++ name :: rest) rest
  | kinded {space between : Tokens} {word name : Token} (rest : Tokens) :
      (∀ token ∈ space, token.kind.isTrivia = true) →
      word.isWord "class".toList = true ∨ word.isWord "struct".toList = true →
      (∀ token ∈ between, token.kind.isTrivia = true) → name.kind = .identifier →
      EnumName name.text (space ++ word :: (between ++ name :: rest)) rest

/-- A name alone. -/
theorem Path.single {name : Token} (kind : name.kind = .identifier)
    (text : name.text ≠ "inline".toList) (rest : Tokens) : Path [name.text] (name :: rest) rest :=
  @Path.last name [] rest kind text nofun

/-- A name after one blank. -/
theorem EnumName.spaced {space name : Token} (trivial : space.kind.isTrivia = true)
    (kind : name.kind = .identifier) (noClass : name.text ≠ "class".toList)
    (noStruct : name.text ≠ "struct".toList) (rest : Tokens) :
    EnumName name.text (space :: name :: rest) rest :=
  @EnumName.bare [space] name rest (List.forall_mem_singleton.mpr trivial) kind noClass noStruct

/-- What stands between the name of an enum and its body: trivia and the underlying type, with the
comments among them. -/
inductive Head : List Excerpt → Tokens → Tokens → Prop
  | nil (rest : Tokens) : Head [] rest rest
  | comment {comments : List Excerpt} {token : Token} {tokens rest : Tokens} :
      token.kind.isComment = true → Head comments tokens rest →
      Head (Tokens.comment token :: comments) (token :: tokens) rest
  | blank {comments : List Excerpt} {token : Token} {tokens rest : Tokens} :
      token.kind = .whitespace ∨ token.kind = .newline → Head comments tokens rest →
      Head comments (token :: tokens) rest
  | type {comments : List Excerpt} {token : Token} {tokens rest : Tokens} :
      token.kind = .colon ∨ token.kind = .doubleColon ∨ token.kind = .identifier →
      Head comments tokens rest → Head comments (token :: tokens) rest

/-- The members of a body with the brace that closes it. The first comment on the line of a member
is that member's, if it comes right after the member and its comma. -/
inductive Members (gap : TokenKind → Bool) : List (Text × Option Excerpt) → Tokens → Tokens → Prop
  | nil {brace : Token} (rest : Tokens) : brace.kind = .closeBrace →
      Members gap [] (brace :: rest) rest
  | trivia {members : List (Text × Option Excerpt)} {token : Token} {tokens rest : Tokens} :
      token.kind.isTrivia = true → Members gap members tokens rest →
      Members gap members (token :: tokens) rest
  | line {members : List (Text × Option Excerpt)} {hash feed : Token}
      {line tokens rest : Tokens} :
      hash.kind = .hash → (∀ token ∈ line, token.kind ≠ .newline) → feed.kind = .newline →
      Members gap members tokens rest →
      Members gap members (hash :: (line ++ feed :: tokens)) rest
  | separated {members : List (Text × Option Excerpt)} {name comma : Token}
      {space tokens rest : Tokens} :
      name.kind = .identifier → (∀ token ∈ space, gap token.kind = true) → comma.kind = .comma →
      Members gap members tokens.trailingComment.2 rest →
      Members gap ((name.text, tokens.trailingComment.1) :: members)
        (name :: (space ++ comma :: tokens)) rest
  | bare {members : List (Text × Option Excerpt)} {name : Token} {tokens rest : Tokens} :
      name.kind = .identifier → Members gap members tokens.trailingComment.2 rest →
      Members gap ((name.text, tokens.trailingComment.1) :: members) (name :: tokens) rest

/-! ### Items -/

/-- A token that does not matter between items. -/
def IsFiller (token : Token) : Prop :=
  token.kind ≠ .openBrace ∧ token.kind ≠ .closeBrace ∧ token.kind ≠ .hash ∧
    token.isWord "namespace".toList = false ∧ token.isWord "using".toList = false ∧
    token.isWord "enum".toList = false

instance (token : Token) : Decidable (IsFiller token) := by
  unfold IsFiller
  infer_instance

theorem isFiller_of_kind {token : Token}
    (solid : token.kind ∉ [.openBrace, .closeBrace, .hash, .identifier]) : IsFiller token := by
  simp only [List.mem_cons, List.not_mem_nil, or_false, not_or] at solid
  obtain ⟨noOpen, noClose, noHash, noName⟩ := solid
  have noWord : ∀ word, token.isWord word = false := fun word => by
    rw [Token.isWord, beq_eq_false_iff_ne.mpr noName, Bool.false_and]
  exact ⟨noOpen, noClose, noHash, noWord _, noWord _, noWord _⟩

/-- The items at one level of braces. -/
inductive Tree (gap : TokenKind → Bool) : SourceTree → Tokens → Tokens → Prop
  | empty (rest : Tokens) : Tree gap .empty rest rest
  | filler {tree : SourceTree} {token : Token} {tokens rest : Tokens} :
      IsFiller token → Tree gap tree tokens rest → Tree gap tree (token :: tokens) rest
  | line {tree : SourceTree} {hash feed : Token} {line tokens rest : Tokens} :
      hash.kind = .hash → (∀ token ∈ line, token.kind ≠ .newline) → feed.kind = .newline →
      Tree gap tree tokens rest → Tree gap tree (hash :: (line ++ feed :: tokens)) rest
  | statement {tree : SourceTree} {word stop : Token} {statement tokens rest : Tokens} :
      word.isWord "using".toList = true → (∀ token ∈ statement, token.kind ≠ .semicolon) →
      stop.kind = .semicolon → Tree gap tree tokens rest →
      Tree gap tree (word :: (statement ++ stop :: tokens)) rest
  | abbreviation {tree : SourceTree} {names : List Text} {word equals stop : Token}
      {head statement tokens rest : Tokens} :
      word.isWord "namespace".toList = true →
      Path names head (equals :: (statement ++ stop :: tokens)) → equals.kind = .equals →
      (∀ token ∈ statement, token.kind ≠ .semicolon) → stop.kind = .semicolon →
      Tree gap tree tokens rest → Tree gap tree (word :: head) rest
  | block {inner next : SourceTree} {opening closing : Token} {content tokens rest : Tokens} :
      opening.kind = .openBrace → Tree gap inner content (closing :: tokens) →
      closing.kind = .closeBrace → Tree gap next tokens rest →
      Tree gap (.block inner next) (opening :: content) rest
  | namespaced {inner next : SourceTree} {names : List Text} {word opening closing : Token}
      {head content tokens rest : Tokens} :
      word.isWord "namespace".toList = true → Path names head (opening :: content) →
      opening.kind = .openBrace → Tree gap inner content (closing :: tokens) →
      closing.kind = .closeBrace → Tree gap next tokens rest →
      Tree gap (.namespaced names inner next) (word :: head) rest
  | forward {next : SourceTree} {name : Text} {comments : List Excerpt} {word stop : Token}
      {named head tokens rest : Tokens} :
      word.isWord "enum".toList = true → EnumName name named head →
      Head comments head (stop :: tokens) → stop.kind = .semicolon → Tree gap next tokens rest →
      Tree gap (.forward name next) (word :: named) rest
  | enumeration {next : SourceTree} {name : Text} {comments : List Excerpt}
      {members : List (Text × Option Excerpt)} {word opening : Token}
      {named head content tokens rest : Tokens} :
      word.isWord "enum".toList = true → EnumName name named head →
      Head comments head (opening :: content) → opening.kind = .openBrace →
      Members gap members content.trailingComment.2 tokens → (members.map Prod.fst).Nodup →
      Tree gap next tokens rest →
      Tree gap (.enumeration name (comments ++ content.trailingComment.1.toList) members next)
        (word :: named) rest

/-- All tokens of a source. The last line may be a preprocessor line without an end. -/
inductive File (gap : TokenKind → Bool) : SourceFile → Tokens → Prop
  | last {items : SourceTree} {tokens : Tokens} : Tree gap items tokens [] →
      File gap (.last items) tokens
  | lastLine {items : SourceTree} {hash : Token} {line tokens : Tokens} :
      Tree gap items tokens (hash :: line) → hash.kind = .hash →
      (∀ token ∈ line, token.kind ≠ .newline) → File gap (.last items) tokens
  | fileScope {items : SourceTree} {names : List Text} {rest : SourceFile} {word stop : Token}
      {tokens head later : Tokens} :
      Tree gap items tokens (word :: head) → word.isWord "namespace".toList = true →
      Path names head (stop :: later) → stop.kind = .semicolon → File gap rest later →
      File gap (.fileScope items names rest) tokens

end Layout

end Scaffold
