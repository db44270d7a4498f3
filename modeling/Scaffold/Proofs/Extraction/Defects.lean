/-
**Where the defects of an extraction are.**

The offset of a defect is built up in layers: the token, the marker of a comment, what was read of
the comment so far. Excerpts carry it, and every excerpt that is read is part of the source where it
says it is (`Excerpt.IsOf`). So a defect stands where what it names does (`IsDefectAt`):

* a payload that cannot be read, at its brace, after the marker and the name of its attribute;
* an attribute that lacks a key, at its marker, with its name after it;
* a macro that is not closed, at its parenthesis, after its keyword;
* a name that comes again, at its second place, after a member of the same enum that has it.

Each reader of comments fails only in such places (`FailsOnly`), and of the outline the names that
come again are the only defects that are looked at here; the others are in the form of the source.
-/

import Scaffold.Extraction.Extractor
import Scaffold.Proofs.Extraction.Excerpts
import Scaffold.Proofs.Extraction.Trace

namespace Scaffold

/-! ### Places of defects -/

/-- The brace at `offset` opens the payload of an attribute: the marker, the name and blanks stand
before it. -/
def OpensPayload (source name : Text) (offset : Nat) : Prop :=
  ∃ marker blanks, (∀ char ∈ blanks, Text.isBlank char = true) ∧
    source.HasAt marker (Excerpt.attributeMarker ++ name ++ blanks ++ ['\x7b']) ∧
    marker + Text.size (Excerpt.attributeMarker ++ name ++ blanks) = offset

/-- The parenthesis at `offset` opens the arguments of a macro: the keyword stands before it. -/
def OpensArguments (source keyword : Text) (offset : Nat) : Prop :=
  ∃ start, source.HasAt start (keyword ++ ['(']) ∧ start + keyword.size = offset

/-- The tokens `names` are the names of the members of a declaration up to a place where `rest` is
left. The outline of the source ends with the declaration, so its body does not end before that
place. -/
def IsInBody (source : Text) (declaration : Declaration) (names : List Token) (rest : Tokens) :
    Prop :=
  ∃ tokens before keyword after comments opened, Token.tokenize source = .ok tokens ∧
    (Outline.ofSource source tokens).items.getLast? = some (.unfinished declaration) ∧
    tokens = before ++ keyword :: after ∧ keyword.isWord "enum".toList = true ∧
    Outline.enumHead source.size after = .ok (declaration.name, some comments, opened) ∧
    Outline.Lists source.size opened.trailingComment.2 names rest ∧
    declaration.members.map Member.name = names.map Token.text

/-- The name stands at `offset` as the name of a member, and a member before it in the same
declaration has the name too. -/
def RepeatsMember (source name : Text) (offset : Nat) : Prop :=
  ∃ declaration names first repeated rest, IsInBody source declaration names (repeated :: rest) ∧
    first ∈ names ∧ first.text = name ∧ repeated.kind = .identifier ∧ repeated.text = name ∧
    repeated.offset = offset ∧ source.HasAt first.offset name ∧ source.HasAt offset name ∧
    first.offset + name.size ≤ offset

/-- Where the defect of a source has to be, by its cause. -/
def IsDefectAt (source : Text) (offset : Nat) : Cause → Prop
  | .keyRepeated key => RepeatsMember source key offset
  | .keyMissing name _ => source.HasAt offset (Excerpt.attributeMarker ++ name)
  | .malformed (.unterminatedPayload name) | .malformed (.payloadNotObject name)
  | .malformed (.invalidPayload name _) => OpensPayload source name offset
  | .malformed (.unclosedInvocation keyword) => OpensArguments source keyword offset
  | _ => True

/-- The defect is where it has to be. -/
def Defect.IsPlaced (source : Text) (defect : Defect) : Prop :=
  IsDefectAt source defect.offset defect.cause

variable {source : Text}

/-! ### Comments of a source -/

theorem Excerpt.hasAt_commentBody (comment : Text) :
    comment.HasAt (commentBody comment).1 (commentBody comment).2 := by
  unfold commentBody
  split
  · rename_i rest found
    have split : comment = "//".toList ++ rest.takeWhile (· == '/') ++ rest.dropWhile (· == '/') := by
      rw [List.append_assoc, List.takeWhile_append_dropWhile]
      exact Text.after?_eq_some.mp found
    refine ⟨"//".toList ++ rest.takeWhile (· == '/'), [], ?_, ?_⟩
    · rw [List.append_nil, ← split]
    · have whole := congrArg Text.size split
      rw [Text.size_append] at whole
      dsimp only
      omega
  · split
    · rename_i rest found
      have split : comment = "/*".toList ++ rest := Text.after?_eq_some.mp found
      cases ended : rest.before? "*/".toList with
      | none => exact ⟨"/*".toList, [], by rw [List.append_nil]; exact split, rfl⟩
      | some body =>
        refine ⟨"/*".toList, "*/".toList, ?_, rfl⟩
        rw [split, Text.before?_eq_some.mp ended]
        rfl
    · exact Text.HasAt.refl comment

/-- The body of a comment token stands where it says. -/
theorem Tokens.isOf_comment {token : Token} (stands : source.HasAt token.offset token.text) :
    (comment token).IsOf source :=
  stands.trans (Excerpt.hasAt_commentBody token.text)

theorem Excerpt.IsOf.balanced? {excerpt later : Excerpt} {quotes : List Char} {group : Text}
    (isOf : excerpt.IsOf source) (found : excerpt.balanced? quotes = some (group, later)) :
    later.IsOf source := by
  obtain ⟨parts, grouped, same⟩ := Option.map_eq_some_iff.mp found
  cases same
  exact isOf.skip (Excerpt.groupFrom_append grouped)

theorem Excerpt.IsOf.takeUntilAttribute {excerpt : Excerpt} (isOf : excerpt.IsOf source) :
    excerpt.takeUntilAttribute.2.IsOf source :=
  isOf.skip (Text.splitAtFirst_append excerpt.text Excerpt.attributeMarker)

/-! ### Attributes -/

namespace Remark

variable {excerpt later : Excerpt} {name rest : Text}

theorem payload_failsOnly (opens : OpensPayload source name excerpt.offset) :
    FailsOnly (Defect.IsPlaced source) (payload name excerpt) := by
  unfold payload
  split
  · exact .error opens
  · split
    · exact .ok _
    · exact .error opens
    · exact .error opens

theorem payload?_failsOnly
    (opens : excerpt.text.head? = some '\x7b' → OpensPayload source name excerpt.offset) :
    FailsOnly (Defect.IsPlaced source) (payload? name excerpt) := by
  unfold payload?
  split
  · rename_i brace
    exact (payload_failsOnly (opens brace)).map _
  · exact .ok _

theorem payload?_isOf {members : Option Json.Members} (isOf : excerpt.IsOf source)
    (read : payload? name excerpt = .ok (members, later)) : later.IsOf source := by
  rcases payload?_eq_ok_iff.mp read with ⟨-, object, readObject, -⟩ | ⟨-, -, rfl⟩
  · obtain ⟨literal, rest, grouped, -, rfl⟩ := payload_eq_ok_iff.mp readObject
    exact isOf.skip (Excerpt.groupFrom_append grouped)
  · exact isOf

/-- A brace after an attribute and blanks opens its payload. -/
theorem opensPayload {marker : Nat} {text : Text}
    (spelled : source.HasAt marker (Excerpt.attributeMarker ++ name ++ text))
    (brace : (Text.trimStart text).head? = some '\x7b') :
    OpensPayload source name
      (marker + Text.size (Excerpt.attributeMarker ++ name) +
        Text.size (text.takeWhile Text.isBlank)) := by
  obtain ⟨more, split⟩ : ∃ more, Text.trimStart text = '\x7b' :: more :=
    ⟨_, List.eq_cons_of_mem_head? brace⟩
  refine ⟨marker, text.takeWhile Text.isBlank, fun _ => List.mem_takeWhile_imp, ?_, ?_⟩
  · rw [← Text.trimStart_append text, split, List.append_cons, ← List.append_assoc,
      ← List.append_assoc] at spelled
    exact spelled.left
  · rw [Text.size_append _ (text.takeWhile _), Nat.add_assoc]

/-- An excerpt that starts with an attribute marker and a name. -/
theorem spelled_of_identifier? {named : Excerpt} (isOf : excerpt.IsOf source)
    (split : excerpt.text = Excerpt.attributeMarker ++ rest)
    (identified : (excerpt.skip Excerpt.attributeMarker rest).identifier? = some (name, named)) :
    source.HasAt excerpt.offset (Excerpt.attributeMarker ++ name ++ named.text) ∧
      named.offset = excerpt.offset + Text.size (Excerpt.attributeMarker ++ name) := by
  unfold Excerpt.identifier? at identified
  dsimp only at identified
  split at identified
  · cases identified
  · cases identified
    refine ⟨?_, ?_⟩
    · have whole := Text.identifier_append rest
      rw [Excerpt.IsOf, split] at isOf
      simp only [Excerpt.skip]
      rw [List.append_assoc, whole]
      exact isOf
    · rw [Text.size_append, ← Nat.add_assoc]
      rfl

/-- **An attribute** that cannot be read fails at the brace of its payload, or for want of a name. -/
theorem attributeAfter_failsOnly (isOf : excerpt.IsOf source)
    (split : excerpt.text = Excerpt.attributeMarker ++ rest) :
    FailsOnly (Defect.IsPlaced source)
      (attributeAfter excerpt.offset (excerpt.skip Excerpt.attributeMarker rest)) := by
  unfold attributeAfter
  split
  · exact .error trivial
  · rename_i name named identified
    obtain ⟨spelled, place⟩ := spelled_of_identifier? isOf split identified
    refine (payload?_failsOnly fun brace => ?_).map _
    have opens := opensPayload spelled brace
    rwa [← place] at opens

/-- The name of an attribute that is read stands after its marker. -/
theorem attributeAfter_spelled {item : Attribute} (isOf : excerpt.IsOf source)
    (split : excerpt.text = Excerpt.attributeMarker ++ rest)
    (read : attributeAfter excerpt.offset (excerpt.skip Excerpt.attributeMarker rest) =
      .ok (item, later)) :
    source.HasAt item.offset (Excerpt.attributeMarker ++ item.name) ∧ later.IsOf source := by
  obtain ⟨name, named, members, after, identified, readPayload, rfl, rfl⟩ :=
    attributeAfter_eq_ok_iff.mp read
  obtain ⟨spelled, place⟩ := spelled_of_identifier? isOf split identified
  have isOfNamed : named.IsOf source := by
    rw [Excerpt.IsOf, place]
    exact spelled.right
  exact ⟨spelled.left, (payload?_isOf isOfNamed.skipBlanks readPayload).takeUntilAttribute⟩

theorem attributesFrom_failsOnly (isOf : excerpt.IsOf source) :
    FailsOnly (Defect.IsPlaced source) (attributesFrom excerpt) := by
  fun_induction attributesFrom excerpt with
  | case1 => exact .ok _
  | case2 excerpt rest marked defect read =>
    exact .error (attributeAfter_failsOnly isOf (Text.after?_eq_some.mp marked) defect read)
  | case3 excerpt rest marked first later read shorter ih =>
    exact (ih (attributeAfter_spelled isOf (Text.after?_eq_some.mp marked) read).2).map _

theorem attributesFrom_spelled {items : List Attribute} (isOf : excerpt.IsOf source)
    (read : attributesFrom excerpt = .ok items) :
    ∀ item ∈ items, source.HasAt item.offset (Excerpt.attributeMarker ++ item.name) := by
  fun_induction attributesFrom excerpt generalizing items with
  | case1 =>
    cases read
    exact fun _ absent => absurd absent List.not_mem_nil
  | case2 => cases read
  | case3 excerpt rest marked first later readFirst shorter ih =>
    obtain ⟨spelled, isOfLater⟩ :=
      attributeAfter_spelled isOf (Text.after?_eq_some.mp marked) readFirst
    obtain ⟨others, readOthers, rfl⟩ := map_eq_ok_iff.mp read
    exact List.forall_mem_cons.mpr ⟨spelled, ih isOfLater readOthers⟩

theorem ofExcerpt_failsOnly (isOf : excerpt.IsOf source) :
    FailsOnly (Defect.IsPlaced source) (ofExcerpt excerpt) :=
  (attributesFrom_failsOnly isOf.takeUntilAttribute).map _

theorem ofExcerpt_spelled {remark : Remark} (isOf : excerpt.IsOf source)
    (read : ofExcerpt excerpt = .ok remark) : ∀ item ∈ remark.attributes,
      source.HasAt item.offset (Excerpt.attributeMarker ++ item.name) := by
  obtain ⟨items, readItems, rfl⟩ := map_eq_ok_iff.mp read
  exact attributesFrom_spelled isOf.takeUntilAttribute readItems

end Remark

namespace Attribute

variable {item : Attribute}

theorem valueOf_failsOnly (spelled : source.HasAt item.offset (Excerpt.attributeMarker ++ item.name))
    (key : String) : FailsOnly (Defect.IsPlaced source) (item.valueOf key) := by
  unfold valueOf
  split
  · exact .ok _
  · exact .error spelled

theorem applyToMember_failsOnly
    (spelled : source.HasAt item.offset (Excerpt.attributeMarker ++ item.name))
    (property : Property) :
    FailsOnly (Defect.IsPlaced source) (item.applyToMember property) := by
  unfold applyToMember
  split
  case h_8 => exact (valueOf_failsOnly spelled _).bind fun _ _ => .ok _
  all_goals exact .ok _

theorem applyToClass_failsOnly
    (spelled : source.HasAt item.offset (Excerpt.attributeMarker ++ item.name)) (cls : Class) :
    FailsOnly (Defect.IsPlaced source) (item.applyToClass cls) := by
  unfold applyToClass
  split
  case h_2 => exact (valueOf_failsOnly spelled _).bind fun _ _ => .ok _
  all_goals exact .ok _

end Attribute

namespace Invocation

variable {invocation : Invocation}

theorem required_failsOnly (index : Nat) (slot : Slot) :
    FailsOnly (Defect.IsPlaced source) (invocation.required index slot) := by
  unfold required
  split
  · exact .ok _
  · exact .error trivial

theorem fill_failsOnly (type : MacroType) (property : Property) :
    FailsOnly (Defect.IsPlaced source) (invocation.fill type property) := by
  unfold fill
  split
  · exact .ok _
  · exact (required_failsOnly _ _).bind fun _ _ => .ok _
  · refine (required_failsOnly _ _).bind fun _ _ => ?_
    dsimp only
    split
    · exact (required_failsOnly _ _).bind fun _ _ => .ok _
    · exact .ok _
  · exact (required_failsOnly _ _).bind fun _ _ => .ok _
  · exact (required_failsOnly _ _).bind fun _ _ => .ok _

end Invocation

/-! ### Members and declarations -/

namespace Extractor

variable {extractor : Extractor} {comment : Excerpt}

/-- The parenthesis after a keyword that starts a comment. -/
theorem opensArguments_of_invoked? {keyword : Text} {type : MacroType} (isOf : comment.IsOf source)
    (invoked : extractor.invoked? comment = some (keyword, type)) :
    OpensArguments source keyword (comment.offset + keyword.size) ∧
      keyword ++ comment.text.drop keyword.length = comment.text := by
  obtain ⟨rest, split⟩ := exists_of_invoked? invoked
  refine ⟨⟨comment.offset, ?_, rfl⟩, ?_⟩
  · rw [Excerpt.IsOf, split, List.append_cons] at isOf
    exact isOf.left
  · rw [split, List.drop_left]

theorem applyMacro_failsOnly (isOf : comment.IsOf source) (property : Property) :
    FailsOnly (Defect.IsPlaced source) (extractor.applyMacro comment property).result := by
  unfold applyMacro
  split
  · rename_i keyword type invoked
    obtain ⟨opens, -⟩ := opensArguments_of_invoked? isOf invoked
    simp only [applyInvocation, Outcome.result_bind, Outcome.result_lift, Outcome.result_reportIf,
      Outcome.result_pure]
    refine FailsOnly.bind ?_ fun _ _ => (Invocation.fill_failsOnly _ _).bind fun _ _ => .ok _
    unfold Invocation.group
    split
    · exact .error opens
    · exact .ok _
  · exact .ok _

/-- What a macro leaves of its comment is part of the source, too. -/
theorem applyMacro_isOf {property changed : Property} {rest : Excerpt} (isOf : comment.IsOf source)
    (applied : (extractor.applyMacro comment property).result = .ok (changed, rest)) :
    rest.IsOf source := by
  unfold applyMacro at applied
  split at applied
  · rename_i keyword type invoked
    obtain ⟨-, split⟩ := opensArguments_of_invoked? isOf invoked
    simp only [applyInvocation, Outcome.result_bind, Outcome.result_lift, Outcome.result_reportIf,
      Outcome.result_pure] at applied
    obtain ⟨⟨group, after⟩, grouped, continued⟩ := bind_eq_ok_iff.mp applied
    obtain ⟨filled, -, same⟩ := bind_eq_ok_iff.mp continued
    cases same
    unfold Invocation.group at grouped
    split at grouped <;> cases grouped
    rename_i balanced
    exact (isOf.skip split).balanced? balanced
  · cases applied
    exact isOf

theorem property_failsOnly {member : Member}
    (isOf : ∀ comment ∈ member.comment, comment.IsOf source) :
    FailsOnly (Defect.IsPlaced source) (extractor.property member).result := by
  unfold Extractor.property
  split
  · exact .ok _
  · rename_i comment found
    have isOfComment := (isOf comment found).skipBlanks
    simp only [annotate, Outcome.result_bind, Outcome.result_lift]
    refine (applyMacro_failsOnly isOfComment _).bind fun result applied => ?_
    obtain ⟨filled, rest⟩ := result
    have isOfRest := applyMacro_isOf isOfComment applied
    refine (Remark.ofExcerpt_failsOnly isOfRest).bind fun remark read => ?_
    rw [Remark.applyToMember, Outcome.result_bind, Outcome.result_foldReporting]
    refine FailsOnly.bind (.foldlM fun item among state => ?_) fun _ _ => .ok _
    exact Attribute.applyToMember_failsOnly (Remark.ofExcerpt_spelled isOfRest read item among) state

theorem classHead_failsOnly {declaration : Declaration}
    (isOf : ∀ comment ∈ declaration.comments, comment.IsOf source) :
    FailsOnly (Defect.IsPlaced source) (extractor.classHead declaration).result := by
  rw [classHead, Outcome.result_bind, Outcome.result_foldlM]
  refine FailsOnly.bind (.foldlM fun comment among state => ?_) fun _ _ => .ok _
  have isOfComment := isOf comment among
  simp only [applyComment, Outcome.result_bind, Outcome.result_lift, Outcome.result_pure,
    Remark.applyToClass, Outcome.result_foldReporting]
  refine (Remark.ofExcerpt_failsOnly isOfComment).bind fun remark read => ?_
  refine FailsOnly.bind (.foldlM fun item inside cls => ?_) fun _ _ => .ok _
  exact Attribute.applyToClass_failsOnly (Remark.ofExcerpt_spelled isOfComment read item inside) cls

/-- **A description** fails only where its comments have what is wrong. -/
theorem describe_failsOnly {declaration : Declaration}
    (isOf : ∀ comment ∈ declaration.allComments, comment.IsOf source) :
    FailsOnly (Defect.IsPlaced source) (extractor.describe declaration).result := by
  simp only [describe, Outcome.result_bind, Outcome.result_mapM, Outcome.result_pure]
  refine (classHead_failsOnly fun comment among => ?_).bind fun _ _ => ?_
  · exact isOf comment (List.mem_append_left _ among)
  · refine FailsOnly.bind (.mapM fun member among => ?_) fun _ _ => .ok _
    refine property_failsOnly fun comment found => isOf comment (List.mem_append_right _ ?_)
    exact List.mem_filterMap.mpr ⟨member, among, found⟩

theorem item_failsOnly {item : OutlineItem}
    (isOf : ∀ comment ∈ item.allComments, comment.IsOf source) :
    FailsOnly (Defect.IsPlaced source) (extractor.item item).result := by
  cases item with
  | scope path depth | forward name => exact .ok _
  | declaration declaration | unfinished declaration =>
    rw [item, Outcome.result_bind]
    exact (describe_failsOnly isOf).bind fun _ _ => .ok _

/-! ### Outlines -/

/-- A token of a source stands in it, at its offset. -/
theorem hasAt_of_tokenize {tokens : List Token} (cut : Token.tokenize source = .ok tokens) :
    ∀ token ∈ tokens, source.HasAt token.offset token.text := by
  intro token member
  obtain ⟨inner, stands, place⟩ := (Token.placed_of_tokensFrom cut).hasAt token member
  rw [Nat.zero_add] at place
  exact place ▸ stands

theorem isOf_of_hasComment {tokens : Tokens} {comment : Excerpt}
    (cut : Token.tokenize source = .ok tokens) (has : tokens.HasComment comment) :
    comment.IsOf source := by
  obtain ⟨token, member, -, rfl⟩ := has
  exact Tokens.isOf_comment (hasAt_of_tokenize cut token member)

theorem isPlaced_of_isStructural {defect : Defect} (structural : defect.IsStructural) :
    defect.IsPlaced source := by
  obtain ⟨cause, offset⟩ := defect
  cases cause with
  | malformed flaw => cases flaw <;> first | exact trivial | exact structural.elim
  | keyMissing name key | keyRepeated key | tagUnmatched name reason => exact structural.elim

/-- A name that comes again in the body of a declaration, after a member that has it. -/
theorem repeatsMember_of_isInBody {declaration : Declaration} {names : List Token}
    {first repeated : Token} {rest : Tokens}
    (inBody : IsInBody source declaration names (repeated :: rest)) (among : first ∈ names)
    (kind : repeated.kind = .identifier) (same : first.text = repeated.text) :
    RepeatsMember source repeated.text repeated.offset := by
  obtain ⟨tokens, before, keyword, after, comments, opened, cut, -, split, -, head, lists, -⟩ :=
    id inBody
  obtain ⟨passed, read, listed⟩ := lists.exists_append
  obtain ⟨lead, whole⟩ : passed ++ repeated :: rest <:+ tokens := by
    rw [← read, split]
    exact (Tokens.trailingComment_suffix opened).trans
      ((Outline.headOf_of_enumHead head).1.trans
        ((List.suffix_cons keyword after).trans (List.suffix_append before _)))
  have passedFirst : first ∈ lead ++ passed := List.mem_append_right _ (listed.subset among)
  rw [← List.append_assoc] at whole
  have placed := Token.placed_of_tokensFrom cut
  rw [← whole] at placed
  have ordered := placed.ordered first passedFirst
  have stands := hasAt_of_tokenize cut
  rw [← whole] at stands
  have spelled := stands repeated (List.mem_append_right _ List.mem_cons_self)
  have spelledFirst := stands first (List.mem_append_left _ passedFirst)
  rw [same] at spelledFirst
  rw [Token.stop, same] at ordered
  exact ⟨declaration, names, first, repeated, rest, inBody, among, same, kind, rfl, rfl,
    spelledFirst, spelled, ordered⟩

/-- **The defect of an outline** is where it has to be. -/
theorem isPlaced_of_ofSource {tokens : List Token} {defect : Defect}
    (cut : Token.tokenize source = .ok tokens)
    (found : (Outline.ofSource source tokens).defect = some defect) : defect.IsPlaced source := by
  have walks : Outline.Walks source.size tokens (Outline.ofSource source tokens) :=
    Outline.walks_ofTokens source.size [] 0 tokens
  rcases walks.defect_cases found with structural | ⟨keyword, after, comments, opened, declaration,
    inside, word, head, last, members, failed⟩
  · exact isPlaced_of_isStructural structural
  rcases Outline.lists_of_body_error failed with structural | ⟨names, repeated, rest, lists, kind,
    taken, listed, rfl⟩
  · exact isPlaced_of_isStructural structural
  obtain ⟨first, among, same⟩ := taken.resolve_left List.not_mem_nil
  obtain ⟨before, split⟩ := inside
  have inBody : IsInBody source declaration names (repeated :: rest) :=
    ⟨tokens, before, keyword, after, comments, opened, cut, last, split.symm, word, head, lists,
      members ▸ listed⟩
  exact repeatsMember_of_isInBody inBody among kind same

theorem outline_failsOnly {tokens : List Token} (cut : Token.tokenize source = .ok tokens) :
    FailsOnly (Defect.IsPlaced source)
      (extractor.outline (Outline.ofSource source tokens)).result := by
  have walks : Outline.Walks source.size tokens (Outline.ofSource source tokens) :=
    Outline.walks_ofTokens source.size [] 0 tokens
  rw [Extractor.outline, Outcome.result_bind, Outcome.result_mapM]
  refine FailsOnly.bind (.mapM fun item member => ?_) fun classes _ => ?_
  · exact item_failsOnly fun comment among =>
      isOf_of_hasComment cut (walks.hasComment item member comment among)
  · cases found : (Outline.ofSource source tokens).defect with
    | none => exact .ok _
    | some defect => exact .error (isPlaced_of_ofSource cut found)

theorem isPlaced_of_tokensFrom {offset : Nat} {text : Text} {defect : Defect}
    (failed : Token.tokensFrom offset text = .error defect) : defect.IsPlaced source := by
  fun_induction Token.tokensFrom offset text with
  | case1 => cases failed
  | case2 =>
    cases failed
    exact trivial
  | case3 offset first rest kind text after found shorter ih =>
    exact ih (map_eq_error_iff.mp failed)

theorem run_failsOnly (extractor : Extractor) (source : Text) :
    FailsOnly (Defect.IsPlaced source) (extractor.run source).result := by
  rw [run, Outcome.result_bind, Outcome.result_lift]
  refine FailsOnly.bind (fun defect failed => isPlaced_of_tokensFrom failed) fun tokens cut => ?_
  exact outline_failsOnly cut

end Extractor

/-- Where a defect has to be there is a word of the source, if its place matters at all. -/
theorem IsDefectAt.exists_hasAt {offset : Nat} {cause : Cause}
    (isAt : IsDefectAt source offset cause) :
    (∃ word, source.HasAt offset word) ∨ ∀ other, IsDefectAt source other cause := by
  cases cause with
  | keyRepeated key =>
    obtain ⟨_, _, _, _, _, -, -, -, -, -, -, -, spelled, -⟩ := isAt
    exact Or.inl ⟨key, spelled⟩
  | keyMissing name key => exact Or.inl ⟨_, isAt⟩
  | tagUnmatched name reason => exact Or.inr fun _ => trivial
  | malformed flaw =>
    cases flaw with
    | unterminatedPayload name | payloadNotObject name | invalidPayload name failure =>
      obtain ⟨marker, blanks, -, stands, rfl⟩ := isAt
      exact Or.inl ⟨_, stands.right⟩
    | unclosedInvocation keyword =>
      obtain ⟨start, stands, rfl⟩ := isAt
      exact Or.inl ⟨_, stands.right⟩
    | _ => exact Or.inr fun _ => trivial

/-- **The fault of an extraction** is where its cause has to be. -/
theorem Extractor.isDefectAt_of_parse_error {extractor : Extractor} {fault : Fault}
    (failed : extractor.parse source = .error fault) :
    IsDefectAt source fault.location.offset fault.cause := by
  unfold Extractor.parse at failed
  split at failed
  · cases failed
  · rename_i defect found
    cases failed
    have isAt : IsDefectAt source defect.offset defect.cause :=
      extractor.run_failsOnly source defect found
    show IsDefectAt source (Location.ofOffset source defect.offset).offset defect.cause
    rcases isAt.exists_hasAt with ⟨word, stands⟩ | anywhere
    · rw [stands.offset_location]
      exact isAt
    · exact anywhere _

end Scaffold
