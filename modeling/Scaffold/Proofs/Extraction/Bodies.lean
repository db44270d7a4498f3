/-
**Every body is at a place.**

The places inside of enums (`Layout.InBody`) are given by what stands before them. In a source that
is walked to its end, all bodies are found at such places: the class with a number is the enum whose
body has so many enums with a body before it (`Extractor.hasBody_of_parse`), each of its members has
its name there (`Extractor.exists_place_of_parse`), and behind each line feed in the body there is a
place too (`InBody.of_feed`).

* `Items.append`, `HasBody.of_items`: items may stand before a body;
* `Enumerators.exists_inside`: the members of a body up to its brace;
* `hasBodies_of_landmarks`: the enums of a walk.
-/

import Scaffold.Proofs.Extraction.Described
import Scaffold.Proofs.Extraction.Places

namespace Scaffold

namespace Layout

variable {tokens rest : Tokens} {count : Nat} {members : List (Text × Option WrittenValue)}

/-- An enum with these members has its body among the tokens, and so many enums with a body stand
before it. -/
inductive HasBody (count : Nat) (members : List (Text × Option WrittenValue)) : Tokens → Prop
  | intro {front inner rest : Tokens} {brace : Token} :
      InBody count front → Inside inner → brace.kind = .closeBrace →
      Enumerators members (inner ++ brace :: rest) rest →
      HasBody count members (front ++ (inner ++ brace :: rest))

/-! ### What is read, without what follows -/

theorem Path.exists_lead {names : List Text} (path : Path names tokens rest) :
    ∃ lead, tokens = lead ++ rest ∧ ∀ more, Path names (lead ++ more) more := by
  induction path with
  | nil rest => exact ⟨[], rfl, .nil⟩
  | @skip _ token _ _ passed path ih =>
    obtain ⟨lead, rfl, again⟩ := ih
    exact ⟨token :: lead, rfl, fun more => .skip passed (again more)⟩
  | @last name space rest kind text trivial =>
    exact ⟨name :: space, rfl, fun _ => .last kind text trivial⟩
  | @more _ name colons space _ _ kind text trivial double path ih =>
    obtain ⟨lead, rfl, again⟩ := ih
    refine ⟨name :: (space ++ colons :: lead), by simp, fun more => ?_⟩
    rw [List.cons_append, List.append_assoc, List.cons_append]
    exact .more kind text trivial double (again more)

theorem EnumName.exists_lead {name : Text} (named : EnumName name tokens rest) :
    ∃ lead, tokens = lead ++ rest ∧ ∀ more, EnumName name (lead ++ more) more := by
  cases named with
  | @bare space token rest trivial kind noClass noStruct =>
    refine ⟨space ++ [token], by simp, fun more => ?_⟩
    rw [List.append_assoc]
    exact .bare more trivial kind noClass noStruct
  | @kinded space between word token rest trivial isWord apart kind =>
    refine ⟨space ++ word :: (between ++ [token]), by simp, fun more => ?_⟩
    rw [List.append_assoc, List.cons_append, List.append_assoc]
    exact .kinded more trivial isWord apart kind

theorem Head.exists_lead {comments : List Excerpt} (head : Head comments tokens rest) :
    ∃ lead, tokens = lead ++ rest ∧ ∀ more, Head comments (lead ++ more) more := by
  induction head with
  | nil rest => exact ⟨[], rfl, .nil⟩
  | @comment _ token _ _ isComment head ih =>
    obtain ⟨lead, rfl, again⟩ := ih
    exact ⟨token :: lead, rfl, fun more => .comment isComment (again more)⟩
  | @blank _ token _ _ blank head ih =>
    obtain ⟨lead, rfl, again⟩ := ih
    exact ⟨token :: lead, rfl, fun more => .blank blank (again more)⟩
  | @type _ token _ _ type head ih =>
    obtain ⟨lead, rfl, again⟩ := ih
    exact ⟨token :: lead, rfl, fun more => .type type (again more)⟩

/-! ### Items before a body -/

theorem Items.append {later : Nat} {more : Tokens} (items : Items count tokens)
    (others : Items later more) : Items (count + later) (tokens ++ more) := by
  induction items with
  | nil => rwa [Nat.zero_add]
  | filler filler items ih => exact .filler filler ih
  | brace brace items ih => exact .brace brace ih
  | line isHash feedless isFeed items ih =>
    rw [List.cons_append, List.append_assoc]
    exact .line isHash feedless isFeed ih
  | statement isWord endless ends items ih =>
    rw [List.cons_append, List.append_assoc]
    exact .statement isWord endless ends ih
  | abbreviation isWord path equals endless ends items ih =>
    have path' := path.append more
    rw [List.cons_append, List.append_assoc, List.cons_append] at path'
    exact .abbreviation isWord path' equals endless ends ih
  | namespaced isWord path stops items ih => exact .namespaced isWord (path.append more) stops ih
  | forward isWord named head ends items ih =>
    exact .forward isWord (named.append more) (head.append more) ends ih
  | enumeration isWord named head opens inside closes items ih =>
    have head' := head.append more
    rw [List.cons_append, List.append_assoc, List.cons_append] at head'
    rw [Nat.succ_add]
    exact .enumeration isWord (named.append more) head' opens inside closes ih

theorem InBody.of_items {later : Nat} {front : Tokens} (items : Items count tokens)
    (place : InBody later front) : InBody (count + later) (tokens ++ front) := by
  cases place with
  | intro others isEnum isName headed opens inside =>
    rw [← List.append_assoc]
    exact .intro (items.append others) isEnum isName headed opens inside

theorem HasBody.of_items {later : Nat} {lead : Tokens} (items : Items count lead)
    (body : HasBody later members tokens) : HasBody (count + later) members (lead ++ tokens) := by
  cases body with
  | intro place inside closes written =>
    rw [← List.append_assoc]
    exact .intro (.of_items items place) inside closes written

/-- There is something to be skipped if a body follows. -/
theorem HasBody.exists_skipped {kind : TokenKind} (skips : Skips kind tokens rest)
    (body : HasBody count members rest) :
    ∃ line stop, tokens = line ++ stop :: rest ∧ (∀ token ∈ line, token.kind ≠ kind) ∧
      stop.kind = kind := by
  cases skips with
  | @upTo line stop rest others stops => exact ⟨line, stop, rfl, others, stops⟩
  | all others =>
    generalize nothing : [] = none at body
    cases body
    simp at nothing

/-! ### Places in a body -/

theorem InBody.append {front inner : Tokens} (place : InBody count front) (inside : Inside inner) :
    InBody count (front ++ inner) := by
  cases place with
  | intro items isEnum isName headed opens before =>
    rw [List.append_assoc, List.cons_append, List.append_assoc]
    exact .intro items isEnum isName headed opens (before.append inside)

/-- Behind a line feed no preprocessor line goes on. -/
theorem Inside.upTo_feed {before after : Tokens} {feed : Token}
    (inside : Inside (before ++ feed :: after)) (isFeed : feed.kind = .newline) :
    Inside (before ++ [feed]) := by
  generalize whole : before ++ feed :: after = all at inside
  induction inside generalizing before with
  | nil => simp at whole
  | @token token tokens isInner inside ih =>
    cases before with
    | nil => exact .of_isInner (List.forall_mem_singleton.mpr (isInner_of_kind isFeed (by decide)))
    | cons first before =>
      obtain ⟨rfl, same⟩ := List.cons.inj whole
      exact .token isInner (ih same)
  | @line hash stop line tokens isHash others stops inside ih =>
    cases before with
    | nil =>
      obtain ⟨rfl, -⟩ := List.cons.inj whole
      rw [isFeed] at isHash
      cases isHash
    | cons first before =>
      obtain ⟨rfl, same⟩ := List.cons.inj whole
      rcases List.append_eq_append_iff.mp same with ⟨more, rfl, split⟩ | ⟨more, rfl, split⟩
      · cases more with
        | nil =>
          obtain ⟨rfl, -⟩ := List.cons.inj split
          rw [List.append_nil] at others
          exact .line isHash others isFeed .nil
        | cons token more =>
          obtain ⟨rfl, -⟩ := List.cons.inj split
          exact absurd isFeed (others feed (by simp))
      · cases more with
        | nil =>
          obtain ⟨rfl, -⟩ := List.cons.inj split
          rw [List.append_nil]
          exact .line isHash others isFeed .nil
        | cons token more =>
          obtain ⟨rfl, split'⟩ := List.cons.inj split
          rw [List.cons_append, List.append_assoc, List.cons_append]
          exact .line isHash others stops (ih split'.symm)

/-- **Behind each line feed** of a body there is a place. -/
theorem InBody.of_feed {front before after : Tokens} {feed : Token} (place : InBody count front)
    (inside : Inside (before ++ feed :: after)) (isFeed : feed.kind = .newline) :
    InBody count (front ++ (before ++ [feed])) :=
  place.append (inside.upTo_feed isFeed)

/-- A member and its value are inside of a body. -/
theorem Assigned.exists_lead {written : Option WrittenValue} {name : Token}
    (assigned : Assigned written tokens rest) (kind : name.kind = .identifier) :
    ∃ lead, name :: tokens = lead ++ rest ∧ Inside lead := by
  obtain ⟨value, rfl, isInner⟩ := assigned.exists_inner
  exact ⟨name :: value, rfl, .token (isInner_of_kind kind (by decide)) (.of_isInner isInner)⟩

/-- A member, its value and its comma are inside of a body. -/
theorem Assigned.exists_lead_of_comma {written : Option WrittenValue} {name comma : Token}
    {space : Tokens} (assigned : Assigned written tokens (space ++ comma :: rest))
    (kind : name.kind = .identifier) (spacing : IsSpacing space) (isComma : comma.kind = .comma) :
    ∃ lead, name :: tokens = lead ++ rest ∧ Inside lead := by
  obtain ⟨lead, same, inside⟩ := assigned.exists_lead kind
  have separator : ∀ token ∈ space ++ [comma], IsInner token := List.forall_mem_append.mpr
    ⟨spacing.isInner, List.forall_mem_singleton.mpr (isInner_of_kind isComma (by decide))⟩
  exact ⟨lead ++ (space ++ [comma]), by simp [same], inside.append (.of_isInner separator)⟩

/-- **The members of a body** are inside of it, before the brace that closes it. -/
theorem Enumerators.exists_inside (written : Enumerators members tokens rest) :
    ∃ inner brace, tokens = inner ++ brace :: rest ∧ Inside inner ∧ brace.kind = .closeBrace := by
  induction written with
  | @closed brace rest closes => exact ⟨[], brace, rfl, .nil, closes⟩
  | @trivia _ token _ _ trivial written ih =>
    obtain ⟨inner, brace, rfl, inside, closes⟩ := ih
    exact ⟨token :: inner, brace, rfl, .token (isInner_of_isTrivia trivial) inside, closes⟩
  | @line _ hash feed line _ _ isHash others isFeed written ih =>
    obtain ⟨inner, brace, rfl, inside, closes⟩ := ih
    exact ⟨hash :: (line ++ feed :: inner), brace, by simp, .line isHash others isFeed inside,
      closes⟩
  | member kind assigned written ih =>
    obtain ⟨inner, brace, rfl, inside, closes⟩ := ih
    obtain ⟨lead, same, before⟩ := assigned.exists_lead kind
    exact ⟨lead ++ inner, brace, by simp [same], before.append inside, closes⟩
  | separated kind assigned spacing isComma written ih =>
    obtain ⟨inner, brace, rfl, inside, closes⟩ := ih
    obtain ⟨lead, same, before⟩ := assigned.exists_lead_of_comma kind spacing isComma
    exact ⟨lead ++ inner, brace, by simp [same], before.append inside, closes⟩

/-- **A member** is where its name is, with what is written for its value behind it. -/
theorem Enumerators.exists_place {entry : Text × Option WrittenValue}
    (written : Enumerators members tokens rest) (among : entry ∈ members) :
    ∃ inner name tail after, tokens = inner ++ name :: tail ∧ Inside inner ∧
      name.kind = .identifier ∧ name.text = entry.1 ∧ Assigned entry.2 tail after := by
  induction written with
  | closed => cases among
  | @trivia _ token _ _ trivial written ih =>
    obtain ⟨inner, name, tail, after, rfl, inside, found⟩ := ih among
    exact ⟨token :: inner, name, tail, after, rfl, .token (isInner_of_isTrivia trivial) inside,
      found⟩
  | @line _ hash feed line _ _ isHash others isFeed written ih =>
    obtain ⟨inner, name, tail, after, rfl, inside, found⟩ := ih among
    exact ⟨hash :: (line ++ feed :: inner), name, tail, after, by simp,
      .line isHash others isFeed inside, found⟩
  | member kind assigned written ih =>
    rcases List.mem_cons.mp among with rfl | among
    · exact ⟨[], _, _, _, rfl, .nil, kind, rfl, assigned⟩
    · obtain ⟨inner, name, tail, after, rfl, inside, found⟩ := ih among
      obtain ⟨lead, same, before⟩ := assigned.exists_lead kind
      exact ⟨lead ++ inner, name, tail, after, by simp [same], before.append inside, found⟩
  | separated kind assigned spacing isComma written ih =>
    rcases List.mem_cons.mp among with rfl | among
    · exact ⟨[], _, _, _, rfl, .nil, kind, rfl, assigned⟩
    · obtain ⟨inner, name, tail, after, rfl, inside, found⟩ := ih among
      obtain ⟨lead, same, before⟩ := assigned.exists_lead_of_comma kind spacing isComma
      exact ⟨lead ++ inner, name, tail, after, by simp [same], before.append inside, found⟩

theorem HasBody.exists_place {entry : Text × Option WrittenValue}
    (body : HasBody count members tokens) (among : entry ∈ members) :
    ∃ front name tail after, tokens = front ++ name :: tail ∧ InBody count front ∧
      name.kind = .identifier ∧ name.text = entry.1 ∧ Assigned entry.2 tail after := by
  cases body with
  | @intro front _ _ _ place inside closes written =>
    obtain ⟨inner, name, tail, after, same, before, found⟩ := written.exists_place among
    exact ⟨front ++ inner, name, tail, after, by rw [same, List.append_assoc], place.append before,
      found⟩

end Layout

/-- Each numbered member is one that is written, and what is written for its value denotes it. -/
theorem Numbered.exists_written {due : Int} {members : List (Text × Option WrittenValue)}
    {entries : List (Text × Int)} (numbered : Numbered due members entries) {entry : Text × Int}
    (among : entry ∈ entries) :
    ∃ written, (entry.1, written) ∈ members ∧ ∀ value ∈ written, value.Denotes entry.2 := by
  induction numbered with
  | nil => cases among
  | counted numbered ih =>
    rcases List.mem_cons.mp among with rfl | among
    · exact ⟨none, List.mem_cons_self, nofun⟩
    · exact (ih among).imp fun _ found => ⟨List.mem_cons_of_mem _ found.1, found.2⟩
  | @given _ _ _ written _ _ denotes numbered ih =>
    rcases List.mem_cons.mp among with rfl | among
    · refine ⟨some written, List.mem_cons_self, ?_⟩
      rintro value ⟨⟩
      exact denotes
    · exact (ih among).imp fun _ found => ⟨List.mem_cons_of_mem _ found.1, found.2⟩

namespace Outline

open Tokens
open Layout (HasBody Items)

variable {sourceEnd depth : Nat} {scopes : List Scope} {tokens : Tokens}

/-! ### Walks -/

/-- Each enum that an outline lists has its body among the tokens, and its members are numbered as
they are written there. -/
def HasBodies (outline : Outline) (tokens : Tokens) : Prop :=
  ∀ count declaration, outline.declarations[count]? = some declaration →
    ∃ members, HasBody count members tokens ∧
      Numbered 0 members (declaration.members.map Member.entry)

namespace HasBodies

variable {outline : Outline} {lead rest : Tokens}

theorem of_items (bodies : outline.HasBodies tokens) (items : Items 0 lead) :
    outline.HasBodies (lead ++ tokens) := by
  intro count declaration found
  obtain ⟨members, body, numbered⟩ := bodies count declaration found
  have whole := body.of_items items
  rw [Nat.zero_add] at whole
  exact ⟨members, whole, numbered⟩

/-- What is skipped is an item if an enum follows it. -/
theorem of_skips {kind : TokenKind} (bodies : outline.HasBodies rest)
    (skips : Layout.Skips kind tokens rest) (lead : Tokens)
    (items : ∀ line stop, (∀ token ∈ line, token.kind ≠ kind) → stop.kind = kind →
      Items 0 (lead ++ (line ++ [stop]))) : outline.HasBodies (lead ++ tokens) := by
  intro count declaration found
  obtain ⟨members, body, numbered⟩ := bodies count declaration found
  obtain ⟨line, stop, rfl, others, stops⟩ := body.exists_skipped skips
  have whole := body.of_items (items line stop others stops)
  simp only [Nat.zero_add, List.append_assoc, List.cons_append, List.nil_append] at whole
  exact ⟨members, whole, numbered⟩

/-- An enum, and those after it. -/
theorem declaration {item : Declaration} {members : List (Text × Option WrittenValue)}
    (bodies : outline.HasBodies tokens) (body : HasBody 0 members (lead ++ tokens))
    (numbered : Numbered 0 members (item.members.map Member.entry)) (items : Items 1 lead) :
    (outline.startingWith (.declaration item)).HasBodies (lead ++ tokens) := by
  intro count declaration found
  cases count with
  | zero =>
    cases found
    exact ⟨members, body, numbered⟩
  | succ count =>
    obtain ⟨others, later, following⟩ := bodies count declaration found
    rw [Nat.add_comm]
    exact ⟨others, later.of_items items, following⟩

end HasBodies

/-- **The enums of a walk** to the end have their bodies at places, in their order. -/
theorem hasBodies_of_landmarks {marks : List Landmark} (written : Layout.Landmarks marks tokens)
    (complete : (ofTokens sourceEnd scopes depth tokens).defect = none) :
    (ofTokens sourceEnd scopes depth tokens).HasBodies tokens := by
  induction written generalizing scopes depth with
  | ended =>
    intro count declaration found
    rw [ofTokens] at found
    cases found
  | filler isFiller written ih =>
    rw [ofTokens_of_filler isFiller] at complete ⊢
    exact (ih complete).of_items (.filler isFiller .nil)
  | @line _ hash _ _ isHash skips written ih =>
    rw [ofTokens_of_hash isHash, Tokens.skipLine, skips.skipPast_eq] at complete ⊢
    exact (ih complete).of_skips skips [hash] fun _ _ others feed => .line isHash others feed .nil
  | @statement _ word _ _ isWord skips written ih =>
    rw [ofTokens_of_using isWord, Tokens.skipStatement, skips.skipPast_eq] at complete ⊢
    exact (ih complete).of_skips skips [word] fun _ _ others ends =>
      .statement isWord others ends .nil
  | @abbreviation _ _ word equals _ _ _ isWord path isEquals skips written ih =>
    have head := namespaceHead_of_path sourceEnd path (Or.inr (Or.inr ⟨isEquals, rfl⟩))
    rw [ofTokens_of_namespace isWord head, Tokens.skipStatement, skips.skipPast_eq] at complete ⊢
    obtain ⟨lead, rfl, named⟩ := path.exists_lead
    have bodies := (ih complete).of_skips skips (word :: (lead ++ [equals]))
      fun line stop others ends => by
        rw [List.cons_append, List.append_assoc]
        exact .abbreviation isWord (named _) isEquals others ends .nil
    rwa [List.cons_append, List.append_assoc] at bodies
  | openBrace opens written ih =>
    rw [ofTokens_of_openBrace opens] at complete ⊢
    exact (ih complete).of_items (.brace (Or.inl opens) .nil)
  | closeBrace closes written ih =>
    rw [ofTokens_of_closeBrace closes] at complete ⊢
    exact (ih complete).of_items (.brace (Or.inr closes) .nil)
  | @namespaced _ _ word opening _ _ isWord path opens written ih =>
    have head := namespaceHead_of_path sourceEnd path (Or.inl ⟨opens, rfl⟩)
    rw [ofTokens_of_namespace isWord head] at complete ⊢
    obtain ⟨lead, rfl, named⟩ := path.exists_lead
    have bodies := (ih complete).of_items
      (.namespaced isWord (named [opening]) (Or.inl opens) .nil)
    rwa [List.cons_append, List.append_assoc] at bodies
  | @fileScope _ _ word stop _ _ isWord path ends written ih =>
    have head := namespaceHead_of_path sourceEnd path (Or.inr (Or.inl ⟨ends, rfl⟩))
    rw [ofTokens_of_namespace isWord head] at complete ⊢
    obtain ⟨lead, rfl, named⟩ := path.exists_lead
    have bodies := (ih complete).of_items (.namespaced isWord (named [stop]) (Or.inr ends) .nil)
    rwa [List.cons_append, List.append_assoc] at bodies
  | @forward _ _ _ word stop _ _ _ isWord named head ends written ih =>
    rw [ofTokens_of_forward isWord named head ends] at complete ⊢
    obtain ⟨lead, rfl, isName⟩ := named.exists_lead
    obtain ⟨between, rfl, headed⟩ := head.exists_lead
    have bodies := (ih complete).of_items
      (.forward isWord (isName _) (headed [stop]) ends .nil)
    rwa [List.cons_append, List.append_assoc, List.append_assoc] at bodies
  | @enumeration _ name comments _ word opening _ _ content rest isWord named head opens listing
      written ih =>
    rw [ofTokens_of_enum isWord,
      enumHead_of_head sourceEnd named head (Or.inl ⟨opens, rfl⟩)] at complete ⊢
    dsimp only at complete ⊢
    cases ended : (body sourceEnd name [] 0 content.trailingComment.2).after with
    | error defect =>
      rw [ended] at complete
      cases complete
    | ok last =>
      obtain ⟨members, read, numbered⟩ := numbered_of_body ended
      replace read := Layout.Enumerators.of_trailingComment read
      obtain rfl : last = rest := read.afterBody_eq.symm.trans listing.afterBody_eq
      rw [ended] at complete
      dsimp only at complete ⊢
      rw [ofTokens_of_semicolon] at complete ⊢
      obtain ⟨lead, rfl, isName⟩ := named.exists_lead
      obtain ⟨between, rfl, headed⟩ := head.exists_lead
      obtain ⟨inner, brace, rfl, inside, closes⟩ := read.exists_inside
      have body := HasBody.intro (.intro .nil isWord (isName _) (headed [opening]) opens .nil)
        inside closes read
      have items := Items.enumeration isWord (isName _) (headed (opening :: (inner ++ [brace])))
        opens inside closes .nil
      have whole : word :: (lead ++ (between ++ opening :: (inner ++ brace :: last))) =
          word :: (lead ++ (between ++ opening :: (inner ++ [brace]))) ++ last := by simp
      rw [whole]
      exact (ih complete).declaration (by simpa using body) numbered items

end Outline

namespace Extractor

variable {extractor : Extractor} {source : Text} {classes : List Class} {cls : Class} {count : Nat}

/-- **Each class** is an enum that has its body in the source, behind as many enums with a body as
there are classes before it, and its members are numbered as they are written there. -/
theorem hasBody_of_parse {tokens : Tokens} (parsed : extractor.parse source = .ok classes)
    (cut : Token.tokenize source = .ok tokens) (found : classes[count]? = some cls) :
    ∃ members, Layout.HasBody count members tokens ∧
      Numbered 0 members (cls.properties.map Property.entry) := by
  obtain ⟨complete, listed⟩ := (parse_ok_iff_of_tokenize cut).mp parsed
  obtain ⟨marks, written⟩ := Outline.exists_landmarks complete
  obtain ⟨declaration, declared, described⟩ : ∃ declaration,
      (Outline.ofSource source tokens).declarations[count]? = some declaration ∧
        (extractor.describe declaration).result = .ok cls := by
    obtain ⟨within, rfl⟩ := List.getElem?_eq_some_iff.mp found
    have declared := listed.length_eq ▸ within
    exact ⟨_, List.getElem?_eq_getElem declared, listed.get declared within⟩
  obtain ⟨members, body, numbered⟩ :=
    Outline.hasBodies_of_landmarks written complete count declaration declared
  have entries : cls.properties.map Property.entry = declaration.members.map Member.entry :=
    congrArg Prod.snd (skeleton_of_describe described)
  exact ⟨members, body, entries ▸ numbered⟩

/-- **Each member of a class** has its name at a place in the body of the enum, and what is written
for its value behind it. -/
theorem exists_place_of_parse {tokens : Tokens} {property : Property}
    (parsed : extractor.parse source = .ok classes) (cut : Token.tokenize source = .ok tokens)
    (found : classes[count]? = some cls) (among : property ∈ cls.properties) :
    ∃ front name tail after written, tokens = front ++ name :: tail ∧
      Layout.InBody count front ∧ name.kind = .identifier ∧ name.text = property.enumName ∧
      Layout.Assigned written tail after ∧ ∀ value ∈ written, value.Denotes property.ordinal := by
  obtain ⟨members, body, numbered⟩ := hasBody_of_parse parsed cut found
  obtain ⟨written, listed, denotes⟩ := numbered.exists_written (List.mem_map_of_mem among)
  obtain ⟨front, name, tail, after, split, place, kind, text, assigned⟩ := body.exists_place listed
  exact ⟨front, name, tail, after, written, split, place, kind, text, assigned, denotes⟩

end Extractor

end Scaffold
