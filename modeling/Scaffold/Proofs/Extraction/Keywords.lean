/-
**A registry is determined by its set of keywords.**

Keywords are taken one by one, and what is registered in the end does not show their order: the
entries are kept in ascending order (`Keyed.Sorted`), and a keyword that comes again gives the entry
that it gave before. So registries with the same look-ups are equal (`MacroRegistry.eq_of_lookup`),
and the look-ups depend on the set of the trimmed keywords alone (`lookup_of_insertAll`).

The order does show in the complaint about a list: it is the one about the first keyword that cannot
be registered (`insertAll_eq_error_iff`). And it shows in the table of the families, where the first
start that fits has to be the longest one (`KeywordFamily.ofKeyword?_eq_some_iff`).
-/

import Mathlib.Data.List.Sort
import Scaffold.Extraction.Registry
import Scaffold.Proofs.Results

namespace Scaffold

/-! ### Values by key -/

/-- Texts are ordered as lists of characters are. -/
theorem Text.precedes_iff_lt {first second : Text} :
    first.precedes second = true ↔ first < second := by
  induction first generalizing second with
  | nil =>
    cases second with
    | nil => exact iff_of_false (by decide) (List.not_lt_nil [])
    | cons char rest => exact iff_of_true rfl (List.nil_lt_cons char rest)
  | cons char rest ih =>
    cases second with
    | nil => exact iff_of_false (by simp [precedes]) (List.not_lt_nil _)
    | cons other more =>
      rw [precedes, List.cons_lt_cons_iff]
      by_cases same : char = other
      · subst same
        rw [if_pos rfl, ih]
        exact ⟨fun later => Or.inr ⟨rfl, later⟩,
          fun either => (either.resolve_left (Char.lt_irrefl char)).2⟩
      · rw [if_neg same, decide_eq_true_iff]
        exact ⟨Or.inl, fun either => either.resolve_right fun both => same both.1⟩

namespace Keyed

variable {α : Type} {entries others : Keyed α}

/-- With ascending keys, an entry is what the look-up of its key gives. -/
theorem mem_iff_get? (sorted : Sorted entries) {entry : Text × α} :
    entry ∈ entries ↔ get? entry.1 entries = some entry.2 := by
  induction entries with
  | nil => exact iff_of_false List.not_mem_nil nofun
  | cons head rest ih =>
    obtain ⟨key, value⟩ := head
    obtain ⟨above, later⟩ := List.pairwise_cons.mp sorted
    rw [List.mem_cons, get?, ih later]
    by_cases same : entry.1 = key
    · rw [if_pos same, Option.some.injEq]
      have absent : get? entry.1 rest ≠ some entry.2 := by
        intro found
        have before := above entry ((ih later).mpr found)
        rw [same, Text.precedes_irrefl] at before
        cases before
      constructor
      · rintro (rfl | found)
        · rfl
        · exact absurd found absent
      · intro value
        exact Or.inl (Prod.ext same value.symm)
    · rw [if_neg same]
      exact ⟨fun either => either.resolve_left fun here => same (congrArg Prod.fst here), Or.inr⟩

/-- **Ascending entries** are determined by their look-ups. -/
theorem eq_of_get? (sorted : Sorted entries) (sortedOthers : Sorted others)
    (same : ∀ key, get? key entries = get? key others) : entries = others := by
  have irreflexive : Std.Irrefl fun first second : Text × α => first.1.precedes second.1 = true :=
    ⟨fun entry => by simp [Text.precedes_irrefl]⟩
  have antisymmetric :
      Std.Antisymm fun first second : Text × α => first.1.precedes second.1 = true :=
    ⟨fun first second forth back => by
      have round := Text.precedes_trans forth back
      rw [Text.precedes_irrefl] at round
      cases round⟩
  refine sorted.eq_of_mem_iff sortedOthers fun entry => ?_
  rw [mem_iff_get? sorted, mem_iff_get? sortedOthers, same]

end Keyed

/-! ### Families -/

namespace KeywordFamily

variable {keyword : Text} {family : KeywordFamily}

/-- The keyword starts as those of the family do, and no longer start fits. -/
def IsLongest (keyword : Text) (family : KeywordFamily) : Prop :=
  ∃ start, (start, family) ∈ starts ∧ start <+: keyword ∧
    ∀ other ∈ starts, other.1 <+: keyword → other.1.length ≤ start.length

/-- A start that begins another one comes after it. -/
theorem pairwise_starts : starts.Pairwise fun first second => ¬ first.1 <+: second.1 := by
  decide

/-- Starts of one length that begin the same keyword belong to one family. -/
theorem eq_of_starts {first second : Text × KeywordFamily} (member : first ∈ starts)
    (memberSecond : second ∈ starts) (leads : first.1 <+: keyword)
    (leadsSecond : second.1 <+: keyword) (length : first.1.length = second.1.length) :
    first.2 = second.2 := by
  have same : first.1 = second.1 :=
    (List.prefix_of_prefix_length_le leads leadsSecond length.le).eq_of_length length
  have distinct : ∀ first ∈ starts, ∀ second ∈ starts, first.1 = second.1 → first.2 = second.2 := by
    decide
  exact distinct first member second memberSecond same

/-- **The family of a keyword** is that of the longest start that fits. -/
theorem ofKeyword?_eq_some_iff : ofKeyword? keyword = some family ↔ IsLongest keyword family := by
  have longest {start : Text × KeywordFamily}
      (found : starts.find? (fun start => start.1.isPrefixOf keyword) = some start) :
      start ∈ starts ∧ start.1 <+: keyword ∧
        ∀ other ∈ starts, other.1 <+: keyword → other.1.length ≤ start.1.length := by
    obtain ⟨fits, before, after, split, passed⟩ := List.find?_eq_some_iff_append.mp found
    have leads := List.isPrefixOf_iff_prefix.mp fits
    refine ⟨List.mem_of_find?_eq_some found, leads, fun other member leadsOther => ?_⟩
    have ordered := pairwise_starts
    rw [split] at member ordered
    rcases List.mem_append.mp member with earlier | here
    · have apart := passed other earlier
      rw [List.isPrefixOf_iff_prefix.mpr leadsOther] at apart
      cases apart
    rcases List.mem_cons.mp here with rfl | later
    · exact le_refl _
    · have apart := List.rel_of_pairwise_cons (List.pairwise_append.mp ordered).2.1 later
      have inside := (List.prefix_or_prefix_of_prefix leads leadsOther).resolve_left apart
      exact inside.length_le
  rw [ofKeyword?, Option.map_eq_some_iff]
  constructor
  · rintro ⟨start, found, rfl⟩
    exact ⟨start.1, longest found⟩
  · rintro ⟨start, member, leads, greatest⟩
    have fits : ∃ start ∈ starts, start.1.isPrefixOf keyword = true :=
      ⟨(start, family), member, List.isPrefixOf_iff_prefix.mpr leads⟩
    obtain ⟨found, isFirst⟩ := Option.isSome_iff_exists.mp (List.find?_isSome.mpr fits)
    obtain ⟨memberFound, leadsFound, greatestFound⟩ := longest isFirst
    refine ⟨found, isFirst, eq_of_starts memberFound member leadsFound leads ?_⟩
    exact le_antisymm (greatest found memberFound leadsFound)
      (greatestFound (start, family) member leads)

theorem exists_ofKeyword?_iff :
    (∃ family, ofKeyword? keyword = some family) ↔ ∃ start ∈ starts, start.1 <+: keyword := by
  rw [← Option.isSome_iff_exists, ofKeyword?, Option.isSome_map, List.find?_isSome]
  simp only [List.isPrefixOf_iff_prefix]

end KeywordFamily

/-! ### Single keywords -/

namespace MacroRegistry

variable {keyword other : Text} {keywords others : List Text} {type : MacroType}
  {problem : KeywordProblem} {registry result : MacroRegistry}

/-- An identifier that starts as the keywords of some family do. -/
def IsKeyword (keyword : Text) : Prop :=
  Text.isIdentifier keyword = true ∧ ∃ start ∈ KeywordFamily.starts, start.1 <+: keyword

instance (keyword : Text) : Decidable (IsKeyword keyword) := inferInstanceAs (Decidable (_ ∧ _))

/-- What is wrong with a keyword that cannot be registered. -/
inductive Refuses : Text → KeywordProblem → Prop
  | notIdentifier {keyword : Text} (noWord : Text.isIdentifier keyword = false) :
      Refuses keyword (.notIdentifier keyword)
  | unknownShape {keyword : Text} (isWord : Text.isIdentifier keyword = true)
      (noFamily : ∀ start ∈ KeywordFamily.starts, ¬ start.1 <+: keyword) :
      Refuses keyword (.unknownShape keyword)

theorem exists_ofKeyword?_iff : (∃ type, MacroType.ofKeyword? keyword = some type) ↔
    ∃ start ∈ KeywordFamily.starts, start.1 <+: keyword := by
  rw [← KeywordFamily.exists_ofKeyword?_iff, ← Option.isSome_iff_exists,
    ← Option.isSome_iff_exists, MacroType.ofKeyword?, Option.isSome_map]

theorem classify_eq_ok_iff : classify keyword = .ok type ↔
    Text.isIdentifier keyword = true ∧ MacroType.ofKeyword? keyword = some type := by
  unfold classify
  split
  · rename_i isWord
    cases MacroType.ofKeyword? keyword <;> simp [isWord]
  · rename_i noWord
    exact iff_of_false nofun fun both => noWord both.1

theorem exists_classify_iff : (∃ type, classify keyword = .ok type) ↔ IsKeyword keyword := by
  simp only [classify_eq_ok_iff, exists_and_left, exists_ofKeyword?_iff, IsKeyword]

theorem classify_eq_error_iff : classify keyword = .error problem ↔ Refuses keyword problem := by
  have absent : MacroType.ofKeyword? keyword = none ↔
      ∀ start ∈ KeywordFamily.starts, ¬ start.1 <+: keyword := by
    rw [← not_iff_not, ← ne_eq, Option.ne_none_iff_exists', exists_ofKeyword?_iff]
    push Not
    rfl
  unfold classify
  split
  · rename_i isWord
    cases found : MacroType.ofKeyword? keyword with
    | none =>
      constructor
      · rintro ⟨⟩
        exact .unknownShape isWord (absent.mp found)
      · rintro (noWord | _)
        · rw [isWord] at noWord
          cases noWord
        · rfl
    | some type =>
      refine iff_of_false nofun ?_
      rintro (noWord | ⟨-, noFamily⟩)
      · rw [isWord] at noWord
        cases noWord
      · rw [absent.mpr noFamily] at found
        cases found
  · rename_i noWord
    constructor
    · rintro ⟨⟩
      exact .notIdentifier (Bool.eq_false_iff.mpr noWord)
    · rintro (_ | isWord)
      · rfl
      · exact absurd isWord noWord

/-! ### Lists of keywords -/

/-- Registries with the same look-ups are equal. -/
theorem eq_of_lookup (same : ∀ keyword, registry.lookup keyword = result.lookup keyword) :
    registry = result := by
  obtain ⟨entries, sorted⟩ := registry
  obtain ⟨others, sortedOthers⟩ := result
  have equal : entries = others := Keyed.eq_of_get? sorted sortedOthers same
  subst equal
  rfl

theorem insertAll_cons (classified : classify keyword.trim = .ok type) :
    registry.insertAll (keyword :: keywords) =
      (registry.insert keyword.trim type).insertAll keywords := by
  rw [insertAll, classified]

/-- **Keywords can be registered** if each of them can. -/
theorem exists_insertAll_iff : (∃ result, registry.insertAll keywords = .ok result) ↔
    ∀ keyword ∈ keywords, IsKeyword keyword.trim := by
  induction keywords generalizing registry with
  | nil => exact iff_of_true ⟨registry, rfl⟩ nofun
  | cons keyword rest ih =>
    rw [List.forall_mem_cons, ← exists_classify_iff]
    cases classified : classify keyword.trim with
    | error problem =>
      rw [insertAll, classified]
      exact iff_of_false nofun fun both => nomatch both.1
    | ok type =>
      rw [insertAll_cons classified, ih]
      exact (and_iff_right ⟨type, rfl⟩).symm

/-- The first of the texts that fail is the head, or the first behind it. -/
theorem exists_first_cons_iff {holds fails : Text → Prop} {first : Text} {rest : List Text} :
    (∃ before keyword after, first :: rest = before ++ keyword :: after ∧
      (∀ earlier ∈ before, holds earlier) ∧ fails keyword) ↔
    fails first ∨ holds first ∧ ∃ before keyword after, rest = before ++ keyword :: after ∧
      (∀ earlier ∈ before, holds earlier) ∧ fails keyword := by
  constructor
  · rintro ⟨before, keyword, after, split, earlier, failing⟩
    cases before with
    | nil =>
      obtain ⟨rfl, -⟩ := List.cons.inj split
      exact Or.inl failing
    | cons other before =>
      obtain ⟨rfl, rfl⟩ := List.cons.inj split
      obtain ⟨holding, later⟩ := List.forall_mem_cons.mp earlier
      exact Or.inr ⟨holding, before, keyword, after, rfl, later, failing⟩
  · rintro (failing | ⟨holding, before, keyword, after, rfl, earlier, failing⟩)
    · exact ⟨[], first, rest, rfl, nofun, failing⟩
    · exact ⟨first :: before, keyword, after, rfl, List.forall_mem_cons.mpr ⟨holding, earlier⟩,
        failing⟩

/-- **The complaint** is the one about the first keyword that cannot be registered. -/
theorem insertAll_eq_error_iff : registry.insertAll keywords = .error problem ↔
    ∃ before keyword after, keywords = before ++ keyword :: after ∧
      (∀ earlier ∈ before, IsKeyword earlier.trim) ∧ Refuses keyword.trim problem := by
  induction keywords generalizing registry with
  | nil =>
    refine iff_of_false nofun ?_
    rintro ⟨before, keyword, after, split, -⟩
    cases (List.append_eq_nil_iff.mp split.symm).2
  | cons first rest ih =>
    rw [exists_first_cons_iff, ← classify_eq_error_iff, ← exists_classify_iff]
    cases classified : classify first.trim with
    | error found =>
      rw [insertAll, classified]
      simp
    | ok type =>
      rw [insertAll_cons classified, ih]
      simp

/-- **Look-ups** after keywords are added: those of the list have the types that they name. -/
theorem lookup_of_insertAll (done : registry.insertAll keywords = .ok result) (keyword : Text) :
    result.lookup keyword = if keyword ∈ keywords.map Text.trim then
      MacroType.ofKeyword? keyword else registry.lookup keyword := by
  induction keywords generalizing registry with
  | nil =>
    cases done
    rfl
  | cons first rest ih =>
    cases classified : classify first.trim with
    | error problem =>
      rw [insertAll, classified] at done
      cases done
    | ok type =>
      rw [insertAll_cons classified] at done
      rw [ih done, lookup, insert, Keyed.get?_insert]
      simp only [List.map_cons, List.mem_cons]
      by_cases later : keyword ∈ rest.map Text.trim
      · rw [if_pos later, if_pos (Or.inr later)]
      by_cases here : keyword = first.trim
      · rw [if_neg later, if_pos here, if_pos (Or.inl here), here]
        exact (classify_eq_ok_iff.mp classified).2.symm
      · rw [if_neg later, if_neg here, if_neg (not_or.mpr ⟨here, later⟩)]
        rfl

theorem lookup_of_ofKeywords (done : ofKeywords keywords = .ok result) (keyword : Text) :
    result.lookup keyword =
      if keyword ∈ keywords.map Text.trim then MacroType.ofKeyword? keyword else none :=
  lookup_of_insertAll done keyword

/-- A list with the same keywords, in any order and as often as may be, gives the same registry. -/
theorem ofKeywords_eq_of_mem_iff (done : ofKeywords keywords = .ok result)
    (same : ∀ keyword, keyword ∈ others.map Text.trim ↔ keyword ∈ keywords.map Text.trim) :
    ofKeywords others = .ok result := by
  have all : ∀ keyword ∈ others, IsKeyword keyword.trim := by
    intro keyword member
    obtain ⟨first, among, trimmed⟩ :=
      List.mem_map.mp ((same keyword.trim).mp (List.mem_map_of_mem member))
    rw [← trimmed]
    exact exists_insertAll_iff.mp ⟨result, done⟩ first among
  obtain ⟨other, doneOther⟩ := exists_insertAll_iff.mpr all
  have equal : other = result := eq_of_lookup fun keyword => by
    rw [lookup_of_ofKeywords doneOther, lookup_of_ofKeywords done]
    simp only [same]
  rw [ofKeywords, doneOther, equal]

/-- **A registry is determined by its set of keywords.** There is one if each keyword is an
identifier of a known family, and else the first other one is complained about. Its look-ups give
the types of the trimmed keywords, whose family is that of the longest start, and nothing for any
other word; its entries are these, with strictly ascending keywords; and every list with the same
keywords gives it. -/
theorem ofKeywords_determined (keywords : List Text) :
    ((∃ registry, ofKeywords keywords = .ok registry) ↔
        ∀ keyword ∈ keywords, IsKeyword keyword.trim) ∧
      (∀ problem, ofKeywords keywords = .error problem ↔
        ∃ before keyword after, keywords = before ++ keyword :: after ∧
          (∀ earlier ∈ before, IsKeyword earlier.trim) ∧ Refuses keyword.trim problem) ∧
      ∀ registry, ofKeywords keywords = .ok registry →
        (∀ keyword, registry.lookup keyword =
          if keyword ∈ keywords.map Text.trim then MacroType.ofKeyword? keyword else none) ∧
        (∀ keyword ∈ keywords.map Text.trim, ∃ family type,
          KeywordFamily.IsLongest keyword family ∧
          KeywordFamily.ofKeyword? keyword = some family ∧
          registry.lookup keyword = some type) ∧
        (∀ entry, entry ∈ registry.entries ↔ registry.lookup entry.1 = some entry.2) ∧
        (registry.entries.map Prod.fst).Pairwise (· < ·) ∧
        ∀ others, (∀ keyword, keyword ∈ others.map Text.trim ↔ keyword ∈ keywords.map Text.trim) →
          ofKeywords others = .ok registry := by
  refine ⟨exists_insertAll_iff, fun problem => insertAll_eq_error_iff, fun registry done => ?_⟩
  have looked := lookup_of_ofKeywords done
  refine ⟨looked, fun keyword among => ?_, fun entry => Keyed.mem_iff_get? registry.sorted, ?_,
    fun others same => ofKeywords_eq_of_mem_iff done same⟩
  · obtain ⟨first, member, rfl⟩ := List.mem_map.mp among
    have known := (exists_insertAll_iff.mp ⟨registry, done⟩ first member).2
    obtain ⟨family, found⟩ := KeywordFamily.exists_ofKeyword?_iff.mpr known
    obtain ⟨type, named⟩ := exists_ofKeyword?_iff.mpr known
    refine ⟨family, type, KeywordFamily.ofKeyword?_eq_some_iff.mp found, found, ?_⟩
    rw [looked, if_pos among, named]
  · rw [List.pairwise_map]
    exact registry.sorted.imp Text.precedes_iff_lt.mp

/-- Keywords of which one starts as those of two families do, with blanks, and once more in another
order and with one of them twice. -/
theorem ofKeywords_determined_twice : ∃ registry,
    ofKeywords [" ORDERED_MAP\t".toList, "GETSET_VALIDATE".toList, "MAP".toList] = .ok registry ∧
    ofKeywords ["MAP".toList, "GETSET_VALIDATE ".toList, "MAP".toList, "ORDERED_MAP".toList] =
      .ok registry ∧
    registry.lookup "ORDERED_MAP".toList = some .orderedMap ∧
    KeywordFamily.IsLongest "GETSET_VALIDATE".toList .getSet ∧
    registry.lookup "GET".toList = none ∧
    ofKeywords ["MAP".toList, "FROB".toList, "GET SET".toList] =
      .error (.unknownShape "FROB".toList) := by
  obtain ⟨exists_iff, -, determined⟩ := ofKeywords_determined
    [" ORDERED_MAP\t".toList, "GETSET_VALIDATE".toList, "MAP".toList]
  obtain ⟨registry, done⟩ := exists_iff.mpr (by decide)
  obtain ⟨looked, families, -, -, others⟩ := determined registry done
  refine ⟨registry, done, others _ ?_, ?_, ?_, ?_, ?_⟩
  · have forth : ∀ keyword ∈ ["MAP".toList, "GETSET_VALIDATE ".toList, "MAP".toList,
          "ORDERED_MAP".toList].map Text.trim,
        keyword ∈ [" ORDERED_MAP\t".toList, "GETSET_VALIDATE".toList, "MAP".toList].map
          Text.trim := by
      decide
    have back : ∀ keyword ∈ [" ORDERED_MAP\t".toList, "GETSET_VALIDATE".toList,
          "MAP".toList].map Text.trim,
        keyword ∈ ["MAP".toList, "GETSET_VALIDATE ".toList, "MAP".toList,
          "ORDERED_MAP".toList].map Text.trim := by
      decide
    exact fun keyword => ⟨forth keyword, back keyword⟩
  · rw [looked]
    decide
  · obtain ⟨family, type, longest, found, -⟩ := families "GETSET_VALIDATE".toList (by decide)
    have same : KeywordFamily.ofKeyword? "GETSET_VALIDATE".toList = some .getSet := by decide
    cases found.symm.trans same
    exact longest
  · rw [looked]
    decide
  · exact ((ofKeywords_determined _).2.1 _).mpr
      ⟨["MAP".toList], "FROB".toList, ["GET SET".toList], rfl, by decide,
        .unknownShape (by decide) (by decide)⟩

end MacroRegistry

end Scaffold
