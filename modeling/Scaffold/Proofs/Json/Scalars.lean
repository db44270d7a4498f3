/-
**How far the reader of a scalar looks.**

The words, the strings and the numbers of JSON are read up to their ends, whatever stands behind
them:

* `isLocal_stringBody`: the rest of a string, up to its quote;
* `isLocal_scalar`: all scalars; what they take has no bracket outside of a literal.
-/

import Scaffold.Proofs.Extraction.Closed
import Scaffold.Proofs.Json.Numerals

namespace Scaffold.Json

open Excerpt (Nesting)

variable {α : Type}

/-! ### Words and strings -/

theorem word_eq_ok_iff {expected text rest : Text} :
    word expected text = .ok rest ↔ text = expected ++ rest := by
  induction expected generalizing text with
  | nil => exact ⟨fun same => Except.ok.inj same, fun same => congrArg Except.ok same⟩
  | cons char expected ih =>
    cases text with
    | nil => constructor <;> intro impossible <;> cases impossible
    | cons next text =>
      rw [word, List.cons_append, List.cons.injEq]
      split
      · rename_i same
        rw [ih, eq_comm, and_iff_right same.symm, eq_comm]
      · rename_i different
        constructor
        · intro impossible
          cases impossible
        · intro both
          exact absurd both.1.symm different

theorem isLocal_word (expected : Text) (item : α) :
    IsLocal (· = expected) fun text => (word expected text).map fun after => (item, after) := by
  intro text value rest found
  obtain ⟨after, read, same⟩ := map_eq_ok_iff.mp found
  obtain ⟨rfl, rfl⟩ := Prod.mk.inj same
  refine ⟨expected, word_eq_ok_iff.mp read, rfl, fun other _ => ?_⟩
  exact map_eq_ok_iff.mpr ⟨other, word_eq_ok_iff.mpr rfl, rfl⟩

/-- The text may stand anywhere in a string. -/
def IsInner (taken : Text) : Prop :=
  ∀ body, Text.QuotedFrom '"' body → Text.QuotedFrom '"' (taken ++ body)

/-- The text may stand in a string after a backslash. -/
def IsEscape (taken : Text) : Prop := IsInner ('\\' :: taken)

theorem IsInner.append {first second : Text} (inner : IsInner first) (next : IsInner second) :
    IsInner (first ++ second) := by
  intro body quoted
  rw [List.append_assoc]
  exact inner _ (next body quoted)

theorem isInner_nil : IsInner [] := fun _ quoted => quoted

theorem isInner_of_isSome_hexValue? {char : Char} (hex : (hexValue? char).isSome = true) :
    IsInner [char] := by
  intro body quoted
  refine .char ?_ ?_ quoted
  · rintro rfl
    revert hex
    decide
  · rintro rfl
    revert hex
    decide

theorem isEscape_cons (char : Char) {taken : Text} (inner : IsInner taken) :
    IsEscape (char :: taken) := fun body quoted => .escaped char (inner body quoted)

theorem isLocal_hexUnit : IsLocal IsInner hexUnit := by
  intro text unit rest found
  unfold hexUnit at found
  split at found
  · rename_i first second third fourth after
    split at found
    · rename_i a b c d firstHex secondHex thirdHex fourthHex
      cases found
      refine ⟨[first, second, third, fourth], rfl, ?_, fun other _ => ?_⟩
      · have inner : ∀ {char : Char} {value : Nat}, hexValue? char = some value →
            IsInner [char] := fun hex => isInner_of_isSome_hexValue? (by rw [hex]; rfl)
        exact (inner firstHex).append ((inner secondHex).append
          ((inner thirdHex).append (inner fourthHex)))
      · simp only [hexUnit, List.cons_append, List.nil_append, firstHex, secondHex, thirdHex,
          fourthHex]
    · cases found
  · split at found <;> cases found

/-- The second half of a character that is written as two surrogates. -/
def lowSurrogate (unit : Nat) : Reader Char
  | [] => stopBefore .unfinishedString []
  | 'u' :: more => hexUnit more >>= fun read =>
    if read.1 < 0xDC00 ∨ 0xDFFF < read.1 then stopBefore .loneSurrogate read.2
    else .ok (Char.ofNat (0x10000 + (unit - 0xD800) * 0x400 + (read.1 - 0xDC00)), read.2)
  | other => stopIn .unfinishedSurrogatePair other

/-- What an escape with these hexadecimal digits stands for. -/
def unicodeEnd (unit : Nat) (text : Text) : Except Stop (Char × Text) :=
  if 0xDC00 ≤ unit ∧ unit ≤ 0xDFFF then stopBefore .loneSurrogate text
  else if unit < 0xD800 ∨ 0xDBFF < unit then .ok (Char.ofNat unit, text)
  else match text with
    | [] => stopBefore .unfinishedString []
    | '\\' :: rest => lowSurrogate unit rest
    | other => stopIn .unfinishedSurrogatePair other

theorem unicodeEscape_eq (text : Text) :
    unicodeEscape text = hexUnit text >>= fun read => unicodeEnd read.1 read.2 := by
  unfold unicodeEscape
  congr 1
  funext ⟨unit, rest⟩
  unfold unicodeEnd
  dsimp only
  split
  · rfl
  · split
    · rfl
    · split
      case h_4 other nothing noU =>
        show _ = lowSurrogate unit other
        unfold lowSurrogate
        split
        · exact absurd rfl nothing
        · exact absurd rfl (noU _)
        · rfl
      case h_5 other nothing alone noU noSlash =>
        split
        · exact absurd rfl nothing
        · exact absurd rfl (noSlash _)
        · rfl
      all_goals rfl

theorem isLocal_lowSurrogate (unit : Nat) : IsLocal IsEscape (lowSurrogate unit) := by
  refine .of_head fun head => ?_
  by_cases isU : head = some 'u'
  · rw [isU]
    have ends : ∀ low, IsLocal IsInner fun rest =>
        if low < 0xDC00 ∨ 0xDFFF < low then stopBefore .loneSurrogate rest
        else .ok (Char.ofNat (0x10000 + (unit - 0xD800) * 0x400 + (low - 0xDC00)), rest) := by
      intro low
      by_cases lone : low < 0xDC00 ∨ 0xDFFF < low
      · simp only [lone, if_true]
        exact .stop fun rest => ⟨.loneSurrogate, rest.size⟩
      · simp only [lone, if_false]
        exact .stay isInner_nil _
    exact .past (isLocal_hexUnit.bind ends IsInner.append) (fun _ => isEscape_cons 'u')
      fun rest => rfl
  · refine .fail fun text starts => ?_
    unfold lowSurrogate
    split
    · exact ⟨_, rfl⟩
    · exact absurd starts.symm isU
    · exact ⟨_, rfl⟩

theorem isLocal_unicodeEscape : IsLocal IsInner unicodeEscape := by
  rw [funext unicodeEscape_eq]
  refine isLocal_hexUnit.bind (fun unit => ?_) IsInner.append
  unfold unicodeEnd
  by_cases low : 0xDC00 ≤ unit ∧ unit ≤ 0xDFFF
  · simp only [low]
    exact .stop fun rest => ⟨.loneSurrogate, rest.size⟩
  by_cases whole : unit < 0xD800 ∨ 0xDBFF < unit
  · simp only [low, if_false, whole, if_true]
    exact .stay isInner_nil _
  · simp only [low, if_false, whole]
    refine .of_head fun head => ?_
    by_cases slash : head = some '\\'
    · rw [slash]
      exact .past (isLocal_lowSurrogate unit) (fun _ inner => inner) fun rest => rfl
    · refine .fail fun text starts => ?_
      split
      · exact ⟨_, rfl⟩
      · exact absurd starts.symm slash
      · exact ⟨_, rfl⟩

theorem isLocal_escape : IsLocal IsEscape escape := by
  refine .of_head fun head => ?_
  by_cases isU : head = some 'u'
  · rw [isU]
    exact .past isLocal_unicodeEscape (fun _ => isEscape_cons 'u') fun rest => rfl
  · rintro text rfl item rest found
    unfold escape at found
    split at found
    case h_1 | h_11 => cases found
    case h_10 => exact absurd rfl isU
    all_goals
      cases found
      exact ⟨[_], rfl, isEscape_cons _ isInner_nil, fun _ _ => rfl⟩

theorem stringBody_of_escape {text after : Text} {char : Char}
    (escaped : escape text = .ok (char, after)) :
    stringBody ('\\' :: text) = (stringBody after).map fun body => (char :: body.1, body.2) := by
  rw [stringBody]
  split
  · rename_i failed
    rw [escaped] at failed
    cases failed
  · rename_i found
    rw [escaped] at found
    cases found
    rfl

theorem stringBody_cons {char : Char} (noQuote : char ≠ '"') (noSlash : char ≠ '\\')
    (visible : ¬ char.toNat < 0x20) (rest : Text) :
    stringBody (char :: rest) = (stringBody rest).map fun body => (char :: body.1, body.2) := by
  rw [stringBody, if_neg visible]
  · exact noQuote
  · exact noSlash

/-- Plain characters of a string are read as they are. -/
theorem stringBody_append {text : Text}
    (plain : ∀ char ∈ text, char ≠ '"' ∧ char ≠ '\\' ∧ ¬ char.toNat < 0x20) (rest : Text) :
    stringBody (text ++ rest) = (stringBody rest).map fun body => (text ++ body.1, body.2) := by
  induction text with
  | nil =>
    rw [List.nil_append]
    cases stringBody rest <;> rfl
  | cons char text ih =>
    obtain ⟨⟨noQuote, noSlash, visible⟩, others⟩ := List.forall_mem_cons.mp plain
    rw [List.cons_append, stringBody_cons noQuote noSlash visible, ih others]
    cases stringBody rest <;> rfl

/-- **The rest of a string is local**, and it ends with the quote that ends it. -/
theorem isLocal_stringBody : IsLocal (Text.QuotedFrom '"') stringBody := by
  intro text body rest found
  fun_induction stringBody text generalizing body with
  | case1 | case3 | case5 => cases found
  | case2 after =>
    cases found
    refine ⟨['"'], rfl, .ended, fun other _ => ?_⟩
    rw [List.singleton_append, stringBody]
  | case4 text char after escaped shorter ih =>
    obtain ⟨⟨later, last⟩, read, same⟩ := map_eq_ok_iff.mp found
    obtain ⟨rfl, rfl⟩ := Prod.mk.inj same
    obtain ⟨taken, rfl, quoted, again⟩ := ih _ read
    obtain ⟨first, rfl, isEscape, againEscape⟩ := isLocal_escape text char _ escaped
    refine ⟨'\\' :: (first ++ taken), ?_, isEscape taken quoted, fun other follows => ?_⟩
    · rw [List.cons_append, List.append_assoc]
    · have one := againEscape (taken ++ other) (head?_append_of_head? follows)
      rw [List.cons_append, List.append_assoc, stringBody_of_escape one, again other follows]
      rfl
  | case6 char text noQuote noSlash visible ih =>
    obtain ⟨⟨later, last⟩, read, same⟩ := map_eq_ok_iff.mp found
    obtain ⟨rfl, rfl⟩ := Prod.mk.inj same
    obtain ⟨taken, rfl, quoted, again⟩ := ih _ read
    refine ⟨char :: taken, rfl, .char noQuote noSlash quoted, fun other follows => ?_⟩
    rw [List.cons_append, stringBody_cons noQuote noSlash visible, again other follows]
    rfl

/-! ### Scalars -/

theorem isNeutral_of_isNumeric {taken : Text} (numeric : IsNumeric taken) :
    Nesting.IsNeutral ['"'] taken := by
  refine Nesting.isNeutral_of_forall fun char member => ?_
  have numeral := numeric char member
  have apart : ∀ other, isNumeral other = false → char ≠ other := by
    rintro other none rfl
    exact Bool.false_ne_true (none.symm.trans numeral)
  refine ⟨by simpa using apart '"' rfl, ?_, ?_⟩
  · unfold Excerpt.closerOf?
    split
    · exact absurd rfl (apart '(' rfl)
    · exact absurd rfl (apart '\x7b' rfl)
    · exact absurd rfl (apart '[' rfl)
    · rfl
  · simp [Nesting.closerMarks, apart ')' rfl, apart ']' rfl, apart '\x7d' rfl]

theorem scalar_cons {first : Char} (rest : Text) (other : first ∉ ['n', 't', 'f', '"', '-']) :
    scalar (first :: rest) =
      if first.isDigit then (numeral false (first :: rest)).map fun read =>
        (.number read.1, read.2)
      else stopIn .missingValue (first :: rest) := by
  simp only [List.mem_cons, List.not_mem_nil, or_false, not_or] at other
  unfold scalar
  split
  case h_7 same =>
    cases same
    rfl
  all_goals
    rename_i same
    cases same
  all_goals simp at other

/-- **Scalars are local**, and a scan for the end of a group passes them. -/
theorem isLocal_scalar : IsLocal (Nesting.IsNeutral ['"']) scalar := by
  refine .of_head fun head => ?_
  by_cases isN : head = some 'n'
  · rw [isN]
    refine .past (isLocal_word "ull".toList Json.null) ?_ fun rest => rfl
    rintro _ rfl
    exact Nesting.isNeutral_of_forall (List.forall_iff_forall_mem.mp (by decide))
  by_cases isT : head = some 't'
  · rw [isT]
    refine .past (isLocal_word "rue".toList (Json.bool true)) ?_ fun rest => rfl
    rintro _ rfl
    exact Nesting.isNeutral_of_forall (List.forall_iff_forall_mem.mp (by decide))
  by_cases isF : head = some 'f'
  · rw [isF]
    refine .past (isLocal_word "alse".toList (Json.bool false)) ?_ fun rest => rfl
    rintro _ rfl
    exact Nesting.isNeutral_of_forall (List.forall_iff_forall_mem.mp (by decide))
  by_cases isQuote : head = some '"'
  · rw [isQuote]
    exact .past (isLocal_stringBody.map Json.string)
      (fun _ => Nesting.isNeutral_literal List.mem_cons_self (by decide)) fun rest => rfl
  by_cases isMinus : head = some '-'
  · rw [isMinus]
    exact .past ((isLocal_numeral true).map Json.number)
      (fun _ numeric => isNeutral_of_isNumeric (numeric.cons (by decide))) fun rest => rfl
  cases head with
  | none =>
    refine .fail fun text nothing => ?_
    rw [List.head?_eq_none_iff.mp nothing]
    exact ⟨_, rfl⟩
  | some first =>
    have other : first ∉ ['n', 't', 'f', '"', '-'] := by
      simp only [Option.some.injEq] at isN isT isF isQuote isMinus
      simp [isN, isT, isF, isQuote, isMinus]
    by_cases digit : first.isDigit = true
    · refine .of_isLocal (((isLocal_numeral false).mono fun _ => isNeutral_of_isNumeric).map
        Json.number) fun text starts => ?_
      obtain ⟨rest, rfl⟩ := List.head?_eq_some_iff.mp starts
      rw [scalar_cons rest other, if_pos digit]
    · refine .fail fun text starts => ?_
      obtain ⟨rest, rfl⟩ := List.head?_eq_some_iff.mp starts
      rw [scalar_cons rest other, if_neg digit]
      exact ⟨_, rfl⟩

end Scaffold.Json
