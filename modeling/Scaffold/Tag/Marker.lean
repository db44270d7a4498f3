/-
**Marker lines.**

A marker takes a whole line: spaces and tabs, the comment delimiter, spaces and tabs, and then a
tag. An open marker is `<name key="value" …>`, with at least one attribute, or the same ending in
`/>`, which has no content. A close marker is `</name>`. Every other line is text. A line with an
attribute key that comes twice is a defect at the second key.
-/

import Scaffold.Excerpt.Basic
import Scaffold.Fault
import Scaffold.Tag.Attributes
import Scaffold.Tag.Name

namespace Scaffold.Tag

/-- What a line turns out to be if it is no text. -/
inductive Marker where
  | opening (name : Text) (attributes : Attributes) (selfClosing : Bool)
  | closing (name : Text)
  deriving DecidableEq

/-- An attribute as it is written, with the offset of its key. -/
structure Pair where
  key : Text
  value : Text
  offset : Nat
  deriving DecidableEq, Repr

/-- The text without spaces and tabs at its start. -/
def skipInline (text : Text) : Text := text.dropWhile Text.isInlineBlank

/-- Whether nothing but spaces and tabs and a line end is left. -/
def isLineEnd (text : Text) : Bool :=
  match skipInline text with
  | [] => true
  | ['\n'] => true
  | ['\r'] => true
  | ['\r', '\n'] => true
  | _ => false

/-- The text after a character that has to come next. -/
def expect? (char : Char) : Text → Option Text
  | [] => none
  | first :: rest => if first = char then some rest else none

/-- A character that can stand in the value of an attribute. -/
def isValueChar (char : Char) : Bool := char != '"' && char != '\n'

/-- The attribute at the front of a text, after at least one space or tab, and the text after it.
The text starts at `offset`. -/
def readPair? (offset : Nat) (text : Text) : Option (Pair × Text) :=
  let blanks := text.takeWhile Text.isInlineBlank
  if blanks = [] then none
  else do
    let (key, keyed) ← readWord? continuesKey (skipInline text)
    let assigned ← expect? '=' (skipInline keyed)
    let quoted ← expect? '"' (skipInline assigned)
    let rest ← expect? '"' (quoted.dropWhile isValueChar)
    return (⟨key, quoted.takeWhile isValueChar, offset + Text.size blanks⟩, rest)

theorem skipInline_length (text : Text) : (skipInline text).length ≤ text.length :=
  (List.dropWhile_sublist _).length_le

theorem expect?_shorter {char : Char} {text rest : Text} (found : expect? char text = some rest) :
    rest.length < text.length := by
  cases text with
  | nil => simp [expect?] at found
  | cons first after =>
      simp only [expect?] at found
      split at found
      · simp only [Option.some.injEq] at found
        rw [← found]
        simp
      · simp at found

theorem readPair?_shorter {offset : Nat} {text rest : Text} {pair : Pair}
    (found : readPair? offset text = some (pair, rest)) : rest.length < text.length := by
  unfold readPair? at found
  simp only at found
  split at found
  · simp at found
  · simp only [bind, Option.bind_eq_some_iff] at found
    obtain ⟨⟨key, keyed⟩, word, assigned, equals, quoted, opened, after, close, same⟩ := found
    have first := skipInline_length text
    have second := congrArg List.length (readWord?_append word)
    have third := skipInline_length keyed
    have fourth := expect?_shorter equals
    have fifth := skipInline_length assigned
    have sixth := expect?_shorter opened
    have seventh : (quoted.dropWhile isValueChar).length ≤ quoted.length :=
      (List.dropWhile_sublist _).length_le
    have eighth := expect?_shorter close
    simp only [pure, Option.some.injEq, Prod.mk.injEq] at same
    rw [← same.2]
    rw [List.length_append] at second
    simp only at third fourth
    omega

/-- The attributes at the front of a text, and the text after them. -/
def readPairs (offset : Nat) (text : Text) : List Pair × Text :=
  match found : readPair? offset text with
  | none => ([], text)
  | some (pair, rest) =>
    have := readPair?_shorter found
    let more := readPairs (offset + (text.size - rest.size)) rest
    (pair :: more.1, more.2)
  termination_by text.length

/-- An open tag as it is written. -/
structure Opening where
  name : Text
  pairs : List Pair
  selfClosing : Bool
  deriving DecidableEq, Repr

/-- The open tag that a text is as a whole; the text starts at `offset`. -/
def readOpening? (offset : Nat) (text : Text) : Option Opening := do
  let tagged ← expect? '<' (skipInline text)
  let (name, named) ← readName? tagged
  let (pairs, rest) := readPairs (offset + (text.size - named.size)) named
  if pairs = [] then none
  else
    let ending := skipInline rest
    match ending with
    | '/' :: '>' :: after => if isLineEnd after then return ⟨name, pairs, true⟩ else none
    | '>' :: after => if isLineEnd after then return ⟨name, pairs, false⟩ else none
    | _ => none

/-- The name of the close tag that a text is as a whole. -/
def readClosing? (text : Text) : Option Text := do
  let tagged ← expect? '<' (skipInline text)
  let slashed ← expect? '/' tagged
  let (name, named) ← readName? slashed
  let after ← expect? '>' (skipInline named)
  if isLineEnd after then return name else none

/-- The attributes that written pairs are, or the first pair whose key comes again. -/
def collect (attributes : Attributes) : List Pair → Except Defect Attributes
  | [] => .ok attributes
  | pair :: rest =>
    match attributes.insert? pair.key pair.value with
    | some more => collect more rest
    | none => .error ⟨.keyRepeated pair.key, pair.offset⟩

/-- The marker that a line is, if it is one. -/
def Marker.ofLine? (delimiter : Text) (line : Excerpt) : Except Defect (Option Marker) :=
  let indent := line.text.takeWhile Text.isInlineBlank
  match (skipInline line.text).after? delimiter with
  | none => .ok none
  | some rest =>
    match readOpening? (line.offset + Text.size indent + delimiter.size) rest with
    | some tag =>
      (collect .empty tag.pairs).map fun attributes =>
        some (.opening tag.name attributes tag.selfClosing)
    | none => .ok ((readClosing? rest).map Marker.closing)

end Scaffold.Tag
