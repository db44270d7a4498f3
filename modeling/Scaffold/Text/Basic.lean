/-
**Text as characters, measured in bytes.**

A text is the list of its characters. Offsets are numbers of UTF-8 bytes, so a text has a size
(`Text.size`) that concatenation adds up, and a text can be cut at an offset (`Text.cut`):

* `cut_append`: the two parts of a cut are the text;
* `cut_size`: a cut at the size of a leading part gives that part back;
* `lines_flatten`: the lines of a text, line feeds included, are the text;
* `splitAtFirst_append`: a search splits a text without losing any of it;
* `trimStart_append`, `trimEnd_append`: trimming removes blanks at the ends and nothing else, where
  blank means the Unicode property `White_Space`;
* `identifier_append`: reading an identifier loses nothing.
-/

namespace Scaffold

/-- A text is the list of its characters. -/
abbrev Text := List Char

namespace Text

/-- The text as a string, for output. -/
def string (text : Text) : String := String.ofList text

/-- The number of bytes of the UTF-8 encoding. -/
def size : Text → Nat
  | [] => 0
  | char :: rest => char.utf8Size + size rest

@[simp] theorem size_nil : size [] = 0 := rfl

@[simp] theorem size_cons (char : Char) (rest : Text) :
    size (char :: rest) = char.utf8Size + size rest := rfl

@[simp] theorem size_append (first second : Text) :
    size (first ++ second) = size first + size second := by
  induction first with
  | nil => simp
  | cons char rest ih => simp [ih, Nat.add_assoc]

theorem size_pos {text : Text} (filled : text ≠ []) : 0 < size text := by
  cases text with
  | nil => exact absurd rfl filled
  | cons char rest => have := char.utf8Size_pos; simp only [size_cons]; omega

theorem size_eq_zero {text : Text} : size text = 0 ↔ text = [] := by
  constructor
  · intro zero
    apply Decidable.byContradiction
    intro filled
    have := size_pos filled
    omega
  · rintro rfl
    rfl

/-- What follows `lead` at the front of a text, if the text starts with it. -/
def after? : (text lead : Text) → Option Text
  | text, [] => some text
  | [], _ :: _ => none
  | char :: rest, expected :: lead => if char = expected then after? rest lead else none

@[simp] theorem after?_append (lead rest : Text) : after? (lead ++ rest) lead = some rest := by
  induction lead with
  | nil => cases rest <;> rfl
  | cons char lead ih => simp [after?, ih]

theorem after?_eq_some {text lead rest : Text} :
    after? text lead = some rest ↔ text = lead ++ rest := by
  constructor
  · intro found
    induction lead generalizing text with
    | nil => simpa [after?] using found
    | cons expected lead ih =>
        cases text with
        | nil => simp [after?] at found
        | cons char text =>
            simp only [after?] at found
            split at found
            · rename_i same
              rw [ih found, same]
              rfl
            · exact absurd found (by simp)
  · rintro rfl
    exact after?_append lead rest

/-- What precedes `trail` at the end of a text, if the text ends with it. -/
def before? (text trail : Text) : Option Text :=
  (after? text.reverse trail.reverse).map List.reverse

theorem before?_eq_some {text trail lead : Text} :
    before? text trail = some lead ↔ text = lead ++ trail := by
  simp only [before?, Option.map_eq_some_iff, after?_eq_some]
  constructor
  · rintro ⟨backward, same, rfl⟩
    have := congrArg List.reverse same
    simpa using this
  · rintro rfl
    exact ⟨lead.reverse, by simp, by simp⟩

/-- The text without its longest end of characters that satisfy `drop`. -/
def dropEndWhile (drop : Char → Bool) (text : Text) : Text :=
  (text.reverse.dropWhile drop).reverse

/-- The text before the first occurrence of `needle`, and the text from there on. Without an
occurrence the first part is the whole text. -/
def splitAtFirst : (text needle : Text) → Text × Text
  | [], _ => ([], [])
  | char :: rest, needle =>
    if needle.isPrefixOf (char :: rest) then ([], char :: rest)
    else
      let parts := splitAtFirst rest needle
      (char :: parts.1, parts.2)

theorem splitAtFirst_append (text needle : Text) :
    (splitAtFirst text needle).1 ++ (splitAtFirst text needle).2 = text := by
  induction text with
  | nil => rfl
  | cons char rest ih =>
      simp only [splitAtFirst]
      split
      · rfl
      · simp [ih]

/-- The part of a text before a byte offset and the part from it on. An offset inside a
character counts as the start of that character, one past the end as the end. -/
def cut : Text → Nat → Text × Text
  | [], _ => ([], [])
  | char :: rest, offset =>
    if char.utf8Size ≤ offset then
      let parts := cut rest (offset - char.utf8Size)
      (char :: parts.1, parts.2)
    else ([], char :: rest)

theorem cut_append (text : Text) (offset : Nat) :
    (cut text offset).1 ++ (cut text offset).2 = text := by
  induction text generalizing offset with
  | nil => rfl
  | cons char rest ih =>
      simp only [cut]
      split
      · simp [ih]
      · rfl

theorem cut_size_le (text : Text) (offset : Nat) : size (cut text offset).1 ≤ offset := by
  induction text generalizing offset with
  | nil => simp [cut]
  | cons char rest ih =>
      simp only [cut]
      split
      · rename_i fits
        have := ih (offset - char.utf8Size)
        simp only [size_cons]
        omega
      · simp

/-- Cutting where a leading part ends gives that part back. -/
theorem cut_size (lead rest : Text) : cut (lead ++ rest) (size lead) = (lead, rest) := by
  induction lead with
  | nil =>
      cases rest with
      | nil => rfl
      | cons char rest =>
          have := char.utf8Size_pos
          simp only [List.nil_append, size_nil, cut]
          rw [if_neg (by omega)]
  | cons char lead ih =>
      simp only [List.cons_append, size_cons, cut]
      rw [if_pos (by omega), Nat.add_sub_cancel_left, ih]

/-- The lines of a text, each with its line feed; the last line may lack one. -/
def lines : Text → List Text
  | [] => []
  | char :: rest =>
    if char = '\n' then [char] :: lines rest
    else match lines rest with
      | [] => [[char]]
      | line :: later => (char :: line) :: later

theorem lines_flatten (text : Text) : (lines text).flatten = text := by
  induction text with
  | nil => rfl
  | cons char rest ih =>
      simp only [lines]
      split
      · simp [ih]
      · split <;> rename_i parts <;> rw [parts] at ih <;> simp_all

/-- A text as one or more complete lines: a line feed is added where the last line lacks one. -/
def closeLine (text : Text) : Text :=
  if text = [] ∨ text.getLast? = some '\n' then text else text ++ ['\n']

/-- Whether `part` occurs in a text. -/
def contains : (text part : Text) → Bool
  | [], part => part.isEmpty
  | char :: rest, part => part.isPrefixOf (char :: rest) || contains rest part

/-- The text from `skip` characters on, with `replacement` for every occurrence of `needle`. -/
def replaceFrom (needle replacement : Text) : (skip : Nat) → Text → Text
  | 0, [] => if needle = [] then replacement else []
  | _ + 1, [] => []
  | 0, char :: rest =>
    if needle = [] then replacement ++ char :: replaceFrom needle replacement 0 rest
    else if needle.isPrefixOf (char :: rest) then
      replacement ++ replaceFrom needle replacement (needle.length - 1) rest
    else char :: replaceFrom needle replacement 0 rest
  | skip + 1, _ :: rest => replaceFrom needle replacement skip rest

/-- The text with `replacement` for every occurrence of `needle`, from the left and without
overlaps. An empty needle occurs before every character and at the end. -/
def replace (text needle replacement : Text) : Text := replaceFrom needle replacement 0 text

/-- The texts one after the other with `separator` between them. -/
def join (separator : Text) (parts : List Text) : Text := separator.intercalate parts

/-- Lower case of an ASCII letter; any other character is itself. -/
def lowerAscii (text : Text) : Text := text.map Char.toLower

/-! ### Blanks -/

/-- The characters with the Unicode property `White_Space`. -/
def isBlank (char : Char) : Bool :=
  let code := char.toNat
  (0x09 ≤ code && code ≤ 0x0D) || code == 0x20 || code == 0x85 || code == 0xA0 ||
    code == 0x1680 || (0x2000 ≤ code && code ≤ 0x200A) || code == 0x2028 || code == 0x2029 ||
    code == 0x202F || code == 0x205F || code == 0x3000

/-- Spaces and tabs, the only blanks a marker line may hold. -/
def isInlineBlank (char : Char) : Bool := char == ' ' || char == '\t'

/-- The text without blanks at its start. -/
def trimStart (text : Text) : Text := text.dropWhile isBlank

/-- The text without blanks at its end. -/
def trimEnd (text : Text) : Text := text.dropEndWhile isBlank

/-- The text without blanks at its ends. -/
def trim (text : Text) : Text := trimEnd (trimStart text)

theorem trimStart_append (text : Text) : text.takeWhile isBlank ++ trimStart text = text :=
  List.takeWhile_append_dropWhile

theorem trimEnd_append (text : Text) :
    trimEnd text ++ (text.reverse.takeWhile isBlank).reverse = text := by
  rw [trimEnd, dropEndWhile, ← List.reverse_append, List.takeWhile_append_dropWhile,
    List.reverse_reverse]

/-! ### Identifiers -/

/-- A character that can start an identifier. -/
def startsIdentifier (char : Char) : Bool := char.isAlpha || char == '_'

/-- A character that can continue an identifier. -/
def continuesIdentifier (char : Char) : Bool := char.isAlphanum || char == '_'

/-- The identifier at the front of a text and what follows it; the first part is empty when the
text does not start with one. -/
def identifier : Text → Text × Text
  | [] => ([], [])
  | char :: rest =>
    if startsIdentifier char then
      (char :: rest.takeWhile continuesIdentifier, rest.dropWhile continuesIdentifier)
    else ([], char :: rest)

theorem identifier_append (text : Text) : (identifier text).1 ++ (identifier text).2 = text := by
  cases text with
  | nil => rfl
  | cons char rest =>
      simp only [identifier]
      split
      · simp [List.takeWhile_append_dropWhile]
      · rfl

/-- Whether the whole text is one identifier. -/
def isIdentifier : Text → Bool
  | [] => false
  | char :: rest => startsIdentifier char && rest.all continuesIdentifier

/-! ### Ranges of code points -/

/-- Whether a character's code point lies in one of the ranges, ends included. -/
def inRanges (ranges : List (Nat × Nat)) (char : Char) : Bool :=
  ranges.any fun range => range.1 ≤ char.toNat && char.toNat ≤ range.2

end Text

end Scaffold
