/-
**Texts as YAML scalars.**

A text with a line feed is written as a literal block. Any other text is written plainly if it
would be read back as the same text; else between single quotes, in which a quote is doubled; and
where a character has no written form there, between double quotes with escapes.

A text is not written plainly if it reads as a null, a boolean or a number, or if its characters
would be taken as structure.
-/

import Scaffold.Decimal.Numeral
import Scaffold.Text.Basic

namespace Scaffold.Yaml

/-! ### Words that read as something else -/

/-- The words for null, true and false. -/
def reservedWords : List String :=
  ["~", "null", "Null", "NULL", "true", "True", "TRUE", "false", "False", "FALSE"]

/-- The words for the numbers that no numeral writes. -/
def numberWords : List String :=
  [".inf", ".Inf", ".INF", "+.inf", "+.Inf", "+.INF", "-.inf", "-.Inf", "-.INF",
    ".nan", ".NaN", ".NAN"]

/-- The value of a digit in any base up to sixteen. -/
def digitValue (char : Char) : Nat :=
  if char.isDigit then char.toNat - '0'.toNat
  else if 'a' ≤ char ∧ char ≤ 'f' then char.toNat - 'a'.toNat + 10
  else if 'A' ≤ char ∧ char ≤ 'F' then char.toNat - 'A'.toNat + 10
  else 16

/-- Whether a text is a row of digits of a base whose value is at most `limit`. -/
def isBelow (base limit : Nat) (digits : Text) : Bool :=
  !digits.isEmpty && digits.all (fun digit => digitValue digit < base) &&
    digits.foldl (fun value digit => value * base + digitValue digit) 0 ≤ limit

/-- The base that a lead before digits stands for. -/
def baseOf? : Text → Option (Nat × Text)
  | '0' :: 'x' :: digits => some (16, digits)
  | '0' :: 'o' :: digits => some (8, digits)
  | '0' :: 'b' :: digits => some (2, digits)
  | _ => none

/-- Whether a text reads as a whole number in a base other than ten. Such numbers are words of 128
bits; the limit of those with a minus is that of two's complement. -/
def isBasedInteger (text : Text) : Bool :=
  let below (limit : Nat) (unsigned : Text) : Bool :=
    match baseOf? unsigned with
    | some (base, digits) => isBelow base limit digits
    | none => false
  match text with
  | '-' :: unsigned => below (Nat.pow 2 127) unsigned
  | '+' :: unsigned => below (Nat.pow 2 128 - 1) unsigned
  | unsigned => below (Nat.pow 2 128 - 1) unsigned

/-- Whether a text is digits with a zero in front, which no number is written with. -/
def hasLeadingZero (text : Text) : Bool :=
  match (Numeral.readSign text).2 with
  | '0' :: rest => Numeral.isDigits rest
  | _ => false

/-- Whether a text reads as a number in base ten. One beyond the doubles does not. -/
def isNumeral (text : Text) : Bool := ((Numeral.ofText? text).bind Numeral.toBinary64?).isSome

/-- Whether a text without quotes would not be read as a text. -/
def readsOtherwise (text : Text) : Bool :=
  text.isEmpty || (reservedWords ++ numberWords).contains text.string || isBasedInteger text ||
    hasLeadingZero text || isNumeral text

/-! ### What the characters allow -/

/-- The line breaks: line feed, carriage return, next line, and the separators of lines and of
paragraphs. -/
def isBreak (char : Char) : Bool :=
  char == '\n' || char == '\r' || char == '\x85' || char == '\u2028' || char == '\u2029'

/-- The characters that separate an indicator from what follows. -/
def isSeparating (char : Char) : Bool := char == ' ' || char == '\t' || isBreak char

/-- The characters that need no escape. -/
def isPrintable (char : Char) : Bool :=
  let code := char.toNat
  char == '\n' || (0x20 ≤ code && code ≤ 0x7E) ||
    (0xA0 ≤ code && code ≤ 0xFFFD && code != 0xFEFF) || 0x10000 ≤ code

/-- Whether a character of one kind is directly followed by one of another. -/
def hasPair (first second : Char → Bool) : Text → Bool
  | char :: next :: rest => (first char && second next) || hasPair first second (next :: rest)
  | _ => false

/-- Whether a text ends or goes on with a separating character. -/
def isSeparated : Text → Bool
  | [] => true
  | char :: _ => isSeparating char

/-- The characters that no plain scalar starts with. -/
def isIndicator (char : Char) : Bool := "#,[]\x7b\x7d&*!|>'\"%@`".toList.contains char

/-- Whether a colon ends a word. -/
def hasMappingColon : Text → Bool
  | [] => false
  | char :: rest => (char == ':' && isSeparated rest) || hasMappingColon rest

/-- Whether a text would be taken as structure where it starts. -/
def startsStructure : Text → Bool
  | '-' :: '-' :: '-' :: _ => true
  | '.' :: '.' :: '.' :: _ => true
  | char :: rest => isIndicator char || ((char == '?' || char == '-') && isSeparated rest)
  | [] => false

/-- Whether a text would be taken as structure or as having a comment. -/
def hasStructure (text : Text) : Bool :=
  startsStructure text || hasMappingColon text ||
    hasPair isSeparating (fun char => char == '#') text

/-- Whether a text starts or ends with a character of a kind. -/
def isEnclosedBy (kind : Char → Bool) (text : Text) : Bool :=
  text.head?.any kind || text.getLast?.any kind

/-- The one blank that is written inside a scalar. -/
def isSpace (char : Char) : Bool := char == ' '

/-- Whether every character has a written form outside double quotes. -/
def isWritable (text : Text) : Bool := text.all isPrintable && !hasPair isSpace isBreak text

/-- Whether a text can stand between single quotes. -/
def allowsQuotes (text : Text) : Bool := isWritable text && !hasPair isBreak isSpace text

/-- Whether a text can stand without quotes. -/
def allowsPlain (text : Text) : Bool :=
  isWritable text && !text.any isBreak && !isEnclosedBy isSpace text && !hasStructure text

/-- Whether a text can stand as a literal block. -/
def allowsBlock (text : Text) : Bool := isWritable text && !text.getLast?.any isSpace

/-! ### Styles -/

/-- The ways to write a text. -/
inductive Style where
  | plain
  | singleQuoted
  | doubleQuoted
  | literal
  deriving DecidableEq, Repr

/-- How a text is written. -/
def Style.of (text : Text) : Style :=
  if text.any (fun char => char == '\n') then if allowsBlock text then literal else doubleQuoted
  else if !readsOtherwise text && allowsPlain text then plain
  else if allowsQuotes text then singleQuoted
  else doubleQuoted

/-- A number of spaces. -/
def spaces (count : Nat) : Text := List.replicate count ' '

/-- A text in which every line starts with `count` spaces and `write` gives the characters;
`fresh` says whether a line starts here. Lines without characters stay empty. -/
def indentLines (count : Nat) (write : Char → Text) : (fresh : Bool) → Text → Text
  | _, [] => []
  | fresh, char :: rest =>
    if isBreak char then char :: indentLines count write true rest
    else (if fresh then spaces count else []) ++ write char ++ indentLines count write false rest

/-- Between single quotes a quote is doubled, and a text that ends in a line break is followed by
the indentation of the next line. -/
def singleQuoted (count : Nat) (text : Text) : Text :=
  let double (char : Char) : Text := if char = '\'' then ['\'', '\''] else [char]
  '\'' :: indentLines count double false text ++
    (if text.getLast?.any isBreak then spaces count else []) ++ ['\'']

/-- The hexadecimal digit of a value below sixteen. -/
def hexDigit (value : Nat) : Char := (Nat.digitChar value).toUpper

/-- A number in hexadecimal digits, as many as asked for. -/
def hexDigits : (width number : Nat) → Text
  | 0, _ => []
  | width + 1, number => hexDigits width (number / 16) ++ [hexDigit (number % 16)]

/-- The letter that escapes a character, if it has one. -/
def escapeLetter? (char : Char) : Option Char :=
  match char.toNat with
  | 0x00 => some '0'
  | 0x07 => some 'a'
  | 0x08 => some 'b'
  | 0x09 => some 't'
  | 0x0A => some 'n'
  | 0x0B => some 'v'
  | 0x0C => some 'f'
  | 0x0D => some 'r'
  | 0x1B => some 'e'
  | 0x22 => some '"'
  | 0x5C => some '\\'
  | 0x85 => some 'N'
  | 0x2028 => some 'L'
  | 0x2029 => some 'P'
  | _ => none

/-- One character between double quotes. -/
def escapeChar (char : Char) : Text :=
  match escapeLetter? char with
  | some letter => ['\\', letter]
  | none =>
    if isPrintable char then [char]
    else if char.toNat ≤ 0xFF then '\\' :: 'x' :: hexDigits 2 char.toNat
    else '\\' :: 'u' :: hexDigits 4 char.toNat

/-- Between double quotes everything has a written form. -/
def doubleQuoted (text : Text) : Text := '"' :: text.flatMap escapeChar ++ ['"']

/-- What stands after the bar of a literal block: the depth of the block if its first line does not
show it, and what happens to the line breaks at the end. Two or more are kept, one is the usual
case, none is stripped. -/
def blockHints (text : Text) : Text :=
  let depth := if text.head?.any fun char => isSpace char || isBreak char then ['2'] else []
  let breaks := text.reverse.takeWhile isBreak
  let ending :=
    if breaks = [] then ['-']
    else if 1 < breaks.length ∨ breaks.length = text.length then ['+']
    else []
  depth ++ ending

/-- A text as a scalar and the line break after it; a literal block brings its own if the text ends
in one. Lines that a scalar spans are indented by `count` spaces. -/
def scalarLine (count : Nat) (text : Text) : Text :=
  match Style.of text with
  | .plain => text ++ ['\n']
  | .singleQuoted => singleQuoted count text ++ ['\n']
  | .doubleQuoted => doubleQuoted text ++ ['\n']
  | .literal =>
    '|' :: blockHints text ++ '\n' :: indentLines count (fun char => [char]) true text ++
      (if text.getLast?.any isBreak then [] else ['\n'])

end Scaffold.Yaml
