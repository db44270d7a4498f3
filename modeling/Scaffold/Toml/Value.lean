/-
**TOML values.**

A word, which is a value without quotes and brackets, is a boolean, a number, a date or a time; a
date and a time with a blank between them are one value. Digits may be grouped by single
underscores. A whole number is a signed word of 64 bits. Arrays run over several lines, tables in
braces stand on one.
-/

import Scaffold.Decimal.Layout
import Scaffold.Toml.Moment
import Scaffold.Toml.Quoted

namespace Scaffold.Toml

/-- A value of a document. -/
inductive Value where
  | text (content : Text)
  | boolean (value : Bool)
  | integer (value : Int)
  | real (value : Quantity)
  /-- A date, a time or both, by its usual text. -/
  | moment (shown : Text)
  | list (items : List Value)
  | table (entries : List (Text × Value))

/-! ### Numbers -/

/-- Digits without the underscores between them; `after` says whether a digit precedes. -/
def ungroup? (isDigit : Char → Bool) : (after : Bool) → Text → Option Text
  | true, [] => some []
  | false, [] => none
  | after, char :: rest =>
    if char = '_' then if after then ungroup? isDigit false rest else none
    else if isDigit char then (ungroup? isDigit true rest).map (char :: ·)
    else none

/-- The digits of a decimal number: no zero in front of another digit. -/
def decimalDigits? (text : Text) : Option Text :=
  match text with
  | ['0'] => some text
  | '0' :: _ => none
  | other => ungroup? Char.isDigit false other

/-- The value of digits of a base. -/
def based? (base : Nat) (text : Text) : Option Int := do
  let belongs (char : Char) : Bool := (hexValue? char).any fun value => value < base
  let digits ← ungroup? belongs false text
  let value := digits.foldl (fun value digit => value * base + (hexValue? digit).getD 0) 0
  Numeral.signedWord? value

/-- The whole number that a word is. -/
def integer? : Text → Option Int
  | '0' :: 'x' :: digits => based? 16 digits
  | '0' :: 'o' :: digits => based? 8 digits
  | '0' :: 'b' :: digits => based? 2 digits
  | word => do
    let (negative, unsigned) := Numeral.readSign word
    let magnitude := Numeral.valueOf (← decimalDigits? unsigned)
    Numeral.signedWord? (if negative then -(magnitude : Int) else magnitude)

/-- Whether a text is the exponent of a number. -/
def isExponent : Text → Bool
  | mark :: rest =>
    (mark == 'e' || mark == 'E') && (ungroup? Char.isDigit false (Numeral.readSign rest).2).isSome
  | [] => false

/-- Whether a word is written like a number with a fraction or an exponent. -/
def isReal (word : Text) : Bool :=
  let continues (char : Char) : Bool := char.isDigit || char == '_'
  let unsigned := (Numeral.readSign word).2
  let wholeIsNumber := (decimalDigits? (unsigned.takeWhile continues)).isSome
  match unsigned.dropWhile continues with
  | '.' :: rest =>
    let ending := rest.dropWhile continues
    wholeIsNumber && (ungroup? Char.isDigit false (rest.takeWhile continues)).isSome &&
      (ending.isEmpty || isExponent ending)
  | ending => wholeIsNumber && isExponent ending

/-- The number with a fraction or an exponent that a word is. One below every double is infinite,
one above every double is refused. -/
def real? (word : Text) : Option Quantity :=
  let (negative, unsigned) := Numeral.readSign word
  if unsigned = "inf".toList then some (.infinity negative)
  else if unsigned = "nan".toList then some .undefined
  else if isReal word then
    match Numeral.ofText? (word.filter fun char => char != '_') with
    | none => none
    | some numeral =>
      match numeral.toBinary64? with
      | some value => some (.finite value)
      | none => if negative then some (.infinity true) else none
  else none

/-! ### Words -/

/-- A character of a word. -/
def isWordChar (char : Char) : Bool :=
  char.isAlphanum || char == '+' || char == '-' || char == '_' || char == '.' || char == ':'

/-- The value that a word is. -/
def wordValue? (word : Text) : Option Value :=
  if word = "true".toList then some (.boolean true)
  else if word = "false".toList then some (.boolean false)
  else match moment? word with
    | some moment => some (.moment moment)
    | none =>
      match integer? word with
      | some value => some (.integer value)
      | none => (real? word).map .real

/-- The word at the front of a text. A date takes the time after a single blank along. -/
def readWord : Reader Value := fun text =>
  let word := text.takeWhile isWordChar
  let rest := text.dropWhile isWordChar
  match date? word, rest with
  | some date, ' ' :: after =>
    match after.takeWhile isWordChar with
    | [] => some (.moment date, rest)
    | clock => do
      return (.moment (date ++ 'T' :: (← offsetTime? .strict clock)), after.dropWhile isWordChar)
  | _, _ => do return (← wordValue? word, rest)

/-! ### Keys -/

/-- A character of a key without quotes. -/
def isKeyChar (char : Char) : Bool := char.isAlphanum || char == '_' || char == '-'

/-- One key. -/
def readKey : Reader Text := fun text =>
  match quotedKey text with
  | some found => some found
  | none =>
    match text.takeWhile isKeyChar with
    | [] => none
    | key => some (key, text.dropWhile isKeyChar)

/-- The greatest number of keys in a path. -/
def greatestPath : Nat := 79

/-- Keys with points between them, at most `limit` of them. -/
def readPath : (limit : Nat) → Reader (List Text)
  | 0, _ => none
  | limit + 1, text => do
    let (key, rest) ← readKey text
    match skipBlanks rest with
    | '.' :: more =>
      let (path, rest) ← readPath limit (skipBlanks more)
      return (key :: path, rest)
    | after => return ([key], after)

/-- A path and the value that it gets. -/
structure Pair where
  path : List Text
  value : Value

/-- A pair; `value` reads its value. -/
def readPair (value : Reader Value) : Reader Pair := fun text => do
  let (path, rest) ← readPath greatestPath text
  match skipBlanks rest with
  | '=' :: rest =>
    let (value, rest) ← value (skipBlanks rest)
    return (⟨path, value⟩, rest)
  | _ => none

/-! ### Tables under construction -/

/-- How a table has come to be. -/
inductive Origin where
  /-- By a header of its own, or as the root. -/
  | header
  /-- By a header of a table inside it. -/
  | implied
  /-- By points in a key. -/
  | dotted
  deriving DecidableEq, Repr

/-- What a key holds while a document is put together. -/
inductive Node where
  | value (leaf : Value)
  | table (origin : Origin) (entries : List (Text × Node))
  /-- The tables of a row of headers: those before the last one, and the last one. -/
  | series (earlier : List Value) (entries : List (Text × Node))

/-- Keys with what they hold. -/
abbrev Nodes := List (Text × Node)

namespace Node

/-- What a key holds. -/
def find? (key : Text) : Nodes → Option Node
  | [] => none
  | (other, node) :: rest => if key = other then some node else find? key rest

/-- The entries with something else for a key. -/
def replace (key : Text) (node : Node) : Nodes → Nodes
  | [] => [(key, node)]
  | (other, old) :: rest =>
    if key = other then (key, node) :: rest else (other, old) :: replace key node rest

mutual

/-- The finished value of a node. -/
def toValue : Node → Value
  | value leaf => leaf
  | table _ entries => .table (toValues entries)
  | series earlier entries => .list (earlier ++ [.table (toValues entries)])

/-- The finished values of entries. -/
def toValues : Nodes → List (Text × Value)
  | [] => []
  | (key, node) :: rest => (key, node.toValue) :: toValues rest

end

/-- Entries after a change of the table that a path leads to; tables that are missing on the way
are made. A value is no table, and a path with points ends at tables that have a header. -/
def change (dotted : Bool) (edit : Origin → Nodes → Option Nodes) :
    (origin : Origin) → (path : List Text) → Nodes → Option Nodes
  | origin, [], entries => edit origin entries
  | _, key :: path, entries =>
    match find? key entries with
    | none => do
      let origin := if dotted then Origin.dotted else Origin.implied
      return replace key (.table origin (← change dotted edit origin path [])) entries
    | some (.table origin inner) =>
      if dotted && origin == .header then none
      else do return replace key (.table origin (← change dotted edit origin path inner)) entries
    | some (.series earlier inner) => do
      return replace key (.series earlier (← change dotted edit .header path inner)) entries
    | some (.value _) => none

/-- Entries with one more pair. A key comes once, and a pair whose path has points goes into tables
made that way only. -/
def addPair (pair : Pair) (entries : Nodes) : Option Nodes :=
  match pair.path.reverse with
  | [] => none
  | key :: lead =>
    let edit (origin : Origin) (inner : Nodes) : Option Nodes :=
      if (origin == .dotted) == lead.isEmpty then none
      else match find? key inner with
        | none => some (replace key (.value pair.value) inner)
        | some _ => none
    change true edit .header lead.reverse entries

/-- Entries with more pairs. -/
def addPairs (entries : Nodes) (pairs : List Pair) : Option Nodes :=
  pairs.foldlM (fun entries pair => addPair pair entries) entries

end Node

/-! ### Values -/

/-- The items of an array and its closing bracket. -/
def readItems (value : Reader Value) : (limit : Nat) → Reader (List Value)
  | 0, _ => none
  | limit + 1, text =>
    match skipLines false text with
    | ']' :: rest => some ([], rest)
    | start => do
      let (item, rest) ← value start
      match skipLines false rest with
      | ']' :: rest => return ([item], rest)
      | ',' :: rest =>
        let (items, rest) ← readItems value limit rest
        return (item :: items, rest)
      | _ => none

/-- The pairs of a table in braces, at least one, and its closing brace. -/
def readPairs (value : Reader Value) : (limit : Nat) → Reader (List Pair)
  | 0, _ => none
  | limit + 1, text => do
    let (pair, rest) ← readPair value (skipBlanks text)
    match skipBlanks rest with
    | '\x7d' :: rest => return ([pair], rest)
    | ',' :: rest =>
      let (pairs, rest) ← readPairs value limit rest
      return (pair :: pairs, rest)
    | _ => none

/-- A table in braces, after its opening brace. -/
def readInline (value : Reader Value) : Reader Value := fun text =>
  match skipBlanks text with
  | '\x7d' :: rest => some (.table [], rest)
  | start => do
    let (pairs, rest) ← readPairs value start.length start
    return (.table (Node.toValues (← Node.addPairs [] pairs)), rest)

/-- The value at the front of a text, in which arrays and tables in braces are nested at most
`depth` deep. -/
def readValue : (depth : Nat) → Reader Value
  | _, '"' :: rest => (quoted ('"' :: rest)).map fun found => (.text found.1, found.2)
  | _, '\'' :: rest => (quoted ('\'' :: rest)).map fun found => (.text found.1, found.2)
  | depth + 1, '[' :: rest =>
    (readItems (readValue depth) rest.length rest).map fun found => (.list found.1, found.2)
  | depth + 1, '\x7b' :: rest => readInline (readValue depth) rest
  | _, text => readWord text

end Scaffold.Toml
