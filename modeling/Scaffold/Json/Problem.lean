/-
What can be wrong with a JSON literal, and how a message says so. The place is a line and a column
inside the literal; the column counts the bytes read of that line, the offending one included.
-/

import Scaffold.Location

namespace Scaffold.Json

/-- What is wrong with a JSON literal. -/
inductive Problem where
  | unfinishedList
  | unfinishedObject
  | unfinishedString
  | unfinishedValue
  | missingColon
  | missingListDelimiter
  | missingObjectDelimiter
  | wrongWord
  | missingValue
  | invalidEscape
  | invalidNumber
  | numberOutOfRange
  | keyNotString
  | controlCharacter
  | loneSurrogate
  | trailingComma
  | trailingCharacters
  | unfinishedSurrogatePair
  | nestedTooDeep
  deriving DecidableEq, Repr

/-- The wording of a problem. -/
def Problem.text : Problem → String
  | unfinishedList => "EOF while parsing a list"
  | unfinishedObject => "EOF while parsing an object"
  | unfinishedString => "EOF while parsing a string"
  | unfinishedValue => "EOF while parsing a value"
  | missingColon => "expected `:`"
  | missingListDelimiter => "expected `,` or `]`"
  | missingObjectDelimiter => "expected `,` or `\x7d`"
  | wrongWord => "expected ident"
  | missingValue => "expected value"
  | invalidEscape => "invalid escape"
  | invalidNumber => "invalid number"
  | numberOutOfRange => "number out of range"
  | keyNotString => "key must be a string"
  | controlCharacter => "control character (\\u0000-\\u001F) found while parsing a string"
  | loneSurrogate => "lone leading surrogate in hex escape"
  | trailingComma => "trailing comma"
  | trailingCharacters => "trailing characters"
  | unfinishedSurrogatePair => "unexpected end of hex escape"
  | nestedTooDeep => "recursion limit exceeded"

/-- A problem and its place in the literal. -/
structure Failure where
  problem : Problem
  line : Nat
  column : Nat
  deriving DecidableEq, Repr

namespace Failure

/-- The failure after so many bytes of a literal. -/
def after (literal : Text) (consumed : Nat) (problem : Problem) : Failure :=
  let reached := (lineStarts literal).filter (· ≤ consumed)
  ⟨problem, reached.length, consumed - reached.getLastD 0⟩

/-- A failure as messages show it. -/
def text (failure : Failure) : String :=
  failure.problem.text ++ " at line " ++ toString failure.line ++ " column " ++
    toString failure.column

end Failure

end Scaffold.Json
