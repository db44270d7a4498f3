/-
Levels of log output, from the most to the least severe, with their names and the level a count of
`-v` flags asks for.
-/

import Scaffold.Text.Basic

namespace Scaffold

/-- How severe an event is. -/
inductive LogLevel where
  | error
  | warn
  | info
  | debug
  | trace
  deriving DecidableEq, Repr

namespace LogLevel

/-- The level in force when none is asked for. -/
def standard : LogLevel := warn

/-- How much output a level lets through, starting at zero for the least. -/
def rank : LogLevel → Nat
  | error => 0
  | warn => 1
  | info => 2
  | debug => 3
  | trace => 4

/-- The name a level is written with. -/
def name : LogLevel → String
  | error => "error"
  | warn => "warn"
  | info => "info"
  | debug => "debug"
  | trace => "trace"

/-- The level a word names, in any letter case. No character outside ASCII has one of the letters
used here as its lower case, so ASCII folding decides. -/
def ofName? (word : Text) : Option LogLevel :=
  let folded := (Text.lowerAscii word).string
  if folded = "trace" then some trace
  else if folded = "debug" then some debug
  else if folded = "info" then some info
  else if folded = "warn" ∨ folded = "warning" then some warn
  else if folded = "error" then some error
  else none

/-- The level that a number of `-v` flags asks for. -/
def ofVerbosity : Nat → LogLevel
  | 0 => warn
  | 1 => info
  | 2 => debug
  | _ => trace

/-- Whether one level lets more through than another. -/
def exceeds (first second : LogLevel) : Bool := second.rank < first.rank

end LogLevel

end Scaffold
