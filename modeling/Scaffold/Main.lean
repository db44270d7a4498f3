/-
**The command line.**

The operating system answers the requests of a run as they come. Log lines and complaints go to
standard error.
-/

import Scaffold.CommandLine.Run

namespace Scaffold.CommandLine

/-- What a failure to read or write a path says about it. -/
def obstacleOfError : IO.Error → Obstacle
  | .noFileOrDirectory .. => .missing
  | .permissionDenied .. => .forbidden
  | .inappropriateType _ 21 _ => .isDirectory
  | .inappropriateType .. => .notDirectory
  | .invalidArgument _ 36 _ => .nameTooLong
  | failure => .other (toString failure).toList

/-- Whether something stands at a path, and what kind of thing it is. -/
def kindAt? (path : Text) : IO (Option IO.FS.FileType) := do
  try
    let place ← IO.FS.realPath path.string
    return some (← place.metadata).type
  catch _ => return none

/-- The operating system. -/
def system : (request : Request) → IO request.Answer
  | .isPresent path => return (← kindAt? path).isSome
  | .isFile path => return (← kindAt? path) == some .file
  | .read path => do
    try
      match Text.decode? (← IO.FS.readBinFile path.string).toList with
      | some content => return .ok content
      | none => return .error .notText
    catch failure => return .error (obstacleOfError failure)
  | .write path content => do
    try
      IO.FS.writeFile path.string content.string
      return none
    catch failure => return some (obstacleOfError failure)
  | .print text => IO.print text.string
  | .complain text => IO.eprint text.string
  | .log event =>
    let fields := event.fields.map fun field => " " ++ field.1 ++ "=" ++ field.2.string
    IO.eprintln (event.level.name ++ " " ++ event.message ++ "".intercalate fields)

end Scaffold.CommandLine

/-- The program. -/
def main (arguments : List String) : IO UInt32 :=
  (Scaffold.CommandLine.start (arguments.map String.toList)).perform Scaffold.CommandLine.system
