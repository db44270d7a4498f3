/-
**Files as a program sees them.**

What the system answers about a path is whether anything stands there, whether that is a file, what
reading it gives, and what keeps it from being written. No answer follows from another: what is
there need not be readable, and what can be read need not be writable. The whole file system is a
function from paths to these answers.

A path without a directory of its own names an entry of the working directory. A path that ends in a
slash names no file: it cannot be read unless a directory stands there, and writing to it is refused
as writing to a directory.
-/

import Scaffold.Text.Utf8

namespace Scaffold

/-- What keeps a path from being read or written. -/
inductive Obstacle where
  | missing
  | forbidden
  | isDirectory
  | notDirectory
  | nameTooLong
  | notText
  | other (description : Text)
  deriving DecidableEq, Repr

/-- The wording of an obstacle. -/
def Obstacle.text : Obstacle → String
  | missing => "No such file or directory (os error 2)"
  | forbidden => "Permission denied (os error 13)"
  | isDirectory => "Is a directory (os error 21)"
  | notDirectory => "Not a directory (os error 20)"
  | nameTooLong => "File name too long (os error 36)"
  | notText => "stream did not contain valid UTF-8"
  | other description => description.string

/-- What the system answers about a path. -/
structure Entry where
  /-- Whether anything stands there. -/
  isPresent : Bool
  /-- Whether that is a file. -/
  isFile : Bool
  /-- The text that is read there, or why there is none. -/
  reading : Except Obstacle Text
  /-- Why nothing can be written there. -/
  writeObstacle? : Option Obstacle

/-- What stands at every path. -/
abbrev Files := Text → Entry

namespace Entry

/-- A file that holds a text. -/
def text (content : Text) : Entry := ⟨true, true, .ok content, none⟩

/-- A file that holds no text. -/
def garbled : Entry := ⟨true, true, .error .notText, none⟩

/-- Nothing; a file can be made there. -/
def absent : Entry := ⟨false, false, .error .missing, none⟩

/-- A directory. -/
def directory : Entry := ⟨true, false, .error .isDirectory, some .isDirectory⟩

/-- Nothing, and no file can be made there. -/
def blocked (reading writing : Obstacle) : Entry := ⟨false, false, .error reading, some writing⟩

/-- The file that holds these bytes. -/
def ofBytes (bytes : List UInt8) : Entry :=
  match Text.decode? bytes with
  | some content => text content
  | none => garbled

end Entry

namespace Files

/-- The parts of a path between slashes, without those that lead nowhere. -/
def parts (path : Text) : List Text :=
  (path.splitOn '/').filter fun part => part != [] && part != ['.']

/-- A path, read from its end, without the slashes and the parts that lead nowhere there. -/
def dropIdle : (backward : Text) → Text
  | '/' :: rest => dropIdle rest
  | '.' :: '/' :: rest => dropIdle rest
  | kept => kept

/-- The path with an ending added to the name it leads to, if it leads to one. -/
def withEnding? (ending path : Text) : Option Text :=
  match (parts path).getLast? with
  | none => none
  | some name =>
    if name = ['.', '.'] then none else some ((dropIdle path.reverse).reverse ++ ending)

/-- The greatest number of bytes of a name. -/
def greatestName : Nat := 255

/-- The greatest number of bytes of a path. -/
def greatestPath : Nat := 4095

/-- What stands at the end of a way through directories, given by its parts. `at?` gives the files
of the working directory; `inside` says whether the way is still there and not above it, where
nothing is known to stand. -/
def lookUp (at? : Text → Option Entry) : (inside : Bool) → List Text → Entry
  | _, [] => .directory
  | inside, name :: rest =>
    if name = [] ∨ name = ['.'] then lookUp at? inside rest
    else if name = ['.', '.'] then lookUp at? false rest
    else
      let found? := if inside then at? name else none
      let isLong := greatestName < name.size
      let obstacle : Obstacle :=
        if isLong then .nameTooLong else if found?.isSome then .notDirectory else .missing
      if rest.isEmpty then
        if isLong then .blocked obstacle obstacle else found?.getD .absent
      else .blocked obstacle (if rest.all List.isEmpty then .isDirectory else obstacle)

/-- A working directory that holds files and no directories. -/
def ofDirectory (entries : List (Text × Entry)) : Files := fun path =>
  let at? (name : Text) : Option Entry :=
    (entries.find? fun entry => entry.1 == name).map Prod.snd
  if greatestPath < path.size then .blocked .nameTooLong .nameTooLong
  else lookUp at? (path.head? != some '/') (path.splitOn '/')

/-- The files with a text written at a path, which is seen there under the same spelling. -/
def write (files : Files) (path content : Text) : Files := fun other =>
  if other = path then .text content else files other

end Files

end Scaffold
