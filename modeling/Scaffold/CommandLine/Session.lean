/-
**What a run asks of its host.**

A run is a session with its host: it is done, or it asks for one thing and goes on with the answer.
A host may answer in any monad (`Session.perform`); the operating system does in `IO`. Where the
files are known they give every answer, and what happens is a course: the value in the end, and each
request with its answer in order (`Session.course`). A write that is not refused leaves its text at
its path, and nothing else changes what is there (`Files.next`).
-/

import Scaffold.Event
import Scaffold.Files

namespace Scaffold

namespace CommandLine

/-- One thing that a run asks of its host. -/
inductive Request where
  | isPresent (path : Text)
  | isFile (path : Text)
  | read (path : Text)
  | write (path content : Text)
  | print (text : Text)
  /-- To print a text beside the output. -/
  | complain (text : Text)
  | log (event : Event)
  deriving DecidableEq, Repr

/-- What a request is answered with: a write with why it is refused, if it is. -/
abbrev Request.Answer : Request → Type
  | isPresent _ | isFile _ => Bool
  | read _ => Except Obstacle Text
  | write _ _ => Option Obstacle
  | print _ | complain _ | log _ => Unit

/-- A request and its answer. -/
structure Exchange where
  request : Request
  answer : request.Answer

namespace Exchange

/-- What the request printed. -/
def printed : Exchange → Text
  | ⟨.print text, _⟩ => text
  | _ => []

/-- What the request printed beside the output. -/
def complained : Exchange → Text
  | ⟨.complain text, _⟩ => text
  | _ => []

end Exchange

/-- A part of a run: done, or asking for something and going on with the answer. -/
inductive Session (α : Type) where
  | done (value : α)
  | ask (request : Request) (next : request.Answer → Session α)

/-- What came of a session: its value, and its exchanges in order. -/
structure Course (α : Type) where
  value : α
  exchanges : List Exchange

namespace Course

variable {α : Type}

/-- What was printed. -/
def output (course : Course α) : Text := course.exchanges.flatMap Exchange.printed

/-- What was printed beside the output. -/
def complaints (course : Course α) : Text := course.exchanges.flatMap Exchange.complained

/-- The course with exchanges before it. -/
def following (course : Course α) (before : List Exchange) : Course α :=
  ⟨course.value, before ++ course.exchanges⟩

end Course

end CommandLine

namespace Files

open CommandLine

/-- What files answer. -/
def answer (files : Files) : (request : Request) → request.Answer
  | .isPresent path => (files path).isPresent
  | .isFile path => (files path).isFile
  | .read path => (files path).reading
  | .write path _ => (files path).writeObstacle?
  | .print _ | .complain _ | .log _ => ()

/-- The files after a request is answered. -/
def next (files : Files) : Exchange → Files
  | ⟨.write path content, none⟩ => files.write path content
  | _ => files

/-- The files after exchanges. -/
def after (files : Files) (exchanges : List Exchange) : Files := exchanges.foldl next files

end Files

namespace CommandLine

/-- What answers requests. -/
abbrev Host (m : Type → Type) := (request : Request) → m request.Answer

namespace Session

variable {α β : Type}

/-- A session that goes on with the value of another. -/
def andThen : Session α → (α → Session β) → Session β
  | done value, following => following value
  | ask request next, following => ask request fun answer => (next answer).andThen following

instance : Monad Session where
  pure := done
  bind := andThen

/-- A single request. -/
def request : Host Session := fun request => ask request done

/-- The session without the events below a level. -/
def upTo (level : LogLevel) : Session α → Session α
  | done value => done value
  | ask (.log event) next =>
    if event.level.rank ≤ level.rank then ask (.log event) fun answer => (next answer).upTo level
    else (next ()).upTo level
  | ask request next => ask request fun answer => (next answer).upTo level

/-- The session with a host. -/
def perform {m : Type → Type} [Monad m] (host : Host m) : Session α → m α
  | done value => pure value
  | ask request next => do
    let answer ← host request
    (next answer).perform host

/-- The session over files that are known. -/
def course : Session α → Files → Course α
  | done value, _ => ⟨value, []⟩
  | ask request next, files =>
    let exchange : Exchange := ⟨request, files.answer request⟩
    ((next exchange.answer).course (files.next exchange)).following [exchange]

end Session

end CommandLine

end Scaffold
