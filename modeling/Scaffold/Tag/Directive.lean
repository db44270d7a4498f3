/-
**What the attributes of tags ask for.**

Two attributes steer what happens to a file and to its regions: `sync` for merging a fresh version
into it, `gen` for keeping a section of it up to date. The two never interfere. A value that is not
known counts as absent.
-/

import Scaffold.Named
import Scaffold.Tag.Parser

namespace Scaffold

/-- How a whole file is merged with a fresh version. -/
inductive SyncMode where
  | full
  | demand
  | skip
  | force
  deriving DecidableEq, Repr

instance : Named SyncMode where
  all := [.full, .demand, .skip, .force]
  name
    | .full => "Full"
    | .demand => "Demand"
    | .skip => "Skip"
    | .force => "Force"

/-- What a merge does with a region. -/
inductive RegionSync where
  | reserve
  | replace
  deriving DecidableEq, Repr

instance : Named RegionSync where
  all := [.reserve, .replace]
  name
    | .reserve => "Reserve"
    | .replace => "Replace"

/-- Whether a file's sections are kept up to date. -/
inductive GenMode where
  | force
  | demand
  | skip
  deriving DecidableEq, Repr

instance : Named GenMode where
  all := [.force, .demand, .skip]
  name
    | .force => "Force"
    | .demand => "Demand"
    | .skip => "Skip"

/-- The mark of a section that belongs to the generator. -/
inductive RegionGen where
  | replace
  deriving DecidableEq, Repr

instance : Named RegionGen where
  all := [.replace]
  name
    | .replace => "Replace"

namespace Tag

/-- The delimiter in force when none is given. -/
def standardDelimiter : Text := "//".toList

/-- The attribute that steers merging. -/
def syncKey : Text := "sync".toList

/-- The attribute that steers sections. -/
def genKey : Text := "gen".toList

/-- The first value of an attribute that is known, among the open markers of a text. -/
def firstValue? (α : Type) [Named α] (key delimiter text : Text) : Option α :=
  (openMarkers delimiter text).findSome? fun marker => (marker.2.get? key).bind Named.ofWord?

/-- How a file says it is to be merged. -/
def fileSyncMode? (delimiter text : Text) : Option SyncMode :=
  firstValue? SyncMode syncKey delimiter text

/-- Whether a file says its sections are to be kept up to date. -/
def fileGenMode? (delimiter text : Text) : Option GenMode :=
  firstValue? GenMode genKey delimiter text

/-- What a tag says a merge does with its region. -/
def regionSync? (tag : Tag) : Option RegionSync :=
  (tag.attributes.get? syncKey).bind Named.ofWord?

/-- Whether a tag is marked as a section that belongs to the generator. -/
def isMachineOwned (tag : Tag) : Bool :=
  ((tag.attributes.get? genKey).bind Named.ofWord? : Option RegionGen) == some .replace

end Tag

/-- A tag to be written. -/
structure Directive where
  name : Text
  attributes : Tag.Attributes
  deriving DecidableEq

namespace Directive

/-- A tag of this name without attributes. -/
def named (name : Text) : Directive := ⟨name, .empty⟩

/-- The tag with one more attribute; one that is there already stays as it is. -/
def withAttribute (directive : Directive) (key value : Text) : Directive :=
  { directive with attributes := directive.attributes.insert key value }

/-- The line that opens the tag. -/
def openMarker (directive : Directive) (delimiter : Text) : Text :=
  let attributes :=
    if directive.attributes.entries = [] then [] else ' ' :: directive.attributes.text
  delimiter ++ '<' :: directive.name ++ attributes ++ ['>', '\n']

/-- The line that closes the tag. -/
def closeMarker (directive : Directive) (delimiter : Text) : Text :=
  delimiter ++ '<' :: '/' :: directive.name ++ ['>', '\n']

/-- The tag around a content, whose last line is completed. -/
def wrap (directive : Directive) (content delimiter : Text) : Text :=
  directive.openMarker delimiter ++ content.closeLine ++ directive.closeMarker delimiter

end Directive

end Scaffold
