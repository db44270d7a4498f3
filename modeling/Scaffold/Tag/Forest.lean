/-
**Texts as trees of tagged regions.**

A forest is a text cut into plain pieces and elements, and the inside of an element is a forest
again. An element keeps its marker lines as they are written, so rendering a forest gives back the
text it was read from. Elements are listed in document order, every one before those inside it.
-/

import Scaffold.Tag.Attributes

namespace Scaffold

/-- What is written on the marker lines of an element. -/
structure Tag where
  name : Text
  attributes : Tag.Attributes
  /-- The whole line of the open marker. -/
  openMarker : Text
  /-- The whole line of the close marker; empty if the open marker closes itself. -/
  closeMarker : Text
  /-- Where the open marker starts. -/
  offset : Nat
  deriving DecidableEq

namespace Tag

/-- Whether the tag has no close marker of its own. -/
def isSelfClosing (tag : Tag) : Bool := tag.closeMarker.isEmpty

/-- The tag around a text. -/
def around (tag : Tag) (inner : Text) : Text := tag.openMarker ++ inner ++ tag.closeMarker

end Tag

/-- Plain pieces and elements in order. -/
inductive Forest where
  | empty
  | text (content : Text) (next : Forest)
  | element (tag : Tag) (inner next : Forest)
  deriving DecidableEq

/-- A tag and what is inside it. -/
structure Element where
  tag : Tag
  inner : Forest
  deriving DecidableEq

namespace Forest

/-- The text of a forest. -/
def render : Forest → Text
  | empty => []
  | text content next => content ++ next.render
  | element tag inner next => tag.around inner.render ++ next.render

/-- Every element, parents before their children. -/
def elements : Forest → List Element
  | empty => []
  | text _ next => next.elements
  | element tag inner next => ⟨tag, inner⟩ :: (inner.elements ++ next.elements)

/-- The first element of a name, in document order. -/
def find? (forest : Forest) (name : Text) : Option Element :=
  forest.elements.find? fun element => element.tag.name == name

/-- The elements that are inside no other. -/
def topElements : Forest → List Element
  | empty => []
  | text _ next => next.topElements
  | element tag inner next => ⟨tag, inner⟩ :: next.topElements

/-- A plain piece in front of a forest; it joins a plain piece that the forest starts with. -/
def prependText (content : Text) : Forest → Forest
  | text more next => text (content ++ more) next
  | other => text content other

@[simp] theorem render_prependText (content : Text) (forest : Forest) :
    (prependText content forest).render = content ++ forest.render := by
  cases forest <;> simp [prependText, render]

end Forest

namespace Element

/-- The text inside an element. -/
def innerText (element : Element) : Text := element.inner.render

/-- The text of an element with its markers. -/
def render (element : Element) : Text := element.tag.around element.inner.render

/-- The value of one of the attributes. -/
def attribute? (element : Element) (key : Text) : Option Text := element.tag.attributes.get? key

end Element

end Scaffold
