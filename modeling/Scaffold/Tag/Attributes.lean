/-
**The attributes of a tag.**

Attributes are pairs of a key and a value in the order they are written, and no key comes twice. An
attribute with a key that is already there is not added.
-/

import Scaffold.Text.Basic

namespace Scaffold.Tag

/-- Pairs of a key and a value in order, each key once. -/
structure Attributes where
  entries : List (Text × Text)
  distinct : (entries.map Prod.fst).Nodup

namespace Attributes

instance : DecidableEq Attributes := fun first second =>
  if same : first.entries = second.entries then
    isTrue (by cases first; cases second; cases same; rfl)
  else isFalse (by rintro rfl; exact same rfl)

/-- No attributes. -/
def empty : Attributes := ⟨[], List.nodup_nil⟩

/-- The value of a key. -/
def get? (attributes : Attributes) (key : Text) : Option Text :=
  (attributes.entries.find? fun entry => entry.1 == key).map Prod.snd

/-- Whether there is an attribute with a key. -/
def hasKey (attributes : Attributes) (key : Text) : Bool :=
  attributes.entries.any fun entry => entry.1 == key

theorem hasKey_iff {attributes : Attributes} {key : Text} :
    attributes.hasKey key = true ↔ key ∈ attributes.entries.map Prod.fst := by
  simp [hasKey]

/-- The attributes with one more at the end; nothing if the key is already there. -/
def insert? (attributes : Attributes) (key value : Text) : Option Attributes :=
  if taken : attributes.hasKey key = true then none
  else some
    ⟨attributes.entries ++ [(key, value)], by
      rw [hasKey_iff] at taken
      rw [List.map_append, List.nodup_append]
      refine ⟨attributes.distinct, by simp, ?_⟩
      rintro other member same equal rfl
      simp only [List.map_cons, List.map_nil, List.mem_singleton] at equal
      subst equal
      exact taken member⟩

/-- The attributes with one more at the end, or unchanged if the key is already there. -/
def insert (attributes : Attributes) (key value : Text) : Attributes :=
  (attributes.insert? key value).getD attributes

/-- The attributes as they are written, with one blank between two of them. -/
def text (attributes : Attributes) : Text :=
  Text.join [' '] (attributes.entries.map fun entry => entry.1 ++ "=\"".toList ++ entry.2 ++ ['"'])

end Attributes

end Scaffold.Tag
