/-
**The macro keywords that are recognised.**

A registry maps keywords to macro types, in ascending order of the keywords. It is made from a list
of keywords: each is trimmed, has to be an identifier and has to belong to a known family, and the
first keyword that does not decides the complaint.
-/

import Scaffold.Model.MacroType
import Scaffold.Text.Basic

namespace Scaffold

/-- The recognised keywords with their macro types. -/
structure MacroRegistry where
  entries : Keyed MacroType
  sorted : Keyed.Sorted entries

/-- Why a list of keywords makes no registry. -/
inductive KeywordProblem where
  | notIdentifier (keyword : Text)
  | unknownShape (keyword : Text)
  deriving DecidableEq, Repr

/-- The wording of a keyword problem. -/
def KeywordProblem.text : KeywordProblem → String
  | notIdentifier keyword => "macro keyword `" ++ keyword.string ++ "` is not an identifier"
  | unknownShape keyword =>
    "macro keyword `" ++ keyword.string ++ "` does not match any known macro shape"

namespace MacroRegistry

/-- The registry without keywords. -/
def empty : MacroRegistry := ⟨[], List.Pairwise.nil⟩

/-- The registry with one more keyword. -/
def insert (registry : MacroRegistry) (keyword : Text) (type : MacroType) : MacroRegistry :=
  ⟨Keyed.insert keyword type registry.entries, Keyed.sorted_insert keyword type registry.sorted⟩

/-- The macro type of a keyword. -/
def lookup (registry : MacroRegistry) (keyword : Text) : Option MacroType :=
  Keyed.get? keyword registry.entries

/-- The macro type of a keyword that may be registered. -/
def classify (keyword : Text) : Except KeywordProblem MacroType :=
  if Text.isIdentifier keyword then
    match MacroType.ofKeyword? keyword with
    | some type => .ok type
    | none => .error (.unknownShape keyword)
  else .error (.notIdentifier keyword)

/-- Adds keywords to a registry. -/
def insertAll (registry : MacroRegistry) : List Text → Except KeywordProblem MacroRegistry
  | [] => .ok registry
  | keyword :: rest =>
    match classify keyword.trim with
    | .ok type => insertAll (registry.insert keyword.trim type) rest
    | .error problem => .error problem

/-- The registry of a list of keywords. -/
def ofKeywords (keywords : List Text) : Except KeywordProblem MacroRegistry :=
  insertAll empty keywords

/-- The keywords in force when none are given. -/
def standardKeywords : List Text :=
  ["GET".toList, "GETSET".toList, "GET_VALIDATE".toList, "GETSET_VALIDATE".toList,
    "GET_SPTR".toList, "GETSET_SPTR".toList, "GET_SPTR_NULL".toList, "GETSET_SPTR_NULL".toList,
    "VECTOR".toList, "VECTOR_SPTR".toList, "SET".toList, "SET_SPTR".toList, "MAP".toList,
    "MAP_SPTR_R".toList, "ORDERED_MAP".toList, "ORDERED_MAP_SPTR_R".toList,
    "MANAGER_SPTR".toList, "MANAGER_SPTR_NULL".toList, "MANAGER_SPTR_PARENT".toList,
    "ACTION".toList, "ACTION_WITH_ARG_SPTR".toList]

/-- The registry in force when none is given. -/
def standard : MacroRegistry :=
  standardKeywords.foldl
    (fun registry keyword =>
      match MacroType.ofKeyword? keyword with
      | some type => registry.insert keyword type
      | none => registry)
    empty

end MacroRegistry

end Scaffold
