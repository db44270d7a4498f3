/-
**Configurations.**

A configuration says which macro keywords there are, how declarations are classified, how tags are
marked and how files are merged. It is made from layers: the standard settings, then files in order,
then single values under their paths, each laid over what is there. What no setting names is
ignored; what is named has to be of the right kind.
-/

import Scaffold.Extraction.Extractor
import Scaffold.Files
import Scaffold.Settings.Document
import Scaffold.Settings.Path
import Scaffold.Tag.Directive

namespace Scaffold

/-- What extraction and merging need to know. -/
structure Configuration where
  macros : List Text
  classKinds : ClassKindRules
  commentDelimiter : Text
  defaultSyncMode : SyncMode
  deriving DecidableEq, Repr

/-- What a configuration file holds. -/
inductive ConfigurationContent where
  /-- There is no such file. -/
  | missing
  /-- There is one that cannot be read. -/
  | unreadable (obstacle : Obstacle)
  | text (content : Text)
  deriving DecidableEq, Repr

/-- What a file holds, by what reading it gives. -/
def ConfigurationContent.ofReading : Except Obstacle Text → ConfigurationContent
  | .ok content => text content
  | .error obstacle => unreadable obstacle

/-- A configuration file: its name, what it holds, and whether it has to be readable. -/
structure ConfigurationFile where
  name : Text
  content : ConfigurationContent
  required : Bool
  deriving DecidableEq, Repr

/-- Why layers make no configuration. -/
inductive LoadProblem where
  | missingFile (name : Text)
  | unreadableFile (obstacle : Obstacle)
  | malformedFile (name : Text)
  | invalidPath (key : Text)
  | invalidValue
  deriving DecidableEq, Repr

/-- The wording of a problem. -/
def LoadProblem.text : LoadProblem → String
  | missingFile name => "configuration file \"" ++ name.string ++ "\" not found"
  | unreadableFile obstacle => obstacle.text
  | malformedFile name => "configuration file \"" ++ name.string ++ "\" is not valid TOML"
  | invalidPath key => "configuration key \"" ++ key.string ++ "\" is not a path"
  | invalidValue => "a configuration value is missing or of the wrong kind"

namespace Configuration

/-- The configuration when nothing is set. -/
def standard : Configuration where
  macros := MacroRegistry.standardKeywords
  classKinds := .standard
  commentDelimiter := Tag.standardDelimiter
  defaultSyncMode := .full

/-- The settings below all others. The macro keywords are not among them. -/
def standardSettings : Setting :=
  let rules := ClassKindRules.standard
  let entry (name : String) (value : Setting) : Text × Setting := (name.toList, value)
  .table
    [entry "extraction" (.table
      [entry "class_kinds" (.table
        [entry "property_suffix" (.text rules.property), entry "form_suffix" (.text rules.form),
          entry "argument_suffix" (.text rules.argument),
          entry "result_suffix" (.text rules.result)])]),
      entry "tags" (.table [entry "comment_delimiter" (.text standard.commentDelimiter)]),
      entry "merge" (.table
        [entry "default_sync_mode" (.text (Named.label standard.defaultSyncMode))])]

/-- A part that has to be there. -/
def needed? (record : Setting) (place : Nat) (name : String) : Option Setting := do
  ← record.part? place name.toList

/-- A part that has a value of its own when it is not there. -/
def optional? {α : Type} (record : Setting) (place : Nat) (name : String) (usual : α)
    (read? : Setting → Option α) : Option α := do
  match ← record.part? place name.toList with
  | none => some usual
  | some setting => read? setting

/-- The endings of names that a setting gives. -/
def classKinds? (setting : Setting) : Option ClassKindRules := do
  let usual := ClassKindRules.standard
  return {
    property := ← optional? setting 0 "property_suffix" usual.property Setting.asText?
    form := ← optional? setting 1 "form_suffix" usual.form Setting.asText?
    argument := ← optional? setting 2 "argument_suffix" usual.argument Setting.asText?
    result := ← optional? setting 3 "result_suffix" usual.result Setting.asText? }

/-- The mode that a setting names, in any letter case: a text, or a table with that key alone. -/
def syncMode? : Setting → Option SyncMode
  | .text word => Named.ofFolded? Setting.foldKey word
  | .table [(word, _)] => Named.ofFolded? Setting.foldKey word
  | _ => none

/-- The configuration that a setting is. -/
def ofSetting? (root : Setting) : Option Configuration := do
  let extraction ← needed? root 0 "extraction"
  let tags ← needed? root 1 "tags"
  let merge ← needed? root 2 "merge"
  return {
    macros := ← optional? extraction 0 "macros" standard.macros Setting.asTexts?
    classKinds := ← optional? extraction 1 "class_kinds" standard.classKinds classKinds?
    commentDelimiter := ← Setting.asText? (← needed? tags 0 "comment_delimiter")
    defaultSyncMode := ← syncMode? (← needed? merge 0 "default_sync_mode") }

/-- Settings with a document laid over them. A key of the document may be a path. -/
def layDocument (settings : Setting) (document : List (Text × Setting)) : Setting :=
  document.foldl
    (fun settings entry =>
      settings.put entry.2 ((Setting.path? entry.1).getD [.entry entry.1])) settings

/-- Settings with a file laid over them. -/
def layFile (settings : Setting) (file : ConfigurationFile) : Except LoadProblem Setting :=
  match file.content with
  | .missing => if file.required then .error (.missingFile file.name) else .ok settings
  | .unreadable obstacle =>
    if file.required then .error (.unreadableFile obstacle) else .ok settings
  | .text content =>
    match Setting.document? content with
    | some document => .ok (layDocument settings document)
    | none => .error (.malformedFile file.name)

/-- Settings with a value laid over them under the path that its key is, once it is folded. -/
def layOverride (settings : Setting) (override : Text × Setting) : Except LoadProblem Setting :=
  match Setting.path? (Setting.foldKey override.1) with
  | some path => .ok (settings.put override.2 path)
  | none => .error (.invalidPath override.1)

/-- The configuration of files and of values under their keys. -/
def load (files : List ConfigurationFile) (overrides : List (Text × Setting)) :
    Except LoadProblem Configuration := do
  let filed ← files.foldlM layFile standardSettings
  let settings ← overrides.foldlM layOverride filed
  match ofSetting? settings with
  | some configuration => .ok configuration
  | none => .error .invalidValue

/-- The registry of the macro keywords. -/
def registry (configuration : Configuration) : Except KeywordProblem MacroRegistry :=
  MacroRegistry.ofKeywords configuration.macros

/-- The extractor with the macro keywords and the rules. -/
def extractor (configuration : Configuration) : Except KeywordProblem Extractor := do
  return ⟨← configuration.registry, configuration.classKinds⟩

end Configuration

end Scaffold
