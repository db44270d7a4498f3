/-
**Running a command.**

A run asks its host for what it needs in the order of its steps, and stops at the first failure.
Merging a file and bringing a section up to date make one text, which is printed or written as a
whole once it is there. A model shows the files that can be read and fails if there are others.
-/

import Scaffold.CommandLine.Invocation
import Scaffold.CommandLine.Session
import Scaffold.Merge.Section
import Scaffold.Merge.Sync
import Scaffold.Settings.Configuration
import Scaffold.Yaml.Printer

namespace Scaffold.CommandLine

/-- Why a run failed. -/
inductive Failure where
  | load (problem : LoadProblem)
  | keyword (problem : KeywordProblem)
  | file (path : Text) (obstacle : Obstacle)
  | source (path : Text) (fault : Fault)
  /-- Some of the files of a model. -/
  | modules (failed total : Nat)
  deriving DecidableEq, Repr

/-- The wording of a failure. -/
def Failure.text : Failure → String
  | load problem => problem.text
  | keyword problem => problem.text
  | file path obstacle => path.string ++ ": " ++ obstacle.text
  | source path fault => path.string ++ ": " ++ fault.text
  | modules failed total =>
    toString failed ++ " of " ++ toString total ++ " modules failed to parse"

/-- The line that a failed run ends with. -/
def Failure.complaint (failure : Failure) : Text := ("Error: " ++ failure.text ++ "\n").toList

/-- The paths of the files that a configuration may be in: its own, and that with the usual ending
added. -/
def configurationPaths (name : Text) : List Text :=
  name :: (Files.withEnding? ".toml".toList name).toList

/-- The model of files that could be read. -/
def modelJson (modules : List (Text × List Class)) : Json :=
  .array (modules.map fun entry =>
    .record [("path", .string entry.1), ("classes", .array (entry.2.map Class.toJson))])

/-- A model as text. -/
def modelText : Format → Json → Text
  | .json, model => model.pretty ++ ['\n']
  | .yaml, model => Yaml.document model

/-- The line of a macro keyword. -/
def macroLine (entry : Text × MacroType) : Text :=
  entry.1 ++ List.replicate (24 - entry.1.length) ' ' ++ ' ' :: Named.label entry.2 ++ ['\n']

/-- The text that the version option prints. -/
def versionText : Text := "regen 0.1.0\n".toList

/-- A reminder of the commands and their options. -/
def usageText : Text :=
  ("\n".intercalate
    ["Usage: regen [-v] [-c <file>] <command>", "", "Commands:",
      "  model <files>... [-f json|yaml]                            show the classes of sources",
      "  sync <fresh> <existing> [-m <mode>] [-d <text>] [-w]       merge a fresh file",
      "  section <file> -n <name> --content <file> [-d <text>] [-w] update one section",
      "  macros                                                     list the macro keywords",
      ""]).toList

/-- Steps of a run that may fail. -/
abbrev Action := ExceptT Failure Session

/-- A result whose failure is worded for a run. -/
def liftAs {ε α : Type} (failure : ε → Failure) (result : Except ε α) : Action α :=
  .mk (pure (result.mapError failure))

/-- An event to report. -/
def log (event : Event) : Session Unit := .request (.log event)

/-- Events to report, in order. -/
def report (events : List Event) : Session Unit := events.forM log

/-- The text of the file at a path. -/
def readFile (path : Text) : Action Text := do
  let reading ← Session.request (.read path)
  liftAs (.file path) reading

/-! ### Configuration -/

/-- The configuration file of a name: the first file that there is. -/
def configurationFile (name : Text) : Session ConfigurationFile := do
  match ← (configurationPaths name).findM? fun path => Session.request (.isFile path) with
  | none => return ⟨name, .missing, true⟩
  | some path =>
    let reading ← Session.request (.read path)
    return ⟨name, .ofReading reading, true⟩

/-- The configuration in force: the standard one, a file over it, a delimiter over both. -/
def configuration (name? delimiter? : Option Text) : Action Configuration := do
  let files ← liftM (name?.toList.mapM configurationFile)
  liftAs .load (Configuration.load files
    (delimiter?.toList.map fun delimiter => ("tags.comment_delimiter".toList, .text delimiter)))

/-! ### The commands -/

/-- The fresh file merged into the existing one; the fresh file itself if there is none. -/
def syncedText (configuration : Configuration) (fresh existing : Text) (mode? : Option SyncMode) :
    Action Text := do
  let delimiter := configuration.commentDelimiter
  let mode := mode?.getD configuration.defaultSyncMode
  let freshText ← readFile fresh
  let present ← Session.request (.isPresent existing)
  if present then do
    let existingText ← readFile existing
    report (Merge.syncReports delimiter freshText existingText mode)
    liftAs (.source existing) (Merge.sync delimiter freshText existingText mode)
  else do
    log ⟨.info, "existing file missing, using fresh file", [("path", existing)]⟩
    return freshText

/-- A file with one section brought up to date. -/
def sectionText (configuration : Configuration) (file name content : Text) : Action Text := do
  let delimiter := configuration.commentDelimiter
  let fileText ← readFile file
  let contentText ← readFile content
  report (Section.reports delimiter fileText name)
  liftAs (.source file) (Section.regenerate delimiter fileText name contentText)

/-- A text that a command ends with: written to the file it is for, or printed. -/
def deliver (write : Bool) (path content : Text) : Action Unit :=
  if write then do
    match ← Session.request (.write path content) with
    | some obstacle => throw (.file path obstacle)
    | none => log ⟨.info, "wrote file", [("path", path)]⟩
  else Session.request (.print content)

/-- The classes of the file at a path. -/
def moduleClasses (extractor : Extractor) (path : Text) : Action (List Class) := do
  let source ← readFile path
  let found := extractor.run source
  report found.events
  liftAs (fun defect => .source path (defect.locate source)) found.result

/-- The classes of a file of a model. A file that cannot be read is reported and left out. -/
def module? (extractor : Extractor) (path : Text) : Session (Option (Text × List Class)) := do
  match ← (moduleClasses extractor path).run with
  | .ok classes =>
    log ⟨.debug, "parsed module",
      [("path", path), ("classes", Decimal.digitsOf classes.length)]⟩
    return some (path, classes)
  | .error failure =>
    log ⟨.error, "skipping module", [("path", path), ("error", failure.text.toList)]⟩
    return none

/-- Shows the classes of the files that can be read, and fails if there are others. -/
def model (extractor : Extractor) (paths : List Text) (format : Format) : Action Unit := do
  let parts ← liftM (paths.mapM (module? extractor))
  let modules := parts.filterMap id
  Session.request (.print (modelText format (modelJson modules)))
  let failed := paths.length - modules.length
  if failed ≠ 0 then throw (.modules failed paths.length)

/-- Runs a command. -/
def run (invocation : Invocation) : Action Unit := do
  match invocation.command with
  | .model paths format =>
    let configuration ← configuration invocation.config? none
    let extractor ← liftAs .keyword configuration.extractor
    model extractor paths format
  | .sync fresh existing mode? delimiter? write =>
    let configuration ← configuration invocation.config? delimiter?
    let merged ← syncedText configuration fresh existing mode?
    deliver write existing merged
  | .section file name content delimiter? write =>
    let configuration ← configuration invocation.config? delimiter?
    let updated ← sectionText configuration file name content
    deliver write file updated
  | .macros =>
    let configuration ← configuration invocation.config? none
    let registry ← liftAs .keyword configuration.registry
    registry.entries.forM fun entry => Session.request (.print (macroLine entry))

/-! ### From the arguments on -/

/-- Ends a command line that is no invocation, with its exit code. -/
def finish : Ending → Session UInt32
  | .misuse => do
    Session.request (.complain usageText)
    return 2
  | .help => do
    Session.request (.print usageText)
    return 0
  | .version => do
    Session.request (.print versionText)
    return 0

/-- Runs a command line and gives its exit code. -/
def start (arguments : List Text) : Session UInt32 := do
  match Invocation.ofArguments arguments with
  | .error ending => finish ending
  | .ok invocation =>
    match ← ((run invocation).run).upTo (.ofVerbosity invocation.verbosity) with
    | .ok () => return 0
    | .error failure =>
      Session.request (.complain failure.complaint)
      return 1

end Scaffold.CommandLine
