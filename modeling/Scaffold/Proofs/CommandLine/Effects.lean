/-
**What a merge and an update leave behind.**

A run that merges a file or brings a section up to date has two parts. While it computes its text it
only looks things up and logs (`run_eq_deliver`). Then there are four ends (`Ends`): there is no
text and the run complains, or the text is written and that is refused, or it is written, or it is
printed. So a run that fails prints nothing and leaves all files as they were, and one that does not
fail leaves its text in the file it is for, and no other, or prints it (`run_complete`).

The text is there exactly if the configuration loads, the files can be read and merging or updating
succeeds (`Gives`). It is made with the delimiter and the mode of the arguments, else of the
configuration file, else with the standard ones.

What a course shows here is what the program performs: `main` performs `start` with the system, and
every host that answers as files do goes through the course (`perform_of_isFaithful`).
-/

import Scaffold.Proofs.CommandLine.Layers

namespace Scaffold.CommandLine

variable {files : Files} {invocation : Invocation} {arguments : List Text}
  {target path text : Text} {write : Bool}

namespace Command

/-- The file that a command makes a text for, and whether the text is written there. -/
def target? : Command → Option (Text × Bool)
  | .sync _ existing _ _ write => some (existing, write)
  | .section file _ _ _ write => some (file, write)
  | .model _ _ | .macros => none

/-- The delimiter among the arguments. -/
def delimiter? : Command → Option Text
  | .sync _ _ _ delimiter? _ | .section _ _ _ delimiter? _ => delimiter?
  | .model _ _ | .macros => none

/-- The mode among the arguments. -/
def mode? : Command → Option SyncMode
  | .sync _ _ mode? _ _ => mode?
  | .section _ _ _ _ _ | .model _ _ | .macros => none

end Command

/-- The delimiter and the mode that are in effect when the configuration loads: those of the
arguments, else of the configuration file, else the standard ones. -/
structure InEffect (files : Files) (invocation : Invocation) (delimiter : Text) (mode : SyncMode) :
    Prop where
  loads : ∃ loaded,
    (configuration invocation.config? invocation.command.delimiter?).result files = .ok loaded
  layers : ∃ document, Documented files invocation.config? document ∧
    delimiter = invocation.command.delimiter?.getD
      ((Configuration.saidDelimiter? document).getD Configuration.standard.commentDelimiter) ∧
    mode = invocation.command.mode?.getD
      ((Configuration.saidMode? document).getD Configuration.standard.defaultSyncMode)

/-- The text that a command makes of files. -/
inductive Makes (files : Files) (delimiter : Text) (mode : SyncMode) : Command → Text → Prop
  | merged {fresh existing freshText existingText text : Text} {mode? : Option SyncMode}
      {delimiter? : Option Text} {write : Bool} (freshRead : (files fresh).reading = .ok freshText)
      (present : (files existing).isPresent = true)
      (existingRead : (files existing).reading = .ok existingText)
      (made : Merge.sync delimiter freshText existingText mode = .ok text) :
      Makes files delimiter mode (.sync fresh existing mode? delimiter? write) text
  | fresh {fresh existing text : Text} {mode? : Option SyncMode} {delimiter? : Option Text}
      {write : Bool} (freshRead : (files fresh).reading = .ok text)
      (missing : (files existing).isPresent = false) :
      Makes files delimiter mode (.sync fresh existing mode? delimiter? write) text
  | updated {file name content fileText contentText text : Text} {delimiter? : Option Text}
      {write : Bool} (fileRead : (files file).reading = .ok fileText)
      (contentRead : (files content).reading = .ok contentText)
      (made : Section.regenerate delimiter fileText name contentText = .ok text) :
      Makes files delimiter mode (.section file name content delimiter? write) text

/-- The text of an invocation. -/
def Gives (files : Files) (invocation : Invocation) (text : Text) : Prop :=
  ∃ delimiter mode, InEffect files invocation delimiter mode ∧
    Makes files delimiter mode invocation.command text

/-! ### Computing the text -/

theorem isQuiet_readFile (path : Text) : Action.IsQuiet (readFile path) :=
  .bind (.lift (.request (.read path) trivial)) fun _ => .liftAs _ _

theorem readFile_eq_ok_iff :
    (readFile path).result files = .ok text ↔ (files path).reading = .ok text :=
  mapError_eq_ok_iff

theorem isQuiet_report (events : List Event) : (report events).IsQuiet :=
  .forM (fun event => .request (.log event) trivial) events

theorem isQuiet_syncedText (configuration : Configuration) (fresh existing : Text)
    (mode? : Option SyncMode) :
    Action.IsQuiet (syncedText configuration fresh existing mode?) := by
  refine .bind (isQuiet_readFile fresh) fun freshText => ?_
  refine .bind (.lift (.request (.isPresent existing) trivial)) fun present => ?_
  cases present with
  | true =>
    exact .bind (isQuiet_readFile existing) fun existingText =>
      .bind (.lift (isQuiet_report _)) fun _ => .liftAs _ _
  | false =>
    exact .bind (.lift (.request (.log _) trivial)) fun _ => .done _

theorem isQuiet_sectionText (configuration : Configuration) (file name content : Text) :
    Action.IsQuiet (sectionText configuration file name content) :=
  .bind (isQuiet_readFile file) fun _ => .bind (isQuiet_readFile content) fun _ =>
    .bind (.lift (isQuiet_report _)) fun _ => .liftAs _ _

theorem result_syncedText (configuration : Configuration) (fresh existing : Text)
    (mode? : Option SyncMode) (files : Files) :
    (syncedText configuration fresh existing mode?).result files = (do
      let freshText ← (readFile fresh).result files
      if (files existing).isPresent then do
        let existingText ← (readFile existing).result files
        (Merge.sync configuration.commentDelimiter freshText existingText
          (mode?.getD configuration.defaultSyncMode)).mapError (.source existing)
      else pure freshText) := by
  refine ((isQuiet_readFile fresh).result_bind _ files).trans ?_
  refine congrArg _ (funext fun freshText => ?_)
  rw [Action.IsQuiet.result_lift_bind (.request (.isPresent existing) trivial)]
  have answered : ((Session.request (.isPresent existing)).course files).value =
    (files existing).isPresent := rfl
  rw [answered]
  cases (files existing).isPresent with
  | true =>
    refine ((isQuiet_readFile existing).result_bind _ files).trans ?_
    exact congrArg _ (funext fun existingText =>
      Action.IsQuiet.result_lift_bind (isQuiet_report _) _ files)
  | false => rfl

theorem syncedText_eq_ok_iff {configuration : Configuration} {fresh existing : Text}
    {mode? : Option SyncMode} (delimiter? : Option Text) (write : Bool) :
    (syncedText configuration fresh existing mode?).result files = .ok text ↔
      Makes files configuration.commentDelimiter (mode?.getD configuration.defaultSyncMode)
        (.sync fresh existing mode? delimiter? write) text := by
  rw [result_syncedText, bind_eq_ok_iff]
  constructor
  · rintro ⟨freshText, freshRead, run⟩
    rw [readFile_eq_ok_iff] at freshRead
    split at run
    · next present =>
      obtain ⟨existingText, existingRead, run⟩ := bind_eq_ok_iff.mp run
      rw [readFile_eq_ok_iff] at existingRead
      exact .merged freshRead present existingRead (mapError_eq_ok_iff.mp run)
    · next missing =>
      cases run
      exact .fresh freshRead ((Bool.not_eq_true _).mp missing)
  · intro makes
    cases makes with
    | merged freshRead present existingRead made =>
      refine ⟨_, readFile_eq_ok_iff.mpr freshRead, ?_⟩
      rw [if_pos present, bind_eq_ok_iff]
      exact ⟨_, readFile_eq_ok_iff.mpr existingRead, mapError_eq_ok_iff.mpr made⟩
    | fresh freshRead missing =>
      refine ⟨text, readFile_eq_ok_iff.mpr freshRead, ?_⟩
      rw [if_neg (Bool.eq_false_iff.mp missing)]
      rfl

theorem sectionText_eq_ok_iff {configuration : Configuration} {file name content : Text}
    (mode : SyncMode) (delimiter? : Option Text) (write : Bool) :
    (sectionText configuration file name content).result files = .ok text ↔
      Makes files configuration.commentDelimiter mode
        (.section file name content delimiter? write) text := by
  unfold sectionText
  simp only [(isQuiet_readFile _).result_bind, bind_eq_ok_iff, readFile_eq_ok_iff,
    Action.IsQuiet.result_lift_bind (isQuiet_report _), Action.result_liftAs, mapError_eq_ok_iff]
  constructor
  · rintro ⟨fileText, fileRead, contentText, contentRead, made⟩
    exact .updated fileRead contentRead made
  · intro makes
    cases makes with
    | updated fileRead contentRead made => exact ⟨_, fileRead, _, contentRead, made⟩

/-! ### What is in effect -/

theorem Documented.unique {config? : Option Text} {document other : List (Text × Setting)}
    (first : Documented files config? document) (second : Documented files config? other) :
    document = other := by
  cases first with
  | unnamed =>
    cases second
    rfl
  | named name path content document first held read =>
    cases second with
    | named _ _ _ other firstToo heldToo readToo =>
      cases Option.some.inj (first.symm.trans firstToo)
      cases Except.ok.inj (held.symm.trans heldToo)
      exact Option.some.inj (read.symm.trans readToo)

/-- The configuration of an invocation carries what is in effect. -/
theorem inEffect_iff {delimiter : Text} {mode : SyncMode} :
    InEffect files invocation delimiter mode ↔ ∃ loaded,
      (configuration invocation.config? invocation.command.delimiter?).result files = .ok loaded ∧
        delimiter = loaded.commentDelimiter ∧
        mode = invocation.command.mode?.getD loaded.defaultSyncMode := by
  constructor
  · rintro ⟨⟨loaded, loads⟩, document, documented, rfl, rfl⟩
    obtain ⟨other, documentedToo, delimiterIs, modeIs⟩ := configuration_layers loads
    cases documented.unique documentedToo
    exact ⟨loaded, loads, delimiterIs.symm, by rw [modeIs]⟩
  · rintro ⟨loaded, loads, rfl, rfl⟩
    obtain ⟨document, documented, delimiterIs, modeIs⟩ := configuration_layers loads
    exact ⟨⟨loaded, loads⟩, document, documented, delimiterIs, by rw [modeIs]⟩

theorem gives_iff : Gives files invocation text ↔ ∃ loaded,
    (configuration invocation.config? invocation.command.delimiter?).result files = .ok loaded ∧
      Makes files loaded.commentDelimiter (invocation.command.mode?.getD loaded.defaultSyncMode)
        invocation.command text := by
  constructor
  · rintro ⟨delimiter, mode, inEffect, makes⟩
    obtain ⟨loaded, loads, rfl, rfl⟩ := inEffect_iff.mp inEffect
    exact ⟨loaded, loads, makes⟩
  · rintro ⟨loaded, loads, makes⟩
    exact ⟨_, _, inEffect_iff.mpr ⟨loaded, loads, rfl, rfl⟩, makes⟩

/-- A command with a target computes its text and delivers it. While it computes, it only looks
things up and logs. -/
theorem run_eq_deliver (files : Files)
    (aimed : invocation.command.target? = some (target, write)) :
    ∃ computing : Action Text, run invocation = computing >>= deliver write target ∧
      computing.IsQuiet ∧
      ∀ text, computing.result files = .ok text ↔ Gives files invocation text := by
  obtain ⟨config?, verbosity, command⟩ := invocation
  match command, aimed with
  | .sync fresh existing mode? delimiter? write, rfl =>
    refine ⟨configuration config? delimiter? >>= fun loaded =>
      syncedText loaded fresh existing mode?, ?_, ?_, fun text => ?_⟩
    · rw [bind_assoc]
      rfl
    · exact .bind (isQuiet_configuration _ _) fun loaded => isQuiet_syncedText _ _ _ _
    · rw [(isQuiet_configuration _ _).result_bind, bind_eq_ok_iff, gives_iff]
      exact exists_congr fun loaded =>
        and_congr_right fun _ => syncedText_eq_ok_iff delimiter? write
  | .section file name content delimiter? write, rfl =>
    refine ⟨configuration config? delimiter? >>= fun loaded =>
      sectionText loaded file name content, ?_, ?_, fun text => ?_⟩
    · rw [bind_assoc]
      rfl
    · exact .bind (isQuiet_configuration _ _) fun loaded => isQuiet_sectionText _ _ _ _
    · rw [(isQuiet_configuration _ _).result_bind, bind_eq_ok_iff, gives_iff]
      exact exists_congr fun loaded =>
        and_congr_right fun _ => sectionText_eq_ok_iff _ delimiter? write

/-! ### How a run ends -/

/-- How a run with a target ends: its exit code, and the exchanges that do more than look things up
and log. -/
inductive Ends (files : Files) (invocation : Invocation) (target : Text) (write : Bool) :
    (code : UInt32) → List Exchange → Prop
  | failed (failure : Failure) (nothing : ¬∃ text, Gives files invocation text) :
      Ends files invocation target write 1 [⟨.complain failure.complaint, ()⟩]
  | refused (text : Text) (obstacle : Obstacle) (gives : Gives files invocation text)
      (asked : write = true) (shut : (files target).writeObstacle? = some obstacle) :
      Ends files invocation target write 1 [⟨.write target text, some obstacle⟩,
        ⟨.complain (Failure.file target obstacle).complaint, ()⟩]
  | written (text : Text) (logs : List Exchange) (gives : Gives files invocation text)
      (asked : write = true) (free : (files target).writeObstacle? = none)
      (quiet : Exchange.AllQuiet logs) :
      Ends files invocation target write 0 (⟨.write target text, none⟩ :: logs)
  | printed (text : Text) (gives : Gives files invocation text) (unasked : write = false) :
      Ends files invocation target write 0 [⟨.print text, ()⟩]

/-- What follows the run of a command. -/
def closing : Except Failure Unit → Course UInt32
  | .ok () => ⟨0, []⟩
  | .error failure => ⟨1, [⟨.complain failure.complaint, ()⟩]⟩

theorem course_start (isInvocation : Invocation.ofArguments arguments = .ok invocation)
    (files : Files) :
    (start arguments).course files =
      (closing ((run invocation).result files)).following
        (((run invocation).run.course files).exchanges.filter
          (Exchange.isKept (.ofVerbosity invocation.verbosity))) := by
  unfold start Action.result
  rw [isInvocation]
  refine (Session.course_bind _ _ files).trans ?_
  rw [Session.course_upTo]
  cases ((run invocation).run.course files).value with
  | ok done => rfl
  | error failure => rfl

theorem course_deliver_refused {obstacle : Obstacle}
    (shut : (files target).writeObstacle? = some obstacle) (text : Text) :
    (deliver true target text).run.course files =
      ⟨.error (.file target obstacle), [⟨.write target text, some obstacle⟩]⟩ := by
  have answered : files.answer (.write target text) = some obstacle := shut
  unfold deliver
  rw [if_pos rfl, Action.course_request_bind, answered]
  rfl

theorem course_deliver_written (free : (files target).writeObstacle? = none) (text : Text) :
    (deliver true target text).run.course files =
      ⟨.ok (), [⟨.write target text, none⟩,
        ⟨.log ⟨.info, "wrote file", [("path", target)]⟩, ()⟩]⟩ := by
  have answered : files.answer (.write target text) = none := free
  unfold deliver
  rw [if_pos rfl, Action.course_request_bind, answered]
  rfl

/-- **The ends of a run**: before the last exchanges it only looks things up and logs. -/
theorem exists_ends (isInvocation : Invocation.ofArguments arguments = .ok invocation)
    (aimed : invocation.command.target? = some (target, write)) (files : Files) :
    ∃ front last, ((start arguments).course files).exchanges = front ++ last ∧
      Exchange.AllQuiet front ∧
      Ends files invocation target write ((start arguments).course files).value last := by
  obtain ⟨computing, runs, quiet, computes⟩ := run_eq_deliver files aimed
  have front := (Session.IsQuiet.exchanges quiet files).filter
    (Exchange.isKept (.ofVerbosity invocation.verbosity))
  rw [course_start isInvocation, Action.result, runs]
  cases made : computing.result files with
  | error failure =>
    rw [quiet.course_bind_error made]
    refine ⟨_, _, rfl, front, .failed failure ?_⟩
    rintro ⟨text, gives⟩
    cases made.symm.trans ((computes text).mpr gives)
  | ok text =>
    have gives := (computes text).mp made
    rw [quiet.course_bind_ok made]
    simp only [Course.following, List.filter_append, List.append_assoc]
    refine ⟨_, _, rfl, front, ?_⟩
    cases write with
    | false => exact .printed text gives rfl
    | true =>
      cases answered : (files target).writeObstacle? with
      | some obstacle =>
        rw [course_deliver_refused answered]
        exact .refused text obstacle gives rfl answered
      | none =>
        simp only [course_deliver_written answered, closing, List.append_nil]
        refine .written text _ gives rfl answered (Exchange.AllQuiet.filter ?_ _)
        exact List.forall_mem_singleton.mpr trivial

/-- A text for a path can be printed, or nothing keeps it from being written there. -/
def CanDeliver (files : Files) (write : Bool) (target : Text) : Prop :=
  write = true → (files target).writeObstacle? = none

namespace Course

variable {α : Type}

/-- Nothing is printed, and all files are as they were. -/
def IsIdle (course : Course α) (files : Files) : Prop :=
  course.output = [] ∧ files.after course.exchanges = files

/-- A text is written at one path and nowhere else, or it is printed. -/
def Delivers (course : Course α) (files : Files) (write : Bool) (target text : Text) : Prop :=
  if write then
    course.output = [] ∧ files.after course.exchanges target = .text text ∧
      ∀ other, other ≠ target → files.after course.exchanges other = files other
  else course.output = text ∧ files.after course.exchanges = files

end Course

/-- What a run with a target comes to. -/
structure Completes (files : Files) (invocation : Invocation) (target : Text) (write : Bool)
    (course : Course UInt32) : Prop where
  /-- Until it has its text it only looks things up and logs. -/
  ends : ∃ front last, course.exchanges = front ++ last ∧ Exchange.AllQuiet front ∧
    Ends files invocation target write course.value last
  idle : course.value ≠ 0 → course.IsIdle files
  delivers : course.value = 0 → ∃ text, Gives files invocation text ∧
    course.Delivers files write target text
  done_iff : course.value = 0 ↔ ∃ text, Gives files invocation text ∧ CanDeliver files write target

namespace Ends

variable {code : UInt32} {last : List Exchange}

theorem done_iff (ends : Ends files invocation target write code last) :
    code = 0 ↔ ∃ text, Gives files invocation text ∧ CanDeliver files write target := by
  cases ends with
  | failed failure nothing =>
    exact iff_of_false (by decide) fun ⟨text, gives, _⟩ => nothing ⟨text, gives⟩
  | refused text obstacle gives asked shut =>
    refine iff_of_false (by decide) ?_
    rintro ⟨_, -, canDeliver⟩
    exact nomatch shut.symm.trans (canDeliver asked)
  | written text logs gives asked free quiet =>
    exact iff_of_true rfl ⟨text, gives, fun _ => free⟩
  | printed text gives unasked =>
    exact iff_of_true rfl ⟨text, gives, fun asked => nomatch unasked.symm.trans asked⟩

theorem idle (ends : Ends files invocation target write code last) (failed : code ≠ 0) :
    last.flatMap Exchange.printed = [] ∧ files.after last = files := by
  cases ends with
  | failed | refused => exact ⟨rfl, rfl⟩
  | written | printed => exact absurd rfl failed

theorem delivers (ends : Ends files invocation target write code last) (done : code = 0) :
    ∃ text, Gives files invocation text ∧
      Course.Delivers ⟨code, last⟩ files write target text := by
  cases ends with
  | failed | refused => exact absurd done (by decide)
  | written text logs gives asked free quiet =>
    subst asked
    have after : files.after (⟨.write target text, none⟩ :: logs) = files.write target text :=
      quiet.after_eq (files.write target text)
    refine ⟨text, gives, ?_⟩
    unfold Course.Delivers
    rw [if_pos rfl, after]
    exact ⟨quiet.printed_eq, if_pos rfl, fun other different => if_neg different⟩
  | printed text gives unasked =>
    subst unasked
    exact ⟨text, gives, List.append_nil text, rfl⟩

end Ends

/-- Exchanges that only look things up and log do not count. -/
theorem Completes.of_ends {course : Course UInt32} {front last : List Exchange}
    (exchanges : course.exchanges = front ++ last) (quiet : Exchange.AllQuiet front)
    (ends : Ends files invocation target write course.value last) :
    Completes files invocation target write course := by
  have output : course.output = last.flatMap Exchange.printed := by
    rw [Course.output, exchanges, List.flatMap_append, quiet.printed_eq, List.nil_append]
  have after : files.after course.exchanges = files.after last := by
    rw [exchanges, Files.after, List.foldl_append]
    exact congrArg (List.foldl Files.next · last) (quiet.after_eq files)
  refine ⟨⟨front, last, exchanges, quiet, ends⟩, ?_, ?_, ends.done_iff⟩
  · intro failed
    obtain ⟨printed, kept⟩ := ends.idle failed
    exact ⟨output.trans printed, after.trans kept⟩
  · intro done
    obtain ⟨text, gives, delivers⟩ := ends.delivers done
    refine ⟨text, gives, ?_⟩
    unfold Course.Delivers
    rw [output, after]
    exact delivers

/-- **Only complete results**: a run that fails changes no file and prints nothing; one that does
not fail leaves its whole text in the file it is for, or prints it, and changes nothing else. It
fails exactly if there is no text or the file cannot be written. -/
theorem run_complete (files : Files) (arguments : List Text) :
    (∀ ending, Invocation.ofArguments arguments = .error ending →
      files.after ((start arguments).course files).exchanges = files ∧
        (((start arguments).course files).value = 0 ↔ ending ≠ .misuse) ∧
        (((start arguments).course files).value ≠ 0 →
          ((start arguments).course files).output = [])) ∧
      ∀ invocation target write, Invocation.ofArguments arguments = .ok invocation →
        invocation.command.target? = some (target, write) →
          Completes files invocation target write ((start arguments).course files) := by
  constructor
  · intro ending ended
    rw [start, ended]
    cases ending with
    | misuse =>
      have failed : (2 : UInt32) ≠ 0 := by decide
      exact ⟨rfl, iff_of_false failed (fun other => other rfl), fun _ => rfl⟩
    | help | version => exact ⟨rfl, iff_of_true rfl nofun, fun failed => absurd rfl failed⟩
  · intro invocation target write isInvocation aimed
    obtain ⟨front, last, exchanges, quiet, ends⟩ := exists_ends isInvocation aimed files
    exact .of_ends exchanges quiet ends

/-- A configuration, a fresh file and what stands where the existing file is. -/
def layeredFiles (old : Entry) : Files := .ofDirectory
  [("r.toml".toList,
      .text "tags.comment_delimiter = \"%\"\nmerge.default_sync_mode = \"demand\"\n".toList),
    ("new".toList, .text "//<a k=\"v\">\nnew\n//</a>\n".toList),
    ("old".toList, old)]

/-- An existing file. -/
def keptText : Text := "kept\n//<a sync=\"Replace\">\nold\n//</a>\n".toList

/-- The delimiter is that of the arguments, though the configuration has one, and the mode is that
of the configuration. If the existing file is there but cannot be read the same arguments fail, and
they fail if it can be read but not written. -/
theorem run_complete_layered : ∃ (arguments : List Text) (invocation : Invocation) (text : Text),
    arguments = ["-c", "r", "sync", "new", "old", "-d", "//", "-w"].map String.toList ∧
      Invocation.ofArguments arguments = .ok invocation ∧
      invocation.command.target? = some ("old".toList, true) ∧
      text = "kept\n//<a sync=\"Replace\">\nnew\n//</a>\n".toList ∧
      Gives (layeredFiles (.text keptText)) invocation text ∧
      ((start arguments).course (layeredFiles (.text keptText))).Delivers
        (layeredFiles (.text keptText)) true "old".toList text ∧
      ((start arguments).course (layeredFiles ⟨true, true, .error .forbidden, none⟩)).IsIdle
        (layeredFiles ⟨true, true, .error .forbidden, none⟩) ∧
      ((start arguments).course (layeredFiles ⟨true, true, .ok keptText, some .forbidden⟩)).IsIdle
        (layeredFiles ⟨true, true, .ok keptText, some .forbidden⟩) := by
  have read : Invocation.ofArguments
      (["-c", "r", "sync", "new", "old", "-d", "//", "-w"].map String.toList) =
        .ok ⟨some "r".toList, 0,
          .sync "new".toList "old".toList none (some "//".toList) true⟩ :=
    ok_of_toOption (by decide +kernel)
  have completes (files : Files) := (run_complete files _).2 _ _ _ read rfl
  obtain ⟨text, gives, delivers⟩ :=
    (completes (layeredFiles (.text keptText))).delivers (by decide +kernel)
  have written : ((layeredFiles (.text keptText)).after ((start
      (["-c", "r", "sync", "new", "old", "-d", "//", "-w"].map String.toList)).course
        (layeredFiles (.text keptText))).exchanges "old".toList).reading.toOption =
          some "kept\n//<a sync=\"Replace\">\nnew\n//</a>\n".toList := by
    decide +kernel
  rw [delivers.2.1] at written
  cases Option.some.inj written
  exact ⟨_, _, _, rfl, read, rfl, rfl, gives, delivers,
    (completes _).idle (by decide +kernel), (completes _).idle (by decide +kernel)⟩

end Scaffold.CommandLine
