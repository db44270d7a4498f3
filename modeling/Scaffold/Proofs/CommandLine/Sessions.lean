/-
**Sessions over files that are known.**

A session followed by another has the exchanges of both, and the second one meets the files that the
first one leaves (`course_bind`). A session is quiet if along every path it only looks things up and
logs (`IsQuiet`). A quiet session leaves the files as they are, so nothing but its value goes into
what follows it (`result_bind`).

Nothing here depends on the files being known: a host that works on a state of its own, and gives in
it the answers that files give, goes through the same course (`perform_of_isFaithful`).
-/

import Scaffold.CommandLine.Run

namespace Scaffold.CommandLine

variable {α β : Type}

/-! ### Exchanges that change nothing -/

/-- A request that only looks something up or logs. -/
def Request.IsQuiet : Request → Prop
  | isPresent _ | isFile _ | read _ | log _ => True
  | write _ _ | print _ | complain _ => False

namespace Exchange

/-- An exchange that is there without the events below a level. -/
def isKept (level : LogLevel) : Exchange → Bool
  | ⟨.log event, _⟩ => event.level.rank ≤ level.rank
  | _ => true

/-- Exchanges that change nothing and print nothing. -/
def AllQuiet (exchanges : List Exchange) : Prop :=
  ∀ exchange ∈ exchanges, exchange.request.IsQuiet

variable {exchange : Exchange} {exchanges : List Exchange}

theorem next_of_isQuiet (quiet : exchange.request.IsQuiet) (files : Files) :
    files.next exchange = files := by
  obtain ⟨request, answer⟩ := exchange
  cases request with
  | isPresent | isFile | read | log => rfl
  | write | print | complain => exact quiet.elim

theorem printed_of_isQuiet (quiet : exchange.request.IsQuiet) : exchange.printed = [] := by
  obtain ⟨request, answer⟩ := exchange
  cases request with
  | isPresent | isFile | read | log => rfl
  | write | print | complain => exact quiet.elim

namespace AllQuiet

theorem after_eq (quiet : AllQuiet exchanges) (files : Files) :
    files.after exchanges = files := by
  induction exchanges with
  | nil => rfl
  | cons exchange rest ih =>
    obtain ⟨here, later⟩ := List.forall_mem_cons.mp quiet
    calc files.after (exchange :: rest)
        = (files.next exchange).after rest := rfl
      _ = files.after rest := by rw [next_of_isQuiet here]
      _ = files := ih later

theorem printed_eq (quiet : AllQuiet exchanges) : exchanges.flatMap printed = [] :=
  List.flatMap_eq_nil_iff.mpr fun exchange member => printed_of_isQuiet (quiet exchange member)

theorem filter (quiet : AllQuiet exchanges) (keeps : Exchange → Bool) :
    AllQuiet (exchanges.filter keeps) :=
  fun exchange member => quiet exchange ((List.mem_filter.mp member).1)

end AllQuiet

end Exchange

/-! ### Sessions in a row -/

namespace Session

variable {first : Session α} {next : α → Session β} {files : Files}

instance : LawfulMonad Session :=
  LawfulMonad.mk' Session
    (by
      intro α session
      induction session with
      | done value => rfl
      | ask request next ih => exact congrArg (ask request) (funext ih))
    (fun _ _ => rfl)
    (by
      intro α β γ session following last
      induction session with
      | done value => rfl
      | ask request next ih => exact congrArg (ask request) (funext ih))

/-- A session goes on in the files that another one leaves. -/
theorem course_bind (first : Session α) (next : α → Session β) (files : Files) :
    (first >>= next).course files =
      ((next (first.course files).value).course
        (files.after (first.course files).exchanges)).following (first.course files).exchanges := by
  induction first generalizing files with
  | done value => rfl
  | ask request later ih =>
    exact congrArg (Course.following · [⟨request, files.answer request⟩])
      (ih (files.answer request) (files.next ⟨request, files.answer request⟩))

/-- Without the events below a level all else is the same. -/
theorem course_upTo (session : Session α) (level : LogLevel) (files : Files) :
    (session.upTo level).course files =
      ⟨(session.course files).value,
        (session.course files).exchanges.filter (Exchange.isKept level)⟩ := by
  induction session generalizing files with
  | done value => rfl
  | ask request next ih =>
    have later := ih (files.answer request) (files.next ⟨request, files.answer request⟩)
    cases request with
    | log event =>
      by_cases low : event.level.rank ≤ level.rank
      · have kept : Exchange.isKept level ⟨.log event, ()⟩ = true := decide_eq_true low
        rw [upTo, if_pos low, course, later]
        exact congrArg (Course.mk _) (List.filter_cons_of_pos kept).symm
      · have dropped : ¬Exchange.isKept level ⟨.log event, ()⟩ = true :=
          fun kept => low (of_decide_eq_true kept)
        rw [upTo, if_neg low]
        exact later.trans (congrArg (Course.mk _) (List.filter_cons_of_neg dropped).symm)
    | isPresent | isFile | read | write | print | complain =>
      exact congrArg (Course.following · [_]) later

/-- A session that only looks things up and logs, along every path. -/
inductive IsQuiet : Session α → Prop
  | done (value : α) : IsQuiet (.done value)
  | ask (request : Request) (next : request.Answer → Session α) (here : request.IsQuiet)
      (later : ∀ answer, IsQuiet (next answer)) : IsQuiet (.ask request next)

namespace IsQuiet

theorem request (request : Request) (quiet : request.IsQuiet) :
    (Session.request request).IsQuiet :=
  .ask request _ quiet fun answer => .done answer

theorem bind (quiet : first.IsQuiet) (following : ∀ value, (next value).IsQuiet) :
    (first >>= next).IsQuiet := by
  induction quiet with
  | done value => exact following value
  | ask request _ here _ ih => exact .ask request _ here ih

theorem forM {action : β → Session Unit} (quiet : ∀ item, (action item).IsQuiet)
    (items : List β) : (items.forM action).IsQuiet := by
  induction items with
  | nil => exact .done ()
  | cons item rest ih => exact (quiet item).bind fun _ => ih

theorem mapM {action : β → Session α} (quiet : ∀ item, (action item).IsQuiet) (items : List β) :
    (items.mapM action).IsQuiet := by
  induction items with
  | nil => exact .done []
  | cons item rest ih =>
    rw [List.mapM_cons]
    exact (quiet item).bind fun _ => ih.bind fun _ => .done _

theorem findM? {test : β → Session Bool} (quiet : ∀ item, (test item).IsQuiet) (items : List β) :
    (items.findM? test).IsQuiet := by
  induction items with
  | nil => exact .done none
  | cons item rest ih =>
    refine (quiet item).bind fun found => ?_
    cases found with
    | true => exact .done _
    | false => exact ih

theorem exchanges {session : Session α} (quiet : session.IsQuiet) (files : Files) :
    Exchange.AllQuiet (session.course files).exchanges := by
  induction quiet generalizing files with
  | done value => exact fun _ absent => absurd absent List.not_mem_nil
  | ask request next here _ ih =>
    exact List.forall_mem_cons.mpr ⟨here, ih (files.answer request) _⟩

theorem after_eq {session : Session α} (quiet : session.IsQuiet) (files : Files) :
    files.after (session.course files).exchanges = files :=
  (quiet.exchanges files).after_eq files

/-- Nothing but the value of a quiet session goes into what follows it. -/
theorem course_bind (quiet : first.IsQuiet) (next : α → Session β) (files : Files) :
    (first >>= next).course files =
      ((next (first.course files).value).course files).following
        (first.course files).exchanges := by
  rw [Session.course_bind, quiet.after_eq]

theorem value_bind (quiet : first.IsQuiet) (next : α → Session β) (files : Files) :
    ((first >>= next).course files).value =
      ((next (first.course files).value).course files).value := by
  rw [quiet.course_bind]
  rfl

theorem value_mapM {action : β → Session α} (quiet : ∀ item, (action item).IsQuiet)
    (items : List β) (files : Files) :
    ((items.mapM action).course files).value =
      items.map fun item => ((action item).course files).value := by
  induction items with
  | nil => rfl
  | cons item rest ih =>
    rw [List.mapM_cons, (quiet item).value_bind, (mapM quiet rest).value_bind, ih]
    rfl

theorem value_findM? {test : β → Session Bool} (quiet : ∀ item, (test item).IsQuiet)
    (items : List β) (files : Files) :
    ((items.findM? test).course files).value =
      items.find? fun item => ((test item).course files).value := by
  induction items with
  | nil => rfl
  | cons item rest ih =>
    refine ((quiet item).value_bind _ files).trans ?_
    rw [List.find?_cons]
    cases ((test item).course files).value with
    | true => rfl
    | false => exact ih

end IsQuiet

end Session

/-! ### Steps that may fail -/

namespace Action

/-- What an action results in over files. -/
def result (action : Action α) (files : Files) : Except Failure α := (action.run.course files).value

/-- An action that only looks things up and logs. -/
abbrev IsQuiet (action : Action α) : Prop := action.run.IsQuiet

theorem result_liftAs {ε : Type} (failure : ε → Failure) (result : Except ε α) (files : Files) :
    Action.result (liftAs failure result) files = result.mapError failure :=
  rfl

theorem result_lift (session : Session α) (files : Files) :
    result (liftM session) files = .ok (session.course files).value := by
  change ((session >>= fun value => .done (Except.ok value)).course files).value = _
  rw [Session.course_bind]
  rfl

theorem course_request_bind (request : Request) (next : request.Answer → Action β)
    (files : Files) :
    (liftM (Session.request request) >>= next : Action β).run.course files =
      ((next (files.answer request)).run.course
        (files.next ⟨request, files.answer request⟩)).following
          [⟨request, files.answer request⟩] :=
  rfl

namespace IsQuiet

variable {first : Action α} {next : α → Action β} {files : Files}

theorem liftAs {ε : Type} (failure : ε → Failure) (result : Except ε α) :
    IsQuiet (liftAs failure result) :=
  .done _

theorem lift {session : Session α} (quiet : session.IsQuiet) : IsQuiet (liftM session) :=
  quiet.bind fun value => .done (Except.ok value)

theorem bind (quiet : IsQuiet first) (following : ∀ value, IsQuiet (next value)) :
    IsQuiet (first >>= next) :=
  Session.IsQuiet.bind quiet fun result =>
    match result with
    | .ok value => following value
    | .error failure => .done (Except.error failure)

theorem course_bind_error {failure : Failure} (quiet : IsQuiet first)
    (failed : result first files = .error failure) (next : α → Action β) :
    (first >>= next).run.course files = ⟨.error failure, (first.run.course files).exchanges⟩ := by
  rw [ExceptT.run_bind, Session.IsQuiet.course_bind quiet]
  rw [result] at failed
  rw [failed]
  exact congrArg (Course.mk _) (List.append_nil _)

theorem course_bind_ok {value : α} (quiet : IsQuiet first)
    (made : result first files = .ok value) (next : α → Action β) :
    (first >>= next).run.course files =
      ((next value).run.course files).following (first.run.course files).exchanges := by
  rw [ExceptT.run_bind, Session.IsQuiet.course_bind quiet]
  rw [result] at made
  rw [made]

/-- Files are as they were when a quiet action ends, so only its result goes into the next one. -/
theorem result_bind (quiet : IsQuiet first) (next : α → Action β) (files : Files) :
    result (first >>= next) files =
      result first files >>= fun value => result (next value) files := by
  rw [result]
  cases made : result first files with
  | ok value =>
    rw [quiet.course_bind_ok made]
    rfl
  | error failure =>
    rw [quiet.course_bind_error made]
    rfl

theorem result_lift_bind {session : Session α} (quiet : session.IsQuiet) (next : α → Action β)
    (files : Files) :
    result (liftM session >>= next) files =
      result (next (session.course files).value) files := by
  rw [(lift quiet).result_bind, result_lift]
  rfl

end IsQuiet

end Action

/-! ### Every host -/

/-- A host that works on a state and answers as the files in it do. -/
structure Host.IsFaithful {World : Type} (host : Host (StateM World)) (files : World → Files)
    (output : World → Text) : Prop where
  answers : ∀ request world, ((host request).run world).1 = (files world).answer request
  changes : ∀ request world, files ((host request).run world).2 =
    (files world).next ⟨request, (files world).answer request⟩
  prints : ∀ request world, output ((host request).run world).2 =
    output world ++ Exchange.printed ⟨request, (files world).answer request⟩

/-- The host that keeps files and what was printed. -/
def Host.ofFiles : Host (StateM (Files × Text)) := fun request => do
  let (files, printed) ← get
  let exchange : Exchange := ⟨request, files.answer request⟩
  set (files.next exchange, printed ++ exchange.printed)
  return exchange.answer

theorem Host.ofFiles_isFaithful : Host.ofFiles.IsFaithful Prod.fst Prod.snd :=
  ⟨fun _ _ => rfl, fun _ _ => rfl, fun _ _ => rfl⟩

/-- **A faithful host** goes through the course that its files make of a session. -/
theorem perform_of_isFaithful {World : Type} {host : Host (StateM World)} {files : World → Files}
    {output : World → Text} (faithful : host.IsFaithful files output) (session : Session α)
    (world : World) :
    ((session.perform host).run world).1 = (session.course (files world)).value ∧
      files ((session.perform host).run world).2 =
        (files world).after (session.course (files world)).exchanges ∧
      output ((session.perform host).run world).2 =
        output world ++ (session.course (files world)).output := by
  induction session generalizing world with
  | done value => exact ⟨rfl, rfl, (List.append_nil _).symm⟩
  | ask request next ih =>
    have step : ((Session.ask request next).perform host).run world =
        ((next ((files world).answer request)).perform host).run ((host request).run world).2 := by
      rw [← faithful.answers]
      rfl
    obtain ⟨value, changed, printed⟩ :=
      ih ((files world).answer request) ((host request).run world).2
    rw [faithful.changes] at value changed printed
    rw [faithful.prints] at printed
    rw [step]
    exact ⟨value, changed, printed.trans (List.append_assoc _ _ _)⟩

end Scaffold.CommandLine
