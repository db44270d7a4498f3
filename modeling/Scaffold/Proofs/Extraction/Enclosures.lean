/-
**Where a namespace ends.**

A namespace with braces ends at its own closing brace, unless a namespace without braces is entered
in between. That one is never left, and what is open around it stays open with it, to the end of the
source. So what each landmark contributes to the namespaces of an enum can be read off the landmarks
that follow it, without a stack (`Landmark.stays`).

* `names_of_enclosed`: landmarks in a namespace leave nothing after its closing brace, but if one of
  them is a namespace without braces, then the names of all namespaces around it remain;
* `scopePath_run`: the namespaces that a walk has open are those that the landmarks contribute;
* `enclosing_of_parse`: in what is extracted from a source, each class is in the namespaces that
  the landmarks before its enum contribute.
-/

import Scaffold.Proofs.Extraction.Landmarks

namespace Scaffold

namespace Landmark

variable {marks front later body : List Landmark} {inside : Nat}

/-! ### What landmarks contribute -/

/-- What follows the brace that ends a namespace in which `inside` more braces are open. There is
none if a namespace without braces is entered before that brace. -/
def afterBrace? : (inside : Nat) → List Landmark → Option (List Landmark)
  | _, [] => none
  | _, .fileScope _ :: _ => none
  | inside, .enumeration _ :: later => afterBrace? inside later
  | inside, .openBrace :: later => afterBrace? (inside + 1) later
  | inside, .namespaced _ :: later => afterBrace? (inside + 1) later
  | 0, .closeBrace :: later => some later
  | inside + 1, .closeBrace :: later => afterBrace? inside later

/-- The names that a landmark contributes to what stands after `later`, which follows it. -/
def stays : Landmark → (later : List Landmark) → List Text
  | .namespaced path, later => if (afterBrace? 0 later).isSome then [] else path
  | .fileScope path, _ => path
  | .openBrace, _ | .closeBrace, _ | .enumeration _, _ => []

/-- The names that landmarks contribute to what stands after `later`, which follows them. -/
def contributed : List Landmark → (later : List Landmark) → List Text
  | [], _ => []
  | mark :: marks, later => mark.stays (marks ++ later) ++ contributed marks later

/-- The names of the namespaces in which something stands that landmarks come before. -/
def names (front : List Landmark) : List Text := contributed front []

/-- A namespace without braces is entered. -/
def isFileScope : Landmark → Bool
  | .fileScope _ => true
  | _ => false

/-- A brace is opened. -/
def opens : Landmark → Bool
  | .openBrace | .namespaced _ => true
  | _ => false

/-- An enum stands there. -/
def isEnumeration : Landmark → Bool
  | .enumeration _ => true
  | _ => false

/-- Every brace has its counterpart. -/
inductive Balanced : List Landmark → Prop
  | nil : Balanced []
  | enumeration (name : Text) {later : List Landmark} : Balanced later →
      Balanced (.enumeration name :: later)
  | fileScope (path : List Text) {later : List Landmark} : Balanced later →
      Balanced (.fileScope path :: later)
  | braces {opening : Landmark} {inner later : List Landmark} : opening.opens = true →
      Balanced inner → Balanced later → Balanced (opening :: (inner ++ .closeBrace :: later))

theorem names_cons (mark : Landmark) (marks : List Landmark) :
    names (mark :: marks) = mark.stays marks ++ names marks := by
  rw [names, contributed, List.append_nil, names]

theorem contributed_append (front marks later : List Landmark) :
    contributed (front ++ marks) later =
      contributed front (marks ++ later) ++ contributed marks later := by
  induction front with
  | nil => rfl
  | cons mark front ih =>
    rw [List.cons_append, contributed, ih, contributed, List.append_assoc, List.append_assoc]

theorem names_append (front marks : List Landmark) :
    names (front ++ marks) = contributed front marks ++ names marks := by
  rw [names, contributed_append, List.append_nil, names]

theorem afterBrace?_of_opens {opening : Landmark} (isOpening : opening.opens = true) (inside : Nat)
    (later : List Landmark) :
    afterBrace? inside (opening :: later) = afterBrace? (inside + 1) later := by
  cases opening <;> first | rfl | cases isOpening

/-- The brace that ends an outer namespace is found after the one that ends the inner one. -/
theorem afterBrace?_add (inside outside : Nat) (marks : List Landmark) :
    afterBrace? (inside + outside + 1) marks =
      (afterBrace? inside marks).bind (afterBrace? outside) := by
  induction marks generalizing inside with
  | nil => rfl
  | cons mark marks ih =>
    have deeper := ih (inside + 1)
    rw [Nat.add_right_comm inside 1 outside] at deeper
    cases mark with
    | fileScope path => rfl
    | enumeration name => exact ih inside
    | openBrace | namespaced path => exact deeper
    | closeBrace =>
      cases inside with
      | zero => rw [Nat.zero_add, afterBrace?, afterBrace?, Option.bind_some]
      | succ inside =>
        rw [Nat.add_right_comm inside 1 outside, afterBrace?, afterBrace?, ih inside]

theorem suffix_of_afterBrace? (found : afterBrace? inside marks = some later) :
    later <:+ marks := by
  induction marks generalizing inside with
  | nil => cases found
  | cons mark marks ih =>
    cases mark with
    | fileScope path => cases found
    | enumeration name | openBrace | namespaced path =>
      exact (ih found).trans (List.suffix_cons _ _)
    | closeBrace =>
      cases inside with
      | zero =>
        cases found
        exact List.suffix_cons _ _
      | succ inside => exact (ih found).trans (List.suffix_cons _ _)

/-- Nothing in a namespace contributes to what stands after the brace that ends it. -/
theorem names_of_afterBrace? (found : afterBrace? inside marks = some later) :
    names marks = names later := by
  induction marks generalizing inside with
  | nil => cases found
  | cons mark marks ih =>
    rw [names_cons]
    cases mark with
    | fileScope path => cases found
    | enumeration name | openBrace => exact ih found
    | namespaced path =>
      have ends : (afterBrace? 0 marks).isSome = true := by
        have both := afterBrace?_add 0 inside marks
        rw [Nat.zero_add, show afterBrace? (inside + 1) marks = some later from found] at both
        obtain ⟨next, ended, -⟩ := Option.bind_eq_some_iff.mp both.symm
        exact Option.isSome_of_eq_some ended
      rw [stays, if_pos ends]
      exact ih found
    | closeBrace =>
      cases inside with
      | zero => cases found; rfl
      | succ inside => exact ih found

/-- A balanced body does not matter to the braces around it, unless it has a namespace without
braces. -/
theorem Balanced.afterBrace?_append (balanced : Balanced body) (inside : Nat)
    (later : List Landmark) :
    afterBrace? inside (body ++ later) =
      if body.any isFileScope then none else afterBrace? inside later := by
  induction balanced generalizing inside later with
  | nil => rfl
  | enumeration name balanced ih => exact ih inside later
  | fileScope path balanced ih => rfl
  | @braces opening inner next isOpening inBalance nextInBalance ihInner ihNext =>
    have noFileScope : opening.isFileScope = false := by
      cases opening <;> first | rfl | cases isOpening
    rw [List.cons_append, List.append_assoc, List.cons_append, afterBrace?_of_opens isOpening,
      ihInner, afterBrace?, ihNext, List.any_cons, List.any_append, List.any_cons, noFileScope]
    cases inner.any isFileScope <;> rfl

/-- Whether a namespace ends depends on what follows it only by whether that ends it. -/
theorem isSome_afterBrace?_append {first second : List Landmark}
    (same : ∀ inside, (afterBrace? inside first).isSome = (afterBrace? inside second).isSome)
    (front : List Landmark) (inside : Nat) :
    (afterBrace? inside (front ++ first)).isSome =
      (afterBrace? inside (front ++ second)).isSome := by
  induction front generalizing inside with
  | nil => exact same inside
  | cons mark front ih =>
    cases mark with
    | fileScope path => rfl
    | enumeration name => exact ih inside
    | openBrace | namespaced path => exact ih (inside + 1)
    | closeBrace =>
      cases inside with
      | zero => rfl
      | succ inside => exact ih inside

theorem contributed_congr {first second : List Landmark}
    (same : ∀ inside, (afterBrace? inside first).isSome = (afterBrace? inside second).isSome)
    (front : List Landmark) : contributed front first = contributed front second := by
  induction front with
  | nil => rfl
  | cons mark front ih =>
    have stay : mark.stays (front ++ first) = mark.stays (front ++ second) := by
      cases mark with
      | namespaced path => rw [stays, stays, isSome_afterBrace?_append same]
      | _ => rfl
    rw [contributed, contributed, stay, ih]

/-- **After the closing brace of a namespace** everything is as it would be without the namespace
and its body. But if a namespace without braces is entered in the body, then the names of the one
with braces remain. -/
theorem names_of_enclosed (before : List Landmark) (path : List Text) (balanced : Balanced body)
    (after : List Landmark) :
    names (before ++ .namespaced path :: (body ++ .closeBrace :: after)) =
      if body.any isFileScope then
        contributed before (.namespaced path :: (body ++ .closeBrace :: after)) ++ path ++
          names (body ++ .closeBrace :: after)
      else names (before ++ after) := by
  have ends := fun inside => balanced.afterBrace?_append inside (.closeBrace :: after)
  rw [names_append, names_cons, stays, ends]
  by_cases isFile : body.any isFileScope = true
  · rw [if_pos isFile, if_pos isFile, Option.isSome_none, if_neg Bool.false_ne_true,
      List.append_assoc]
  · simp only [if_neg isFile, afterBrace?] at ends ⊢
    have same : ∀ inside,
        (afterBrace? inside (.namespaced path :: (body ++ .closeBrace :: after))).isSome =
          (afterBrace? inside after).isSome := fun inside => by
      rw [afterBrace?, ends, afterBrace?]
    rw [contributed_congr same, names_of_afterBrace? (ends 0), Option.isSome_some, if_pos rfl,
      List.nil_append, names_append]

end Landmark

namespace Outline

open Landmark

variable {standing : Standing} {mark : Landmark} {marks later : List Landmark}
  {inner outer : List Scope} {depth inside : Nat}

/-! ### Open namespaces -/

/-- Nothing is closed at a depth at which the innermost scope stays, or inside it. -/
theorem closeScopes_of_settled (settled : ∀ scope ∈ outer.head?, scope.endsAt depth = false)
    (below : depth ≤ inside) : closeScopes inside outer = outer := by
  cases outer with
  | nil => rfl
  | cons scope outer =>
    have lasts := settled scope rfl
    refine List.dropWhile_cons_of_neg ?_
    unfold Scope.endsAt at lasts ⊢
    split at lasts
    · simp only [decide_eq_false_iff_not, decide_eq_true_eq] at lasts ⊢
      omega
    · exact Bool.false_ne_true

theorem closeScopes_append (settled : ∀ scope ∈ outer.head?, scope.endsAt depth = false)
    (below : depth ≤ inside) :
    closeScopes inside (inner ++ outer) = closeScopes inside inner ++ outer := by
  have stay : outer.dropWhile (Scope.endsAt inside) = outer := closeScopes_of_settled settled below
  rw [closeScopes, List.dropWhile_append, stay]
  split
  · rename_i nothing
    rw [closeScopes, List.isEmpty_iff.mp nothing, List.nil_append]
  · rfl

/-- **At the brace that ends a namespace**, the walk is back where it was before that namespace. -/
theorem run_of_afterBrace? (settled : ∀ scope ∈ outer.head?, scope.endsAt depth = false)
    (ends : ∀ scope ∈ inner, scope.endsAt depth = true)
    (found : afterBrace? inside marks = some later) :
    Standing.run ⟨inner ++ outer, depth + inside + 1⟩ marks =
      Standing.run ⟨outer, depth⟩ later := by
  -- the inner scopes come and go with the braces, but none of them is left at the last one
  induction marks generalizing inner inside with
  | nil => cases found
  | cons mark marks ih =>
    cases mark with
    | fileScope path => cases found
    | enumeration name => exact ih ends found
    | openBrace => exact ih ends found
    | namespaced path =>
      have endsInner : ∀ scope ∈ ⟨path, some (depth + inside + 2)⟩ :: inner,
          scope.endsAt depth = true :=
        List.forall_mem_cons.mpr ⟨decide_eq_true (by omega), ends⟩
      exact ih endsInner found
    | closeBrace =>
      cases inside with
      | zero =>
        cases found
        have closed : closeScopes depth inner = [] := List.dropWhile_eq_nil_iff.mpr ends
        show Standing.run ⟨closeScopes depth (inner ++ outer), depth⟩ later = _
        rw [closeScopes_append settled le_rfl, closed, List.nil_append]
      | succ inside =>
        show Standing.run ⟨closeScopes (depth + inside + 1) (inner ++ outer),
          depth + inside + 1⟩ marks = _
        rw [closeScopes_append settled (by omega)]
        exact ih (fun scope member => ends scope ((List.dropWhile_sublist _).subset member)) found

/-- None of the open namespaces ends at a brace among the landmarks. The outer ones end after the
inner ones, so it is enough that the innermost does not. -/
def Standing.Keeps (standing : Standing) (marks : List Landmark) : Prop :=
  ∀ scope ∈ standing.scopes.head?, ∀ inside ∈ scope.depth,
    inside ≤ standing.depth ∧ afterBrace? (standing.depth - inside) marks = none

theorem Standing.Keeps.settled (keeps : standing.Keeps marks) :
    ∀ scope ∈ standing.scopes.head?, scope.endsAt standing.depth = false := by
  intro scope first
  unfold Scope.endsAt
  split
  · rename_i inside found
    exact decide_eq_false (Nat.not_lt.mpr (keeps scope first inside found).1)
  · rfl

/-- **A landmark is passed** that is no namespace with an end: what it contributes is entered, and
what was open stays open. -/
theorem Standing.Keeps.pass (keeps : standing.Keeps (mark :: later))
    (lasts : ∀ path, mark = .namespaced path → afterBrace? 0 later = none) :
    (standing.pass mark).Keeps later ∧
      scopePath (standing.pass mark).scopes = scopePath standing.scopes ++ mark.stays later := by
  cases mark with
  | openBrace =>
    refine ⟨fun scope first inside found => ?_, (List.append_nil _).symm⟩
    obtain ⟨below, stays⟩ := keeps scope first inside found
    refine ⟨Nat.le_succ_of_le below, ?_⟩
    show afterBrace? (standing.depth + 1 - inside) later = none
    rw [Nat.sub_add_comm below]
    exact stays
  | closeBrace =>
    have keepsLater : Standing.Keeps ⟨standing.scopes, standing.depth - 1⟩ later := by
      intro scope first inside found
      obtain ⟨below, stays⟩ := keeps scope first inside found
      cases more : standing.depth - inside with
      | zero =>
        rw [more] at stays
        cases stays
      | succ rest =>
        rw [more] at stays
        refine ⟨Nat.le_sub_one_of_lt (by omega), ?_⟩
        show afterBrace? (standing.depth - 1 - inside) later = none
        rwa [show standing.depth - 1 - inside = rest by omega]
    rw [Standing.pass, closeScopes_of_settled keepsLater.settled le_rfl]
    exact ⟨keepsLater, (List.append_nil _).symm⟩
  | namespaced path =>
    have remains := lasts path rfl
    refine ⟨fun scope first inside found => ?_, ?_⟩
    · cases first
      cases found
      exact ⟨le_rfl, (Nat.sub_self (standing.depth + 1)).symm ▸ remains⟩
    · rw [Standing.pass, scopePath_cons, Landmark.stays, remains]
      rfl
  | fileScope path =>
    refine ⟨fun scope first inside found => ?_, scopePath_cons _ _⟩
    cases first
    cases found
  | enumeration name => exact ⟨keeps, (List.append_nil _).symm⟩

/-- **The open namespaces** at the end of some landmarks are those that were open before them, if
none of these ends, with those that the landmarks contribute. -/
theorem scopePath_run (keeps : standing.Keeps marks) :
    scopePath (standing.run marks).scopes = scopePath standing.scopes ++ names marks := by
  induction size : marks.length using Nat.strong_induction_on generalizing standing marks with
  | _ size ih =>
  cases marks with
  | nil => exact (List.append_nil _).symm
  | cons mark later =>
    rw [List.length_cons] at size
    by_cases ends : ∃ path next, mark = .namespaced path ∧ afterBrace? 0 later = some next
    · obtain ⟨path, next, rfl, found⟩ := ends
      have endsAlone : ∀ scope ∈ [Scope.mk path (some (standing.depth + 1))],
          scope.endsAt standing.depth = true :=
        List.forall_mem_singleton.mpr (decide_eq_true (Nat.lt_succ_self _))
      have back : standing.run (.namespaced path :: later) = standing.run next :=
        run_of_afterBrace? keeps.settled endsAlone found
      have keepsNext : standing.Keeps next := by
        intro scope first inside among
        obtain ⟨below, stays⟩ := keeps scope first inside among
        refine ⟨below, ?_⟩
        have both := afterBrace?_add 0 (standing.depth - inside) later
        rwa [Nat.zero_add, found, Option.bind_some, show afterBrace? _ later = none from stays,
          eq_comm] at both
      have shorter := (suffix_of_afterBrace? found).length_le
      rw [back, ih _ (by omega) keepsNext rfl, names_cons, names_of_afterBrace? found,
        Landmark.stays, found]
      rfl
    · have lasts : ∀ path, mark = .namespaced path → afterBrace? 0 later = none :=
        fun path same => Option.eq_none_iff_forall_not_mem.mpr fun next found =>
          ends ⟨path, next, same, found⟩
      obtain ⟨keepsLater, added⟩ := keeps.pass lasts
      show scopePath ((standing.pass mark).run later).scopes = _
      rw [ih _ (by omega) keepsLater rfl, added, names_cons, List.append_assoc]

/-! ### Enums among landmarks -/

theorem Standing.enums_append (standing : Standing) (front back : List Landmark) :
    standing.enums (front ++ back) = standing.enums front ++ (standing.run front).enums back := by
  induction front generalizing standing with
  | nil => rfl
  | cons mark front ih =>
    cases mark with
    | enumeration name => exact congrArg _ (ih standing)
    | _ => exact ih (standing.pass _)

theorem Standing.length_enums (standing : Standing) (marks : List Landmark) :
    (standing.enums marks).length = marks.countP isEnumeration := by
  induction marks generalizing standing with
  | nil => rfl
  | cons mark marks ih =>
    cases mark with
    | enumeration name =>
      rw [List.countP_cons_of_pos rfl, ← ih standing]
      rfl
    | _ =>
      rw [List.countP_cons_of_neg Bool.false_ne_true, ← ih (standing.pass _)]
      rfl

/-- Each enum is listed in the namespaces that are open at its place. -/
theorem Standing.getElem?_enums (standing : Standing) (front : List Landmark) (name : Text)
    (back : List Landmark) :
    (standing.enums (front ++ .enumeration name :: back))[front.countP isEnumeration]? =
      some (scopePath (standing.run front).scopes, name) := by
  rw [enums_append, ← length_enums standing, List.getElem?_append_right le_rfl, Nat.sub_self]
  rfl

end Outline

namespace Extractor

open Landmark

/-- **Where a namespace ends**. The classes that are extracted from a source belong to the enums
among the landmarks of its tokens, in their order. Each is in the namespaces that the landmarks
before its enum contribute. If there is among these a namespace with braces, a balanced body and the
brace that closes it, then the class is where it would be without all of these; but if a namespace
without braces is entered in that body, then the names of the one with braces remain. -/
theorem enclosing_of_parse {extractor : Extractor} {source : Text} {classes : List Class}
    (parsed : extractor.parse source = .ok classes) :
    ∃ tokens, Token.tokenize source = .ok tokens ∧ (∃ marks, Layout.Landmarks marks tokens) ∧
      ∀ marks, Layout.Landmarks marks tokens →
        classes.length = marks.countP isEnumeration ∧
        ∀ front name back, marks = front ++ .enumeration name :: back →
          classes[front.countP isEnumeration]?.map (fun cls => (cls.enclosing, cls.name)) =
              some (Text.join ['.'] (names front), name) ∧
            ∀ before path body after,
              front = before ++ .namespaced path :: (body ++ .closeBrace :: after) →
              Balanced body →
              names front =
                if body.any isFileScope then
                  contributed before (.namespaced path :: (body ++ .closeBrace :: after)) ++ path ++
                    names (body ++ .closeBrace :: after)
                else names (before ++ after) := by
  obtain ⟨tokens, cut, outlined⟩ := outline_of_parse parsed
  have complete := defect_eq_none_of_outline outlined
  refine ⟨tokens, cut, Outline.exists_landmarks complete, fun marks written => ?_⟩
  have same : classes.map (fun cls => (cls.enclosing, cls.name)) =
      (Outline.Standing.enums ⟨[], 0⟩ marks).map fun enum =>
        (Text.join ['.'] enum.1, enum.2) := by
    have skeletons := congrArg (List.map fun skeleton => (skeleton.1.1, skeleton.1.2.2))
      (skeletons_of_parse cut parsed)
    rw [Extractor.skeletons, List.map_map, List.map_map] at skeletons
    rw [← Outline.placed_of_landmarks written complete, Outline.placed, List.map_map]
    exact skeletons
  refine ⟨?_, fun front name back split => ⟨?_, ?_⟩⟩
  · have lengths := congrArg List.length same
    rwa [List.length_map, List.length_map, Outline.Standing.length_enums] at lengths
  · have keeps : Outline.Standing.Keeps ⟨[], 0⟩ front :=
      fun _ absent => absurd absent (Option.not_mem_none _)
    rw [← List.getElem?_map, same, split, List.getElem?_map, Outline.Standing.getElem?_enums,
      Outline.scopePath_run keeps]
    rfl
  · rintro before path body after rfl balanced
    exact names_of_enclosed before path balanced after

/-- An enum in a namespace and one after it, which is in none. -/
theorem enclosing_of_parse_after : ∃ source tokens marks classes,
    source = "namespace a\x7benum E\x7bA\x7d;\x7denum F\x7bB\x7d;".toList ∧
    Token.tokenize source = .ok tokens ∧ Layout.Landmarks marks tokens ∧
    marks = [.namespaced ["a".toList], .enumeration "E".toList, .closeBrace,
      .enumeration "F".toList] ∧
    standard.parse source = .ok classes ∧ classes.length = 2 ∧
    classes[1]?.map (fun cls => (cls.enclosing, cls.name)) = some ([], "F".toList) := by
  obtain ⟨tokens, marks, cut, written, listed⟩ : ∃ tokens marks,
      Token.tokenize "namespace a\x7benum E\x7bA\x7d;\x7denum F\x7bB\x7d;".toList = .ok tokens ∧
      Layout.Landmarks marks tokens ∧
      marks = [.namespaced ["a".toList], .enumeration "E".toList, .closeBrace,
        .enumeration "F".toList] := by
    exact ⟨[⟨.identifier, "namespace".toList, 0⟩, ⟨.whitespace, " ".toList, 9⟩,
        ⟨.identifier, "a".toList, 10⟩, ⟨.openBrace, "\x7b".toList, 11⟩,
        ⟨.identifier, "enum".toList, 12⟩, ⟨.whitespace, " ".toList, 16⟩,
        ⟨.identifier, "E".toList, 17⟩, ⟨.openBrace, "\x7b".toList, 18⟩,
        ⟨.identifier, "A".toList, 19⟩, ⟨.closeBrace, "\x7d".toList, 20⟩,
        ⟨.semicolon, ";".toList, 21⟩, ⟨.closeBrace, "\x7d".toList, 22⟩,
        ⟨.identifier, "enum".toList, 23⟩, ⟨.whitespace, " ".toList, 27⟩,
        ⟨.identifier, "F".toList, 28⟩, ⟨.openBrace, "\x7b".toList, 29⟩,
        ⟨.identifier, "B".toList, 30⟩, ⟨.closeBrace, "\x7d".toList, 31⟩,
        ⟨.semicolon, ";".toList, 32⟩], _, by decide +kernel,
      .namespaced (by decide) (.skip (.inl rfl) (.single rfl (by decide) _)) rfl
        (.enumeration (by decide) (.spaced rfl rfl (by decide) (by decide) _) (.nil _) rfl
          (.member rfl (.nothing _) (.closed _ rfl)) (.filler (by decide) (.closeBrace rfl
            (.enumeration (by decide) (.spaced rfl rfl (by decide) (by decide) _) (.nil _) rfl
              (.member rfl (.nothing _) (.closed _ rfl)) (.filler (by decide) .ended))))), rfl⟩
  obtain ⟨classes, parsed⟩ := Option.isSome_iff_exists.mp
    (show (standard.parse
        "namespace a\x7benum E\x7bA\x7d;\x7denum F\x7bB\x7d;".toList).toOption.isSome = true by
      decide +kernel)
  have ran := ok_of_toOption parsed
  obtain ⟨_, again, -, placed⟩ := enclosing_of_parse ran
  cases cut.symm.trans again
  obtain ⟨count, each⟩ := placed marks written
  obtain ⟨found, enclosed⟩ := each [.namespaced ["a".toList], .enumeration "E".toList, .closeBrace]
    "F".toList [] listed
  rw [enclosed [] ["a".toList] [.enumeration "E".toList] [] rfl (.enumeration _ .nil)] at found
  have two : classes.length = 2 := by
    rw [count, listed]
    rfl
  exact ⟨_, tokens, marks, classes, rfl, cut, written, listed, ran, two, found⟩

/-- A namespace without braces in one with braces: the enum after the closing brace is in both. -/
theorem enclosing_after_fileScope : ∃ source tokens marks classes,
    source = "namespace a\x7b\nnamespace b;\n\x7d\nenum E\x7bA\x7d;".toList ∧
    Token.tokenize source = .ok tokens ∧ Layout.Landmarks marks tokens ∧
    marks = [.namespaced ["a".toList], .fileScope ["b".toList], .closeBrace,
      .enumeration "E".toList] ∧
    Balanced [.fileScope ["b".toList]] ∧
    standard.parse source = .ok classes ∧
    classes.map (fun cls => (cls.enclosing, cls.name)) = [("a.b".toList, "E".toList)] := by
  obtain ⟨classes, parsed, placed⟩ := Option.map_eq_some_iff.mp
    (show (standard.parse
        "namespace a\x7b\nnamespace b;\n\x7d\nenum E\x7bA\x7d;".toList).toOption.map
        (List.map fun cls => (cls.enclosing, cls.name)) = some [("a.b".toList, "E".toList)] by
      decide +kernel)
  exact ⟨_, [⟨.identifier, "namespace".toList, 0⟩, ⟨.whitespace, " ".toList, 9⟩,
      ⟨.identifier, "a".toList, 10⟩, ⟨.openBrace, "\x7b".toList, 11⟩, ⟨.newline, "\n".toList, 12⟩,
      ⟨.identifier, "namespace".toList, 13⟩, ⟨.whitespace, " ".toList, 22⟩,
      ⟨.identifier, "b".toList, 23⟩, ⟨.semicolon, ";".toList, 24⟩, ⟨.newline, "\n".toList, 25⟩,
      ⟨.closeBrace, "\x7d".toList, 26⟩, ⟨.newline, "\n".toList, 27⟩,
      ⟨.identifier, "enum".toList, 28⟩, ⟨.whitespace, " ".toList, 32⟩,
      ⟨.identifier, "E".toList, 33⟩, ⟨.openBrace, "\x7b".toList, 34⟩,
      ⟨.identifier, "A".toList, 35⟩, ⟨.closeBrace, "\x7d".toList, 36⟩,
      ⟨.semicolon, ";".toList, 37⟩],
    _, classes, rfl, by decide +kernel,
    .namespaced (by decide) (.skip (.inl rfl) (.single rfl (by decide) _)) rfl
      (.filler (by decide) (.fileScope (by decide)
        (.skip (.inl rfl) (.single rfl (by decide) _)) rfl
        (.filler (by decide) (.closeBrace rfl (.filler (by decide) (.enumeration (by decide)
          (.spaced rfl rfl (by decide) (by decide) _) (.nil _) rfl
          (.member rfl (.nothing _) (.closed _ rfl)) (.filler (by decide) .ended))))))),
    rfl, .fileScope _ .nil, ok_of_toOption parsed, placed⟩

end Extractor

end Scaffold
