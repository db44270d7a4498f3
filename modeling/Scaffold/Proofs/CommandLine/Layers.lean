/-
**Settings in layers.**

A document is laid over the standard settings, and a flag over both. What the document says by
itself is what it makes of an empty table. A value that the standard settings have in a section is
then the one that the document says there, or else the standard one: laying a setting under a path
does the same to both sides, at the value itself (`Layered.laidUnder`) and in every table above it
(`Within.laidUnder`), whether it says something there, passes by, or takes the section away. An
empty table says nothing, since laid over a text it leaves the text.

So the delimiter of a configuration is that of the flag, else that of the file, else the standard
one, and the mode is that of the file or the standard one (`configuration_layers`).
-/

import Scaffold.Proofs.CommandLine.Sessions
import Scaffold.Proofs.Results

namespace Scaffold

namespace Setting

variable {holder value below : Setting} {key other : Text} {rest : List Step}
  {both? upper? : Option Setting} {both upper : List (Text × Setting)}

/-! ### Values under a path -/

/-- What is there after a value is laid, under a path, over what may be there. -/
def laidUnder (value : Setting) (path : List Step) (present? : Option Setting) : Setting :=
  match path with
  | [] => value.laidOn present?
  | step :: later => (present?.getD nothing).put value (step :: later)

theorem laidUnder_some (value : Setting) (path : List Step) (holder : Setting) :
    laidUnder value path (some holder) = holder.put value path := by
  cases path <;> rfl

theorem put_entry (holder value : Setting) (key : Text) (rest : List Step) :
    holder.put value (.entry key :: rest) =
      holder.set key (laidUnder value rest (holder.get? key)) := by
  cases rest <;> rfl

theorem laidUnder_entry (value : Setting) (key : Text) (rest : List Step)
    (present? : Option Setting) :
    laidUnder value (.entry key :: rest) present? =
      (present?.getD nothing).set key
        (laidUnder value rest ((present?.getD nothing).get? key)) :=
  put_entry (present?.getD nothing) value key rest

/-- An item is laid into what is no list as it is laid into nothing at all. -/
theorem put_item_eq (value : Setting) (index : Int) (rest : List Step) {one another : Setting}
    (same : one.items = another.items) :
    one.put value (.item index :: rest) = another.put value (.item index :: rest) := by
  have place : one.placeOf index = another.placeOf index := by
    rw [placeOf, placeOf, same]
  cases rest with
  | nil => simp only [put, setItem, place, same]
  | cons step later => simp only [put, setItem, itemAt, place, same]

/-- An empty table is laid over like nothing at all. -/
theorem laidUnder_empty (value : Setting) (path : List Step) :
    laidUnder value path (some (table [])) = laidUnder value path none := by
  match path with
  | [] => cases value <;> rfl
  | .entry key :: later =>
    rw [laidUnder_entry, laidUnder_entry]
    rfl
  | .item index :: later => exact put_item_eq value index later rfl

/-- A text is laid over like nothing at all too, but an empty table leaves it. -/
theorem laidUnder_text (value : Setting) (path : List Step) (content : Text) :
    laidUnder value path (some (text content)) = laidUnder value path none ∨
      laidUnder value path (some (text content)) = text content ∧
        laidUnder value path none = table [] := by
  match path with
  | [] =>
    match value with
    | table [] => exact Or.inr ⟨rfl, rfl⟩
    | table (entry :: entries) => exact Or.inl rfl
    | nothing | text _ | boolean _ | integer _ | real _ | list _ => exact Or.inl rfl
  | .entry key :: later =>
    rw [laidUnder_entry, laidUnder_entry]
    exact Or.inl rfl
  | .item index :: later => exact Or.inl (put_item_eq value index later rfl)

/-! ### What a layer says at a place -/

/-- What is at a place over a standard value, `both?`, and what the layer alone has there,
`upper?`. -/
inductive Layered (below : Setting) : (both? upper? : Option Setting) → Prop
  | said (value : Setting) : Layered below (some value) (some value)
  | silent : Layered below (some below) none
  /-- An empty table was laid over the standard value. -/
  | empty : Layered below (some below) (some (table []))

/-- The same at one key of a table; both may have something else instead of the table. -/
inductive Within (key : Text) (Related : Option Setting → Option Setting → Prop) :
    (both? upper? : Option Setting) → Prop
  | said (value : Setting) : Within key Related (some value) (some value)
  | silent (both : List (Text × Setting)) (inside : Related (find? key both) none) :
      Within key Related (some (table both)) none
  | tables (both upper : List (Text × Setting))
      (inside : Related (find? key both) (find? key upper)) :
      Within key Related (some (table both)) (some (table upper))

theorem Layered.laidUnder {content : Text} (layered : Layered (text content) both? upper?)
    (value : Setting) (path : List Step) :
    Layered (text content) (some (laidUnder value path both?))
      (some (laidUnder value path upper?)) := by
  have laid : Layered (text content) (some (Setting.laidUnder value path (some (text content))))
      (some (Setting.laidUnder value path none)) := by
    rcases laidUnder_text value path content with same | ⟨kept, made⟩
    · rw [same]
      exact .said _
    · rw [kept, made]
      exact .empty
  cases layered with
  | said held => exact .said _
  | silent => exact laid
  | empty =>
    rw [laidUnder_empty]
    exact laid

namespace Within

variable {Related : Option Setting → Option Setting → Prop}

/-- A value laid under a key of both tables. -/
theorem set (inside : Related (find? key both) (find? key upper)) (value : Option Setting → Setting)
    (keeps : Related (some (value (find? key both))) (some (value (find? key upper))))
    (other : Text) :
    Related (find? key (replace other (value (find? other both)) both))
      (find? key (replace other (value (find? other upper)) upper)) := by
  rw [find?_replace, find?_replace]
  split
  · next same =>
    subst same
    exact keeps
  · exact inside

variable (keeps : ∀ {both? upper? : Option Setting}, Related both? upper? →
  ∀ (value : Setting) (path : List Step),
    Related (some (Setting.laidUnder value path both?))
      (some (Setting.laidUnder value path upper?)))

include keeps

/-- Entries laid over two tables one by one. -/
theorem allLaidOn (inside : Related (find? key both) (find? key upper))
    (entries : List (Text × Setting)) :
    Within key Related (some (Setting.allLaidOn entries (table both)))
      (some (Setting.allLaidOn entries (table upper))) := by
  induction entries generalizing both upper with
  | nil => exact .tables both upper inside
  | cons entry entries ih =>
    obtain ⟨other, value⟩ := entry
    exact ih (set inside (Setting.laidOn value) (keeps inside value []) other)

theorem laidUnder (within : Within key Related both? upper?) (value : Setting) (path : List Step) :
    Within key Related (some (laidUnder value path both?))
      (some (laidUnder value path upper?)) := by
  have laid {both upper : List (Text × Setting)}
      (inside : Related (find? key both) (find? key upper)) :
      Within key Related (some (Setting.laidUnder value path (some (table both))))
        (some (Setting.laidUnder value path (some (table upper)))) := by
    match path with
    | [] =>
      match value with
      | table entries => exact allLaidOn keeps inside entries
      | nothing | text _ | boolean _ | integer _ | real _ | list _ => exact .said _
    | .entry other :: later =>
      rw [laidUnder_entry, laidUnder_entry]
      exact .tables _ _
        (set inside (Setting.laidUnder value later) (keeps inside value later) other)
    | .item index :: later =>
      have same : (table both).put value (.item index :: later) =
          (table upper).put value (.item index :: later) :=
        put_item_eq value index later rfl
      rw [laidUnder_some, laidUnder_some, same]
      exact .said _
  cases within with
  | said held => exact .said _
  | silent both inside =>
    rw [← laidUnder_empty]
    exact laid inside
  | tables both upper inside => exact laid inside

end Within

end Setting

namespace Configuration

open Setting

variable {holder value setting both : Setting} {upper? : Option Setting} {place inner : Nat}
  {part name key : String} {Related : Option Setting → Option Setting → Prop}
  {document : List (Text × Setting)}

/-! ### What a document says -/

/-- What stands in a part of a part of settings. -/
def word? (root : Setting) (place : Nat) (part : String) (inner : Nat) (name : String) :
    Option Setting := do
  needed? (← needed? root place part) inner name

/-- What a document says by itself. -/
def said (document : List (Text × Setting)) : Setting := layDocument (.table []) document

/-- The delimiter that a document sets. -/
def saidDelimiter? (document : List (Text × Setting)) : Option Text := do
  (← word? (said document) 1 "tags" 0 "comment_delimiter").asText?

/-- The mode that a document sets. -/
def saidMode? (document : List (Text × Setting)) : Option SyncMode := do
  syncMode? (← word? (said document) 2 "merge" 0 "default_sync_mode")

/-! ### Reading layers -/

theorem needed?_of_within (within : Within name.toList Related (some both) upper?) (place : Nat) :
    upper? = some both ∨
      Related (needed? both place name) (upper?.bind fun upper => needed? upper place name) := by
  cases within with
  | said => exact Or.inl rfl
  | silent _ inside => exact Or.inr inside
  | tables _ _ inside => exact Or.inr inside

theorem layered_of_within {below : Setting}
    (within : Within part.toList (Within name.toList (Layered below)) (some both) (some value))
    (found : word? both place part inner name = some setting) :
    Layered below (some setting) (word? value place part inner name) := by
  obtain ⟨held, inPart, inHeld⟩ := Option.bind_eq_some_iff.mp found
  rcases needed?_of_within within place with same | related
  · rw [Option.some.inj same, found]
    exact .said setting
  · rw [inPart] at related
    rcases needed?_of_within related inner with same | layered
    · have same : needed? value place part = some held := same
      rw [word?, same, Option.bind_eq_bind, Option.bind_some, inHeld]
      exact .said setting
    · exact inHeld ▸ layered

/-- What is read at the place is what the layer says there, or what the standard value says. -/
theorem read_of_layered {α : Type} {read? : Setting → Option α} {below : Setting} {result usual : α}
    (layered : Layered below (some setting) upper?) (standard : read? below = some usual)
    (empty : read? (table []) = none) (read : read? setting = some result) :
    result = (upper?.bind read?).getD usual := by
  cases layered with
  | said =>
    rw [Option.bind_some, read]
    rfl
  | silent => exact Option.some.inj (read.symm.trans standard)
  | empty =>
    rw [Option.bind_some, empty]
    exact Option.some.inj (read.symm.trans standard)

/-- Both documents are laid entry by entry. -/
theorem within_layDocument {content : Text} {both value : Setting}
    (within : Within part.toList (Within name.toList (Layered (.text content)))
      (some both) (some value)) (document : List (Text × Setting)) :
    Within part.toList (Within name.toList (Layered (.text content)))
      (some (layDocument both document)) (some (layDocument value document)) := by
  induction document generalizing both value with
  | nil => exact within
  | cons entry document ih =>
    have laid := within.laidUnder (fun inside => inside.laidUnder Layered.laidUnder) entry.2
      ((path? entry.1).getD [.entry entry.1])
    rw [laidUnder_some, laidUnder_some] at laid
    exact ih laid

/-! ### The standard settings below a document -/

theorem within_standard_delimiter :
    Within "tags".toList
      (Within "comment_delimiter".toList (Layered (.text standard.commentDelimiter)))
      (some standardSettings) (some (.table [])) :=
  .tables _ _ (.silent _ .silent)

theorem within_standard_mode :
    Within "merge".toList
      (Within "default_sync_mode".toList (Layered (.text (Named.label standard.defaultSyncMode))))
      (some standardSettings) (some (.table [])) :=
  .tables _ _ (.silent _ .silent)

/-- **What is read of a document over the standard settings** is what the document says there, or
else what the standard settings say. -/
theorem read_of_document {α : Type} {read? : Setting → Option α} {content : Text} {result usual : α}
    (within : Within part.toList (Within name.toList (Layered (.text content)))
      (some standardSettings) (some (.table [])))
    (standard : read? (.text content) = some usual) (empty : read? (.table []) = none)
    (read : (word? (layDocument standardSettings document) place part inner name).bind read? =
      some result) :
    result = ((word? (said document) place part inner name).bind read?).getD usual := by
  obtain ⟨setting, found, read⟩ := Option.bind_eq_some_iff.mp read
  have layered := layered_of_within (within_layDocument within document) found
  exact read_of_layered layered standard empty read

/-! ### A flag over everything -/

theorem needed?_set_self (holder value : Setting) (place : Nat) (name : String) :
    needed? (holder.set name.toList value) place name = some value := by
  cases holder with
  | table entries => exact (find?_replace _ _ _ _).trans (if_pos rfl)
  | nothing | text | boolean | integer | real | list => exact if_pos rfl

/-- A part that is there beside a part that was set was there before. -/
theorem needed?_of_set (different : name.toList ≠ key.toList)
    (found : needed? (holder.set key.toList value) place name = some setting) :
    needed? holder place name = some setting := by
  cases holder with
  | table entries => exact ((find?_replace _ _ _ _).trans (if_neg different)).symm.trans found
  | nothing | text | boolean | integer | real | list =>
    exact absurd ((if_neg different).symm.trans found) nofun

/-- What a configuration is made of stands in its two sections. -/
theorem words_of_ofSetting? {root : Setting} {configuration : Configuration}
    (made : ofSetting? root = some configuration) :
    (word? root 1 "tags" 0 "comment_delimiter").bind asText? =
        some configuration.commentDelimiter ∧
      (word? root 2 "merge" 0 "default_sync_mode").bind syncMode? =
        some configuration.defaultSyncMode := by
  obtain ⟨extraction, -, made⟩ := Option.bind_eq_some_iff.mp made
  obtain ⟨tags, inTags, made⟩ := Option.bind_eq_some_iff.mp made
  obtain ⟨merge, inMerge, made⟩ := Option.bind_eq_some_iff.mp made
  obtain ⟨macros, -, made⟩ := Option.bind_eq_some_iff.mp made
  obtain ⟨classKinds, -, made⟩ := Option.bind_eq_some_iff.mp made
  obtain ⟨marked, delimiterFound, made⟩ := Option.bind_eq_some_iff.mp made
  obtain ⟨delimiter, delimiterRead, made⟩ := Option.bind_eq_some_iff.mp made
  obtain ⟨named, modeFound, made⟩ := Option.bind_eq_some_iff.mp made
  obtain ⟨mode, modeRead, made⟩ := Option.bind_eq_some_iff.mp made
  cases made
  exact ⟨Option.bind_eq_some_iff.mpr
      ⟨marked, Option.bind_eq_some_iff.mpr ⟨tags, inTags, delimiterFound⟩, delimiterRead⟩,
    Option.bind_eq_some_iff.mpr
      ⟨named, Option.bind_eq_some_iff.mpr ⟨merge, inMerge, modeFound⟩, modeRead⟩⟩

theorem delimiter_of_document {delimiter : Text}
    (read : (word? (layDocument standardSettings document) 1 "tags" 0 "comment_delimiter").bind
      asText? = some delimiter) :
    delimiter = (saidDelimiter? document).getD standard.commentDelimiter :=
  read_of_document within_standard_delimiter rfl rfl read

theorem mode_of_document {mode : SyncMode}
    (read : (word? (layDocument standardSettings document) 2 "merge" 0 "default_sync_mode").bind
      syncMode? = some mode) :
    mode = (saidMode? document).getD standard.defaultSyncMode :=
  read_of_document within_standard_mode (by decide) rfl read

/-- The path that a delimiter on the command line is laid under. -/
theorem path?_delimiter :
    path? (foldKey "tags.comment_delimiter".toList) =
      some [.entry "tags".toList, .entry "comment_delimiter".toList] := by
  decide +kernel

/-- The flag is the delimiter that is read, and it leaves the mode alone. -/
theorem words_of_flag {settings : Setting} {delimiter : Text} {setting : Setting}
    (laid : layOverride settings ("tags.comment_delimiter".toList, .text delimiter) =
      .ok setting) :
    word? setting 1 "tags" 0 "comment_delimiter" = some (.text delimiter) ∧
      ∀ mode, word? setting 2 "merge" 0 "default_sync_mode" = some mode →
        word? settings 2 "merge" 0 "default_sync_mode" = some mode := by
  rw [layOverride, path?_delimiter] at laid
  cases laid
  rw [put_entry]
  constructor
  · rw [word?, needed?_set_self, Option.bind_eq_bind, Option.bind_some]
    exact needed?_set_self _ _ 0 "comment_delimiter"
  · intro mode found
    obtain ⟨merge, inMerge, found⟩ := Option.bind_eq_some_iff.mp found
    exact Option.bind_eq_some_iff.mpr ⟨merge, needed?_of_set (by decide) inMerge, found⟩

end Configuration

namespace CommandLine

open Scaffold.Configuration

variable {files : Files} {config? delimiter? : Option Text} {configuration : Configuration}

/-- The document of a configuration file, which is empty if none is named. The file is the first
one of its name that there is. -/
inductive Documented (files : Files) : (config? : Option Text) → List (Text × Setting) → Prop
  | unnamed : Documented files none []
  | named (name path content : Text) (document : List (Text × Setting))
      (first : (configurationPaths name).find? (fun path => (files path).isFile) = some path)
      (held : (files path).reading = .ok content)
      (read : Setting.document? content = some document) : Documented files (some name) document

/-! ### Looking for the file -/

theorem isQuiet_search (paths : List Text) :
    (paths.findM? fun path => Session.request (.isFile path)).IsQuiet :=
  .findM? (fun path => .request (.isFile path) trivial) paths

theorem isQuiet_configurationFile (name : Text) : (configurationFile name).IsQuiet := by
  refine (isQuiet_search _).bind fun found? => ?_
  cases found? with
  | none => exact .done _
  | some path => exact .bind (.request (.read path) trivial) fun _ => .done _

/-- The configuration file of a name, as it is found. -/
theorem value_configurationFile (files : Files) (name : Text) :
    ((configurationFile name).course files).value =
      ⟨name, match (configurationPaths name).find? fun path => (files path).isFile with
        | none => .missing
        | some path => .ofReading (files path).reading, true⟩ := by
  have found : (((configurationPaths name).findM? fun path =>
      Session.request (.isFile path)).course files).value =
        (configurationPaths name).find? fun path => (files path).isFile :=
    Session.IsQuiet.value_findM? (fun path => .request (.isFile path) trivial) _ files
  refine ((isQuiet_search _).value_bind _ files).trans ?_
  rw [found]
  cases (configurationPaths name).find? fun path => (files path).isFile with
  | none => rfl
  | some path => rfl

theorem isQuiet_configuration (config? delimiter? : Option Text) :
    Action.IsQuiet (CommandLine.configuration config? delimiter?) :=
  .bind (.lift (.mapM isQuiet_configurationFile _)) fun _ => .liftAs _ _

theorem result_configuration :
    (CommandLine.configuration config? delimiter?).result files = .ok configuration ↔
      Configuration.load
        (config?.toList.map fun name => ((configurationFile name).course files).value)
        (delimiter?.toList.map fun delimiter =>
          ("tags.comment_delimiter".toList, .text delimiter)) = .ok configuration := by
  have quiet : (config?.toList.mapM configurationFile).IsQuiet :=
    .mapM isQuiet_configurationFile _
  unfold CommandLine.configuration
  rw [(Action.IsQuiet.lift quiet).result_bind, Action.result_lift,
    Session.IsQuiet.value_mapM isQuiet_configurationFile]
  exact mapError_eq_ok_iff

theorem documented_of_layFile {filed : Setting}
    (laid : (config?.toList.map fun name =>
      ((configurationFile name).course files).value).foldlM layFile standardSettings = .ok filed) :
    ∃ document, Documented files config? document ∧
      filed = layDocument standardSettings document := by
  cases config? with
  | none => exact ⟨[], .unnamed, (Except.ok.inj laid).symm⟩
  | some name =>
    obtain ⟨_, laid, ⟨⟩⟩ := bind_eq_ok_iff.mp laid
    simp only [value_configurationFile] at laid
    cases first : (configurationPaths name).find? fun path => (files path).isFile with
    | none =>
      rw [first] at laid
      exact nomatch laid
    | some path =>
      cases held : (files path).reading with
      | error obstacle =>
        simp only [first, held] at laid
        exact nomatch laid
      | ok content =>
        simp only [first, held, layFile, ConfigurationContent.ofReading] at laid
        cases read : Setting.document? content with
        | none =>
          rw [read] at laid
          exact nomatch laid
        | some document =>
          rw [read] at laid
          exact ⟨document, .named name path content document first held read,
            (Except.ok.inj laid).symm⟩

/-- A flag stands over the configuration file, and the file over the standard settings. -/
theorem configuration_layers
    (loaded : (CommandLine.configuration config? delimiter?).result files = .ok configuration) :
    ∃ document, Documented files config? document ∧
      configuration.commentDelimiter =
        delimiter?.getD ((saidDelimiter? document).getD standard.commentDelimiter) ∧
      configuration.defaultSyncMode = (saidMode? document).getD standard.defaultSyncMode := by
  obtain ⟨filed, isFiled, filedLoaded⟩ := bind_eq_ok_iff.mp (result_configuration.mp loaded)
  obtain ⟨settings, isLaid, made⟩ := bind_eq_ok_iff.mp filedLoaded
  obtain ⟨document, documented, rfl⟩ := documented_of_layFile isFiled
  refine ⟨document, documented, ?_⟩
  split at made
  · next _ _ isMade =>
    cases made
    obtain ⟨delimiterRead, modeRead⟩ := words_of_ofSetting? isMade
    cases delimiter? with
    | none =>
      cases isLaid
      exact ⟨delimiter_of_document delimiterRead, mode_of_document modeRead⟩
    | some delimiter =>
      obtain ⟨_, laid, ⟨⟩⟩ := bind_eq_ok_iff.mp isLaid
      obtain ⟨flagged, kept⟩ := words_of_flag laid
      rw [flagged] at delimiterRead
      obtain ⟨mode, found, read⟩ := Option.bind_eq_some_iff.mp modeRead
      exact ⟨(Option.some.inj delimiterRead).symm,
        mode_of_document (Option.bind_eq_some_iff.mpr ⟨mode, kept mode found, read⟩)⟩
  · exact nomatch made

end CommandLine

end Scaffold
