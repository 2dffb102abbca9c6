import Mathlib.Data.List.Infix
import Imcodes.Collections.Json
import Imcodes.Collections.PlainObject

/-!
# The P2P configuration of a cloned group

`cloneP2pConfigWithSessionRemap` copies the saved configuration of a session group for its clone.
The participants that were cloned are renamed, those of the group that were not are dropped, and
single references to a session are renamed where there is a new name.

* `references_iff` — the references of the copy name no session of the group exactly when those
  that did are looked at, and there is a new name for them.
* `cloneP2pConfig_apart` — the copy points away from the group, and nothing else is changed, when
  every reference to the group can be renamed and no participant meets a property of
  `Object.prototype`, a target that is no key, or another participant; and only then, unless the
  code makes up for it by chance.
* `not_cloneP2pConfig_apart` — the session of the context reducer was not cloned.
-/

namespace Imcodes.Clones

/-- `sessionNameMap` -/
abbrev SessionNameMap := PlainObject String

inductive SessionGroupCloneWarningCode
  | p2pSkippedParticipantDropped
  | p2pPromptSessionReference
deriving DecidableEq

structure SessionGroupCloneWarning where
  code : SessionGroupCloneWarningCode
  fieldPath : String
  sourceSessionName : String
deriving DecidableEq

/-- A saved configuration: its participants with their entries, and its other fields -/
structure P2pSavedConfig where
  sessions : OrderedMap String Fields
  fields : Fields

structure P2pSessionRemapResult where
  config : P2pSavedConfig
  warnings : List SessionGroupCloneWarning
  remappedPaths : List String

/-- `String(object[key])`, for a property of `Object.prototype` -/
def inheritedText (key : String) : String :=
  if key = "__proto__" then "[object Object]"
  else "function " ++ (if key = "constructor" then "Object" else key) ++ "() \x7b [native code] \x7d"

/-- `sessionNameMap[name]`, if it is truthy, as the key of a property -/
def mappedName (map : SessionNameMap) (name : String) : Option String :=
  match map.read name with
  | .own target => if target = "" then none else some target
  | .inherited => some (inheritedText name)
  | .missing => none

/-- `sourceSessionNames` -/
def sourceSessionNames (map : SessionNameMap) (sourceGroupSessionNames : List String) :
    List String :=
  (map.own.toList.map Prod.fst ++ sourceGroupSessionNames).eraseDups

/-! ## Participants -/

structure RemappedSessions where
  sessions : PlainObject Fields := .empty
  warnings : List SessionGroupCloneWarning := []
  remappedPaths : List String := []

/-- One entry of `config.sessions`. -/
def remapSession (map : SessionNameMap) (names : List String) (remapped : RemappedSessions)
    (participant : String × Fields) : RemappedSessions :=
  let (sourceSessionName, entry) := participant
  match mappedName map sourceSessionName with
  | some mapped =>
      { remapped with
        sessions := remapped.sessions.assign mapped entry
        remappedPaths := remapped.remappedPaths ++ ["sessions." ++ sourceSessionName] }
  | none =>
      if sourceSessionName ∈ names then
        { remapped with
          warnings := remapped.warnings ++ [{
            code := .p2pSkippedParticipantDropped
            fieldPath := "sessions." ++ sourceSessionName
            sourceSessionName := sourceSessionName }] }
      else { remapped with sessions := remapped.sessions.assign sourceSessionName entry }

def remapSessions (map : SessionNameMap) (names : List String) (sessions : OrderedMap String Fields) :
    RemappedSessions :=
  sessions.toList.foldl (remapSession map names) {}

/-! ## Single references -/

/-- What `remapOptionalSessionName` puts into a field, if it does; a property of
`Object.prototype` has no fields of its own. -/
def mappedReference (owner : Fields) (key : String) (map : SessionNameMap) : Option Json :=
  (owner.string? key).bind fun value =>
    match map.read value with
    | .own mapped => if mapped = "" then none else some (.string mapped)
    | .inherited => some (.object [])
    | .missing => none

def remapOptionalSessionName (owner : Fields) (key : String) (map : SessionNameMap) : Fields :=
  match mappedReference owner key map with
  | some mapped => owner.put key mapped
  | none => owner

/-- `remappedPaths.push(fieldPath)` -/
def remappedPath (owner : Fields) (key : String) (map : SessionNameMap) (fieldPath : String) :
    List String :=
  if (mappedReference owner key map).isSome then [fieldPath] else []

def isContextReducerConfig (value : Fields) : Bool :=
  value.string? "mode" = some "reuse_existing_session" ||
    value.string? "mode" = some "clone_sdk_session"

/-- The references of a context reducer. -/
def remapContextReducer (map : SessionNameMap) (reducer : Fields) : Fields :=
  if isContextReducerConfig reducer then
    remapOptionalSessionName (remapOptionalSessionName reducer "sessionName" map) "templateSession"
      map
  else reducer

def contextReducerPaths (map : SessionNameMap) (reducer : Fields) (fieldPath : String) :
    List String :=
  if isContextReducerConfig reducer then
    remappedPath reducer "sessionName" map (fieldPath ++ ".sessionName") ++
      remappedPath reducer "templateSession" map (fieldPath ++ ".templateSession")
  else []

/-- The references of `workflowLaunchEnvelope`. -/
def remapEnvelope (map : SessionNameMap) (envelope : Fields) : Fields :=
  let envelope := envelope.onRecord "launchContext" fun context =>
    remapOptionalSessionName context "sessionName" map
  envelope.onRecord "oldAdvanced" fun oldAdvanced =>
    oldAdvanced.onRecord "contextReducer" (remapContextReducer map)

def envelopePaths (map : SessionNameMap) (envelope : Fields) : List String :=
  (match envelope.record? "launchContext" with
    | some context =>
        remappedPath context "sessionName" map "workflowLaunchEnvelope.launchContext.sessionName"
    | none => []) ++
  (match (envelope.record? "oldAdvanced").bind (·.record? "contextReducer") with
    | some reducer =>
        contextReducerPaths map reducer "workflowLaunchEnvelope.oldAdvanced.contextReducer"
    | none => [])

/-! ## Warnings -/

def scanWarningOnlyString (value : Option Json) (fieldPath : String) (names : List String) :
    List SessionGroupCloneWarning :=
  match value with
  | some (.string text) =>
      (names.filter fun name => name.toList <:+: text.toList).map fun name =>
        { code := .p2pPromptSessionReference, fieldPath := fieldPath, sourceSessionName := name }
  | _ => []

mutual

def scanWorkflowPromptWarnings (names : List String) :
    Json → String → List SessionGroupCloneWarning
  | .array items, fieldPath => scanEntries names items fieldPath 0
  | .object fields, fieldPath =>
      scanWarningOnlyString (Fields.read fields "promptAppend") (fieldPath ++ ".promptAppend")
        names ++
      scanWarningOnlyString (Fields.read fields "summaryPromptOverride")
        (fieldPath ++ ".summaryPromptOverride") names ++
      scanNodes names fields (fieldPath ++ ".nodes")
  | _, _ => []

def scanEntries (names : List String) :
    List Json → String → ℕ → List SessionGroupCloneWarning
  | [], _, _ => []
  | entry :: entries, fieldPath, index =>
      scanWorkflowPromptWarnings names entry (fieldPath ++ "[" ++ toString index ++ "]") ++
        scanEntries names entries fieldPath (index + 1)

/-- `value.nodes`, if it is an array -/
def scanNodes (names : List String) :
    List (String × Json) → String → List SessionGroupCloneWarning
  | [], _ => []
  | (key, value) :: fields, fieldPath =>
      if key = "nodes" then
        match value with
        | .array nodes => scanEntries names nodes fieldPath 0
        | _ => []
      else scanNodes names fields fieldPath

end

/-- `scanWorkflowPromptWarnings(owner[key], …)` -/
def scanField (names : List String) (owner : Fields) (key fieldPath : String) :
    List SessionGroupCloneWarning :=
  match owner.read key with
  | some value => scanWorkflowPromptWarnings names value fieldPath
  | none => []

/-- The warnings about the texts of a configuration, in which nothing is renamed. -/
def promptWarnings (names : List String) (fields : Fields) : List SessionGroupCloneWarning :=
  (match fields.record? "workflowLaunchEnvelope" with
    | some envelope =>
        (match envelope.record? "oldAdvanced" with
          | some oldAdvanced => scanField names oldAdvanced "advancedRounds"
              "workflowLaunchEnvelope.oldAdvanced.advancedRounds"
          | none => []) ++
        scanField names envelope "advancedDraft" "workflowLaunchEnvelope.advancedDraft"
    | none => []) ++
  scanWarningOnlyString (fields.read "extraPrompt") "extraPrompt" names ++
  scanField names fields "advancedRounds" "advancedRounds" ++
  scanField names fields "workflowDraft" "workflowDraft" ++
  scanField names fields "workflowLibrary" "workflowLibrary"

/-! ## The copy -/

/-- The other fields of the copy. -/
def remapFields (map : SessionNameMap) (now : ℚ) (fields : Fields) : Fields :=
  let fields := fields.onRecord "contextReducer" (remapContextReducer map)
  let fields := fields.onRecord "workflowLaunchEnvelope" (remapEnvelope map)
  fields.put "updatedAt" (.number now)

/-- `cloneP2pConfigWithSessionRemap` -/
def cloneP2pConfigWithSessionRemap (config : P2pSavedConfig) (map : SessionNameMap) (now : ℚ)
    (sourceGroupSessionNames : List String) : P2pSessionRemapResult :=
  let names := sourceSessionNames map sourceGroupSessionNames
  let remapped := remapSessions map names config.sessions
  { config :=
      { sessions := remapped.sessions.own
        fields := remapFields map now config.fields }
    warnings := remapped.warnings ++ promptWarnings names config.fields
    remappedPaths := remapped.remappedPaths ++
      (match config.fields.record? "contextReducer" with
        | some reducer => contextReducerPaths map reducer "contextReducer"
        | none => []) ++
      (match config.fields.record? "workflowLaunchEnvelope" with
        | some envelope => envelopePaths map envelope
        | none => []) }

/-! ## What the copy owes the clone -/

/-- The places of a configuration where a single session is referred to:
`P2P_SESSION_REFERENCE_REMAP_PATHS` without the participants -/
inductive SessionReference
  | contextReducer
  | launchContext
  | oldAdvancedContextReducer
deriving DecidableEq

/-- The record with the reference. -/
def SessionReference.owner? (fields : Fields) : SessionReference → Option Fields
  | .contextReducer => fields.record? "contextReducer"
  | .launchContext =>
      (fields.record? "workflowLaunchEnvelope").bind (·.record? "launchContext")
  | .oldAdvancedContextReducer =>
      ((fields.record? "workflowLaunchEnvelope").bind (·.record? "oldAdvanced")).bind
        (·.record? "contextReducer")

/-- The fields of the record in which sessions are named. -/
def SessionReference.keys : SessionReference → List String
  | .contextReducer | .oldAdvancedContextReducer => ["sessionName", "templateSession"]
  | .launchContext => ["sessionName"]

/-- The session that a field refers to. -/
def SessionReference.name? (fields : Fields) (reference : SessionReference) (key : String) :
    Option String :=
  (reference.owner? fields).bind (·.string? key)

/-- The fields of a context reducer without its references. -/
def withoutNames (reducer : Fields) : Fields :=
  (reducer.remove "sessionName").remove "templateSession"

/-- What is left of the fields without the references, and without `updatedAt`. -/
def otherFields (fields : Fields) : Fields :=
  let fields := (fields.remove "updatedAt").onRecord "contextReducer" withoutNames
  fields.onRecord "workflowLaunchEnvelope" fun envelope =>
    let envelope := envelope.onRecord "launchContext" (·.remove "sessionName")
    envelope.onRecord "oldAdvanced" (·.onRecord "contextReducer" withoutNames)

section

variable (map : SessionNameMap) (sourceGroupSessionNames : List String)

/-- The sessions of the source group. -/
def InGroup (name : String) : Prop := name ∈ sourceSessionNames map sourceGroupSessionNames

/-- The participant that a clone should have under a name: one from outside the group, or a renamed
one. -/
def Participates (sessions : OrderedMap String Fields) (name : String) (entry : Fields) : Prop :=
  ¬InGroup map sourceGroupSessionNames name ∧ sessions.get? name = some entry ∨
    ∃ sourceName, map.own.get? sourceName = some name ∧ sessions.get? sourceName = some entry

/-- The copy does not point back at the source group, and nothing else is changed. -/
structure PointsAway (config copy : P2pSavedConfig) : Prop where
  participants : ∀ name entry, copy.sessions.get? name = some entry →
    ¬InGroup map sourceGroupSessionNames name
  references : ∀ (reference : SessionReference), ∀ key ∈ reference.keys, ∀ name,
    reference.name? copy.fields key = some name → ¬InGroup map sourceGroupSessionNames name
  sessions : ∀ name entry, copy.sessions.get? name = some entry ↔
    Participates map sourceGroupSessionNames config.sessions name entry
  others : otherFields copy.fields = otherFields config.fields
end

variable {map : SessionNameMap} {sourceGroupSessionNames names : List String} {now : ℚ}
  {config : P2pSavedConfig} {owner fields reducer : Fields} {key key' name target : String}
  {entry : Fields}

/-! ## Where participants come to be -/

/-- The name under which the copy has a participant; a property `__proto__` is not made. -/
def placedName (map : SessionNameMap) (names : List String) (name : String) : Option String :=
  ((mappedName map name).or (if name ∈ names then none else some name)).filter (· ≠ "__proto__")

/-- An assignment to `__proto__` makes no property. -/
theorem get?_assign_of_proto {sessions : PlainObject Fields}
    (hproto : sessions.own.get? "__proto__" = none) :
    (sessions.assign key entry).own.get? key' =
      if key = key' ∧ key ≠ "__proto__" then some entry else sessions.own.get? key' := by
  unfold PlainObject.assign
  by_cases hkey : key = "__proto__"
  · rw [if_pos ⟨hkey, by rw [hkey, hproto]⟩, if_neg fun h => h.2 hkey]
  · rw [if_neg fun h => hkey h.1, OrderedMap.get?_set]
    by_cases heq : key' = key
    · rw [if_pos heq, if_pos ⟨heq.symm, hkey⟩]
    · rw [if_neg heq, if_neg fun h => heq h.1.symm]

/-- A participant is put under the name that it gets. -/
theorem get?_remapSession {remapped : RemappedSessions} {participant : String × Fields}
    (hproto : remapped.sessions.own.get? "__proto__" = none) :
    (remapSession map names remapped participant).sessions.own.get? key =
      if placedName map names participant.1 = some key then some participant.2
      else remapped.sessions.own.get? key := by
  obtain ⟨source, entry⟩ := participant
  unfold remapSession placedName
  dsimp only
  cases hmapped : mappedName map source with
  | some mapped =>
    dsimp only
    rw [get?_assign_of_proto hproto]
    refine if_congr ?_ rfl rfl
    simp only [Option.some_or, Option.filter_eq_some_iff, Option.some.injEq, decide_eq_true_eq]
    exact ⟨fun ⟨h, h'⟩ => ⟨h, h ▸ h'⟩, fun ⟨h, h'⟩ => ⟨h, h ▸ h'⟩⟩
  | none =>
    dsimp only
    by_cases hgroup : source ∈ names
    · simp [hgroup]
    · rw [if_neg hgroup, if_neg hgroup, get?_assign_of_proto hproto]
      refine if_congr ?_ rfl rfl
      simp only [Option.none_or, Option.filter_eq_some_iff, Option.some.injEq, decide_eq_true_eq]
      exact ⟨fun ⟨h, h'⟩ => ⟨h, h ▸ h'⟩, fun ⟨h, h'⟩ => ⟨h, h ▸ h'⟩⟩

theorem placedName_ne_proto : placedName map names name ≠ some "__proto__" := by
  intro h
  exact absurd (Option.filter_eq_some_iff.1 h).2 (by decide)

/-- What the participants have come to be after some of them. -/
theorem get?_foldl_remapSession (l : List (String × Fields)) (remapped : RemappedSessions)
    (hproto : remapped.sessions.own.get? "__proto__" = none) :
    (∀ entry, (l.foldl (remapSession map names) remapped).sessions.own.get? key = some entry →
      (∃ participant ∈ l, placedName map names participant.1 = some key ∧ participant.2 = entry) ∨
        remapped.sessions.own.get? key = some entry) ∧
    ((∃ participant ∈ l, placedName map names participant.1 = some key) ∨
        (remapped.sessions.own.get? key).isSome = true →
      ((l.foldl (remapSession map names) remapped).sessions.own.get? key).isSome = true) := by
  induction l generalizing remapped with
  | nil => exact ⟨fun _ => Or.inr, fun h => h.elim (fun ⟨_, hmem, _⟩ => by cases hmem) id⟩
  | cons participant l ih =>
    have hstep := @get?_remapSession map names key remapped participant hproto
    have hproto' : (remapSession map names remapped participant).sessions.own.get? "__proto__" =
        none := by
      rw [get?_remapSession hproto, if_neg placedName_ne_proto, hproto]
    obtain ⟨hfrom, hto⟩ := ih (remapSession map names remapped participant) hproto'
    rw [List.foldl_cons]
    constructor
    · intro entry hget
      rcases hfrom entry hget with ⟨other, hmem, hother⟩ | hother
      · exact Or.inl ⟨other, List.mem_cons_of_mem _ hmem, hother⟩
      · rw [hstep] at hother
        split at hother
        · rename_i hplaced
          exact Or.inl ⟨participant, List.mem_cons_self .., hplaced, Option.some.inj hother⟩
        · exact Or.inr hother
    · intro h
      refine hto ?_
      rw [hstep]
      rcases h with ⟨other, hmem, hplaced⟩ | hsome
      · rcases List.mem_cons.1 hmem with rfl | hmem
        · exact Or.inr (by rw [if_pos hplaced]; rfl)
        · exact Or.inl ⟨other, hmem, hplaced⟩
      · refine Or.inr ?_
        split
        · rfl
        · exact hsome

/-- A participant of the copy was put there. -/
theorem exists_of_get?_remapSessions {sessions : OrderedMap String Fields}
    (h : (remapSessions map names sessions).sessions.own.get? name = some entry) :
    ∃ source, sessions.get? source = some entry ∧ placedName map names source = some name := by
  rcases (get?_foldl_remapSession _ _ rfl).1 entry h with ⟨⟨source, _⟩, hmem, hplaced, rfl⟩ | hnone
  · exact ⟨source, OrderedMap.get?_eq_some.2 hmem, hplaced⟩
  · cases hnone

/-- Where a participant is put, there is one. -/
theorem get?_remapSessions_isSome {sessions : OrderedMap String Fields} {source : String}
    (hsource : sessions.get? source = some entry) (hplaced : placedName map names source = some name) :
    ∃ entry', (remapSessions map names sessions).sessions.own.get? name = some entry' :=
  Option.isSome_iff_exists.1 ((get?_foldl_remapSession _ _ rfl).2
    (Or.inl ⟨_, OrderedMap.get?_eq_some.1 hsource, hplaced⟩))
/-! ## References -/

/-- The session that a reference names in the copy, if it names one. -/
def renamedReference (map : SessionNameMap) (name : String) : Option String :=
  match map.read name with
  | .own mapped => if mapped = "" then some name else some mapped
  | .inherited => none
  | .missing => some name

theorem string?_remapOptional_self :
    (remapOptionalSessionName owner key map).string? key =
      (owner.string? key).bind (renamedReference map) := by
  unfold remapOptionalSessionName mappedReference renamedReference
  cases howner : owner.string? key with
  | none => exact howner
  | some value =>
    dsimp only [Option.bind_some]
    cases hread : map.read value with
    | own mapped =>
      by_cases hempty : mapped = ""
      · simp only [hempty, if_true, howner]
      · simp only [hempty, if_false, Fields.string?, Fields.read_put_self, Option.bind_some]
        rfl
    | inherited =>
      simp only [Fields.string?, Fields.read_put_self, Option.bind_some]
      rfl
    | missing => exact howner

theorem string?_remapOptional_of_ne (h : key' ≠ key) :
    (remapOptionalSessionName owner key map).string? key' = owner.string? key' := by
  unfold remapOptionalSessionName
  split
  · exact Fields.string?_put_of_ne h
  · rfl

theorem string?_remapContextReducer (hkey : key ∈ ["sessionName", "templateSession"]) :
    (remapContextReducer map reducer).string? key =
      if isContextReducerConfig reducer then (reducer.string? key).bind (renamedReference map)
      else reducer.string? key := by
  unfold remapContextReducer
  split
  · simp only [List.mem_cons, List.not_mem_nil, or_false] at hkey
    rcases hkey with rfl | rfl
    · rw [string?_remapOptional_of_ne (by decide), string?_remapOptional_self]
    · rw [string?_remapOptional_self, string?_remapOptional_of_ne (by decide)]
  · rfl

namespace SessionReference

/-- The reference is one that the code looks at. -/
def Remapped (fields : Fields) (reference : SessionReference) : Prop :=
  reference = .launchContext ∨ (reference.owner? fields).any isContextReducerConfig = true

/-- What becomes of the record with the reference. -/
def remap (map : SessionNameMap) : SessionReference → Fields → Fields
  | .contextReducer | .oldAdvancedContextReducer => remapContextReducer map
  | .launchContext => fun context => remapOptionalSessionName context "sessionName" map

theorem owner?_remapFields (reference : SessionReference) :
    reference.owner? (remapFields map now fields) =
      (reference.owner? fields).map (reference.remap map) := by
  have henvelope : (remapFields map now fields).record? "workflowLaunchEnvelope" =
      (fields.record? "workflowLaunchEnvelope").map (remapEnvelope map) := by
    unfold remapFields
    rw [Fields.record?_put_of_ne (by decide), Fields.record?_onRecord_self,
      Fields.record?_onRecord_of_ne _ (by decide)]
  cases reference with
  | contextReducer =>
    unfold remapFields owner?
    rw [Fields.record?_put_of_ne (by decide), Fields.record?_onRecord_of_ne _ (by decide),
      Fields.record?_onRecord_self]
    rfl
  | launchContext =>
    dsimp only [owner?]
    rw [henvelope]
    cases fields.record? "workflowLaunchEnvelope" with
    | none => rfl
    | some envelope =>
      dsimp only [Option.map_some, Option.bind_some, remapEnvelope]
      rw [Fields.record?_onRecord_of_ne _ (by decide), Fields.record?_onRecord_self]
      rfl
  | oldAdvancedContextReducer =>
    dsimp only [owner?]
    rw [henvelope]
    cases fields.record? "workflowLaunchEnvelope" with
    | none => rfl
    | some envelope =>
      dsimp only [Option.map_some, Option.bind_some, remapEnvelope]
      rw [Fields.record?_onRecord_self, Fields.record?_onRecord_of_ne _ (by decide)]
      cases envelope.record? "oldAdvanced" with
      | none => rfl
      | some oldAdvanced => exact Fields.record?_onRecord_self _

/-- What a reference names in the copy. -/
theorem name?_remapFields {reference : SessionReference} (hkey : key ∈ reference.keys) :
    (reference.Remapped fields → reference.name? (remapFields map now fields) key =
      (reference.name? fields key).bind (renamedReference map)) ∧
    (¬reference.Remapped fields →
      reference.name? (remapFields map now fields) key = reference.name? fields key) := by
  unfold name?
  rw [owner?_remapFields, Option.bind_map, Option.bind_assoc]
  constructor
  · intro h
    cases howner : reference.owner? fields with
    | none => rfl
    | some owner =>
      simp only [Option.bind_some, Function.comp]
      cases reference with
      | launchContext =>
        obtain rfl := List.mem_singleton.1 hkey
        exact string?_remapOptional_self
      | contextReducer | oldAdvancedContextReducer =>
        have hreducer := h.resolve_left nofun
        rw [howner] at hreducer
        exact (string?_remapContextReducer hkey).trans (if_pos hreducer)
  · intro h
    cases howner : reference.owner? fields with
    | none => rfl
    | some owner =>
      simp only [Option.bind_some, Function.comp]
      cases reference with
      | launchContext => exact absurd (Or.inl rfl) h
      | contextReducer | oldAdvancedContextReducer =>
        refine (string?_remapContextReducer hkey).trans (if_neg fun hreducer => h (Or.inr ?_))
        rw [howner]
        exact hreducer

end SessionReference
/-! ## What stays -/

theorem remove_remapOptional :
    (remapOptionalSessionName owner key map).remove key = owner.remove key := by
  unfold remapOptionalSessionName
  split
  · exact Fields.remove_put
  · rfl

theorem withoutNames_remapContextReducer :
    withoutNames (remapContextReducer map reducer) = withoutNames reducer := by
  unfold remapContextReducer withoutNames
  split
  · rw [Fields.remove_comm, remove_remapOptional, Fields.remove_comm, remove_remapOptional]
  · rfl

/-- Nothing else is changed. -/
theorem otherFields_remapFields : otherFields (remapFields map now fields) = otherFields fields := by
  unfold otherFields remapFields
  dsimp only
  rw [Fields.remove_put, Fields.remove_onRecord, Fields.remove_onRecord]
  refine Fields.onRecord_pair (by decide) (fun _ => withoutNames_remapContextReducer) ?_
  intro envelope
  refine Fields.onRecord_pair (by decide) (fun _ => remove_remapOptional) fun oldAdvanced => ?_
  rw [Fields.onRecord_onRecord]
  simp only [withoutNames_remapContextReducer]

/-! ## When the copy points away -/

variable (map sourceGroupSessionNames) in
/-- No reference is left behind, and every participant can go where it should. -/
structure Clear (config : P2pSavedConfig) : Prop where
  /-- A session of the group that is referred to was cloned, where the code looks. -/
  references : ∀ (reference : SessionReference), ∀ key ∈ reference.keys, ∀ name,
    reference.name? config.fields key = some name → InGroup map sourceGroupSessionNames name →
      reference.Remapped config.fields ∧ (mappedName map name).isSome = true
  /-- The new names are names of properties. -/
  targets : ∀ name entry target, config.sessions.get? name = some entry →
    map.own.get? name = some target → target ≠ "" ∧ target ≠ "__proto__"
  /-- The other names are not those of `Object.prototype`. -/
  names : ∀ name entry, config.sessions.get? name = some entry → map.own.get? name = none →
    name ∉ objectPrototypeKeys
  /-- No two participants come together. -/
  apart : ∀ name entry entry', Participates map sourceGroupSessionNames config.sessions name entry →
    Participates map sourceGroupSessionNames config.sessions name entry' → entry = entry'

variable (map) in
/-- Nothing comes out right by chance: every participant has a name, and what is found in
`Object.prototype` has the name of nobody. -/
structure Named (sessions : OrderedMap String Fields) : Prop where
  names : sessions.get? "" = none
  texts : ∀ key ∈ objectPrototypeKeys, sessions.get? (inheritedText key) = none ∧
    ∀ name, map.own.get? name ≠ some (inheritedText key)

theorem mem_sourceSessionNames (h : map.own.get? name = some target) :
    InGroup map sourceGroupSessionNames name := by
  refine List.mem_eraseDups.2 (List.mem_append_left _ ?_)
  exact List.mem_map_of_mem (OrderedMap.get?_eq_some.1 h)

theorem mappedName_of_own (h : map.own.get? name = some target) :
    mappedName map name = if target = "" then none else some target := by
  rw [mappedName, PlainObject.read_eq_own.2 h]

theorem mappedName_of_none (h : map.own.get? name = none) :
    mappedName map name = if name ∈ objectPrototypeKeys then some (inheritedText name) else none := by
  rw [mappedName, PlainObject.read_of_get?_eq_none h]
  by_cases hkey : name ∈ objectPrototypeKeys
  · rw [if_pos hkey, if_pos hkey]
  · rw [if_neg hkey, if_neg hkey]

/-- A reference that the code looks at names no session of the group, if there is a new name. -/
theorem renamedReference_inGroup
    (htargets : ∀ name target, map.own.get? name = some target →
      ¬InGroup map sourceGroupSessionNames target)
    (h : renamedReference map name = some target)
    (hgroup : InGroup map sourceGroupSessionNames target) :
    mappedName map name = none ∧ target = name := by
  unfold renamedReference at h
  unfold mappedName
  cases hread : map.read name with
  | own mapped =>
    rw [hread] at h
    dsimp only at h ⊢
    split at h
    · rename_i hempty
      exact ⟨if_pos hempty, (Option.some.inj h).symm⟩
    · obtain rfl := Option.some.inj h
      exact absurd hgroup (htargets name mapped (PlainObject.read_eq_own.1 hread))
  | inherited =>
    rw [hread] at h
    cases h
  | missing =>
    rw [hread] at h
    exact ⟨rfl, (Option.some.inj h).symm⟩

theorem renamedReference_of_mappedName (h : mappedName map name = none) :
    renamedReference map name = some name := by
  unfold mappedName at h
  unfold renamedReference
  cases hread : map.read name with
  | own mapped =>
    rw [hread] at h
    dsimp only at h ⊢
    by_cases hempty : mapped = ""
    · exact if_pos hempty
    · rw [if_neg hempty] at h
      cases h
  | inherited =>
    rw [hread] at h
    cases h
  | missing => rfl

/-- The references of the copy point away exactly when those to the group can be renamed. -/
theorem references_iff
    (htargets : ∀ name target, map.own.get? name = some target →
      ¬InGroup map sourceGroupSessionNames target)
    {reference : SessionReference} (hkey : key ∈ reference.keys) :
    (∀ name, reference.name? (remapFields map now fields) key = some name →
      ¬InGroup map sourceGroupSessionNames name) ↔
    ∀ name, reference.name? fields key = some name → InGroup map sourceGroupSessionNames name →
      reference.Remapped fields ∧ (mappedName map name).isSome = true := by
  obtain ⟨hremapped, hleft⟩ := @SessionReference.name?_remapFields map now fields key reference hkey
  constructor
  · intro h name hname hgroup
    by_cases hlook : reference.Remapped fields
    · refine ⟨hlook, ?_⟩
      rw [Option.isSome_iff_ne_none]
      intro hnone
      refine h name ?_ hgroup
      rw [hremapped hlook, hname]
      exact renamedReference_of_mappedName hnone
    · exact absurd hgroup (h name ((hleft hlook).trans hname))
  · intro h name hname hgroup
    by_cases hlook : reference.Remapped fields
    · rw [hremapped hlook] at hname
      obtain ⟨source, hsource, hrenamed⟩ := Option.bind_eq_some_iff.1 hname
      obtain ⟨hnone, rfl⟩ := renamedReference_inGroup htargets hrenamed hgroup
      have hsome := (h name hsource hgroup).2
      rw [hnone] at hsome
      cases hsome
    · rw [hleft hlook] at hname
      exact hlook (h name hname hgroup).1
theorem own_eq_none (h : ¬InGroup map sourceGroupSessionNames name) : map.own.get? name = none :=
  Option.eq_none_iff_forall_ne_some.2 fun _ hget => h (mem_sourceSessionNames hget)

/-- Where participants can go where they should, that is where they are put. -/
theorem Clear.participates_iff (h : Clear map sourceGroupSessionNames config) :
    Participates map sourceGroupSessionNames config.sessions name entry ↔
      ∃ source, config.sessions.get? source = some entry ∧
        placedName map (sourceSessionNames map sourceGroupSessionNames) source = some name := by
  constructor
  · rintro (⟨hout, hget⟩ | ⟨source, hmap, hget⟩)
    · have hout' : name ∉ sourceSessionNames map sourceGroupSessionNames := hout
      have hnone := own_eq_none hout
      have hkey := h.names name entry hget hnone
      have hproto : name ≠ "__proto__" := fun heq => hkey (heq ▸ by decide)
      refine ⟨name, hget, ?_⟩
      rw [placedName, mappedName_of_none hnone, if_neg hkey, if_neg hout']
      exact Option.filter_eq_some_iff.2 ⟨rfl, decide_eq_true hproto⟩
    · obtain ⟨hempty, hproto⟩ := h.targets source entry name hget hmap
      refine ⟨source, hget, ?_⟩
      rw [placedName, mappedName_of_own hmap, if_neg hempty]
      exact Option.filter_eq_some_iff.2 ⟨rfl, decide_eq_true hproto⟩
  · rintro ⟨source, hget, hplaced⟩
    unfold placedName at hplaced
    cases hmap : map.own.get? source with
    | some target =>
      rw [mappedName_of_own hmap, if_neg (h.targets source entry target hget hmap).1] at hplaced
      obtain rfl := Option.some.inj (Option.filter_eq_some_iff.1 hplaced).1
      exact Or.inr ⟨source, hmap, hget⟩
    | none =>
      rw [mappedName_of_none hmap, if_neg (h.names source entry hget hmap)] at hplaced
      obtain ⟨hkept, -⟩ := Option.filter_eq_some_iff.1 hplaced
      rw [Option.none_or] at hkept
      split at hkept
      · cases hkept
      · rename_i hout
        obtain rfl := Option.some.inj hkept
        exact Or.inl ⟨hout, hget⟩

theorem Clear.pointsAway
    (htargets : ∀ name target, map.own.get? name = some target →
      ¬InGroup map sourceGroupSessionNames target)
    (h : Clear map sourceGroupSessionNames config) :
    PointsAway map sourceGroupSessionNames config
      (cloneP2pConfigWithSessionRemap config map now sourceGroupSessionNames).config := by
  have hfrom : ∀ name entry, (remapSessions map (sourceSessionNames map sourceGroupSessionNames)
      config.sessions).sessions.own.get? name = some entry →
      Participates map sourceGroupSessionNames config.sessions name entry :=
    fun name entry hget => h.participates_iff.2 (exists_of_get?_remapSessions hget)
  refine ⟨?_, ?_, ?_, otherFields_remapFields⟩
  · intro name entry hget
    rcases hfrom name entry hget with ⟨hout, -⟩ | ⟨source, hmap, -⟩
    · exact hout
    · exact htargets source name hmap
  · exact fun reference key hkey => (references_iff htargets hkey).2 (h.references reference key hkey)
  · refine fun name entry => ⟨hfrom name entry, fun hwanted => ?_⟩
    obtain ⟨source, hget, hplaced⟩ := h.participates_iff.1 hwanted
    obtain ⟨entry', hget'⟩ := get?_remapSessions_isSome hget hplaced
    rw [h.apart name entry entry' hwanted (hfrom name entry' hget')]
    exact hget'

/-- The text of an inherited property is no name of one. -/
theorem inheritedText_ne : ∀ key ∈ objectPrototypeKeys, inheritedText key ≠ key ∧
    inheritedText key ≠ "__proto__" := by
  decide

/-- A participant with a name that is inherited is put under the text of what is inherited. -/
theorem placedName_of_inherited (hnone : map.own.get? name = none)
    (hkey : name ∈ objectPrototypeKeys) : placedName map names name = some (inheritedText name) := by
  rw [placedName, mappedName_of_none hnone, if_pos hkey]
  exact Option.filter_eq_some_iff.2 ⟨rfl, decide_eq_true (inheritedText_ne name hkey).2⟩

theorem inheritedText_ne_empty : inheritedText name ≠ "" := by
  unfold inheritedText
  split
  · decide
  · intro h
    have hlength := congrArg String.length h
    simp at hlength

/-- Only a participant without a name is put where there is no name. -/
theorem placedName_eq_empty (h : placedName map names name = some "") : name = "" := by
  obtain ⟨hplaced, -⟩ := Option.filter_eq_some_iff.1 h
  unfold mappedName at hplaced
  cases hread : map.read name with
  | own target =>
    rw [hread] at hplaced
    by_cases hempty : target = ""
    · have hkept : name ∉ names ∧ name = "" := by simpa [hempty] using hplaced
      exact hkept.2
    · simp [hempty] at hplaced
  | inherited =>
    rw [hread] at hplaced
    exact absurd (Option.some.inj hplaced) inheritedText_ne_empty
  | missing =>
    rw [hread] at hplaced
    have hkept : name ∉ names ∧ name = "" := by simpa using hplaced
    exact hkept.2

/-- If nothing comes out right by chance, the copy points away only when it is clear. -/
theorem PointsAway.clear
    (htargets : ∀ name target, map.own.get? name = some target →
      ¬InGroup map sourceGroupSessionNames target)
    (hnamed : Named map config.sessions)
    (h : PointsAway map sourceGroupSessionNames config
      (cloneP2pConfigWithSessionRemap config map now sourceGroupSessionNames).config) :
    Clear map sourceGroupSessionNames config where
  references := fun reference key hkey =>
    (references_iff htargets hkey).1 (h.references reference key hkey)
  targets := by
    intro name entry target hget hmap
    -- somebody is put under the new name
    have hcopy := (h.sessions target entry).2 (Or.inr ⟨name, hmap, hget⟩)
    obtain ⟨source, hsource, hplaced⟩ := exists_of_get?_remapSessions hcopy
    refine ⟨?_, fun hproto => placedName_ne_proto (hproto ▸ hplaced)⟩
    rintro rfl
    rw [placedName_eq_empty hplaced, hnamed.names] at hsource
    cases hsource
  names := by
    intro name entry hget hnone hkey
    have hplaced := @placedName_of_inherited map
      (sourceSessionNames map sourceGroupSessionNames) name hnone hkey
    obtain ⟨entry', hcopy⟩ := get?_remapSessions_isSome hget hplaced
    obtain ⟨hnobody, hnotarget⟩ := hnamed.texts name hkey
    rcases (h.sessions _ entry').1 hcopy with ⟨-, hparticipant⟩ | ⟨source, hmap, -⟩
    · rw [hnobody] at hparticipant
      cases hparticipant
    · exact hnotarget source hmap
  apart := by
    intro name entry entry' hentry hentry'
    have heq := ((h.sessions name entry).2 hentry).symm.trans ((h.sessions name entry').2 hentry')
    exact Option.some.inj heq

/-- **When the copy of a configuration points away from the source group.** -/
theorem cloneP2pConfig_apart (config : P2pSavedConfig) (map : SessionNameMap) (now : ℚ)
    (sourceGroupSessionNames : List String)
    (htargets : ∀ name target, map.own.get? name = some target →
      ¬InGroup map sourceGroupSessionNames target) :
    (Clear map sourceGroupSessionNames config →
      PointsAway map sourceGroupSessionNames config
        (cloneP2pConfigWithSessionRemap config map now sourceGroupSessionNames).config) ∧
    (Named map config.sessions →
      (PointsAway map sourceGroupSessionNames config
        (cloneP2pConfigWithSessionRemap config map now sourceGroupSessionNames).config ↔
        Clear map sourceGroupSessionNames config)) :=
  ⟨Clear.pointsAway htargets, fun hnamed =>
    ⟨PointsAway.clear htargets hnamed, Clear.pointsAway htargets⟩⟩

/-- The main session of a group is cloned, and a stopped one is not. -/
def brainOnly : SessionNameMap := ⟨⟨[("deck_cd_brain", "deck_cd_1_brain")], by decide⟩⟩

/-- A configuration with a session from outside the group. -/
def savedConfig (sessionName : String) : P2pSavedConfig where
  sessions := ⟨[("deck_cd_brain", [("enabled", .bool true)]),
    ("deck_sub_stopped", [("enabled", .bool true)]), ("deck_external_brain", [])], by decide⟩
  fields := [("rounds", .number 1), ("contextReducer", .object
    [("mode", .string "reuse_existing_session"), ("sessionName", .string sessionName)])]

theorem brainOnly_targets (name target : String) (h : brainOnly.own.get? name = some target) :
    ¬InGroup brainOnly ["deck_cd_brain", "deck_sub_stopped"] target := by
  have hmem := OrderedMap.get?_eq_some.1 h
  obtain ⟨rfl, rfl⟩ := Prod.mk.inj (List.mem_singleton.1 hmem)
  unfold InGroup
  decide

/-- Who takes part in the example. -/
theorem get?_savedConfig {sessionName name : String} {entry : Fields}
    (h : (savedConfig sessionName).sessions.get? name = some entry) :
    name = "deck_cd_brain" ∧ entry = [("enabled", .bool true)] ∨
      name = "deck_sub_stopped" ∨ name = "deck_external_brain" ∧ entry = [] := by
  have hmem := OrderedMap.get?_eq_some.1 h
  simp only [savedConfig, List.mem_cons, Prod.mk.injEq, List.not_mem_nil, or_false] at hmem
  tauto

theorem participates_savedConfig {name : String} {entry : Fields}
    (h : Participates brainOnly ["deck_cd_brain", "deck_sub_stopped"]
      (savedConfig "deck_cd_brain").sessions name entry) :
    name = "deck_external_brain" ∧ entry = [] ∨
      name = "deck_cd_1_brain" ∧ entry = [("enabled", .bool true)] := by
  rcases h with ⟨hout, hget⟩ | ⟨source, hmap, hget⟩
  · rcases get?_savedConfig hget with ⟨rfl, -⟩ | rfl | hexternal
    · exact absurd (List.mem_eraseDups.2 (by decide)) hout
    · exact absurd (List.mem_eraseDups.2 (by decide)) hout
    · exact Or.inl hexternal
  · have hmem := OrderedMap.get?_eq_some.1 hmap
    obtain ⟨rfl, rfl⟩ := Prod.mk.inj (List.mem_singleton.1 hmem)
    exact Or.inr ⟨rfl, (Option.some.inj hget).symm⟩

theorem clear_savedConfig : Clear brainOnly ["deck_cd_brain", "deck_sub_stopped"]
    (savedConfig "deck_cd_brain") where
  references := by
    intro reference key hkey name hname _
    cases reference with
    | contextReducer =>
      simp only [SessionReference.keys, List.mem_cons, List.not_mem_nil, or_false] at hkey
      rcases hkey with rfl | rfl
      · obtain rfl := Option.some.inj hname
        exact ⟨Or.inr rfl, rfl⟩
      · cases hname
    | launchContext | oldAdvancedContextReducer => cases hname
  targets := by
    intro name entry target _ hmap
    have hmem := OrderedMap.get?_eq_some.1 hmap
    obtain ⟨rfl, rfl⟩ := Prod.mk.inj (List.mem_singleton.1 hmem)
    decide
  names := by
    intro name entry hget _
    rcases get?_savedConfig hget with ⟨rfl, -⟩ | rfl | ⟨rfl, -⟩ <;> decide
  apart := by
    intro name entry entry' h h'
    rcases participates_savedConfig h with ⟨rfl, rfl⟩ | ⟨rfl, rfl⟩ <;>
      rcases participates_savedConfig h' with ⟨hname, rfl⟩ | ⟨hname, rfl⟩ <;>
        first | rfl | exact absurd hname (by decide)

theorem cloneP2pConfig_apart_savedConfig :
    PointsAway brainOnly ["deck_cd_brain", "deck_sub_stopped"] (savedConfig "deck_cd_brain")
      (cloneP2pConfigWithSessionRemap (savedConfig "deck_cd_brain") brainOnly 1
        ["deck_cd_brain", "deck_sub_stopped"]).config :=
  (cloneP2pConfig_apart (savedConfig "deck_cd_brain") brainOnly 1
    ["deck_cd_brain", "deck_sub_stopped"] brainOnly_targets).1 clear_savedConfig

/-- The context reducer of the copy is the stopped session of the source group. -/
theorem not_cloneP2pConfig_apart : ¬∀ (config : P2pSavedConfig) (map : SessionNameMap) (now : ℚ)
    (sourceGroupSessionNames : List String),
    (∀ name target, map.own.get? name = some target →
      ¬InGroup map sourceGroupSessionNames target) →
    PointsAway map sourceGroupSessionNames config
      (cloneP2pConfigWithSessionRemap config map now sourceGroupSessionNames).config := by
  intro h
  have haway := h (savedConfig "deck_sub_stopped") brainOnly 1
    ["deck_cd_brain", "deck_sub_stopped"] brainOnly_targets
  refine haway.references .contextReducer "sessionName" (by decide) "deck_sub_stopped" ?_ ?_
  · rfl
  · unfold InGroup
    decide

end Imcodes.Clones
