import Imcodes.Clones.ExecutionClone
import Imcodes.Clones.Scrub

/-!
# What an execution clone learns of its template

A clone gets the listed fields of its template, the configuration of the transport scrubbed, and
nothing else: its record and its launch are built from these fields alone.

* `createExecutionCloneSession_eq` — the record that is stored first is the one of
  `createExecutionClone`.
* `clone_isolated` — templates that agree on these fields give the same clone, and the
  configuration of a clone has no identity key at any depth.
-/

namespace Imcodes.Clones

/-! ## Records -/

inductive RuntimeType
  | process | transport
deriving DecidableEq

/-- `TRANSPORT_EFFORT_LEVELS` -/
inductive TransportEffortLevel
  | off | minimal | low | medium | high | xhigh | max | adaptive
deriving DecidableEq

/-- A record with the fields that a clone may be given and those it must not be given. -/
structure StoredSession extends SessionRecord where
  restarts : ℕ
  restartTimestamps : List ℤ
  createdAt : ℤ
  updatedAt : ℤ
  userCreated : Option Bool := none
  runtimeType : Option RuntimeType := none
  providerId : Option String := none
  requestedModel : Option String := none
  activeModel : Option String := none
  qwenModel : Option String := none
  effort : Option TransportEffortLevel := none
  ccPreset : Option String := none
  presetContextWindow : Option ℚ := none
  transportConfig : Option Json := none
  /-- `null` counts as none. -/
  shellBin : Option String := none
  paneId : Option String := none
  ccSessionId : Option String := none
  codexSessionId : Option String := none
  geminiSessionId : Option String := none
  opencodeSessionId : Option String := none
  providerSessionId : Option String := none
  providerResumeId : Option String := none
  /-- The fields that are not named here. -/
  others : Fields := []

abbrev StoredSessions := OrderedMap String StoredSession

/-- The records as the requests look at them. -/
def StoredSessions.records (store : StoredSessions) : Sessions :=
  store.mapValues StoredSession.toSessionRecord

/-! ## The launch spec -/

/-- What the launch of a process asks of the host it runs on. -/
structure Host where
  /-- `process.platform === 'win32'` -/
  isWindows : Bool
  existsSync : String → Bool

/-- `/^[a-zA-Z]:[\\/]/` -/
def startsWithDrive : List Char → Bool
  | letter :: ':' :: slash :: _ => letter.isAlpha && (slash = '\\' || slash = '/')
  | _ => false

/-- The binary of a shell, if it can be run on this host. -/
def normalizeShellBinForHost (host : Host) (shellBin : Option String) : Option String :=
  match shellBin with
  | none => none
  | some shellBin =>
    let chars := shellBin.toList
    if shellBin = "" then none
    else if host.isWindows then
      if '\\' ∉ chars ∧ '/' ∉ chars then some shellBin
      else if host.existsSync shellBin then some shellBin
      else none
    else if startsWithDrive chars then none
    else if '\\' ∈ chars then none
    else if ".exe".toList.isSuffixOf (chars.map Char.toLower) then none
    else if '/' ∈ chars then if host.existsSync shellBin then some shellBin else none
    else some shellBin

structure ExecutionCloneSpec where
  agentType : String
  projectDir : String
  /-- Always true. -/
  fresh : Bool
  runtimeType : Option RuntimeType
  providerId : Option String
  requestedModel : Option String
  activeModel : Option String
  qwenModel : Option String
  effort : Option TransportEffortLevel
  ccPreset : Option String
  presetContextWindow : Option ℚ
  transportConfig : Option Fields
  shellBin : Option String

/-- `template.agentType === 'shell' || template.agentType === 'script'` -/
def isShell (agentType : String) : Bool := agentType = "shell" || agentType = "script"

/-- Build the clone launch spec from a template. -/
def buildExecutionCloneSpec (host : Host) (template : StoredSession) : ExecutionCloneSpec :=
  { agentType := template.agentType
    projectDir := template.projectDir
    fresh := true
    runtimeType := template.runtimeType
    providerId := template.providerId
    requestedModel := template.requestedModel
    activeModel := template.activeModel
    qwenModel := template.qwenModel
    effort := template.effort
    ccPreset := template.ccPreset
    presetContextWindow := template.presetContextWindow
    transportConfig := cloneTransportConfigWithoutRuntimeIdentity template.transportConfig
    shellBin :=
      if isShell template.agentType then normalizeShellBinForHost host template.shellBin
      else none }

/-! ## The clone -/

/-- The fields that the launch of a clone sets. -/
structure SubSessionRecord where
  id : String
  type : String
  cwd : String
  runtimeType : Option RuntimeType
  providerId : Option String
  requestedModel : Option String
  activeModel : Option String
  qwenModel : Option String
  transportConfig : Option Fields
  ccPreset : Option String
  parentSession : String
  fresh : Bool
  effort : Option TransportEffortLevel
  shellBin : Option String

/-- The record that is stored before the launch. -/
def cloneRecord (req : ExecutionCloneRequest) (id : String) (now : ℤ) (projectName : String)
    (spec : ExecutionCloneSpec) (metadata : ExecutionCloneMetadata) : StoredSession :=
  { name := subSessionName id
    projectName
    role := "w1"
    agentType := spec.agentType
    projectDir := spec.projectDir
    state := .idle
    restarts := 0
    restartTimestamps := []
    createdAt := now
    updatedAt := now
    parentSession := some req.owningMainSessionName
    userCreated := some true
    executionCloneMetadata := some metadata
    runtimeType := spec.runtimeType
    providerId := spec.providerId
    requestedModel := spec.requestedModel
    activeModel := spec.activeModel
    qwenModel := spec.qwenModel
    effort := spec.effort
    ccPreset := spec.ccPreset
    presetContextWindow := spec.presetContextWindow
    transportConfig := spec.transportConfig.map .object
    shellBin := spec.shellBin }

/-- The record that is launched. -/
def cloneLaunch (req : ExecutionCloneRequest) (id : String) (spec : ExecutionCloneSpec) :
    SubSessionRecord :=
  { id
    type := spec.agentType
    cwd := spec.projectDir
    runtimeType := spec.runtimeType
    providerId := spec.providerId
    -- a template may carry only one of the models
    requestedModel := (spec.requestedModel.or spec.activeModel).or spec.qwenModel
    activeModel := spec.activeModel
    qwenModel := spec.qwenModel
    transportConfig := spec.transportConfig
    ccPreset := spec.ccPreset
    parentSession := req.owningMainSessionName
    fresh := true
    effort := spec.effort
    shellBin := spec.shellBin }

/-- The template of a request that may be fulfilled, with all its fields. -/
def validatedTemplate (store : StoredSessions) (req : ExecutionCloneRequest) :
    Except ExecutionCloneErrorCode StoredSession :=
  match validateExecutionCloneRequest store.records req, store.get? req.templateSessionName with
  | .error code, _ => .error code
  | .ok _, none => .error .templateIneligible
  | .ok _, some template => .ok template

/-- `createExecutionClone`: the record that is stored and the one that is launched. -/
def createExecutionCloneSession (host : Host) (store : StoredSessions)
    (req : ExecutionCloneRequest) (id : String) (now : ℤ) :
    Except ExecutionCloneErrorCode (StoredSession × SubSessionRecord) :=
  match validatedTemplate store req with
  | .error code => .error code
  | .ok template =>
    let pref := parseDedicatedExecutionRoutingPreference req.pref
    if pref.maxParallelClones ≤ countActiveExecutionClones store.records req.parentRunId then
      .error .capacityFull
    else if (store.get? (subSessionName id)).isSome then .error .templateIneligible
    else
      let spec := buildExecutionCloneSpec host template
      .ok (cloneRecord req id now template.projectName spec
          (buildExecutionCloneMetadata req now pref),
        cloneLaunch req id spec)

variable {host : Host} {store : StoredSessions} {req : ExecutionCloneRequest} {id : String} {now : ℤ}
variable {template template' : StoredSession} {sessions : Sessions} {record : SessionRecord}

/-! ## Requests that may be fulfilled -/

/-- What a request that may be fulfilled says of its template. -/
structure Eligible (sessions : Sessions) (req : ExecutionCloneRequest) (template : SessionRecord) :
    Prop where
  found : sessions.get? req.templateSessionName = some template
  notClone : template.clone? = none
  owner : ∃ owner, sessions.get? req.ownerSessionName = some owner ∧
    template.projectName = owner.projectName ∧ template.name ≠ owner.name

theorem eligible_of_validate (h : validateExecutionCloneRequest sessions req = .ok record) :
    Eligible sessions req record := by
  unfold validateExecutionCloneRequest at h
  dsimp only at h
  split at h
  · cases h
  · rename_i hcandidate
    split at h
    · rename_i template owner owningMain htemplate howner howningMain
      split_ifs at h with hmain hproject hname
      cases h
      refine ⟨htemplate, ?_, owner, howner, ?_, hname⟩
      · rw [htemplate, validateExecutionTemplateCandidate] at hcandidate
        split_ifs at hcandidate with hstate hclone
        exact Option.not_isSome_iff_eq_none.1 hclone
      · exact not_not.1 (not_or.1 hproject).1
    · cases h

theorem get?_records (name : String) :
    store.records.get? name = (store.get? name).map StoredSession.toSessionRecord :=
  OrderedMap.get?_mapValues

/-- The template that is found has all its fields. -/
theorem validatedTemplate_eq_ok (h : validateExecutionCloneRequest store.records req = .ok record) :
    ∃ template, store.get? req.templateSessionName = some template ∧
      template.toSessionRecord = record ∧ validatedTemplate store req = .ok template := by
  have hfound := (eligible_of_validate h).found
  rw [get?_records] at hfound
  obtain ⟨template, htemplate, heq⟩ := Option.map_eq_some_iff.1 hfound
  refine ⟨template, htemplate, heq, ?_⟩
  rw [validatedTemplate, h, htemplate]

/-- **The record that is stored first** is the one of `createExecutionClone`, with more fields. -/
theorem createExecutionCloneSession_eq :
    (createExecutionCloneSession host store req id now).map (fun clone => clone.1.toSessionRecord) =
      createExecutionClone store.records req id now := by
  rw [createExecutionCloneSession, createExecutionClone]
  rcases hvalid : validateExecutionCloneRequest store.records req with code | record
  · rw [validatedTemplate, hvalid]
    rfl
  · obtain ⟨template, -, heq, hok⟩ := validatedTemplate_eq_ok hvalid
    rw [hok, get?_records, Option.isSome_map]
    dsimp only
    split
    · rfl
    · split
      · rfl
      · rw [← heq]
        rfl

/-! ## Two templates -/

/-- Templates that agree on the fields that are copied, the configuration scrubbed. -/
structure SameCopiedFields (template template' : StoredSession) : Prop where
  agentType : template.agentType = template'.agentType
  projectDir : template.projectDir = template'.projectDir
  runtimeType : template.runtimeType = template'.runtimeType
  providerId : template.providerId = template'.providerId
  requestedModel : template.requestedModel = template'.requestedModel
  activeModel : template.activeModel = template'.activeModel
  qwenModel : template.qwenModel = template'.qwenModel
  effort : template.effort = template'.effort
  ccPreset : template.ccPreset = template'.ccPreset
  presetContextWindow : template.presetContextWindow = template'.presetContextWindow
  transportConfig : cloneTransportConfigWithoutRuntimeIdentity template.transportConfig =
    cloneTransportConfigWithoutRuntimeIdentity template'.transportConfig
  /-- Copied for a shell or a script only. -/
  shellBin : isShell template.agentType → template.shellBin = template'.shellBin

theorem buildExecutionCloneSpec_congr (h : SameCopiedFields template template') :
    buildExecutionCloneSpec host template = buildExecutionCloneSpec host template' := by
  have hshell : (if isShell template.agentType then normalizeShellBinForHost host template.shellBin
      else none) = if isShell template'.agentType then
        normalizeShellBinForHost host template'.shellBin else none := by
    rw [← h.agentType]
    split
    · rename_i hisShell
      rw [h.shellBin hisShell]
    · rfl
  rw [buildExecutionCloneSpec, buildExecutionCloneSpec, hshell, h.agentType, h.projectDir,
    h.runtimeType, h.providerId, h.requestedModel, h.activeModel, h.qwenModel, h.effort, h.ccPreset,
    h.presetContextWindow, h.transportConfig]

/-- Two stores that differ in the template only. -/
theorem countActiveExecutionClones_set (name parentRunId : String)
    (h : template.clone? = none) (h' : template'.clone? = none) :
    countActiveExecutionClones (StoredSessions.records (store.set name template)) parentRunId =
      countActiveExecutionClones (StoredSessions.records (store.set name template'))
        parentRunId := by
  simp only [countActiveExecutionClones, listSessions, StoredSessions.records,
    OrderedMap.values_mapValues, List.countP_map]
  exact congrArg _ (OrderedMap.countP_values_set (by simp [h, h']))

/-- The template of a request that may be fulfilled, in a store where it was put. -/
theorem validated_set (h : (validateExecutionCloneRequest (StoredSessions.records
      (store.set req.templateSessionName template)) req).isOk = true) :
    validatedTemplate (store.set req.templateSessionName template) req = .ok template ∧
      template.clone? = none ∧
      ∃ owner, store.get? req.ownerSessionName = some owner ∧
        template.projectName = owner.projectName := by
  rcases hvalid : validateExecutionCloneRequest (StoredSessions.records
    (store.set req.templateSessionName template)) req with code | record
  · rw [hvalid] at h
    cases h
  obtain ⟨found, hfound, rfl, hok⟩ := validatedTemplate_eq_ok hvalid
  obtain ⟨-, hclone, owner, howner, hproject, hname⟩ := eligible_of_validate hvalid
  rw [OrderedMap.get?_set, if_pos rfl] at hfound
  obtain rfl := Option.some.inj hfound
  refine ⟨hok, hclone, ?_⟩
  rw [get?_records, OrderedMap.get?_set] at howner
  obtain ⟨stored, hstored, rfl⟩ := Option.map_eq_some_iff.1 howner
  split at hstored
  · -- the owner would be the template itself
    obtain rfl := Option.some.inj hstored
    exact absurd rfl hname
  · exact ⟨stored, hstored, hproject⟩

/-- **Two templates that agree on what is copied** give the same clone. -/
theorem createExecutionCloneSession_congr (hsame : SameCopiedFields template template')
    (h : (validateExecutionCloneRequest (StoredSessions.records
      (store.set req.templateSessionName template)) req).isOk = true)
    (h' : (validateExecutionCloneRequest (StoredSessions.records
      (store.set req.templateSessionName template')) req).isOk = true) :
    createExecutionCloneSession host (store.set req.templateSessionName template) req id now =
      createExecutionCloneSession host (store.set req.templateSessionName template') req id
        now := by
  obtain ⟨hok, hclone, owner, howner, hproject⟩ := validated_set h
  obtain ⟨hok', hclone', owner', howner', hproject'⟩ := validated_set h'
  obtain rfl := Option.some.inj (howner.symm.trans howner')
  have hcollision : ∀ name, ((store.set req.templateSessionName template).get? name).isSome =
      ((store.set req.templateSessionName template').get? name).isSome := by
    intro name
    rw [OrderedMap.get?_set, OrderedMap.get?_set]
    split <;> rfl
  rw [createExecutionCloneSession, createExecutionCloneSession, hok, hok']
  dsimp only
  rw [countActiveExecutionClones_set _ _ hclone hclone', hcollision,
    buildExecutionCloneSpec_congr hsame, hproject, hproject']

/-! ## Templates that may be cloned, and one that is stopped -/

/-- A session of a project, with an identity in its record and in its configuration. -/
def projectSession (name role identity : String) (state : SessionState) : StoredSession :=
  { name
    projectName := "site"
    role
    agentType := "qwen"
    projectDir := "/work/site"
    state
    restarts := 0
    restartTimestamps := []
    createdAt := 0
    updatedAt := 0
    providerSessionId := some identity
    transportConfig := some (.object [("routes",
      .array [.object [("provider-session-id", .string identity), ("region", .string "eu")]])]) }

/-- The main session of the project and the owner of the clones. -/
def projectStore : StoredSessions :=
  (OrderedMap.empty.set "deck_site_brain" (projectSession "deck_site_brain" "brain" "b" .idle)).set
    "deck_site_w1" (projectSession "deck_site_w1" "w1" "o" .running)

def cloneRequest : ExecutionCloneRequest :=
  { templateSessionName := "deck_site_w2"
    parentRunId := "run"
    parentStage := .genericExecution
    ownerSessionName := "deck_site_w1"
    owningMainSessionName := "deck_site_brain"
    pref := {} }

/-- Sessions with other identities are copied alike. -/
theorem sameCopiedFields_projectSession (name role identity identity' : String)
    (state state' : SessionState) :
    SameCopiedFields (projectSession name role identity state)
      (projectSession name role identity' state') := by
  constructor
  case shellBin => exact fun _ => rfl
  all_goals rfl

/-- **A clone learns nothing of its template's identity**: templates that agree on what is copied
and may both be cloned give the same record and the same launch; what is scrubbed has no identity
key at any depth and stays as it is. -/
theorem clone_isolated (host : Host) (store : StoredSessions) (req : ExecutionCloneRequest)
    (id : String) (now : ℤ) (template template' : StoredSession) (config : Json)
    (hsame : SameCopiedFields template template')
    (h : (validateExecutionCloneRequest (StoredSessions.records
      (store.set req.templateSessionName template)) req).isOk = true)
    (h' : (validateExecutionCloneRequest (StoredSessions.records
      (store.set req.templateSessionName template')) req).isOk = true) :
    createExecutionCloneSession host (store.set req.templateSessionName template) req id now =
        createExecutionCloneSession host (store.set req.templateSessionName template') req id now ∧
      scrubCloneTransportIdentity (scrubCloneTransportIdentity config) =
        scrubCloneTransportIdentity config ∧
      hasIdentityKey (scrubCloneTransportIdentity config) = false :=
  ⟨createExecutionCloneSession_congr hsame h h', scrub_scrub config, hasIdentityKey_scrub config⟩

theorem clone_isolated_projectSession :
    let template := projectSession "deck_site_w2" "w2" "first" .idle
    let template' := projectSession "deck_site_w2" "w2" "second" .running
    createExecutionCloneSession ⟨false, fun _ => false⟩
        (projectStore.set "deck_site_w2" template) cloneRequest "0a1b2c3d4e5f" 100 =
      createExecutionCloneSession ⟨false, fun _ => false⟩
        (projectStore.set "deck_site_w2" template') cloneRequest "0a1b2c3d4e5f" 100 ∧
      (createExecutionCloneSession ⟨false, fun _ => false⟩
        (projectStore.set "deck_site_w2" template) cloneRequest "0a1b2c3d4e5f" 100).isOk = true :=
  ⟨(clone_isolated ⟨false, fun _ => false⟩ projectStore cloneRequest "0a1b2c3d4e5f" 100
    (projectSession "deck_site_w2" "w2" "first" .idle)
    (projectSession "deck_site_w2" "w2" "second" .running) .null
    (sameCopiedFields_projectSession _ _ _ _ _ _) (by decide +kernel) (by decide +kernel)).1,
    by decide +kernel⟩

/-- A template that is stopped is not cloned. -/
theorem not_clone_isolated :
    ¬ ∀ (host : Host) (store : StoredSessions) (req : ExecutionCloneRequest) (id : String) (now : ℤ)
      (template template' : StoredSession) (config : Json),
      SameCopiedFields template template' →
        createExecutionCloneSession host (store.set req.templateSessionName template) req id now =
            createExecutionCloneSession host (store.set req.templateSessionName template') req id
              now ∧
          scrubCloneTransportIdentity (scrubCloneTransportIdentity config) =
            scrubCloneTransportIdentity config ∧
          hasIdentityKey (scrubCloneTransportIdentity config) = false := by
  intro h
  have hsame := congrArg Except.isOk (h ⟨false, fun _ => false⟩ projectStore cloneRequest
    "0a1b2c3d4e5f" 100 (projectSession "deck_site_w2" "w2" "first" .idle)
    (projectSession "deck_site_w2" "w2" "second" .stopped) .null
    (sameCopiedFields_projectSession _ _ _ _ _ _)).1
  revert hsame
  decide +kernel

end Imcodes.Clones
