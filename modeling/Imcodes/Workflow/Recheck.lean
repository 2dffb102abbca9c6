import Imcodes.Workflow.Adapter
import Imcodes.Workflow.StableHash

/-!
# The recheck of dangerous rounds

A workflow is bound under the policy of the daemon, into which the executables of the launch are
merged.  Before a dangerous round the daemon's policy is read again and compared with that.

* `rechecksFairly_iff` — **which launches can run**: a daemon that has not changed passes its own
  recheck exactly when the launch brings no executables; then a round fails only because a required
  capability is gone, or an authority that the daemon had granted.
* `BoundBy.rounds_pass_iff` — with executables, a run ends at its first dangerous round.
* `not_rechecksFairly` — a launch with a script is bound, and its first script round fails.
-/

namespace Imcodes.Workflow

open Imcodes.Queue (Collation)

/-! ## The policy of the daemon -/

/-- What a daemon's link tells about what the daemon can do, if it tells it. -/
structure ServerLink where
  getP2pWorkflowCapabilities : Option (List String) := none
deriving DecidableEq

def getCurrentDaemonWorkflowCapabilities (serverLink : ServerLink) : List String :=
  match serverLink.getP2pWorkflowCapabilities with
  | some capabilities => jsSort capabilities
  | none => []

/-- `Partial<P2pStaticPolicy>` -/
structure P2pStaticPolicyOverrides where
  maxNodes : Option ℚ := none
  maxEdges : Option ℚ := none
  maxLoopBudget : Option ℚ := none
  allowedExecutables : Option (List String) := none
  allowInterpreterScripts : Option Bool := none
  allowOpenSpecArtifacts : Option Bool := none
  allowImplementationPermission : Option Bool := none
  maxPromptAppendBytes : Option ℚ := none
  concurrency : Option P2pPolicyConcurrency := none

def defaultP2pStaticPolicy : P2pStaticPolicy :=
  { maxNodes := 64
    maxEdges := 128
    maxLoopBudget := 8
    allowedExecutables := []
    allowInterpreterScripts := false
    allowOpenSpecArtifacts := false
    allowImplementationPermission := false
    maxPromptAppendBytes := 16 * 1024
    concurrency := { maxAdvancedRuns := 2, maxScripts := 4 } }

/-- The policy without its hash, which is `hashP2pStaticPolicy` of it. -/
def buildDefaultP2pStaticPolicy (overrides : P2pStaticPolicyOverrides) : P2pStaticPolicy :=
  let default := defaultP2pStaticPolicy
  { maxNodes := overrides.maxNodes.getD default.maxNodes
    maxEdges := overrides.maxEdges.getD default.maxEdges
    maxLoopBudget := overrides.maxLoopBudget.getD default.maxLoopBudget
    allowedExecutables := overrides.allowedExecutables.getD default.allowedExecutables
    allowInterpreterScripts :=
      overrides.allowInterpreterScripts.getD default.allowInterpreterScripts
    allowOpenSpecArtifacts := overrides.allowOpenSpecArtifacts.getD default.allowOpenSpecArtifacts
    allowImplementationPermission :=
      overrides.allowImplementationPermission.getD default.allowImplementationPermission
    maxPromptAppendBytes := overrides.maxPromptAppendBytes.getD default.maxPromptAppendBytes
    concurrency := overrides.concurrency.getD default.concurrency }

/-- A whole policy as what overrides another one. -/
def P2pStaticPolicy.overrides (policy : P2pStaticPolicy) : P2pStaticPolicyOverrides :=
  { maxNodes := policy.maxNodes
    maxEdges := policy.maxEdges
    maxLoopBudget := policy.maxLoopBudget
    allowedExecutables := policy.allowedExecutables
    allowInterpreterScripts := policy.allowInterpreterScripts
    allowOpenSpecArtifacts := policy.allowOpenSpecArtifacts
    allowImplementationPermission := policy.allowImplementationPermission
    maxPromptAppendBytes := policy.maxPromptAppendBytes
    concurrency := policy.concurrency }

def loadDaemonP2pStaticPolicy (serverLink : ServerLink) : P2pStaticPolicy :=
  let caps := getCurrentDaemonWorkflowCapabilities serverLink
  buildDefaultP2pStaticPolicy
    { allowedExecutables := some []
      allowOpenSpecArtifacts := some (p2pWorkflowOpenspecArtifactsCapabilityV1 ∈ caps)
      allowImplementationPermission := some (p2pWorkflowImplementationCapabilityV1 ∈ caps)
      allowInterpreterScripts := some (p2pWorkflowScriptInterpreterCapabilityV1 ∈ caps) }

/-! ## Binding -/

structure P2pBindRuntimeContext where
  runId : String
  /-- `capabilitySnapshot.capabilities` -/
  capabilities : List String
  policySnapshot : P2pStaticPolicy
  /-- `concurrencyAdmission.accepted` -/
  accepted : Bool

structure P2pBoundWorkflow where
  compiled : P2pCompiledWorkflow
  bindContext : P2pBindRuntimeContext

inductive P2pBindFailureReason
  | daemonBusy
  | missingRequiredCapability
deriving DecidableEq

/-- What the policy says against a node. -/
def validateCompiledNode (bindContext : P2pBindRuntimeContext) (node : P2pCompiledNode) :
    List P2pWorkflowDiagnostic :=
  let policy := bindContext.policySnapshot
  let diagnostic (code : P2pWorkflowDiagnosticCode) (field summary : String) :=
    makeP2pWorkflowDiagnostic code .bind
      { runId := bindContext.runId, nodeId := node.id
        fieldPath := s!"nodes.{node.id}.{field}", summary }
  (if node.permissionScope = .implementation ∧ !policy.allowImplementationPermission then
    [diagnostic .missingRequiredCapability "permissionScope"
      "Daemon policy does not allow implementation permission."]
  else []) ++
  (if node.artifacts.any (·.isOpenspec) && !policy.allowOpenSpecArtifacts then
    [diagnostic .missingRequiredCapability "artifacts"
      "Daemon policy does not allow OpenSpec artifact writes."]
  else []) ++
  match node.script with
  | none => []
  | some script =>
      (if script.commandKind = .interpreter ∧ !policy.allowInterpreterScripts then
        [diagnostic .scriptExecutableDenied "script.commandKind"
          "Daemon policy does not allow interpreter scripts."]
      else []) ++
      let executable :=
        if script.commandKind = .interpreter then script.interpreter else script.argv.head?
      if executable.all fun executable =>
          executable = "" || executable ∉ policy.allowedExecutables then
        let named := executable.getD "<missing>"
        [diagnostic .scriptExecutableDenied "script.argv[0]"
          s!"Executable {named} is not allowlisted by daemon policy."]
      else []

def validateCompiledWorkflowAgainstBindPolicy (compiled : P2pCompiledWorkflow)
    (bindContext : P2pBindRuntimeContext) : List P2pWorkflowDiagnostic :=
  compiled.nodes.flatMap (validateCompiledNode bindContext)

def getMissingP2pWorkflowCapabilities (compiled : P2pCompiledWorkflow)
    (bindContext : P2pBindRuntimeContext) : List String :=
  (p2pWorkflowCapabilityV1 :: compiled.derivedRequiredCapabilities).eraseDups.filter
    (· ∉ bindContext.capabilities)

/-- A workflow that compiles has no diagnostics of its own here. -/
def bindP2pCompiledWorkflow (compiled : P2pCompiledWorkflow)
    (bindContext : P2pBindRuntimeContext) :
    Except (P2pBindFailureReason × List P2pWorkflowDiagnostic)
      (P2pBoundWorkflow × List P2pWorkflowDiagnostic) :=
  let missing := getMissingP2pWorkflowCapabilities compiled bindContext
  let policyDiagnostics := validateCompiledWorkflowAgainstBindPolicy compiled bindContext
  if !bindContext.accepted then
    .error (.daemonBusy, [makeP2pWorkflowDiagnostic .daemonBusy .bind
      { runId := bindContext.runId, summary := "daemon_busy" }])
  else if missing ≠ [] then
    let listed := ", ".intercalate missing
    .error (.missingRequiredCapability, [makeP2pWorkflowDiagnostic .missingRequiredCapability .bind
      { runId := bindContext.runId
        fieldPath := "capabilitySnapshot.capabilities"
        summary := s!"Missing required capabilities: {listed}" }])
  else if hasError policyDiagnostics then .error (.missingRequiredCapability, policyDiagnostics)
  else .ok ({ compiled, bindContext }, policyDiagnostics)

/-! ## Launching -/

/-- A launch that was validated, with its draft or the one its old configuration materializes. -/
structure P2pWorkflowLaunchEnvelope where
  advancedDraft : P2pWorkflowDraft
  allowedExecutables : Option (List String) := none
  expectedStaticPolicyHash : Option String := none

/-- `envelopeAllowedExecutables` -/
def P2pWorkflowLaunchEnvelope.executables (envelope : P2pWorkflowLaunchEnvelope) : List String :=
  jsSort (envelope.allowedExecutables.getD []).eraseDups

/-- The policy under which a launch is compiled and bound. -/
def P2pWorkflowLaunchEnvelope.staticPolicy (envelope : P2pWorkflowLaunchEnvelope)
    (serverLink : ServerLink) : P2pStaticPolicy :=
  let baseStaticPolicy := loadDaemonP2pStaticPolicy serverLink
  if 0 < envelope.executables.length then
    buildDefaultP2pStaticPolicy
      { baseStaticPolicy.overrides with allowedExecutables := envelope.executables }
  else baseStaticPolicy

/-- The launch compiled, bound and handed over; how many runs are active decides what is
accepted. -/
def prepareAdvancedWorkflowLaunch (localeCompare : Collation) (numbers : Json.NumberText)
    (serverLink : ServerLink) (runId : String) (activeAdvancedRuns : ℕ)
    (envelope : P2pWorkflowLaunchEnvelope) :
    Except (List P2pWorkflowDiagnostic) (P2pBoundWorkflow × List P2pWorkflowDiagnostic) :=
  let draftValidation := validateP2pWorkflowDraft envelope.advancedDraft
  if hasError draftValidation then .error draftValidation
  else
    let staticPolicy := envelope.staticPolicy serverLink
    let policyHash := hashP2pStaticPolicy numbers staticPolicy
    let policyMismatchDiagnostics :=
      match envelope.expectedStaticPolicyHash with
      | none => []
      | some expected =>
          if expected ≠ "" ∧ expected ≠ policyHash then
            [makeP2pWorkflowDiagnostic .staticPolicyMismatchRecompiled .bind
              { fieldPath := "expectedStaticPolicyHash"
                summary := s!"Launch envelope referenced static policy {expected} but daemon " ++
                  s!"recompiled with current policy {policyHash}." }]
          else []
    match compileP2pWorkflowDraft localeCompare envelope.advancedDraft staticPolicy with
    | .error diagnostics => .error (policyMismatchDiagnostics ++ diagnostics)
    | .ok workflow =>
        let bindContext : P2pBindRuntimeContext :=
          { runId
            capabilities := getCurrentDaemonWorkflowCapabilities serverLink
            policySnapshot := staticPolicy
            accepted := (activeAdvancedRuns : ℚ) < staticPolicy.concurrency.maxAdvancedRuns }
        match bindP2pCompiledWorkflow workflow bindContext with
        | .error (_, bindDiagnostics) => .error (policyMismatchDiagnostics ++ bindDiagnostics)
        | .ok (bound, bindDiagnostics) => .ok (bound, policyMismatchDiagnostics ++ bindDiagnostics)

/-! ## The recheck -/

inductive P2pWorkflowPolicyRecheckResult
  | ok
  | failed (diagnostic : P2pWorkflowDiagnostic) (missingCapability downgradedField : Option String)
deriving DecidableEq

structure PolicyDowngradeFinding where
  field : String
  summary : String

/-- `POLICY_ALLOW_FLAG_FIELDS`, with the field of each. -/
def policyAllowFlagFields : List (String × (P2pStaticPolicy → Bool)) :=
  [("allowOpenSpecArtifacts", (·.allowOpenSpecArtifacts)),
    ("allowImplementationPermission", (·.allowImplementationPermission)),
    ("allowInterpreterScripts", (·.allowInterpreterScripts))]

def findPolicyDowngrade (bound current : P2pStaticPolicy) : Option PolicyDowngradeFinding :=
  (policyAllowFlagFields.find? fun flag => flag.2 bound && !flag.2 current).map
    (fun (name, _) =>
      { field := s!"currentDaemonPolicy.{name}"
        summary := s!"Policy flag {name} was true at bind but is now false" }) <|>
  (bound.allowedExecutables.find? (· ∉ current.allowedExecutables)).map fun exe =>
    { field := "currentDaemonPolicy.allowedExecutables"
      summary := s!"Executable {exe} was allowlisted at bind but is no longer allowed" }

structure P2pWorkflowPolicyRecheckArgs where
  requiredCapabilities : List String
  bindCapabilitySnapshot : List String
  currentDaemonCapabilities : List String
  boundPolicySnapshot : Option P2pStaticPolicy := none
  currentDaemonPolicy : Option P2pStaticPolicy := none
  runId : Option String := none
  nodeId : Option String := none

def recheckDangerousNodeCapabilities (args : P2pWorkflowPolicyRecheckArgs) :
    P2pWorkflowPolicyRecheckResult :=
  match args.requiredCapabilities.find? (· ∉ args.currentDaemonCapabilities) with
  | some required =>
      let wasBound : Bool := required ∈ args.bindCapabilitySnapshot
      .failed
        (makeP2pWorkflowDiagnostic
          (if wasBound then .capabilityDowngradedDuringRun else .missingRequiredCapability) .execute
          { runId := args.runId, nodeId := args.nodeId
            fieldPath := "currentDaemonPolicy.capabilities"
            summary :=
              if wasBound then
                s!"Capability {required} was present at bind but is no longer available"
              else s!"Required capability {required} is missing" })
        required none
  | none =>
      match args.boundPolicySnapshot, args.currentDaemonPolicy with
      | some bound, some current =>
          match findPolicyDowngrade bound current with
          | some downgrade =>
              .failed
                (makeP2pWorkflowDiagnostic .capabilityDowngradedDuringRun .execute
                  { runId := args.runId, nodeId := args.nodeId
                    fieldPath := downgrade.field, summary := downgrade.summary })
                none downgrade.field
          | none => .ok
      | _, _ => .ok

/-- The link that a recheck reads; without one the capabilities are those of the binding. -/
def P2pBoundWorkflow.recheckLink (bound : P2pBoundWorkflow) (serverLink : Option ServerLink) :
    ServerLink :=
  let stubLink : ServerLink := { getP2pWorkflowCapabilities := bound.bindContext.capabilities }
  serverLink.getD stubLink

/-- What the recheck compares. -/
def recheckArgs (bound : P2pBoundWorkflow) (runId : String) (round : P2pResolvedRound)
    (serverLink : Option ServerLink) : P2pWorkflowPolicyRecheckArgs :=
  let link := bound.recheckLink serverLink
  { requiredCapabilities := bound.compiled.derivedRequiredCapabilities
    bindCapabilitySnapshot := bound.bindContext.capabilities
    currentDaemonCapabilities := getCurrentDaemonWorkflowCapabilities link
    boundPolicySnapshot := bound.bindContext.policySnapshot
    currentDaemonPolicy := loadDaemonP2pStaticPolicy link
    runId, nodeId := round.id }

/-- The run goes on, or fails with what the diagnostic says. -/
def recheckDangerousRoundOrFail (boundWorkflow : Option P2pBoundWorkflow) (runId : String)
    (round : P2pResolvedRound) (serverLink : Option ServerLink) :
    Except P2pWorkflowDiagnostic Unit :=
  match boundWorkflow with
  | none => .ok ()
  | some bound =>
      match recheckDangerousNodeCapabilities (recheckArgs bound runId round serverLink) with
      | .ok => .ok ()
      | .failed diagnostic _ _ => .error diagnostic

def isRoundDangerous (round : P2pResolvedRound) : Bool :=
  round.permissionScope = .implementation ∨ round.permissionScope = .artifactGeneration ∨
    round.nodeKind = some .script ∨ round.artifactConvention ≠ .none

/-- What a run asks before a round of its compiled workflow. -/
def beforeRound (bound : P2pBoundWorkflow) (runId : String) (round : P2pResolvedRound)
    (serverLink : Option ServerLink) : Except P2pWorkflowDiagnostic Unit :=
  if isRoundDangerous round then recheckDangerousRoundOrFail (some bound) runId round serverLink
  else .ok ()

/-! ## What the recheck finds -/

/-- An authority of the one policy is none of the other. -/
def Withdrawn (policy policy' : P2pStaticPolicy) : Prop :=
  (∃ flag ∈ policyAllowFlagFields, flag.2 policy = true ∧ flag.2 policy' = false) ∨
    ∃ executable ∈ policy.allowedExecutables, executable ∉ policy'.allowedExecutables

theorem findPolicyDowngrade_eq_none {bound current : P2pStaticPolicy} :
    findPolicyDowngrade bound current = none ↔ ¬ Withdrawn bound current := by
  rw [findPolicyDowngrade, Withdrawn, not_or]
  simp only [Option.orElse_eq_none, Option.map_eq_none_iff, List.find?_eq_none]
  simp

/-- With both policies given, a recheck passes when every capability is there and no authority is
withdrawn. -/
theorem recheck_eq_ok {args : P2pWorkflowPolicyRecheckArgs} {bound current : P2pStaticPolicy}
    (hbound : args.boundPolicySnapshot = some bound)
    (hcurrent : args.currentDaemonPolicy = some current) :
    recheckDangerousNodeCapabilities args = .ok ↔
      (∀ capability ∈ args.requiredCapabilities, capability ∈ args.currentDaemonCapabilities) ∧
        ¬ Withdrawn bound current := by
  rw [recheckDangerousNodeCapabilities, hbound, hcurrent, ← findPolicyDowngrade_eq_none]
  cases hfind : args.requiredCapabilities.find? (· ∉ args.currentDaemonCapabilities) with
  | some required =>
    have hmissing := List.find?_some hfind
    refine iff_of_false (by simp) fun h => ?_
    exact of_decide_eq_true hmissing (h.1 required (List.mem_of_find?_eq_some hfind))
  | none =>
    have hall : ∀ capability ∈ args.requiredCapabilities,
        capability ∈ args.currentDaemonCapabilities := fun capability hmem => by
      simpa using List.find?_eq_none.1 hfind capability hmem
    rw [and_iff_right hall]
    cases hdowngrade : findPolicyDowngrade bound current with
    | none => simp [hdowngrade]
    | some downgrade => simp [hdowngrade]

theorem recheckDangerousRoundOrFail_eq_ok {bound : P2pBoundWorkflow} {runId : String}
    {round : P2pResolvedRound} {serverLink : Option ServerLink} :
    recheckDangerousRoundOrFail (some bound) runId round serverLink = .ok () ↔
      (∀ capability ∈ bound.compiled.derivedRequiredCapabilities,
        capability ∈ getCurrentDaemonWorkflowCapabilities (bound.recheckLink serverLink)) ∧
      ¬ Withdrawn bound.bindContext.policySnapshot
        (loadDaemonP2pStaticPolicy (bound.recheckLink serverLink)) := by
  have hrecheck := @recheck_eq_ok (recheckArgs bound runId round serverLink) _ _ rfl rfl
  refine Iff.trans ?_ hrecheck
  rw [recheckDangerousRoundOrFail]
  cases recheckDangerousNodeCapabilities (recheckArgs bound runId round serverLink) with
  | ok => simp
  | failed diagnostic missingCapability downgradedField => simp

/-! ## Launches that are bound -/

/-- The workflow of a launch that is bound requires no more than the daemon can do, and keeps the
policy of the launch. -/
structure BoundBy (serverLink : ServerLink) (envelope : P2pWorkflowLaunchEnvelope)
    (bound : P2pBoundWorkflow) : Prop where
  capabilities : bound.bindContext.capabilities = getCurrentDaemonWorkflowCapabilities serverLink
  policy : bound.bindContext.policySnapshot = envelope.staticPolicy serverLink
  required : ∀ capability ∈ bound.compiled.derivedRequiredCapabilities,
    capability ∈ getCurrentDaemonWorkflowCapabilities serverLink

variable {localeCompare : Collation} {numbers : Json.NumberText} {serverLink : ServerLink}
  {runId : String} {activeAdvancedRuns : ℕ} {envelope : P2pWorkflowLaunchEnvelope}
  {bound : P2pBoundWorkflow} {diagnostics : List P2pWorkflowDiagnostic}

theorem bind_eq_ok {compiled : P2pCompiledWorkflow} {bindContext : P2pBindRuntimeContext}
    (h : bindP2pCompiledWorkflow compiled bindContext = .ok (bound, diagnostics)) :
    bound = { compiled, bindContext } ∧
      ∀ capability ∈ compiled.derivedRequiredCapabilities,
        capability ∈ bindContext.capabilities := by
  rw [bindP2pCompiledWorkflow] at h
  split at h
  · cases h
  · split at h
    · cases h
    · rename_i hnone
      split at h
      · cases h
      · obtain ⟨rfl, -⟩ := Prod.mk.inj (Except.ok.inj h)
        refine ⟨rfl, fun capability hmem => ?_⟩
        have hnil := List.filter_eq_nil_iff.1 (not_not.1 hnone) capability
          (List.mem_eraseDups.2 (List.mem_cons_of_mem _ hmem))
        simpa using hnil

theorem boundBy_of_prepare
    (h : prepareAdvancedWorkflowLaunch localeCompare numbers serverLink runId activeAdvancedRuns
      envelope = .ok (bound, diagnostics)) :
    BoundBy serverLink envelope bound := by
  rw [prepareAdvancedWorkflowLaunch] at h
  dsimp only at h
  split at h
  · cases h
  split at h
  · cases h
  split at h
  · cases h
  · rename_i hbind
    obtain ⟨rfl, -⟩ := Prod.mk.inj (Except.ok.inj h)
    obtain ⟨rfl, hrequired⟩ := bind_eq_ok hbind
    exact ⟨rfl, rfl, hrequired⟩

theorem executables_eq_nil :
    envelope.executables = [] ↔ envelope.allowedExecutables.getD [] = [] := by
  simp only [List.eq_nil_iff_forall_not_mem, P2pWorkflowLaunchEnvelope.executables, mem_jsSort,
    List.mem_eraseDups]

/-- A launch without executables has the policy of the daemon. -/
theorem staticPolicy_of_nil (h : envelope.executables = []) :
    envelope.staticPolicy serverLink = loadDaemonP2pStaticPolicy serverLink := by
  rw [P2pWorkflowLaunchEnvelope.staticPolicy, h]
  rfl

/-- The executables of a launch are those of its policy, and of no policy of a daemon. -/
theorem withdrawn_of_ne_nil (h : envelope.executables ≠ []) (serverLink' : ServerLink) :
    Withdrawn (envelope.staticPolicy serverLink) (loadDaemonP2pStaticPolicy serverLink') := by
  obtain ⟨executable, hmem⟩ := List.exists_mem_of_ne_nil _ h
  have hpolicy : (envelope.staticPolicy serverLink).allowedExecutables = envelope.executables := by
    rw [P2pWorkflowLaunchEnvelope.staticPolicy, if_pos (List.length_pos_of_ne_nil h)]
    rfl
  exact .inr ⟨executable, hpolicy ▸ hmem, List.not_mem_nil⟩

/-- A daemon with the same capabilities has the same policy. -/
theorem policy_congr {link link' : ServerLink}
    (h : ∀ capability, capability ∈ getCurrentDaemonWorkflowCapabilities link' ↔
      capability ∈ getCurrentDaemonWorkflowCapabilities link) :
    loadDaemonP2pStaticPolicy link' = loadDaemonP2pStaticPolicy link := by
  simp only [loadDaemonP2pStaticPolicy, h]

theorem not_withdrawn_self (policy : P2pStaticPolicy) : ¬ Withdrawn policy policy := by
  rintro (⟨flag, -, htrue, hfalse⟩ | ⟨executable, hmem, hnot⟩)
  · rw [htrue] at hfalse
    cases hfalse
  · exact hnot hmem

/-- **The recheck of a bound workflow is fair** to a daemon: one with the capabilities that it had
passes it, as does a run without a link; and a round fails only if a required capability of the
daemon is gone, or an authority that the daemon had granted. -/
def RechecksFairly (bound : P2pBoundWorkflow) (serverLink : ServerLink) : Prop :=
  ∀ (runId : String) (round : P2pResolvedRound),
    recheckDangerousRoundOrFail (some bound) runId round none = .ok () ∧
    ∀ serverLink' : ServerLink,
      ((∀ capability, capability ∈ getCurrentDaemonWorkflowCapabilities serverLink' ↔
          capability ∈ getCurrentDaemonWorkflowCapabilities serverLink) →
        recheckDangerousRoundOrFail (some bound) runId round serverLink' = .ok ()) ∧
      (recheckDangerousRoundOrFail (some bound) runId round serverLink' ≠ .ok () →
        (∃ capability ∈ bound.compiled.derivedRequiredCapabilities,
          capability ∈ getCurrentDaemonWorkflowCapabilities serverLink ∧
            capability ∉ getCurrentDaemonWorkflowCapabilities serverLink') ∨
        Withdrawn (loadDaemonP2pStaticPolicy serverLink) (loadDaemonP2pStaticPolicy serverLink'))

/-- No daemon passes the recheck of a launch that brings executables. -/
theorem BoundBy.recheck_fails (h : BoundBy serverLink envelope bound)
    (hne : envelope.executables ≠ []) (runId : String) (round : P2pResolvedRound)
    (serverLink' : ServerLink) :
    recheckDangerousRoundOrFail (some bound) runId round serverLink' ≠ .ok () := by
  rw [ne_eq, recheckDangerousRoundOrFail_eq_ok, h.policy]
  exact fun hok => hok.2 (withdrawn_of_ne_nil hne serverLink')

theorem BoundBy.rechecksFairly (h : BoundBy serverLink envelope bound)
    (hnil : envelope.executables = []) : RechecksFairly bound serverLink := by
  have hpolicy := h.policy.trans (staticPolicy_of_nil hnil)
  intro runId round
  have hsame (link : Option ServerLink)
      (hlink : ∀ capability,
        capability ∈ getCurrentDaemonWorkflowCapabilities (bound.recheckLink link) ↔
          capability ∈ getCurrentDaemonWorkflowCapabilities serverLink) :
      recheckDangerousRoundOrFail (some bound) runId round link = .ok () := by
    rw [recheckDangerousRoundOrFail_eq_ok, hpolicy, policy_congr hlink]
    exact ⟨fun capability hmem => (hlink capability).2 (h.required capability hmem),
      not_withdrawn_self _⟩
  refine ⟨hsame none fun capability => ?_, fun serverLink' => ⟨hsame (some serverLink'), ?_⟩⟩
  · rw [P2pBoundWorkflow.recheckLink, h.capabilities]
    exact mem_jsSort
  · intro hfails
    rw [ne_eq, recheckDangerousRoundOrFail_eq_ok, not_and_or, not_not, hpolicy] at hfails
    refine hfails.imp_left fun hmissing => ?_
    rw [not_forall₂] at hmissing
    obtain ⟨capability, hmem, hgone⟩ := hmissing
    exact ⟨capability, hmem, h.required capability hmem, hgone⟩

/-- A run on an unchanged daemon gets through its rounds exactly when the launch brings no
executables or none of them is dangerous. -/
theorem BoundBy.rounds_pass_iff (h : BoundBy serverLink envelope bound) (runId : String)
    (rounds : List P2pResolvedRound) :
    (∀ round ∈ rounds, beforeRound bound runId round serverLink = .ok ()) ↔
      envelope.executables = [] ∨ ∀ round ∈ rounds, isRoundDangerous round = false := by
  constructor
  · intro hpass
    by_contra! hnot
    obtain ⟨hne, round, hmem, hdangerous⟩ := hnot
    have hok := hpass round hmem
    rw [beforeRound, if_pos (by simpa using hdangerous)] at hok
    exact h.recheck_fails hne runId round serverLink hok
  · intro hsafe round hmem
    rw [beforeRound]
    split
    · rename_i hdangerous
      have hnil := hsafe.resolve_right fun hnone => by simp [hnone round hmem] at hdangerous
      exact ((h.rechecksFairly hnil runId round).2 serverLink).1 fun capability => .rfl
    · rfl

instance : Nonempty P2pResolvedRound :=
  ⟨normalizeAdvancedRound
    { id := "", title := "", preset := .custom, executionMode := .singleMain
      permissionScope := .analysisOnly }⟩

/-- **Which launches can run**: an unchanged daemon passes its own recheck exactly when the launch
brings no executables. -/
theorem rechecksFairly_iff (localeCompare : Collation) (numbers : Json.NumberText)
    (serverLink : ServerLink) (runId : String) (activeAdvancedRuns : ℕ)
    (envelope : P2pWorkflowLaunchEnvelope) (bound : P2pBoundWorkflow)
    (diagnostics : List P2pWorkflowDiagnostic)
    (h : prepareAdvancedWorkflowLaunch localeCompare numbers serverLink runId activeAdvancedRuns
      envelope = .ok (bound, diagnostics)) :
    RechecksFairly bound serverLink ↔ envelope.allowedExecutables.getD [] = [] := by
  have hbound := boundBy_of_prepare h
  rw [← executables_eq_nil]
  refine ⟨fun hfair => ?_, hbound.rechecksFairly⟩
  by_contra hne
  obtain ⟨round⟩ : Nonempty P2pResolvedRound := inferInstance
  exact hbound.recheck_fails hne runId round serverLink
    (((hfair runId round).2 serverLink).1 fun capability => .rfl)

/-! ## Two launches -/

theorem exists_ok_of_isOk {ε α : Type} {result : Except ε α} (h : result.isOk = true) :
    ∃ value, result = .ok value := by
  cases result with
  | error e => cases h
  | ok value => exact ⟨value, rfl⟩

/-- A plan, and its implementation. -/
def implemented : P2pWorkflowDraft :=
  { id := "implemented"
    nodes :=
      [{ id := "plan", nodeKind := .llm, preset := .plan },
        { id := "build", nodeKind := .llm, preset := .implementation
          permissionScope := some .implementation }]
    edges := [{ id := "on", fromNodeId := "plan", toNodeId := "build", edgeKind := .default }]
    rootNodeId := some "plan" }

def implementingLink : ServerLink :=
  { getP2pWorkflowCapabilities :=
      some [p2pWorkflowCapabilityV1, p2pWorkflowImplementationCapabilityV1] }

theorem rechecksFairly_iff_implemented : ∃ bound diagnostics,
    prepareAdvancedWorkflowLaunch (fun _ _ => 0) Json.wholeNumbers implementingLink "run" 1
      { advancedDraft := implemented } = .ok (bound, diagnostics) ∧
    RechecksFairly bound implementingLink := by
  have hbinds : (prepareAdvancedWorkflowLaunch (fun _ _ => 0) Json.wholeNumbers implementingLink
      "run" 1 { advancedDraft := implemented }).isOk = true := by decide +kernel
  obtain ⟨⟨bound, diagnostics⟩, h⟩ := exists_ok_of_isOk hbinds
  exact ⟨bound, diagnostics, h, (rechecksFairly_iff _ _ _ _ _ _ _ _ h).2 rfl⟩

def scriptNode : P2pWorkflowNodeDraft :=
  { id := "test", nodeKind := .script, preset := .custom
    script := some { commandKind := .argv, argv := ["node", "test.js"] } }

/-- A discussion and a script. -/
def scripted : P2pWorkflowDraft :=
  { id := "scripted"
    nodes := [{ id := "discuss", nodeKind := .llm, preset := .discuss }, scriptNode]
    edges := [{ id := "on", fromNodeId := "discuss", toNodeId := "test", edgeKind := .default }]
    rootNodeId := some "discuss" }

def scriptingLink : ServerLink :=
  { getP2pWorkflowCapabilities :=
      some [p2pWorkflowCapabilityV1, p2pWorkflowScriptArgvCapabilityV1] }

/-- The script of a launch is allowed when it is bound, and never when it would run. -/
theorem not_rechecksFairly : ¬∀ (localeCompare : Collation) (numbers : Json.NumberText)
    (serverLink : ServerLink) (runId : String) (activeAdvancedRuns : ℕ)
    (envelope : P2pWorkflowLaunchEnvelope) (bound : P2pBoundWorkflow)
    (diagnostics : List P2pWorkflowDiagnostic),
    prepareAdvancedWorkflowLaunch localeCompare numbers serverLink runId activeAdvancedRuns
      envelope = .ok (bound, diagnostics) →
    RechecksFairly bound serverLink := by
  intro hall
  let envelope : P2pWorkflowLaunchEnvelope :=
    { advancedDraft := scripted, allowedExecutables := some ["node"] }
  have hbinds : (prepareAdvancedWorkflowLaunch (fun _ _ => 0) Json.wholeNumbers scriptingLink
      "run" 0 envelope).isOk = true := by decide +kernel
  obtain ⟨⟨bound, diagnostics⟩, h⟩ := exists_ok_of_isOk hbinds
  have hfair := hall _ _ _ _ _ _ _ _ h
  let round := normalizeAdvancedRound
    (mapCompiledNodeToLegacyRound (compileNode scriptNode scripted.edges) bound.compiled)
  exact (boundBy_of_prepare h).recheck_fails (by decide) "run" round scriptingLink
    (((hfair "run" round).2 scriptingLink).1 fun capability => .rfl)

end Imcodes.Workflow
