import Imcodes.FilePreview.Coordinator

/-!
# One answer for every request, in time

A request that was submitted is in the records of the fan-out dispatcher, or its response is in the
queue, or it was sent, and only one of these (`Booked`).  Every step keeps this as long as no
request id is submitted twice.
-/

namespace Imcodes.FilePreview

open Machine

/-- A response is a preview of a file. -/
def Response.isResult : Response → Bool
  | .result .. => true
  | .error .. => false

/-- An operation sends a message that is already built. -/
def SendOperation.message? : SendOperation → Option Message
  | .message built => some built
  | .terminal .. => none

namespace PreviewReadCoordinator

/-- A message is for a request. -/
def isFor (requestId : String) (message : Message) : Bool := message.response.requestId = requestId

/-- How often a request is in the records, in the queue of the messages and in what was sent. -/
def count (coordinator : PreviewReadCoordinator) (requestId : String) : ℕ :=
  (if (coordinator.records.get? requestId).isSome then 1 else 0) +
    (coordinator.queue.filterMap SendOperation.message?).countP (isFor requestId) +
    coordinator.sent.countP (isFor requestId)

/-- What a response is built of belongs to a request, and to its deadline. -/
def IsOf (coordinator : PreviewReadCoordinator) (requestId : String) : Build → Prop
  | .cached request _ => request.requestId = requestId ∧
      ∀ record, coordinator.records.get? requestId = some record →
        record.deadlineAt = request.deadlineAt
  | .snapshot requestId' _ => requestId' = requestId
  | .error requestId' _ _ _ => requestId' = requestId

/-- The requests are accounted for. -/
structure Booked (coordinator : PreviewReadCoordinator) : Prop where
  /-- A request is kept under its id. -/
  requestId : ∀ id request, coordinator.externalRequests.get? id = some request →
    request.requestId = id
  /-- It has a record in the fan-out dispatcher, with its deadline. -/
  record : ∀ id request, coordinator.externalRequests.get? id = some request →
    ∃ record, coordinator.records.get? id = some record ∧ record.deadlineAt = request.deadlineAt
  /-- A record has its timer. -/
  armed : ∀ id record, coordinator.records.get? id = some record → id ∈ coordinator.armed
  /-- Every request that was submitted is in one place. -/
  once : ∀ id, coordinator.count id = if id ∈ coordinator.submitted then 1 else 0
  accepted : ∀ id ∈ coordinator.accepted, id ∈ coordinator.submitted
  build : ∀ id build, .terminal id build ∈ coordinator.queue →
    id ∈ coordinator.submitted ∧ coordinator.IsOf id build
  /-- Only errors are built before their turn. -/
  isError : ∀ message, .message message ∈ coordinator.queue → message.response.isResult = false
  inTime : ∀ message ∈ coordinator.sent, ∀ request snapshot fromCache,
    message.response = .result request snapshot fromCache → message.builtAt < request.deadlineAt

variable {coordinator : PreviewReadCoordinator} {requestId : String} {build : Build}
  {response : Response} {record : FanOutRecord} {message : Message}

theorem submitted_of_record (h : Booked coordinator)
    (hrec : coordinator.records.get? requestId = some record) :
    requestId ∈ coordinator.submitted := by
  by_contra hnot
  have honce := h.once requestId
  rw [if_neg hnot, count, hrec] at honce
  simp at honce

theorem count_enqueue_terminal {id : String} :
    (coordinator.enqueue (.terminal requestId build)).count id = coordinator.count id := by
  rw [count, count, PreviewReadCoordinator.enqueue, List.filterMap_append]
  have hnone : [SendOperation.terminal requestId build].filterMap SendOperation.message? = [] := rfl
  dsimp only
  rw [hnone, List.append_nil]

theorem Booked.enqueue (h : Booked coordinator) (hsub : requestId ∈ coordinator.submitted)
    (hof : coordinator.IsOf requestId build) :
    Booked (coordinator.enqueue (.terminal requestId build)) := by
  refine { h with
    once := fun id => count_enqueue_terminal.trans (h.once id)
    build := fun id build' hmem => ?_
    isError := fun message hmem => ?_ }
  · rcases List.mem_append.1 hmem with hmem | hmem
    · exact h.build id build' hmem
    · obtain ⟨rfl, rfl⟩ := SendOperation.terminal.inj (List.mem_singleton.1 hmem)
      exact ⟨hsub, hof⟩
  · rcases List.mem_append.1 hmem with hmem | hmem
    · exact h.isError message hmem
    · cases List.mem_singleton.1 hmem

theorem Booked.sendTerminal (h : Booked coordinator) (hof : coordinator.IsOf requestId build) :
    Booked (coordinator.sendTerminal requestId build) := by
  unfold PreviewReadCoordinator.sendTerminal
  split
  · exact h
  · rename_i hrec
    exact h.enqueue (submitted_of_record h hrec) hof

/-- The record of a request goes, and one more message is for it. -/
theorem count_settle {id : String} (hrec : coordinator.records.get? requestId = some record)
    (hmessage : message.response.requestId = requestId) :
    ((coordinator.markTerminal requestId).enqueue (.message message)).count id =
      coordinator.count id ∧
    ((coordinator.markTerminal requestId).safeSend message).count id = coordinator.count id := by
  have hfor : isFor id message = decide (id = requestId) := by
    rw [isFor, hmessage]
    exact decide_eq_decide.2 eq_comm
  have hhad : (if (coordinator.records.get? id).isSome = true then 1 else 0) =
      (if ((coordinator.records.delete requestId).get? id).isSome = true then 1 else 0) +
        [message].countP (isFor id) := by
    rw [OrderedMap.get?_delete, List.countP_singleton, hfor]
    by_cases hid : id = requestId
    · subst hid
      simp [hrec]
    · simp [hid]
  constructor
  · rw [count, count, hhad, enqueue, markTerminal]
    dsimp only
    rw [List.filterMap_append, List.countP_append]
    have hone : [SendOperation.message message].filterMap SendOperation.message? = [message] := rfl
    rw [hone]
    omega
  · rw [count, count, hhad, safeSend, markTerminal]
    dsimp only
    rw [List.countP_append]
    omega

theorem isOf_markTerminal {id : String} (hof : coordinator.IsOf id build) :
    (coordinator.markTerminal requestId).IsOf id build := by
  cases build with
  | cached request snapshot =>
    refine ⟨hof.1, fun record hrec => hof.2 record ?_⟩
    rw [markTerminal, OrderedMap.get?_delete] at hrec
    split at hrec
    · cases hrec
    · exact hrec
  | snapshot requestId' snapshot => exact hof
  | error requestId' rawPath resolvedPath error => exact hof

/-- What the record of a request that goes leaves. -/
theorem Booked.markTerminal (h : Booked coordinator) :
    (∀ id request, (coordinator.markTerminal requestId).externalRequests.get? id = some request →
      request.requestId = id) ∧
    (∀ id request, (coordinator.markTerminal requestId).externalRequests.get? id = some request →
      ∃ record, (coordinator.markTerminal requestId).records.get? id = some record ∧
        record.deadlineAt = request.deadlineAt) ∧
    ∀ id record, (coordinator.markTerminal requestId).records.get? id = some record →
      id ∈ (coordinator.markTerminal requestId).armed := by
  unfold PreviewReadCoordinator.markTerminal
  dsimp only
  simp only [OrderedMap.get?_delete]
  refine ⟨fun id request hreq => ?_, fun id request hreq => ?_, fun id record hrec => ?_⟩
  · split at hreq
    · cases hreq
    · exact h.requestId id request hreq
  · split at hreq
    · cases hreq
    · rename_i hid
      rw [if_neg hid]
      exact h.record id request hreq
  · split at hrec
    · cases hrec
    · rename_i hid
      exact List.mem_filter.2 ⟨h.armed id record hrec, by simpa using hid⟩

/-- The record of a request goes, and an error for it is put in the queue. -/
theorem Booked.settle (h : Booked coordinator)
    (hrec : coordinator.records.get? requestId = some record)
    (hmessage : message.response.requestId = requestId)
    (herror : message.response.isResult = false) :
    Booked ((coordinator.markTerminal requestId).enqueue (.message message)) := by
  obtain ⟨hrequestId, hrecord, harmed⟩ := @Booked.markTerminal _ requestId h
  refine ⟨hrequestId, hrecord, harmed, fun id => ?_, h.accepted, fun id build hmem => ?_,
    fun message' hmem => ?_, h.inTime⟩
  · exact (count_settle hrec hmessage).1.trans (h.once id)
  · rcases List.mem_append.1 hmem with hmem | hmem
    · exact ⟨(h.build id build hmem).1, isOf_markTerminal (h.build id build hmem).2⟩
    · cases List.mem_singleton.1 hmem
  · rcases List.mem_append.1 hmem with hmem | hmem
    · exact h.isError message' hmem
    · rw [SendOperation.message.inj (List.mem_singleton.1 hmem)]
      exact herror

/-- The record of a request goes, and its response is sent. -/
theorem Booked.settleNow (h : Booked coordinator)
    (hrec : coordinator.records.get? requestId = some record)
    (hmessage : message.response.requestId = requestId)
    (hinTime : ∀ request snapshot fromCache, message.response = .result request snapshot fromCache →
      message.builtAt < request.deadlineAt) :
    Booked ((coordinator.markTerminal requestId).safeSend message) := by
  obtain ⟨hrequestId, hrecord, harmed⟩ := @Booked.markTerminal _ requestId h
  refine ⟨hrequestId, hrecord, harmed, fun id => ?_, h.accepted, fun id build hmem => ?_,
    h.isError, fun message' hmem => ?_⟩
  · exact (count_settle hrec hmessage).2.trans (h.once id)
  · exact ⟨(h.build id build hmem).1, isOf_markTerminal (h.build id build hmem).2⟩
  · rcases List.mem_append.1 hmem with hmem | hmem
    · exact h.inTime message' hmem
    · rw [List.mem_singleton.1 hmem]
      exact hinTime

theorem Booked.forceTerminal (h : Booked coordinator) (hmessage : response.requestId = requestId)
    (herror : response.isResult = false) :
    Booked (coordinator.forceTerminal requestId response) := by
  unfold PreviewReadCoordinator.forceTerminal
  split
  · exact h
  · rename_i record hrec
    exact h.settle hrec hmessage herror

theorem Booked.timeoutRecord (h : Booked coordinator) :
    Booked (coordinator.timeoutRecord requestId) := by
  unfold PreviewReadCoordinator.timeoutRecord
  split
  · exact h
  · rename_i record hrec
    exact h.settle hrec rfl rfl
/-! ## The steps, as the books see them -/

/-- An operation whose turn it is leaves the queue. -/
theorem Booked.tail {queue : List SendOperation} (h : Booked coordinator)
    (hqueue : coordinator.queue = .terminal requestId build :: queue) :
    Booked { coordinator with queue } := by
  refine { h with
    once := fun id => ?_
    build := fun id build' hmem => ?_
    isError := fun message hmem => ?_ }
  · rw [← h.once id, count, count, hqueue]
    rfl
  · exact h.build id build' (hqueue ▸ List.mem_cons_of_mem _ hmem)
  · exact h.isError message (hqueue ▸ List.mem_cons_of_mem _ hmem)

theorem Booked.performMessage {queue : List SendOperation} (h : Booked coordinator)
    (hqueue : coordinator.queue = .message message :: queue) :
    Booked (safeSend { coordinator with queue } message) := by
  refine { h with
    once := fun id => ?_
    build := fun id build hmem => ?_
    isError := fun message' hmem => ?_
    inTime := fun message' hmem request snapshot fromCache hresult => ?_ }
  · refine Eq.trans ?_ (h.once id)
    rw [count, count, hqueue, safeSend]
    have hone : (SendOperation.message message :: queue).filterMap SendOperation.message? =
        message :: queue.filterMap SendOperation.message? := rfl
    dsimp only
    rw [hone, List.countP_append, List.countP_singleton, List.countP_cons]
    omega
  · exact h.build id build (hqueue ▸ List.mem_cons_of_mem _ hmem)
  · exact h.isError message' (hqueue ▸ List.mem_cons_of_mem _ hmem)
  · rcases List.mem_append.1 hmem with hmem | hmem
    · exact h.inTime message' hmem request snapshot fromCache hresult
    · have herror := h.isError message (hqueue ▸ List.mem_cons_self)
      rw [← List.mem_singleton.1 hmem, hresult] at herror
      exact absurd herror nofun

/-- What is built for a request is for it, and a preview of it has its deadline. -/
theorem Booked.buildMessage (h : Booked coordinator) (hof : coordinator.IsOf requestId build)
    (hrec : coordinator.records.get? requestId = some record) :
    (coordinator.buildMessage build).requestId = requestId ∧
      ∀ request snapshot fromCache,
        coordinator.buildMessage build = .result request snapshot fromCache →
        record.deadlineAt = request.deadlineAt := by
  cases build with
  | cached request snapshot =>
    refine ⟨hof.1, fun request' snapshot' fromCache heq => ?_⟩
    rw [← (Response.result.inj heq).1]
    exact hof.2 record hrec
  | snapshot requestId' snapshot =>
    have hid : requestId' = requestId := hof
    subst hid
    unfold PreviewReadCoordinator.buildMessage
    dsimp only
    split
    · exact ⟨rfl, nofun⟩
    · rename_i request hreq
      refine ⟨h.requestId _ request hreq, fun request' snapshot' fromCache heq => ?_⟩
      rw [← (Response.result.inj heq).1]
      obtain ⟨record', hrec', hdeadline⟩ := h.record _ request hreq
      rw [hrec] at hrec'
      rw [Option.some.inj hrec']
      exact hdeadline
  | error requestId' rawPath resolvedPath error => exact ⟨hof, nofun⟩

theorem Booked.perform (h : Booked coordinator) (hof : coordinator.IsOf requestId build) :
    Booked (coordinator.perform (.terminal requestId build)) := by
  unfold PreviewReadCoordinator.perform
  dsimp only
  split
  · exact h
  · rename_i current hrec
    split
    · exact h.settleNow hrec rfl nofun
    · rename_i htime
      obtain ⟨hid, hdeadline⟩ := h.buildMessage hof hrec
      refine h.settleNow hrec hid fun request snapshot fromCache heq => ?_
      rw [← hdeadline request snapshot fromCache heq]
      exact not_le.1 htime

theorem Booked.sendNext (h : Booked coordinator) : Booked (coordinator.handle .sendNext) := by
  dsimp only [handle]
  split
  · exact h
  · split
    · exact h
    · rename_i operation queue hqueue
      cases operation with
      | message message => exact h.performMessage hqueue
      | terminal id build =>
        exact (h.tail hqueue).perform (h.build id build (hqueue ▸ List.mem_cons_self)).2

theorem Booked.timerFires (h : Booked coordinator) :
    Booked (coordinator.handle (.timerFires requestId)) := by
  dsimp only [handle]
  split
  · unfold PreviewReadCoordinator.timeoutRecord
    dsimp only
    split
    · rename_i hnone
      refine { h with armed := fun id record hrec => ?_ }
      refine List.mem_filter.2 ⟨h.armed id record hrec, ?_⟩
      simp only [ne_eq, decide_eq_true_eq]
      rintro rfl
      rw [hnone] at hrec
      cases hrec
    · rename_i record hrec
      have hmark : ∀ armed : List String, armed = coordinator.armed.filter (· ≠ requestId) →
          PreviewReadCoordinator.markTerminal { coordinator with armed } requestId =
            coordinator.markTerminal requestId := by
        rintro armed rfl
        unfold PreviewReadCoordinator.markTerminal
        dsimp only
        rw [List.filter_filter]
        simp
      rw [hmark _ rfl]
      exact h.settle hrec rfl rfl
  · exact h
theorem Booked.finishJobWithError (h : Booked coordinator) (requestIds : List String)
    (error : String) (resolvedPath : Option String) :
    Booked (coordinator.finishJobWithError requestIds error resolvedPath) := by
  unfold PreviewReadCoordinator.finishJobWithError
  induction requestIds generalizing coordinator with
  | nil => exact h
  | cons id requestIds ih =>
    rw [List.foldl_cons]
    refine ih ?_
    split
    · exact h
    · exact h.sendTerminal rfl

theorem Booked.attachToSnapshot {request : ExternalRequestRecord} (h : Booked coordinator)
    (hreq : coordinator.externalRequests.get? request.requestId = some request)
    (preflight : PreviewReadPreflightSuccess) :
    Booked (coordinator.attachToSnapshot request preflight) := by
  unfold PreviewReadCoordinator.attachToSnapshot
  dsimp only
  split
  · refine Booked.sendTerminal { h with } ⟨rfl, fun record hrec => ?_⟩
    obtain ⟨record', hrec', hdeadline⟩ := h.record _ request hreq
    rw [Option.some.inj (hrec.symm.trans hrec')]
    exact hdeadline
  · split
    · split
      · exact Booked.forceTerminal { h with } rfl rfl
      · exact { h with }
    · unfold PreviewReadCoordinator.startSnapshot
      split
      · exact { h with }
      · exact { h with }

theorem Booked.afterPreflight (h : Booked coordinator) (preflight : PreviewReadPreflightSuccess) :
    Booked (PreviewReadCoordinator.afterPreflight preflight coordinator requestId) := by
  unfold PreviewReadCoordinator.afterPreflight
  split
  · exact h
  · rename_i request hreq
    refine h.attachToSnapshot ?_ preflight
    rw [h.requestId _ request hreq]
    exact hreq

theorem Booked.foldl_afterPreflight (h : Booked coordinator) (requestIds : List String)
    (preflight : PreviewReadPreflightSuccess) :
    Booked (requestIds.foldl (PreviewReadCoordinator.afterPreflight preflight) coordinator) := by
  induction requestIds generalizing coordinator with
  | nil => exact h
  | cons id requestIds ih => exact ih (h.afterPreflight preflight)

theorem Booked.recordDuration (h : Booked coordinator) (startedAt : ℚ) :
    Booked (coordinator.recordDuration startedAt) := { h with }

theorem Booked.finishPreflight (h : Booked coordinator) (job : PreviewReadPreflightJobRecord)
    (outcome : PreflightOutcome) : Booked (coordinator.finishPreflight job outcome) := by
  cases outcome with
  | rejected reason => exact h.finishJobWithError _ _ _
  | error error => exact (h.recordDuration _).finishJobWithError _ _ _
  | otherPhase => exact (h.recordDuration _).finishJobWithError _ _ _
  | preflight preflight => exact (h.recordDuration _).foldl_afterPreflight _ _

theorem Booked.foldl_sendTerminal (h : Booked coordinator) (requestIds : List String)
    (snapshot : PreviewReadSnapshotSuccess) :
    Booked (requestIds.foldl (fun coordinator requestId =>
      coordinator.sendTerminal requestId (.snapshot requestId snapshot)) coordinator) := by
  induction requestIds generalizing coordinator with
  | nil => exact h
  | cons id requestIds ih => exact ih (h.sendTerminal rfl)

theorem Booked.finishSnapshot (h : Booked coordinator) (job : PreviewReadSnapshotJobRecord)
    (outcome : SnapshotOutcome) : Booked (coordinator.finishSnapshot job outcome) := by
  cases outcome with
  | rejected reason => exact h.finishJobWithError _ _ _
  | error error => exact (h.recordDuration _).finishJobWithError _ _ _
  | otherPhase => exact (h.recordDuration _).finishJobWithError _ _ _
  | snapshot endSignature payload =>
    unfold PreviewReadCoordinator.finishSnapshot
    dsimp only
    split
    · exact (h.recordDuration _).finishJobWithError _ _ _
    · split
      · exact h.recordDuration _
      · refine Booked.foldl_sendTerminal ?_ _ _
        exact { h.recordDuration job.startedAt with }

/-- A request that no one submitted before is in no place. -/
theorem Booked.count_eq_zero (h : Booked coordinator) (hfresh : requestId ∉ coordinator.submitted) :
    coordinator.count requestId = 0 := by
  rw [h.once, if_neg hfresh]

theorem Booked.get?_records (h : Booked coordinator) (hfresh : requestId ∉ coordinator.submitted) :
    coordinator.records.get? requestId = none := by
  cases hrec : coordinator.records.get? requestId with
  | none => rfl
  | some record => exact absurd (submitted_of_record h hrec) hfresh

/-- A request that no one submitted before is answered at once. -/
theorem Booked.sendDetached (h : Booked coordinator) (hfresh : requestId ∉ coordinator.submitted)
    (hresponse : response.requestId = requestId) (herror : response.isResult = false) :
    Booked (PreviewReadCoordinator.sendDetached
      { coordinator with submitted := coordinator.submitted ++ [requestId] } response) := by
  refine { h with
    once := fun id => ?_
    accepted := fun id hid => List.mem_append_left _ (h.accepted id hid)
    build := fun id build hmem => ?_
    isError := fun message hmem => ?_ }
  · have hone : [SendOperation.message ⟨response, coordinator.now⟩].filterMap
        SendOperation.message? = [⟨response, coordinator.now⟩] := rfl
    have hcount := h.once id
    rw [count] at hcount
    rw [count, PreviewReadCoordinator.sendDetached, PreviewReadCoordinator.enqueue]
    dsimp only
    rw [List.filterMap_append, List.countP_append, hone, List.countP_singleton, isFor, hresponse]
    by_cases hid : requestId = id
    · subst hid
      rw [if_neg hfresh] at hcount
      rw [if_pos (decide_eq_true rfl), if_pos (List.mem_append_right _ List.mem_cons_self)]
      omega
    · have hdec : decide (requestId = id) = false := decide_eq_false hid
      simp only [hdec, Bool.false_eq_true, if_false, List.mem_append, List.mem_singleton,
        Ne.symm hid, or_false]
      omega
  · rcases List.mem_append.1 hmem with hmem | hmem
    · exact ⟨List.mem_append_left _ (h.build id build hmem).1, (h.build id build hmem).2⟩
    · cases List.mem_singleton.1 hmem
  · rcases List.mem_append.1 hmem with hmem | hmem
    · exact h.isError message hmem
    · rw [SendOperation.message.inj (List.mem_singleton.1 hmem)]
      exact herror

/-- A request that no one submitted before gets a record. -/
theorem Booked.open (h : Booked coordinator) (hfresh : requestId ∉ coordinator.submitted)
    {request : ExternalRequestRecord} (hid : request.requestId = requestId) :
    Booked { coordinator with
      submitted := coordinator.submitted ++ [requestId]
      externalRequests := coordinator.externalRequests.set requestId request
      accepted := coordinator.accepted ++ [requestId]
      records := coordinator.records.set requestId ⟨request.rawPath, request.deadlineAt⟩
      armed := coordinator.armed ++ [requestId] } := by
  have hne : ∀ id build, SendOperation.terminal id build ∈ coordinator.queue →
      id ≠ requestId := by
    rintro id build hmem rfl
    exact hfresh (h.build id build hmem).1
  constructor
  case requestId =>
    intro id request' hget
    rw [OrderedMap.get?_set] at hget
    split at hget
    · rename_i heq
      rw [← Option.some.inj hget, hid, heq]
    · exact h.requestId id request' hget
  case record =>
    intro id request' hget
    dsimp only at hget ⊢
    rw [OrderedMap.get?_set] at hget ⊢
    split at hget
    · rename_i heq
      rw [if_pos heq, ← Option.some.inj hget]
      exact ⟨_, rfl, rfl⟩
    · rename_i heq
      rw [if_neg heq]
      exact h.record id request' hget
  case armed =>
    intro id record hget
    dsimp only at hget
    rw [OrderedMap.get?_set] at hget
    split at hget
    · rename_i heq
      exact List.mem_append_right _ (List.mem_singleton.2 heq)
    · exact List.mem_append_left _ (h.armed id record hget)
  case once =>
    intro id
    have hcount := h.once id
    rw [count] at hcount ⊢
    dsimp only
    rw [OrderedMap.get?_set]
    by_cases heq : id = requestId
    · subst heq
      rw [if_neg hfresh, h.get?_records hfresh] at hcount
      rw [if_pos rfl, if_pos (List.mem_append_right _ List.mem_cons_self)]
      simp only [Option.isSome_none, Option.isSome_some, Bool.false_eq_true, if_false,
        if_true] at hcount ⊢
      omega
    · rw [if_neg heq]
      simp only [List.mem_append, List.mem_singleton, heq, or_false]
      exact hcount
  case accepted =>
    intro id hmem
    rcases List.mem_append.1 hmem with hmem | hmem
    · exact List.mem_append_left _ (h.accepted id hmem)
    · exact List.mem_append_right _ hmem
  case build =>
    intro id build hmem
    refine ⟨List.mem_append_left _ (h.build id build hmem).1, ?_⟩
    have hof := (h.build id build hmem).2
    cases build with
    | cached request' snapshot =>
      refine ⟨hof.1, fun record hget => hof.2 record ?_⟩
      dsimp only at hget
      rwa [OrderedMap.get?_set, if_neg (hne id _ hmem)] at hget
    | snapshot id' snapshot => exact hof
    | error id' rawPath resolvedPath error => exact hof
  case isError => exact h.isError
  case inTime => exact h.inTime

theorem Booked.attachToPreflight (h : Booked coordinator) (request : ExternalRequestRecord) :
    Booked (coordinator.attachToPreflight request) := by
  unfold PreviewReadCoordinator.attachToPreflight
  split
  · split
    · exact h.forceTerminal rfl rfl
    · exact { h with }
  · split
    · exact { h with }
    · exact h

/-- What a request that no one submitted before is accepted with. -/
theorem accept_eq {path : String} (hnone : coordinator.records.get? requestId = none) :
    coordinator.accept requestId path =
      PreviewReadCoordinator.attachToPreflight { coordinator with
        externalRequests := coordinator.externalRequests.set requestId
          ⟨requestId, path, coordinator.now, coordinator.now + coordinator.admission.deadlineMs,
            coordinator.steps⟩
        accepted := coordinator.accepted ++ [requestId]
        records := coordinator.records.set requestId
          ⟨path, coordinator.now + coordinator.admission.deadlineMs⟩
        armed := coordinator.armed ++ [requestId] }
        ⟨requestId, path, coordinator.now, coordinator.now + coordinator.admission.deadlineMs,
          coordinator.steps⟩ := by
  unfold accept register
  dsimp only
  rw [hnone]

/-- An event submits no request id for a second time. -/
def IsFresh (coordinator : PreviewReadCoordinator) (event : CoordinatorEvent) : Prop :=
  ∀ requestId, event.requestId? = some requestId → requestId ∉ coordinator.submitted

theorem Booked.submit (h : Booked coordinator) {id path : Option String} {queueDepth : ℚ}
    (hfresh : coordinator.IsFresh (.submit id path queueDepth)) :
    Booked (coordinator.submit id path queueDepth).1 := by
  unfold PreviewReadCoordinator.submit
  split
  · exact h
  · rename_i requestId
    split
    · exact h
    · rename_i hne
      have hnew : requestId ∉ coordinator.submitted := hfresh requestId (if_neg hne)
      dsimp only
      split
      · exact h.sendDetached hnew rfl rfl
      · split
        · exact h.sendDetached hnew rfl rfl
        · have hrecords : PreviewReadCoordinator.records { coordinator with
              submitted := coordinator.submitted ++ [requestId] } = coordinator.records := rfl
          rw [accept_eq (hrecords ▸ h.get?_records hnew)]
          exact (h.open hnew rfl).attachToPreflight _

theorem Booked.step (h : Booked coordinator) {event : CoordinatorEvent}
    (hfresh : coordinator.IsFresh event) : Booked (coordinator.step event) := by
  suffices hhandle : Booked (coordinator.handle event) from { hhandle with }
  cases event with
  | clock now => exact { h with }
  | submit id path queueDepth => exact h.submit hfresh
  | preflightEnds key outcome =>
    dsimp only [handle]
    split
    · exact h
    · exact { h.finishPreflight _ outcome with }
  | snapshotEnds key outcome =>
    dsimp only [handle]
    split
    · exact h
    · exact { h.finishSnapshot _ outcome with }
  | timerFires id => exact h.timerFires
  | sendNext => exact h.sendNext
  | sendEnds => exact { h with }
  | invalidatePath realPath => exact { h with }

end PreviewReadCoordinator

end Imcodes.FilePreview
