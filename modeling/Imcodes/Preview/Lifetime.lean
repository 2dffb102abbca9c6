import Imcodes.Preview.Registry
import Imcodes.Preview.Whole

/-!
# No preview outlives its hard lifetime

* `Owned` — while only sweeps remove the record of a preview that has relays, whoever has a relay
  has a record; `Owned.step` — each such operation keeps this.
* `withinLifetime_run` — in every such run a relay ends with the lifetime of its preview.
-/

namespace Imcodes.Preview

open Machine Streams

/-! ## What happens to a request -/

namespace Request

/-- A request keeps its preview, and is not made pending again. -/
def Keeps (request request' : Request) : Prop :=
  request'.previewId = request.previewId ∧ (request'.isPending = true → request.isPending = true)

variable {limits : PreviewLimits} {request request' request'' : Request} {message : String}
variable {outcome : PreviewTerminalOutcome} {chunks : List Chunk} {fuel : ℕ}

theorem Keeps.refl (request : Request) : Keeps request request := ⟨rfl, id⟩

theorem Keeps.trans (h : Keeps request request') (h' : Keeps request' request'') :
    Keeps request request'' :=
  ⟨h'.1.trans h.1, fun hpending => h.2 (h'.2 hpending)⟩

/-- Only where a change ends counts. -/
theorem Keeps.of_same (h : Keeps request' request'')
    (hpreview : request'.previewId = request.previewId)
    (hpending : request'.isPending = request.isPending) : Keeps request request'' :=
  ⟨h.1.trans hpreview, fun h' => hpending ▸ h.2 h'⟩

theorem Keeps.sendAbort {reason : String} (h : Keeps request request') :
    Keeps request (request'.sendAbort reason) := ⟨h.1, h.2⟩

theorem keeps_reject : Keeps request (request.reject message) := by
  unfold reject
  split <;> exact ⟨rfl, id⟩

theorem keeps_fail {code : String} :
    Keeps request (request.failPreviewRequest code message outcome) := by
  unfold failPreviewRequest
  split
  · exact ⟨(@keeps_reject (request.terminate outcome) _).1, nofun⟩
  · exact .refl request

theorem keeps_abort {propagate : Bool} :
    Keeps request (request.abortPreviewRequest message propagate) := by
  unfold abortPreviewRequest
  dsimp only
  split
  · split <;> exact ⟨(@keeps_reject (request.terminate .aborted) _).1, nofun⟩
  · exact .refl request

theorem keeps_flushChunks : Keeps request (flushChunks fuel request) := by
  induction fuel generalizing request with
  | zero => exact .refl request
  | succ fuel ih =>
    unfold flushChunks
    split
    · exact .refl request
    · rename_i chunk chunks _
      dsimp only
      split
      · exact .refl request
      · split
        · exact ⟨rfl, id⟩
        · rename_i stream pulls _
          refine Keeps.trans ?_ ih
          split
          · exact ih.of_same rfl rfl
          · exact ⟨rfl, id⟩

theorem keeps_flush : Keeps request request.flushPreviewChunksToStream := by
  unfold flushPreviewChunksToStream
  split
  · exact keeps_flushChunks
  · exact .refl request

theorem keeps_pull {pulls : Bool} : Keeps request (request.pull pulls) := by
  unfold pull
  split
  · exact keeps_flush
  · exact .refl request

theorem keeps_drain : Keeps request (drain chunks request) := by
  induction chunks generalizing request with
  | nil => exact .refl request
  | cons chunk chunks ih =>
    unfold drain
    dsimp only
    split
    · exact ⟨rfl, id⟩
    · refine Keeps.trans ?_ ih
      exact keeps_pull.of_same rfl rfl

theorem keeps_complete : Keeps request (request.completePreviewRequest outcome) := by
  unfold completePreviewRequest
  split
  · dsimp only
    split
    · have hdrain := @keeps_drain (request.terminate outcome)
        (request.terminate outcome).pendingChunks
      split
      · exact hdrain.of_same rfl rfl
      · split
        · exact (hdrain.of_same rfl rfl).trans ⟨rfl, id⟩
        · exact ⟨hdrain.1, nofun⟩
    · exact ⟨rfl, nofun⟩
  · exact .refl request

theorem keeps_push {chunk : Chunk} :
    Keeps request (request.pushPreviewResponseChunk limits chunk) := by
  unfold pushPreviewResponseChunk
  split
  · split
    · exact keeps_fail
    · dsimp only
      split
      · exact keeps_fail.sendAbort.of_same rfl rfl
      · split
        · exact keeps_fail.sendAbort.of_same rfl rfl
        · refine @Keeps.trans _ (resetPreviewTimeout _ _) _ ?_ keeps_flush
          unfold resetPreviewTimeout
          split <;> exact ⟨rfl, id⟩
  · exact .refl request

theorem keeps_onTimeout : Keeps request request.onTimeout := by
  unfold onTimeout
  split
  · exact .refl request
  · exact keeps_fail.sendAbort.of_same rfl rfl
  · dsimp only
    split
    · exact keeps_fail.sendAbort.of_same rfl rfl
    · exact ⟨rfl, id⟩

theorem keeps_step {event : RequestEvent} : Keeps request (request.step limits event) := by
  cases event with
  | responseStart status statusText headers =>
    dsimp only [step, resolvePreviewStart, resetPreviewTimeout]
    split
    · split <;> exact ⟨rfl, id⟩
    · exact .refl request
  | responseBody chunk => exact keeps_push
  | responseEnd => exact keeps_complete
  | error code message terminalOutcome => exact keeps_fail
  | timeout => exact keeps_onTimeout
  | abort reason => exact keeps_abort
  | streamStarted => exact keeps_pull.of_same rfl rfl
  | pullSettled => exact keeps_pull.of_same rfl rfl
  | read =>
    dsimp only [step]
    split
    · exact keeps_pull.of_same rfl rfl
    · exact .refl request
  | cancel =>
    dsimp only [step]
    split
    · split
      · exact keeps_abort.of_same rfl rfl
      · exact ⟨rfl, id⟩
    · exact .refl request

end Request

/-! ## What happens to the relays -/

namespace Relays

variable {relays : Relays} {id : String}

/-- A relay of the preview is pending. -/
def HasPending (relays : Relays) (id : String) : Prop :=
  ∃ request ∈ relays.requests, request.isPending = true ∧ request.previewId = id

theorem isOpen_of_isPending {limits : PreviewLimits} {request : Request}
    (h : Sound limits request) (hpending : request.isPending = true) : request.isOpen = true := by
  rcases h with ⟨hlive, -⟩ | hended
  · exact hlive.isOpen
  · cases hended.isPending.symm.trans hpending

theorem abort_isPending {limits : PreviewLimits} {request : Request} {reason : String}
    {propagate : Bool} (h : Sound limits request) :
    (request.abortPreviewRequest reason propagate).isPending = false := by
  by_cases hopen : request.isOpen
  · unfold Request.abortPreviewRequest
    rw [if_pos hopen]
    dsimp only
    split <;> rfl
  · rw [Request.abortPreviewRequest, if_neg hopen]
    by_contra hpending
    exact hopen (isOpen_of_isPending h (Bool.not_eq_false _ ▸ hpending))

theorem HasPending.of_forward {id' : String} (h : (relays.step (.forward id')).HasPending id) :
    relays.HasPending id ∨ id = id' := by
  obtain ⟨request, hmem, hpending, hid⟩ := h
  dsimp only [step] at hmem
  split at hmem
  · rcases List.mem_append.1 hmem with hmem | hmem
    · exact Or.inl ⟨request, hmem, hpending, hid⟩
    · rw [List.mem_singleton.1 hmem] at hid
      exact Or.inr hid.symm
  · exact Or.inl ⟨request, hmem, hpending, hid⟩

theorem HasPending.of_request {i : ℕ} {event : RequestEvent}
    (h : (relays.step (.request i event)).HasPending id) : relays.HasPending id := by
  obtain ⟨request, hmem, hpending, hid⟩ := h
  rcases Modify.mem_modify hmem with hmem | ⟨old, hold, rfl⟩
  · exact ⟨request, hmem, hpending, hid⟩
  · have hkeeps := @Request.keeps_step relays.limits old event
    exact ⟨old, List.mem_of_getElem? hold, hkeeps.2 hpending, hkeeps.1 ▸ hid⟩

theorem HasPending.of_daemonLost {reason : String}
    (h : (relays.step (.daemonLost reason)).HasPending id) : relays.HasPending id := by
  obtain ⟨request, hmem, hpending, hid⟩ := h
  obtain ⟨old, hold, rfl⟩ := List.mem_map.1 hmem
  have hkeeps := @Request.keeps_abort old reason false
  exact ⟨old, hold, hkeeps.2 hpending, hkeeps.1 ▸ hid⟩

/-- What an eviction leaves are relays of other previews. -/
theorem HasPending.of_evicted {id' : String} (hsound : AllSound relays)
    (h : (relays.step (.previewEvicted id')).HasPending id) : relays.HasPending id ∧ id ≠ id' := by
  obtain ⟨request, hmem, hpending, hid⟩ := h
  obtain ⟨old, hold, rfl⟩ := List.mem_map.1 hmem
  by_cases hsame : old.previewId = id'
  · rw [if_pos hsame, abort_isPending (hsound old hold)] at hpending
    cases hpending
  · rw [if_neg hsame] at hpending hid
    exact ⟨⟨old, hold, hpending, hid⟩, fun heq => hsame (hid.trans heq)⟩

end Relays

/-! ## What happens to the registry -/

namespace LocalWebPreviewRegistry

variable {registry registry' : LocalWebPreviewRegistry} {now : ℕ} {id id' : String}
variable {preview : InternalPreviewRecord} {hasActiveRelay : String → Bool}

/-- The records are filed under their ids, and expire within the hard lifetime. -/
structure Filed (registry : LocalWebPreviewRegistry) : Prop where
  id_eq : ∀ id preview, registry.previews.get? id = some preview → preview.id = id
  expiresAt_le : ∀ id preview, registry.previews.get? id = some preview →
    preview.expiresAt ≤ preview.createdAt + registry.limits.previewMaxLifetimeHardMs

/-- What a lookup may do to a record: nothing, drop it when it has expired, or put its expiry
off. -/
def Looks (now : ℕ) (id : String) (registry registry' : LocalWebPreviewRegistry) : Prop :=
  registry'.limits = registry.limits ∧
    (registry'.previews = registry.previews ∨
      (∃ preview, registry.previews.get? id = some preview ∧ preview.expiresAt ≤ now ∧
        registry'.previews = registry.previews.delete id) ∨
      ∃ preview preview', registry.previews.get? id = some preview ∧
        registry'.previews = registry.previews.set id preview' ∧ preview'.id = id ∧
        preview'.createdAt = preview.createdAt ∧ preview.expiresAt ≤ preview'.expiresAt ∧
        preview'.expiresAt ≤ preview'.createdAt + registry.limits.previewMaxLifetimeHardMs)

theorem find_cases (registry : LocalWebPreviewRegistry) (now : ℕ) (id : String) :
    (registry.find now id).1 = none ∧ Looks now id registry (registry.find now id).2 ∨
      ∃ preview, registry.previews.get? id = some preview ∧
        registry.find now id = (some preview, registry) := by
  unfold find
  split
  · exact Or.inl ⟨rfl, rfl, Or.inl rfl⟩
  · rename_i preview hsome
    split
    · rename_i hexpired
      exact Or.inl ⟨rfl, rfl, Or.inr (Or.inl ⟨preview, hsome, hexpired, rfl⟩)⟩
    · exact Or.inr ⟨preview, hsome, rfl⟩

theorem looks_refl : Looks now id registry registry := ⟨rfl, Or.inl rfl⟩

/-- A record that is found is changed in its place. -/
theorem looks_put {preview' : InternalPreviewRecord} (h : registry.Filed)
    (hsome : registry.previews.get? id = some preview) (hid : preview'.id = preview.id)
    (hcreated : preview'.createdAt = preview.createdAt)
    (hle : preview.expiresAt ≤ preview'.expiresAt)
    (hcap : preview'.expiresAt ≤
      preview'.createdAt + registry.limits.previewMaxLifetimeHardMs) :
    Looks now id registry (registry.put preview') := by
  have hid' := hid.trans (h.id_eq id preview hsome)
  exact ⟨rfl, Or.inr (Or.inr ⟨preview, preview', hsome, by rw [put, hid'], hid', hcreated, hle,
    hcap⟩)⟩

theorem looks_peek : Looks now id registry (registry.peek now id).2 := by
  rcases find_cases registry now id with ⟨-, hlooks⟩ | ⟨preview, -, hfind⟩
  · exact hlooks
  · rw [peek, hfind]
    exact looks_refl

theorem looks_peekWithAccessToken {accessToken : String} :
    Looks now id registry (registry.peekWithAccessToken now id accessToken).2 := by
  unfold peekWithAccessToken
  rcases find_cases registry now id with ⟨hnone, hlooks⟩ | ⟨preview, -, hfind⟩
  · rw [← Prod.eta (registry.find now id), hnone]
    exact hlooks
  · rw [hfind]
    dsimp only
    split <;> exact looks_refl

theorem looks_get (h : registry.Filed) : Looks now id registry (registry.get now id).2 := by
  unfold get
  rcases find_cases registry now id with ⟨hnone, hlooks⟩ | ⟨preview, hsome, hfind⟩
  · rw [← Prod.eta (registry.find now id), hnone]
    exact hlooks
  · rw [hfind]
    exact looks_put h hsome rfl rfl (le_refl _) (h.expiresAt_le id preview hsome)

theorem looks_authorizeWithAccessToken (h : registry.Filed) {accessToken : String} :
    Looks now id registry (registry.authorizeWithAccessToken now id accessToken).2 := by
  unfold authorizeWithAccessToken
  rcases find_cases registry now id with ⟨hnone, hlooks⟩ | ⟨preview, hsome, hfind⟩
  · rw [← Prod.eta (registry.find now id), hnone]
    exact hlooks
  · rw [hfind]
    dsimp only
    split
    · exact looks_refl
    · exact looks_put h hsome rfl rfl (le_refl _) (h.expiresAt_le id preview hsome)

theorem looks_touch (h : registry.Filed) : Looks now id registry (registry.touch now id).2 := by
  unfold touch
  rcases find_cases registry now id with ⟨hnone, hlooks⟩ | ⟨preview, hsome, hfind⟩
  · rw [← Prod.eta (registry.find now id), hnone]
    exact hlooks
  · rw [hfind]
    exact looks_put h hsome rfl rfl
      (le_min (le_max_left _ _) (h.expiresAt_le id preview hsome)) (min_le_right _ _)

/-- What is evicted has expired, or has no relay. -/
theorem of_mem_evicted {l : List (String × InternalPreviewRecord)}
    (h : id ∈ evicted now hasActiveRelay l) :
    ∃ preview, (id, preview) ∈ l ∧ (preview.expiresAt ≤ now ∨ hasActiveRelay id = false) := by
  induction l with
  | nil => cases h
  | cons entry l ih =>
    obtain ⟨id', preview⟩ := entry
    have hlater : id ∈ evicted now hasActiveRelay l → ∃ p, (id, p) ∈ (id', preview) :: l ∧
        (p.expiresAt ≤ now ∨ hasActiveRelay id = false) := fun h =>
      let ⟨p, hp, hwhy⟩ := ih h
      ⟨p, List.mem_cons_of_mem _ hp, hwhy⟩
    unfold evicted at h
    split_ifs at h with hexpired hactive hidle
    · rcases List.mem_cons.1 h with rfl | h
      · exact ⟨preview, List.mem_cons_self, Or.inl hexpired⟩
      · exact hlater h
    · exact hlater h
    · exact hlater h
    · rcases List.mem_cons.1 h with rfl | h
      · exact ⟨preview, List.mem_cons_self, Or.inr (by simpa using hidle)⟩
      · exact hlater h

theorem mem_evicted_of_expired {l : List (String × InternalPreviewRecord)}
    (h : (id, preview) ∈ l) (hexpired : preview.expiresAt ≤ now) :
    id ∈ evicted now hasActiveRelay l := by
  induction l with
  | nil => cases h
  | cons entry l ih =>
    obtain ⟨id', preview'⟩ := entry
    unfold evicted
    rcases List.mem_cons.1 h with heq | h
    · obtain ⟨rfl, rfl⟩ := Prod.mk.inj heq
      rw [if_pos hexpired]
      exact List.mem_cons_self
    · split_ifs
      · exact List.mem_cons_of_mem _ (ih h)
      · exact ih h
      · exact ih h
      · exact List.mem_cons_of_mem _ (ih h)

end LocalWebPreviewRegistry
/-! ## Runs -/

namespace PreviewServer

/-- A relay of the preview is pending. -/
def HasPending (server : PreviewServer) (id : String) : Prop :=
  server.relays.HasPending id

/-- The preview has a record, which has expired. -/
def IsExpired (server : PreviewServer) (id : String) : Prop :=
  ∃ preview ∈ server.registry.previews.get? id, preview.expiresAt ≤ server.clock

/-- No relay outlives its preview: none is pending after a sweep at or after the end of its hard
lifetime, or after the sweep that follows the removal of its record; and a sweep spares what has
not expired and has a relay. -/
structure WithinLifetime (server : PreviewServer) : Prop where
  lifetime : ∀ id createdAt sweptAt ids, (id, createdAt) ∈ server.created →
    server.lastSweep = some (sweptAt, ids) →
    createdAt + server.registry.limits.previewMaxLifetimeHardMs ≤ sweptAt → ¬ server.HasPending id
  removed : ∀ sweptAt ids, server.lastSweep = some (sweptAt, ids) → ∀ id ∈ ids,
    ¬ server.HasPending id
  spared : ∀ id preview, server.registry.previews.get? id = some preview →
    server.clock < preview.expiresAt → server.HasPending id →
    server.cleanup.registry.previews.get? id = some preview

/-- Only sweeps remove the record of a preview that has relays: what another operation comes across
has not expired, or has no relay, and what is closed has none.  And the default lifetime is within
the hard one. -/
def LeavesNoRelay (server : PreviewServer) : PreviewEvent → Prop
  | .create .. => defaultTtlMs ≤ server.registry.limits.previewMaxLifetimeHardMs
  | .peek id | .peekWithAccessToken id _ | .get id | .authorizeWithAccessToken id _ | .touch id
  | .forward id => server.IsExpired id → ¬ server.HasPending id
  | .close id userId => (∃ preview ∈ server.registry.previews.get? id, preview.userId = userId) →
      ¬ server.HasPending id
  | .relay i (.responseBody chunk) => ∀ request ∈ server.relays.requests[i]?,
      (request.pushPreviewResponseChunk server.relays.limits chunk).isOpen →
        ¬ server.IsExpired request.previewId
  | _ => True

instance (server : PreviewServer) (id : String) : Decidable (server.HasPending id) :=
  inferInstanceAs (Decidable (∃ request ∈ server.relays.requests,
    request.isPending = true ∧ request.previewId = id))

instance (server : PreviewServer) (id : String) : Decidable (server.IsExpired id) :=
  inferInstanceAs (Decidable (∃ preview ∈ server.registry.previews.get? id, _))

instance LeavesNoRelay.decidable (server : PreviewServer) :
    ∀ event, Decidable (server.LeavesNoRelay event)
  | .create .. => inferInstanceAs (Decidable (defaultTtlMs ≤ _))
  | .peek id | .peekWithAccessToken id _ | .get id | .authorizeWithAccessToken id _ | .touch id
  | .forward id => inferInstanceAs (Decidable (server.IsExpired id → ¬ server.HasPending id))
  | .close id userId => inferInstanceAs (Decidable
      ((∃ preview ∈ server.registry.previews.get? id, preview.userId = userId) →
        ¬ server.HasPending id))
  | .relay i (.responseBody chunk) => inferInstanceAs (Decidable
      (∀ request ∈ server.relays.requests[i]?,
        (request.pushPreviewResponseChunk server.relays.limits chunk).isOpen →
          ¬ server.IsExpired request.previewId))
  | .relay _ (.responseStart ..) | .relay _ .responseEnd | .relay _ (.error ..)
  | .relay _ .timeout | .relay _ (.abort _) | .relay _ .streamStarted | .relay _ .pullSettled
  | .relay _ .read | .relay _ .cancel | .tick _ | .cleanup | .daemonLost _ | .tunnelOpened _
  | .tunnelClosed _ => inferInstanceAs (Decidable True)

/-- What such a run keeps: whoever has a relay has a record. -/
structure Owned (server : PreviewServer) : Prop where
  sound : AllSound server.relays
  filed : server.registry.Filed
  owned : ∀ id, server.HasPending id → (server.registry.previews.get? id).isSome
  created : ∀ id preview, server.registry.previews.get? id = some preview →
    (id, preview.createdAt) ∈ server.created
  unexpired : ∀ id preview, server.registry.previews.get? id = some preview →
    ∀ sweptAt ids, server.lastSweep = some (sweptAt, ids) → sweptAt < preview.expiresAt
  unique : (server.created.map Prod.fst).Nodup
  removed : ∀ id ∈ server.removed, server.registry.previews.get? id = none ∧
    id ∈ server.created.map Prod.fst
  swept : ∀ sweptAt ids, server.lastSweep = some (sweptAt, ids) →
    sweptAt ≤ server.clock ∧ ∀ id ∈ ids, id ∈ server.removed

namespace Owned

variable {server : PreviewServer} {id : String} {preview : InternalPreviewRecord}

theorem start (serverId : String) (limits : RegistryLimits) (sha256Hex : String → String)
    (relayLimits : PreviewLimits) : Owned
      { registry := { serverId, limits, sha256Hex }, relays := { limits := relayLimits } } where
  sound _ h := nomatch h
  filed := ⟨nofun, nofun⟩
  owned _ := fun ⟨_, h, _⟩ => nomatch h
  created := nofun
  unexpired := nofun
  unique := List.nodup_nil
  removed _ h := nomatch h
  swept := nofun

/-- Fewer relays, of the same previews. -/
theorem withRelays (h : Owned server) {relays : Relays} (hsound : AllSound relays)
    (hpending : ∀ id, relays.HasPending id → server.HasPending id) :
    Owned { server with relays } :=
  { h with
    sound := hsound
    owned := fun id hid => h.owned id (hpending id hid) }

/-- Records are dropped, or put off. -/
theorem withRegistry (h : Owned server) {registry : LocalWebPreviewRegistry}
    {removed : List String}
    (hfound : ∀ id preview', registry.previews.get? id = some preview' → preview'.id = id ∧
      ∃ preview, server.registry.previews.get? id = some preview ∧
        preview'.createdAt = preview.createdAt ∧ preview.expiresAt ≤ preview'.expiresAt ∧
        preview'.expiresAt ≤ preview'.createdAt + registry.limits.previewMaxLifetimeHardMs)
    (howned : ∀ id, server.HasPending id → (registry.previews.get? id).isSome)
    (hremoved : ∀ id ∈ removed, registry.previews.get? id = none ∧
      id ∈ server.created.map Prod.fst)
    (hsub : ∀ id ∈ server.removed, id ∈ removed) : Owned { server with registry, removed } where
  sound := h.sound
  filed :=
    { id_eq := fun id preview' hsome => (hfound id preview' hsome).1
      expiresAt_le := fun id preview' hsome => by
        obtain ⟨-, _, -, -, -, hcap⟩ := hfound id preview' hsome
        exact hcap }
  owned := howned
  created id preview' hsome := by
    obtain ⟨-, preview, hold, hcreated, -⟩ := hfound id preview' hsome
    rw [hcreated]
    exact h.created id preview hold
  unexpired id preview' hsome sweptAt ids hsweep := by
    obtain ⟨-, preview, hold, -, hle, -⟩ := hfound id preview' hsome
    exact (h.unexpired id preview hold sweptAt ids hsweep).trans_le hle
  unique := h.unique
  removed := hremoved
  swept sweptAt ids hsweep :=
    ⟨(h.swept sweptAt ids hsweep).1, fun id hid => hsub id ((h.swept sweptAt ids hsweep).2 id hid)⟩

theorem keeps_record (h : Owned server)
    (hsome : server.registry.previews.get? id = some preview) : preview.id = id ∧
      ∃ preview', server.registry.previews.get? id = some preview' ∧
        preview.createdAt = preview'.createdAt ∧ preview'.expiresAt ≤ preview.expiresAt ∧
        preview.expiresAt ≤
          preview.createdAt + server.registry.limits.previewMaxLifetimeHardMs :=
  ⟨h.filed.id_eq id preview hsome, preview, hsome, rfl, le_refl _,
    h.filed.expiresAt_le id preview hsome⟩

/-- The record of a preview without relays goes. -/
theorem drop (h : Owned server) {registry : LocalWebPreviewRegistry} {removed : List String}
    (hlimits : registry.limits = server.registry.limits)
    (hdelete : registry.previews = server.registry.previews.delete id)
    (hnone : ¬ server.HasPending id)
    (hremoved : ∀ id' ∈ removed, id' ∈ server.removed ∨
      id' = id ∧ id ∈ server.created.map Prod.fst)
    (hsub : ∀ id ∈ server.removed, id ∈ removed) : Owned { server with registry, removed } := by
  refine h.withRegistry (fun id' preview' hsome => ?_) (fun id' hpending => ?_)
    (fun id' hmem => ?_) hsub
  · rw [hdelete, OrderedMap.get?_delete] at hsome
    split at hsome
    · cases hsome
    · rw [hlimits]
      exact h.keeps_record hsome
  · rw [hdelete, OrderedMap.get?_delete, if_neg]
    · exact h.owned id' hpending
    · rintro rfl
      exact hnone hpending
  · rw [hdelete, OrderedMap.get?_delete]
    rcases hremoved id' hmem with hold | ⟨rfl, hcreated⟩
    · obtain ⟨hgone, hcreated⟩ := h.removed id' hold
      refine ⟨?_, hcreated⟩
      split
      · rfl
      · exact hgone
    · exact ⟨if_pos rfl, hcreated⟩

theorem mem_created (h : Owned server)
    (hsome : server.registry.previews.get? id = some preview) :
    id ∈ server.created.map Prod.fst :=
  List.mem_map.2 ⟨_, h.created id preview hsome, rfl⟩

theorem look {α : Type} (h : Owned server) (result : α × LocalWebPreviewRegistry)
    (hlooks : LocalWebPreviewRegistry.Looks server.clock id server.registry result.2)
    (hnone : server.IsExpired id → ¬ server.HasPending id) : Owned (server.look id result) := by
  unfold PreviewServer.look
  obtain ⟨hlimits, hsame | ⟨preview, hsome, hexpired, hdelete⟩ |
    ⟨preview, preview', hsome, hset, hid, hcreated, hle, hcap⟩⟩ := hlooks
  · rw [if_neg (by rw [hsame]; rintro ⟨h1, h2⟩; rw [h2] at h1; cases h1)]
    refine h.withRegistry (fun id' preview' hsome => ?_) (fun id' hpending => ?_)
      (fun id' hmem => ?_) fun _ hmem => hmem
    · rw [hlimits]
      exact h.keeps_record (hsame ▸ hsome)
    · rw [hsame]
      exact h.owned id' hpending
    · rw [hsame]
      exact h.removed id' hmem
  · have hgone : result.2.previews.get? id = none := by
      rw [hdelete, OrderedMap.get?_delete, if_pos rfl]
    rw [if_pos ⟨by rw [hsome]; rfl, hgone⟩]
    refine h.drop hlimits hdelete (hnone ⟨preview, hsome, hexpired⟩) (fun id' hmem => ?_)
      fun id' hmem => List.mem_append_left _ hmem
    exact (List.mem_append.1 hmem).imp_right fun hmem =>
      ⟨List.mem_singleton.1 hmem, h.mem_created hsome⟩
  · have hfound : result.2.previews.get? id = some preview' := by
      rw [hset, OrderedMap.get?_set, if_pos rfl]
    rw [if_neg (by rw [hfound]; rintro ⟨-, h2⟩; cases h2)]
    refine h.withRegistry (fun id' p hp => ?_) (fun id' hpending => ?_)
      (fun id' hmem => ?_) fun _ hmem => hmem
    · rw [hset, OrderedMap.get?_set] at hp
      rw [hlimits]
      split at hp
      · rename_i heq
        obtain rfl := Option.some.inj hp
        exact ⟨hid.trans heq.symm, preview, heq ▸ hsome, hcreated, hle, hcap⟩
      · exact h.keeps_record hp
    · rw [hset, OrderedMap.get?_set]
      split
      · rfl
      · exact h.owned id' hpending
    · obtain ⟨hgone, hcreated⟩ := h.removed id' hmem
      rw [hset, OrderedMap.get?_set, if_neg]
      · exact ⟨hgone, hcreated⟩
      · rintro rfl
        rw [hsome] at hgone
        cases hgone

theorem touch (h : Owned server) (hnone : server.IsExpired id → ¬ server.HasPending id) :
    Owned (server.touch id) :=
  h.look _ (LocalWebPreviewRegistry.looks_touch h.filed) hnone

theorem close (h : Owned server) {userId : String}
    (hnone : (∃ preview ∈ server.registry.previews.get? id, preview.userId = userId) →
      ¬ server.HasPending id) :
    Owned { server with registry := (server.registry.close id userId).2 } := by
  unfold LocalWebPreviewRegistry.close
  split
  · exact h
  · rename_i preview hsome
    split
    · exact h
    · rename_i huser
      exact h.drop rfl rfl (hnone ⟨preview, hsome, not_not.1 huser⟩) (fun _ hmem => Or.inl hmem)
        fun _ hmem => hmem

/-- The relays of a preview end with its record. -/
theorem evict (h : Owned server) (hcreated : id ∈ server.created.map Prod.fst) :
    Owned (server.evict id) := by
  have hended : ∀ id', (server.relays.step (.previewEvicted id)).HasPending id' →
      server.HasPending id' ∧ id' ≠ id := fun id' hpending => hpending.of_evicted h.sound
  have hrelays := h.withRelays h.sound.step fun id' hpending => (hended id' hpending).1
  have hdrop := @drop _ id hrelays
    { server.registry with previews := server.registry.previews.delete id }
    (server.removed ++ [id]) rfl rfl (fun hpending => (hended id hpending).2 rfl)
    (fun id' hmem => (List.mem_append.1 hmem).imp_right fun hmem =>
      ⟨List.mem_singleton.1 hmem, hcreated⟩)
    fun id' hmem => List.mem_append_left _ hmem
  exact { hdrop with }

theorem evictAll {ids : List String} (h : Owned server)
    (hcreated : ∀ id ∈ ids, id ∈ server.created.map Prod.fst) :
    Owned (ids.foldl PreviewServer.evict server) := by
  induction ids generalizing server with
  | nil => exact h
  | cons id ids ih =>
    exact ih (h.evict (hcreated id List.mem_cons_self))
      fun id' hmem => hcreated id' (List.mem_cons_of_mem _ hmem)

end Owned

section Sweeps

variable {server : PreviewServer} {ids : List String} {id : String}
variable {preview : InternalPreviewRecord}

theorem get?_evictAll : (ids.foldl evict server).registry.previews.get? id =
    if id ∈ ids then none else server.registry.previews.get? id := by
  induction ids generalizing server with
  | nil => rfl
  | cons id' ids ih =>
    rw [List.foldl_cons, ih, evict, OrderedMap.get?_delete]
    by_cases hid : id = id'
    · rw [if_pos hid, ite_self, if_pos (hid ▸ List.mem_cons_self)]
    · simp only [if_neg hid, List.mem_cons, or_iff_right hid]

theorem evictAll_frame : (ids.foldl evict server).clock = server.clock ∧
    (ids.foldl evict server).created = server.created ∧
    (ids.foldl evict server).registry.limits = server.registry.limits := by
  induction ids generalizing server with
  | nil => exact ⟨rfl, rfl, rfl⟩
  | cons id ids ih => exact ih

theorem get?_cleanup : server.cleanup.registry.previews.get? id =
    if id ∈ LocalWebPreviewRegistry.evicted server.clock server.hasActivePreviewRelay
      server.registry.previews.toList then none else server.registry.previews.get? id :=
  get?_evictAll

theorem hasActivePreviewRelay_of_hasPending (hsound : AllSound server.relays)
    (h : server.HasPending id) : server.hasActivePreviewRelay id = true := by
  obtain ⟨request, hmem, hpending, hid⟩ := h
  rw [hasActivePreviewRelay, Bool.or_eq_true]
  refine Or.inl (List.any_eq_true.2 ⟨request, hmem, ?_⟩)
  rw [Relays.isOpen_of_isPending (hsound request hmem) hpending, decide_eq_true hid]
  rfl

/-- A sweep spares what has not expired and has a relay. -/
theorem get?_cleanup_of_hasPending (hsound : AllSound server.relays)
    (hsome : server.registry.previews.get? id = some preview)
    (hunexpired : server.clock < preview.expiresAt) (hpending : server.HasPending id) :
    server.cleanup.registry.previews.get? id = some preview := by
  rw [get?_cleanup, if_neg, hsome]
  intro hmem
  obtain ⟨preview', hmem', hwhy⟩ := LocalWebPreviewRegistry.of_mem_evicted hmem
  obtain rfl := Option.some.inj (hsome.symm.trans (OrderedMap.get?_eq_some.2 hmem'))
  rcases hwhy with hexpired | hidle
  · exact absurd hexpired (not_le.2 hunexpired)
  · rw [hasActivePreviewRelay_of_hasPending hsound hpending] at hidle
    cases hidle

end Sweeps

namespace Owned

variable {server : PreviewServer} {id : String} {event : PreviewEvent}

theorem cleanup (h : Owned server) : Owned server.cleanup := by
  have hcreated : ∀ id ∈ LocalWebPreviewRegistry.evicted server.clock
      server.hasActivePreviewRelay server.registry.previews.toList,
      id ∈ server.created.map Prod.fst := fun id hmem =>
    let ⟨_, hmem', _⟩ := LocalWebPreviewRegistry.of_mem_evicted hmem
    h.mem_created (OrderedMap.get?_eq_some.2 hmem')
  exact
    { h.evictAll hcreated with
      unexpired := fun id preview hsome sweptAt ids hsweep => by
        obtain ⟨rfl, -⟩ := Prod.mk.inj (Option.some.inj hsweep)
        rw [evictAll_frame.1]
        rw [get?_cleanup] at hsome
        split at hsome
        · cases hsome
        · rename_i hkept
          by_contra hexpired
          exact hkept (LocalWebPreviewRegistry.mem_evicted_of_expired
            (OrderedMap.get?_eq_some.1 hsome) (not_lt.1 hexpired))
      swept := fun sweptAt ids hsweep => by
        obtain ⟨rfl, rfl⟩ := Prod.mk.inj (Option.some.inj hsweep)
        exact ⟨le_refl _, fun _ hmem => hmem⟩ }

/-- A preview that was not there is made. -/
theorem add (h : Owned server) {preview : InternalPreviewRecord}
    (hfresh : preview.id ∉ server.created.map Prod.fst) {createdAt : ℕ}
    (hcreated : preview.createdAt = createdAt)
    (hlimits : preview.expiresAt ≤ createdAt + server.registry.limits.previewMaxLifetimeHardMs)
    (hexpires : server.clock < preview.expiresAt) :
    Owned { server with
      registry := server.registry.put preview
      created := server.created ++ [(preview.id, createdAt)] } := by
  have hfound : ∀ id, (server.registry.put preview).previews.get? id =
      if id = preview.id then some preview else server.registry.previews.get? id :=
    fun id => OrderedMap.get?_set
  refine ⟨h.sound, ⟨fun id p hp => ?_, fun id p hp => ?_⟩, fun id hpending => ?_,
    fun id p hp => ?_, fun id p hp sweptAt ids hsweep => ?_, ?_, fun id hmem => ?_, h.swept⟩
  all_goals dsimp only at *
  · rw [hfound] at hp
    split at hp
    · rename_i heq
      rw [← Option.some.inj hp, heq]
    · exact h.filed.id_eq id p hp
  · rw [hfound] at hp
    split at hp
    · rw [← Option.some.inj hp, hcreated]
      exact hlimits
    · exact h.filed.expiresAt_le id p hp
  · rw [hfound]
    split
    · rfl
    · exact h.owned id hpending
  · rw [hfound] at hp
    split at hp
    · rename_i heq
      rw [← Option.some.inj hp, heq, hcreated]
      exact List.mem_append_right _ (List.mem_singleton_self _)
    · exact List.mem_append_left _ (h.created id p hp)
  · rw [hfound] at hp
    split at hp
    · rw [← Option.some.inj hp]
      exact (h.swept sweptAt ids hsweep).1.trans_lt hexpires
    · exact h.unexpired id p hp sweptAt ids hsweep
  · rw [List.map_append, List.map_singleton]
    refine List.nodup_append.2 ⟨h.unique, List.nodup_singleton _, ?_⟩
    rintro id hid id' hid' rfl
    rw [List.mem_singleton.1 hid'] at hid
    exact hfresh hid
  · obtain ⟨hgone, hmem'⟩ := h.removed id hmem
    refine ⟨?_, by rw [List.map_append]; exact List.mem_append_left _ hmem'⟩
    rw [hfound, if_neg]
    · exact hgone
    · rintro rfl
      exact hfresh hmem'

theorem create (h : Owned server) {secrets : PreviewSecrets} {userId : String} {port : ℕ}
    {path : Option String}
    (hlimits : defaultTtlMs ≤ server.registry.limits.previewMaxLifetimeHardMs) :
    Owned (server.create secrets userId port path) := by
  unfold PreviewServer.create
  split
  · exact h
  rename_i hfresh
  have hclean := h.cleanup
  have hframe : server.cleanup.clock = server.clock ∧ server.cleanup.created = server.created ∧
      server.cleanup.registry.limits = server.registry.limits := evictAll_frame
  have hnot : secrets.id ∉ server.cleanup.created.map Prod.fst := by
    rw [hframe.2.1]
    intro hmem
    obtain ⟨entry, hentry, hid⟩ := List.mem_map.1 hmem
    exact hfresh (List.any_eq_true.2 ⟨entry, hentry, decide_eq_true hid⟩)
  rw [← hframe.2.2] at hlimits
  generalize server.cleanup = cleaned at hclean hnot hlimits ⊢
  unfold LocalWebPreviewRegistry.create
  dsimp only
  split
  · rename_i heq
    split at heq
    · exact hclean
    · cases heq
  · rename_i preview registry heq
    split at heq
    · cases heq
    · obtain ⟨-, rfl⟩ := Prod.mk.inj heq
      exact hclean.add hnot rfl (Nat.add_le_add_left hlimits _)
        (Nat.lt_add_of_pos_right (by decide))

theorem forward (h : Owned server) (hnone : server.IsExpired id → ¬ server.HasPending id) :
    Owned (server.forward id) := by
  have htouched := h.touch hnone
  unfold PreviewServer.forward
  generalize server.touch id = touched at htouched ⊢
  dsimp only
  split
  · rename_i hsome
    exact { htouched with
      sound := htouched.sound.step
      owned := fun id' hpending => by
        rcases Relays.HasPending.of_forward hpending with hpending | rfl
        · exact htouched.owned id' hpending
        · exact hsome }
  · exact htouched

theorem relay (h : Owned server) {i : ℕ} {event : RequestEvent}
    (hnone : server.LeavesNoRelay (.relay i event)) : Owned (server.relay i event) := by
  have hafter := @withRelays _ h (server.relays.step (.request i event)) h.sound.step
    fun id hpending => hpending.of_request
  unfold PreviewServer.relay
  split
  · rename_i chunk request hrequest
    dsimp only
    split
    · rename_i hopen
      refine hafter.touch fun hexpired => absurd hexpired (hnone request hrequest ?_)
      have hget : (server.relays.step (.request i (.responseBody chunk))).requests[i]? =
          some (request.pushPreviewResponseChunk server.relays.limits chunk) :=
        Modify.getElem?_modify_self hrequest
      have hstill := hopen.2
      rw [hget] at hstill
      exact hstill
    · exact hafter
  · exact hafter

theorem step (h : Owned server) (hok : server.LeavesNoRelay event) : Owned (server.step event) := by
  cases event with
  | tick ms =>
    exact { h with
      swept := fun sweptAt ids hsweep =>
        ⟨(h.swept sweptAt ids hsweep).1.trans (Nat.le_add_right _ _),
          (h.swept sweptAt ids hsweep).2⟩ }
  | create secrets userId port path => exact h.create hok
  | peek id => exact h.look _ LocalWebPreviewRegistry.looks_peek hok
  | peekWithAccessToken id accessToken =>
    exact h.look _ LocalWebPreviewRegistry.looks_peekWithAccessToken hok
  | get id => exact h.look _ (LocalWebPreviewRegistry.looks_get h.filed) hok
  | authorizeWithAccessToken id accessToken =>
    exact h.look _ (LocalWebPreviewRegistry.looks_authorizeWithAccessToken h.filed) hok
  | touch id => exact h.touch hok
  | close id userId => exact h.close hok
  | cleanup => exact h.cleanup
  | forward id => exact h.forward hok
  | relay i event => exact h.relay hok
  | daemonLost reason => exact h.withRelays h.sound.step fun id hpending => hpending.of_daemonLost
  | tunnelOpened id => exact { h with }
  | tunnelClosed id => exact { h with }

/-- A relay has a record, which is not older than the last sweep allows. -/
theorem withinLifetime (h : Owned server) : server.WithinLifetime where
  lifetime id createdAt sweptAt ids hcreated hsweep hover hpending := by
    obtain ⟨preview, hsome⟩ := Option.isSome_iff_exists.1 (h.owned id hpending)
    have hsame := List.inj_on_of_nodup_map h.unique hcreated (h.created id preview hsome) rfl
    have hexpires := h.filed.expiresAt_le id preview hsome
    have hunexpired := h.unexpired id preview hsome sweptAt ids hsweep
    rw [(Prod.mk.inj hsame).2] at hover
    omega
  removed sweptAt ids hsweep id hid hpending := by
    have hgone := (h.removed id ((h.swept sweptAt ids hsweep).2 id hid)).1
    have hsome := h.owned id hpending
    rw [hgone] at hsome
    cases hsome
  spared id preview hsome hunexpired hpending :=
    get?_cleanup_of_hasPending h.sound hsome hunexpired hpending

end Owned

/-- The server at its start. -/
def start (serverId : String) (limits : RegistryLimits) (relayLimits : PreviewLimits)
    (sha256Hex : String → String) : PreviewServer :=
  { registry := { serverId, limits, sha256Hex }, relays := { limits := relayLimits } }

/-- In every run in which only sweeps remove the record of a preview with relays, no relay outlives
its preview. -/
theorem withinLifetime_run (serverId : String) (limits : RegistryLimits)
    (relayLimits : PreviewLimits) (sha256Hex : String → String) (events : List PreviewEvent)
    (hok : Along step LeavesNoRelay events (start serverId limits relayLimits sha256Hex)) :
    (run step events (start serverId limits relayLimits sha256Hex)).WithinLifetime :=
  (run_invariant Owned (fun _ _ h hok => h.step hok)
    (.start serverId limits sha256Hex relayLimits) hok).withinLifetime

/-- An access token of zeros, and its digest. -/
def zeroSecrets : PreviewSecrets :=
  { id := "p", accessToken := "000000000000000000000000000000000000000000000000" }

@[inherit_doc zeroSecrets] def zeroSha256Hex (_ : String) : String :=
  "f9a2ba511957122bfa67b029061c679703494540b35f02e0e0496a3b0cdcc46a"

/-- A stream that is torn down by the sweep after its preview has expired. -/
theorem withinLifetime_run_tornDown :
    (run step [.create zeroSecrets "user" 3000 none, .forward "p",
      .relay 0 (.responseStart 200 none [("content-type", .one "text/event-stream")]),
      .tick 60000, .peek "p", .tick 28740000, .cleanup]
      (start "server" {} {} zeroSha256Hex)).WithinLifetime :=
  withinLifetime_run _ _ _ _ _ (by decide +kernel)

/-- A stream, and another request for its preview after the end of the hard lifetime and before the
sweep. -/
def latePeek : List PreviewEvent :=
  .create zeroSecrets "user" 3000 none ::
    (List.replicate 23 [.tick 1200000, .touch "p"]).flatten ++
    [.tick 1140000, .forward "p",
      .relay 0 (.responseStart 200 none [("content-type", .one "text/event-stream")]),
      .tick 60000, .peek "p", .cleanup]

/-- The lookup makes the registry forget the preview, and the sweep does not find it. -/
theorem not_withinLifetime_latePeek : ¬ ∀ (serverId : String) (limits : RegistryLimits)
    (relayLimits : PreviewLimits) (sha256Hex : String → String) (events : List PreviewEvent),
    (run step events (start serverId limits relayLimits sha256Hex)).WithinLifetime := by
  intro h
  exact (h "server" {} {} zeroSha256Hex latePeek).lifetime "p" 0 28800000 ["p"]
    (by decide +kernel) (by decide +kernel) (by decide +kernel) (by decide +kernel)

end PreviewServer

end Imcodes.Preview
