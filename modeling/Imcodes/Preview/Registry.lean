import Imcodes.Collections.OrderedMap
import Imcodes.Preview.Relay

/-!
# The registry of local web previews

`LocalWebPreviewRegistry` keeps the previews of a server with the time at which each expires.
Activity puts that time off, but never beyond a hard limit.  A sweep evicts what has expired, and
what is idle and has no relay, and tells the bridge to tear the relays of an evicted preview down.
The other operations drop an expired preview when they come across it.
-/

namespace Imcodes.Preview

/-! ## The registry -/

/-- `PREVIEW_LIMITS.DEFAULT_TTL_MS` -/
def defaultTtlMs : ℕ := 30 * 60 * 1000

/-- `PREVIEW_LIMITS.DEFAULT_IDLE_TTL_MS` -/
def defaultIdleTtlMs : ℕ := 10 * 60 * 1000

/-- `PREVIEW_LIMITS`, as far as the registry is concerned; the environment may set them. -/
structure RegistryLimits where
  previewMaxLifetimeHardMs : ℕ := 8 * 60 * 60 * 1000
  maxActivePreviewsPerUserPerServer : ℕ := 8

/-- `PreviewRecord` -/
structure PreviewRecord where
  id : String
  serverId : String
  userId : String
  port : ℕ
  path : String
  createdAt : ℕ
  expiresAt : ℕ
  lastAccessAt : ℕ
  deriving DecidableEq

/-- `InternalPreviewRecord` -/
structure InternalPreviewRecord extends PreviewRecord where
  accessTokenHash : String
  deriving DecidableEq

/-- The loop of `path.replace(/\/+/g, '/')` -/
def squeezeSlashes : List Char → List Char
  | '/' :: '/' :: rest => squeezeSlashes ('/' :: rest)
  | c :: rest => c :: squeezeSlashes rest
  | [] => []

/-- `normalizePreviewPath` -/
def normalizePreviewPath (path : Option String) : String :=
  match path with
  | none => "/"
  | some path =>
    if Queue.jsTrim path = "" then "/"
    else
      let withSlash := if path.startsWith "/" then path.toList else '/' :: path.toList
      String.ofList (squeezeSlashes withSlash)

/-- `LocalWebPreviewRegistry`, with the hash of access tokens -/
structure LocalWebPreviewRegistry where
  serverId : String
  limits : RegistryLimits
  sha256Hex : String → String
  previews : OrderedMap String InternalPreviewRecord := .empty

/-- What is random about a new preview. -/
structure PreviewSecrets where
  id : String
  accessToken : String

namespace LocalWebPreviewRegistry

variable (registry : LocalWebPreviewRegistry) (now : ℕ)

/-- What `peek` and the other lookups begin with: an expired preview is dropped. -/
def find (id : String) : Option InternalPreviewRecord × LocalWebPreviewRegistry :=
  match registry.previews.get? id with
  | none => (none, registry)
  | some preview =>
    if preview.expiresAt ≤ now then
      (none, { registry with previews := registry.previews.delete id })
    else (some preview, registry)

/-- A record is changed. -/
def put (preview : InternalPreviewRecord) : LocalWebPreviewRegistry :=
  { registry with previews := registry.previews.set preview.id preview }

/-- `peek` -/
def peek (id : String) : Option PreviewRecord × LocalWebPreviewRegistry :=
  let (preview, registry) := registry.find now id
  (preview.map (·.toPreviewRecord), registry)

/-- `peekWithAccessToken` -/
def peekWithAccessToken (id accessToken : String) :
    Option PreviewRecord × LocalWebPreviewRegistry :=
  match registry.find now id with
  | (none, registry) => (none, registry)
  | (some preview, registry) =>
    if registry.sha256Hex accessToken ≠ preview.accessTokenHash then (none, registry)
    else (some preview.toPreviewRecord, registry)

/-- `get` -/
def get (id : String) : Option PreviewRecord × LocalWebPreviewRegistry :=
  match registry.find now id with
  | (none, registry) => (none, registry)
  | (some preview, registry) =>
    let preview := { preview with lastAccessAt := now }
    (some preview.toPreviewRecord, registry.put preview)

/-- `authorizeWithAccessToken` -/
def authorizeWithAccessToken (id accessToken : String) :
    Option PreviewRecord × LocalWebPreviewRegistry :=
  match registry.find now id with
  | (none, registry) => (none, registry)
  | (some preview, registry) =>
    if registry.sha256Hex accessToken ≠ preview.accessTokenHash then (none, registry)
    else
      let preview := { preview with lastAccessAt := now }
      (some preview.toPreviewRecord, registry.put preview)

/-- `touch` -/
def touch (id : String) : Bool × LocalWebPreviewRegistry :=
  match registry.find now id with
  | (none, registry) => (false, registry)
  | (some preview, registry) =>
    let slid := max preview.expiresAt (now + defaultTtlMs)
    let hardCap := preview.createdAt + registry.limits.previewMaxLifetimeHardMs
    (true, registry.put { preview with lastAccessAt := now, expiresAt := min slid hardCap })

/-- `close` -/
def close (id userId : String) : Bool × LocalWebPreviewRegistry :=
  match registry.previews.get? id with
  | none => (false, registry)
  | some preview =>
    if preview.userId ≠ userId then (false, registry)
    else (true, { registry with previews := registry.previews.delete id })

/-- The loop of `cleanup`: the previews that are evicted. -/
def evicted (hasActiveRelay : String → Bool) : List (String × InternalPreviewRecord) → List String
  | [] => []
  | (id, preview) :: rest =>
    if preview.expiresAt ≤ now then id :: evicted hasActiveRelay rest
    else if now - preview.lastAccessAt ≤ defaultIdleTtlMs then evicted hasActiveRelay rest
    else if hasActiveRelay id then evicted hasActiveRelay rest
    else id :: evicted hasActiveRelay rest

/-- `create`, after its sweep: nothing when the user has too many previews. -/
def create (secrets : PreviewSecrets) (userId : String) (port : ℕ) (path : Option String) :
    Option (PreviewRecord × String) × LocalWebPreviewRegistry :=
  if registry.limits.maxActivePreviewsPerUserPerServer ≤
      registry.previews.toList.countP (·.2.userId = userId) then (none, registry)
  else
    let preview : InternalPreviewRecord :=
      { id := secrets.id
        serverId := registry.serverId
        userId
        port
        path := normalizePreviewPath path
        createdAt := now
        expiresAt := now + defaultTtlMs
        lastAccessAt := now
        accessTokenHash := registry.sha256Hex secrets.accessToken }
    (some (preview.toPreviewRecord, secrets.accessToken), registry.put preview)

end LocalWebPreviewRegistry

/-! ## The registry and the relays -/

/-- The previews of a server, the bridge's relays and tunnels, and what has happened. -/
structure PreviewServer where
  clock : ℕ := 0
  registry : LocalWebPreviewRegistry
  relays : Relays
  /-- The previews of the tunnels that are open. -/
  previewWsTunnels : List String := []
  /-- The previews that were made, with the time. -/
  created : List (String × ℕ) := []
  /-- The previews whose record expiry or idleness has removed. -/
  removed : List String := []
  /-- The time of the last sweep, and the previews that were removed by its end. -/
  lastSweep : Option (ℕ × List String) := none

inductive PreviewEvent
  | tick (ms : ℕ)
  | create (secrets : PreviewSecrets) (userId : String) (port : ℕ) (path : Option String)
  | peek (id : String)
  | peekWithAccessToken (id accessToken : String)
  | get (id : String)
  | authorizeWithAccessToken (id accessToken : String)
  | touch (id : String)
  | close (id userId : String)
  | cleanup
  /-- An authorized request: the preview is touched, and if it is registered a relay is made. -/
  | forward (id : String)
  | relay (i : ℕ) (event : RequestEvent)
  | daemonLost (reason : String)
  | tunnelOpened (id : String)
  | tunnelClosed (id : String)

namespace PreviewServer

variable (server : PreviewServer)

/-- `hasActivePreviewRelay` -/
def hasActivePreviewRelay (id : String) : Bool :=
  server.relays.requests.any (fun request => request.isOpen && request.previewId = id) ||
    server.previewWsTunnels.any (· = id)

/-- `terminatePreviewRelaysForPreview` -/
def terminatePreviewRelaysForPreview (id : String) : PreviewServer :=
  { server with
    relays := server.relays.step (.previewEvicted id)
    previewWsTunnels := server.previewWsTunnels.filter (· ≠ id) }

/-- A lookup with what it leaves of the registry, in which it may have dropped the preview. -/
def look {α : Type} (id : String) (result : α × LocalWebPreviewRegistry) : PreviewServer :=
  { server with
    registry := result.2
    removed :=
      if (server.registry.previews.get? id).isSome ∧ result.2.previews.get? id = none then
        server.removed ++ [id]
      else server.removed }

/-- A preview is evicted, and the bridge is told. -/
def evict (id : String) : PreviewServer :=
  { server.terminatePreviewRelaysForPreview id with
    registry := { server.registry with previews := server.registry.previews.delete id }
    removed := server.removed ++ [id] }

/-- `cleanup` -/
def cleanup : PreviewServer :=
  let ids := LocalWebPreviewRegistry.evicted server.clock server.hasActivePreviewRelay
    server.registry.previews.toList
  let server := ids.foldl evict server
  { server with lastSweep := some (server.clock, server.removed) }

/-- `touch` of a preview -/
def touch (id : String) : PreviewServer :=
  server.look id (server.registry.touch server.clock id)

/-- `create`; a random id never comes twice. -/
def create (secrets : PreviewSecrets) (userId : String) (port : ℕ) (path : Option String) :
    PreviewServer :=
  if server.created.any (·.1 = secrets.id) then server
  else
    let server := server.cleanup
    match server.registry.create server.clock secrets userId port path with
    | (none, _) => server
    | (some _, registry) =>
      { server with registry, created := server.created ++ [(secrets.id, server.clock)] }

/-- A relay is made for a preview that is registered. -/
def forward (id : String) : PreviewServer :=
  let server := server.touch id
  if (server.registry.previews.get? id).isSome then
    { server with relays := server.relays.step (.forward id) }
  else server

/-- What the daemon or the consumer does to a relay.  A chunk that does not end the request slides
the expiry of its preview. -/
def relay (i : ℕ) (event : RequestEvent) : PreviewServer :=
  let after := { server with relays := server.relays.step (.request i event) }
  match event, server.relays.requests[i]? with
  | .responseBody _, some request =>
    if request.isOpen ∧ (after.relays.requests[i]?).any (·.isOpen) then
      after.touch request.previewId
    else after
  | _, _ => after

def step (server : PreviewServer) : PreviewEvent → PreviewServer
  | .tick ms => { server with clock := server.clock + ms }
  | .create secrets userId port path => server.create secrets userId port path
  | .peek id => server.look id (server.registry.peek server.clock id)
  | .peekWithAccessToken id accessToken =>
      server.look id (server.registry.peekWithAccessToken server.clock id accessToken)
  | .get id => server.look id (server.registry.get server.clock id)
  | .authorizeWithAccessToken id accessToken =>
      server.look id (server.registry.authorizeWithAccessToken server.clock id accessToken)
  | .touch id => server.touch id
  | .close id userId =>
      { server with registry := (server.registry.close id userId).2 }
  | .cleanup => server.cleanup
  | .forward id => server.forward id
  | .relay i event => server.relay i event
  | .daemonLost reason => { server with relays := server.relays.step (.daemonLost reason) }
  | .tunnelOpened id => { server with previewWsTunnels := server.previewWsTunnels ++ [id] }
  | .tunnelClosed id => { server with previewWsTunnels := server.previewWsTunnels.erase id }

end PreviewServer

end Imcodes.Preview
