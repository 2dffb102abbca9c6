import Imcodes.Machine.Runs
import Imcodes.Queue.Types
import Imcodes.Streams.ReadableStream

/-!
# Preview relays

The server forwards a preview request to the daemon and hands the response to its consumer as a
stream.  What the daemon sends is kept until the stream has room for it.  A request is pending
until it is completed, fails or is aborted.
-/

namespace Imcodes.Preview

open Streams

/-- `PREVIEW_LIMITS`, as far as relays are concerned -/
structure PreviewLimits where
  maxResponseBytes : ℕ := 52428800
  maxPreviewStreamBufferBytes : ℕ := 16777216
  maxInflightPreviewHttpPerPreview : ℕ := 64
  maxInflightPreviewHttpPerServer : ℕ := 256

/-- `PREVIEW_TERMINAL_OUTCOME` -/
inductive PreviewTerminalOutcome
  | responseEnd
  | error
  | aborted
  | timeout
  | limitExceeded
deriving DecidableEq

/-- The text of an outcome -/
def PreviewTerminalOutcome.text : PreviewTerminalOutcome → String
  | .responseEnd => "response_end"
  | .error => "error"
  | .aborted => "aborted"
  | .timeout => "timeout"
  | .limitExceeded => "limit_exceeded"

/-- The value of a header: `string | string[]` -/
inductive HeaderValue
  | one (value : String)
  | many (values : List String)
deriving DecidableEq

/-! ## Streaming responses -/

/-- `toLowerCase` on what headers are made of -/
def toLowerCase (text : String) : String := text.map Char.toLower

/-- `headerValue` -/
def headerValue (headers : List (String × HeaderValue)) (name : String) : String :=
  match headers.find? (toLowerCase ·.1 = toLowerCase name) with
  | some (_, .one value) => value
  | some (_, .many values) => values.headD ""
  | none => ""

/-- `contentTypeOf` -/
def contentTypeOf (headers : List (String × HeaderValue)) : String :=
  toLowerCase (Queue.jsTrim (((headerValue headers "content-type").splitOn ";").headD ""))

/-- `isHtmlContentType` -/
def isHtmlContentType (ct : String) : Bool := ct = "text/html" || ct = "application/xhtml+xml"

/-- `isJsonContentType` -/
def isJsonContentType (ct : String) : Bool := ct = "application/json" || ct.endsWith "+json"

/-- `isChunkedTransfer` -/
def isChunkedTransfer (headers : List (String × HeaderValue)) : Bool :=
  ((toLowerCase (headerValue headers "transfer-encoding")).splitOn ",").any
    (Queue.jsTrim · = "chunked")

/-- `isStreamingResponse` -/
def isStreamingResponse (headers : List (String × HeaderValue)) : Bool :=
  let ct := contentTypeOf headers
  if isHtmlContentType ct then false
  else if ct = "text/event-stream" || ct = "application/x-ndjson" then true
  else isChunkedTransfer headers && !isJsonContentType ct

/-! ## Requests -/

/-- The bytes of one body frame. -/
abbrev Chunk := List UInt8

/-- What the timer of a request waits for. -/
inductive TimerMode
  | start
  | idle
deriving DecidableEq

/-- The promise of the response's start. -/
inductive StartPromise
  | waiting
  | resolved (status : ℕ) (statusText : Option String) (headers : List (String × HeaderValue))
  | rejected (message : String)
deriving DecidableEq

/-- `PendingPreviewRequest`, and what it is made of after it is not pending any more -/
structure Request where
  previewId : String
  started : Bool := false
  terminalOutcome : Option PreviewTerminalOutcome := none
  responseBytes : ℕ := 0
  streaming : Bool := false
  unconsumedBytes : ℕ := 0
  pendingChunks : List Chunk := []
  /-- The timer that is armed. -/
  timer : Option TimerMode := some .start
  /-- The request is in `pendingPreviewRequests`. -/
  isPending : Bool := true
  stream : ReadableStream Chunk := {}
  start : StartPromise := .waiting
  /-- The controller has thrown. -/
  thrown : Bool := false
  /-- The chunks that came after the start of the response. -/
  received : List Chunk := []
  /-- The terminals that took effect. -/
  terminals : List PreviewTerminalOutcome := []
  /-- The reasons for which the daemon was told to abort. -/
  aborts : List String := []

/-- What happens to a request. -/
inductive RequestEvent
  | responseStart (status : ℕ) (statusText : Option String) (headers : List (String × HeaderValue))
  | responseBody (chunk : Chunk)
  | responseEnd
  | error (code : String) (message : Option String)
      (terminalOutcome : Option PreviewTerminalOutcome)
  /-- The timer fires. -/
  | timeout
  /-- `abort` of the relay -/
  | abort (reason : Option String)
  | streamStarted
  | pullSettled
  /-- The consumer reads. -/
  | read
  /-- The consumer cancels the stream. -/
  | cancel

namespace Request

variable (limits : PreviewLimits) (request : Request)

/-- The request is found among the pending ones, and has no outcome. -/
def isOpen : Bool := request.isPending && request.terminalOutcome.isNone

/-- The outcome is set, and the timer cleared. -/
def terminate (outcome : PreviewTerminalOutcome) : Request :=
  { request with
    terminalOutcome := some outcome
    timer := none
    terminals := request.terminals ++ [outcome] }

/-- `rejectStart` -/
def rejectStart (message : String) : Request :=
  { request with
    start := match request.start with
      | .waiting => .rejected message
      | settled => settled }

/-- The consumer is told that the request has failed. -/
def reject (message : String) : Request :=
  if request.started then { request with stream := request.stream.error }
  else request.rejectStart message

/-- `sendPreviewControl` of an abort -/
def sendAbort (reason : String) : Request :=
  { request with aborts := request.aborts ++ [reason] }

/-- `failPreviewRequest` -/
def failPreviewRequest (code message : String) (outcome : PreviewTerminalOutcome) : Request :=
  if request.isOpen then
    { (request.terminate outcome).reject (if message = "" then code else message) with
      isPending := false }
  else request

/-- `abortPreviewRequest` -/
def abortPreviewRequest (reason : String) (propagate : Bool) : Request :=
  if request.isOpen then
    let request := { (request.terminate .aborted).reject reason with isPending := false }
    if propagate then request.sendAbort reason else request
  else request

/-- `flushPreviewChunksToStream` with at most `fuel` chunks: the loop, in which the stream may call
the pull, and with it the loop again. -/
def flushChunks : ℕ → Request → Request
  | 0, request => request
  | fuel + 1, request =>
    match request.pendingChunks with
    | [] => request
    | chunk :: chunks =>
      if request.stream.desiredSize.any (· ≤ 0) then request
      else
        let request := { request with
          pendingChunks := chunks
          unconsumedBytes := request.unconsumedBytes - chunk.length }
        match request.stream.enqueue chunk with
        | none => { request with thrown := true }
        | some (stream, pulls) =>
          let request := { request with stream := stream }
          let request := if pulls && request.isOpen then flushChunks fuel request else request
          flushChunks fuel request

/-- `flushPreviewChunksToStream` -/
def flushPreviewChunksToStream : Request :=
  if request.isOpen then flushChunks request.pendingChunks.length request else request

/-- `pull` of the stream, if it was called -/
def pull (pulls : Bool) : Request :=
  if pulls then request.flushPreviewChunksToStream else request

/-- `completePreviewRequest` hands over what is left. -/
def drain : List Chunk → Request → Request
  | [], request => request
  | chunk :: chunks, request =>
    let request := { request with unconsumedBytes := request.unconsumedBytes - chunk.length }
    match request.stream.enqueue chunk with
    | none => { request with thrown := true }
    | some (stream, pulls) => drain chunks ({ request with stream := stream }.pull pulls)

/-- `completePreviewRequest` -/
def completePreviewRequest (outcome : PreviewTerminalOutcome) : Request :=
  if request.isOpen then
    let request := request.terminate outcome
    if request.started then
      let request := drain request.pendingChunks request
      if request.thrown then request
      else
        match request.stream.close with
        | none => { request with thrown := true }
        | some stream =>
          { request with stream := stream, pendingChunks := [], isPending := false }
    else { request.rejectStart outcome.text with isPending := false }
  else request

/-- `resetPreviewTimeout` -/
def resetPreviewTimeout (mode : TimerMode) : Request :=
  if request.isOpen then { request with timer := some mode } else request

/-- `resolvePreviewStart` -/
def resolvePreviewStart (status : ℕ) (statusText : Option String)
    (headers : List (String × HeaderValue)) : Request :=
  if request.isOpen && !request.started then
    let request := { request with started := true, streaming := isStreamingResponse headers }
    { request.resetPreviewTimeout .idle with start := .resolved status statusText headers }
  else request

/-- `pushPreviewResponseChunk` -/
def pushPreviewResponseChunk (chunk : Chunk) : Request :=
  if request.isOpen then
    if !request.started then
      request.failPreviewRequest "invalid_request"
        "preview response body arrived before response start" .error
    else
      let request := { request with
        received := request.received ++ [chunk]
        responseBytes := request.responseBytes + chunk.length }
      if !request.streaming && limits.maxResponseBytes < request.responseBytes then
        (request.failPreviewRequest "limit_exceeded" "preview response exceeded max bytes"
          .limitExceeded).sendAbort "limit_exceeded"
      else
        let request := { request with
          unconsumedBytes := request.unconsumedBytes + chunk.length
          pendingChunks := request.pendingChunks ++ [chunk] }
        if limits.maxPreviewStreamBufferBytes < request.unconsumedBytes then
          (request.failPreviewRequest "limit_exceeded"
            "preview stream unconsumed buffer exceeded high-watermark" .limitExceeded).sendAbort
            "limit_exceeded"
        else (request.resetPreviewTimeout .idle).flushPreviewChunksToStream
  else request

/-- The timer fires. -/
def onTimeout : Request :=
  match request.timer with
  | none => request
  | some .start =>
      ({ request with timer := none }.failPreviewRequest "timeout"
        "preview relay response start timeout" .timeout).sendAbort "timeout"
  | some .idle =>
      let request := { request with timer := none }
      if request.isOpen then
        (request.failPreviewRequest "timeout"
          "preview relay stream idle timeout" .timeout).sendAbort "timeout"
      else request

/-- The consumer has the stream. -/
def isHanded : Bool :=
  match request.start with
  | .resolved .. => true
  | .waiting | .rejected _ => false

/-- The source of the stream goes on with what an operation left, and whether it called the
pull. -/
def withStream (result : ReadableStream Chunk × Bool) : Request :=
  { request with stream := result.1 }.pull result.2

/-- One event of a request. -/
def step (request : Request) : RequestEvent → Request
  | .responseStart status statusText headers =>
      request.resolvePreviewStart status statusText headers
  | .responseBody chunk => request.pushPreviewResponseChunk limits chunk
  | .responseEnd => request.completePreviewRequest .responseEnd
  | .error code message terminalOutcome =>
      request.failPreviewRequest code (message.getD "") (terminalOutcome.getD .error)
  | .timeout => request.onTimeout
  | .abort reason => request.abortPreviewRequest (reason.getD "aborted") true
  | .streamStarted => request.withStream request.stream.start
  | .pullSettled => request.withStream request.stream.pullSettled
  | .read => if request.isHanded then request.withStream request.stream.read else request
  | .cancel =>
      if request.isHanded then
        let (stream, told) := request.stream.cancel
        let request := { request with stream := stream }
        if told then request.abortPreviewRequest "aborted" true else request
      else request

end Request

/-! ## The relays of a server -/

/-- The requests that were made so far. -/
structure Relays where
  limits : PreviewLimits
  requests : List Request := []

/-- What happens to the relays. -/
inductive RelaysEvent
  /-- A request is to be forwarded for a preview. -/
  | forward (previewId : String)
  | request (i : ℕ) (event : RequestEvent)
  /-- The connection to the daemon is lost. -/
  | daemonLost (reason : String)
  /-- A preview is evicted. -/
  | previewEvicted (previewId : String)

namespace Relays

variable (relays : Relays)

/-- `pendingPreviewRequests` -/
def pendingPreviewRequests : List Request := relays.requests.filter (·.isPending)

/-- `canAcceptPreviewInflight` -/
def canAcceptPreviewInflight (previewId : String) : Bool :=
  if relays.limits.maxInflightPreviewHttpPerServer ≤ relays.pendingPreviewRequests.length then false
  else relays.pendingPreviewRequests.countP (·.previewId = previewId) <
    relays.limits.maxInflightPreviewHttpPerPreview

/-- `createPreviewRelay` -/
def createPreviewRelay (previewId : String) : Relays :=
  { relays with requests := relays.requests ++ [{ previewId := previewId }] }

/-- `rejectAllPendingPreviewRequests` -/
def rejectAllPendingPreviewRequests (reason : String) : Relays :=
  { relays with
    requests := relays.requests.map (·.abortPreviewRequest reason false) }

/-- `terminatePreviewRelaysForPreview` -/
def terminatePreviewRelaysForPreview (previewId : String) : Relays :=
  { relays with
    requests := relays.requests.map fun request =>
      if request.previewId = previewId then
        request.abortPreviewRequest "preview_expired" true
      else request }

/-- One event of the relays. -/
def step (relays : Relays) : RelaysEvent → Relays
  | .forward previewId =>
      if relays.canAcceptPreviewInflight previewId then relays.createPreviewRelay previewId
      else relays
  | .request i event =>
      { relays with requests := relays.requests.modify i fun request =>
          request.step relays.limits event }
  | .daemonLost reason => relays.rejectAllPendingPreviewRequests reason
  | .previewEvicted previewId => relays.terminatePreviewRelaysForPreview previewId

end Relays

end Imcodes.Preview
