import Imcodes.Collections.OrderedMap
import Imcodes.Encodings.Utf8
import Imcodes.Workflow.Types

/-!
# Reading a discussion from where the last read ended

A run remembers for each source how far it was read, with a hash of the bytes before that place.
The next read goes on from there when the file still begins with those bytes.

* `readRange_spec`, `computePrefixHash_spec` — what reading gives of a file that only grows.
* `getRecordedReadOffset_recordOffset` — what is recorded for one source and no other.
-/

namespace Imcodes.Discussion

open Workflow

/-! ## Files and digests -/

/-- A file that is only appended to: what it holds at each operation on it, counted from zero. -/
structure GrowingFile where
  bytesAt : ℕ → List UInt8
  grows : ∀ n, bytesAt n <+: bytesAt (n + 1)

/-- `createHash('sha256')`: the digest of all bytes in hexadecimal. -/
structure Sha256 where
  digest : List UInt8 → String
  length_digest : ∀ bytes, (digest bytes).length = 64

instance : Inhabited Sha256 :=
  ⟨{ digest := fun _ => String.ofList (List.replicate 64 '0')
     length_digest := fun _ => by rw [String.length_ofList, List.length_replicate] }⟩

/-- `text.slice(0, length)` -/
def slicePrefix (text : String) (length : ℕ) : String :=
  String.ofList (text.toList.take length)

/-- First 16 hex chars of sha256(file contents read so far). -/
def SHA256_PREFIX_HEX_LENGTH : ℕ := 16

/-- The cap of a read for which the caller gives none. -/
def DEFAULT_MAX_BYTES : ℕ := 256 * 1024

/-! ## Recorded offsets -/

structure RecordedReadOffset where
  byteOffset : ℕ
  sha256Prefix : String
  /-- The size of the file when the offset was recorded. -/
  sizeAtOffset : ℕ
  recordedAt : String
  deriving DecidableEq

/-- The offsets of each source, by run. -/
abbrev ReadOffsets := OrderedMap String (OrderedMap String RecordedReadOffset)

def bucketFor (offsets : ReadOffsets) (runId : String) :
    OrderedMap String RecordedReadOffset × ReadOffsets :=
  match offsets.get? runId with
  | some bucket => (bucket, offsets)
  | none => (.empty, offsets.set runId .empty)

def getRecordedReadOffset (offsets : ReadOffsets) (runId sourceKey : String) :
    Option RecordedReadOffset :=
  (offsets.get? runId).bind (·.get? sourceKey)

def recordOffset (offsets : ReadOffsets) (now runId sourceKey : String)
    (byteOffset sizeAtOffset : ℕ) (prefixHashFull : String) : RecordedReadOffset × ReadOffsets :=
  let offset : RecordedReadOffset :=
    { byteOffset
      sha256Prefix := slicePrefix prefixHashFull SHA256_PREFIX_HEX_LENGTH
      sizeAtOffset
      recordedAt := now }
  let (bucket, offsets) := bucketFor offsets runId
  (offset, offsets.set runId (bucket.set sourceKey offset))

variable {offsets : ReadOffsets} {now runId sourceKey runId' sourceKey' prefixHashFull : String}
variable {byteOffset sizeAtOffset : ℕ}

theorem getRecordedReadOffset_bucketFor :
    getRecordedReadOffset (bucketFor offsets runId).2 runId' sourceKey' =
      getRecordedReadOffset offsets runId' sourceKey' := by
  unfold bucketFor
  split
  · rfl
  · rename_i hnone
    rw [getRecordedReadOffset, OrderedMap.get?_set]
    split
    · rename_i heq
      rw [getRecordedReadOffset, heq, hnone]
      rfl
    · rfl

theorem get?_bucketFor :
    (bucketFor offsets runId).1.get? sourceKey = getRecordedReadOffset offsets runId sourceKey := by
  unfold bucketFor getRecordedReadOffset
  split
  · rename_i hsome
    rw [hsome]
    rfl
  · rename_i hnone
    rw [hnone]
    rfl

theorem getRecordedReadOffset_recordOffset :
    getRecordedReadOffset
        (recordOffset offsets now runId sourceKey byteOffset sizeAtOffset prefixHashFull).2
        runId' sourceKey' =
      if runId' = runId ∧ sourceKey' = sourceKey then
        some { byteOffset
               sha256Prefix := slicePrefix prefixHashFull SHA256_PREFIX_HEX_LENGTH
               sizeAtOffset
               recordedAt := now }
      else getRecordedReadOffset offsets runId' sourceKey' := by
  rw [recordOffset, getRecordedReadOffset, OrderedMap.get?_set]
  by_cases hrun : runId' = runId
  · subst hrun
    rw [if_pos rfl, Option.bind_some, OrderedMap.get?_set, get?_bucketFor]
    simp only [true_and]
  · rw [if_neg hrun, if_neg fun h => hrun h.1]
    exact getRecordedReadOffset_bucketFor

/-! ## Reading the file -/

namespace GrowingFile

variable (file : GrowingFile)

/-- `handle.read(buffer, 0, length, position)` as operation `n` -/
def read (n length position : ℕ) : List UInt8 :=
  ((file.bytesAt n).drop position).take length

variable {file} {n m length position : ℕ}

theorem prefix_of_le (file : GrowingFile) (h : n ≤ m) : file.bytesAt n <+: file.bytesAt m := by
  induction h with
  | refl => exact List.prefix_refl _
  | step _ ih => exact ih.trans (file.grows _)

theorem length_le_of_le (file : GrowingFile) (h : n ≤ m) : (file.bytesAt n).length ≤ (file.bytesAt m).length :=
  (file.prefix_of_le h).length_le

theorem take_eq_of_le (h : n ≤ m) (hlength : length ≤ (file.bytesAt n).length) :
    (file.bytesAt m).take length = (file.bytesAt n).take length := by
  obtain ⟨rest, heq⟩ := file.prefix_of_le h
  rw [← heq, List.take_append_of_le_length hlength]

/-- What was there before can be read later, and no less. -/
theorem read_eq_of_le (h : n ≤ m) (hlength : position + length ≤ (file.bytesAt n).length) :
    file.read m length position = file.read n length position := by
  rw [read, read, List.take_drop, List.take_drop, take_eq_of_le h hlength]

theorem length_read (hlength : position + length ≤ (file.bytesAt n).length) :
    (file.read n length position).length = length := by
  rw [read, List.length_take, List.length_drop]
  omega

end GrowingFile

structure ReadRangeResult where
  text : String
  prefixHashFull : String
  /-- What was read, and where from. -/
  slice : List UInt8
  start : ℕ
  deriving DecidableEq

def ReadRangeResult.bytesRead (range : ReadRangeResult) : ℕ :=
  range.slice.length

variable (sha256 : Sha256) (file : GrowingFile)

/-- Reading nothing is no operation on the file. -/
def readRange (n start stop : ℕ) (prefixHashSeed : Option String) : ReadRangeResult × ℕ :=
  let length := stop - start
  if length = 0 then
    ({ text := "", prefixHashFull := prefixHashSeed.getD "", slice := [], start }, n)
  else
    let slice := file.read n length start
    ({ text := String.ofList (Utf8.decode slice)
       prefixHashFull :=
        if start = 0 ∧ 0 < slice.length then sha256.digest slice else prefixHashSeed.getD ""
       slice
       start }, n + 1)

/-- How much of the file is hashed at once. -/
def chunkSize : ℕ := 64 * 1024

/-- The loop of `computePrefixHash`: the hashed bytes, and the next operation.  At least one byte is
hashed each time. -/
def hashChunks : ℕ → ℕ → ℕ → ℕ → List UInt8 → List UInt8 × ℕ
  | 0, n, _, _, hashed => (hashed, n)
  | fuel + 1, n, remaining, position, hashed =>
    if remaining = 0 then (hashed, n)
    else
      let chunk := file.read n (min chunkSize remaining) position
      if chunk.length = 0 then (hashed, n + 1)
      else hashChunks fuel (n + 1) (remaining - chunk.length) (position + chunk.length)
        (hashed ++ chunk)

def computePrefixHash (n byteOffset : ℕ) : String × ℕ :=
  if byteOffset = 0 then (sha256.digest [], n)
  else
    let (hashed, n) := hashChunks file byteOffset n byteOffset 0 []
    (sha256.digest hashed, n)

section Spec

variable {sha256 : Sha256} {file : GrowingFile} {n m start stop fuel remaining position : ℕ}
variable {seed : Option String} {hashed : List UInt8}

theorem readRange_spec (sha256 : Sha256) (start : ℕ) (seed : Option String)
    (hsize : stop ≤ (file.bytesAt n).length) :
    ∃ m, n ≤ m ∧ (readRange sha256 file n start stop seed).2 = m ∧
      (readRange sha256 file n start stop seed).1 =
        { text := String.ofList (Utf8.decode (file.read n (stop - start) start))
          prefixHashFull := if start = 0 ∧ 0 < stop then
              sha256.digest (file.read n (stop - start) start) else seed.getD ""
          slice := file.read n (stop - start) start
          start } := by
  unfold readRange
  by_cases hempty : stop - start = 0
  · refine ⟨n, le_refl n, by simp only [hempty, if_pos], ?_⟩
    simp only [hempty, if_pos, GrowingFile.read, List.take_zero]
    rw [if_neg (by omega)]
    rfl
  · refine ⟨n + 1, Nat.le_succ n, by simp only [hempty, if_neg, not_false_iff], ?_⟩
    have hlength : (file.read n (stop - start) start).length = stop - start :=
      GrowingFile.length_read (by omega)
    simp only [hempty, if_neg, not_false_iff, hlength]
    congr 2
    exact propext ⟨fun h => ⟨h.1, by omega⟩, fun h => ⟨h.1, by omega⟩⟩

/-- The hashed bytes are those of the file, whatever is appended between two chunks. -/
theorem hashChunks_spec (hfuel : remaining ≤ fuel)
    (hsize : position + remaining ≤ (file.bytesAt n).length)
    (hhashed : hashed = (file.bytesAt n).take position) :
    n ≤ (hashChunks file fuel n remaining position hashed).2 ∧
      (hashChunks file fuel n remaining position hashed).1 =
        (file.bytesAt n).take (position + remaining) := by
  induction fuel generalizing n remaining position hashed with
  | zero =>
    obtain rfl : remaining = 0 := Nat.le_zero.1 hfuel
    exact ⟨le_refl n, hhashed⟩
  | succ fuel ih =>
    rw [hashChunks]
    split
    · rename_i hdone
      subst hdone
      exact ⟨le_refl n, hhashed⟩
    · rename_i hmore
      have hchunk : min chunkSize remaining ≤ remaining := min_le_right _ _
      have hpos : 0 < min chunkSize remaining :=
        lt_min (by decide) (Nat.pos_of_ne_zero hmore)
      have hlength : (file.read n (min chunkSize remaining) position).length =
          min chunkSize remaining := GrowingFile.length_read (by omega)
      simp only [hlength]
      rw [if_neg (by omega)]
      have hle := file.length_le_of_le (Nat.le_add_right n 1)
      obtain ⟨hn, heq⟩ := @ih (n + 1) (remaining - min chunkSize remaining)
        (position + min chunkSize remaining)
        (hashed ++ file.read n (min chunkSize remaining) position) (by omega) (by omega) (by
          rw [hhashed, GrowingFile.read, ← List.take_add,
            GrowingFile.take_eq_of_le (Nat.le_add_right n 1) (by omega)])
      refine ⟨by omega, heq.trans ?_⟩
      rw [show position + min chunkSize remaining + (remaining - min chunkSize remaining) =
        position + remaining by omega, GrowingFile.take_eq_of_le (Nat.le_add_right n 1) hsize]

theorem computePrefixHash_spec (sha256 : Sha256) (hsize : byteOffset ≤ (file.bytesAt n).length) :
    ∃ m, n ≤ m ∧ computePrefixHash sha256 file n byteOffset =
      (sha256.digest ((file.bytesAt n).take byteOffset), m) := by
  unfold computePrefixHash
  split
  · rename_i hzero
    rw [hzero, List.take_zero]
    exact ⟨n, le_refl n, rfl⟩
  · obtain ⟨hn, heq⟩ := hashChunks_spec (le_refl byteOffset) (by rwa [Nat.zero_add])
      (show [] = (file.bytesAt n).take 0 from rfl)
    rw [Nat.zero_add] at heq
    exact ⟨_, hn, Prod.ext (congrArg sha256.digest heq) rfl⟩

end Spec

/-! ## A read -/

inductive ReadDiscussionResetReason
  | fresh | mismatchSafeReset | mismatchFailClosed | incremental
  deriving DecidableEq

inductive ReadDiscussionMismatchPolicy
  | fail | reset
  deriving DecidableEq

structure ReadDiscussionResult where
  content : String
  newOffset : RecordedReadOffset
  reset : ReadDiscussionResetReason
  diagnostics : List P2pWorkflowDiagnostic
  deriving DecidableEq

/-- The error of a read that fails closed. -/
structure OffsetMismatchError where
  code : String
  diagnostic : P2pWorkflowDiagnostic
  result : ReadDiscussionResult
  deriving DecidableEq

structure ReadDiscussionArgs where
  runId : String
  sourceKey : String
  policy : ReadDiscussionMismatchPolicy
  maxBytes : Option ℕ
  deriving DecidableEq

def makeP2pWorkflowWarning (code : P2pWorkflowDiagnosticCode) (phase : P2pWorkflowDiagnosticPhase)
    (extras : DiagnosticExtras) : P2pWorkflowDiagnostic :=
  { makeP2pWorkflowDiagnostic code phase extras with severity := .warning }

/-- What the process keeps, and the number of the next operation on the file. -/
structure Reader where
  offsets : ReadOffsets
  next : ℕ

/-- The answer to a call, and for one that is not refused what it read. -/
abbrev Answer := Except OffsetMismatchError (ReadDiscussionResult × ReadRangeResult)

/-- The bounded read from the beginning, for a first call and after a mismatch. -/
def readFromStart (offsets : ReadOffsets) (args : ReadDiscussionArgs) (now : String)
    (n fileSize maxBytes : ℕ) (reset : ReadDiscussionResetReason)
    (diagnostics : List P2pWorkflowDiagnostic) : Answer × Reader :=
  let stop := min fileSize maxBytes
  let (range, n) := readRange sha256 file n 0 stop none
  let (newOffset, offsets) :=
    recordOffset offsets now args.runId args.sourceKey range.bytesRead fileSize range.prefixHashFull
  (.ok ({ content := range.text, newOffset, reset, diagnostics }, range), { offsets, next := n })

def readP2pDiscussionWithOffset (reader : Reader) (args : ReadDiscussionArgs) (now : String) :
    Answer × Reader :=
  let maxBytes := max 1 (args.maxBytes.getD DEFAULT_MAX_BYTES)
  let fileSize := (file.bytesAt reader.next).length
  let n := reader.next + 1
  let (bucket, offsets) := bucketFor reader.offsets args.runId
  match bucket.get? args.sourceKey with
  | none => readFromStart sha256 file offsets args now n fileSize maxBytes .fresh []
  | some previous =>
    let shrunk : Bool := fileSize < previous.sizeAtOffset || fileSize < previous.byteOffset
    let (prefixHashFull, n) :=
      if shrunk then ("", n) else computePrefixHash sha256 file n previous.byteOffset
    let mismatch : Bool := shrunk ||
      slicePrefix prefixHashFull SHA256_PREFIX_HEX_LENGTH ≠ previous.sha256Prefix
    if mismatch then
      match args.policy with
      | .fail =>
        let diagnostic := makeP2pWorkflowDiagnostic .missingContextSource .execute
          { runId := args.runId
            fieldPath := "discussionOffset." ++ args.sourceKey
            summary := "Discussion source diverged from recorded read offset; " ++
              "failing closed per policy." }
        (.error
          { code := "discussion_read_offset_mismatch"
            diagnostic
            result :=
              { content := ""
                newOffset := previous
                reset := .mismatchFailClosed
                diagnostics := [diagnostic] } }, { offsets, next := n })
      | .reset =>
        readFromStart sha256 file offsets args now n fileSize maxBytes .mismatchSafeReset
          [makeP2pWorkflowWarning .missingContextSource .execute
            { runId := args.runId
              fieldPath := "discussionOffset." ++ args.sourceKey
              summary := "Discussion source diverged from recorded read offset; " ++
                "safely reset to full bounded read." }]
    else
      let start := previous.byteOffset
      let stop := min fileSize (start + maxBytes)
      let (range, n) := readRange sha256 file n start stop (some prefixHashFull)
      let advancedOffset := start + range.bytesRead
      let (newPrefixFull, n) :=
        if range.bytesRead = 0 then (prefixHashFull, n)
        else computePrefixHash sha256 file n advancedOffset
      let (newOffset, offsets) := recordOffset offsets now args.runId args.sourceKey
        advancedOffset fileSize newPrefixFull
      (.ok ({ content := range.text, newOffset, reset := .incremental, diagnostics := [] }, range),
        { offsets, next := n })

end Imcodes.Discussion
