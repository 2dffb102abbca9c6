import Imcodes.Discussion.Offsets
import Imcodes.Machine.Runs

/-!
# Incremental reads of a growing file

* `read_first`, `read_later`, `read_again` — a first call, a later one of a file of which something
  has been read, and one of a file of which nothing has.
* `follows_step` — what a run of such calls keeps.
* `lossless_iff` — a run of calls for one source reads the file through, part by part, and gives its
  text exactly when something has been read before each later call, and no later call that finds
  more begins inside a character.
-/

namespace Imcodes.Discussion

open Machine
open Utf8 (encode decode AtBoundary decode_append length_decode_append_lt)

/-! ## One read -/

section Calls

variable (sha256 : Sha256) (file : GrowingFile)

/-- A recorded offset is what the file makes of it at operation `n`.  An empty read leaves an empty
hash. -/
structure Marks (n : ℕ) (offset : RecordedReadOffset) : Prop where
  byteOffset_le : offset.byteOffset ≤ offset.sizeAtOffset
  sizeAtOffset_le : offset.sizeAtOffset ≤ (file.bytesAt n).length
  sha256Prefix : offset.sha256Prefix = if offset.byteOffset = 0 then "" else
    slicePrefix (sha256.digest ((file.bytesAt n).take offset.byteOffset)) SHA256_PREFIX_HEX_LENGTH

/-- A call reads the file from a place on and records where it stopped. -/
structure ReadsFrom (args : ReadDiscussionArgs) (n start : ℕ) (reset : ReadDiscussionResetReason)
    (result : ReadDiscussionResult) (range : ReadRangeResult) (reader : Reader) : Prop where
  later : n ≤ reader.next
  reset_eq : result.reset = reset
  start_eq : range.start = start
  content : result.content = String.ofList (decode range.slice)
  stop_le : start + range.bytesRead ≤ (file.bytesAt reader.next).length
  slice : range.slice = ((file.bytesAt reader.next).drop start).take range.bytesRead
  empty_iff : range.slice = [] ↔ (file.bytesAt n).length ≤ start
  byteOffset : result.newOffset.byteOffset = start + range.bytesRead
  marks : Marks sha256 file reader.next result.newOffset
  recorded : getRecordedReadOffset reader.offsets args.runId args.sourceKey = some result.newOffset

variable {sha256 file} {n m stop : ℕ} {offset : RecordedReadOffset}
variable {args : ReadDiscussionArgs} {reader : Reader} {now : String}

theorem Marks.of_le (h : Marks sha256 file n offset) (hle : n ≤ m) :
    Marks sha256 file m offset where
  byteOffset_le := h.byteOffset_le
  sizeAtOffset_le := h.sizeAtOffset_le.trans (file.length_le_of_le hle)
  sha256Prefix := by
    rw [h.sha256Prefix, GrowingFile.take_eq_of_le hle (h.byteOffset_le.trans h.sizeAtOffset_le)]

theorem slicePrefix_digest_ne_empty (sha256 : Sha256) (bytes : List UInt8) :
    slicePrefix (sha256.digest bytes) SHA256_PREFIX_HEX_LENGTH ≠ "" := by
  intro heq
  have hlength := congrArg String.length heq
  have hdigest := sha256.length_digest bytes
  rw [slicePrefix, String.length_ofList, List.length_take, String.length_toList, hdigest] at hlength
  exact absurd hlength (by decide)

/-- The first call. -/
theorem read_first (sha256 : Sha256) (file : GrowingFile) (args : ReadDiscussionArgs) (now : String)
    (hnone : getRecordedReadOffset reader.offsets args.runId args.sourceKey = none) :
    ∃ result range reader', readP2pDiscussionWithOffset sha256 file reader args now =
        (.ok (result, range), reader') ∧
      ReadsFrom sha256 file args reader.next 0 .fresh result range reader' := by
  unfold readP2pDiscussionWithOffset
  simp only [get?_bucketFor, hnone, readFromStart]
  generalize hcap : max 1 (args.maxBytes.getD DEFAULT_MAX_BYTES) = cap
  have hpos : 0 < cap := by omega
  have hgrow := file.length_le_of_le (Nat.le_add_right reader.next 1)
  generalize hstop : min (file.bytesAt reader.next).length cap = stop
  have hstop_le : stop ≤ (file.bytesAt (reader.next + 1)).length := by omega
  obtain ⟨m, hm, hnext, hrange⟩ := readRange_spec sha256 0 none hstop_le
  rw [Nat.sub_zero] at hrange
  have hslice : (file.read (reader.next + 1) stop 0).length = stop :=
    GrowingFile.length_read (by omega)
  refine ⟨_, _, _, rfl, ?_⟩
  rw [hrange, hnext]
  have hbytes : file.read (reader.next + 1) stop 0 = (file.bytesAt m).take stop := by
    rw [GrowingFile.read, List.drop_zero, GrowingFile.take_eq_of_le hm hstop_le]
  have hgrow' := file.length_le_of_le hm
  generalize file.read (reader.next + 1) stop 0 = slice at hslice hbytes ⊢
  exact
    { later := by dsimp only; omega
      reset_eq := rfl
      start_eq := rfl
      content := rfl
      stop_le := by
        simp only [ReadRangeResult.bytesRead, hslice]
        omega
      slice := by
        simp only [ReadRangeResult.bytesRead, hslice]
        rw [List.drop_zero, hbytes]
      empty_iff := by
        rw [← List.length_eq_zero_iff, hslice]
        omega
      byteOffset := by
        simp only [recordOffset, ReadRangeResult.bytesRead, hslice, Nat.zero_add]
      marks :=
        { byteOffset_le := by
            simp only [recordOffset, ReadRangeResult.bytesRead, hslice]
            omega
          sizeAtOffset_le := by
            simp only [recordOffset]
            omega
          sha256Prefix := by
            simp only [recordOffset, ReadRangeResult.bytesRead, hslice]
            by_cases hzero : stop = 0
            · rw [if_pos hzero, if_neg (by omega)]
              rfl
            · rw [if_neg hzero, if_pos ⟨trivial, by omega⟩, hbytes] }
      recorded := by
        rw [getRecordedReadOffset_recordOffset, if_pos ⟨rfl, rfl⟩]
        rfl }

/-- A later call of a file of which something has been read. -/
theorem read_later (args : ReadDiscussionArgs) (now : String)
    (hsome : getRecordedReadOffset reader.offsets args.runId args.sourceKey = some offset)
    (hmarks : Marks sha256 file reader.next offset) (hread : offset.byteOffset ≠ 0) :
    ∃ result range reader', readP2pDiscussionWithOffset sha256 file reader args now =
        (.ok (result, range), reader') ∧
      ReadsFrom sha256 file args reader.next offset.byteOffset .incremental result range
        reader' := by
  unfold readP2pDiscussionWithOffset
  simp only [get?_bucketFor, hsome]
  generalize hcap : max 1 (args.maxBytes.getD DEFAULT_MAX_BYTES) = cap
  have hpos : 0 < cap := by omega
  have hle := hmarks.byteOffset_le
  have hle' := hmarks.sizeAtOffset_le
  have hgrow := file.length_le_of_le (Nat.le_add_right reader.next 1)
  have hsize : ¬ (file.bytesAt reader.next).length < offset.sizeAtOffset := by omega
  have hsize' : ¬ (file.bytesAt reader.next).length < offset.byteOffset := by omega
  simp only [hsize, hsize', decide_false, Bool.or_false, Bool.false_eq_true, if_false,
    Bool.false_or]
  obtain ⟨k, hk, hhash⟩ := computePrefixHash_spec sha256
    (show offset.byteOffset ≤ (file.bytesAt (reader.next + 1)).length by omega)
  have hprefix := (hmarks.of_le (Nat.le_add_right _ 1)).sha256Prefix
  rw [if_neg hread] at hprefix
  simp only [hhash, ← hprefix, ne_eq, not_true_eq_false, decide_false, Bool.false_eq_true, if_false]
  generalize hstart : offset.byteOffset = start at *
  generalize hstop : min (file.bytesAt reader.next).length (start + cap) = stop
  have hgrow' := file.length_le_of_le hk
  have hstop_le : stop ≤ (file.bytesAt k).length := by omega
  obtain ⟨l, hl, hnext, hrange⟩ := readRange_spec sha256 start
    (some (sha256.digest ((file.bytesAt (reader.next + 1)).take start))) hstop_le
  have hslice : (file.read k (stop - start) start).length = stop - start :=
    GrowingFile.length_read (by omega)
  rw [hrange, hnext]
  have hbytes : file.read k (stop - start) start =
      ((file.bytesAt l).drop start).take (stop - start) :=
    (GrowingFile.read_eq_of_le hl (by omega)).symm
  have hgrow'' := file.length_le_of_le hl
  generalize file.read k (stop - start) start = slice at hslice hbytes ⊢
  simp only [ReadRangeResult.bytesRead, hslice]
  -- Nothing has to be hashed again when nothing was read.
  have hrehash : ∃ q, l ≤ q ∧ (if stop - start = 0 then
      (sha256.digest ((file.bytesAt (reader.next + 1)).take start), l)
      else computePrefixHash sha256 file l (start + (stop - start))) =
        (sha256.digest ((file.bytesAt l).take (start + (stop - start))), q) := by
    split
    · rename_i hempty
      have hsame : (file.bytesAt l).take (start + (stop - start)) =
          (file.bytesAt (reader.next + 1)).take start := by
        rw [hempty]
        exact GrowingFile.take_eq_of_le (by omega) (by omega)
      exact ⟨l, le_refl l, by rw [hsame]⟩
    · exact computePrefixHash_spec sha256 (by omega)
  obtain ⟨q, hq, hrehash⟩ := hrehash
  rw [hrehash]
  have hgrow3 := file.length_le_of_le hq
  refine ⟨_, _, _, rfl, ?_⟩
  exact
    { later := by dsimp only; omega
      reset_eq := rfl
      start_eq := rfl
      content := rfl
      stop_le := by
        simp only [ReadRangeResult.bytesRead, hslice]
        omega
      slice := by
        simp only [ReadRangeResult.bytesRead, hslice]
        rw [hbytes, List.take_drop, List.take_drop, GrowingFile.take_eq_of_le hq (by omega)]
      empty_iff := by
        rw [← List.length_eq_zero_iff, hslice]
        omega
      byteOffset := by simp only [recordOffset, ReadRangeResult.bytesRead, hslice]
      marks :=
        { byteOffset_le := by
            simp only [recordOffset]
            omega
          sizeAtOffset_le := by
            simp only [recordOffset]
            omega
          sha256Prefix := by
            have hne : start + (stop - start) ≠ 0 := by omega
            simp only [recordOffset]
            refine Eq.trans ?_ (if_neg hne).symm
            rw [GrowingFile.take_eq_of_le hq (by omega)] }
      recorded := by
        rw [getRecordedReadOffset_recordOffset, if_pos ⟨rfl, rfl⟩]
        rfl }

/-- A later call of a file of which nothing has been read takes it for another one. -/
theorem read_again
    (hsome : getRecordedReadOffset reader.offsets args.runId args.sourceKey = some offset)
    (hmarks : Marks sha256 file reader.next offset) (hzero : offset.byteOffset = 0)
    {result : ReadDiscussionResult} {range : ReadRangeResult}
    (hanswer : (readP2pDiscussionWithOffset sha256 file reader args now).1 = .ok (result, range)) :
    result.reset = .mismatchSafeReset := by
  have hprefix := hmarks.sha256Prefix
  rw [if_pos hzero] at hprefix
  have hempty : ∀ n, computePrefixHash sha256 file n 0 = (sha256.digest [], n) := fun _ => rfl
  have hne := slicePrefix_digest_ne_empty sha256 []
  have hsize : ¬ (file.bytesAt reader.next).length < offset.sizeAtOffset :=
    not_lt.2 hmarks.sizeAtOffset_le
  unfold readP2pDiscussionWithOffset at hanswer
  simp only [get?_bucketFor, hsome, hzero, hprefix, hempty, hsize, Nat.not_lt_zero, decide_false,
    Bool.or_false, Bool.false_eq_true, if_false, Bool.false_or, decide_eq_true hne, if_true,
    readFromStart] at hanswer
  split at hanswer
  · cases hanswer
  · cases hanswer
    rfl

end Calls

/-! ## Runs -/

/-- A call for the source, at a time. -/
structure ReadCall where
  policy : ReadDiscussionMismatchPolicy
  maxBytes : Option ℕ
  now : String

/-- The process and what it has answered. -/
structure Session where
  reader : Reader
  answers : List Answer

/-- Nothing is recorded yet. -/
def Session.start : Session :=
  { reader := { offsets := .empty, next := 0 }, answers := [] }

/-- A result and what it was read from. -/
abbrev Read := ReadDiscussionResult × ReadRangeResult

/-- All bytes that were read. -/
def consumed (reads : List Read) : List UInt8 :=
  reads.flatMap (·.2.slice)

/-- All texts that were returned. -/
def contents (reads : List Read) : String :=
  String.join (reads.map (·.1.content))

/-- The first read is fresh and every later one incremental. -/
def AreLabelled : List Read → Prop
  | [] => True
  | first :: later => first.1.reset = .fresh ∧ ∀ read ∈ later, read.1.reset = .incremental

/-- Every read starts where the one before it stopped. -/
def Tile (start : ℕ) : List Read → Prop
  | [] => True
  | read :: reads => read.2.start = start ∧ Tile (start + read.2.bytesRead) reads

/-- At all times the file holds this text or a beginning of it. -/
def GrowingFile.Spells (file : GrowingFile) (text : List Char) : Prop :=
  ∀ n, file.bytesAt n <+: encode text

/-- The reads go through the file, and return its text. -/
structure ReadThrough (file : GrowingFile) (session : Session) (reads : List Read) : Prop where
  answers : session.answers = reads.map Except.ok
  labelled : AreLabelled reads
  tile : Tile 0 reads
  consumed : consumed reads <+: file.bytesAt session.reader.next
  contents : ∀ text, file.Spells text →
    contents reads = String.ofList (decode (Discussion.consumed reads))

section Runs

variable (sha256 : Sha256) (file : GrowingFile) (runId sourceKey : String)

def Session.step (session : Session) (call : ReadCall) : Session :=
  let (answer, reader) := readP2pDiscussionWithOffset sha256 file session.reader
    { runId, sourceKey, policy := call.policy, maxBytes := call.maxBytes } call.now
  { reader, answers := session.answers ++ [answer] }

/-- No call lost or invented anything. -/
def Lossless (session : Session) : Prop :=
  ∃ reads, ReadThrough file session reads

/-- Of what the next call finds recorded: something has been read, and if the file holds a text,
nothing more is there or the next character begins here. -/
def GoesOnWhole (session : Session) : Prop :=
  ∀ offset ∈ getRecordedReadOffset session.reader.offsets runId sourceKey,
    offset.byteOffset ≠ 0 ∧ ∀ text, file.Spells text →
      (file.bytesAt session.reader.next).length ≤ offset.byteOffset ∨
        AtBoundary text offset.byteOffset

variable {sha256 file runId sourceKey} {session : Session} {reads : List Read} {read : Read}
variable {text : List Char} {start : ℕ} {call : ReadCall} {calls : List ReadCall}

theorem consumed_concat : consumed (reads ++ [read]) = consumed reads ++ read.2.slice := by
  rw [consumed, List.flatMap_append, List.flatMap_singleton]
  rfl

theorem contents_concat : contents (reads ++ [read]) = contents reads ++ read.1.content := by
  rw [contents, List.map_append, String.join, List.foldl_append]
  rfl

theorem areLabelled_concat : AreLabelled (reads ++ [read]) ↔ AreLabelled reads ∧
    read.1.reset = if reads = [] then .fresh else .incremental := by
  cases reads with
  | nil => simp [AreLabelled]
  | cons first later => simp [AreLabelled, or_imp, forall_and, and_assoc]

theorem AreLabelled.of_append {rest : List Read} (h : AreLabelled (reads ++ rest)) :
    AreLabelled reads := by
  cases reads with
  | nil => trivial
  | cons first later => exact ⟨h.1, fun read hread => h.2 read (List.mem_append_left _ hread)⟩

theorem tile_concat : Tile start (reads ++ [read]) ↔
    Tile start reads ∧ read.2.start = start + (consumed reads).length := by
  induction reads generalizing start with
  | nil => simp [Tile, consumed]
  | cons first reads ih =>
    simp only [List.cons_append, Tile, ih, and_assoc, consumed, List.flatMap_cons,
      List.length_append, ReadRangeResult.bytesRead, Nat.add_assoc]

/-- What holds as long as something has been read before every later call. -/
structure Follows (sha256 : Sha256) (file : GrowingFile) (runId sourceKey : String)
    (session : Session) (reads : List Read) : Prop where
  answers : session.answers = reads.map Except.ok
  labelled : AreLabelled reads
  tile : Tile 0 reads
  consumed : consumed reads <+: file.bytesAt session.reader.next
  unread : reads = [] → getRecordedReadOffset session.reader.offsets runId sourceKey = none
  recorded : reads ≠ [] → ∃ offset,
    getRecordedReadOffset session.reader.offsets runId sourceKey = some offset ∧
      offset.byteOffset = (Discussion.consumed reads).length ∧
      Marks sha256 file session.reader.next offset

theorem follows_start (sha256 : Sha256) (file : GrowingFile) (runId sourceKey : String) :
    Follows sha256 file runId sourceKey .start [] where
  answers := rfl
  labelled := trivial
  tile := trivial
  consumed := List.nil_prefix
  unread _ := rfl
  recorded h := absurd rfl h

/-- A read appends to what was read. -/
theorem follows_append (h : Follows sha256 file runId sourceKey session reads) {reader : Reader}
    {args : ReadDiscussionArgs} (hrun : args.runId = runId) (hkey : args.sourceKey = sourceKey)
    {reset : ReadDiscussionResetReason}
    (hreset : reset = if reads = [] then .fresh else .incremental)
    (hread : ReadsFrom sha256 file args session.reader.next (consumed reads).length reset read.1
      read.2 reader) :
    Follows sha256 file runId sourceKey
      { reader, answers := session.answers ++ [.ok read] } (reads ++ [read]) where
  answers := by rw [h.answers, List.map_append, List.map_singleton]
  labelled := areLabelled_concat.2 ⟨h.labelled, hread.reset_eq.trans hreset⟩
  tile := tile_concat.2 ⟨h.tile, by rw [hread.start_eq, Nat.zero_add]⟩
  consumed := by
    have hbefore := List.prefix_iff_eq_take.1
      (h.consumed.trans (file.prefix_of_le hread.later))
    have hafter : consumed (reads ++ [read]) = (file.bytesAt reader.next).take
        ((consumed reads).length + read.2.bytesRead) := by
      rw [consumed_concat, List.take_add, ← hbefore, ← hread.slice]
    rw [hafter]
    exact List.take_prefix _ _
  unread hnil := absurd hnil (by simp)
  recorded _ := ⟨read.1.newOffset, hrun ▸ hkey ▸ hread.recorded, by
    rw [hread.byteOffset, consumed_concat, List.length_append]
    rfl, hread.marks⟩

/-- A call of a source of which something has been read, or the first one. -/
theorem follows_step (call : ReadCall)
    (h : Follows sha256 file runId sourceKey session reads)
    (hread : reads = [] ∨ consumed reads ≠ []) :
    ∃ read, Follows sha256 file runId sourceKey
        (session.step sha256 file runId sourceKey call) (reads ++ [read]) ∧
      read.1.content = String.ofList (decode read.2.slice) ∧
      (read.2.slice = [] ↔
        (file.bytesAt session.reader.next).length ≤ (consumed reads).length) := by
  let args : ReadDiscussionArgs :=
    { runId, sourceKey, policy := call.policy, maxBytes := call.maxBytes }
  have hanswer : ∃ reset result range reader,
      reset = (if reads = [] then .fresh else .incremental) ∧
      readP2pDiscussionWithOffset sha256 file session.reader args call.now =
        (.ok (result, range), reader) ∧
      ReadsFrom sha256 file args session.reader.next (consumed reads).length reset result range
        reader := by
    by_cases hnil : reads = []
    · obtain ⟨result, range, reader, hanswer, hfrom⟩ :=
        read_first sha256 file args call.now (h.unread hnil)
      exact ⟨.fresh, result, range, reader, (if_pos hnil).symm, hanswer, by rwa [hnil]⟩
    · obtain ⟨offset, hsome, hoffset, hmarks⟩ := h.recorded hnil
      have hpos : offset.byteOffset ≠ 0 := by
        rw [hoffset, ne_eq, List.length_eq_zero_iff]
        exact hread.resolve_left hnil
      obtain ⟨result, range, reader, hanswer, hfrom⟩ :=
        read_later args call.now hsome hmarks hpos
      exact ⟨.incremental, result, range, reader, (if_neg hnil).symm, hanswer, hoffset ▸ hfrom⟩
  obtain ⟨reset, result, range, reader, hreset, hanswer, hfrom⟩ := hanswer
  refine ⟨(result, range), ?_, hfrom.content, hfrom.empty_iff⟩
  rw [Session.step, hanswer]
  exact follows_append h rfl rfl hreset hfrom

/-- What is answered stays answered. -/
theorem answers_run (sha256 : Sha256) (file : GrowingFile) (runId sourceKey : String)
    (calls : List ReadCall) (session : Session) :
    session.answers <+: (run (Session.step sha256 file runId sourceKey) calls session).answers := by
  induction calls generalizing session with
  | nil => exact List.prefix_refl _
  | cons call calls ih => exact (List.prefix_append _ _).trans (ih (session.step ..))

/-- A later call of a source of which nothing has been read is not incremental. -/
theorem not_lossless_of_unread (call : ReadCall) (calls : List ReadCall)
    (h : Follows sha256 file runId sourceKey session reads)
    (hnil : reads ≠ []) (hread : consumed reads = []) :
    ¬ Lossless file (run (Session.step sha256 file runId sourceKey) (call :: calls) session) := by
  rintro ⟨all, hthrough⟩
  obtain ⟨offset, hsome, hoffset, hmarks⟩ := h.recorded hnil
  rw [hread, List.length_nil] at hoffset
  obtain ⟨rest, hrest⟩ := answers_run sha256 file runId sourceKey calls
    (session.step sha256 file runId sourceKey call)
  rw [← @run_cons _ _ (Session.step sha256 file runId sourceKey), hthrough.answers, Session.step,
    h.answers] at hrest
  obtain ⟨front, after, rfl, hfront, -⟩ := List.map_eq_append_iff.1 hrest.symm
  obtain ⟨before, last, rfl, hbefore, hlast⟩ := List.map_eq_append_iff.1 hfront
  obtain ⟨read, rfl, hanswer⟩ := List.map_eq_singleton_iff.1 hlast
  have hlabel := (areLabelled_concat.1 hthrough.labelled.of_append).2
  rw [read_again hsome hmarks hoffset hanswer.symm, if_neg] at hlabel
  · exact absurd hlabel (by decide)
  · rintro rfl
    exact hnil (List.map_eq_nil_iff.1 hbefore.symm)

/-! ## Texts -/

/-- The texts returned so far are longer than what was read. -/
def IsLonger (reads : List Read) : Prop :=
  (decode (consumed reads)).length < (contents reads).length

theorem length_contents_concat (hcontent : read.1.content = String.ofList (decode read.2.slice)) :
    (contents (reads ++ [read])).length =
      (contents reads).length + (decode read.2.slice).length := by
  rw [contents_concat, String.length_append, hcontent, String.length_ofList]

/-- A cut never makes the decoding shorter. -/
theorem length_decode_append_le {bytes rest : List UInt8} (h : bytes ++ rest <+: encode text) :
    (decode (bytes ++ rest)).length ≤ (decode bytes).length + (decode rest).length := by
  by_cases hwhole : AtBoundary text bytes.length
  · rw [decode_append hwhole ((List.prefix_append _ _).trans h), List.length_append]
  · by_cases hnil : rest = []
    · rw [hnil, List.append_nil]
      exact Nat.le_add_right _ _
    · exact (length_decode_append_lt hwhole h hnil).le

theorem IsLonger.concat (h : IsLonger reads)
    (hcontent : read.1.content = String.ofList (decode read.2.slice))
    (htext : consumed (reads ++ [read]) <+: encode text) : IsLonger (reads ++ [read]) := by
  rw [consumed_concat] at htext
  have hle := length_decode_append_le htext
  rw [IsLonger, length_contents_concat hcontent, consumed_concat]
  rw [IsLonger] at h
  omega

/-- A read that begins inside a character makes the texts longer than what was read. -/
theorem isLonger_concat (h : contents reads = String.ofList (decode (consumed reads)))
    (hcontent : read.1.content = String.ofList (decode read.2.slice))
    (htext : consumed (reads ++ [read]) <+: encode text) (hslice : read.2.slice ≠ [])
    (hcut : ¬ AtBoundary text (consumed reads).length) : IsLonger (reads ++ [read]) := by
  rw [consumed_concat] at htext
  rw [IsLonger, length_contents_concat hcontent, consumed_concat, h, String.length_ofList]
  exact length_decode_append_lt hcut htext hslice

theorem contents_concat_eq (h : contents reads = String.ofList (decode (consumed reads)))
    (hcontent : read.1.content = String.ofList (decode read.2.slice))
    (htext : consumed reads <+: encode text)
    (hwhole : read.2.slice = [] ∨ AtBoundary text (consumed reads).length) :
    contents (reads ++ [read]) = String.ofList (decode (consumed (reads ++ [read]))) := by
  rw [contents_concat, consumed_concat, h, hcontent, ← String.ofList_append]
  rcases hwhole with hnil | hwhole
  · rw [hnil, List.append_nil]
    exact congrArg String.ofList (List.append_nil _)
  · rw [decode_append hwhole htext]
theorem not_lossless_of_longer (h : Follows sha256 file runId sourceKey session reads)
    (hread : consumed reads ≠ []) (htext : file.Spells text) (hlonger : IsLonger reads) :
    ¬ Lossless file (run (Session.step sha256 file runId sourceKey) calls session) := by
  induction calls generalizing session reads with
  | nil =>
    rintro ⟨all, hthrough⟩
    obtain rfl : all = reads := List.map_injective_iff.2 (fun _ _ => Except.ok.inj)
      (hthrough.answers.symm.trans h.answers)
    rw [IsLonger, hthrough.contents text htext, String.length_ofList] at hlonger
    exact lt_irrefl _ hlonger
  | cons call calls ih =>
    obtain ⟨read, hfollows, hcontent, -⟩ := follows_step call h (Or.inr hread)
    refine ih hfollows ?_ (hlonger.concat hcontent (hfollows.consumed.trans (htext _)))
    rw [consumed_concat]
    exact List.append_ne_nil_of_left_ne_nil hread _

/-- From a state that follows the file, the calls to come lose nothing exactly when each goes on
where a character begins. -/
theorem Follows.isLossless_iff (h : Follows sha256 file runId sourceKey session reads)
    (hcontents : ∀ text, file.Spells text →
      contents reads = String.ofList (decode (Discussion.consumed reads))) :
    Lossless file (run (Session.step sha256 file runId sourceKey) calls session) ↔
      Along (Session.step sha256 file runId sourceKey)
        (fun session _ => GoesOnWhole file runId sourceKey session) calls session := by
  induction calls generalizing session reads with
  | nil =>
    exact iff_of_true ⟨reads, h.answers, h.labelled, h.tile, h.consumed, hcontents⟩ trivial
  | cons call calls ih =>
    by_cases hwhole : GoesOnWhole file runId sourceKey session
    · have hread : reads = [] ∨ Discussion.consumed reads ≠ [] := by
        by_contra! hnot
        obtain ⟨offset, hsome, hoffset, -⟩ := h.recorded hnot.1
        exact (hwhole offset hsome).1 (by rw [hoffset, hnot.2, List.length_nil])
      obtain ⟨read, hfollows, hcontent, hempty⟩ := follows_step call h hread
      rw [run_cons, Along, and_iff_right hwhole]
      refine ih hfollows fun text htext => contents_concat_eq (hcontents text htext) hcontent
        (h.consumed.trans (htext _)) ?_
      by_cases hnil : reads = []
      · subst hnil
        exact Or.inr Utf8.atBoundary_zero
      · obtain ⟨offset, hsome, hoffset, -⟩ := h.recorded hnil
        rw [hempty, ← hoffset]
        exact (hwhole offset hsome).2 text htext
    · refine iff_of_false ?_ fun hall => hwhole hall.1
      by_cases hnil : reads = []
      · exact absurd (fun offset hsome => by rw [h.unread hnil] at hsome; cases hsome) hwhole
      obtain ⟨offset, hsome, hoffset, -⟩ := h.recorded hnil
      by_cases hread : Discussion.consumed reads = []
      · exact not_lossless_of_unread call calls h hnil hread
      · have hcut : ∃ text, file.Spells text ∧
            ¬ (file.bytesAt session.reader.next).length ≤ offset.byteOffset ∧
              ¬ AtBoundary text offset.byteOffset := by
          by_contra! hnot
          refine hwhole fun offset' hsome' => ?_
          obtain rfl := Option.some.inj (hsome.symm.trans hsome')
          refine ⟨?_, fun text htext =>
            or_iff_not_imp_left.2 fun hmore => hnot text htext (not_le.1 hmore)⟩
          rw [hoffset, ne_eq, List.length_eq_zero_iff]
          exact hread
        obtain ⟨text, htext, hmore, hcut⟩ := hcut
        obtain ⟨read, hfollows, hcontent, hempty⟩ := follows_step call h (Or.inr hread)
        rw [run_cons]
        refine not_lossless_of_longer hfollows ?_ htext (isLonger_concat (hcontents text htext)
          hcontent (hfollows.consumed.trans (htext _)) ?_ (hoffset ▸ hcut))
        · rw [consumed_concat]
          exact List.append_ne_nil_of_left_ne_nil hread _
        · rw [ne_eq, hempty, ← hoffset]
          exact hmore

/-- Calls for one source read its file through and give its text exactly when something has been
read before every later call, and if the file holds a text, none that finds more begins inside a
character. -/
theorem lossless_iff (sha256 : Sha256) (file : GrowingFile) (runId sourceKey : String)
    (calls : List ReadCall) :
    Lossless file (run (Session.step sha256 file runId sourceKey) calls .start) ↔
      Along (Session.step sha256 file runId sourceKey)
        (fun session _ => GoesOnWhole file runId sourceKey session) calls .start :=
  (follows_start sha256 file runId sourceKey).isLossless_iff fun _ _ => rfl

/-- A discussion that is empty at first: nothing, and then a letter. -/
def writtenLate : GrowingFile where
  bytesAt
    | 0 => []
    | _ + 1 => [0x61]
  grows
    | 0 => List.nil_prefix
    | _ + 1 => List.prefix_refl _

/-- Whatever the digests are, the second read of a discussion that was empty is no incremental
one. -/
theorem not_lossless_writtenLate : ¬ ∃ sha256 : Sha256, ∀ (file : GrowingFile)
    (runId sourceKey : String) (calls : List ReadCall),
    Lossless file (run (Session.step sha256 file runId sourceKey) calls .start) := by
  rintro ⟨sha256, h⟩
  let call : ReadCall := { policy := .reset, maxBytes := none, now := "" }
  obtain ⟨read, hfollows, -, hempty⟩ := follows_step call
    (follows_start sha256 writtenLate "run" "a")
    (Or.inl rfl)
  refine not_lossless_of_unread call [] hfollows (by simp) ?_
    (h writtenLate "run" "a" [call, call])
  rw [consumed_concat]
  exact hempty.2 (le_refl 0)

end Runs

end Imcodes.Discussion
