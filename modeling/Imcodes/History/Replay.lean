import Imcodes.Collections.Lines
import Imcodes.Encodings.Utf8Tail
import Imcodes.History.Events

/-!
# Replaying the history of a transport session

The history of a session is a file with one event a line. For a replay it is read backward from its
end until 201 line breaks are seen or 16 MiB are read, and decoded once.

* `replayTransportHistory_eq_iff` — this gives the events of the last 200 lines of the file, unless
  these lines take 16 MiB to the byte and there are more.
* `isLongestWithinBudget_iff` — of these events the last are sent that fit.
-/

namespace Imcodes.History

open Utf8 Lines

/-! ## The file -/

variable (numbers : Json.NumberText)

/-- `JSON.stringify(sanitizeTransportHistoryEvent({ ...event, _ts: Date.now() }))` -/
def historyLine (event : Fields) (now : ℕ) : List Char :=
  Json.stringify numbers (.object (sanitizeTransportHistoryEvent (event.put "_ts" (.number now))))

/-- Append a transport event to the session's file. -/
def appendTransportEvent (file : List UInt8) (event : Fields) (now : ℕ) : List UInt8 :=
  if shouldKeepTransportHistoryEvent event then
    file ++ encode (historyLine numbers event now ++ ['\n'])
  else file

/-- The file after these events. -/
def written (events : List (Fields × ℕ)) : List UInt8 :=
  events.foldl (fun file call => appendTransportEvent numbers file call.1 call.2) []

/-! ## Reading its end -/

def MAX_REPLAY_LINES : ℕ := 200

/-- 64 KiB per read -/
def TAIL_CHUNK_BYTES : ℕ := 64 * 1024

/-- 16 MiB cap -/
def MAX_TAIL_BYTES : ℕ := 16 * 1024 * 1024

def NEWLINE_BYTE : UInt8 := 0x0a

def WANT_NEWLINES : ℕ := MAX_REPLAY_LINES + 1

/-- The variables of the loop. -/
structure TailScan where
  offset : ℕ
  buf : List UInt8
  newlineCount : ℕ

def readSize (file : List UInt8) (scan : TailScan) : ℕ :=
  let remaining := MAX_TAIL_BYTES - (file.length - scan.offset)
  min (min TAIL_CHUNK_BYTES scan.offset) remaining

/-- One turn of the loop. -/
def readChunk (file : List UInt8) (scan : TailScan) : TailScan :=
  let offset := scan.offset - readSize file scan
  let next := (file.drop offset).take (readSize file scan)
  { offset
    newlineCount := scan.newlineCount + next.count NEWLINE_BYTE
    buf := if scan.buf.length = 0 then next else next ++ scan.buf }

def scanTail (file : List UInt8) (scan : TailScan) : TailScan :=
  if 0 < scan.offset ∧ scan.newlineCount < WANT_NEWLINES ∧
      file.length - scan.offset < MAX_TAIL_BYTES then
    scanTail file (readChunk file scan)
  else scan
termination_by scan.offset
decreasing_by
  rename_i h
  have hsize : 0 < TAIL_CHUNK_BYTES := by decide
  simp only [readChunk, readSize]
  omega

/-- `lines.slice(-MAX_REPLAY_LINES)` -/
def lastLines (lines : List (List Char)) : List (List Char) :=
  lines.drop (lines.length - MAX_REPLAY_LINES)

/-- `content.indexOf('\n') + 1` -/
def firstLineEnd (content : List Char) : ℕ :=
  match content.idxOf? '\n' with
  | some index => index + 1
  | none => 0

/-- `content.slice(partialStart).split('\n').filter(Boolean)` -/
def TailScan.lines (scan : TailScan) : List (List Char) :=
  let content := decode scan.buf
  -- what comes before the first line break may be the end of a line only
  let partialStart := if scan.offset = 0 then 0 else firstLineEnd content
  nonEmpty ((content.drop partialStart).splitOn '\n')

/-- The lines that are replayed. -/
def recentLines (file : List UInt8) : List (List Char) :=
  lastLines (scanTail file { offset := file.length, buf := [], newlineCount := 0 }).lines

variable (parse : List Char → Option Json)

/-- The event of a line; values that are not objects have no type, or cannot be asked for one. -/
def readLine (line : List Char) : Option Fields :=
  match parse line with
  | some (.object event) =>
    if shouldKeepTransportHistoryEvent event then some (sanitizeTransportHistoryEvent event)
    else none
  | _ => none

/-- Read recent history for a session; `none` is a file that cannot be opened. -/
def replayTransportHistory (file : Option (List UInt8)) : List Fields :=
  match file with
  | none => []
  | some file =>
    if file.length = 0 then []
    else (recentLines file).filterMap (readLine parse)

/-! ## The events that are sent -/

/-- `TIMELINE_PAYLOAD_BUDGET_BYTES.CHAT_HISTORY_TRACE_HARD_LIMIT` -/
def TRANSPORT_HISTORY_REPLAY_BUDGET_BYTES : ℕ := 1024 * 1024

def chatHistoryEnvelopeBytes (sessionId : String) (events : List Fields) : ℕ :=
  byteLength (Json.stringify numbers (.object
    [("type", .string "chat.history"), ("sessionId", .string sessionId),
      ("events", .array (events.map .object))]))

/-- The loop over the events, the last one first. -/
def keepNewest (sessionId : String) (kept : List Fields) : List Fields → List Fields
  | [] => kept
  | event :: events =>
    if TRANSPORT_HISTORY_REPLAY_BUDGET_BYTES <
        chatHistoryEnvelopeBytes numbers sessionId (event :: kept) then kept
    else keepNewest sessionId (event :: kept) events

def trimTransportHistoryEventsToReplayBudget (sessionId : String) (events : List Fields) :
    List Fields :=
  if events.length = 0 then events
  else if chatHistoryEnvelopeBytes numbers sessionId events ≤
      TRANSPORT_HISTORY_REPLAY_BUDGET_BYTES then events
  else keepNewest numbers sessionId [] events.reverse

/-! ## What a replay is compared with -/

/-- The lines of a file. -/
def fileLines (file : List UInt8) : List (List Char) :=
  nonEmpty ((decode file).splitOn '\n')

/-- The events of the last lines of the whole file. -/
def readWhole (file : List UInt8) : List Fields :=
  (lastLines (fileLines file)).filterMap (readLine parse)

/-- How many bytes the last lines take. -/
def lastLinesBytes (file : List UInt8) : ℕ :=
  (encode (unlines '\n' (lastLines (fileLines file)))).length

/-- The last events that fit into the budget, as many as there are. -/
structure IsLongestWithinBudget (sessionId : String) (events kept : List Fields) : Prop where
  suffix : kept <:+ events
  within : chatHistoryEnvelopeBytes numbers sessionId kept ≤ TRANSPORT_HISTORY_REPLAY_BUDGET_BYTES
  longest : ∀ other, other <:+ events →
    chatHistoryEnvelopeBytes numbers sessionId other ≤ TRANSPORT_HISTORY_REPLAY_BUDGET_BYTES →
      other.length ≤ kept.length

variable {numbers parse} {file : List UInt8} {scan : TailScan}
variable {lines older newest : List (List Char)}

/-! ## What is written -/

theorem historyLine_proper (event : Fields) (now : ℕ) :
    historyLine numbers event now ≠ [] ∧ '\n' ∉ historyLine numbers event now := by
  refine ⟨?_, Json.not_mem_stringify _⟩
  rw [historyLine, Json.stringify]
  exact List.cons_ne_nil _ _

/-- The lines of the events that are kept. -/
def keptLines (numbers : Json.NumberText) (events : List (Fields × ℕ)) : List (List Char) :=
  (events.filter fun call => shouldKeepTransportHistoryEvent call.1).map fun call =>
    historyLine numbers call.1 call.2

theorem keptLines_proper (events : List (Fields × ℕ)) :
    Proper '\n' (keptLines numbers events) := by
  intro line hline
  obtain ⟨call, -, rfl⟩ := List.mem_map.1 hline
  exact historyLine_proper _ _

/-- **The file** is a text of lines. -/
theorem written_eq (events : List (Fields × ℕ)) :
    written numbers events = encode (unlines '\n' (keptLines numbers events)) := by
  induction events using List.reverseRecOn with
  | nil => rfl
  | append_singleton events call ih =>
    rw [written, List.foldl_append, List.foldl_cons, List.foldl_nil]
    rw [written] at ih
    rw [ih, appendTransportEvent, keptLines, keptLines, List.filter_append, List.map_append]
    split
    · rename_i hkeep
      have hone : unlines '\n' [historyLine numbers call.1 call.2] =
          historyLine numbers call.1 call.2 ++ ['\n'] := unlines_cons
      have hfilter : [call].filter (fun call => shouldKeepTransportHistoryEvent call.1) = [call] :=
        List.filter_cons_of_pos hkeep
      rw [hfilter, List.map_singleton, unlines_append, hone, @encode_append (unlines '\n' _)]
    · rename_i hkeep
      have hfilter : [call].filter (fun call => shouldKeepTransportHistoryEvent call.1) = [] :=
        List.filter_cons_of_neg hkeep
      rw [hfilter, List.map_nil, List.append_nil]

theorem fileLines_encode (h : Proper '\n' lines) :
    fileLines (encode (unlines '\n' lines)) = lines := by
  rw [fileLines, decode_encode, nonEmpty_splitOn_unlines h]

/-! ## The scan -/

/-- What holds between two turns of the loop. -/
structure TailScan.Sound (file : List UInt8) (scan : TailScan) : Prop where
  offset : scan.offset ≤ file.length
  buf : scan.buf = file.drop scan.offset
  newlineCount : scan.newlineCount = scan.buf.count NEWLINE_BYTE
  cap : file.length - scan.offset ≤ MAX_TAIL_BYTES

/-- **One chunk** goes before what was read. -/
theorem sound_readChunk (h : scan.Sound file) : (readChunk file scan).Sound file := by
  obtain ⟨hoffset, hbuf, hcount, hcap⟩ := h
  have hsize : readSize file scan ≤ scan.offset :=
    (Nat.min_le_left _ _).trans (Nat.min_le_right _ _)
  have hremaining : readSize file scan ≤ MAX_TAIL_BYTES - (file.length - scan.offset) :=
    Nat.min_le_right _ _
  have hjoin : (readChunk file scan).buf =
      (file.drop (scan.offset - readSize file scan)).take (readSize file scan) ++ scan.buf := by
    simp only [readChunk]
    split
    · rename_i hnil
      rw [List.eq_nil_of_length_eq_zero hnil, List.append_nil]
    · rfl
  constructor
  · simp only [readChunk]
    omega
  · have hdrop : file.drop scan.offset =
        (file.drop (scan.offset - readSize file scan)).drop (readSize file scan) := by
      rw [List.drop_drop, Nat.sub_add_cancel hsize]
    rw [hjoin, hbuf, hdrop, List.take_append_drop]
    rfl
  · rw [hjoin, List.count_append, Nat.add_comm, ← hcount]
    rfl
  · simp only [readChunk]
    omega

/-- **The loop** ends with the end of the file. -/
theorem sound_scanTail (h : scan.Sound file) :
    (scanTail file scan).Sound file ∧
      ¬ (0 < (scanTail file scan).offset ∧ (scanTail file scan).newlineCount < WANT_NEWLINES ∧
        file.length - (scanTail file scan).offset < MAX_TAIL_BYTES) := by
  induction scan using scanTail.induct file with
  | case1 scan hmore ih =>
    rw [scanTail, if_pos hmore]
    exact ih (sound_readChunk h)
  | case2 scan hend =>
    rw [scanTail, if_neg hend]
    exact ⟨h, hend⟩

theorem sound_start :
    TailScan.Sound file { offset := file.length, buf := [], newlineCount := 0 } where
  offset := Nat.le_refl _
  buf := List.drop_length.symm
  newlineCount := rfl
  cap := by simp

/-! ## The lines that are replayed -/

theorem idxOf?_newline {part rest : List Char} (h : '\n' ∉ part) :
    (part ++ '\n' :: rest).idxOf? '\n' = some part.length := by
  induction part with
  | nil => rw [List.nil_append, List.idxOf?_cons, beq_self_eq_true, if_pos rfl, List.length_nil]
  | cons c part ih =>
    obtain ⟨hne, hmem⟩ := List.ne_and_not_mem_of_not_mem_cons h
    rw [List.cons_append, List.idxOf?_cons, if_neg (by simpa using hne.symm), ih hmem]
    rfl

/-- What comes after the first line break. -/
theorem splitOn_drop_firstLineEnd {text : List Char} (h : '\n' ∈ text) :
    (text.drop (firstLineEnd text)).splitOn '\n' = later '\n' text := by
  obtain ⟨part, rest, rfl, hpart⟩ := List.eq_append_cons_of_mem h
  rw [firstLineEnd, idxOf?_newline hpart, (append_of_not_mem hpart).2, later_cons_self,
    ← splitOn_eq]
  dsimp only
  rw [← List.drop_drop, List.drop_left, List.drop_one, List.tail_cons]

theorem encode_unlines_append : encode (unlines '\n' (older ++ newest)) =
    encode (unlines '\n' older) ++ encode (unlines '\n' newest) := by
  rw [unlines_append, encode_append]

theorem encode_unlines_concat {line : List Char} : encode (unlines '\n' (older ++ [line])) =
    encode (unlines '\n' older ++ line) ++ [NEWLINE_BYTE] := by
  have hone : unlines '\n' [line] = line ++ ['\n'] := unlines_cons
  rw [unlines_append, hone, ← List.append_assoc, @encode_append (unlines '\n' older ++ line)]
  rfl

/-- There is one more line break as soon as more is read than the newest lines. -/
theorem lt_count_drop_iff {offset : ℕ} (hnewest : Proper '\n' newest) (holder : older ≠ []) :
    newest.length <
        ((encode (unlines '\n' (older ++ newest))).drop offset).count NEWLINE_BYTE ↔
      offset < (encode (unlines '\n' older)).length := by
  have hcount : (encode (unlines '\n' newest)).count NEWLINE_BYTE = newest.length := by
    rw [← count_unlines hnewest]
    exact count_newline_encode
  rw [encode_unlines_append, List.drop_append, List.count_append]
  by_cases hoffset : offset < (encode (unlines '\n' older)).length
  · refine iff_of_true ?_ hoffset
    obtain ⟨before, line, rfl⟩ := (List.eq_nil_or_concat' older).resolve_left holder
    rw [encode_unlines_concat, List.length_append, List.length_singleton] at hoffset
    rw [Nat.sub_eq_zero_of_le (by rw [encode_unlines_concat]; simp; omega), List.drop_zero, hcount,
      encode_unlines_concat, List.drop_append_of_le_length (by omega), List.count_append]
    simp
  · refine iff_of_false (Nat.not_lt.2 ?_) hoffset
    rw [List.drop_eq_nil_of_le (Nat.le_of_not_lt hoffset), List.count_nil, Nat.zero_add, ← hcount]
    exact (List.drop_sublist _ _).count_le _

theorem lastLines_append (h : newest.length = MAX_REPLAY_LINES) :
    lastLines (older ++ newest) = newest := by
  rw [lastLines, List.length_append, h, Nat.add_sub_cancel, List.drop_left]

theorem lastLines_of_le (h : lines.length ≤ MAX_REPLAY_LINES) : lastLines lines = lines := by
  rw [lastLines, Nat.sub_eq_zero_of_le h, List.drop_zero]

/-- The lines of a file that is read from its start. -/
theorem lines_of_start (h : Proper '\n' lines)
    (hsound : scan.Sound (encode (unlines '\n' lines))) (hzero : scan.offset = 0) :
    scan.lines = lines := by
  rw [TailScan.lines, if_pos hzero, hsound.buf, hzero, List.drop_zero, List.drop_zero]
  exact fileLines_encode h

/-- The lines that come of the end of a file. -/
theorem lines_of_rest (h : Proper '\n' lines)
    (hsound : scan.Sound (encode (unlines '\n' lines))) (hzero : scan.offset ≠ 0)
    (hpos : 0 < scan.newlineCount) :
    scan.lines = lines.drop (lines.length - (scan.newlineCount - 1)) := by
  obtain ⟨-, hbuf, hcount, -⟩ := hsound
  obtain ⟨part, rest, hrest, heq, hpart⟩ := drop_encode (unlines '\n' lines) scan.offset
  have hrestCount : scan.newlineCount = rest.count '\n' := by
    rw [hcount, hbuf, heq, List.count_append, ← count_newline_encode]
    exact (congrArg (· + _) (List.count_eq_zero_of_not_mem
      (newline_not_mem_continuations hpart))).trans (Nat.zero_add _)
  have hmem : '\n' ∉ List.replicate part.length replacement := fun hin =>
    absurd (List.eq_of_mem_replicate hin) (by decide)
  rw [hrestCount] at hpos ⊢
  have hnewline := List.mem_append_right (List.replicate part.length replacement)
    (List.count_pos_iff.1 hpos)
  rw [TailScan.lines, if_neg hzero, hbuf, heq, decode_continuations hpart,
    splitOn_drop_firstLineEnd hnewline, (append_of_not_mem hmem).2]
  exact nonEmpty_later_suffix h hrest hpos

/-- Lines of which there are more than are replayed, cut there. -/
theorem exists_newest (h : MAX_REPLAY_LINES < lines.length) :
    ∃ older newest, lines = older ++ newest ∧ older ≠ [] ∧ newest.length = MAX_REPLAY_LINES := by
  refine ⟨lines.take (lines.length - MAX_REPLAY_LINES),
    lines.drop (lines.length - MAX_REPLAY_LINES), (List.take_append_drop _ _).symm,
    List.ne_nil_of_length_pos ?_, ?_⟩
  · rw [List.length_take]
    omega
  · rw [List.length_drop]
    omega

theorem lastLines_drop {count : ℕ} (h : count ≤ lines.length - MAX_REPLAY_LINES) :
    lastLines (lines.drop count) = lastLines lines := by
  rw [lastLines, lastLines, List.drop_drop, List.length_drop,
    show count + (lines.length - count - MAX_REPLAY_LINES) = lines.length - MAX_REPLAY_LINES by
      omega]

theorem count_newline_unlines (h : Proper '\n' lines) :
    (encode (unlines '\n' lines)).count NEWLINE_BYTE = lines.length := by
  rw [← count_unlines h]
  exact count_newline_encode

/-- The lines are read from the start when there are not more than are replayed. -/
theorem offset_eq_zero (h : Proper '\n' lines) (hle : lines.length ≤ MAX_REPLAY_LINES)
    (hfit : (encode (unlines '\n' lines)).length ≤ MAX_TAIL_BYTES)
    (hsound : scan.Sound (encode (unlines '\n' lines)))
    (hend : ¬ (0 < scan.offset ∧ scan.newlineCount < WANT_NEWLINES ∧
      (encode (unlines '\n' lines)).length - scan.offset < MAX_TAIL_BYTES)) : scan.offset = 0 := by
  obtain ⟨hoffset, hbuf, hcount, -⟩ := hsound
  have hfew : scan.newlineCount ≤ lines.length := by
    rw [hcount, hbuf, ← count_newline_unlines h]
    exact (List.drop_sublist _ _).count_le _
  by_contra hzero
  exact hend ⟨Nat.pos_of_ne_zero hzero, Nat.lt_succ_of_le (hfew.trans hle), by omega⟩

/-- **What is replayed** of a file whose last lines fit: the oldest of them is lost when they take
all that is read, and are not all. -/
theorem recentLines_eq (h : Proper '\n' lines)
    (hfit : (encode (unlines '\n' (lastLines lines))).length ≤ MAX_TAIL_BYTES) :
    recentLines (encode (unlines '\n' lines)) =
      if MAX_REPLAY_LINES < lines.length ∧
          (encode (unlines '\n' (lastLines lines))).length = MAX_TAIL_BYTES then
        (lastLines lines).tail
      else lastLines lines := by
  obtain ⟨hsound, hend⟩ := @sound_scanTail (encode (unlines '\n' lines)) _ sound_start
  rw [recentLines]
  generalize scanTail _ _ = scan at hsound hend
  by_cases hmany : MAX_REPLAY_LINES < lines.length
  · obtain ⟨older, newest, rfl, holder, hnewest⟩ := exists_newest hmany
    rw [lastLines_append hnewest] at hfit ⊢
    have hsize : (encode (unlines '\n' (older ++ newest))).length =
        (encode (unlines '\n' older)).length + (encode (unlines '\n' newest)).length := by
      rw [encode_unlines_append, List.length_append]
    have hproper : Proper '\n' newest := fun line hline => h line (List.mem_append_right _ hline)
    have hmore := @lt_count_drop_iff _ _ scan.offset hproper holder
    rw [← hsound.buf, ← hsound.newlineCount, hnewest] at hmore
    have hcap := hsound.cap
    by_cases hread : scan.offset < (encode (unlines '\n' older)).length
    · -- the line break before the newest lines is read
      have hcount := hmore.2 hread
      rw [if_neg fun hcond => by have := hcond.2; omega]
      by_cases hzero : scan.offset = 0
      · rw [lines_of_start h hsound hzero, lastLines_append hnewest]
      · rw [lines_of_rest h hsound hzero (Nat.zero_lt_of_lt hcount), lastLines_drop (by omega),
          lastLines_append hnewest]
    · -- the newest lines are all that is read
      have hfew := Nat.le_of_not_lt (mt hmore.1 hread)
      have hpos : 0 < scan.offset := by
        have hbefore : (encode (unlines '\n' older)).count NEWLINE_BYTE = older.length :=
          count_newline_unlines fun line hline => h line (List.mem_append_left _ hline)
        have hle := @List.count_le_length _ _ NEWLINE_BYTE (encode (unlines '\n' older))
        have hlength := List.length_pos_iff.2 holder
        omega
      have hfull : MAX_TAIL_BYTES ≤
          (encode (unlines '\n' (older ++ newest))).length - scan.offset :=
        Nat.le_of_not_lt fun hlt => hend ⟨hpos, Nat.lt_succ_of_le hfew, hlt⟩
      have hcount : scan.newlineCount = MAX_REPLAY_LINES := by
        have hmax : 0 < MAX_TAIL_BYTES := by decide
        have hstart : scan.offset = (encode (unlines '\n' older)).length := by omega
        rw [hsound.newlineCount, hsound.buf, hstart, encode_unlines_append, List.drop_left,
          count_newline_unlines hproper, hnewest]
      have hone : MAX_REPLAY_LINES = 199 + 1 := rfl
      rw [if_pos ⟨hmany, by omega⟩, lines_of_rest h hsound hpos.ne' (by omega), hcount,
        List.length_append, hnewest,
        show older.length + MAX_REPLAY_LINES - (MAX_REPLAY_LINES - 1) = older.length + 1 by omega,
        ← List.drop_drop, List.drop_left, List.drop_one]
      exact lastLines_of_le (by rw [List.length_tail]; omega)
  · have hle := Nat.le_of_not_lt hmany
    rw [lastLines_of_le hle] at hfit ⊢
    rw [if_neg fun hcond => hmany hcond.1,
      lines_of_start h hsound (offset_eq_zero h hle hfit hsound hend), lastLines_of_le hle]

/-- The oldest of the last lines is among those read, or has no event. -/
def OldestIsRead (parse : List Char → Option Json) (file : List UInt8) : Prop :=
  (fileLines file).length ≤ MAX_REPLAY_LINES ∨ lastLinesBytes file < MAX_TAIL_BYTES ∨
    ∀ oldest ∈ (lastLines (fileLines file)).head?, readLine parse oldest = none

theorem filterMap_tail_iff {α β : Type} {f : α → Option β} {l : List α} :
    l.tail.filterMap f = l.filterMap f ↔ ∀ a ∈ l.head?, f a = none := by
  cases l with
  | nil => simp
  | cons a l =>
    rw [List.tail_cons, List.filterMap_cons, List.head?_cons]
    rcases hf : f a with - | b
    · simp [hf]
    · simp [hf]

/-- **A replay** gives the events of the last lines of the file exactly when the oldest of these
lines is read or has no event. -/
theorem replayTransportHistory_eq_iff (calls : List (Fields × ℕ))
    (hfit : lastLinesBytes (written numbers calls) ≤ MAX_TAIL_BYTES) :
    replayTransportHistory parse (some (written numbers calls)) =
        readWhole parse (written numbers calls) ↔
      OldestIsRead parse (written numbers calls) := by
  have hproper := @keptLines_proper numbers calls
  rw [written_eq, lastLinesBytes, fileLines_encode hproper] at hfit
  rw [written_eq, OldestIsRead, readWhole, lastLinesBytes, fileLines_encode hproper,
    replayTransportHistory, recentLines_eq hproper hfit]
  generalize keptLines numbers calls = lines at hproper hfit
  by_cases hnil : (encode (unlines '\n' lines)).length = 0
  · have hlines := fileLines_encode hproper
    rw [List.eq_nil_of_length_eq_zero hnil] at hlines
    rw [if_pos hnil, ← hlines]
    exact iff_of_true rfl (Or.inl (Nat.zero_le _))
  · rw [if_neg hnil]
    split
    · rename_i hfull
      rw [filterMap_tail_iff, or_iff_right (Nat.not_le_of_lt hfull.1),
        or_iff_right (Nat.not_lt_of_le hfull.2.ge)]
    · rename_i hread
      refine iff_of_true rfl ?_
      rcases Nat.lt_or_ge MAX_REPLAY_LINES lines.length with hmany | hfew
      · exact Or.inr (Or.inl (lt_of_le_of_ne hfit fun heq => hread ⟨hmany, heq⟩))
      · exact Or.inl hfew

/-! ## The events that are sent -/

variable {sessionId : String} {events kept : List Fields}

theorem exists_envelope (sessionId : String) : ∃ before after, ∀ events : List Fields,
    Json.stringify numbers (.object
      [("type", .string "chat.history"), ("sessionId", .string sessionId),
        ("events", .array (events.map .object))]) =
      before ++ (Json.stringifyItems numbers (events.map .object) ++ after) :=
  ⟨'{' :: Json.quote "type" ++ ':' :: Json.quote "chat.history" ++
      ',' :: Json.quote "sessionId" ++ ':' :: Json.quote sessionId ++
      ',' :: Json.quote "events" ++ [':', '['], [']', '}'], fun events => by
    simp [Json.stringify, Json.stringifyFields]⟩

/-- Fewer of the last events do not take more bytes. -/
theorem chatHistoryEnvelopeBytes_le (h : kept <:+ events) :
    chatHistoryEnvelopeBytes numbers sessionId kept ≤
      chatHistoryEnvelopeBytes numbers sessionId events := by
  obtain ⟨before, after, henvelope⟩ := @exists_envelope numbers sessionId
  obtain ⟨more, hmore⟩ := @Json.stringifyItems_suffix numbers _ _ (h.map Json.object)
  simp only [chatHistoryEnvelopeBytes, byteLength, henvelope, ← hmore, encode_append,
    List.length_append]
  omega

/-- **The loop** keeps the last events that fit, as many as there are. -/
theorem keepNewest_isLongest (hkept : chatHistoryEnvelopeBytes numbers sessionId kept ≤
    TRANSPORT_HISTORY_REPLAY_BUDGET_BYTES) :
    IsLongestWithinBudget numbers sessionId (events.reverse ++ kept)
      (keepNewest numbers sessionId kept events) := by
  induction events generalizing kept with
  | nil => exact ⟨List.suffix_refl _, hkept, fun other hother _ => hother.length_le⟩
  | cons event events ih =>
    rw [keepNewest, List.reverse_cons, List.append_assoc, List.singleton_append]
    split
    · rename_i hover
      refine ⟨(List.suffix_cons _ _).trans (List.suffix_append _ _), hkept,
        fun other hother hfit => ?_⟩
      rcases List.suffix_or_suffix_of_suffix hother (List.suffix_append _ _) with hin | hout
      · rcases List.suffix_cons_iff.1 hin with rfl | hin
        · exact absurd hfit (Nat.not_le_of_lt hover)
        · exact hin.length_le
      · exact absurd (hover.trans_le (chatHistoryEnvelopeBytes_le hout)) (Nat.not_lt_of_le hfit)
    · rename_i hfit
      exact ih (Nat.le_of_not_lt hfit)

/-- **The events that are sent** are the last ones that fit, as many as there are, exactly when a
message without events fits. -/
theorem isLongestWithinBudget_iff (sessionId : String) (events : List Fields) :
    IsLongestWithinBudget numbers sessionId events
        (trimTransportHistoryEventsToReplayBudget numbers sessionId events) ↔
      chatHistoryEnvelopeBytes numbers sessionId [] ≤ TRANSPORT_HISTORY_REPLAY_BUDGET_BYTES := by
  refine ⟨fun h => (chatHistoryEnvelopeBytes_le List.nil_suffix).trans h.within, fun hnone => ?_⟩
  have hall : chatHistoryEnvelopeBytes numbers sessionId events ≤
      TRANSPORT_HISTORY_REPLAY_BUDGET_BYTES →
        IsLongestWithinBudget numbers sessionId events events := fun hfit =>
    ⟨List.suffix_refl _, hfit, fun other hother _ => hother.length_le⟩
  rw [trimTransportHistoryEventsToReplayBudget]
  split
  · rename_i hnil
    rw [List.eq_nil_of_length_eq_zero hnil] at hall ⊢
    exact hall hnone
  · split
    · rename_i hfit
      exact hall hfit
    · have hloop := @keepNewest_isLongest numbers sessionId events.reverse _ hnone
      rwa [List.reverse_reverse, List.append_nil] at hloop

/-! ## Last lines of 16 MiB to the byte -/

/-- Numbers as they are written when all of them are zero. -/
def zeroText : Json.NumberText where
  text := fun _ => ['0']
  oneLine := fun _ => by decide

/-- A message of so many letters. -/
def message (count : ℕ) : Fields :=
  [("type", .string "user.message"), ("text", .string (String.ofList (List.replicate count 'a')))]

def lineStart : List Char := "\x7b\"type\":\"user.message\",\"text\":\"".toList

def lineEnd : List Char := "\",\"_ts\":0\x7d".toList

/-- What is stored of a message. -/
theorem sanitize_message (count : ℕ) :
    sanitizeTransportHistoryEvent ((message count).put "_ts" (.number (0 : ℕ))) =
      message count ++ [("_ts", .number (0 : ℕ))] := by
  rfl

theorem quote_letters (count : ℕ) : Json.quote (String.ofList (List.replicate count 'a')) =
    '"' :: List.replicate count 'a' ++ ['"'] := by
  have hletters : (List.replicate count 'a').flatMap Json.quoteChar = List.replicate count 'a' := by
    rw [List.flatMap_replicate, show Json.quoteChar 'a' = ['a'] by decide]
    simp
  rw [Json.quote, String.toList_ofList, hletters]

theorem historyLine_message (count : ℕ) :
    historyLine zeroText (message count) 0 = lineStart ++ List.replicate count 'a' ++ lineEnd := by
  rw [historyLine, sanitize_message, message]
  have hstart : lineStart = '{' :: Json.quote "type" ++ ':' :: Json.quote "user.message" ++
      ',' :: Json.quote "text" ++ [':', '"'] := by decide
  have hend : lineEnd = '"' :: ',' :: Json.quote "_ts" ++ [':', '0', '}'] := by decide
  rw [hstart, hend]
  simp [Json.stringify, Json.stringifyFields, quote_letters, zeroText]

theorem shouldKeep_message (count : ℕ) :
    shouldKeepTransportHistoryEvent (message count) = true :=
  rfl

theorem length_encode_letters (count : ℕ) : (encode (List.replicate count 'a')).length = count := by
  induction count with
  | zero => rfl
  | succ count ih =>
    rw [List.replicate_succ, encode_cons, List.length_append, ih, Nat.add_comm]
    rfl

/-- How many bytes the line of a message takes, with its line break. -/
theorem length_encode_line (count : ℕ) :
    (encode (historyLine zeroText (message count) 0 ++ ['\n'])).length = count + 42 := by
  have hstart : (encode lineStart).length = 31 := by decide
  have hend : (encode (lineEnd ++ ['\n'])).length = 11 := by decide
  rw [historyLine_message, List.append_assoc, encode_append, encode_append, List.length_append,
    List.length_append, length_encode_letters, hstart, hend]
  omega

/-- What the text of a message is parsed to. -/
def parseMessage (line : List Char) : Option Json :=
  if line = historyLine zeroText (message (line.length - 41)) 0 then
    some (.object (message (line.length - 41) ++ [("_ts", .number (0 : ℕ))]))
  else none

theorem readLine_parseMessage (count : ℕ) :
    readLine parseMessage (historyLine zeroText (message count) 0) =
      some (message count ++ [("_ts", .number (0 : ℕ))]) := by
  have hlength : (historyLine zeroText (message count) 0).length - 41 = count := by
    rw [historyLine_message, List.length_append, List.length_append, List.length_replicate,
      show lineStart.length = 31 by decide, show lineEnd.length = 10 by decide]
    omega
  rw [readLine, parseMessage, hlength, if_pos rfl]
  rfl

/-- One message, so many letters in the next one, and 199 messages without letters. -/
def manyMessages (count : ℕ) : List (Fields × ℕ) :=
  (message 0, 0) :: (message count, 0) :: List.replicate 199 (message 0, 0)

theorem lastLines_manyMessages (count : ℕ) :
    lastLines (fileLines (written zeroText (manyMessages count))) =
        historyLine zeroText (message count) 0 ::
          List.replicate 199 (historyLine zeroText (message 0) 0) ∧
      (fileLines (written zeroText (manyMessages count))).length = 201 := by
  have hkept : keptLines zeroText (manyMessages count) =
      [historyLine zeroText (message 0) 0] ++ historyLine zeroText (message count) 0 ::
        List.replicate 199 (historyLine zeroText (message 0) 0) := by
    have hfilter : (manyMessages count).filter
        (fun call => shouldKeepTransportHistoryEvent call.1) = manyMessages count := by
      refine List.filter_eq_self.2 fun call hcall => ?_
      rcases List.mem_cons.1 hcall with rfl | hcall
      · exact shouldKeep_message _
      rcases List.mem_cons.1 hcall with rfl | hcall
      · exact shouldKeep_message _
      · rw [List.eq_of_mem_replicate hcall]
        exact shouldKeep_message _
    rw [keptLines, hfilter, manyMessages, List.map_cons, List.map_cons, List.map_replicate]
    rfl
  rw [written_eq, fileLines_encode (keptLines_proper _), hkept]
  refine ⟨lastLines_append ?_, ?_⟩
  · rw [List.length_cons, List.length_replicate]
    rfl
  · rw [List.length_append, List.length_singleton, List.length_cons, List.length_replicate]

theorem length_encode_unlines_replicate (times : ℕ) :
    (encode (unlines '\n'
      (List.replicate times (historyLine zeroText (message 0) 0)))).length = times * 42 := by
  induction times with
  | zero => rfl
  | succ times ih =>
    have hline := length_encode_line 0
    rw [List.replicate_succ, unlines_cons, List.append_cons, encode_append, List.length_append, ih,
      hline]
    omega

theorem lastLinesBytes_manyMessages (count : ℕ) :
    lastLinesBytes (written zeroText (manyMessages count)) = count + 42 + 199 * 42 := by
  rw [lastLinesBytes, (lastLines_manyMessages count).1, unlines_cons, List.append_cons,
    encode_append, List.length_append, length_encode_line, length_encode_unlines_replicate]

/-- **A replay is the end of the history**, and what is sent of it is as much as fits, as long as
the oldest line of that end is read and a message without events fits. -/
theorem replay_exact (numbers : Json.NumberText) (parse : List Char → Option Json)
    (calls : List (Fields × ℕ))
    (hfit : lastLinesBytes (written numbers calls) ≤ MAX_TAIL_BYTES) (sessionId : String)
    (events : List Fields) :
    replayTransportHistory parse (some (written numbers calls)) =
          readWhole parse (written numbers calls) ∧
        IsLongestWithinBudget numbers sessionId events
          (trimTransportHistoryEventsToReplayBudget numbers sessionId events) ↔
      OldestIsRead parse (written numbers calls) ∧
        chatHistoryEnvelopeBytes numbers sessionId [] ≤ TRANSPORT_HISTORY_REPLAY_BUDGET_BYTES :=
  and_congr (replayTransportHistory_eq_iff calls hfit) (isLongestWithinBudget_iff sessionId events)

def fourMessages : List (Fields × ℕ) :=
  [(message 3, 0), (message 0, 0), (message 12, 0), (message 1, 0)]

/-- Four messages are replayed, and all of them sent. -/
theorem replay_exact_fourMessages :
    replayTransportHistory parseMessage (some (written zeroText fourMessages)) =
          readWhole parseMessage (written zeroText fourMessages) ∧
        IsLongestWithinBudget zeroText "deck_a_brain" (fourMessages.map Prod.fst)
          (trimTransportHistoryEventsToReplayBudget zeroText "deck_a_brain"
            (fourMessages.map Prod.fst)) :=
  (replay_exact zeroText parseMessage fourMessages (by decide +kernel) "deck_a_brain"
    (fourMessages.map Prod.fst)).2 ⟨Or.inl (by decide +kernel), by decide +kernel⟩

/-- The oldest of 200 lines that take 16 MiB is lost. -/
theorem not_replay_exact :
    ¬ ∀ (numbers : Json.NumberText) (parse : List Char → Option Json) (calls : List (Fields × ℕ))
      (sessionId : String) (events : List Fields),
      lastLinesBytes (written numbers calls) ≤ MAX_TAIL_BYTES →
        replayTransportHistory parse (some (written numbers calls)) =
            readWhole parse (written numbers calls) ∧
          IsLongestWithinBudget numbers sessionId events
            (trimTransportHistoryEventsToReplayBudget numbers sessionId events) := by
  intro h
  have hbytes : lastLinesBytes (written zeroText (manyMessages (MAX_TAIL_BYTES - 8400))) =
      MAX_TAIL_BYTES := by
    have hmax : 8400 ≤ MAX_TAIL_BYTES := by decide
    have hsum : MAX_TAIL_BYTES - 8400 + 42 + 199 * 42 = MAX_TAIL_BYTES := by omega
    exact (lastLinesBytes_manyMessages _).trans hsum
  obtain ⟨hlines, hlength⟩ := lastLines_manyMessages (MAX_TAIL_BYTES - 8400)
  have hread := (replayTransportHistory_eq_iff _ hbytes.le).1
    (h zeroText parseMessage _ "" [] hbytes.le).1
  rw [OldestIsRead, hbytes, hlines, hlength] at hread
  rcases hread with hfew | hless | hnone
  · exact absurd hfew (by decide)
  · exact Nat.lt_irrefl _ hless
  · have hsome := hnone _ rfl
    rw [readLine_parseMessage] at hsome
    cases hsome

end Imcodes.History
