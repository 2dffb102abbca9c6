import Imcodes.Encodings.Utf8Cuts

/-!
# Reading the last lines of a log

A log is read backward from its end, 64 KiB at a time. Each chunk is decoded by itself and put
before what is left of the line that goes on in the chunk after it.

* `readTailLines_eq_newest` — these are the last lines of the text that the chunks are decoded to.
* `readTailLines_eq_iff` — they are the last lines of the file as long as no chunk begins inside a
  character of one of them.
* `IsLines.append`, `isLines_joinBytes` — which lines a file has after a line is appended, and one
  that lines are written to.
-/

namespace Imcodes.Timeline.LogFile

open Utf8 Lines

/-- 64KB chunks -/
def CHUNK_SIZE : ℕ := 64 * 1024

/-- The variables of the loop. -/
structure TailRead where
  lines : List (List Char)
  remaining : List Char
  position : ℕ

/-- Process complete lines from end to start. -/
def pushLines (maxLines : ℕ) (lines : List (List Char)) : List (List Char) → List (List Char)
  | [] => lines
  | part :: parts =>
    if part.length > 0 then
      if (lines ++ [part]).length ≥ maxLines then lines ++ [part]
      else pushLines maxLines (lines ++ [part]) parts
    else pushLines maxLines lines parts

/-- One turn of the loop; `parts[0]` is partial (or beginning of file). -/
def readChunk (file : List UInt8) (maxLines : ℕ) (read : TailRead) : TailRead :=
  let readSize := min CHUNK_SIZE read.position
  let position := read.position - readSize
  let buf := (file.drop position).take readSize
  let chunk := decode buf ++ read.remaining
  { lines := pushLines maxLines read.lines (later '\n' chunk).reverse
    remaining := first '\n' chunk
    position }

def readChunks (file : List UInt8) (maxLines : ℕ) (read : TailRead) : TailRead :=
  if 0 < read.position ∧ read.lines.length < maxLines then
    readChunks file maxLines (readChunk file maxLines read)
  else read
termination_by read.position
decreasing_by
  rename_i h
  have hsize : 0 < CHUNK_SIZE := by decide
  simp only [readChunk]
  omega

/-- Read the last N lines from a file by reading backward from the end in chunks; `none` is a file
that cannot be opened. -/
def readTailLines (file : Option (List UInt8)) (maxLines : ℕ) : List (List Char) :=
  match file with
  | none => []
  | some file =>
    if file.length = 0 then []
    else
      let read := readChunks file maxLines { lines := [], remaining := [], position := file.length }
      if read.remaining.length > 0 ∧ read.lines.length < maxLines then
        read.lines ++ [read.remaining]
      else read.lines

/-! ## The text of the chunks -/

/-- The first bytes, decoded in the chunks in which they are read. -/
def decodeByChunks (file : List UInt8) (position : ℕ) : List Char :=
  if 0 < position then
    let readSize := min CHUNK_SIZE position
    decodeByChunks file (position - readSize) ++
      decode ((file.drop (position - readSize)).take readSize)
  else []
termination_by position
decreasing_by
  have hsize : 0 < CHUNK_SIZE := by decide
  omega

variable {file : List UInt8} {text : List Char} {maxLines position : ℕ} {read : TailRead}
variable {lines parts : List (List Char)}

theorem pushLines_eq (h : lines.length < maxLines) :
    pushLines maxLines lines parts = (lines ++ nonEmpty parts).take maxLines := by
  induction parts generalizing lines with
  | nil => rw [pushLines, nonEmpty_nil, List.append_nil, List.take_of_length_le (Nat.le_of_lt h)]
  | cons part parts ih =>
    rw [pushLines]
    by_cases hnil : part = []
    · rw [if_neg (by simp [hnil]), hnil, nonEmpty_cons_nil, ih h]
    · have hlength : (lines ++ [part]).length = lines.length + 1 := by simp
      have happend : lines ++ part :: nonEmpty parts = (lines ++ [part]) ++ nonEmpty parts :=
        List.append_cons ..
      rw [if_pos (List.length_pos_iff.2 hnil), nonEmpty_cons_of_ne hnil, happend]
      split
      · rename_i hfull
        rw [List.take_append_of_le_length hfull, List.take_of_length_le (by omega)]
      · rename_i hmore
        exact ih (by omega)

theorem take_take_append {lines' : List (List Char)} :
    (lines.take maxLines ++ lines').take maxLines = (lines ++ lines').take maxLines := by
  rw [List.take_append, List.take_append, List.take_take, Nat.min_self, List.length_take]
  congr 2
  omega

/-- The lines that are returned, with those still to be read. -/
def TailRead.result (file : List UInt8) (maxLines : ℕ) (read : TailRead) : List (List Char) :=
  (read.lines ++
    (nonEmpty ((decodeByChunks file read.position ++ read.remaining).splitOn '\n')).reverse).take
      maxLines

/-- **One chunk** leaves the result as it is. -/
theorem result_readChunk (hposition : 0 < read.position) (hlines : read.lines.length < maxLines) :
    (readChunk file maxLines read).result file maxLines = read.result file maxLines := by
  have hdecoded : decodeByChunks file read.position =
      decodeByChunks file (readChunk file maxLines read).position ++
        decode ((file.drop (readChunk file maxLines read).position).take
          (min CHUNK_SIZE read.position)) := by
    rw [decodeByChunks, if_pos hposition]
    rfl
  have hlast : (readChunk file maxLines read).lines = (read.lines ++
      nonEmpty (later '\n' (decode ((file.drop (readChunk file maxLines read).position).take
        (min CHUNK_SIZE read.position)) ++ read.remaining)).reverse).take maxLines :=
    pushLines_eq hlines
  have hfirst : (readChunk file maxLines read).remaining =
      first '\n' (decode ((file.drop (readChunk file maxLines read).position).take
        (min CHUNK_SIZE read.position)) ++ read.remaining) := rfl
  generalize decode _ = chunk at hdecoded hlast hfirst
  have hsplit : (decodeByChunks file (readChunk file maxLines read).position ++
      (chunk ++ read.remaining)).splitOn '\n' =
        (decodeByChunks file (readChunk file maxLines read).position ++
          first '\n' (chunk ++ read.remaining)).splitOn '\n' ++
        later '\n' (chunk ++ read.remaining) :=
    splitOn_append_first.symm
  rw [TailRead.result, TailRead.result, hdecoded, hlast, hfirst, List.append_assoc, hsplit,
    nonEmpty_append, List.reverse_append, nonEmpty_reverse, ← List.append_assoc, take_take_append]

/-- What holds between two turns of the loop. -/
structure TailRead.Sound (maxLines : ℕ) (read : TailRead) : Prop where
  lines : read.lines.length ≤ maxLines
  remaining : '\n' ∉ read.remaining

theorem sound_readChunk (hlines : read.lines.length < maxLines) :
    (readChunk file maxLines read).Sound maxLines where
  lines := by
    rw [readChunk, pushLines_eq hlines]
    exact List.length_take_le _ _
  remaining := not_mem_first

/-- **The loop** ends with the result it began with. -/
theorem result_readChunks (h : read.Sound maxLines) :
    (readChunks file maxLines read).result file maxLines = read.result file maxLines ∧
      (readChunks file maxLines read).Sound maxLines ∧
      ¬ (0 < (readChunks file maxLines read).position ∧
        (readChunks file maxLines read).lines.length < maxLines) := by
  induction read using readChunks.induct file maxLines with
  | case1 read hmore ih =>
    rw [readChunks, if_pos hmore]
    obtain ⟨hresult, hend⟩ := ih (sound_readChunk hmore.2)
    exact ⟨hresult.trans (result_readChunk hmore.1 hmore.2), hend⟩
  | case2 read hend =>
    rw [readChunks, if_neg hend]
    exact ⟨rfl, h, hend⟩

/-- **What is read** are the last lines of the decoded chunks. -/
theorem readTailLines_eq_newest :
    readTailLines (some file) maxLines =
      newest '\n' maxLines (decodeByChunks file file.length) := by
  have hstart : TailRead.Sound maxLines { lines := [], remaining := [], position := file.length } :=
    ⟨Nat.zero_le _, List.not_mem_nil⟩
  obtain ⟨hresult, hsound, hend⟩ := @result_readChunks file _ _ hstart
  have hnewest : newest '\n' maxLines (decodeByChunks file file.length) =
      TailRead.result file maxLines { lines := [], remaining := [], position := file.length } := by
    rw [TailRead.result, List.append_nil]
    rfl
  rw [readTailLines, hnewest, ← hresult]
  dsimp only
  split
  · rename_i hnil
    rw [hnil, readChunks, if_neg (by simp), TailRead.result, decodeByChunks, if_neg (by simp)]
    exact List.take_nil.symm
  · generalize readChunks file maxLines _ = read at hsound hend
    obtain ⟨hlines, hremaining⟩ := hsound
    rw [TailRead.result]
    by_cases hfull : read.lines.length < maxLines
    · have hposition : ¬ 0 < read.position := fun h => hend ⟨h, hfull⟩
      rw [decodeByChunks, if_neg hposition, List.nil_append, splitOn_eq,
        (of_not_mem hremaining).1, (of_not_mem hremaining).2]
      by_cases hnil : read.remaining = []
      · rw [if_neg (by simp [hnil]), hnil, nonEmpty_cons_nil, nonEmpty_nil, List.reverse_nil,
          List.append_nil, List.take_of_length_le hlines]
      · rw [if_pos ⟨List.length_pos_iff.2 hnil, hfull⟩, nonEmpty_cons_of_ne hnil, nonEmpty_nil,
          List.reverse_singleton, List.take_of_length_le (by simpa using Nat.succ_le_of_lt hfull)]
    · rw [if_neg fun h => hfull h.2, List.take_append_of_le_length (Nat.le_of_not_lt hfull),
        List.take_of_length_le hlines]

/-! ## Where the chunks are cut -/

/-- The places where a chunk of a file of this size ends and the next one begins. -/
abbrev ChunkBoundary (size position : ℕ) : Prop :=
  CHUNK_SIZE ∣ size - position

/-- No chunk begins inside a character of the last lines that are not empty. -/
def Intact (text : List Char) (maxLines : ℕ) : Prop :=
  WholeLines (ChunkBoundary (encode text).length) '\n' maxLines 0 text

/-- There is no boundary inside a chunk. -/
theorem runCut_chunk (hposition : position ≤ file.length)
    (hboundary : ChunkBoundary file.length position) :
    runCut (ChunkBoundary file.length) (position - min CHUNK_SIZE position) none
        ((file.drop (position - min CHUNK_SIZE position)).take (min CHUNK_SIZE position)) =
      decode ((file.drop (position - min CHUNK_SIZE position)).take (min CHUNK_SIZE position)) := by
  refine runCut_eq_run fun place hle hlt => ?_
  by_cases hstart : place = position - min CHUNK_SIZE position
  · exact Or.inr ⟨rfl, hstart⟩
  refine Or.inl fun hplace => ?_
  have hlength := List.length_take_le (min CHUNK_SIZE position)
    (file.drop (position - min CHUNK_SIZE position))
  have hinside : CHUNK_SIZE ∣ position - place := by
    have hsub := (Nat.dvd_sub hplace hboundary)
    rwa [show file.length - place - (file.length - position) = position - place by omega] at hsub
  exact Nat.not_le_of_lt (by omega) (Nat.le_of_dvd (by omega) hinside)

/-- Chunk by chunk the file is decoded anew at each boundary. -/
theorem decodeByChunks_eq_runCut (hposition : position ≤ file.length)
    (hboundary : ChunkBoundary file.length position) :
    decodeByChunks file position =
      runCut (ChunkBoundary file.length) 0 none (file.take position) := by
  induction position using decodeByChunks.induct with
  | case1 position hpos readSize ih =>
    have hchunk := runCut_chunk hposition hboundary
    rw [decodeByChunks, if_pos hpos]
    dsimp only
    rw [← hchunk]
    by_cases hfirst : position ≤ CHUNK_SIZE
    · rw [Nat.min_eq_right hfirst, Nat.sub_self, decodeByChunks, if_neg (Nat.lt_irrefl 0),
        List.nil_append, List.drop_zero]
    · have hsize : readSize = CHUNK_SIZE := Nat.min_eq_left (Nat.le_of_not_le hfirst)
      have hnext : ChunkBoundary file.length (position - readSize) := by
        have hadd := Nat.dvd_add hboundary (Nat.dvd_refl CHUNK_SIZE)
        rwa [show file.length - position + CHUNK_SIZE = file.length - (position - readSize) by
          omega] at hadd
      have hlength : (file.take (position - readSize)).length = position - readSize := by
        rw [List.length_take]
        omega
      have hmore : (file.drop (position - readSize)).take readSize ≠ [] := by
        refine List.ne_nil_of_length_pos ?_
        rw [List.length_take, List.length_drop, hsize]
        have hchunk : 0 < CHUNK_SIZE := by decide
        omega
      have hparts : file.take position =
          file.take (position - readSize) ++ (file.drop (position - readSize)).take readSize := by
        rw [← List.take_add, Nat.sub_add_cancel (Nat.min_le_right _ _)]
      rw [hparts, runCut_append (by rwa [hlength, Nat.zero_add]) hmore, hlength, Nat.zero_add,
        ih (by omega) hnext]
  | case2 position hzero =>
    rw [decodeByChunks, if_neg hzero, Nat.eq_zero_of_not_pos hzero]
    rfl

/-- The whole file. -/
theorem decodeByChunks_length :
    decodeByChunks file file.length = runCut (ChunkBoundary file.length) 0 none file := by
  have hboundary : ChunkBoundary file.length file.length := by
    rw [ChunkBoundary, Nat.sub_self]
    exact Nat.dvd_zero _
  rw [decodeByChunks_eq_runCut (Nat.le_refl _) hboundary, List.take_length]

theorem newest_decodeByChunks_eq_iff :
    newest '\n' maxLines (decodeByChunks (encode text) (encode text).length) =
      newest '\n' maxLines text ↔ Intact text maxLines := by
  rw [decodeByChunks_length]
  exact (spelled_runCut text).newest_eq_iff (by decide)

/-- **The tail of a log** is read exactly when no chunk begins inside a character of its lines. -/
theorem readTailLines_eq_iff (text : List Char) (maxLines : ℕ) :
    readTailLines (some (encode text)) maxLines = newest '\n' maxLines text ↔
      Intact text maxLines := by
  rw [readTailLines_eq_newest]
  exact newest_decodeByChunks_eq_iff

/-- As many lines as there are come out, whole or not. -/
theorem length_readTailLines (text : List Char) (maxLines : ℕ) :
    (readTailLines (some (encode text)) maxLines).length =
      min maxLines (nonEmpty (text.splitOn '\n')).length := by
  have hspelled : Spelled (ChunkBoundary (encode text).length) 0 text
      (decodeByChunks (encode text) (encode text).length) := by
    rw [decodeByChunks_length]
    exact spelled_runCut text
  obtain ⟨hlater, hfirst, -⟩ := @Spelled.lines _ _ '\n' _ _ hspelled (by decide)
  rw [readTailLines_eq_newest, newest, List.length_take, List.length_reverse,
    length_nonEmpty_splitOn hlater hfirst]

/-- Of a line more than are to come out whole, the last ones are. -/
theorem take_readTailLines {text : List Char} (h : Intact text maxLines) :
    (readTailLines (some (encode text)) (maxLines + 1)).take maxLines =
      newest '\n' maxLines text := by
  rw [readTailLines_eq_newest, newest, List.take_take, Nat.min_eq_left (Nat.le_succ _)]
  exact newest_decodeByChunks_eq_iff.2 h

instance (text : List Char) (maxLines : ℕ) : Decidable (Intact text maxLines) :=
  decidable_of_iff _ newest_decodeByChunks_eq_iff

/-- A line one byte longer than a chunk, with a character of two bytes first. -/
def lineOverChunk : List Char :=
  'é' :: List.replicate (CHUNK_SIZE - 1) 'a'

theorem length_encode_lineOverChunk : (encode lineOverChunk).length = CHUNK_SIZE + 1 := by
  have hmany : ∀ n, (encode (List.replicate n 'a')).length = n := fun n => by
    induction n with
    | zero => rfl
    | succ n ih =>
      rw [List.replicate_succ, encode_cons, List.length_append, ih, Nat.add_comm]
      rfl
  rw [lineOverChunk, encode_cons, List.length_append, hmany]
  decide

/-- The first character of such a line is lost. -/
theorem readTailLines_ne_lineOverChunk :
    ¬ ∀ text maxLines, 1 ≤ maxLines →
      readTailLines (some (encode text)) maxLines = newest '\n' maxLines text := by
  intro h
  have hintact : Intact lineOverChunk 1 := by
    rw [← newest_decodeByChunks_eq_iff, ← readTailLines_eq_newest]
    exact h lineOverChunk 1 (Nat.le_refl 1)
  have hone : '\n' ∉ List.replicate (CHUNK_SIZE - 1) 'a' := fun hmem =>
    absurd (List.eq_of_mem_replicate hmem) (by decide)
  refine hintact [] 'é' _ rfl ?_ ⟨1, Nat.zero_lt_one, by decide, ?_⟩
  · rw [(of_not_mem hone).2]
    exact Nat.zero_lt_one
  · have hlength := length_encode_lineOverChunk
    have hone : (encode lineOverChunk).length - 1 = CHUNK_SIZE := by omega
    exact ⟨1, by rw [hone, Nat.mul_one]⟩

/-! ## Files of lines -/

/-- `JSON.stringify(event)`: some characters, none of them a line break -/
structure Line where
  text : List Char
  ne_nil : text ≠ []
  not_mem : '\n' ∉ text

/-- The bytes of `JSON.stringify(event) + '\n'` -/
def Line.bytes (line : Line) : List UInt8 := encode (line.text ++ ['\n'])

/-- The bytes of `lines.join('\n') + '\n'` -/
def joinBytes (lines : List (List Char)) : List UInt8 :=
  encode (List.intercalate ['\n'] lines ++ ['\n'])

/-- The lines of a file that are not empty. -/
def linesOf (file : List UInt8) : List (List Char) := nonEmpty ((decode file).splitOn '\n')

/-- The file is lines, each with a line break after it; some may be empty. -/
def IsLines (file : List UInt8) : Prop :=
  ∃ lines, (∀ line ∈ lines, '\n' ∉ line) ∧ file = encode (unlines '\n' lines)

theorem linesOf_encode (text : List Char) :
    linesOf (encode text) = nonEmpty (text.splitOn '\n') := by
  rw [linesOf, decode_encode]

theorem isLines_nil : IsLines [] :=
  ⟨[], nofun, rfl⟩

/-- **A line is appended.** -/
theorem IsLines.append (h : IsLines file) (line : Line) :
    IsLines (file ++ line.bytes) ∧ linesOf (file ++ line.bytes) = linesOf file ++ [line.text] := by
  obtain ⟨lines, hlines, rfl⟩ := h
  have hmore : ∀ other ∈ lines ++ [line.text], '\n' ∉ other := by
    intro other hother
    rcases List.mem_append.1 hother with hother | hother
    · exact hlines other hother
    · rw [List.mem_singleton.1 hother]
      exact line.not_mem
  have hbytes : encode (unlines '\n' lines) ++ line.bytes =
      encode (unlines '\n' (lines ++ [line.text])) := by
    rw [unlines_append, encode_append, unlines_cons]
    rfl
  refine ⟨⟨_, hmore, hbytes⟩, ?_⟩
  rw [hbytes, linesOf_encode, linesOf_encode, nonEmpty_splitOn_unlines_of_not_mem hmore,
    nonEmpty_splitOn_unlines_of_not_mem hlines, nonEmpty_append, nonEmpty_cons_of_ne line.ne_nil,
    nonEmpty_nil]

/-- **Lines are written** to a file of their own. -/
theorem isLines_joinBytes (h : Proper '\n' lines) :
    IsLines (joinBytes lines) ∧ linesOf (joinBytes lines) = lines := by
  by_cases hnil : lines = []
  · subst hnil
    exact ⟨⟨[[]], by simp, rfl⟩, by decide⟩
  · have hbytes : joinBytes lines = encode (unlines '\n' lines) := by
      rw [joinBytes, intercalate_append hnil]
    rw [hbytes, linesOf_encode]
    exact ⟨⟨lines, fun line hline => (h line hline).2, rfl⟩, nonEmpty_splitOn_unlines h⟩

theorem isLines_flatMap (lines : List Line) : IsLines (lines.flatMap Line.bytes) ∧
    linesOf (lines.flatMap Line.bytes) = lines.map Line.text := by
  induction lines using List.reverseRecOn with
  | nil => exact ⟨isLines_nil, by decide⟩
  | append_singleton lines line ih =>
    rw [List.flatMap_append, List.flatMap_singleton, List.map_append, ← ih.2]
    exact ih.1.append line

theorem IsLines.length_readTailLines (h : IsLines file) :
    (readTailLines (some file) maxLines).length = min maxLines (linesOf file).length := by
  obtain ⟨lines, -, rfl⟩ := h
  rw [LogFile.length_readTailLines, linesOf_encode]

theorem IsLines.take_readTailLines (h : IsLines file) (hintact : Intact (decode file) maxLines) :
    (readTailLines (some file) (maxLines + 1)).take maxLines =
      (linesOf file).reverse.take maxLines := by
  obtain ⟨lines, -, rfl⟩ := h
  rw [decode_encode] at hintact
  rw [LogFile.take_readTailLines hintact, linesOf_encode, newest]

theorem IsLines.readTailLines_eq (h : IsLines file) (hintact : Intact (decode file) maxLines) :
    readTailLines (some file) maxLines = (linesOf file).reverse.take maxLines := by
  obtain ⟨lines, -, rfl⟩ := h
  rw [decode_encode] at hintact
  rw [(readTailLines_eq_iff _ _).2 hintact, linesOf_encode, newest]

end Imcodes.Timeline.LogFile
