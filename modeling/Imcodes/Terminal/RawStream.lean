import Imcodes.Encodings.Utf8
import Mathlib.Data.List.Induction

/-!
# Reading a terminal chunk by chunk

The bytes of a terminal come in chunks that end anywhere: inside a character, an escape sequence or
the end of a line. What is left over of a chunk is kept for the next one.

* `pendingLength_prefix` — of the first bytes of a text, what is kept is the character that is not
  whole.
* `feedAll_eq` — the lines of a text do not depend on its chunks.

Characters outside the basic plane are one step here, and two alike in the source.
-/

namespace Imcodes.Terminal

open Utf8

/-! ## The end of a chunk -/

/-- `b >= 0xF0 ? 4 : b >= 0xE0 ? 3 : 2` -/
def seqLen (b : UInt8) : ℕ := if b ≥ 0xF0 then 4 else if b ≥ 0xE0 then 3 else 2

/-- How many bytes at the end are of a character that is not whole: the last bytes, the last one
first, and how many have been passed. -/
def scanBack : ℕ → List UInt8 → ℕ → ℕ
  | 0, _, _ => 0
  | _, [], _ => 0
  | steps + 1, b :: before, passed =>
    if b &&& 0x80 = 0 then 0
    else if b &&& 0xC0 = 0xC0 then
      let remaining := passed + 1
      if remaining < seqLen b then remaining else 0
    else scanBack steps before (passed + 1)

def pendingLength (buf : List UInt8) : ℕ := scanBack 4 buf.reverse 0

/-- The bytes that are whole characters, and those of one that is not. -/
def splitIncompleteUtf8 (buf : List UInt8) : List UInt8 × List UInt8 :=
  buf.splitAt (buf.length - pendingLength buf)

/-! ## The parser -/

structure RawStreamParser where
  utf8Pending : List UInt8 := []
  ansiBuffer : String := ""
  inAnsi : Bool := false
  currentLine : String := ""
  crPending : Bool := false
deriving DecidableEq

/-- `/[a-zA-Z]/` -/
def isLetter (ch : Char) : Bool := 'a' ≤ ch && ch ≤ 'z' || 'A' ≤ ch && ch ≤ 'Z'

namespace RawStreamParser

variable (s : RawStreamParser)

/-- One character, and the line that it completes. -/
def scan (ch : Char) : RawStreamParser × List String :=
  if s.inAnsi then
    if isLetter ch then ({ s with inAnsi := false, ansiBuffer := "" }, [])
    else ({ s with ansiBuffer := s.ansiBuffer.push ch }, [])
  else if ch = '\x1b' then ({ s with inAnsi := true, ansiBuffer := "\x1b" }, [])
  else if ch = '\r' then
    ({ s with currentLine := if s.crPending then "" else s.currentLine, crPending := true }, [])
  else if ch = '\n' then ({ s with currentLine := "", crPending := false }, [s.currentLine])
  else
    ({ s with
        currentLine := (if s.crPending then "" else s.currentLine).push ch
        crPending := false }, [])

/-- `for (let i = 0; i < str.length; i++)` -/
def scanAll : RawStreamParser → List Char → RawStreamParser × List String
  | s, [] => (s, [])
  | s, ch :: str =>
    let rest := scanAll (s.scan ch).1 str
    (rest.1, (s.scan ch).2 ++ rest.2)

/-- The completed lines of a chunk. -/
def feed (chunk : List UInt8) : RawStreamParser × List String :=
  let split := splitIncompleteUtf8 (s.utf8Pending ++ chunk)
  scanAll { s with utf8Pending := split.2 } (decode split.1)

def pending : String := s.currentLine

/-- All completed lines of the chunks. -/
def feedAll : RawStreamParser → List (List UInt8) → RawStreamParser × List String
  | s, [] => (s, [])
  | s, chunk :: chunks =>
    let rest := feedAll (s.feed chunk).1 chunks
    (rest.1, (s.feed chunk).2 ++ rest.2)

end RawStreamParser

/-! ## The bits of a byte -/

theorem land_eq (b : UInt8) : (b &&& 0x80 = 0 ↔ b.toNat < 0x80) ∧
    (b &&& 0xC0 = 0xC0 ↔ 0xC0 ≤ b.toNat) := by
  have hall : ∀ n < 256, (n &&& 0x80 = 0 ↔ n < 0x80) ∧ (n &&& 0xC0 = 0xC0 ↔ 0xC0 ≤ n) := by
    decide +kernel
  obtain ⟨hhigh, hlead⟩ := hall b.toNat b.toNat_lt
  refine ⟨?_, ?_⟩
  · rw [← UInt8.toNat_inj, UInt8.toNat_and]
    exact hhigh
  · rw [← UInt8.toNat_inj, UInt8.toNat_and]
    exact hlead

variable {part bytes before : List UInt8} {text : List Char} {c : Char} {steps passed : ℕ}

theorem scanBack_ascii {b : UInt8} (h : b.toNat < 0x80) :
    scanBack (steps + 1) (b :: before) passed = 0 :=
  if_pos ((land_eq b).1.2 h)

theorem scanBack_lead {b : UInt8} (h : 0xC0 ≤ b.toNat) :
    scanBack (steps + 1) (b :: before) passed =
      if passed + 1 < seqLen b then passed + 1 else 0 := by
  have hhigh : ¬b &&& 0x80 = 0 := fun hzero => by
    have hlow := (land_eq b).1.1 hzero
    omega
  rw [scanBack, if_neg hhigh, if_pos ((land_eq b).2.2 h)]

/-- Bytes that go on with a character are passed. -/
theorem scanBack_continuations (h : ∀ b ∈ part, IsContinuation b) :
    scanBack (steps + part.length) (part ++ before) passed =
      scanBack steps before (passed + part.length) := by
  induction part generalizing passed with
  | nil => rfl
  | cons b part ih =>
    obtain ⟨hlow, hhigh⟩ := h b List.mem_cons_self
    have hnotAscii : ¬b &&& 0x80 = 0 := fun hzero => by
      have hlt := (land_eq b).1.1 hzero
      omega
    have hnotLead : ¬b &&& 0xC0 = 0xC0 := fun hlead => by
      have hle := (land_eq b).2.1 hlead
      omega
    rw [List.length_cons, ← Nat.add_assoc, List.cons_append, scanBack, if_neg hnotAscii,
      if_neg hnotLead, ih fun b' hb' => h b' (List.mem_cons_of_mem b hb')]
    congr 1
    omega

/-! ## The bytes of a character -/

theorem length_of_spells {p : Pending} (h : Spells p bytes c) :
    0 < p.needed ∧ bytes.length = p.needed := by
  induction h with
  | last _ _ _ hneeded => exact ⟨by omega, hneeded.symm⟩
  | more _ _ _ _ _ ih =>
    obtain ⟨hpos, hlength⟩ := ih
    dsimp only at hpos hlength
    rw [List.length_cons]
    omega

/-- A byte between two characters is one, is none, or tells how many come after it. -/
theorem start_cases (byte : ℕ) :
    byte ≤ 0x7F ∨ start byte = ([replacement], none) ∨
      ∃ p, start byte = ([], some p) ∧
        (p.needed = 1 ∧ 0xC2 ≤ byte ∧ byte ≤ 0xDF ∨ p.needed = 2 ∧ 0xE0 ≤ byte ∧ byte ≤ 0xEF ∨
          p.needed = 3 ∧ 0xF0 ≤ byte) := by
  by_cases h1 : byte ≤ 0x7F
  · exact Or.inl h1
  by_cases h2 : 0xC2 ≤ byte ∧ byte ≤ 0xDF
  · exact Or.inr (Or.inr ⟨_, start_two h2, Or.inl ⟨rfl, h2⟩⟩)
  by_cases h3 : 0xE0 ≤ byte ∧ byte ≤ 0xEF
  · exact Or.inr (Or.inr ⟨_, start_three h3, Or.inr (Or.inl ⟨rfl, h3⟩)⟩)
  by_cases h4 : 0xF0 ≤ byte ∧ byte ≤ 0xF4
  · exact Or.inr (Or.inr ⟨_, start_four h4, Or.inr (Or.inr ⟨rfl, h4.1⟩)⟩)
  · exact Or.inr (Or.inl (by rw [start, if_neg h1, if_neg h2, if_neg h3, if_neg h4]))

/-- A first byte tells how many there are. -/
theorem seqLen_of_start {b : UInt8} {p : Pending} (h : start b.toNat = ([], some p)) :
    0xC0 ≤ b.toNat ∧ seqLen b = p.needed + 1 ∧ p.needed ≤ 3 := by
  have hseq : seqLen b = if b.toNat ≥ 0xF0 then 4 else if b.toNat ≥ 0xE0 then 3 else 2 := rfl
  rw [hseq]
  rcases start_cases b.toNat with hlow | hnone | ⟨p', hstart, hneeded⟩
  · rw [start, if_pos hlow] at h
    cases h
  · rw [hnone] at h
    cases h
  · rw [hstart] at h
    obtain rfl : p' = p := Option.some.inj (Prod.mk.inj h).2
    rcases hneeded with ⟨hneeded, hbounds⟩ | ⟨hneeded, hbounds⟩ | ⟨hneeded, hbound⟩
    · rw [if_neg (by omega), if_neg (by omega)]
      omega
    · rw [if_neg (by omega), if_pos (by omega)]
      omega
    · rw [if_pos hbound]
      omega

/-- A character is one low byte, or a first byte that tells its length and the bytes after it. -/
theorem utf8EncodeChar_seqLen (c : Char) :
    (∃ b, String.utf8EncodeChar c = [b] ∧ b.toNat < 0x80) ∨
      ∃ b tail, String.utf8EncodeChar c = b :: tail ∧ 0xC0 ≤ b.toNat ∧
        seqLen b = tail.length + 1 ∧ tail.length ≤ 3 ∧ ∀ b' ∈ tail, IsContinuation b' := by
  rcases utf8EncodeChar_cases c with ⟨b, heq, hstart⟩ | ⟨b, p, tail, heq, hstart, hspells⟩
  · refine Or.inl ⟨b, heq, ?_⟩
    rcases start_cases b.toNat with hlow | hnone | ⟨p, hsome, -⟩
    · omega
    · -- the replacement itself takes three bytes
      obtain rfl : c = replacement := by
        rw [hstart] at hnone
        exact List.singleton_inj.1 (Prod.mk.inj hnone).1
      have hthree : (String.utf8EncodeChar replacement).length = 3 := by decide
      rw [heq] at hthree
      cases hthree
    · rw [hstart] at hsome
      cases hsome
  · obtain ⟨hlead, hseq, hneeded⟩ := seqLen_of_start hstart
    obtain ⟨-, hlength⟩ := length_of_spells hspells
    exact Or.inr ⟨b, tail, heq, hlead, by omega, by omega, hspells.continuation⟩

/-- A first byte and some of the bytes after it, at the end of a buffer. -/
theorem pendingLength_lead {b : UInt8} {tail : List UInt8} (hlead : 0xC0 ≤ b.toNat)
    (hlength : tail.length ≤ 3) (htail : ∀ b' ∈ tail, IsContinuation b') :
    pendingLength (bytes ++ b :: tail) =
      if tail.length + 1 < seqLen b then tail.length + 1 else 0 := by
  obtain ⟨steps, hsteps⟩ := Nat.exists_eq_add_of_le hlength
  have hfour : 4 = (steps + 1) + tail.reverse.length := by
    rw [List.length_reverse]
    omega
  have hreverse : (bytes ++ b :: tail).reverse = tail.reverse ++ b :: bytes.reverse := by simp
  rw [pendingLength, hreverse, hfour, scanBack_continuations fun b' hb' =>
    htail b' (List.mem_reverse.1 hb'), scanBack_lead hlead, List.length_reverse, Nat.zero_add]

theorem pendingLength_encode : pendingLength (encode text) = 0 := by
  rcases List.eq_nil_or_concat text with rfl | ⟨before, c, rfl⟩
  · rfl
  · rw [List.concat_eq_append, encode_append, encode_cons, encode_nil, List.append_nil]
    rcases utf8EncodeChar_seqLen c with ⟨b, heq, hlow⟩ |
      ⟨b, tail, heq, hlead, hseq, hlength, htail⟩
    · rw [heq, pendingLength, List.reverse_append, List.reverse_singleton, List.singleton_append]
      exact scanBack_ascii hlow
    · rw [heq, pendingLength_lead hlead hlength htail, hseq, if_neg (Nat.lt_irrefl _)]

/-- The bytes are some of a character, but not all. -/
def IsUnfinished (part : List UInt8) : Prop :=
  ∃ c, part <+: String.utf8EncodeChar c ∧ part ≠ String.utf8EncodeChar c

theorem isUnfinished_nil : IsUnfinished [] := ⟨'a', List.nil_prefix, by decide⟩

theorem pendingLength_unfinished (h : IsUnfinished part) :
    pendingLength (encode text ++ part) = part.length := by
  obtain ⟨c, hpart, hne⟩ := h
  rcases utf8EncodeChar_seqLen c with ⟨b, heq, -⟩ | ⟨b, tail, heq, hlead, hseq, hlength, htail⟩
  · rw [heq] at hpart hne
    rcases List.prefix_cons_iff.1 hpart with rfl | ⟨part', rfl, hnil⟩
    · rw [List.append_nil, pendingLength_encode, List.length_nil]
    · exact absurd (by rw [List.prefix_nil.1 hnil]) hne
  · rw [heq] at hpart hne
    rcases List.prefix_cons_iff.1 hpart with rfl | ⟨tail', rfl, htail'⟩
    · rw [List.append_nil, pendingLength_encode, List.length_nil]
    · have hlt : tail'.length < tail.length := by
        refine Nat.lt_of_le_of_ne htail'.length_le fun hsame => hne ?_
        rw [htail'.eq_of_length hsame]
      rw [pendingLength_lead hlead (by omega) fun b' hb' => htail b' (htail'.subset hb'), hseq,
        if_pos (by omega), List.length_cons]

/-- **The first bytes of a text**: what is kept is the character that is not whole. -/
theorem pendingLength_prefix (h : bytes <+: encode text) :
    ∃ head part, head <+: text ∧ bytes = encode head ++ part ∧ IsUnfinished part ∧
      splitIncompleteUtf8 bytes = (encode head, part) := by
  have hsplit (head : List Char) {part : List UInt8} (hpart : IsUnfinished part) :
      splitIncompleteUtf8 (encode head ++ part) = (encode head, part) := by
    rw [splitIncompleteUtf8, pendingLength_unfinished hpart, List.length_append,
      Nat.add_sub_cancel, List.splitAt_eq, List.take_left, List.drop_left]
  rcases prefix_encode_cases h with ⟨head, hhead, rfl⟩ |
    ⟨head, c, rest, part, rfl, rfl, hpart, -, hne⟩
  · refine ⟨head, [], hhead, (List.append_nil _).symm, isUnfinished_nil, ?_⟩
    have hnil := hsplit head isUnfinished_nil
    rwa [List.append_nil] at hnil
  · exact ⟨head, part, List.prefix_append _ _, rfl, ⟨c, hpart, hne⟩, hsplit head ⟨c, hpart, hne⟩⟩

/-! ## Chunks -/

namespace RawStreamParser

variable {s : RawStreamParser} {str str' : List Char}

theorem scanAll_append : scanAll s (str ++ str') =
    ((scanAll (scanAll s str).1 str').1, (scanAll s str).2 ++ (scanAll (scanAll s str).1 str').2) := by
  induction str generalizing s with
  | nil => rfl
  | cons ch str ih => rw [List.cons_append, scanAll, ih, scanAll, List.append_assoc]

/-- The bytes that are kept play no part in reading characters. -/
theorem scanAll_utf8Pending (part : List UInt8) : scanAll { s with utf8Pending := part } str =
    ({ (scanAll s str).1 with utf8Pending := part }, (scanAll s str).2) := by
  have hscan (s : RawStreamParser) (ch : Char) : scan { s with utf8Pending := part } ch =
      ({ (s.scan ch).1 with utf8Pending := part }, (s.scan ch).2) := by
    simp only [scan]
    split_ifs <;> rfl
  induction str generalizing s with
  | nil => rfl
  | cons ch str ih => rw [scanAll, hscan, ih, scanAll]

theorem feedAll_concat (chunks : List (List UInt8)) (chunk : List UInt8) :
    feedAll s (chunks ++ [chunk]) = (((feedAll s chunks).1.feed chunk).1,
      (feedAll s chunks).2 ++ ((feedAll s chunks).1.feed chunk).2) := by
  induction chunks generalizing s with
  | nil => simp [feedAll]
  | cons first chunks ih => rw [List.cons_append, feedAll, ih, feedAll, List.append_assoc]

/-- The characters that are whole have been read, and the rest is kept. -/
def HasRead (text : List Char) (bytes : List UInt8) (result : RawStreamParser × List String) :
    Prop :=
  ∃ head part, head <+: text ∧ bytes = encode head ++ part ∧ IsUnfinished part ∧
    result = ({ (scanAll {} head).1 with utf8Pending := part }, (scanAll {} head).2)

/-- **A chunk more.** -/
theorem HasRead.feed {lines : List String} (h : HasRead text bytes (s, lines))
    {chunk : List UInt8} (hbytes : bytes ++ chunk <+: encode text) :
    HasRead text (bytes ++ chunk) ((s.feed chunk).1, lines ++ (s.feed chunk).2) := by
  obtain ⟨head, part, ⟨rest, rfl⟩, rfl, hpart, hresult⟩ := h
  obtain ⟨rfl, rfl⟩ := Prod.mk.inj hresult
  rw [encode_append, List.append_assoc, List.prefix_append_right_inj] at hbytes
  obtain ⟨more, part', hmore, heq, hpart', hsplit⟩ := pendingLength_prefix hbytes
  refine ⟨head ++ more, part', (List.prefix_append_right_inj head).2 hmore, ?_, hpart', ?_⟩
  · rw [List.append_assoc, heq, encode_append, List.append_assoc]
  · rw [RawStreamParser.feed, hsplit, decode_encode, scanAll_utf8Pending, scanAll_append]
    rw [scanAll_utf8Pending]

theorem hasRead_feedAll {chunks : List (List UInt8)} (h : chunks.flatten <+: encode text) :
    HasRead text chunks.flatten (feedAll {} chunks) := by
  induction chunks using List.reverseRecOn with
  | nil => exact ⟨[], [], List.nil_prefix, rfl, isUnfinished_nil, rfl⟩
  | append_singleton chunks chunk ih =>
    rw [List.flatten_concat] at h ⊢
    rw [feedAll_concat]
    exact (ih ((List.prefix_append _ _).trans h)).feed h

/-- **All chunks of a text.** -/
theorem feedAll_eq {chunks : List (List UInt8)} (h : chunks.flatten = encode text) :
    feedAll {} chunks = ({ (scanAll {} text).1 with utf8Pending := [] }, (scanAll {} text).2) := by
  have hall : chunks.flatten <+: encode text := h ▸ List.prefix_rfl
  obtain ⟨head, part, ⟨rest, rfl⟩, heq, hpart, hresult⟩ := hasRead_feedAll hall
  rw [h, encode_append, List.append_cancel_left_eq] at heq
  have hnil : part = [] := by
    have hlength : pendingLength (encode [] ++ part) = part.length :=
      pendingLength_unfinished hpart
    rw [encode_nil, List.nil_append, ← heq, pendingLength_encode, heq] at hlength
    exact List.length_eq_zero_iff.1 hlength.symm
  have hrest : rest = [] := by
    have hdecoded := congrArg decode (heq.trans hnil)
    rwa [decode_encode] at hdecoded
  rw [hresult, hnil, hrest, List.append_nil]

end RawStreamParser

open RawStreamParser

/-- **Reading does not depend on the chunks**: two ways to cut a text give the same lines and the
same line that is not complete, and what is kept is always a part of one character. -/
theorem chunks_irrelevant (text : List Char) (chunks chunks' : List (List UInt8))
    (h : chunks.flatten = encode text) (h' : chunks'.flatten = encode text) :
    (feedAll {} chunks).2 = (feedAll {} chunks').2 ∧
      (feedAll {} chunks).1.pending = (feedAll {} chunks').1.pending ∧
        ∀ fed, fed <+: chunks → IsUnfinished (feedAll {} fed).1.utf8Pending := by
  refine ⟨by rw [feedAll_eq h, feedAll_eq h'], by rw [feedAll_eq h, feedAll_eq h'], ?_⟩
  rintro fed ⟨more, rfl⟩
  have hfed : fed.flatten <+: encode text := by
    rw [← h, List.flatten_append]
    exact List.prefix_append _ _
  obtain ⟨head, part, -, -, hpart, hresult⟩ := hasRead_feedAll hfed
  rw [hresult]
  exact hpart

/-- Cuts inside a character, an escape sequence and the end of a line. -/
theorem chunks_irrelevant_cuts :
    let chunks := [[0xC3], [0xA9, 0x1B, 0x5B], [0x33, 0x31, 0x6D, 0x0D], [0x0A, 0x61]]
    (feedAll {} chunks).2 = (feedAll {} [chunks.flatten]).2 ∧
      (feedAll {} chunks).1.pending = (feedAll {} [chunks.flatten]).1.pending ∧
        ∀ fed, fed <+: chunks → IsUnfinished (feedAll {} fed).1.utf8Pending :=
  chunks_irrelevant ['é', '\x1b', '[', '3', '1', 'm', '\r', '\n', 'a'] _ _ (by decide +kernel)
    (by decide +kernel)

example : (feedAll {} [[0xC3], [0xA9, 0x1B, 0x5B], [0x33, 0x31, 0x6D, 0x0D], [0x0A, 0x61]]).2 =
    ["é"] := by decide +kernel

end Imcodes.Terminal
