import Mathlib.Data.List.Basic

/-!
# UTF-8

Encoding texts, and decoding any bytes whatever: what is not UTF-8 is replaced by U+FFFD, one for
each longest part that could still have become a character.

* `run_encode` — a text is decoded to itself, whatever follows it.
* `decode_append` — a text can be cut between two of its characters.
* `length_decode_append` — cutting a text inside a character makes its decoding longer.
-/

namespace Utf8

/-- The bytes of a text. -/
def encode (text : List Char) : List UInt8 :=
  text.flatMap String.utf8EncodeChar

/-- What is put for bytes that are no character. -/
def replacement : Char := '\uFFFD'

/-- A character of which some bytes are read. -/
structure Pending where
  codePoint : ℕ
  /-- How many bytes are still to come. -/
  needed : ℕ
  /-- The bounds of the next one. -/
  lower : ℕ := 0x80
  upper : ℕ := 0xBF
  deriving DecidableEq, Repr

/-- A byte between two characters. -/
def start (byte : ℕ) : List Char × Option Pending :=
  if byte ≤ 0x7F then ([Char.ofNat byte], none)
  else if 0xC2 ≤ byte ∧ byte ≤ 0xDF then
    ([], some { codePoint := byte % 0x20, needed := 1 })
  else if 0xE0 ≤ byte ∧ byte ≤ 0xEF then
    ([], some
      { codePoint := byte % 0x10
        needed := 2
        lower := if byte = 0xE0 then 0xA0 else 0x80
        upper := if byte = 0xED then 0x9F else 0xBF })
  else if 0xF0 ≤ byte ∧ byte ≤ 0xF4 then
    ([], some
      { codePoint := byte % 0x08
        needed := 3
        lower := if byte = 0xF0 then 0x90 else 0x80
        upper := if byte = 0xF4 then 0x8F else 0xBF })
  else ([replacement], none)

/-- A byte out of bounds ends the pending character and is read again. -/
def feed (pending : Option Pending) (byte : ℕ) : List Char × Option Pending :=
  match pending with
  | none => start byte
  | some p =>
    if p.lower ≤ byte ∧ byte ≤ p.upper then
      let codePoint := p.codePoint * 0x40 + byte % 0x40
      if p.needed = 1 then ([Char.ofNat codePoint], none)
      else ([], some { codePoint, needed := p.needed - 1 })
    else (replacement :: (start byte).1, (start byte).2)

def run (pending : Option Pending) : List UInt8 → List Char
  | [] => if pending.isSome then [replacement] else []
  | byte :: bytes => (feed pending byte.toNat).1 ++ run (feed pending byte.toNat).2 bytes

/-- The text of any bytes. -/
def decode (bytes : List UInt8) : List Char :=
  run none bytes

example : decode [0x68, 0xC3, 0xA9, 0xE2, 0x82] = ['h', 'é', replacement] := by decide +kernel

variable {text head : List Char} {c : Char} {bytes rest part whole : List UInt8}

@[simp] theorem encode_nil : encode [] = [] := rfl

@[simp] theorem encode_cons : encode (c :: text) = String.utf8EncodeChar c ++ encode text := rfl

theorem encode_append {text' : List Char} : encode (text ++ text') = encode text ++ encode text' :=
  List.flatMap_append

/-- A byte that goes on with a character. -/
def IsContinuation (byte : UInt8) : Prop :=
  0x80 ≤ byte.toNat ∧ byte.toNat ≤ 0xBF

theorem run_continuation {byte : UInt8} (h : IsContinuation byte) :
    run none (byte :: rest) = replacement :: run none rest := by
  obtain ⟨hlow, hhigh⟩ := h
  rw [run, feed, start, if_neg (by omega), if_neg (by omega), if_neg (by omega), if_neg (by omega)]
  rfl

theorem run_continuations (rest : List UInt8) (h : ∀ byte ∈ part, IsContinuation byte) :
    run none (part ++ rest) = List.replicate part.length replacement ++ run none rest := by
  induction part with
  | nil => rfl
  | cons byte part ih =>
    rw [List.cons_append, run_continuation (h byte List.mem_cons_self),
      ih fun b hb => h b (List.mem_cons_of_mem _ hb)]
    rfl

/-- The bytes that make a pending character this one. -/
inductive Spells : Pending → List UInt8 → Char → Prop
  | last {p : Pending} {byte : UInt8} {c : Char} (hbyte : IsContinuation byte)
      (hlower : p.lower ≤ byte.toNat) (hupper : byte.toNat ≤ p.upper) (hneeded : p.needed = 1)
      (hc : Char.ofNat (p.codePoint * 0x40 + byte.toNat % 0x40) = c) : Spells p [byte] c
  | more {p : Pending} {byte : UInt8} {bytes : List UInt8} {c : Char}
      (hbyte : IsContinuation byte) (hlower : p.lower ≤ byte.toNat)
      (hupper : byte.toNat ≤ p.upper) (hneeded : p.needed ≠ 1)
      (hmore : Spells { codePoint := p.codePoint * 0x40 + byte.toNat % 0x40
                        needed := p.needed - 1 } bytes c) : Spells p (byte :: bytes) c

namespace Spells

variable {p : Pending}

theorem continuation (h : Spells p bytes c) : ∀ byte ∈ bytes, IsContinuation byte := by
  induction h with
  | last hbyte => exact List.forall_mem_singleton.2 hbyte
  | more hbyte _ _ _ _ ih => exact List.forall_mem_cons.2 ⟨hbyte, ih⟩

theorem run_append (h : Spells p bytes c) : run (some p) (bytes ++ rest) = c :: run none rest := by
  induction h with
  | last _ hlower hupper hneeded hc =>
    simp only [List.cons_append, List.nil_append, run, feed, if_pos (And.intro hlower hupper),
      if_pos hneeded, hc]
  | more _ hlower hupper hneeded _ ih =>
    simpa only [List.cons_append, run, feed, if_pos (And.intro hlower hupper), if_neg hneeded,
      List.nil_append] using ih

/-- A part of the bytes leaves the character unfinished. -/
theorem run_part (h : Spells p bytes c) (hpart : part <+: bytes) (hne : part ≠ bytes) :
    run (some p) part = [replacement] := by
  induction h generalizing part with
  | last =>
    rcases List.prefix_cons_iff.1 hpart with rfl | ⟨part, rfl, hnil⟩
    · rfl
    · exact absurd (by rw [List.prefix_nil.1 hnil]) hne
  | more _ hlower hupper hneeded _ ih =>
    rcases List.prefix_cons_iff.1 hpart with rfl | ⟨part', rfl, hpart'⟩
    · rfl
    · simpa only [run, feed, if_pos (And.intro hlower hupper), if_neg hneeded,
        List.nil_append] using ih hpart' fun heq => hne (by rw [heq])

end Spells

theorem toNat_ofNat {n : ℕ} (h : n < 0x100) : (UInt8.ofNat n).toNat = n :=
  UInt8.toNat_ofNat_of_lt' h

theorem isContinuation_ofNat (n : ℕ) : IsContinuation (UInt8.ofNat (n % 0x40 + 0x80)) := by
  rw [IsContinuation, toNat_ofNat (by omega)]
  omega

theorem start_two {byte : ℕ} (h : 0xC2 ≤ byte ∧ byte ≤ 0xDF) :
    start byte = ([], some { codePoint := byte % 0x20, needed := 1 }) := by
  rw [start, if_neg (by omega), if_pos h]

theorem start_three {byte : ℕ} (h : 0xE0 ≤ byte ∧ byte ≤ 0xEF) :
    start byte = ([], some
      { codePoint := byte % 0x10
        needed := 2
        lower := if byte = 0xE0 then 0xA0 else 0x80
        upper := if byte = 0xED then 0x9F else 0xBF }) := by
  rw [start, if_neg (by omega), if_neg (by omega), if_pos h]

theorem start_four {byte : ℕ} (h : 0xF0 ≤ byte ∧ byte ≤ 0xF4) :
    start byte = ([], some
      { codePoint := byte % 0x08
        needed := 3
        lower := if byte = 0xF0 then 0x90 else 0x80
        upper := if byte = 0xF4 then 0x8F else 0xBF }) := by
  rw [start, if_neg (by omega), if_neg (by omega), if_neg (by omega), if_pos h]

/-- A character is one byte or a first one and the bytes it waits for. -/
theorem utf8EncodeChar_cases (c : Char) :
    (∃ byte, String.utf8EncodeChar c = [byte] ∧ start byte.toNat = ([c], none)) ∨
      ∃ byte p tail, String.utf8EncodeChar c = byte :: tail ∧
        start byte.toNat = ([], some p) ∧ Spells p tail c := by
  have hvalid : c.toNat < 0xD800 ∨ 0xDFFF < c.toNat ∧ c.toNat < 0x110000 := c.valid
  have hc : Char.ofNat c.toNat = c := Char.ofNat_toNat c
  have hval : c.val.toNat = c.toNat := rfl
  generalize c.toNat = n at hvalid hc hval
  have hlast : (UInt8.ofNat (n % 0x40 + 0x80)).toNat = n % 0x40 + 0x80 := toNat_ofNat (by omega)
  have hlast2 : (UInt8.ofNat (n / 64 % 0x40 + 0x80)).toNat = n / 64 % 0x40 + 0x80 :=
    toNat_ofNat (by omega)
  have hlast3 : (UInt8.ofNat (n / 4096 % 0x40 + 0x80)).toNat = n / 4096 % 0x40 + 0x80 :=
    toNat_ofNat (by omega)
  unfold String.utf8EncodeChar
  simp only [hval]
  split_ifs with h1 h2 h3
  · refine Or.inl ⟨_, rfl, ?_⟩
    rw [toNat_ofNat (by omega), start, if_pos h1, hc]
  · have hfirst : (UInt8.ofNat (n / 64 % 0x20 + 0xC0)).toNat = n / 64 % 0x20 + 0xC0 :=
      toNat_ofNat (by omega)
    refine Or.inr ⟨_, _, _, rfl, start_two (by omega), .last (isContinuation_ofNat _) ?_ ?_ rfl ?_⟩
    · rw [hlast]
      exact Nat.le_add_left _ _
    · rw [hlast]
      dsimp only
      omega
    · rw [hfirst, hlast, ← hc]
      congr 1
      dsimp only
      omega
  · have hfirst : (UInt8.ofNat (n / 4096 % 0x10 + 0xE0)).toNat = n / 4096 % 0x10 + 0xE0 :=
      toNat_ofNat (by omega)
    refine Or.inr ⟨_, _, _, rfl, start_three (by omega),
      .more (isContinuation_ofNat _) ?_ ?_ (Nat.succ_ne_self _)
        (.last (isContinuation_ofNat _) ?_ ?_ rfl ?_)⟩
    · rw [hfirst, hlast2]
      dsimp only
      split_ifs <;> omega
    · rw [hfirst, hlast2]
      dsimp only
      split_ifs <;> omega
    · rw [hlast]
      exact Nat.le_add_left _ _
    · rw [hlast]
      dsimp only
      omega
    · rw [hfirst, hlast, hlast2, ← hc]
      congr 1
      dsimp only
      omega
  · have hfirst : (UInt8.ofNat (n / 262144 % 0x08 + 0xF0)).toNat = n / 262144 % 0x08 + 0xF0 :=
      toNat_ofNat (by omega)
    refine Or.inr ⟨_, _, _, rfl, start_four (by omega),
      .more (isContinuation_ofNat _) ?_ ?_ (show (3 : ℕ) ≠ 1 by decide)
        (.more (isContinuation_ofNat _) ?_ ?_ (show (2 : ℕ) ≠ 1 by decide)
          (.last (isContinuation_ofNat _) ?_ ?_ rfl ?_))⟩
    · rw [hfirst, hlast3]
      dsimp only
      split_ifs <;> omega
    · rw [hfirst, hlast3]
      dsimp only
      split_ifs <;> omega
    · rw [hlast2]
      exact Nat.le_add_left _ _
    · rw [hlast2]
      dsimp only
      omega
    · rw [hlast]
      exact Nat.le_add_left _ _
    · rw [hlast]
      dsimp only
      omega
    · rw [hfirst, hlast, hlast2, hlast3, ← hc]
      congr 1
      dsimp only
      omega

theorem run_utf8EncodeChar (c : Char) (rest : List UInt8) :
    run none (String.utf8EncodeChar c ++ rest) = c :: run none rest := by
  rcases utf8EncodeChar_cases c with ⟨byte, heq, hstart⟩ | ⟨byte, p, tail, heq, hstart, hspells⟩
  · rw [heq, List.singleton_append, run, feed, hstart]
    rfl
  · rw [heq, List.cons_append, run, feed, hstart]
    exact hspells.run_append

theorem decode_part (hpart : part <+: String.utf8EncodeChar c) (hnil : part ≠ [])
    (hne : part ≠ String.utf8EncodeChar c) : decode part = [replacement] := by
  rcases utf8EncodeChar_cases c with ⟨byte, heq, hstart⟩ | ⟨byte, p, tail, heq, hstart, hspells⟩
  all_goals rw [heq] at hpart hne
  all_goals obtain ⟨part', rfl, hpart'⟩ := (List.prefix_cons_iff.1 hpart).resolve_left hnil
  · exact absurd (by rw [List.prefix_nil.1 hpart']) hne
  · rw [decode, run, feed, hstart]
    exact hspells.run_part hpart' fun heq' => hne (by rw [heq'])

theorem length_decode_part (hpart : part <+: String.utf8EncodeChar c) (hnil : part ≠ []) :
    (decode part).length = 1 := by
  by_cases hne : part = String.utf8EncodeChar c
  · have hc := run_utf8EncodeChar c []
    rw [List.append_nil] at hc
    rw [hne, decode, hc]
    rfl
  · rw [decode_part hpart hnil hne, List.length_singleton]

/-- What is left of a character that has begun goes on with one. -/
theorem continuation_of_append (heq : part ++ rest = String.utf8EncodeChar c) (hnil : part ≠ []) :
    ∀ byte ∈ rest, IsContinuation byte := by
  obtain ⟨first, part', rfl⟩ := List.exists_cons_of_ne_nil hnil
  rcases utf8EncodeChar_cases c with ⟨byte, hc, -⟩ | ⟨byte, p, tail, hc, -, hspells⟩
  all_goals rw [hc, List.cons_append, List.cons.injEq] at heq
  · rw [(List.append_eq_nil_iff.1 heq.2).2]
    exact List.forall_mem_nil _
  · intro b hb
    exact hspells.continuation b (heq.2 ▸ List.mem_append_right _ hb)

theorem run_encode (head : List Char) (rest : List UInt8) :
    run none (encode head ++ rest) = head ++ run none rest := by
  induction head with
  | nil => rfl
  | cons c head ih =>
    rw [encode_cons, List.append_assoc, run_utf8EncodeChar, ih, List.cons_append]

theorem decode_encode : decode (encode text) = text := by
  have h := run_encode text []
  rwa [List.append_nil, show run none [] = [] from rfl, List.append_nil] at h

/-- The first bytes of a text are some of its characters and a part of the next one. -/
theorem prefix_encode_cases (h : bytes <+: encode text) :
    (∃ head, head <+: text ∧ bytes = encode head) ∨
      ∃ head c rest part, text = head ++ c :: rest ∧ bytes = encode head ++ part ∧
        part <+: String.utf8EncodeChar c ∧ part ≠ [] ∧ part ≠ String.utf8EncodeChar c := by
  induction text generalizing bytes with
  | nil => exact Or.inl ⟨[], List.prefix_refl _, List.prefix_nil.1 h⟩
  | cons c text ih =>
    rw [encode_cons] at h
    rcases List.prefix_or_prefix_of_prefix h (List.prefix_append _ _) with hpart | ⟨bytes', rfl⟩
    · by_cases hnil : bytes = []
      · exact Or.inl ⟨[], List.nil_prefix, hnil⟩
      · by_cases hwhole : bytes = String.utf8EncodeChar c
        · exact Or.inl ⟨[c], ⟨text, rfl⟩, by rw [hwhole, encode_cons, encode_nil, List.append_nil]⟩
        · exact Or.inr ⟨[], c, text, bytes, rfl, rfl, hpart, hnil, hwhole⟩
    · rcases ih ((List.prefix_append_right_inj _).1 h) with
        ⟨head, ⟨rest, rfl⟩, rfl⟩ | ⟨head, d, rest, part, rfl, rfl, hpart⟩
      · exact Or.inl ⟨c :: head, ⟨rest, rfl⟩, rfl⟩
      · exact Or.inr ⟨c :: head, d, rest, part, rfl, by rw [encode_cons, List.append_assoc], hpart⟩

/-- A place in the bytes of a text where one of its characters begins, or its end. -/
def AtBoundary (text : List Char) (offset : ℕ) : Prop :=
  ∃ head, head <+: text ∧ (encode head).length = offset

theorem atBoundary_zero : AtBoundary text 0 :=
  ⟨[], List.nil_prefix, rfl⟩

theorem eq_of_atBoundary (h : AtBoundary text bytes.length) (hbytes : bytes <+: encode text) :
    ∃ head, head <+: text ∧ bytes = encode head := by
  obtain ⟨head, hhead, hlength⟩ := h
  obtain ⟨rest, rfl⟩ := hhead
  rw [encode_append] at hbytes
  exact ⟨head, List.prefix_append _ _, (List.prefix_of_prefix_length_le hbytes
    (List.prefix_append _ _) (Nat.le_of_eq hlength.symm)).eq_of_length hlength.symm⟩

/-- Nothing is lost by a cut between two characters. -/
theorem decode_append (h : AtBoundary text bytes.length) (hbytes : bytes <+: encode text) :
    decode (bytes ++ rest) = decode bytes ++ decode rest := by
  obtain ⟨head, -, rfl⟩ := eq_of_atBoundary h hbytes
  rw [decode, run_encode, decode_encode]
  rfl

/-- A cut inside a character makes the decoding longer. -/
theorem length_decode_append_lt (h : ¬ AtBoundary text bytes.length)
    (hbytes : bytes ++ rest <+: encode text) (hrest : rest ≠ []) :
    (decode (bytes ++ rest)).length < (decode bytes).length + (decode rest).length := by
  rcases prefix_encode_cases ((List.prefix_append _ _).trans hbytes) with
    ⟨head, hhead, rfl⟩ | ⟨head, c, after, part, rfl, rfl, hpart, hnil, hne⟩
  · exact absurd ⟨head, hhead, rfl⟩ h
  obtain ⟨missing, hmissing⟩ := hpart
  have hcont := continuation_of_append hmissing hnil
  have hbefore : decode (encode head ++ part) = head ++ [replacement] := by
    rw [decode, run_encode]
    exact congrArg _ (decode_part ⟨missing, hmissing⟩ hnil hne)
  rw [hbefore, List.length_append, List.length_singleton]
  rw [encode_append, encode_cons, ← hmissing, List.append_assoc, List.append_assoc,
    List.prefix_append_right_inj, List.prefix_append_right_inj] at hbytes
  rw [List.append_assoc, decode, run_encode, List.length_append]
  rcases List.prefix_or_prefix_of_prefix hbytes (List.prefix_append _ _) with
    hinside | ⟨more, rfl⟩
  · have hall := run_continuations [] fun byte h => hcont byte (hinside.subset h)
    have hone := length_decode_part (hmissing ▸ (List.prefix_append_right_inj _).2 hinside)
      (List.append_ne_nil_of_left_ne_nil hnil _)
    have hpos := List.length_pos_of_ne_nil hrest
    rw [List.append_nil] at hall
    rw [decode] at hone
    rw [decode, hall, List.length_append, List.length_replicate, hone]
    omega
  · have hall := run_continuations more hcont
    have hpos : 0 < missing.length := List.length_pos_of_ne_nil fun heq =>
      hne (by rw [← hmissing, heq, List.append_nil])
    rw [← List.append_assoc, hmissing, run_utf8EncodeChar, List.length_cons, decode, hall,
      List.length_append, List.length_replicate]
    omega

end Utf8
