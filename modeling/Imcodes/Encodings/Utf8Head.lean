import Imcodes.Collections.Lines
import Imcodes.Encodings.Utf8

/-!
# The first bytes of a text

* `decode_take` — they are decoded to its first characters and perhaps one replacement.
* `ended_takeBytes` — the lines that end in them are those that have the room.
-/

namespace Utf8

/-- The characters that lie in the first so many bytes. -/
def takeBytes : ℕ → List Char → List Char
  | _, [] => []
  | count, c :: text =>
    if (String.utf8EncodeChar c).length ≤ count then
      c :: takeBytes (count - (String.utf8EncodeChar c).length) text
    else []

variable {text text' : List Char} {count : ℕ}

theorem prefix_takeBytes : takeBytes count text <+: text := by
  induction text generalizing count with
  | nil => exact List.prefix_rfl
  | cons c text ih =>
    rw [takeBytes]
    split
    · exact List.prefix_cons_inj c |>.2 ih
    · exact List.nil_prefix

theorem length_encode_takeBytes : (encode (takeBytes count text)).length ≤ count := by
  induction text generalizing count with
  | nil => exact Nat.zero_le _
  | cons c text ih =>
    rw [takeBytes]
    split
    · rename_i hle
      have hrest := @ih (count - (String.utf8EncodeChar c).length)
      rw [encode_cons, List.length_append]
      omega
    · exact Nat.zero_le _

/-- A text that lies in the bytes, and what follows it. -/
theorem takeBytes_append_of_le (h : (encode text).length ≤ count) :
    takeBytes count (text ++ text') =
      text ++ takeBytes (count - (encode text).length) text' := by
  induction text generalizing count with
  | nil => rfl
  | cons c text ih =>
    rw [encode_cons, List.length_append] at h
    rw [List.cons_append, takeBytes, if_pos (by omega), ih (by omega), encode_cons,
      List.length_append, Nat.sub_sub, List.cons_append]

/-- A text that does not lie in the bytes as a whole. -/
theorem takeBytes_append_of_lt (h : count < (encode text).length) :
    takeBytes count (text ++ text') = takeBytes count text := by
  induction text generalizing count with
  | nil => exact absurd h (Nat.not_lt_zero _)
  | cons c text ih =>
    rw [encode_cons, List.length_append] at h
    rw [List.cons_append, takeBytes, takeBytes]
    split
    · rw [ih (by omega)]
    · rfl

/-- **The first bytes of a text**: a character that is cut is decoded to a replacement. -/
theorem decode_take : ∃ cut, decode ((encode text).take count) =
    takeBytes count text ++ List.replicate cut replacement := by
  induction text generalizing count with
  | nil => exact ⟨0, by rw [encode_nil, List.take_nil]; rfl⟩
  | cons c text ih =>
    rw [encode_cons, takeBytes]
    split
    · rename_i hle
      obtain ⟨cut, hcut⟩ := @ih (count - (String.utf8EncodeChar c).length)
      refine ⟨cut, ?_⟩
      rw [List.take_append, List.take_of_length_le hle, decode, run_utf8EncodeChar,
        List.cons_append, ← hcut]
      rfl
    · rename_i hlt
      rw [List.take_append_of_le_length (by omega)]
      by_cases hzero : count = 0
      · exact ⟨0, by rw [hzero]; rfl⟩
      · refine ⟨1, decode_part (List.take_prefix _ _) ?_ fun hwhole => ?_⟩
        · exact List.ne_nil_of_length_pos (by rw [List.length_take]; omega)
        · have hlength := congrArg List.length hwhole
          rw [List.length_take] at hlength
          omega

/-! ## Lines -/

/-- Those of the lines that lie in the first so many bytes, each with the line break after it. -/
def linesWithin : ℕ → List (List Char) → List (List Char)
  | _, [] => []
  | count, line :: lines =>
    if (encode line).length + 1 ≤ count then
      line :: linesWithin (count - ((encode line).length + 1)) lines
    else []

theorem linesWithin_prefix {lines : List (List Char)} : linesWithin count lines <+: lines := by
  induction lines generalizing count with
  | nil => exact List.prefix_rfl
  | cons line lines ih =>
    rw [linesWithin]
    split
    · exact (List.prefix_cons_inj line).2 ih
    · exact List.nil_prefix

/-- **The lines that end in the first bytes of a text.** -/
theorem ended_takeBytes (text : List Char) :
    Lines.ended '\n' (takeBytes count text) = linesWithin count (Lines.ended '\n' text) := by
  induction text using Lines.line_induction '\n' generalizing count with
  | last text h =>
    rw [Lines.ended_last h, Lines.ended_last fun hmem => h (prefix_takeBytes.subset hmem)]
    rfl
  | line line text h ih =>
    have hlength : (encode (line ++ ['\n'])).length = (encode line).length + 1 := by
      rw [encode_append, List.length_append]
      rfl
    rw [Lines.ended_line h, List.append_cons, linesWithin]
    by_cases hle : (encode line).length + 1 ≤ count
    · rw [if_pos hle, takeBytes_append_of_le (by omega), hlength, List.append_assoc,
        List.singleton_append, Lines.ended_line h, ih]
    · rw [if_neg hle, takeBytes_append_of_lt (by omega)]
      -- what is taken of the line stops before its line break
      refine Lines.ended_last ?_
      rcases List.prefix_concat_iff.1 (@prefix_takeBytes (line ++ ['\n']) count) with heq | hpart
      · have hle' := @length_encode_takeBytes (line ++ ['\n']) count
        rw [heq, hlength] at hle'
        exact absurd hle' hle
      · exact fun hmem => h (hpart.subset hmem)

end Utf8
