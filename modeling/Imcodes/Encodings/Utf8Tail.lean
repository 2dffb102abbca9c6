import Imcodes.Encodings.Utf8

/-!
# The last bytes of a text

* `drop_encode` — they are what is left of a character, and the characters after it.
* `count_newline_encode` — the bytes that break lines are the characters that do.
-/

namespace Utf8

variable {text : List Char} {c : Char} {offset : ℕ}

/-- **The last bytes of a text** begin with what is left of one of its characters. -/
theorem drop_encode (text : List Char) (offset : ℕ) :
    ∃ part rest, rest <:+ text ∧ (encode text).drop offset = part ++ encode rest ∧
      ∀ byte ∈ part, IsContinuation byte := by
  induction text generalizing offset with
  | nil => exact ⟨[], [], List.suffix_refl _, List.drop_nil, List.forall_mem_nil _⟩
  | cons c text ih =>
    rw [encode_cons]
    by_cases hlength : (String.utf8EncodeChar c).length ≤ offset
    · obtain ⟨part, rest, hrest, heq, hpart⟩ := ih (offset - (String.utf8EncodeChar c).length)
      refine ⟨part, rest, hrest.trans (List.suffix_cons _ _), ?_, hpart⟩
      rw [List.drop_append, List.drop_eq_nil_of_le hlength, List.nil_append, heq]
    · by_cases hzero : offset = 0
      · exact ⟨[], c :: text, List.suffix_refl _, by rw [hzero]; rfl, List.forall_mem_nil _⟩
      · refine ⟨(String.utf8EncodeChar c).drop offset, text, List.suffix_cons _ _, ?_, ?_⟩
        · exact List.drop_append_of_le_length (by omega)
        · refine continuation_of_append (List.take_append_drop offset _) ?_
          exact List.ne_nil_of_length_pos (by rw [List.length_take]; omega)

/-- The last bytes of a text are decoded to replacements and the characters after them. -/
theorem decode_continuations {part : List UInt8} {rest : List Char}
    (hpart : ∀ byte ∈ part, IsContinuation byte) :
    decode (part ++ encode rest) = List.replicate part.length replacement ++ rest := by
  rw [decode, run_continuations _ hpart]
  exact congrArg _ decode_encode

theorem newline_not_mem_continuations {part : List UInt8}
    (hpart : ∀ byte ∈ part, IsContinuation byte) : (0x0a : UInt8) ∉ part := by
  intro hmem
  obtain ⟨hlow, -⟩ := hpart _ hmem
  exact absurd hlow (by decide)

theorem newline_not_mem_utf8EncodeChar (h : c ≠ '\n') :
    (0x0a : UInt8) ∉ String.utf8EncodeChar c := by
  have hnewline : start (0x0a : UInt8).toNat = (['\n'], none) := by decide
  rcases utf8EncodeChar_cases c with ⟨byte, heq, hstart⟩ | ⟨byte, p, tail, heq, hstart, hspells⟩
  · rw [heq, List.mem_singleton]
    rintro rfl
    rw [hnewline] at hstart
    exact h (List.cons.inj (Prod.mk.inj hstart).1).1.symm
  · rw [heq, List.mem_cons]
    rintro (rfl | hmem)
    · rw [hnewline] at hstart
      exact absurd (Prod.mk.inj hstart).1 (List.cons_ne_nil _ _)
    · exact newline_not_mem_continuations hspells.continuation hmem

/-- The bytes that break lines are the characters that do. -/
theorem count_newline_encode : (encode text).count 0x0a = text.count '\n' := by
  induction text with
  | nil => rfl
  | cons c text ih =>
    rw [encode_cons, List.count_append, ih, List.count_cons]
    by_cases h : c = '\n'
    · subst h
      rw [show (String.utf8EncodeChar '\n').count 0x0a = 1 by decide, Nat.add_comm]
      rfl
    · rw [List.count_eq_zero_of_not_mem (newline_not_mem_utf8EncodeChar h), Nat.zero_add,
        if_neg (by simpa using h), Nat.add_zero]

end Utf8
