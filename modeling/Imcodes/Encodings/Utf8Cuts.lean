import Imcodes.Collections.Lines
import Mathlib.Data.Nat.Find
import Imcodes.Encodings.Utf8

/-!
# UTF-8 that is decoded part by part

The bytes of a text are cut at some places and each part is decoded by itself. A character with no
cut inside comes out unchanged, any other one as two or more replacements.

* `spelled_runCut` — what each character becomes.
* `newest_eq_iff` — the last lines come out unchanged when no cut is inside one of their characters.
-/

namespace Utf8

/-- Decoding that starts anew at each cut. -/
def runCut (cut : ℕ → Prop) [DecidablePred cut] (offset : ℕ) (pending : Option Pending) :
    List UInt8 → List Char
  | [] => run pending []
  | byte :: bytes =>
    let pending' := if cut offset then none else pending
    (if cut offset then run pending [] else []) ++ (feed pending' byte.toNat).1 ++
      runCut cut (offset + 1) (feed pending' byte.toNat).2 bytes

variable {cut : ℕ → Prop} {offset : ℕ} {pending : Option Pending} {c : Char}

section Runs

variable [DecidablePred cut]

theorem runCut_of_cut {byte : UInt8} {bytes : List UInt8} (h : cut offset) :
    runCut cut offset pending (byte :: bytes) =
      run pending [] ++ runCut cut offset none (byte :: bytes) := by
  simp only [runCut, if_pos h, List.append_assoc]
  rfl

theorem runCut_cons {byte : UInt8} {bytes : List UInt8} (h : ¬ cut offset ∨ pending = none) :
    runCut cut offset pending (byte :: bytes) =
      (feed pending byte.toNat).1 ++ runCut cut (offset + 1) (feed pending byte.toNat).2 bytes := by
  by_cases hcut : cut offset
  · obtain rfl := h.resolve_left (not_not_intro hcut)
    simp only [runCut, if_pos hcut]
    rfl
  · simp only [runCut, if_neg hcut, List.nil_append]

/-- A cut between two parts. -/
theorem runCut_append {part more : List UInt8} (h : cut (offset + part.length))
    (hmore : more ≠ []) :
    runCut cut offset pending (part ++ more) =
      runCut cut offset pending part ++ runCut cut (offset + part.length) none more := by
  induction part generalizing offset pending with
  | nil =>
    obtain ⟨byte, more, rfl⟩ := List.exists_cons_of_ne_nil hmore
    exact runCut_of_cut h
  | cons byte part ih =>
    have hnext : cut (offset + 1 + part.length) := by
      rwa [List.length_cons, Nat.add_comm part.length, ← Nat.add_assoc] at h
    rw [List.cons_append, List.length_cons, Nat.add_comm part.length, ← Nat.add_assoc]
    simp only [runCut, ih hnext, List.append_assoc]

/-- A part with no cut inside. -/
theorem runCut_eq_run {bytes : List UInt8}
    (h : ∀ position, offset ≤ position → position < offset + bytes.length →
      ¬ cut position ∨ pending = none ∧ position = offset) :
    runCut cut offset pending bytes = run pending bytes := by
  induction bytes generalizing offset pending with
  | nil => rfl
  | cons byte bytes ih =>
    have hfirst := h offset (Nat.le_refl _) (by simp)
    rw [runCut_cons (hfirst.imp_right And.left), run, ih fun position hle hlt => ?_]
    rcases h position (by omega) (by simp only [List.length_cons]; omega) with hcut | ⟨-, heq⟩
    · exact Or.inl hcut
    · omega

/-- A character with no cut inside. -/
theorem Spells.runCut_append {p : Pending} {bytes rest : List UInt8} (h : Spells p bytes c)
    (hcut : ∀ position, offset ≤ position → position < offset + bytes.length → ¬ cut position) :
    runCut cut offset (some p) (bytes ++ rest) =
      c :: runCut cut (offset + bytes.length) none rest := by
  induction h generalizing offset with
  | last _ hlower hupper hneeded hc =>
    rw [List.cons_append, List.nil_append,
      runCut_cons (Or.inl (hcut offset (Nat.le_refl _) (by simp))), feed,
      if_pos ⟨hlower, hupper⟩, if_pos hneeded, hc]
    rfl
  | @more _ _ bytes _ _ hlower hupper hneeded _ ih =>
    rw [List.cons_append, runCut_cons (Or.inl (hcut offset (Nat.le_refl _) (by simp))), feed,
      if_pos ⟨hlower, hupper⟩, if_neg hneeded, List.nil_append, List.length_cons,
      Nat.add_comm bytes.length, ← Nat.add_assoc]
    refine ih fun position hle hlt => hcut position (by omega) ?_
    rw [List.length_cons]
    omega

theorem runCut_utf8EncodeChar {rest : List UInt8}
    (hcut : ∀ position, offset < position →
      position < offset + (String.utf8EncodeChar c).length → ¬ cut position) :
    runCut cut offset none (String.utf8EncodeChar c ++ rest) =
      c :: runCut cut (offset + (String.utf8EncodeChar c).length) none rest := by
  rcases utf8EncodeChar_cases c with ⟨byte, heq, hstart⟩ | ⟨byte, p, bytes, heq, hstart, hspells⟩
  · rw [heq, List.cons_append, runCut_cons (Or.inr rfl), feed, hstart]
    rfl
  · rw [heq, List.cons_append, runCut_cons (Or.inr rfl), feed, hstart, List.nil_append,
      List.length_cons, Nat.add_comm bytes.length, ← Nat.add_assoc]
    refine hspells.runCut_append fun position hle hlt => hcut position (by omega) ?_
    rw [heq, List.length_cons]
    omega

theorem runCut_continuations {part rest : List UInt8}
    (h : ∀ byte ∈ part, IsContinuation byte) :
    runCut cut offset none (part ++ rest) =
      List.replicate part.length replacement ++ runCut cut (offset + part.length) none rest := by
  induction part generalizing offset with
  | nil => rfl
  | cons byte part ih =>
    obtain ⟨hlow, hhigh⟩ := h byte List.mem_cons_self
    have hstart : feed none byte.toNat = ([replacement], none) := by
      rw [feed, start, if_neg (by omega), if_neg (by omega), if_neg (by omega), if_neg (by omega)]
    rw [List.cons_append, runCut_cons (Or.inr rfl), hstart,
      ih fun b hb => h b (List.mem_cons_of_mem _ hb), List.length_cons, Nat.add_comm part.length,
      ← Nat.add_assoc, Nat.add_comm 1, List.replicate_succ]
    rfl

/-- A cut is inside the character whose first byte is at the offset. -/
def CutsInside (cut : ℕ → Prop) (offset : ℕ) (c : Char) : Prop :=
  ∃ position, offset < position ∧ position < offset + (String.utf8EncodeChar c).length ∧
    cut position

/-- What a text becomes: characters with a cut inside become two or more replacements. -/
inductive Spelled (cut : ℕ → Prop) : ℕ → List Char → List Char → Prop
  | nil {offset : ℕ} : Spelled cut offset [] []
  | whole {offset : ℕ} {c : Char} {text out : List Char} (hcut : ¬ CutsInside cut offset c)
      (hmore : Spelled cut (offset + (String.utf8EncodeChar c).length) text out) :
      Spelled cut offset (c :: text) (c :: out)
  | broken {offset count : ℕ} {c : Char} {text out : List Char} (hcut : CutsInside cut offset c)
      (hcount : 1 < count)
      (hmore : Spelled cut (offset + (String.utf8EncodeChar c).length) text out) :
      Spelled cut offset (c :: text) (List.replicate count replacement ++ out)

theorem runCut_broken {rest : List UInt8} (hcut : CutsInside cut offset c) :
    ∃ count, 1 < count ∧
      runCut cut offset none (String.utf8EncodeChar c ++ rest) =
        List.replicate count replacement ++
          runCut cut (offset + (String.utf8EncodeChar c).length) none rest := by
  -- the first cut inside: what comes before it is decoded at once
  have hfirst : ∃ n, offset < offset + n ∧
      offset + n < offset + (String.utf8EncodeChar c).length ∧ cut (offset + n) := by
    obtain ⟨position, hlt, hinside⟩ := hcut
    obtain ⟨n, rfl⟩ := Nat.exists_eq_add_of_lt hlt
    exact ⟨n + 1, hlt, hinside⟩
  obtain ⟨hpos, hlength, hat⟩ := Nat.find_spec hfirst
  have hnone := fun n => @Nat.find_min _ _ hfirst n
  generalize Nat.find hfirst = n at hpos hlength hat hnone
  have htake : ((String.utf8EncodeChar c).take n).length = n := by
    rw [List.length_take]
    omega
  have hparts := List.take_append_drop n (String.utf8EncodeChar c)
  have hnil : (String.utf8EncodeChar c).take n ≠ [] :=
    List.ne_nil_of_length_pos (by omega)
  have hdrop : ((String.utf8EncodeChar c).drop n).length =
      (String.utf8EncodeChar c).length - n := List.length_drop
  have hbefore : runCut cut offset none ((String.utf8EncodeChar c).take n) = [replacement] := by
    rw [runCut_eq_run fun position hle hlt => ?_]
    · refine decode_part (List.take_prefix _ _) hnil fun heq => ?_
      rw [heq] at htake
      omega
    · rw [htake] at hlt
      obtain ⟨m, rfl⟩ := Nat.exists_eq_add_of_le hle
      by_cases hm : m = 0
      · exact Or.inr ⟨rfl, by omega⟩
      · exact Or.inl fun h => hnone m (by omega) ⟨by omega, by omega, h⟩
  have hsum : n + ((String.utf8EncodeChar c).drop n).length = (String.utf8EncodeChar c).length := by
    omega
  have hcont : ∀ byte ∈ (String.utf8EncodeChar c).drop n, IsContinuation byte :=
    continuation_of_append hparts hnil
  have hmore : (String.utf8EncodeChar c).drop n ++ rest ≠ [] :=
    List.append_ne_nil_of_left_ne_nil (List.ne_nil_of_length_pos (by omega)) _
  have hall : String.utf8EncodeChar c ++ rest =
      (String.utf8EncodeChar c).take n ++ ((String.utf8EncodeChar c).drop n ++ rest) := by
    rw [← List.append_assoc, hparts]
  refine ⟨1 + ((String.utf8EncodeChar c).drop n).length, by omega, ?_⟩
  rw [hall, runCut_append (by rwa [htake]) hmore, hbefore, htake, runCut_continuations hcont,
    Nat.add_assoc, hsum, ← List.replicate_append_replicate, List.append_assoc]
  rfl

/-- **What a text becomes that is decoded in parts.** -/
theorem spelled_runCut (text : List Char) :
    Spelled cut offset text (runCut cut offset none (encode text)) := by
  induction text generalizing offset with
  | nil => exact .nil
  | cons c text ih =>
    rw [encode_cons]
    by_cases hcut : CutsInside cut offset c
    · obtain ⟨count, hcount, heq⟩ := @runCut_broken _ _ _ _ (encode text) hcut
      rw [heq]
      exact .broken hcut hcount ih
    · rw [runCut_utf8EncodeChar fun position hlt hlength hat => hcut ⟨position, hlt, hlength, hat⟩]
      exact .whole hcut ih

end Runs

/-! ## The last lines of a text that is decoded in parts -/

open Lines

/-- No cut is inside a character of the last lines that are not empty. -/
def WholeLines (cut : ℕ → Prop) (separator : Char) (count offset : ℕ) (text : List Char) : Prop :=
  ∀ before c after, text = before ++ c :: after →
    (nonEmpty (later separator after)).length < count →
      ¬ CutsInside cut (offset + (encode before).length) c

variable {separator : Char} {count : ℕ} {text out : List Char}

theorem wholeLines_cons : WholeLines cut separator count offset (c :: text) ↔
    ((nonEmpty (later separator text)).length < count → ¬ CutsInside cut offset c) ∧
      WholeLines cut separator count (offset + (String.utf8EncodeChar c).length) text := by
  constructor
  · refine fun h => ⟨h [] c text rfl, fun before d after heq hcount => ?_⟩
    have hnext := h (c :: before) d after (by rw [heq, List.cons_append]) hcount
    rwa [encode_cons, List.length_append, ← Nat.add_assoc] at hnext
  · rintro ⟨hfirst, hmore⟩ before d after heq hcount
    rcases List.cons_eq_append_iff.1 heq with ⟨rfl, hcons⟩ | ⟨before', rfl, hcons⟩
    · obtain ⟨rfl, rfl⟩ := List.cons.inj hcons
      exact hfirst hcount
    · rw [encode_cons, List.length_append, ← Nat.add_assoc]
      exact hmore before' d after hcons hcount

/-- Nothing is inside a character of one byte. -/
theorem not_cutsInside_of_one (hone : (String.utf8EncodeChar c).length = 1) :
    ¬ CutsInside cut offset c := by
  rintro ⟨position, hlow, hhigh, -⟩
  omega

theorem replacement_ne (hone : (String.utf8EncodeChar separator).length = 1) :
    separator ≠ replacement := by
  rintro rfl
  revert hone
  decide

namespace Spelled

/-- The lines of what a text becomes are those of the text, some of them longer. -/
theorem lines (h : Spelled cut offset text out)
    (hone : (String.utf8EncodeChar separator).length = 1) :
    (nonEmpty (later separator out)).length = (nonEmpty (later separator text)).length ∧
      (first separator out = [] ↔ first separator text = []) ∧
      (first separator text).length ≤ (first separator out).length := by
  induction h with
  | nil => exact ⟨rfl, Iff.rfl, Nat.le_refl _⟩
  | @whole _ c text out _ _ ih =>
    obtain ⟨hlater, hnil, hlength⟩ := ih
    by_cases hc : c = separator
    · subst hc
      rw [later_cons_self, later_cons_self, first_cons_self, first_cons_self]
      refine ⟨?_, Iff.rfl, Nat.le_refl _⟩
      by_cases hfirst : first c text = []
      · rw [hfirst, hnil.2 hfirst, nonEmpty_cons_nil, nonEmpty_cons_nil, hlater]
      · rw [nonEmpty_cons_of_ne hfirst, nonEmpty_cons_of_ne (mt hnil.1 hfirst), List.length_cons,
          List.length_cons, hlater]
    · rw [later_cons_of_ne hc, later_cons_of_ne hc, first_cons_of_ne hc, first_cons_of_ne hc]
      exact ⟨hlater, iff_of_false (List.cons_ne_nil _ _) (List.cons_ne_nil _ _),
        Nat.succ_le_succ hlength⟩
  | @broken _ n c text out hcut hcount _ ih =>
    obtain ⟨hlater, -, hlength⟩ := ih
    have hc : c ≠ separator := fun h => not_cutsInside_of_one (h ▸ hone) hcut
    have hmem : separator ∉ List.replicate n replacement := fun h =>
      replacement_ne hone (List.eq_of_mem_replicate h)
    rw [(append_of_not_mem hmem).1, (append_of_not_mem hmem).2, later_cons_of_ne hc,
      first_cons_of_ne hc]
    refine ⟨hlater, iff_of_false ?_ (List.cons_ne_nil _ _), ?_⟩
    · exact List.append_ne_nil_of_left_ne_nil (List.ne_nil_of_length_pos (by simp; omega)) _
    · rw [List.length_append, List.length_replicate, List.length_cons]
      omega

/-- **The last lines come out unchanged** when no cut is inside one of their characters, and only
then. -/
theorem newest_eq_iff (h : Spelled cut offset text out)
    (hone : (String.utf8EncodeChar separator).length = 1) :
    newest separator count out = newest separator count text ↔
      WholeLines cut separator count offset text := by
  induction h with
  | nil => exact iff_of_true rfl fun before c after heq => absurd heq (by simp)
  | @whole _ c text out hcut hmore ih =>
    rw [wholeLines_cons, ← ih, and_iff_right fun _ => hcut]
    by_cases hc : c = separator
    · subst hc
      rw [newest_cons_self, newest_cons_self]
    · obtain ⟨hlater, hnil, -⟩ := hmore.lines hone
      obtain ⟨hlater', hnil', -⟩ := (whole hcut hmore).lines hone
      rw [Lines.newest_eq_iff hlater' hnil', Lines.newest_eq_iff hlater hnil,
        later_cons_of_ne hc, later_cons_of_ne hc, first_cons_of_ne hc, first_cons_of_ne hc,
        List.cons.injEq, and_iff_right rfl]
  | @broken _ n c text out hcut hcount hmore ih =>
    have hc : c ≠ separator := fun h => not_cutsInside_of_one (h ▸ hone) hcut
    have hmem : separator ∉ List.replicate n replacement := fun h =>
      replacement_ne hone (List.eq_of_mem_replicate h)
    obtain ⟨hlater, hnil, hlength⟩ := hmore.lines hone
    obtain ⟨hlater', hnil', -⟩ := (broken hcut hcount hmore).lines hone
    have hne : List.replicate n replacement ++ first separator out ≠ c :: first separator text :=
      fun heq => by
        have hlengths := congrArg List.length heq
        rw [List.length_append, List.length_replicate, List.length_cons] at hlengths
        omega
    rw [wholeLines_cons, ← ih, Lines.newest_eq_iff hlater' hnil', Lines.newest_eq_iff hlater hnil,
      (append_of_not_mem hmem).1, (append_of_not_mem hmem).2, later_cons_of_ne hc,
      first_cons_of_ne hc]
    -- neither side holds while this line is among the last ones
    constructor
    · rintro ⟨htake, hfirst⟩
      exact ⟨fun hlt => absurd (hfirst hlt) hne, htake, fun hlt => absurd (hfirst hlt) hne⟩
    · rintro ⟨hlt, htake, -⟩
      exact ⟨htake, fun h => absurd hcut (hlt h)⟩

end Spelled

end Utf8
