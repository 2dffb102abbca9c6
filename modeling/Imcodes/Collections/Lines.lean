import Mathlib.Data.List.DropRight
import Mathlib.Data.List.Induction

/-!
# Lines

A text in its lines, when it is put together from parts that end anywhere: the last line of one
part and the first line of the next are one line.

* `splitOn_append_first` — a text is split as well when all that is kept of what follows is its
  first line.
* `newest_eq_iff` — two texts whose lines are empty in the same places have the same last lines
  when these are equal one by one.
* `nonEmpty_later_suffix` — which lines the end of a text of lines has.
* `line_induction` — a text line by line; `ended_untilLast`, the lines that have ended.
-/

namespace Lines

variable {α : Type}

/-! ## Lines that are not empty -/

/-- The lines that are not empty. -/
def nonEmpty (lines : List (List α)) : List (List α) :=
  lines.filter (· ≠ [])

variable {lines lines' : List (List α)} {separator : α}

@[simp] theorem nonEmpty_nil : nonEmpty ([] : List (List α)) = [] := rfl

@[simp] theorem nonEmpty_cons_nil : nonEmpty ([] :: lines) = nonEmpty lines :=
  List.filter_cons_of_neg (by simp)

theorem nonEmpty_cons_of_ne {line : List α} (h : line ≠ []) :
    nonEmpty (line :: lines) = line :: nonEmpty lines :=
  List.filter_cons_of_pos (by simpa using h)

theorem nonEmpty_append : nonEmpty (lines ++ lines') = nonEmpty lines ++ nonEmpty lines' :=
  List.filter_append ..

theorem nonEmpty_reverse : nonEmpty lines.reverse = (nonEmpty lines).reverse :=
  List.filter_reverse

/-! ## Texts of lines -/

/-- Lines, each with a separator after it. -/
def unlines (separator : α) (lines : List (List α)) : List α :=
  lines.flatMap (· ++ [separator])

theorem unlines_cons {line : List α} :
    unlines separator (line :: lines) = line ++ separator :: unlines separator lines := by
  rw [unlines, List.flatMap_cons, List.append_assoc]
  rfl

theorem unlines_append :
    unlines separator (lines ++ lines') = unlines separator lines ++ unlines separator lines' :=
  List.flatMap_append

theorem intercalate_append (h : lines ≠ []) :
    List.intercalate [separator] lines ++ [separator] = unlines separator lines := by
  induction lines with
  | nil => exact absurd rfl h
  | cons line lines ih =>
    cases lines with
    | nil => simp [List.intercalate, unlines]
    | cons next lines =>
      rw [unlines_cons, ← ih (List.cons_ne_nil _ _)]
      simp [List.intercalate]

/-- Lines that are not empty and have no separator in them. -/
def Proper (separator : α) (lines : List (List α)) : Prop :=
  ∀ line ∈ lines, line ≠ [] ∧ separator ∉ line

theorem nonEmpty_eq_self (h : Proper separator lines) : nonEmpty lines = lines :=
  List.filter_eq_self.2 fun line hline => by simpa using (h line hline).1

/-! ## The first line and the others -/

variable [DecidableEq α]

/-- What comes before the first separator. -/
def first (separator : α) (text : List α) : List α :=
  (text.splitOn separator).headD []

/-- The lines after the first one. -/
def later (separator : α) (text : List α) : List (List α) :=
  (text.splitOn separator).tail

/-- At most so many of the last lines that are not empty, the last one first. -/
def newest (separator : α) (count : Nat) (text : List α) : List (List α) :=
  (nonEmpty (text.splitOn separator)).reverse.take count

variable {a : α} {text text' part more : List α} {count : Nat}

theorem splitOn_eq : text.splitOn separator = first separator text :: later separator text := by
  obtain ⟨line, lines, h⟩ := List.exists_cons_of_ne_nil (List.splitOn_ne_nil separator text)
  rw [first, later, h]
  rfl

theorem splitOn_cons_self :
    (separator :: text).splitOn separator = [] :: text.splitOn separator := by
  simp only [List.splitOn, List.splitOnP_cons_eq_if_modifyHead, beq_self_eq_true, if_true]

theorem splitOn_cons_of_ne (h : a ≠ separator) :
    (a :: text).splitOn separator = (a :: first separator text) :: later separator text := by
  have hsplit : (a :: text).splitOn separator = (text.splitOn separator).modifyHead (a :: ·) := by
    simp only [List.splitOn, List.splitOnP_cons_eq_if_modifyHead, beq_iff_eq, if_neg h]
  rw [hsplit, splitOn_eq]
  rfl

@[simp] theorem first_nil : first separator [] = [] := rfl

@[simp] theorem later_nil : later separator [] = [] := rfl

@[simp] theorem first_cons_self : first separator (separator :: text) = [] := by
  rw [first, splitOn_cons_self]
  rfl

@[simp] theorem later_cons_self :
    later separator (separator :: text) = first separator text :: later separator text := by
  rw [later, splitOn_cons_self, splitOn_eq]
  rfl

theorem first_cons_of_ne (h : a ≠ separator) :
    first separator (a :: text) = a :: first separator text := by
  rw [first, splitOn_cons_of_ne h]
  rfl

theorem later_cons_of_ne (h : a ≠ separator) :
    later separator (a :: text) = later separator text := by
  rw [later, splitOn_cons_of_ne h]
  rfl

theorem not_mem_first : separator ∉ first separator text := by
  induction text with
  | nil => exact List.not_mem_nil
  | cons a text ih =>
    by_cases h : a = separator
    · subst h
      rw [first_cons_self]
      exact List.not_mem_nil
    · rw [first_cons_of_ne h]
      exact List.not_mem_cons_of_ne_of_not_mem (Ne.symm h) ih

/-- A part without separators goes before the first line. -/
theorem append_of_not_mem (h : separator ∉ part) :
    first separator (part ++ more) = part ++ first separator more ∧
      later separator (part ++ more) = later separator more := by
  induction part with
  | nil => exact ⟨rfl, rfl⟩
  | cons a part ih =>
    obtain ⟨hne, hmem⟩ := List.ne_and_not_mem_of_not_mem_cons h
    obtain ⟨hfirst, hlater⟩ := ih hmem
    rw [List.cons_append, first_cons_of_ne (Ne.symm hne), later_cons_of_ne (Ne.symm hne), hfirst]
    exact ⟨rfl, hlater⟩

/-- A text without separators is one line. -/
theorem of_not_mem (h : separator ∉ text) :
    first separator text = text ∧ later separator text = [] := by
  have happend := @append_of_not_mem _ _ _ _ [] h
  rwa [List.append_nil, first_nil, List.append_nil, later_nil] at happend

/-- The first line does not depend on the lines after the first of what follows. -/
theorem first_append_first :
    first separator (part ++ first separator more) = first separator (part ++ more) := by
  induction part with
  | nil => exact (of_not_mem not_mem_first).1
  | cons a part ih =>
    rw [List.cons_append, List.cons_append]
    by_cases h : a = separator
    · subst h
      rw [first_cons_self, first_cons_self]
    · rw [first_cons_of_ne h, first_cons_of_ne h, ih]

/-- The lines after the first of what follows are the last of the whole. -/
theorem later_append_first :
    later separator (part ++ first separator more) ++ later separator more =
      later separator (part ++ more) := by
  induction part with
  | nil => rw [List.nil_append, (of_not_mem not_mem_first).2, List.nil_append, List.nil_append]
  | cons a part ih =>
    rw [List.cons_append, List.cons_append]
    by_cases h : a = separator
    · subst h
      rw [later_cons_self, later_cons_self, List.cons_append, ih, first_append_first]
    · rw [later_cons_of_ne h, later_cons_of_ne h, ih]

/-- **Splitting a text that is put together**: of what follows its first line is enough. -/
theorem splitOn_append_first :
    (part ++ first separator more).splitOn separator ++ later separator more =
      (part ++ more).splitOn separator := by
  rw [splitOn_eq, splitOn_eq, first_append_first, List.cons_append, later_append_first]

/-! ## The last lines -/

theorem newest_cons_self :
    newest separator count (separator :: text) = newest separator count text := by
  rw [newest, splitOn_cons_self, nonEmpty_cons_nil, newest]

theorem nonEmpty_splitOn : nonEmpty (text.splitOn separator) =
    nonEmpty [first separator text] ++ nonEmpty (later separator text) := by
  rw [splitOn_eq, ← nonEmpty_append]
  rfl

theorem newest_eq : newest separator count text =
    (nonEmpty (later separator text)).reverse.take count ++
      (nonEmpty [first separator text]).take
        (count - (nonEmpty (later separator text)).length) := by
  have hone : (nonEmpty [first separator text]).reverse = nonEmpty [first separator text] := by
    by_cases h : first separator text = []
    · rw [h]
      rfl
    · rw [nonEmpty_cons_of_ne h]
      rfl
  rw [newest, nonEmpty_splitOn, List.reverse_append, List.take_append, hone, List.length_reverse]

/-- Texts whose lines are empty in the same places have as many lines that are not. -/
theorem length_nonEmpty_splitOn
    (hlater : (nonEmpty (later separator text')).length = (nonEmpty (later separator text)).length)
    (hfirst : first separator text' = [] ↔ first separator text = []) :
    (nonEmpty (text'.splitOn separator)).length = (nonEmpty (text.splitOn separator)).length := by
  rw [nonEmpty_splitOn, nonEmpty_splitOn, List.length_append, List.length_append, hlater]
  by_cases h : first separator text = []
  · rw [h, hfirst.2 h]
  · rw [nonEmpty_cons_of_ne h, nonEmpty_cons_of_ne (mt hfirst.1 h)]
    rfl

/-- Two texts whose lines are empty in the same places have the same last lines when these lines
are equal one by one. -/
theorem newest_eq_iff
    (hlater : (nonEmpty (later separator text')).length = (nonEmpty (later separator text)).length)
    (hfirst : first separator text' = [] ↔ first separator text = []) :
    newest separator count text' = newest separator count text ↔
      (nonEmpty (later separator text')).reverse.take count =
          (nonEmpty (later separator text)).reverse.take count ∧
        ((nonEmpty (later separator text)).length < count →
          first separator text' = first separator text) := by
  have hlength : ((nonEmpty (later separator text')).reverse.take count).length =
      ((nonEmpty (later separator text)).reverse.take count).length := by
    rw [List.length_take, List.length_take, List.length_reverse, List.length_reverse, hlater]
  rw [newest_eq, newest_eq, hlater]
  refine Iff.trans ⟨fun h => List.append_inj h hlength, fun h => by rw [h.1, h.2]⟩
    (and_congr_right fun _ => ?_)
  by_cases hcount : (nonEmpty (later separator text)).length < count
  · obtain ⟨more, hmore⟩ := Nat.exists_eq_add_of_lt (Nat.sub_pos_of_lt hcount)
    by_cases hnil : first separator text = []
    · rw [hnil, hfirst.2 hnil]
      exact iff_of_true rfl fun _ => rfl
    · rw [nonEmpty_cons_of_ne hnil, nonEmpty_cons_of_ne (mt hfirst.1 hnil), hmore, nonEmpty_nil,
        Nat.zero_add, List.take_succ_cons, List.take_succ_cons, List.cons.injEq]
      exact ⟨fun h _ => h.1, fun h => ⟨h hcount, rfl⟩⟩
  · rw [Nat.sub_eq_zero_of_le (Nat.le_of_not_lt hcount)]
    exact iff_of_true rfl fun h => absurd h hcount

/-! ## Texts of lines and their ends -/

theorem splitOn_unlines (h : ∀ line ∈ lines, separator ∉ line) :
    (unlines separator lines).splitOn separator = lines ++ [[]] := by
  induction lines with
  | nil => rfl
  | cons line lines ih =>
    obtain ⟨hline, hlines⟩ := List.forall_mem_cons.1 h
    obtain ⟨hfirst, hlater⟩ := @append_of_not_mem _ _ _ _ (separator :: unlines separator lines)
      hline
    rw [first_cons_self, List.append_nil] at hfirst
    rw [later_cons_self, ← splitOn_eq] at hlater
    rw [unlines_cons, splitOn_eq, hfirst, hlater, ih hlines, List.cons_append]

theorem nonEmpty_splitOn_unlines_of_not_mem (h : ∀ line ∈ lines, separator ∉ line) :
    nonEmpty ((unlines separator lines).splitOn separator) = nonEmpty lines := by
  rw [splitOn_unlines h, nonEmpty_append, nonEmpty_cons_nil, nonEmpty_nil, List.append_nil]

theorem nonEmpty_splitOn_unlines (h : Proper separator lines) :
    nonEmpty ((unlines separator lines).splitOn separator) = lines := by
  rw [nonEmpty_splitOn_unlines_of_not_mem fun line hline => (h line hline).2, nonEmpty_eq_self h]

theorem count_unlines (h : Proper separator lines) :
    (unlines separator lines).count separator = lines.length := by
  induction lines with
  | nil => rfl
  | cons line lines ih =>
    obtain ⟨hline, hlines⟩ := List.forall_mem_cons.1 h
    rw [unlines_cons, List.count_append, List.count_eq_zero_of_not_mem hline.2,
      List.count_cons_self, ih hlines, Nat.zero_add, List.length_cons]

/-- **The end of a text of lines**: after its first line come as many lines as it has separators,
but for one. -/
theorem nonEmpty_later_suffix (h : Proper separator lines)
    (hsuffix : text <:+ unlines separator lines) (hcount : 0 < text.count separator) :
    nonEmpty (later separator text) = lines.drop (lines.length - (text.count separator - 1)) := by
  induction lines with
  | nil =>
    rw [List.suffix_nil.1 hsuffix] at hcount
    exact absurd hcount (Nat.lt_irrefl 0)
  | cons line lines ih =>
    obtain ⟨hline, hlines⟩ := List.forall_mem_cons.1 h
    rw [unlines_cons, List.append_cons] at hsuffix
    have hbelow : text <:+ unlines separator lines →
        nonEmpty (later separator text) =
          (line :: lines).drop ((line :: lines).length - (text.count separator - 1)) := by
      intro hin
      have hle := hin.sublist.count_le separator
      rw [count_unlines hlines] at hle
      rw [ih hlines hin, List.length_cons,
        show lines.length + 1 - (text.count separator - 1) =
          lines.length - (text.count separator - 1) + 1 by omega, List.drop_succ_cons]
    rcases List.suffix_or_suffix_of_suffix hsuffix (List.suffix_append _ _) with hin | hout
    · exact hbelow hin
    · obtain ⟨part, rfl⟩ := hout
      rcases List.suffix_concat_iff.1 (List.suffix_append_self_iff.1 hsuffix) with
        rfl | ⟨part, rfl, hpart⟩
      · exact hbelow (List.suffix_refl _)
      · have hmem : separator ∉ part := fun hin => hline.2 (hpart.subset hin)
        obtain ⟨-, hlater⟩ := @append_of_not_mem _ _ _ _ (separator :: unlines separator lines) hmem
        rw [later_cons_self, ← splitOn_eq] at hlater
        rw [List.append_assoc, List.singleton_append, hlater, nonEmpty_splitOn_unlines hlines,
          List.count_append, List.count_eq_zero_of_not_mem hmem, List.count_cons_self,
          count_unlines hlines, List.length_cons]
        simp

/-! ## Lines that a separator ends -/

/-- The lines that have a separator after them. -/
def ended (separator : α) (text : List α) : List (List α) :=
  (text.splitOn separator).dropLast

/-- What comes after the last separator. -/
def unended (separator : α) (text : List α) : List α :=
  (text.splitOn separator).getLastD []

/-- A text is without separators, or a line that ends and a text. -/
@[elab_as_elim]
theorem line_induction {P : List α → Prop} (separator : α)
    (last : ∀ text, separator ∉ text → P text)
    (line : ∀ line text, separator ∉ line → P text → P (line ++ separator :: text))
    (text : List α) : P text := by
  induction hlength : text.length using Nat.strong_induction_on generalizing text with
  | h length ih =>
    by_cases hmem : separator ∈ text
    · obtain ⟨before, after, rfl, hbefore⟩ := List.eq_append_cons_of_mem hmem
      rw [List.length_append, List.length_cons] at hlength
      exact line before after hbefore (ih after.length (by omega) after rfl)
    · exact last text hmem

theorem splitOn_line {line : List α} (h : separator ∉ line) :
    (line ++ separator :: text).splitOn separator = line :: text.splitOn separator := by
  obtain ⟨hfirst, hlater⟩ := @append_of_not_mem _ _ _ _ (separator :: text) h
  rw [splitOn_eq, hfirst, hlater, first_cons_self, later_cons_self, List.append_nil, ← splitOn_eq]

theorem splitOn_last (h : separator ∉ text) : text.splitOn separator = [text] := by
  obtain ⟨hfirst, hlater⟩ := of_not_mem h
  rw [splitOn_eq, hfirst, hlater]

@[simp] theorem ended_line {line : List α} (h : separator ∉ line) :
    ended separator (line ++ separator :: text) = line :: ended separator text := by
  rw [ended, splitOn_line h, List.dropLast_cons_of_ne_nil (List.splitOn_ne_nil separator text)]
  rfl

@[simp] theorem unended_line {line : List α} (h : separator ∉ line) :
    unended separator (line ++ separator :: text) = unended separator text := by
  obtain ⟨first, more, hsplit⟩ := List.exists_cons_of_ne_nil (List.splitOn_ne_nil separator text)
  rw [unended, unended, splitOn_line h, hsplit]
  rfl

@[simp] theorem ended_last (h : separator ∉ text) : ended separator text = [] := by
  rw [ended, splitOn_last h]
  rfl

@[simp] theorem unended_last (h : separator ∉ text) : unended separator text = text := by
  rw [unended, splitOn_last h]
  rfl

/-- A text without what comes after its last separator. -/
def untilLast (separator : α) (text : List α) : List α :=
  text.rdropWhile (· ≠ separator)

theorem untilLast_last (h : separator ∉ text) : untilLast separator text = [] :=
  List.rdropWhile_eq_nil_iff.2 fun a ha => by
    simpa using fun heq : a = separator => h (heq ▸ ha)

theorem untilLast_line {line : List α} :
    untilLast separator (line ++ separator :: text) =
      line ++ separator :: untilLast separator text := by
  induction text using List.reverseRecOn with
  | nil => exact List.rdropWhile_concat_neg _ _ _ (by simp)
  | append_singleton text a ih =>
    have hassoc : line ++ separator :: (text ++ [a]) = line ++ separator :: text ++ [a] := by simp
    by_cases ha : a = separator
    · rw [hassoc, untilLast, untilLast, List.rdropWhile_concat_neg _ _ _ (by simpa using ha),
        List.rdropWhile_concat_neg _ _ _ (by simpa using ha), hassoc]
    · rw [hassoc, untilLast, untilLast, List.rdropWhile_concat_pos _ _ _ (by simpa using ha),
        List.rdropWhile_concat_pos _ _ _ (by simpa using ha)]
      exact ih

/-- The lines that end stay. -/
theorem ended_untilLast (text : List α) :
    ended separator (untilLast separator text) = ended separator text ∧
      unended separator (untilLast separator text) = [] := by
  induction text using line_induction separator with
  | last text h =>
    rw [untilLast_last h, ended_last h]
    exact ⟨rfl, rfl⟩
  | line line text h ih =>
    rw [untilLast_line, ended_line h, unended_line h, ended_line h, ih.1]
    exact ⟨rfl, ih.2⟩

/-- What has no separators does not matter at the end. -/
theorem untilLast_append_last (h : separator ∉ part) :
    untilLast separator (text ++ part) = untilLast separator text := by
  induction part using List.reverseRecOn with
  | nil => rw [List.append_nil]
  | append_singleton part a ih =>
    rw [List.mem_append, List.mem_singleton, not_or] at h
    rw [← List.append_assoc, untilLast,
      List.rdropWhile_concat_pos _ _ _ (by simpa using Ne.symm h.2)]
    exact ih h.1

/-- What is taken away at the end has no separators. -/
theorem untilLast_rdropWhile {p : α → Bool} (h : ¬p separator) :
    untilLast separator (text.rdropWhile p) = untilLast separator text := by
  have hnot : separator ∉ text.rtakeWhile p := fun hmem => h (List.mem_rtakeWhile_imp hmem)
  rw [← untilLast_append_last hnot, List.rdropWhile_append_rtakeWhile]

/-- Another first character of the first line. -/
theorem ended_cons (h : a ≠ separator) :
    ended separator (a :: text) = (ended separator text).modifyHead (a :: ·) := by
  induction text using line_induction separator with
  | last text hlast =>
    rw [ended_last hlast, ended_last (List.not_mem_cons_of_ne_of_not_mem (Ne.symm h) hlast)]
    rfl
  | line line text hline _ =>
    rw [ended_line hline, ← List.cons_append,
      ended_line (List.not_mem_cons_of_ne_of_not_mem (Ne.symm h) hline)]
    rfl

/-- The first line begins as the text does. -/
theorem eq_of_ended_cons {b : α} {line : List α}
    (h : ended separator (a :: text) = (b :: line) :: lines) : a = b := by
  by_cases ha : a = separator
  · subst ha
    have hempty := @ended_line _ a _ text [] List.not_mem_nil
    rw [List.nil_append, h] at hempty
    cases hempty
  · rw [ended_cons ha] at h
    cases hended : ended separator text with
    | nil =>
      rw [hended] at h
      cases h
    | cons first more =>
      rw [hended] at h
      exact (List.cons.inj (List.cons.inj h).1).1

end Lines
