import Mathlib.Data.List.DropRight
import Mathlib.Data.List.Infix

/-!
# Parts joined by a doubled mark

Parts are joined with two marks between them, and nothing is escaped. They have no blanks at their
ends.

* `loose_of_join_eq` — other parts are joined to the same text only if the parts are loose: a pair
  of marks is inside of one, or a mark is beside a pair.
* `Loose.exists_join_eq` — loose parts are joined to the text of others.
* `split_pair`, `split_last` — which parts come back when the text is split at its pairs.
-/

namespace Joined

variable {α : Type} {mark : α} {blank : α → Bool}

/-- The parts with two marks between them. -/
def join (mark : α) (parts : List (List α)) : List α := [mark, mark].intercalate parts

variable {a b c part text first next : List α} {parts parts' : List (List α)}

@[simp] theorem join_singleton : join mark [part] = part := List.intercalate_singleton

theorem join_cons_cons : join mark (part :: next :: parts) =
    part ++ mark :: mark :: join mark (next :: parts) := by
  rw [join, List.intercalate_cons_cons, List.append_assoc]
  rfl

theorem join_cons (h : parts ≠ []) :
    join mark (part :: parts) = part ++ mark :: mark :: join mark parts := by
  obtain ⟨next, parts, rfl⟩ := List.exists_cons_of_ne_nil h
  exact join_cons_cons

theorem join_concat (h : parts ≠ []) :
    join mark (parts ++ [part]) = join mark parts ++ mark :: mark :: part := by
  induction parts with
  | nil => exact absurd rfl h
  | cons first parts ih =>
    cases parts with
    | nil => rw [List.singleton_append, join_cons_cons, join_singleton, join_singleton]
    | cons next parts =>
      rw [List.cons_append, join_cons (by simp), ih (List.cons_ne_nil _ _), join_cons_cons,
        List.append_assoc, List.cons_append, List.cons_append]

/-! ## Blanks at the ends -/

/-- The text does not begin with a blank. -/
def Starts (blank : α → Bool) (text : List α) : Prop := ∀ a ∈ text.head?, blank a = false

/-- The text does not end with a blank. -/
def Ends (blank : α → Bool) (text : List α) : Prop := ∀ a ∈ text.getLast?, blank a = false

/-- There are no blanks at the ends. -/
structure Trimmed (blank : α → Bool) (text : List α) : Prop where
  starts : Starts blank text
  ends : Ends blank text

theorem starts_nil : Starts blank ([] : List α) := nofun

theorem ends_nil : Ends blank ([] : List α) := nofun

theorem starts_cons (h : blank mark = false) : Starts blank (mark :: text) := by
  rintro a ⟨⟩
  exact h

theorem Starts.append (ha : Starts blank a) (hb : a = [] → Starts blank b) :
    Starts blank (a ++ b) := by
  cases a with
  | nil => exact hb rfl
  | cons => exact ha

theorem Starts.left (h : Starts blank (a ++ b)) : Starts blank a := by
  cases a with
  | nil => exact starts_nil
  | cons => exact h

theorem ends_append (h : b ≠ []) : Ends blank (a ++ b) ↔ Ends blank b := by
  rw [Ends, Ends, List.getLast?_append_of_ne_nil a h]

theorem Ends.right (h : Ends blank (a ++ b)) : Ends blank b := by
  by_cases hb : b = []
  · rw [hb]
    exact ends_nil
  · exact (ends_append hb).1 h

theorem Ends.after_pair (h : Ends blank (a ++ mark :: mark :: b)) : Ends blank b := by
  rw [List.append_cons, List.append_cons] at h
  exact h.right

theorem Ends.append (ha : b = [] → Ends blank a) (hb : Ends blank b) : Ends blank (a ++ b) := by
  by_cases hnil : b = []
  · rw [hnil, List.append_nil]
    exact ha hnil
  · exact (ends_append hnil).2 hb

theorem ends_marks (h : blank mark = false) : Ends blank (a ++ [mark]) :=
  (ends_append (List.cons_ne_nil _ _)).2 fun _ hlast => by
    cases hlast
    exact h

/-- After a mark a text ends as it does without one. -/
theorem Ends.cons (h : blank mark = false) (ha : Ends blank a) : Ends blank (mark :: a) :=
  Ends.append (a := [mark]) (fun _ => ends_marks (a := []) h) ha

/-- What trimming leaves. -/
theorem trimmed_trim : Trimmed blank ((text.dropWhile blank).rdropWhile blank) where
  starts a ha := by
    have hhead : a ∈ (text.dropWhile blank).head? := by
      obtain ⟨more, hmore⟩ := List.rdropWhile_prefix blank (text.dropWhile blank)
      rw [← hmore]
      exact List.mem_head?_append_of_mem_head? ha
    have hnot := List.head?_dropWhile_not blank text
    rw [hhead] at hnot
    exact hnot
  ends a ha := by
    obtain ⟨hne, rfl⟩ := List.mem_getLast?_eq_getLast ha
    exact eq_false_of_ne_true (List.rdropWhile_last_not blank _ hne)

theorem trimmed_of_trim (h : (text.dropWhile blank).rdropWhile blank = text) :
    Trimmed blank text :=
  h ▸ trimmed_trim

/-- Trimming leaves a trimmed text as it is. -/
theorem Trimmed.trim (h : Trimmed blank text) :
    (text.dropWhile blank).rdropWhile blank = text := by
  have hdrop : text.dropWhile blank = text := by
    cases text with
    | nil => rfl
    | cons a text => exact List.dropWhile_cons_of_neg (by simp [h.starts a rfl])
  rw [hdrop, List.rdropWhile_eq_self_iff]
  intro hne
  simp [h.ends _ (List.getLast?_eq_getLast_of_ne_nil hne)]

theorem starts_join (hmark : blank mark = false) (h : ∀ part ∈ parts, Trimmed blank part) :
    Starts blank (join mark parts) := by
  match parts, h with
  | [], _ => exact starts_nil
  | [part], h =>
    rw [join_singleton]
    exact (h part List.mem_cons_self).starts
  | part :: next :: parts, h =>
    rw [join_cons_cons]
    exact (h part List.mem_cons_self).starts.append fun _ => starts_cons hmark

theorem ends_join (hmark : blank mark = false) (h : ∀ part ∈ parts, Trimmed blank part) :
    Ends blank (join mark parts) := by
  induction parts with
  | nil => exact ends_nil
  | cons part parts ih =>
    obtain ⟨hpart, hparts⟩ := List.forall_mem_cons.1 h
    cases parts with
    | nil =>
      rw [join_singleton]
      exact hpart.ends
    | cons next parts =>
      rw [join_cons_cons]
      exact (ends_append (List.cons_ne_nil _ _)).2 (((ih hparts).cons hmark).cons hmark)

/-! ## Other parts of the same text -/

/-- Two neighbours that could be others: a pair of marks is in one of them, or a mark is beside the
pair between them. -/
inductive Loose (mark : α) (blank : α → Bool) : List (List α) → Prop
  | insideFirst {a b next : List α} {parts : List (List α)} (ha : Ends blank a)
      (hb : Starts blank b) : Loose mark blank ((a ++ mark :: mark :: b) :: next :: parts)
  | insideNext {first a b : List α} {parts : List (List α)} (ha : Ends blank a)
      (hb : Starts blank b) : Loose mark blank (first :: (a ++ mark :: mark :: b) :: parts)
  | endsMark {a next : List α} {parts : List (List α)} (ha : Ends blank a) :
      Loose mark blank ((a ++ [mark]) :: next :: parts)
  | startsMark {first b : List α} {parts : List (List α)} (hb : Starts blank b) :
      Loose mark blank (first :: (mark :: b) :: parts)
  | later {first : List α} {parts : List (List α)} (h : Loose mark blank parts) :
      Loose mark blank (first :: parts)

/-- The first of two texts up to a pair of marks is the second, or longer, or shorter. -/
theorem first_cases (h : a ++ mark :: mark :: text = b ++ mark :: mark :: c)
    (hc : Starts blank c) :
    a = b ∧ text = c ∨ (∃ more, more ≠ [] ∧ b = a ++ more ∧
      mark :: mark :: text = more ++ mark :: mark :: c) ∨ a = b ++ [mark] ∨
        ∃ after, a = b ++ mark :: mark :: after ∧ Starts blank after := by
  rcases List.append_eq_append_iff.1 h with ⟨more, rfl, hmore⟩ | ⟨more, rfl, hmore⟩
  · by_cases hnil : more = []
    · subst hnil
      rw [List.nil_append, List.cons.injEq, List.cons.injEq] at hmore
      exact Or.inl ⟨(List.append_nil _).symm, hmore.2.2⟩
    · exact Or.inr (Or.inl ⟨more, hnil, rfl, hmore⟩)
  · match more, hmore with
    | [], hmore =>
      rw [List.nil_append, List.cons.injEq, List.cons.injEq] at hmore
      exact Or.inl ⟨List.append_nil _, hmore.2.2.symm⟩
    | [_], hmore =>
      obtain rfl := (List.cons.inj hmore).1
      exact Or.inr (Or.inr (Or.inl rfl))
    | _ :: _ :: after, hmore =>
      obtain ⟨rfl, htail⟩ := List.cons.inj hmore
      obtain ⟨rfl, rfl⟩ := List.cons.inj htail
      exact Or.inr (Or.inr (Or.inr ⟨after, rfl, hc.left⟩))

/-- Texts without marks, each up to a pair of marks. -/
theorem append_pair_inj (ha : mark ∉ a) (hb : mark ∉ b)
    (h : a ++ mark :: mark :: text = b ++ mark :: mark :: c) : a = b ∧ text = c := by
  have hc : Starts (fun _ => false) c := fun _ _ => rfl
  rcases first_cases h hc with hsame | ⟨more, hne, rfl, hmore⟩ | rfl | ⟨after, rfl, -⟩
  · exact hsame
  · obtain ⟨d, more, rfl⟩ := List.exists_cons_of_ne_nil hne
    obtain ⟨rfl, -⟩ := List.cons.inj hmore
    simp at hb
  · simp at ha
  · simp at ha

/-- Parts that come later in one text than in another, as its part before them is longer. -/
theorem loose_of_shifted (hmark : blank mark = false) (hnil : parts ≠ [])
    (hlength : parts.length ≤ parts'.length) (htrimmed : ∀ part ∈ parts', Trimmed blank part)
    (h : mark :: mark :: join mark parts = a ++ mark :: mark :: join mark parts') (ha : a ≠ [])
    (hends : Ends blank a) (first : List α) : Loose mark blank (first :: parts) := by
  induction parts generalizing parts' a first with
  | nil => exact absurd rfl hnil
  | cons part parts ih =>
    cases parts' with
    | nil => exact absurd hlength (Nat.not_succ_le_zero _)
    | cons part' parts' =>
    obtain ⟨hpart', hparts'⟩ := List.forall_mem_cons.1 htrimmed
    have hstarts := starts_join hmark htrimmed
    rw [List.length_cons, List.length_cons, Nat.add_le_add_iff_right] at hlength
    -- the next parts are shifted as well
    have hnext (more : List α) (hparts : parts ≠ [])
        (hmore : mark :: mark :: join mark parts = more ++ join mark (part' :: parts'))
        (hmoreNe : more ≠ []) (hmoreEnds : Ends blank more) :
        Loose mark blank (first :: part :: parts) := by
      have hparts'Ne : parts' ≠ [] := List.ne_nil_of_length_pos
        (Nat.lt_of_lt_of_le (List.length_pos_of_ne_nil hparts) hlength)
      rw [join_cons hparts'Ne, ← List.append_assoc] at hmore
      exact .later (ih hparts hlength hparts' hmore (by simp [hmoreNe])
        (Ends.append (fun _ => hmoreEnds) hpart'.ends) part)
    match a, ha, h with
    | [_], _, h =>
      obtain ⟨rfl, htail⟩ := List.cons.inj h
      have hjoin : join _ (part :: parts) = _ := (List.cons.inj htail).2
      cases part with
      | nil =>
        cases parts with
        | nil =>
          rw [join_singleton] at hjoin
          cases hjoin
        | cons next parts =>
          rw [join_cons_cons, List.nil_append] at hjoin
          exact hnext [mark] (List.cons_ne_nil _ _) hjoin (List.cons_ne_nil _ _) hends
      | cons c part =>
        obtain ⟨rfl, hrest⟩ : c = _ ∧ join _ (part :: parts) = join _ (part' :: parts') := by
          cases parts with
          | nil =>
            rw [join_singleton] at hjoin ⊢
            exact List.cons.inj hjoin
          | cons next parts =>
            rw [join_cons_cons, List.cons_append] at hjoin
            rw [join_cons_cons]
            exact List.cons.inj hjoin
        rw [← hrest] at hstarts
        refine .startsMark ?_
        cases parts with
        | nil => rwa [join_singleton] at hstarts
        | cons next parts =>
          rw [join_cons_cons] at hstarts
          exact hstarts.left
    | _ :: _ :: a, _, h =>
      obtain ⟨rfl, htail⟩ := List.cons.inj h
      obtain ⟨rfl, hjoin⟩ := List.cons.inj htail
      have haEnds : Ends blank a := Ends.right (a := [_, _]) hends
      cases parts with
      | nil =>
        rw [join_singleton] at hjoin
        rw [hjoin]
        exact .insideNext haEnds hstarts
      | cons next parts =>
        rw [join_cons_cons] at hjoin
        rcases first_cases hjoin hstarts with ⟨rfl, hsame⟩ | ⟨more, hmoreNe, rfl, hmore⟩ | rfl |
          ⟨after, rfl, hafter⟩
        · refine hnext [mark, mark] (List.cons_ne_nil _ _) (by rw [hsame]; rfl)
            (List.cons_ne_nil _ _) ?_
          exact ends_marks (a := [mark]) hmark
        · refine hnext (more ++ [mark, mark]) (List.cons_ne_nil _ _) (by simp [hmore]) (by simp) ?_
          rw [List.append_cons]
          exact ends_marks hmark
        · exact .later (.endsMark haEnds)
        · exact .insideNext haEnds hafter

/-- **Parts of one text**: if others, no fewer, are joined to it, the parts are loose. -/
theorem loose_of_join_eq (hmark : blank mark = false) (hnil : parts ≠ [])
    (hlength : (first :: parts).length ≤ parts'.length)
    (htrimmed : ∀ part ∈ parts', Trimmed blank part)
    (h : join mark (first :: parts) = join mark parts') (hne : first :: parts ≠ parts') :
    Loose mark blank (first :: parts) := by
  induction parts generalizing first parts' with
  | nil => exact absurd rfl hnil
  | cons part parts ih =>
    match parts', hlength with
    | first' :: part' :: parts', hlength =>
    obtain ⟨hfirst', hparts'⟩ := List.forall_mem_cons.1 htrimmed
    have hshorter := Nat.le_of_succ_le_succ hlength
    rw [join_cons_cons, join_cons_cons] at h
    rcases first_cases h (starts_join hmark hparts') with ⟨rfl, hsame⟩ |
        ⟨more, hmoreNe, rfl, hmore⟩ |
      rfl | ⟨after, rfl, hafter⟩
    · cases parts with
      | nil =>
        match parts', hsame with
        | [], hsame =>
          rw [join_singleton, join_singleton] at hsame
          exact absurd (by rw [hsame]) hne
        | _ :: _, hsame =>
          rw [join_singleton, join_cons_cons] at hsame
          rw [hsame]
          exact .insideNext (hparts' _ List.mem_cons_self).ends
            (starts_join hmark (List.forall_mem_cons.1 hparts').2)
      | cons next parts =>
        exact .later (ih (List.cons_ne_nil _ _) hshorter hparts' hsame fun heq => hne (by rw [heq]))
    · exact loose_of_shifted hmark (List.cons_ne_nil _ _) hshorter hparts' hmore hmoreNe
        hfirst'.ends.right _
    · exact .endsMark hfirst'.ends
    · exact .insideFirst hfirst'.ends hafter

/-- The first two parts for others of the same text. -/
theorem join_congr_first (h : a ++ mark :: mark :: b = c ++ mark :: mark :: text) :
    join mark (a :: b :: parts) = join mark (c :: text :: parts) := by
  cases parts with
  | nil => rw [join_cons_cons, join_cons_cons, join_singleton, join_singleton, h]
  | cons next parts =>
    have happend := congrArg (· ++ mark :: mark :: join mark (next :: parts)) h
    simp only [List.append_assoc, List.cons_append] at happend
    rw [join_cons_cons, join_cons_cons, join_cons_cons, join_cons_cons, happend]

/-- Parts whose first two are cut elsewhere. -/
theorem exists_join_eq_of_first {first first' next next' : List α}
    (htrimmed : ∀ part ∈ first :: next :: parts, Trimmed blank part)
    (hfirst' : Trimmed blank first') (hnext' : Trimmed blank next')
    (hlength : first'.length ≠ first.length)
    (hjoin : first' ++ mark :: mark :: next' = first ++ mark :: mark :: next) :
    ∃ parts', parts'.length = (first :: next :: parts).length ∧
      (∀ part ∈ parts', Trimmed blank part) ∧
        join mark parts' = join mark (first :: next :: parts) ∧
          parts' ≠ first :: next :: parts := by
  obtain ⟨-, hrest⟩ := List.forall_mem_cons.1 htrimmed
  obtain ⟨-, hparts⟩ := List.forall_mem_cons.1 hrest
  refine ⟨first' :: next' :: parts, rfl, ?_, join_congr_first hjoin, ?_⟩
  · exact List.forall_mem_cons.2 ⟨hfirst', List.forall_mem_cons.2 ⟨hnext', hparts⟩⟩
  · intro heq
    exact hlength (congrArg List.length (List.cons.inj heq).1)

/-- **Loose parts** are joined to the text of others. -/
theorem Loose.exists_join_eq (hmark : blank mark = false) (h : Loose mark blank parts)
    (htrimmed : ∀ part ∈ parts, Trimmed blank part) :
    ∃ parts', parts'.length = parts.length ∧ (∀ part ∈ parts', Trimmed blank part) ∧
      join mark parts' = join mark parts ∧ parts' ≠ parts := by
  induction h with
  | @insideFirst a b next parts ha hb =>
    have hfirst := htrimmed _ List.mem_cons_self
    have hnext := htrimmed next (by simp)
    have hnext' : Trimmed blank (b ++ mark :: mark :: next) := by
      constructor
      · exact hb.append fun _ => starts_cons hmark
      · exact (ends_append (List.cons_ne_nil _ _)).2 ((hnext.ends.cons hmark).cons hmark)
    exact exists_join_eq_of_first htrimmed ⟨hfirst.starts.left, ha⟩ hnext' (by simp) (by simp)
  | @insideNext first a b parts ha hb =>
    have hfirst := htrimmed first (by simp)
    have hnext := htrimmed (a ++ mark :: mark :: b) (by simp)
    have hfirst' : Trimmed blank (first ++ mark :: mark :: a) := by
      constructor
      · exact hfirst.starts.append fun _ => starts_cons hmark
      · exact (ends_append (List.cons_ne_nil _ _)).2 ((ha.cons hmark).cons hmark)
    exact exists_join_eq_of_first htrimmed hfirst' ⟨hb, hnext.ends.after_pair⟩ (by simp) (by simp)
  | @endsMark a next parts ha =>
    have hfirst := htrimmed _ List.mem_cons_self
    have hnext := htrimmed next (by simp)
    have hnext' : Trimmed blank (mark :: next) := ⟨starts_cons hmark, hnext.ends.cons hmark⟩
    exact exists_join_eq_of_first htrimmed ⟨hfirst.starts.left, ha⟩ hnext' (by simp) (by simp)
  | @startsMark first b parts hb =>
    have hfirst := htrimmed first (by simp)
    have hnext := htrimmed (mark :: b) (by simp)
    have hfirst' : Trimmed blank (first ++ [mark]) :=
      ⟨hfirst.starts.append fun _ => starts_cons hmark, ends_marks hmark⟩
    exact exists_join_eq_of_first htrimmed hfirst' ⟨hb, Ends.right (a := [mark]) hnext.ends⟩
      (by simp) (by simp)
  | @later first parts h ih =>
    obtain ⟨hfirst, hparts⟩ := List.forall_mem_cons.1 htrimmed
    obtain ⟨parts', hlength, htrimmed', hjoin, hne⟩ := ih hparts
    have hnil : parts ≠ [] := by
      rintro rfl
      cases h
    have hnil' : parts' ≠ [] := List.ne_nil_of_length_pos
      (hlength ▸ List.length_pos_of_ne_nil hnil)
    refine ⟨first :: parts', congrArg (· + 1) hlength, List.forall_mem_cons.2 ⟨hfirst, htrimmed'⟩,
      ?_, fun heq => hne (List.cons.inj heq).2⟩
    rw [join_cons hnil, join_cons hnil', hjoin]

/-! ## Splitting -/

variable [DecidableEq α]

/-- The parts between pairs of marks, each pair the first one that there is. -/
def split (mark : α) : List α → List (List α)
  | [] => [[]]
  | [a] => [[a]]
  | a :: b :: text =>
    if a = mark ∧ b = mark then [] :: split mark text
    else (split mark (b :: text)).modifyHead (a :: ·)

/-- The first part ends before any pair. -/
theorem split_first : ∃ first more, split mark (a ++ mark :: mark :: b) = first :: more ∧
    first.length ≤ a.length := by
  induction a with
  | nil => exact ⟨[], split mark b, if_pos ⟨rfl, rfl⟩, Nat.le_refl _⟩
  | cons c a ih =>
    obtain ⟨first, more, hsplit, hlength⟩ := ih
    obtain ⟨d, text, htext⟩ : ∃ d text, a ++ mark :: mark :: b = d :: text :=
      List.exists_cons_of_ne_nil (by simp)
    rw [htext] at hsplit
    rw [List.cons_append, htext, split, hsplit]
    split
    · exact ⟨[], _, rfl, Nat.zero_le _⟩
    · exact ⟨c :: first, more, rfl, Nat.succ_le_succ hlength⟩

/-- **A part comes back** up to the pair after it, if with one mark after it it has no pair. -/
theorem split_pair (h : ¬ [mark, mark] <:+: part ++ [mark]) :
    split mark (part ++ mark :: mark :: text) = part :: split mark text := by
  induction part with
  | nil => exact if_pos ⟨rfl, rfl⟩
  | cons c part ih =>
    have hlater := ih fun hpair => h (List.infix_cons hpair)
    obtain ⟨d, more, hmore⟩ : ∃ d more, part ++ [mark] = d :: more :=
      List.exists_cons_of_ne_nil (by simp)
    have hnot : ¬(c = mark ∧ d = mark) := by
      rintro ⟨rfl, rfl⟩
      refine h (List.IsPrefix.isInfix ?_)
      rw [List.cons_append, hmore]
      exact ⟨more, rfl⟩
    have htext : part ++ mark :: mark :: text = d :: (more ++ mark :: text) := by
      rw [List.append_cons, hmore, List.cons_append]
    rw [List.cons_append, htext, split, if_neg hnot, ← htext, hlater]
    rfl

/-- A part that has a pair, with one mark after it, comes back shorter. -/
theorem split_pair_shorter (h : [mark, mark] <:+: part ++ [mark]) :
    ∃ first more, split mark (part ++ mark :: mark :: text) = first :: more ∧
      first.length < part.length := by
  obtain ⟨a, b, hab⟩ := h
  obtain ⟨b', hb'⟩ : ∃ b', part ++ mark :: mark :: text = a ++ mark :: mark :: b' := by
    refine ⟨b ++ mark :: text, ?_⟩
    rw [List.append_cons, ← hab]
    simp
  obtain ⟨first, more, hsplit, hlength⟩ := @split_first _ mark a b' _
  refine ⟨first, more, hb' ▸ hsplit, ?_⟩
  have hsame := congrArg List.length hab
  simp only [List.length_append, List.length_cons, List.length_nil] at hsame
  omega

/-- The last part comes back if it has no pair. -/
theorem split_last (h : ¬ [mark, mark] <:+: part) : split mark part = [part] := by
  induction part with
  | nil => rfl
  | cons c part ih =>
    cases part with
    | nil => rfl
    | cons d part =>
      have hnot : ¬(c = mark ∧ d = mark) := by
        rintro ⟨rfl, rfl⟩
        exact h (List.IsPrefix.isInfix ⟨part, rfl⟩)
      rw [split, if_neg hnot, ih fun hpair => h (List.infix_cons hpair)]
      rfl

/-- A last part that has a pair comes back shorter. -/
theorem split_last_shorter (h : [mark, mark] <:+: part) :
    ∃ first more, split mark part = first :: more ∧ first.length < part.length := by
  obtain ⟨a, b, rfl⟩ := h
  obtain ⟨first, more, hsplit, hlength⟩ := @split_first _ mark a b _
  refine ⟨first, more, by simpa using hsplit, ?_⟩
  simp only [List.length_append, List.length_cons]
  omega

end Joined
