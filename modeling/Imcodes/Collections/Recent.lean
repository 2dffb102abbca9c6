import Mathlib.Data.List.DropRight
import Mathlib.Tactic.Common

/-!
# The newest entries of a log

Of a log that grows at its end a bounded number of entries is kept, and of these only what still
counts.  What counts is at the end of the log: when an entry does, so do all after it.

* `filter_rtake_concat` — while there is room, a new entry is put behind what counts.
* `tail_filter_rtake` — when there is none, everything that is kept counts, and the oldest goes.
-/

namespace Recent

variable {α : Type*} {p : α → Bool} {l : List α} {n : ℕ}

/-- When an entry counts, so do all after it. -/
def CountsOn (p : α → Bool) (l : List α) : Prop := l.Pairwise fun a b => p a → p b

theorem length_rtake_le (l : List α) (n : ℕ) : (l.rtake n).length ≤ n := by
  rw [List.rtake, List.length_drop]
  omega

theorem rtake_suffix (l : List α) (n : ℕ) : l.rtake n <:+ l := List.drop_suffix _ _

theorem rtake_of_length_le (h : l.length ≤ n) : l.rtake n = l := by
  rw [List.rtake, Nat.sub_eq_zero_of_le h, List.drop_zero]

/-- One entry more is kept. -/
theorem exists_rtake_succ (h : n < l.length) : ∃ a, l.rtake (n + 1) = a :: l.rtake n := by
  have hlt : l.length - (n + 1) < l.length := by omega
  have hnext : l.length - (n + 1) + 1 = l.length - n := by omega
  refine ⟨l[l.length - (n + 1)], ?_⟩
  rw [List.rtake, List.rtake, ← hnext, ← List.drop_eq_getElem_cons hlt]

/-- All that is kept counts when the first of it does. -/
theorem CountsOn.all {a : α} (h : CountsOn p (a :: l)) (ha : p a) : ∀ b ∈ a :: l, p b := by
  intro b hb
  rcases List.mem_cons.1 hb with rfl | hb
  · exact ha
  · exact (List.pairwise_cons.1 h).1 b hb ha

theorem filter_rtake_succ (h : CountsOn p l) (hroom : ((l.rtake (n + 1)).filter p).length ≤ n) :
    (l.rtake (n + 1)).filter p = (l.rtake n).filter p := by
  by_cases hlength : l.length ≤ n
  · rw [rtake_of_length_le hlength, rtake_of_length_le (hlength.trans n.le_succ)]
  · obtain ⟨a, ha⟩ := exists_rtake_succ (Nat.lt_of_not_le hlength)
    have hkept : (l.rtake (n + 1)).length = n + 1 := by
      rw [List.rtake, List.length_drop]
      omega
    have hcounts : CountsOn p (a :: l.rtake n) :=
      ha ▸ h.sublist (rtake_suffix l (n + 1)).sublist
    by_cases hpa : p a
    · have hall : (l.rtake (n + 1)).filter p = l.rtake (n + 1) :=
        List.filter_eq_self.2 (ha ▸ hcounts.all hpa)
      rw [hall, hkept] at hroom
      omega
    · rw [ha, List.filter_cons_of_neg hpa]

/-- While there is room, a new entry is put behind what counts. -/
theorem filter_rtake_concat {a : α} (h : CountsOn p l) (ha : p a)
    (hroom : ((l.rtake (n + 1)).filter p).length ≤ n) :
    ((l ++ [a]).rtake (n + 1)).filter p = (l.rtake (n + 1)).filter p ++ [a] := by
  rw [List.rtake_concat_succ, List.filter_append, List.filter_cons_of_pos ha, List.filter_nil,
    filter_rtake_succ h hroom]

/-- When there is no room, everything that is kept counts, and the oldest goes. -/
theorem tail_filter_rtake {a : α} (ha : p a)
    (hfull : n < ((l.rtake (n + 1)).filter p).length) :
    ((l ++ [a]).rtake (n + 1)).filter p = ((l.rtake (n + 1)).filter p).tail ++ [a] := by
  have hle := List.length_filter_le p (l.rtake (n + 1))
  have hall : (l.rtake (n + 1)).filter p = l.rtake (n + 1) := by
    refine List.filter_sublist.eq_of_length_le ?_
    have := length_rtake_le l (n + 1)
    omega
  have hlength : n < l.length := by
    have := (rtake_suffix l (n + 1)).length_le
    omega
  obtain ⟨b, hb⟩ := exists_rtake_succ hlength
  rw [hb] at hall
  have hkept : (l.rtake n).filter p = l.rtake n :=
    List.filter_eq_self.2 fun c hc => List.filter_eq_self.1 hall c (List.mem_cons_of_mem _ hc)
  rw [List.rtake_concat_succ, List.filter_append, List.filter_cons_of_pos ha, List.filter_nil, hkept,
    hb, hall, List.tail_cons]

end Recent
