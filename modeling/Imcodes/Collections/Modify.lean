import Mathlib.Data.List.Basic

/-!
# Changing one element of a list

What a list that counts, selects or orders its elements looks like when one of them is changed
in its place.

* `filterMap_modify`, `filterMap_modify_concat` — a change that does not count, and one that makes
  the next element count.
* `countP_modify` — one element more or less counts.
* `exists_perm_set` — what a list is besides one of its elements, whatever is put in its place.
* `pairwise_modify` — a relation that survives the change of either side survives that of the list.
-/

namespace Modify

variable {β γ : Type*} {l : List β} {i j : ℕ} {f : β → β} {g : β → Option γ} {p : β → Bool} {a : β}

theorem filterMap_modify (hi : l[i]? = some a) (h : g (f a) = g a) :
    (l.modify i f).filterMap g = l.filterMap g := by
  induction l generalizing i with
  | nil => rw [List.modify_nil]
  | cons b l ih =>
    cases i with
    | zero =>
      obtain rfl := Option.some.inj hi
      rw [List.modify_zero_cons, List.filterMap_cons, List.filterMap_cons, h]
    | succ i => rw [List.modify_succ_cons, List.filterMap_cons, List.filterMap_cons, ih hi]

/-- The first element that counts after the ones that do already. -/
theorem filterMap_modify_concat {c : γ} (hi : l[i]? = some a) (ha : g a = none)
    (hfa : g (f a) = some c) (hlater : ∀ j b, i < j → l[j]? = some b → g b = none) :
    (l.modify i f).filterMap g = l.filterMap g ++ [c] := by
  induction l generalizing i with
  | nil => cases hi
  | cons b l ih =>
    cases i with
    | zero =>
      obtain rfl := Option.some.inj hi
      have hnone : l.filterMap g = [] := by
        refine List.filterMap_eq_nil_iff.2 fun x hx => ?_
        obtain ⟨j, hj⟩ := List.mem_iff_getElem?.1 hx
        exact hlater (j + 1) x (Nat.succ_pos j) hj
      rw [List.modify_zero_cons, List.filterMap_cons_some hfa, List.filterMap_cons_none ha, hnone]
      rfl
    | succ i =>
      have hrest := ih hi fun j b hij hj => hlater (j + 1) b (Nat.succ_lt_succ hij) hj
      rw [List.modify_succ_cons, List.filterMap_cons, List.filterMap_cons, hrest]
      cases g b with
      | none => rfl
      | some d => rfl

theorem mem_modify {x : β} (h : x ∈ l.modify i f) : x ∈ l ∨ ∃ b, l[i]? = some b ∧ x = f b := by
  obtain ⟨j, hj⟩ := List.mem_iff_getElem?.1 h
  rw [List.getElem?_modify] at hj
  obtain ⟨b, hb, rfl⟩ := Option.map_eq_some_iff.1 hj
  split
  · rename_i hij
    exact Or.inr ⟨b, hij ▸ hb, rfl⟩
  · exact Or.inl (List.mem_of_getElem? hb)

theorem getElem?_modify_self (hi : l[i]? = some a) : (l.modify i f)[i]? = some (f a) := by
  rw [List.getElem?_modify, hi]
  simp

theorem getElem?_modify_of_ne (h : i ≠ j) : (l.modify i f)[j]? = l[j]? := by
  rw [List.getElem?_modify]
  simp [h]

/-- One element more or less counts. -/
theorem countP_modify (hi : l[i]? = some a) :
    (l.modify i f).countP p + (if p a then 1 else 0) = l.countP p + if p (f a) then 1 else 0 := by
  induction l generalizing i with
  | nil => cases hi
  | cons b l ih =>
    cases i with
    | zero =>
      obtain rfl := Option.some.inj hi
      rw [List.modify_zero_cons, List.countP_cons, List.countP_cons]
      omega
    | succ i =>
      have hrest := ih hi
      rw [List.modify_succ_cons, List.countP_cons, List.countP_cons]
      omega

/-- The other elements are the same whatever is put in the place of one. -/
theorem exists_perm_set (hi : l[i]? = some a) :
    ∃ rest : List β, l.Perm (a :: rest) ∧ ∀ b, (l.set i b).Perm (b :: rest) := by
  induction l generalizing i with
  | nil => cases hi
  | cons x l ih =>
    cases i with
    | zero =>
      obtain rfl := Option.some.inj hi
      exact ⟨l, List.Perm.refl _, fun b => List.Perm.refl _⟩
    | succ i =>
      obtain ⟨rest, hl, hset⟩ := ih hi
      exact ⟨x :: rest, (hl.cons x).trans (List.Perm.swap a x rest),
        fun b => ((hset b).cons x).trans (List.Perm.swap b x rest)⟩

theorem pairwise_modify {r : β → β → Prop} (hl : l.Pairwise r) (hi : l[i]? = some a)
    (hleft : ∀ b ∈ l, r a b → r (f a) b) (hright : ∀ b ∈ l, r b a → r b (f a)) :
    (l.modify i f).Pairwise r := by
  induction l generalizing i with
  | nil => cases hi
  | cons b l ih =>
    obtain ⟨hb, hl⟩ := List.pairwise_cons.1 hl
    cases i with
    | zero =>
      obtain rfl := Option.some.inj hi
      rw [List.modify_zero_cons]
      exact List.pairwise_cons.2
        ⟨fun c hc => hleft c (List.mem_cons_of_mem _ hc) (hb c hc), hl⟩
    | succ i =>
      have hi : l[i]? = some a := hi
      rw [List.modify_succ_cons]
      refine List.pairwise_cons.2 ⟨fun c hc => ?_, ih hl hi
        (fun c hc => hleft c (List.mem_cons_of_mem _ hc))
        fun c hc => hright c (List.mem_cons_of_mem _ hc)⟩
      rcases mem_modify hc with hc | ⟨d, hd, rfl⟩
      · exact hb c hc
      · rw [hi] at hd
        obtain rfl := Option.some.inj hd
        exact hright b List.mem_cons_self (hb a (List.mem_of_getElem? hi))

/-- Two elements at different places are related, when the relation is symmetric. -/
theorem rel_of_pairwise {r : β → β → Prop} {b : β} (hl : l.Pairwise r)
    (hsymm : ∀ x y, r x y → r y x) (hi : l[i]? = some a) (hj : l[j]? = some b) (hij : i ≠ j) :
    r a b := by
  obtain ⟨hilt, rfl⟩ := List.getElem?_eq_some_iff.1 hi
  obtain ⟨hjlt, rfl⟩ := List.getElem?_eq_some_iff.1 hj
  rcases Nat.lt_or_gt_of_ne hij with hlt | hlt
  · exact List.pairwise_iff_getElem.1 hl i j hilt hjlt hlt
  · exact hsymm _ _ (List.pairwise_iff_getElem.1 hl j i hjlt hilt hlt)

end Modify
