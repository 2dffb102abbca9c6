import Mathlib.Data.List.Sort

/-!
# Ranks

A list is sorted by a key and an element is looked up in it by its name. Elements with one key stay
in their order.

* `Precedes` — who comes first: the smaller key, or the earlier place.
* `rank_lt_of_precedes` — what precedes has the smaller rank.
* `rank?_eq_last` — what everything else precedes has the last rank.
-/

namespace Ranking

variable {α κ : Type} (key : α → ℕ) (name : α → κ)

/-- The elements in the order of their keys. -/
def ranked (l : List α) : List α :=
  l.insertionSort fun a b => key a ≤ key b

/-- The place of the element of a name. -/
def rank? [DecidableEq κ] (l : List α) (k : κ) : Option ℕ :=
  (ranked key l).findIdx? fun a => name a = k

/-- An element comes before another one in the order of the keys. -/
def Precedes (l : List α) (a b : α) : Prop :=
  key a < key b ∨ key a = key b ∧ [a, b].Sublist l

variable {key name} {l : List α} {a b : α} {i j : ℕ}

/-! ## Pairs in a list -/

theorem pair_sublist_or (ha : a ∈ l) (hb : b ∈ l) (hne : a ≠ b) :
    [a, b].Sublist l ∨ [b, a].Sublist l := by
  induction l with
  | nil => exact absurd ha List.not_mem_nil
  | cons x l ih =>
    rcases List.mem_cons.1 ha with hax | ha'
    · subst hax
      have hb' := (List.mem_cons.1 hb).resolve_left (Ne.symm hne)
      exact Or.inl (List.Sublist.cons_cons _ (List.singleton_sublist.2 hb'))
    · rcases List.mem_cons.1 hb with hbx | hb'
      · subst hbx
        exact Or.inr (List.Sublist.cons_cons _ (List.singleton_sublist.2 ha'))
      · exact (ih ha' hb').imp (fun h => h.cons _) fun h => h.cons _

theorem not_pair_sublist (hl : l.Nodup) (h : [a, b].Sublist l) : ¬ [b, a].Sublist l := by
  induction l with
  | nil => exact absurd (List.sublist_nil.1 h) (List.cons_ne_nil _ _)
  | cons x l ih =>
    obtain ⟨hx, hl⟩ := List.nodup_cons.1 hl
    intro h'
    rcases List.sublist_cons_iff.1 h with htail | ⟨r, hr, htail⟩
    · rcases List.sublist_cons_iff.1 h' with htail' | ⟨r', hr', -⟩
      · exact ih hl htail htail'
      · obtain ⟨hbx, -⟩ := List.cons.inj hr'
        exact hx (hbx ▸ htail.subset (List.mem_cons_of_mem _ (List.mem_singleton_self b)))
    · obtain ⟨hax, hrest⟩ := List.cons.inj hr
      have hb : b ∈ l := htail.subset (hrest ▸ List.mem_singleton_self b)
      rcases List.sublist_cons_iff.1 h' with htail' | ⟨r', hr', -⟩
      · exact hx (hax ▸ htail'.subset (List.mem_cons_of_mem _ (List.mem_singleton_self a)))
      · obtain ⟨hbx, -⟩ := List.cons.inj hr'
        exact hx (hbx ▸ hb)

theorem Precedes.asymm (hl : l.Nodup) (h : Precedes key l a b) : ¬ Precedes key l b a := by
  rintro (hlt | ⟨heq, hsub⟩)
  · rcases h with hlt' | ⟨heq', -⟩
    · exact Nat.lt_asymm hlt hlt'
    · omega
  · rcases h with hlt' | ⟨-, hsub'⟩
    · omega
    · exact not_pair_sublist hl hsub hsub'

theorem precedes_or (ha : a ∈ l) (hb : b ∈ l) (hne : a ≠ b) :
    Precedes key l a b ∨ Precedes key l b a := by
  rcases Nat.lt_trichotomy (key a) (key b) with hlt | heq | hlt
  · exact Or.inl (Or.inl hlt)
  · exact (pair_sublist_or ha hb hne).imp (fun h => Or.inr ⟨heq, h⟩) fun h => Or.inr ⟨heq.symm, h⟩
  · exact Or.inr (Or.inl hlt)

/-- Everything precedes an element of the greatest key when none of this key comes later. -/
theorem forall_precedes_iff (hl : l.Nodup) (ha : a ∈ l) (hmax : ∀ b ∈ l, key b ≤ key a) :
    (∀ b ∈ l, b ≠ a → Precedes key l b a) ↔ ¬ ∃ b, [a, b].Sublist l ∧ key b = key a := by
  constructor
  · rintro h ⟨b, hsub, heq⟩
    have hb : b ∈ l := hsub.subset (List.mem_cons_of_mem _ (List.mem_singleton_self b))
    have hne : b ≠ a := fun hba => by
      have hpair := hl.sublist hsub
      rw [hba] at hpair
      simp at hpair
    exact (h b hb hne).asymm hl (Or.inr ⟨heq.symm, hsub⟩)
  · intro h b hb hne
    rcases Nat.lt_or_eq_of_le (hmax b hb) with hlt | heq
    · exact Or.inl hlt
    · exact Or.inr ⟨heq, (pair_sublist_or hb ha hne).resolve_right fun hsub => h ⟨b, hsub, heq⟩⟩

/-! ## The sorted list -/

theorem perm_ranked : (ranked key l).Perm l :=
  List.perm_insertionSort _ l

/-- **Sorting** puts first what precedes. -/
theorem pairwise_ranked (hl : l.Nodup) : (ranked key l).Pairwise (Precedes key l) := by
  have hsorted : (ranked key l).Pairwise fun a b => key a ≤ key b :=
    List.pairwise_insertionSort (fun a b => key a ≤ key b) l
  have hnodup : (ranked key l).Nodup := perm_ranked.nodup_iff.2 hl
  rw [List.pairwise_iff_forall_sublist] at hsorted ⊢
  intro a b hsub
  have hle := hsorted hsub
  have hmem : ∀ x ∈ [a, b], x ∈ l := fun x hx => perm_ranked.subset (hsub.subset hx)
  have hne : a ≠ b := fun heq => by
    have hpair := hnodup.sublist hsub
    rw [heq] at hpair
    simp at hpair
  rcases Nat.lt_or_eq_of_le hle with hlt | heq
  · exact Or.inl hlt
  · refine Or.inr ⟨heq, ?_⟩
    rcases pair_sublist_or (hmem a (by simp)) (hmem b (by simp)) hne with h | h
    · exact h
    · have hstays : [b, a].Sublist (ranked key l) :=
        List.pair_sublist_insertionSort heq.symm.le h
      exact absurd hstays (not_pair_sublist hnodup hsub)

/-- What precedes has the smaller place. -/
theorem lt_of_precedes (hl : l.Nodup) (hi : (ranked key l)[i]? = some a)
    (hj : (ranked key l)[j]? = some b) (h : Precedes key l a b) : i < j := by
  obtain ⟨hilt, rfl⟩ := List.getElem?_eq_some_iff.1 hi
  obtain ⟨hjlt, rfl⟩ := List.getElem?_eq_some_iff.1 hj
  have hpairwise := List.pairwise_iff_getElem.1 (@pairwise_ranked _ key _ hl)
  rcases Nat.lt_trichotomy i j with hlt | rfl | hlt
  · exact hlt
  · exact absurd h (h.asymm hl)
  · exact absurd h ((hpairwise j i hjlt hilt hlt).asymm hl)

/-! ## Names -/

variable [DecidableEq κ] {k : κ}

/-- The rank of a name is the place of its element. -/
theorem rank?_eq_some (h : rank? key name l k = some i) :
    ∃ a ∈ l, name a = k ∧ (ranked key l)[i]? = some a := by
  obtain ⟨hlt, hname, -⟩ := List.findIdx?_eq_some_iff_getElem.1 h
  exact ⟨_, perm_ranked.subset (List.getElem_mem hlt), by simpa using hname,
    List.getElem?_eq_getElem hlt⟩

theorem exists_rank? (hnames : (l.map name).Nodup) (ha : a ∈ l) :
    ∃ i, rank? key name l (name a) = some i ∧ i < l.length ∧ (ranked key l)[i]? = some a := by
  have hsome : (rank? key name l (name a)).isSome := by
    rw [rank?, List.findIdx?_isSome, List.any_eq_true]
    exact ⟨a, perm_ranked.mem_iff.2 ha, by simp⟩
  obtain ⟨i, hi⟩ := Option.isSome_iff_exists.1 hsome
  obtain ⟨b, hb, hname, hget⟩ := rank?_eq_some hi
  obtain rfl := List.inj_on_of_nodup_map hnames hb ha hname
  have hlt := (List.getElem?_eq_some_iff.1 hget).1
  rw [perm_ranked.length_eq] at hlt
  exact ⟨i, hi, hlt, hget⟩

/-- **What precedes has the smaller rank.** -/
theorem rank_lt_of_precedes (hnames : (l.map name).Nodup) (ha : a ∈ l) (hb : b ∈ l)
    (h : Precedes key l a b) (hi : rank? key name l (name a) = some i)
    (hj : rank? key name l (name b) = some j) : i < j := by
  obtain ⟨i', hi', -, hgeti⟩ := exists_rank? hnames ha
  obtain ⟨j', hj', -, hgetj⟩ := exists_rank? hnames hb
  obtain rfl := Option.some.inj (hi.symm.trans hi')
  obtain rfl := Option.some.inj (hj.symm.trans hj')
  exact lt_of_precedes (List.Nodup.of_map _ hnames) hgeti hgetj h

/-- **What everything else precedes** has the last rank. -/
theorem rank?_eq_last (hnames : (l.map name).Nodup) (ha : a ∈ l)
    (h : ∀ b ∈ l, b ≠ a → Precedes key l b a) :
    rank? key name l (name a) = some (l.length - 1) := by
  obtain ⟨i, hi, hlt, hget⟩ := @exists_rank? _ _ key _ _ _ _ hnames ha
  have hlast : l.length - 1 < (ranked key l).length := by
    rw [perm_ranked.length_eq]
    omega
  by_cases heq : (ranked key l)[l.length - 1] = a
  · have hnodup : (ranked key l).Nodup := perm_ranked.nodup_iff.2 (List.Nodup.of_map _ hnames)
    obtain ⟨hi', hget'⟩ := List.getElem?_eq_some_iff.1 hget
    rw [hi, hnodup.getElem_inj_iff.1 (hget'.trans heq.symm)]
  · have hmem := perm_ranked.subset (List.getElem_mem hlast)
    have hless := lt_of_precedes (List.Nodup.of_map _ hnames) (List.getElem?_eq_getElem hlast) hget
      (h _ hmem heq)
    omega

/-- The rank of what precedes something is not the last one. -/
theorem rank_lt_last (hnames : (l.map name).Nodup) (ha : a ∈ l) (hb : b ∈ l)
    (h : Precedes key l a b) (hi : rank? key name l (name a) = some i) : i < l.length - 1 := by
  obtain ⟨j, hj, hlt, -⟩ := @exists_rank? _ _ key _ _ _ _ hnames hb
  have hless := rank_lt_of_precedes hnames ha hb h hi hj
  omega

end Ranking
