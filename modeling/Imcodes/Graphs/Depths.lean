import Mathlib.Data.List.Sort
import Mathlib.Data.Set.Finite.Basic
import Mathlib.Logic.Relation
import Mathlib.Order.WellFounded

/-!
# Depths

Every vertex has one parent at most, and its depth is the number of steps that lead up from it.

* `exists_hasDepth` — in a finite part without a cycle every vertex has a depth.
* `HasDepth.not_cycle` — a vertex on a cycle has none.
* `HasDepth.le_length` — no vertex is deeper than there are vertices with a parent.
* `sortRead` — a list is sorted by keys that are read while it is sorted, and reading one may fail.
* `sortRead_sound` — what comes out is sorted, and all keys of a list of two elements or more were
  read; `sortRead_complete` — it comes out when all keys can be read.
-/

namespace Graphs

variable {V : Type*} (parent : V → Option V)

/-- The other vertex is the parent. -/
def IsParent (v p : V) : Prop := parent v = some p

/-- The number of steps that lead up from a vertex. -/
inductive HasDepth : V → ℕ → Prop
  | root {v : V} (h : parent v = none) : HasDepth v 0
  | child {v p : V} {d : ℕ} (h : parent v = some p) (hp : HasDepth p d) : HasDepth v (d + 1)

variable {parent} {v w p : V} {d d' : ℕ}

theorem HasDepth.unique (h : HasDepth parent v d) (h' : HasDepth parent v d') : d = d' := by
  induction h generalizing d' with
  | root hv =>
    cases h' with
    | root => rfl
    | child hv' => cases hv.symm.trans hv'
  | child hv _ ih =>
    cases h' with
    | root hv' => cases hv.symm.trans hv'
    | child hv' hp' =>
      obtain rfl := Option.some.inj (hv.symm.trans hv')
      rw [ih hp']

theorem HasDepth.of_parent (h : HasDepth parent v d) (hv : parent v = some p) :
    ∃ d', d = d' + 1 ∧ HasDepth parent p d' := by
  cases h with
  | root hv' => cases hv.symm.trans hv'
  | child hv' hp =>
    obtain rfl := Option.some.inj (hv.symm.trans hv')
    exact ⟨_, rfl, hp⟩

/-- What lies above a vertex is less deep. -/
theorem HasDepth.of_transGen (h : HasDepth parent v d)
    (hpath : Relation.TransGen (IsParent parent) v w) : ∃ d' < d, HasDepth parent w d' := by
  induction hpath with
  | single hstep =>
    obtain ⟨d', rfl, hw⟩ := h.of_parent hstep
    exact ⟨d', Nat.lt_succ_self d', hw⟩
  | tail _ hstep ih =>
    obtain ⟨_, hlt, hx⟩ := ih
    obtain ⟨d', rfl, hw⟩ := hx.of_parent hstep
    exact ⟨d', (Nat.lt_succ_self d').trans hlt, hw⟩

theorem HasDepth.not_cycle (h : HasDepth parent v d) :
    ¬ Relation.TransGen (IsParent parent) v v := by
  intro hcycle
  obtain ⟨d', hlt, hv⟩ := h.of_transGen hcycle
  exact absurd (h.unique hv) hlt.ne'

/-- The vertices that have a parent, on the way up from a vertex. -/
theorem HasDepth.exists_path (h : HasDepth parent v d) :
    ∃ path : List V, path.Nodup ∧ path.length = d ∧
      ∀ w ∈ path, (∃ p, parent w = some p) ∧ ∃ d' ≤ d, HasDepth parent w d' := by
  induction h with
  | root => exact ⟨[], List.nodup_nil, rfl, fun w hw => absurd hw List.not_mem_nil⟩
  | @child v p d hv hp ih =>
    obtain ⟨path, hnodup, hlength, hpath⟩ := ih
    refine ⟨v :: path, List.nodup_cons.2 ⟨fun hmem => ?_, hnodup⟩, by rw [List.length_cons, hlength],
      fun w hw => ?_⟩
    · obtain ⟨d', hle, hd'⟩ := (hpath v hmem).2
      have heq : d' = d + 1 := hd'.unique (.child hv hp)
      omega
    · rcases List.mem_cons.1 hw with rfl | hw
      · exact ⟨⟨p, hv⟩, d + 1, le_rfl, .child hv hp⟩
      · obtain ⟨hparent, d', hle, hd'⟩ := hpath w hw
        exact ⟨hparent, d', hle.trans (Nat.le_succ d), hd'⟩

/-- A vertex is not deeper than there are vertices with a parent. -/
theorem HasDepth.le_length {l : List V} (h : HasDepth parent v d)
    (hl : ∀ w p, parent w = some p → w ∈ l) : d ≤ l.length := by
  obtain ⟨path, hnodup, rfl, hpath⟩ := h.exists_path
  refine (List.subperm_of_subset hnodup fun w hw => ?_).length_le
  obtain ⟨⟨p, hp⟩, -⟩ := hpath w hw
  exact hl w p hp

/-- A vertex of a finite part, which is closed under parents and has no cycle, has a depth. -/
theorem exists_hasDepth {l : List V} (hclosed : ∀ v ∈ l, ∀ p, parent v = some p → p ∈ l)
    (hcycle : ∀ v ∈ l, ¬ Relation.TransGen (IsParent parent) v v) (hv : v ∈ l) :
    ∃ d, HasDepth parent v d := by
  let Above (p v : { v // v ∈ l }) : Prop := Relation.TransGen (IsParent parent) v.1 p.1
  have hwf : WellFounded Above := by
    have : IsTrans _ Above := ⟨fun _ _ _ hab hbc => hbc.trans hab⟩
    have : Std.Irrefl Above := ⟨fun v hself => hcycle v.1 v.2 hself⟩
    have : Finite { v // v ∈ l } := List.finite_toSet l
    exact Finite.wellFounded_of_trans_of_irrefl Above
  -- induction on the vertices that lie above
  have hall : ∀ v : { v // v ∈ l }, ∃ d, HasDepth parent v.1 d := by
    intro v
    induction v using hwf.induction with
    | _ v ih =>
      cases hparent : parent v.1 with
      | none => exact ⟨0, .root hparent⟩
      | some p =>
        obtain ⟨d, hp⟩ := ih ⟨p, hclosed v.1 v.2 p hparent⟩ (.single hparent)
        exact ⟨d + 1, .child hparent hp⟩
  exact hall ⟨v, hv⟩

open Classical in
/-- The depth of a vertex that has one. -/
noncomputable def depth (parent : V → Option V) (v : V) : ℕ :=
  if h : ∃ d, HasDepth parent v d then h.choose else 0

theorem HasDepth.depth_eq (h : HasDepth parent v d) : depth parent v = d := by
  have hex : ∃ d, HasDepth parent v d := ⟨d, h⟩
  rw [depth, dif_pos hex]
  exact hex.choose_spec.unique h

/-! ## Sorting by keys that are read -/

variable {α σ : Type} (read : α → σ → Option (ℕ × σ))

/-- An element goes before the first one with a key that is not larger. -/
def insertRead (a : α) : List α → σ → Option (List α × σ)
  | [], s => some ([a], s)
  | b :: l, s => do
      let (keyB, s) ← read b s
      let (keyA, s) ← read a s
      if keyB ≤ keyA then some (a :: b :: l, s)
      else
        let (l, s) ← insertRead a l s
        some (b :: l, s)

/-- The largest keys first; elements with the same key stay in their order. -/
def sortRead : List α → σ → Option (List α × σ)
  | [], s => some ([], s)
  | a :: l, s => do
      let (l, s) ← sortRead l s
      insertRead read a l s

variable {read} {known : α → Prop} {key : α → ℕ} {inv : σ → Prop} {a : α} {l l' : List α} {s s' : σ}

/-- Reading gives the key of an element that has one, and keeps what is remembered right. -/
def Sound (read : α → σ → Option (ℕ × σ)) (known : α → Prop) (key : α → ℕ) (inv : σ → Prop)
    (l : List α) : Prop :=
  ∀ a ∈ l, ∀ s k s', inv s → read a s = some (k, s') → known a ∧ k = key a ∧ inv s'

theorem Sound.of_subset (h : Sound read known key inv l) (hsub : l' ⊆ l) :
    Sound read known key inv l' :=
  fun a ha => h a (hsub ha)

/-- The order of the sort. -/
abbrev Deeper (key : α → ℕ) (a b : α) : Prop := key b ≤ key a

theorem insertRead_sound (h : Sound read known key inv (a :: l)) (hinv : inv s)
    (hread : insertRead read a l s = some (l', s')) :
    inv s' ∧ l' = l.orderedInsert (Deeper key) a ∧ (l ≠ [] → known a) ∧
      ∀ b ∈ l.head?, known b := by
  induction l generalizing s l' s' with
  | nil =>
    cases hread
    exact ⟨hinv, rfl, fun hne => absurd rfl hne, nofun⟩
  | cons b l ih =>
    simp only [insertRead, Option.bind_eq_bind, Option.bind_eq_some_iff, Prod.exists] at hread
    obtain ⟨keyB, s₁, hb, keyA, s₂, ha, hrest⟩ := hread
    obtain ⟨hknownB, rfl, hinv₁⟩ := h b (by simp) _ _ _ hinv hb
    obtain ⟨hknownA, rfl, hinv₂⟩ := h a (by simp) _ _ _ hinv₁ ha
    have hheads : (b :: l ≠ [] → known a) ∧ ∀ b' ∈ (b :: l).head?, known b' :=
      ⟨fun _ => hknownA, fun b' hb' => Option.some.inj hb' ▸ hknownB⟩
    by_cases hle : key b ≤ key a
    · rw [if_pos hle] at hrest
      cases hrest
      exact ⟨hinv₂, (if_pos hle).symm, hheads⟩
    · rw [if_neg hle] at hrest
      simp only [Option.bind_eq_some_iff, Prod.exists, Option.some.injEq, Prod.mk.injEq] at hrest
      obtain ⟨l₁, s₃, hinsert, rfl, rfl⟩ := hrest
      have hsub : a :: l ⊆ a :: b :: l := List.cons_subset_cons a (List.subset_cons_self b l)
      obtain ⟨hinv₃, rfl, -, -⟩ := ih (h.of_subset hsub) hinv₂ hinsert
      exact ⟨hinv₃, (if_neg hle).symm, hheads⟩

/-- What comes out is the list in the order of its keys; if there was something to compare, every
key was read. -/
theorem sortRead_sound (h : Sound read known key inv l) (hinv : inv s)
    (hread : sortRead read l s = some (l', s')) :
    inv s' ∧ l' = l.insertionSort (Deeper key) ∧ (2 ≤ l.length → ∀ a ∈ l, known a) := by
  induction l generalizing s l' s' with
  | nil =>
    cases hread
    exact ⟨hinv, rfl, nofun⟩
  | cons a l ih =>
    simp only [sortRead, Option.bind_eq_bind, Option.bind_eq_some_iff, Prod.exists] at hread
    obtain ⟨l₁, s₁, hsort, hinsert⟩ := hread
    obtain ⟨hinv₁, rfl, hknown⟩ := ih (h.of_subset (List.subset_cons_self a l)) hinv hsort
    have hperm := List.perm_insertionSort (Deeper key) l
    have hsub : a :: l.insertionSort (Deeper key) ⊆ a :: l :=
      List.cons_subset_cons a hperm.subset
    obtain ⟨hinv₂, rfl, hknownA, hhead⟩ := insertRead_sound (h.of_subset hsub) hinv₁ hinsert
    refine ⟨hinv₂, rfl, fun hlength b hb => ?_⟩
    rcases List.mem_cons.1 hb with rfl | hb
    · refine hknownA fun hnil => ?_
      rw [hnil] at hperm
      rw [List.nil_perm.1 hperm] at hlength
      exact absurd hlength (by simp)
    · match l, hlength, hb, hhead, hknown with
      | [c], _, hb, hhead, _ =>
        rw [List.mem_singleton.1 hb]
        exact hhead c rfl
      | _ :: _ :: l, _, hb, _, hknown => exact hknown (by simp) b hb

theorem insertRead_complete (h : Sound read known key inv (a :: l))
    (hreads : ∀ b ∈ a :: l, ∀ s, inv s → (read b s).isSome) (hinv : inv s) :
    (insertRead read a l s).isSome := by
  induction l generalizing s with
  | nil => rfl
  | cons b l ih =>
    obtain ⟨⟨keyB, s₁⟩, hb⟩ := Option.isSome_iff_exists.1 (hreads b (by simp) s hinv)
    have hinv₁ := (h b (by simp) _ _ _ hinv hb).2.2
    obtain ⟨⟨keyA, s₂⟩, ha⟩ := Option.isSome_iff_exists.1 (hreads a (by simp) s₁ hinv₁)
    have hinv₂ := (h a (by simp) _ _ _ hinv₁ ha).2.2
    have hsub : a :: l ⊆ a :: b :: l := List.cons_subset_cons a (List.subset_cons_self b l)
    obtain ⟨⟨l₁, s₃⟩, hrest⟩ := Option.isSome_iff_exists.1
      (ih (h.of_subset hsub) (fun c hc => hreads c (hsub hc)) hinv₂)
    simp only [insertRead, hb, ha, hrest, Option.bind_eq_bind, Option.bind_some]
    split <;> rfl

/-- If all keys can be read, the sort comes to an end. -/
theorem sortRead_complete (h : Sound read known key inv l)
    (hreads : ∀ a ∈ l, ∀ s, inv s → (read a s).isSome) (hinv : inv s) :
    (sortRead read l s).isSome := by
  induction l generalizing s with
  | nil => rfl
  | cons a l ih =>
    have hsound := h.of_subset (List.subset_cons_self a l)
    obtain ⟨⟨l₁, s₁⟩, hsort⟩ := Option.isSome_iff_exists.1
      (ih hsound (fun b hb => hreads b (List.mem_cons_of_mem a hb)) hinv)
    obtain ⟨hinv₁, rfl, -⟩ := sortRead_sound hsound hinv hsort
    have hsub : a :: l.insertionSort (Deeper key) ⊆ a :: l :=
      List.cons_subset_cons a (List.perm_insertionSort (Deeper key) l).subset
    simp only [sortRead, hsort, Option.bind_eq_bind, Option.bind_some]
    exact insertRead_complete (h.of_subset hsub) (fun b hb => hreads b (hsub hb)) hinv₁

end Graphs
