import Mathlib.Data.List.Sort
import Mathlib.Data.Set.Insert
import Mathlib.Data.Finset.Card

/-!
# Versions of the same thing

Things with a key, of which several versions can turn up.  A rank says which of two versions
of a thing is preferred, and a position where a thing belongs in a list.  Nothing here knows
what the things are.

* `prefer` — the later rank wins, and of equal ranks the one that comes in.
* `IsBest` — a version that no other one surpasses; `Keeps` — a list with the best version of
  everything that came, once.
* `Summarises` — the best version of every key in a batch, if there is one.
* `replace` — the versions of a list give way, each in its place, to better ones from a batch;
  `Keeps.absorb` — with the new ones merged in, the list keeps what the batch brought.
* `NeverCross` — the versions of two things do not change sides.
* `Keeps.eq_of_sorted` — there is one list in order of position.
-/

namespace Versions

variable {α ι ρ κ : Type*} [LinearOrder ρ] [LinearOrder κ]

/-- The preferred of two versions. -/
def prefer (rank : α → ρ) (existing incoming : α) : α :=
  if rank existing ≤ rank incoming then incoming else existing

/-- A version that no version of the same thing surpasses. -/
structure IsBest (key : α → ι) (rank : α → ρ) (versions : Set α) (a : α) : Prop where
  mem : a ∈ versions
  le : ∀ b ∈ versions, key b = key a → rank b ≤ rank a

/-- A list with the best version of everything, once. -/
structure Keeps (key : α → ι) (rank : α → ρ) (versions : Set α) (l : List α) : Prop where
  nodup : (l.map key).Nodup
  best : ∀ a ∈ l, IsBest key rank versions a
  all : ∀ b ∈ versions, key b ∈ l.map key

/-- The best version of every key, if there is one. -/
structure Summarises (key : α → ι) (rank : α → ρ) (versions : Set α) (newest : ι → Option α) :
    Prop where
  best : ∀ k b, newest k = some b → key b = k ∧ IsBest key rank versions b
  absent : ∀ k, newest k = none → ∀ b ∈ versions, key b ≠ k

/-- The versions of different things do not change sides. -/
def NeverCross (key : α → ι) (position : α → κ) (versions : Set α) : Prop :=
  ∀ a ∈ versions, ∀ a' ∈ versions, ∀ b ∈ versions, ∀ b' ∈ versions,
    key a' = key a → key b' = key b → key a ≠ key b → position a < position b →
      position a' < position b'

/-- Every version of a list gives way, in its place, to a preferred one. -/
def replace (key : α → ι) (rank : α → ρ) (newest : ι → Option α) (l : List α) : List α :=
  l.map fun a => ((newest (key a)).map (prefer rank a)).getD a

variable {key : α → ι} {rank : α → ρ} {position : α → κ} {versions batch : Set α} {a b : α}
  {l fresh : List α} {newest : ι → Option α}

theorem prefer_eq_or (rank : α → ρ) (a b : α) : prefer rank a b = a ∨ prefer rank a b = b := by
  unfold prefer
  split
  · exact Or.inr rfl
  · exact Or.inl rfl

theorem key_prefer (h : key b = key a) : key (prefer rank a b) = key a := by
  rcases prefer_eq_or rank a b with h' | h'
  · rw [h']
  · rw [h', h]

theorem rank_le_prefer : rank a ≤ rank (prefer rank a b) ∧ rank b ≤ rank (prefer rank a b) := by
  unfold prefer
  split
  · rename_i h
    exact ⟨h, le_rfl⟩
  · rename_i h
    exact ⟨le_rfl, (not_le.1 h).le⟩

/-! ## The best version -/

theorem IsBest.union_left (ha : IsBest key rank versions a) (h : ∀ b ∈ batch, key b ≠ key a) :
    IsBest key rank (versions ∪ batch) a := by
  refine ⟨Or.inl ha.mem, ?_⟩
  rintro b (hb | hb) hkey
  · exact ha.le b hb hkey
  · exact absurd hkey (h b hb)

theorem IsBest.union_right (hb : IsBest key rank batch b) (h : ∀ a ∈ versions, key a ≠ key b) :
    IsBest key rank (versions ∪ batch) b := by
  rw [Set.union_comm]
  exact hb.union_left h

theorem IsBest.prefer (ha : IsBest key rank versions a) (hb : IsBest key rank batch b)
    (hkey : key b = key a) : IsBest key rank (versions ∪ batch) (prefer rank a b) := by
  refine ⟨?_, ?_⟩
  · rcases prefer_eq_or rank a b with h | h
    · rw [h]
      exact Or.inl ha.mem
    · rw [h]
      exact Or.inr hb.mem
  · rw [key_prefer hkey]
    rintro c (hc | hc) hkeyc
    · exact (ha.le c hc hkeyc).trans rank_le_prefer.1
    · exact (hb.le c hc (hkeyc.trans hkey.symm)).trans rank_le_prefer.2

theorem isBest_singleton : IsBest key rank {a} a := by
  refine ⟨rfl, ?_⟩
  rintro b rfl -
  exact le_rfl

/-! ## Summaries -/

theorem summarises_empty : Summarises key rank ∅ fun _ => none :=
  ⟨nofun, fun _ _ _ hb => hb.elim⟩

/-- One more version. -/
theorem Summarises.insert [DecidableEq ι] {newest' : ι → Option α}
    (h : Summarises key rank versions newest)
    (hself : newest' (key a) = some (((newest (key a)).map fun b => Versions.prefer rank b a).getD a))
    (hother : ∀ k, k ≠ key a → newest' k = newest k) :
    Summarises key rank (insert a versions) newest' := by
  rw [Set.insert_eq, Set.union_comm]
  constructor
  · intro k b hk
    by_cases hka : k = key a
    · subst hka
      rw [hself] at hk
      cases hold : newest (key a) with
      | none =>
        rw [hold] at hk
        obtain rfl := Option.some.inj hk
        exact ⟨rfl, isBest_singleton.union_right (h.absent _ hold)⟩
      | some c =>
        rw [hold] at hk
        obtain rfl := Option.some.inj hk
        obtain ⟨hkey, hbest⟩ := h.best _ c hold
        exact ⟨(key_prefer hkey.symm).trans hkey, hbest.prefer isBest_singleton hkey.symm⟩
    · rw [hother k hka] at hk
      obtain ⟨rfl, hbest⟩ := h.best k b hk
      exact ⟨rfl, hbest.union_left fun c hc => hc ▸ fun hkey => hka hkey.symm⟩
  · intro k hk b hb
    by_cases hka : k = key a
    · subst hka
      rw [hself] at hk
      cases hk
    · rw [hother k hka] at hk
      rcases hb with hb | rfl
      · exact h.absent k hk b hb
      · exact fun hkey => hka hkey.symm

/-! ## A list that keeps the best versions -/

theorem keeps_nil : Keeps key rank ∅ ([] : List α) :=
  ⟨List.nodup_nil, nofun, nofun⟩

theorem map_key_replace (h : Summarises key rank batch newest) :
    (replace key rank newest l).map key = l.map key := by
  rw [replace, List.map_map]
  refine List.map_congr_left fun a _ => ?_
  dsimp only [Function.comp]
  cases hnew : newest (key a) with
  | none => rfl
  | some b => exact key_prefer (h.best _ b hnew).1

/-- The best versions of a list and of a batch, and the things that only the batch has. -/
theorem Keeps.absorb {merged : List α} (hl : Keeps key rank versions l)
    (h : Summarises key rank batch newest) (hnodup : (fresh.map key).Nodup)
    (hfresh : ∀ b, b ∈ fresh ↔ newest (key b) = some b ∧ key b ∉ l.map key)
    (hperm : merged.Perm (replace key rank newest l ++ fresh)) :
    Keeps key rank (versions ∪ batch) merged := by
  have hkeys : (merged.map key).Perm (l.map key ++ fresh.map key) := by
    rw [← map_key_replace (l := l) h, ← List.map_append]
    exact hperm.map key
  constructor
  · refine hkeys.nodup_iff.2 (List.nodup_append.2 ⟨hl.nodup, hnodup, ?_⟩)
    rintro k hk k' hk' rfl
    obtain ⟨b, hb, rfl⟩ := List.mem_map.1 hk'
    exact ((hfresh b).1 hb).2 hk
  · intro c hc
    rcases List.mem_append.1 (hperm.mem_iff.1 hc) with hc | hc
    · obtain ⟨a, ha, rfl⟩ := List.mem_map.1 hc
      cases hnew : newest (key a) with
      | none => exact (hl.best a ha).union_left (h.absent _ hnew)
      | some b =>
        obtain ⟨hkey, hbest⟩ := h.best _ b hnew
        exact (hl.best a ha).prefer hbest hkey
    · obtain ⟨hnew, hnot⟩ := (hfresh c).1 hc
      exact (h.best _ c hnew).2.union_right fun a ha hkey => hnot (hkey ▸ hl.all a ha)
  · intro c hc
    rw [hkeys.mem_iff, List.mem_append]
    rcases hc with hc | hc
    · exact Or.inl (hl.all c hc)
    · by_cases hold : key c ∈ l.map key
      · exact Or.inl hold
      · cases hnew : newest (key c) with
        | none => exact absurd rfl (h.absent _ hnew c hc)
        | some b =>
          have hkey := (h.best _ b hnew).1
          refine Or.inr (List.mem_map.2 ⟨b, (hfresh b).2 ⟨?_, ?_⟩, hkey⟩)
          · rwa [hkey]
          · rwa [hkey]

theorem Keeps.length_le [DecidableEq ι] {all : Finset α} (h : Keeps key rank versions l)
    (hall : versions ⊆ all) : l.length ≤ (all.image key).card := by
  rw [← List.length_map key, ← List.toFinset_card_of_nodup h.nodup]
  refine Finset.card_le_card fun k hk => ?_
  obtain ⟨a, ha, rfl⟩ := List.mem_map.1 (List.mem_toFinset.1 hk)
  exact Finset.mem_image_of_mem key (Finset.mem_coe.1 (hall (h.best a ha).mem))

/-- Two lists that keep the same versions hold the same ones, when equal ranks are one version. -/
theorem Keeps.mem_iff {l' : List α} (hl : Keeps key rank versions l)
    (hl' : Keeps key rank versions l')
    (heq : ∀ a ∈ versions, ∀ b ∈ versions, key a = key b → rank a = rank b → a = b) :
    a ∈ l → a ∈ l' := by
  intro ha
  have hbest := hl.best a ha
  obtain ⟨b, hb, hkey⟩ := List.mem_map.1 (hl'.all a hbest.mem)
  have hbest' := hl'.best b hb
  have hrank := (hbest.le b hbest'.mem hkey).antisymm (hbest'.le a hbest.mem hkey.symm)
  rwa [heq a hbest.mem b hbest'.mem hkey.symm hrank.symm]

/-- There is one list in order of position that keeps the best versions. -/
theorem Keeps.eq_of_sorted {l' : List α} (hl : Keeps key rank versions l)
    (hl' : Keeps key rank versions l')
    (heq : ∀ a ∈ versions, ∀ b ∈ versions, key a = key b → rank a = rank b → a = b)
    (hsorted : l.Pairwise fun a b => position a < position b)
    (hsorted' : l'.Pairwise fun a b => position a < position b) : l = l' := by
  have : Std.Irrefl fun a b => position a < position b := ⟨fun _ => lt_irrefl _⟩
  have : Std.Antisymm fun a b => position a < position b :=
    ⟨fun _ _ h h' => absurd h' h.asymm⟩
  exact hsorted.eq_of_mem_iff hsorted'
    fun a => ⟨hl.mem_iff hl' heq, hl'.mem_iff hl heq⟩

/-! ## The order of a list -/

/-- Versions that do not change sides stay in order when they are replaced. -/
theorem pairwise_replace {all : Set α} (hl : Keeps key rank versions l)
    (h : Summarises key rank batch newest) (hcross : NeverCross key position all)
    (hold : versions ⊆ all) (hbatch : batch ⊆ all)
    (hsorted : l.Pairwise fun a b => position a < position b) :
    (replace key rank newest l).Pairwise fun a b => position a < position b := by
  have hnew : ∀ a ∈ l, ((newest (key a)).map (prefer rank a)).getD a ∈ all ∧
      key (((newest (key a)).map (prefer rank a)).getD a) = key a := by
    intro a ha
    cases hnew : newest (key a) with
    | none => exact ⟨hold (hl.best a ha).mem, rfl⟩
    | some b =>
      obtain ⟨hkey, hbest⟩ := h.best _ b hnew
      refine ⟨?_, key_prefer hkey⟩
      rcases prefer_eq_or rank a b with heq | heq
      · exact (congrArg (· ∈ all) heq).mpr (hold (hl.best a ha).mem)
      · exact (congrArg (· ∈ all) heq).mpr (hbatch hbest.mem)
  have hkeys : l.Pairwise fun a b => key a ≠ key b := List.pairwise_map.1 hl.nodup
  refine List.pairwise_map.2 ((hsorted.and hkeys).imp_of_mem ?_)
  rintro a b ha hb ⟨hlt, hne⟩
  exact hcross a (hold (hl.best a ha).mem) _ (hnew a ha).1 b (hold (hl.best b hb).mem) _
    (hnew b hb).1 (hnew a ha).2 (hnew b hb).2 hne hlt

/-- Merging into a list leaves the order of the list. -/
theorem sublist_merge {le : α → α → Bool} {l r : List α} : l.Sublist (l.merge r le) := by
  induction l generalizing r with
  | nil => exact List.nil_sublist _
  | cons a l ih =>
    induction r with
    | nil => rw [List.merge_right]
    | cons b r ihr =>
      rw [List.cons_merge_cons]
      split
      · exact ih.cons_cons a
      · exact ihr.cons b

/-- Of two elements of a list one comes first. -/
theorem pair_sublist {l : List ι} {x y : ι} (hx : x ∈ l) (hy : y ∈ l) (hne : x ≠ y) :
    [x, y].Sublist l ∨ [y, x].Sublist l := by
  induction l with
  | nil => cases hx
  | cons z l ih =>
    rcases List.mem_cons.1 hx with rfl | hx'
    · have hy' := (List.mem_cons.1 hy).resolve_left hne.symm
      exact Or.inl ((List.singleton_sublist.2 hy').cons_cons x)
    · rcases List.mem_cons.1 hy with rfl | hy'
      · exact Or.inr ((List.singleton_sublist.2 hx').cons_cons y)
      · exact (ih hx' hy').imp (·.cons z) (·.cons z)

theorem not_pair_sublist {l : List ι} {x y : ι} (hnodup : l.Nodup) (h : [x, y].Sublist l) :
    ¬[y, x].Sublist l := by
  induction l with
  | nil => cases h
  | cons z l ih =>
    obtain ⟨hz, hl⟩ := List.nodup_cons.1 hnodup
    intro h'
    rcases List.sublist_cons_iff.1 h with hxy | ⟨r, hr, hy⟩
    · rcases List.sublist_cons_iff.1 h' with hyx | ⟨r', hr', -⟩
      · exact ih hl hxy hyx
      · obtain ⟨rfl, -⟩ := List.cons.inj hr'
        exact hz (hxy.subset (List.mem_cons_of_mem _ List.mem_cons_self))
    · obtain ⟨rfl, rfl⟩ := List.cons.inj hr
      rcases List.sublist_cons_iff.1 h' with hyx | ⟨r', hr', -⟩
      · exact hz (hyx.subset (List.mem_cons_of_mem _ List.mem_cons_self))
      · obtain ⟨rfl, -⟩ := List.cons.inj hr'
        exact hz (hy.subset List.mem_cons_self)

end Versions
