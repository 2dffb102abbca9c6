import Mathlib.Data.List.Nodup

/-!
# Maps in insertion order

A list of keys and values in which no key comes twice.  A new key goes to the
end, and a key that is set again keeps its place.

* `get?_set`, `get?_delete` — what a lookup finds after a change.
* `get?_eq_some` — a lookup finds what is in the list.
-/

/-- A map that remembers the order in which its keys came. -/
structure OrderedMap (κ ν : Type) where
  /-- The keys and their values, oldest key first. -/
  toList : List (κ × ν)
  /-- No key comes twice. -/
  nodup : (toList.map Prod.fst).Nodup

namespace OrderedMap

variable {κ ν μ : Type}

/-- The map without keys. -/
def empty : OrderedMap κ ν := ⟨[], List.nodup_nil⟩

/-- The values, oldest key first. -/
def values (m : OrderedMap κ ν) : List ν := m.toList.map Prod.snd

/-- Every value is changed. -/
def mapValues (f : ν → μ) (m : OrderedMap κ ν) : OrderedMap κ μ :=
  ⟨m.toList.map fun p => (p.1, f p.2), by
    rw [List.map_map]
    exact m.nodup⟩

theorem values_mapValues {m : OrderedMap κ ν} {f : ν → μ} :
    (m.mapValues f).values = m.values.map f := by
  rw [values, values, mapValues, List.map_map, List.map_map]
  rfl

variable [DecidableEq κ]

/-- The value of a key. -/
def get? (m : OrderedMap κ ν) (k : κ) : Option ν := (m.toList.find? (·.1 = k)).map Prod.snd

/-- A key gets a value. -/
def set (m : OrderedMap κ ν) (k : κ) (v : ν) : OrderedMap κ ν :=
  if h : k ∈ m.toList.map Prod.fst then
    ⟨m.toList.map fun p => if p.1 = k then (k, v) else p, by
      rw [List.map_map]
      refine (List.map_congr_left fun p _ => ?_) ▸ m.nodup
      simp only [Function.comp]
      split
      · assumption
      · rfl⟩
  else
    ⟨m.toList ++ [(k, v)], by
      rw [List.map_append, List.map_singleton]
      refine List.nodup_append.2 ⟨m.nodup, List.nodup_singleton _, ?_⟩
      rintro a ha b hb rfl
      exact h (by rwa [List.mem_singleton.1 hb] at ha)⟩

/-- A key goes. -/
def delete (m : OrderedMap κ ν) (k : κ) : OrderedMap κ ν :=
  ⟨m.toList.filter (·.1 ≠ k), m.nodup.sublist (List.filter_sublist.map _)⟩

variable {m : OrderedMap κ ν} {k k' : κ} {v : ν}

@[simp] theorem get?_empty : (empty : OrderedMap κ ν).get? k = none := rfl

/-- A lookup finds what is in the list. -/
theorem get?_eq_some : m.get? k = some v ↔ (k, v) ∈ m.toList := by
  rw [get?, Option.map_eq_some_iff]
  constructor
  · rintro ⟨⟨k', v'⟩, hfind, rfl⟩
    have hk : k' = k := by simpa using List.find?_some hfind
    exact hk ▸ List.mem_of_find?_eq_some hfind
  · intro h
    cases hfind : m.toList.find? (·.1 = k) with
    | none =>
      have hnot := List.find?_eq_none.1 hfind _ h
      simp at hnot
    | some p =>
      have hk : p.1 = k := by simpa using List.find?_some hfind
      have hp := List.inj_on_of_nodup_map m.nodup (List.mem_of_find?_eq_some hfind) h hk
      exact ⟨p, rfl, congrArg Prod.snd hp⟩

/-- Two maps that answer a lookup alike for every value. -/
theorem get?_eq_of_mem_iff {m m' : OrderedMap κ ν}
    (h : ∀ v, (k', v) ∈ m'.toList ↔ (k, v) ∈ m.toList) : m'.get? k' = m.get? k := by
  refine Option.ext fun v => ?_
  rw [get?_eq_some, get?_eq_some, h]

theorem mem_set {p : κ × ν} : p ∈ (m.set k v).toList ↔ p = (k, v) ∨ p ∈ m.toList ∧ p.1 ≠ k := by
  unfold set
  split
  · rename_i hk
    simp only [List.mem_map]
    constructor
    · rintro ⟨q, hq, rfl⟩
      by_cases hqk : q.1 = k
      · rw [if_pos hqk]
        exact Or.inl rfl
      · rw [if_neg hqk]
        exact Or.inr ⟨hq, hqk⟩
    · rintro (rfl | ⟨hp, hpk⟩)
      · obtain ⟨q, hq, hqk⟩ := List.mem_map.1 hk
        exact ⟨q, hq, if_pos hqk⟩
      · exact ⟨p, hp, if_neg hpk⟩
  · rename_i hk
    rw [List.mem_append, List.mem_singleton]
    constructor
    · rintro (hp | rfl)
      · exact Or.inr ⟨hp, fun hpk => hk (hpk ▸ List.mem_map_of_mem hp)⟩
      · exact Or.inl rfl
    · rintro (rfl | ⟨hp, -⟩)
      · exact Or.inr rfl
      · exact Or.inl hp

theorem mem_delete {p : κ × ν} : p ∈ (m.delete k).toList ↔ p ∈ m.toList ∧ p.1 ≠ k := by
  rw [delete, List.mem_filter, decide_eq_true_eq]

theorem get?_set : (m.set k v).get? k' = if k' = k then some v else m.get? k' := by
  refine Option.ext fun w => ?_
  rw [get?_eq_some, mem_set]
  split
  · rename_i hk
    subst hk
    simp [eq_comm]
  · rename_i hk
    rw [get?_eq_some]
    simp [hk]

theorem get?_delete : (m.delete k).get? k' = if k' = k then none else m.get? k' := by
  refine Option.ext fun w => ?_
  rw [get?_eq_some, mem_delete]
  split
  · rename_i hk
    simp [hk]
  · rename_i hk
    rw [get?_eq_some]
    simp [hk]

/-- The values are what lookups find. -/
theorem mem_values : v ∈ m.values ↔ ∃ k, m.get? k = some v := by
  rw [values, List.mem_map]
  constructor
  · rintro ⟨p, hp, rfl⟩
    exact ⟨p.1, get?_eq_some.2 hp⟩
  · rintro ⟨k, hk⟩
    exact ⟨(k, v), get?_eq_some.1 hk, rfl⟩

/-- A new key gets its value after all others. -/
theorem values_set (h : m.get? k = none) : (m.set k v).values = m.values ++ [v] := by
  have hk : k ∉ m.toList.map Prod.fst := by
    intro hmem
    obtain ⟨⟨k', w⟩, hp, rfl⟩ := List.mem_map.1 hmem
    rw [get?_eq_some.2 hp] at h
    cases h
  rw [set, dif_neg hk, values, values, List.map_append, List.map_singleton]

theorem values_delete : (m.delete k).values.Sublist m.values := List.filter_sublist.map _

theorem get?_mapValues {f : ν → μ} : (m.mapValues f).get? k = (m.get? k).map f := by
  rw [get?, get?, mapValues, List.find?_map, Option.map_map, Option.map_map]
  rfl

/-- Values of a key that count alike. -/
theorem countP_values_set {p : ν → Bool} {v w : ν} (h : p v = p w) :
    (m.set k v).values.countP p = (m.set k w).values.countP p := by
  have hsame : (m.set k v).values.map p = (m.set k w).values.map p := by
    unfold set values
    split
    · rw [List.map_map, List.map_map, List.map_map, List.map_map]
      refine List.map_congr_left fun q _ => ?_
      by_cases hq : q.1 = k <;> simp [hq, h]
    · simp [h]
  have hcount : ∀ l : List ν, l.countP p = (l.map p).count true := by
    intro l
    rw [List.count, List.countP_map]
    exact List.countP_congr fun a _ => by simp
  rw [hcount, hcount, hsame]

end OrderedMap
