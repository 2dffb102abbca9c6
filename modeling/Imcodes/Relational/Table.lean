import Mathlib.Data.List.Nodup
import Mathlib.Data.List.Perm.Basic

/-!
# Tables with a primary key

A table is a list of rows in insertion order in which no two rows have the same
primary key.  The key constraint is a field of the structure, so a table that
violates it cannot be built, and each statement below has to show that it keeps
it.

* `insert` is `INSERT`: it fails on a clash with an existing key.
* `replace` is `INSERT OR REPLACE`: the clashing row goes, the new one stays.
* `upsert` is `INSERT … ON CONFLICT DO UPDATE`.
* `update` and `delete` are `UPDATE … WHERE` and `DELETE … WHERE`.
* `eq_of_key_eq` is the use of the constraint: a key determines its row.
* `rowsOf` is what one owner sees of a shared table; the `rowsOf_…` lemmas say
  what each statement does to its owner's rows, and that it does nothing to the
  others'.
-/

namespace Relational

/-- Rows with pairwise distinct primary keys. -/
structure Table (ρ κ : Type) (key : ρ → κ) where
  /-- The rows, oldest first. -/
  rows : List ρ
  /-- The `PRIMARY KEY` constraint. -/
  nodup : (rows.map key).Nodup

namespace Table

variable {ρ κ : Type} {key : ρ → κ}

@[ext] theorem ext {t u : Table ρ κ key} (h : t.rows = u.rows) : t = u := by
  cases t; cases u; cases h; rfl

instance [DecidableEq ρ] : DecidableEq (Table ρ κ key) := fun t u =>
  decidable_of_iff (t.rows = u.rows) ⟨ext, fun h => h ▸ rfl⟩

/-- The table without rows. -/
def empty : Table ρ κ key := ⟨[], List.nodup_nil⟩

@[simp] theorem rows_empty : (empty : Table ρ κ key).rows = [] := rfl

/-- A key determines its row. -/
theorem eq_of_key_eq (t : Table ρ κ key) {r r' : ρ} (hr : r ∈ t.rows) (hr' : r' ∈ t.rows)
    (h : key r = key r') : r = r' :=
  List.inj_on_of_nodup_map t.nodup hr hr' h

/-! ## Statements -/

section Keyed

variable [DecidableEq κ]

/-- `INSERT`: nothing is stored when the key is taken. -/
def insert (t : Table ρ κ key) (r : ρ) : Option (Table ρ κ key) :=
  if h : key r ∈ t.rows.map key then none
  else some ⟨t.rows ++ [r], by
    rw [List.map_append, List.map_singleton]
    exact List.nodup_append.2 ⟨t.nodup, List.nodup_singleton _, by
      rintro a ha b hb rfl
      exact h (by rwa [List.mem_singleton.1 hb] at ha)⟩⟩

/-- An `INSERT` that succeeds met no row with its key and appended its row. -/
theorem insert_eq_some {t u : Table ρ κ key} {r : ρ} (h : t.insert r = some u) :
    key r ∉ t.rows.map key ∧ u.rows = t.rows ++ [r] := by
  rw [insert] at h
  split_ifs at h with hk
  cases h
  exact ⟨hk, rfl⟩

/-- An `INSERT` with a fresh key succeeds. -/
theorem insert_of_fresh {t : Table ρ κ key} {r : ρ} (h : key r ∉ t.rows.map key) :
    ∃ u, t.insert r = some u ∧ u.rows = t.rows ++ [r] := by
  rw [insert, dif_neg h]
  exact ⟨_, rfl, rfl⟩

/-- `INSERT OR REPLACE`. -/
def replace (t : Table ρ κ key) (r : ρ) : Table ρ κ key where
  rows := t.rows.filter (fun x => key x ≠ key r) ++ [r]
  nodup := by
    rw [List.map_append, List.map_singleton]
    refine List.nodup_append.2 ⟨t.nodup.sublist (List.filter_sublist.map key),
      List.nodup_singleton _, ?_⟩
    rintro a ha b hb rfl
    obtain ⟨x, hx, hxa⟩ := List.mem_map.1 ha
    have hne := (List.mem_filter.1 hx).2
    rw [List.mem_singleton.1 hb] at hxa
    simp [hxa] at hne

@[simp] theorem rows_replace (t : Table ρ κ key) (r : ρ) :
    (t.replace r).rows = t.rows.filter (fun x => key x ≠ key r) ++ [r] := rfl

end Keyed

/-- `UPDATE … SET f WHERE p`, for an assignment that leaves the key columns alone. -/
def update (t : Table ρ κ key) (p : ρ → Bool) (f : ρ → ρ) (hf : ∀ r, key (f r) = key r) :
    Table ρ κ key where
  rows := t.rows.map (fun r => if p r then f r else r)
  nodup := by
    have h : key ∘ (fun r => if p r then f r else r) = key := by
      funext r
      by_cases hp : p r <;> simp [hp, hf]
    rw [List.map_map, h]
    exact t.nodup

@[simp] theorem rows_update (t : Table ρ κ key) (p : ρ → Bool) (f : ρ → ρ)
    (hf : ∀ r, key (f r) = key r) :
    (t.update p f hf).rows = t.rows.map (fun r => if p r then f r else r) := rfl

/-- `DELETE … WHERE p`. -/
def delete (t : Table ρ κ key) (p : ρ → Bool) : Table ρ κ key where
  rows := t.rows.filter (fun r => !p r)
  nodup := t.nodup.sublist (List.filter_sublist.map key)

@[simp] theorem rows_delete (t : Table ρ κ key) (p : ρ → Bool) :
    (t.delete p).rows = t.rows.filter (fun r => !p r) := rfl

/-- `INSERT … ON CONFLICT (key) DO UPDATE SET f`. -/
def upsert [DecidableEq κ] (t : Table ρ κ key) (r : ρ) (f : ρ → ρ)
    (hf : ∀ x, key (f x) = key x) : Table ρ κ key :=
  match t.insert r with
  | some u => u
  | none => t.update (fun x => decide (key x = key r)) f hf

/-- The first row that satisfies `p`. -/
def find? (t : Table ρ κ key) (p : ρ → Bool) : Option ρ := t.rows.find? p

/-! ## The rows of one owner

A table shared by several owners has a column that names the owner of a row,
and the statements of one owner have `col = c` in their `WHERE` clause.  What
they do is then a statement about the owner's rows alone. -/

section Owner

variable {γ : Type} [DecidableEq γ] (col : ρ → γ)

/-- The rows of the owner `c`, oldest first. -/
def rowsOf (c : γ) (t : Table ρ κ key) : List ρ := t.rows.filter fun r => col r = c

variable {col} {c c' : γ}

theorem rowsOf_update (t : Table ρ κ key) (p : ρ → Bool) {f : ρ → ρ}
    (hf : ∀ r, key (f r) = key r) (hcol : ∀ r, col (f r) = col r) :
    (t.update (fun r => col r = c && p r) f hf).rowsOf col c =
      (t.rowsOf col c).map fun r => if p r then f r else r := by
  simp only [rowsOf, rows_update, List.filter_map]
  have h : (fun r => decide (col r = c)) ∘ (fun r => if col r = c && p r then f r else r) =
      fun r => decide (col r = c) := by
    funext r
    simp only [Function.comp_apply]
    split <;> simp [hcol]
  rw [h]
  refine List.map_congr_left fun r hr => ?_
  simp [of_decide_eq_true (List.mem_filter.1 hr).2]

theorem rowsOf_update_of_ne (t : Table ρ κ key) (p : ρ → Bool) {f : ρ → ρ}
    (hf : ∀ r, key (f r) = key r) (hcol : ∀ r, col (f r) = col r) (h : c' ≠ c) :
    (t.update (fun r => col r = c && p r) f hf).rowsOf col c' = t.rowsOf col c' := by
  simp only [rowsOf, rows_update, List.filter_map]
  have h' : (fun r => decide (col r = c')) ∘ (fun r => if col r = c && p r then f r else r) =
      fun r => decide (col r = c') := by
    funext r
    simp only [Function.comp_apply]
    split <;> simp [hcol]
  rw [h']
  refine (List.map_congr_left fun r hr => ?_).trans (List.map_id _)
  have hr' := of_decide_eq_true (List.mem_filter.1 hr).2
  simp [hr', h]

theorem rowsOf_delete (t : Table ρ κ key) (p : ρ → Bool) :
    (t.delete (fun r => col r = c && p r)).rowsOf col c =
      (t.rowsOf col c).filter fun r => !p r := by
  simp only [rowsOf, rows_delete, List.filter_filter]
  refine List.filter_congr fun r _ => ?_
  by_cases hr : col r = c <;> simp [hr]

theorem rowsOf_delete_of_ne (t : Table ρ κ key) (p : ρ → Bool) (h : c' ≠ c) :
    (t.delete (fun r => col r = c && p r)).rowsOf col c' = t.rowsOf col c' := by
  simp only [rowsOf, rows_delete, List.filter_filter]
  refine List.filter_congr fun r _ => ?_
  by_cases hr : col r = c' <;> simp [hr, h]

variable [DecidableEq κ]

theorem rowsOf_insert {t u : Table ρ κ key} {r : ρ} (hu : t.insert r = some u) (hr : col r = c) :
    u.rowsOf col c = t.rowsOf col c ++ [r] := by
  rw [rowsOf, (insert_eq_some hu).2, List.filter_append]
  simp [rowsOf, hr]

theorem rowsOf_insert_of_ne {t u : Table ρ κ key} {r : ρ} (hu : t.insert r = some u)
    (hr : col r = c) (h : c' ≠ c) : u.rowsOf col c' = t.rowsOf col c' := by
  rw [rowsOf, (insert_eq_some hu).2, List.filter_append]
  simp [rowsOf, hr, Ne.symm h]

theorem rowsOf_replace (t : Table ρ κ key) {r : ρ} (hr : col r = c) :
    (t.replace r).rowsOf col c = (t.rowsOf col c).filter (fun x => key x ≠ key r) ++ [r] := by
  simp only [rowsOf, rows_replace, List.filter_append, List.filter_filter]
  simp [hr, Bool.and_comm]

/-- Replacing a row of one owner leaves the others' rows, if the key names the owner. -/
theorem rowsOf_replace_of_ne (t : Table ρ κ key) {r : ρ}
    (hcol : ∀ x, key x = key r → col x = col r) (hr : col r = c) (h : c' ≠ c) :
    (t.replace r).rowsOf col c' = t.rowsOf col c' := by
  simp only [rowsOf, rows_replace, List.filter_append, List.filter_filter]
  have hne : ¬ c = c' := Ne.symm h
  simp only [List.filter_cons, hr, hne, decide_false, Bool.false_eq_true, if_false,
    List.filter_nil, List.append_nil]
  refine List.filter_congr fun x _ => ?_
  by_cases hx : key x = key r
  · simp [hx, hcol x hx, hr, hne]
  · simp [hx]

end Owner

end Table

end Relational
