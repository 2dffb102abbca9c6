import Mathlib.Data.Rat.Defs

/-!
# JSON values

What `JSON.parse` returns, with the ways in which a program looks at a value of which it
does not know the type.

* `Fields.read`, `Fields.text` — `object.key`, and `typeof object.key === 'string' ? … : ''`.
* `Fields.put` — `{ ...object, key: value }`; what another key reads stays
  (`read_put_of_ne`).
-/

/-- A JSON value; the fields of an object are in the order in which they came. -/
inductive Json
  | null
  | bool (value : Bool)
  | number (value : ℚ)
  | string (value : String)
  | array (items : List Json)
  | object (fields : List (String × Json))

/-- The fields of an object. -/
abbrev Fields := List (String × Json)

namespace Json

/-- `typeof value === 'string' ? value : undefined` -/
def string? : Json → Option String
  | string value => some value
  | _ => none

/-- `value && typeof value === 'object' && !Array.isArray(value) ? value : undefined` -/
def record? : Json → Option Fields
  | object fields => some fields
  | _ => none

/-- `Array.isArray(value) ? value : []` -/
def items : Json → List Json
  | array items => items
  | _ => []

/-- Whether a value counts as true. -/
def truthy : Json → Bool
  | null => false
  | bool value => value
  | number value => value ≠ 0
  | string value => value ≠ ""
  | array _ => true
  | object _ => true

end Json

namespace Fields

/-- `object.key`; `none` for `undefined` -/
def read (fields : Fields) (key : String) : Option Json := fields.lookup key

/-- `typeof object.key === 'string' ? object.key : undefined` -/
def string? (fields : Fields) (key : String) : Option String := (fields.read key).bind Json.string?

/-- `typeof object.key === 'string' ? object.key : ''` -/
def text (fields : Fields) (key : String) : String := (fields.string? key).getD ""

/-- `object.key && typeof object.key === 'object' ? object.key : null`, for a key that is read
further; an array has none of the keys that are read. -/
def record? (fields : Fields) (key : String) : Option Fields := (fields.read key).bind Json.record?

/-- `Array.isArray(object.key) ? object.key : []` -/
def items (fields : Fields) (key : String) : List Json := ((fields.read key).map Json.items).getD []

/-- `{ ...object, key: value }` -/
def put (fields : Fields) (key : String) (value : Json) : Fields :=
  if key ∈ fields.map Prod.fst then
    fields.map fun field => if field.1 = key then (key, value) else field
  else fields ++ [(key, value)]

/-- `delete object.key` -/
def remove (fields : Fields) (key : String) : Fields := fields.filter (·.1 ≠ key)

variable {fields : Fields} {key key' : String} {value : Json}

/-- Another field reads as before. -/
theorem read_put_of_ne (h : key' ≠ key) : (fields.put key value).read key' = fields.read key' := by
  have hmap : ∀ l : Fields, List.lookup key'
      (l.map fun field => if field.1 = key then (key, value) else field) = l.lookup key' := by
    intro l
    induction l with
    | nil => rfl
    | cons field l ih =>
      obtain ⟨k, v⟩ := field
      rw [List.map_cons]
      by_cases hk : k = key
      · subst hk
        simp only [if_true, List.lookup_cons, ih, beq_false_of_ne h]
      · simp only [if_neg hk, List.lookup_cons, ih]
  unfold put read
  split
  · exact hmap fields
  · rw [List.lookup_append, List.lookup_cons, beq_false_of_ne h]
    exact Option.or_none

/-- The field itself reads as what was put there. -/
theorem read_put_self : (fields.put key value).read key = some value := by
  unfold put read
  split
  · rename_i hmem
    induction fields with
    | nil => cases hmem
    | cons field fields ih =>
      rw [List.map_cons]
      by_cases hk : field.1 = key
      · rw [if_pos hk, List.lookup_cons_self]
      · rw [if_neg hk, List.lookup_cons, beq_false_of_ne (Ne.symm hk)]
        exact ih ((List.mem_cons.1 hmem).resolve_left (Ne.symm hk))
  · rename_i hmem
    have hnone : List.lookup key fields = none := by
      rw [List.lookup_eq_none_iff]
      intro field hfield
      rw [bne_iff_ne]
      rintro rfl
      exact hmem (List.mem_map_of_mem hfield)
    rw [List.lookup_append, hnone, Option.none_or, List.lookup_cons_self]

theorem items_put_self {items : List Json} :
    (fields.put key (.array items)).items key = items := by
  rw [Fields.items, read_put_self]
  rfl

theorem record?_put_of_ne (h : key' ≠ key) :
    (fields.put key value).record? key' = fields.record? key' := by
  rw [record?, record?, read_put_of_ne h]

theorem string?_put_of_ne (h : key' ≠ key) :
    (fields.put key value).string? key' = fields.string? key' := by
  rw [string?, string?, read_put_of_ne h]
/-- `object.key`, where a record is, is changed to what a function makes of it. -/
def onRecord (fields : Fields) (key : String) (f : Fields → Fields) : Fields :=
  fields.map fun field =>
    if field.1 = key then
      match field.2 with
      | .object inner => (key, .object (f inner))
      | _ => field
    else field

/-- What a function makes of a record is read where the record was. -/
theorem record?_onRecord_self (f : Fields → Fields) :
    (fields.onRecord key f).record? key = (fields.record? key).map f := by
  induction fields with
  | nil => rfl
  | cons field fields ih =>
    obtain ⟨k, v⟩ := field
    unfold onRecord record? read at ih ⊢
    rw [List.map_cons]
    by_cases hk : k = key
    · subst hk
      cases v <;> simp [Json.record?]
    · rw [if_neg hk, List.lookup_cons, List.lookup_cons, beq_false_of_ne (Ne.symm hk)]
      exact ih

theorem read_onRecord_of_ne (f : Fields → Fields) (h : key' ≠ key) :
    (fields.onRecord key f).read key' = fields.read key' := by
  induction fields with
  | nil => rfl
  | cons field fields ih =>
    obtain ⟨k, v⟩ := field
    unfold onRecord read at ih ⊢
    rw [List.map_cons]
    by_cases hk : k = key
    · subst hk
      cases v <;> simpa [List.lookup_cons, beq_false_of_ne h] using ih
    · rw [if_neg hk, List.lookup_cons, List.lookup_cons, ih]

theorem record?_onRecord_of_ne (f : Fields → Fields) (h : key' ≠ key) :
    (fields.onRecord key f).record? key' = fields.record? key' := by
  rw [record?, record?, read_onRecord_of_ne f h]

/-- Changes of one record, one after the other. -/
theorem onRecord_onRecord (f g : Fields → Fields) :
    (fields.onRecord key f).onRecord key g = fields.onRecord key fun inner => g (f inner) := by
  unfold onRecord
  rw [List.map_map]
  refine List.map_congr_left fun ⟨k, v⟩ _ => ?_
  by_cases hk : k = key
  · subst hk
    cases v <;> simp
  · simp [hk]

/-- Changes of two records, in either order. -/
theorem onRecord_comm (f g : Fields → Fields) (h : key ≠ key') :
    (fields.onRecord key f).onRecord key' g = (fields.onRecord key' g).onRecord key f := by
  unfold onRecord
  rw [List.map_map, List.map_map]
  refine List.map_congr_left fun ⟨k, v⟩ _ => ?_
  by_cases hk : k = key
  · subst hk
    cases v <;> simp [h]
  · by_cases hk' : k = key'
    · subst hk'
      cases v <;> simp [hk]
    · simp [hk, hk']

/-- Two records are changed again, so that nothing is left of the first changes. -/
theorem onRecord_pair {f f' g g' : Fields → Fields} (h : key ≠ key') (hf : ∀ r, f' (f r) = f' r)
    (hg : ∀ r, g' (g r) = g' r) :
    ((((fields.onRecord key f).onRecord key' g).onRecord key f').onRecord key' g') =
      (fields.onRecord key f').onRecord key' g' := by
  rw [onRecord_comm g f' h.symm, onRecord_onRecord, onRecord_onRecord]
  simp only [hf, hg]

theorem remove_onRecord (f : Fields → Fields) :
    (fields.onRecord key f).remove key' = (fields.remove key').onRecord key f := by
  unfold onRecord remove
  rw [List.filter_map]
  congr 1
  refine List.filter_congr fun ⟨k, v⟩ _ => ?_
  by_cases hk : k = key
  · subst hk
    cases v <;> simp
  · simp [hk]

theorem remove_comm : (fields.remove key).remove key' = (fields.remove key').remove key := by
  unfold remove
  rw [List.filter_filter, List.filter_filter]
  exact List.filter_congr fun field _ => Bool.and_comm _ _

/-- What is taken away does not depend on what was put there. -/
theorem remove_put : (fields.put key value).remove key = fields.remove key := by
  have hmap : ∀ l : Fields,
      (l.map fun field => if field.1 = key then (key, value) else field).filter (·.1 ≠ key) =
        l.filter (·.1 ≠ key) := by
    intro l
    induction l with
    | nil => rfl
    | cons field l ih =>
      rw [List.map_cons, List.filter_cons, List.filter_cons, ih]
      by_cases hk : field.1 = key <;> simp [hk]
  unfold put remove
  split
  · exact hmap fields
  · simp [List.filter_append]

end Fields
