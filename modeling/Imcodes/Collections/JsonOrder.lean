import Imcodes.Collections.Json

/-!
# The order of the keys of a JSON value

Two values may be the same but for the order in which their objects have their keys.

* `Reordered` — the values are such.
* `rearrange` — the fields of every object are arranged, those inside first.
* `rearrange_eq_of_reordered` — **a normal form**: an arrangement that sees no order of fields
  gives one value for all values that are the same but for the order of keys.
* `reordered_rearrange` — an arrangement that keeps the fields of every object gives a value that
  is the same but for the order of keys.
-/

/-- The keys of an object, in order. -/
def Fields.keys (fields : Fields) : List String := fields.map Prod.fst

namespace Json

/-! ## Values in another order -/

/-- The objects of the value, however deep inside, have their keys in another order. -/
inductive Reordered : Json → Json → Prop
  | refl (value : Json) : Reordered value value
  | trans {value value' value'' : Json} :
      Reordered value value' → Reordered value' value'' → Reordered value value''
  | item {value value' : Json} (before after : List Json) : Reordered value value' →
      Reordered (array (before ++ value :: after)) (array (before ++ value' :: after))
  | field {value value' : Json} (before after : Fields) (key : String) : Reordered value value' →
      Reordered (object (before ++ (key, value) :: after))
        (object (before ++ (key, value') :: after))
  | fields {fields fields' : Fields} : fields.keys.Nodup → fields.Perm fields' →
      Reordered (object fields) (object fields')

/-! ## Rearranging -/

mutual

/-- The fields of every object, arranged. -/
def rearrange (arrange : Fields → Fields) : Json → Json
  | null => null
  | bool value => bool value
  | number value => number value
  | string value => string value
  | array items => array (rearrangeItems arrange items)
  | object fields => object (arrange (rearrangeFields arrange fields))

def rearrangeItems (arrange : Fields → Fields) : List Json → List Json
  | [] => []
  | item :: items => rearrange arrange item :: rearrangeItems arrange items

def rearrangeFields (arrange : Fields → Fields) : List (String × Json) → List (String × Json)
  | [] => []
  | (key, value) :: fields => (key, rearrange arrange value) :: rearrangeFields arrange fields

end

variable {arrange : Fields → Fields}

theorem rearrangeItems_eq_map (items : List Json) :
    rearrangeItems arrange items = items.map (rearrange arrange) := by
  induction items with
  | nil => rfl
  | cons item items ih => rw [rearrangeItems, ih, List.map_cons]

theorem rearrangeFields_eq_map (fields : Fields) :
    rearrangeFields arrange fields =
      fields.map fun field => (field.1, rearrange arrange field.2) := by
  induction fields with
  | nil => rfl
  | cons field fields ih => rw [rearrangeFields, ih, List.map_cons]

/-- What is inside the fields changes no key. -/
theorem keys_rearrangeFields (fields : Fields) :
    Fields.keys (rearrangeFields arrange fields) = fields.keys := by
  rw [rearrangeFields_eq_map, Fields.keys, Fields.keys, List.map_map]
  rfl

/-- **One normal form** for values that are the same but for the order of keys. -/
theorem rearrange_eq_of_reordered
    (harrange : ∀ fields fields' : Fields, fields.keys.Nodup → fields.Perm fields' →
      arrange fields = arrange fields')
    {value value' : Json} (h : Reordered value value') :
    rearrange arrange value = rearrange arrange value' := by
  induction h with
  | refl value => rfl
  | trans _ _ ih ih' => exact ih.trans ih'
  | item before after _ ih =>
    rw [rearrange, rearrange, rearrangeItems_eq_map, rearrangeItems_eq_map]
    simp only [List.map_append, List.map_cons, ih]
  | field before after key _ ih =>
    rw [rearrange, rearrange, rearrangeFields_eq_map, rearrangeFields_eq_map]
    simp only [List.map_append, List.map_cons, ih]
  | @fields fields fields' hnodup hperm =>
    have hperm' : (rearrangeFields arrange fields).Perm (rearrangeFields arrange fields') := by
      rw [rearrangeFields_eq_map, rearrangeFields_eq_map]
      exact hperm.map _
    rw [rearrange, rearrange]
    exact congrArg object (harrange _ _ ((keys_rearrangeFields fields).symm ▸ hnodup) hperm')

/-! ## What holds throughout a value -/

/-- Something holds of the value and of everything inside it. -/
inductive Throughout (P : Json → Prop) : Json → Prop
  | null : P null → Throughout P null
  | bool {value : Bool} : P (bool value) → Throughout P (bool value)
  | number {value : ℚ} : P (number value) → Throughout P (number value)
  | string {value : String} : P (string value) → Throughout P (string value)
  | array {items : List Json} : P (array items) → (∀ item ∈ items, Throughout P item) →
      Throughout P (array items)
  | object {fields : Fields} : P (object fields) → (∀ field ∈ fields, Throughout P field.2) →
      Throughout P (object fields)

namespace Throughout

variable {P Q : Json → Prop} {value : Json} {items : List Json} {fields : Fields}

theorem here (h : Throughout P value) : P value := by
  cases h <;> assumption

theorem of_mem_array (h : Throughout P (.array items)) : ∀ item ∈ items, Throughout P item := by
  cases h with
  | array _ hitems => exact hitems

theorem of_mem_object (h : Throughout P (.object fields)) :
    ∀ field ∈ fields, Throughout P field.2 := by
  cases h with
  | object _ hfields => exact hfields

theorem mono (hPQ : ∀ value, P value → Q value) (h : Throughout P value) : Throughout Q value := by
  induction h with
  | null h => exact .null (hPQ _ h)
  | bool h => exact .bool (hPQ _ h)
  | number h => exact .number (hPQ _ h)
  | string h => exact .string (hPQ _ h)
  | array h _ ih => exact .array (hPQ _ h) ih
  | object h _ ih => exact .object (hPQ _ h) ih

end Throughout

/-- What arrays and objects always have stays when fields are arranged. -/
theorem Throughout.rearrange {P : Json → Prop} (harray : ∀ items, P (.array items))
    (hobject : ∀ fields, P (.object fields))
    (harrange : ∀ fields : Fields, ∀ field ∈ arrange fields, field ∈ fields)
    {value : Json} (h : Throughout P value) : Throughout P (rearrange arrange value) := by
  induction h with
  | null h => exact .null h
  | bool h => exact .bool h
  | number h => exact .number h
  | string h => exact .string h
  | array _ _ ih =>
    rw [Json.rearrange, rearrangeItems_eq_map]
    refine .array (harray _) fun item hmem => ?_
    obtain ⟨item, hitem, rfl⟩ := List.mem_map.1 hmem
    exact ih item hitem
  | object _ _ ih =>
    rw [Json.rearrange, rearrangeFields_eq_map]
    refine .object (hobject _) fun field hmem => ?_
    obtain ⟨field, hfield, rfl⟩ := List.mem_map.1 (harrange _ _ hmem)
    exact ih field hfield

/-! ## A value and its arrangement -/

namespace Reordered

theorem symm {value value' : Json} (h : Reordered value value') : Reordered value' value := by
  induction h with
  | refl value => exact .refl value
  | trans _ _ ih ih' => exact ih'.trans ih
  | item before after _ ih => exact .item before after ih
  | field before after key _ ih => exact .field before after key ih
  | fields hnodup hperm => exact .fields ((hperm.map Prod.fst).nodup_iff.1 hnodup) hperm.symm

/-- All values of an array in another order inside. -/
theorem items {f : Json → Json} (before items : List Json)
    (h : ∀ item ∈ items, Reordered item (f item)) :
    Reordered (array (before ++ items)) (array (before ++ items.map f)) := by
  induction items generalizing before with
  | nil => exact .refl _
  | cons item items ih =>
    have htail := ih (before ++ [f item]) fun item hmem => h item (List.mem_cons_of_mem _ hmem)
    rw [List.append_assoc, List.append_assoc] at htail
    exact (Reordered.item before items (h item List.mem_cons_self)).trans htail

/-- All values of an object in another order inside. -/
theorem values {f : Json → Json} (before fields : Fields)
    (h : ∀ field ∈ fields, Reordered field.2 (f field.2)) :
    Reordered (object (before ++ fields))
      (object (before ++ fields.map fun field => (field.1, f field.2))) := by
  induction fields generalizing before with
  | nil => exact .refl _
  | cons field fields ih =>
    have htail := ih (before ++ [(field.1, f field.2)]) fun field hmem =>
      h field (List.mem_cons_of_mem _ hmem)
    rw [List.append_assoc, List.append_assoc] at htail
    exact (Reordered.field before fields field.1 (h field List.mem_cons_self)).trans htail

end Reordered

/-- What is asked of the fields of the objects. -/
def FieldsSatisfy (Q : Fields → Prop) : Json → Prop
  | object fields => Q fields
  | _ => True

/-- **An arrangement changes the order of keys only** where it keeps the fields. -/
theorem reordered_rearrange {Q : List String → Prop}
    (hnodup : ∀ keys, Q keys → keys.Nodup)
    (harrange : ∀ fields : Fields, Q fields.keys → fields.Perm (arrange fields))
    {value : Json} (h : Throughout (FieldsSatisfy fun fields => Q fields.keys) value) :
    Reordered value (rearrange arrange value) := by
  induction h with
  | null _ => exact .refl _
  | bool _ => exact .refl _
  | number _ => exact .refl _
  | string _ => exact .refl _
  | array _ _ ih =>
    rw [rearrange, rearrangeItems_eq_map]
    exact Reordered.items [] _ ih
  | @object fields hfields _ ih =>
    have hvalues : Reordered (object fields) (object (rearrangeFields arrange fields)) := by
      rw [rearrangeFields_eq_map]
      exact Reordered.values [] fields ih
    have hkeys : Q (Fields.keys (rearrangeFields arrange fields)) := by
      rw [keys_rearrangeFields]
      exact hfields
    exact hvalues.trans (.fields (hnodup _ hkeys) (harrange _ hkeys))

end Json
