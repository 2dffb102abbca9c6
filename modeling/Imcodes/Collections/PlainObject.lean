import Imcodes.Collections.OrderedMap

/-!
# Plain objects as records

A plain object that is used as a record has its own properties and inherits
those of `Object.prototype`.  Reading a key that is the name of one of these
finds a function or an object, although nothing was ever put there.

* `Property` — what reading a key finds.
* `count`, `countUp` — a record of counters, `record[key] ?? 0` and
  `record[key] = (record[key] ?? 0) + 1`.  A key whose name is inherited has no
  count, as what it has is not a number.
* `count_countUp_of_eq_some` — what is a number is counted, whatever the key.
-/

/-- The names of the properties of `Object.prototype`. -/
def objectPrototypeKeys : List String :=
  ["constructor", "__defineGetter__", "__defineSetter__", "hasOwnProperty", "__lookupGetter__",
    "__lookupSetter__", "isPrototypeOf", "propertyIsEnumerable", "toString", "valueOf",
    "__proto__", "toLocaleString"]

/-- What reading a property finds. -/
inductive Property (ν : Type)
  | own (value : ν)
  | inherited
  /-- `undefined` -/
  | missing
deriving DecidableEq

/-- A plain object with values in `ν`. -/
structure PlainObject (ν : Type) where
  own : OrderedMap String ν

namespace PlainObject

variable {ν : Type}

/-- `{}` -/
def empty : PlainObject ν := ⟨.empty⟩

/-- `object[key]` -/
def read (o : PlainObject ν) (key : String) : Property ν :=
  match o.own.get? key with
  | some value => .own value
  | none => if key ∈ objectPrototypeKeys then .inherited else .missing

/-- `object[key] = value`; the setter of `__proto__` ignores what is not an object. -/
def assign (o : PlainObject ν) (key : String) (value : ν) : PlainObject ν :=
  if key = "__proto__" ∧ o.own.get? key = none then o else ⟨o.own.set key value⟩

/-- `delete object[key]` -/
def delete (o : PlainObject ν) (key : String) : PlainObject ν := ⟨o.own.delete key⟩

variable {o : PlainObject ν} {key key' : String} {value : ν}

theorem read_eq_own : o.read key = .own value ↔ o.own.get? key = some value := by
  unfold read
  split
  · rename_i v hv
    simp [hv]
  · rename_i hnone
    rw [hnone]
    split <;> simp

/-- A key without a property of its own. -/
theorem read_of_get?_eq_none (h : o.own.get? key = none) :
    o.read key = if key ∈ objectPrototypeKeys then .inherited else .missing := by
  rw [read, h]

@[simp] theorem read_empty :
    (empty : PlainObject ν).read key = if key ∈ objectPrototypeKeys then .inherited else .missing :=
  rfl

/-! ## Counters -/

/-- A count, or a text that was made from something inherited. -/
abbrev Counters := PlainObject (Option Nat)

/-- `counters[key] ?? 0`, if that is a number. -/
def count (counters : Counters) (key : String) : Option Nat :=
  match counters.read key with
  | .own n => n
  | .inherited => none
  | .missing => some 0

/-- `counters[key] = (counters[key] ?? 0) + 1` -/
def countUp (counters : Counters) (key : String) : Counters :=
  counters.assign key ((counters.count key).map (· + 1))

variable {counters : Counters}

@[simp] theorem count_empty (h : key ∉ objectPrototypeKeys) :
    (empty : Counters).count key = some 0 := by
  simp [count, h]

theorem count_eq_of_get?_eq {counters' : Counters}
    (h : counters'.own.get? key = counters.own.get? key) :
    counters'.count key = counters.count key := by
  simp only [count, read, h]

/-- Counting up changes no other key. -/
theorem count_countUp_of_ne (h : key' ≠ key) :
    (counters.countUp key).count key' = counters.count key' := by
  refine count_eq_of_get?_eq ?_
  unfold countUp assign
  split
  · rfl
  · exact OrderedMap.get?_set.trans (if_neg h)

/-- What is a number is counted, whatever the key. -/
theorem count_countUp_of_eq_some {n : Nat} (h : counters.count key = some n) :
    (counters.countUp key).count key = some (n + 1) := by
  have hassign : ¬ (key = "__proto__" ∧ counters.own.get? key = none) := by
    rintro ⟨rfl, hnone⟩
    rw [count, read_of_get?_eq_none hnone, if_pos (by decide)] at h
    cases h
  have hget : (counters.countUp key).own.get? key = some (some (n + 1)) := by
    rw [countUp, assign, if_neg hassign, h]
    exact OrderedMap.get?_set.trans (if_pos rfl)
  rw [count, read_eq_own.2 hget]

/-- What is deleted is not counted any more. -/
theorem getD_count_delete : ((counters.delete key).count key).getD 0 = 0 := by
  have hget : (counters.delete key).own.get? key = none :=
    OrderedMap.get?_delete.trans (if_pos rfl)
  rw [count, read_of_get?_eq_none hget]
  by_cases hname : key ∈ objectPrototypeKeys
  · rw [if_pos hname]
    rfl
  · rw [if_neg hname]
    rfl

theorem getD_count_empty : ((empty : Counters).count key).getD 0 = 0 := by
  by_cases hname : key ∈ objectPrototypeKeys
  · rw [count, read_empty, if_pos hname]
    rfl
  · rw [count_empty hname]
    rfl

end PlainObject
