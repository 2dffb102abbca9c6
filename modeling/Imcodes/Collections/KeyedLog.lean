import Imcodes.Collections.OrderedMap
import Mathlib.Data.List.Induction

/-!
# Logs of entries and tombstones

A log is replayed from its first record on: an entry becomes the value of its
key, a tombstone removes its key.  A replay may skip entries that it does not
accept, and then it is not enough to know the last record of a key.

* `since` — the values of a key since its last tombstone.
* `get?_replay` — a replay finds the last accepted one of them.
* `get?_replay_of_fades` — if no value that was accepted before the last one would
  be accepted without it, a replay finds the last value or nothing.
-/

/-- A record of a log. -/
inductive LogRecord (ν κ : Type)
  | entry (v : ν)
  | tombstone (k : κ)
deriving DecidableEq

namespace LogRecord

variable {ν κ μ : Type}

/-- A record of other values. -/
def map (f : ν → μ) : LogRecord ν κ → LogRecord μ κ
  | .entry v => .entry (f v)
  | .tombstone k => .tombstone k

variable [DecidableEq κ] (key : ν → κ)

/-- One record of a replay that accepts some entries. -/
def apply (accepts : ν → Bool) (m : OrderedMap κ ν) : LogRecord ν κ → OrderedMap κ ν
  | .entry v => if accepts v then m.set (key v) v else m
  | .tombstone k => m.delete k

/-- A replay of a log. -/
def replay (accepts : ν → Bool) (log : List (LogRecord ν κ)) : OrderedMap κ ν :=
  log.foldl (apply key accepts) .empty

/-- What one record does to the values of a key. -/
def extend (k : κ) (vs : List ν) : LogRecord ν κ → List ν
  | .entry v => if key v = k then vs ++ [v] else vs
  | .tombstone k' => if k' = k then [] else vs

/-- The values of a key since its last tombstone, oldest first. -/
def since (k : κ) (log : List (LogRecord ν κ)) : List ν := log.foldl (extend key k) []

variable {key} {k : κ} {v : ν} {log : List (LogRecord ν κ)} {accepts : ν → Bool}

@[simp] theorem since_nil : since key k [] = [] := rfl

theorem since_append (log log' : List (LogRecord ν κ)) :
    since key k (log ++ log') = log'.foldl (extend key k) (since key k log) := List.foldl_append

theorem since_concat (r : LogRecord ν κ) :
    since key k (log ++ [r]) = extend key k (since key k log) r := since_append log [r]

/-- A log without tombstones. -/
theorem since_map_entry (vs : List ν) :
    since key k (vs.map .entry) = vs.filter fun v => key v = k := by
  induction vs using List.reverseRecOn with
  | nil => rfl
  | append_singleton vs v ih =>
    rw [List.map_append, List.map_singleton, since_concat, ih, List.filter_append]
    simp only [extend, List.filter_cons, List.filter_nil, decide_eq_true_eq]
    split
    · rfl
    · rw [List.append_nil]

/-- What a replay finds for a key: the last value it accepts. -/
theorem get?_replay :
    (replay key accepts log).get? k = ((since key k log).filter accepts).getLast? := by
  induction log using List.reverseRecOn with
  | nil => rfl
  | append_singleton log r ih =>
    rw [since_concat]
    simp only [replay, List.foldl_append, List.foldl_cons, List.foldl_nil] at ih ⊢
    cases r with
    | entry v =>
      simp only [apply, extend]
      by_cases hk : key v = k
      · rw [if_pos hk, List.filter_append]
        by_cases hv : accepts v
        · rw [if_pos hv, OrderedMap.get?_set, if_pos hk.symm, List.filter_cons_of_pos hv]
          simp
        · rw [if_neg hv, List.filter_cons_of_neg hv]
          simpa using ih
      · rw [if_neg hk]
        split
        · rw [OrderedMap.get?_set, if_neg (Ne.symm hk), ih]
        · exact ih
    | tombstone k' =>
      simp only [apply, extend]
      rw [OrderedMap.get?_delete]
      by_cases hk : k' = k
      · rw [if_pos hk, if_pos hk.symm]
        rfl
      · rw [if_neg hk, if_neg (Ne.symm hk), ih]

/-- A replay finds the last value of a key if it accepts it; for nothing that it
accepted before was last. -/
theorem get?_replay_of_fades {last : Option ν} (hlast : (since key k log).getLast? = last)
    (hfades : ∀ v, last = some v → ∀ u ∈ since key k log, accepts u → accepts v) :
    (replay key accepts log).get? k = last.filter accepts := by
  rw [get?_replay]
  cases last with
  | none =>
    rw [List.getLast?_eq_none_iff.1 hlast]
    rfl
  | some v =>
    obtain ⟨vs, hvs⟩ := List.getLast?_eq_some_iff.1 hlast
    rw [hvs, List.filter_append, Option.filter_some]
    by_cases hv : accepts v
    · rw [if_pos hv, List.filter_cons_of_pos hv]
      simp
    · have hnil : vs.filter accepts = [] := List.filter_eq_nil_iff.2 fun u hu hok =>
        hv (hfades v rfl u (by rw [hvs]; exact List.mem_append_left _ hu) hok)
      rw [if_neg hv, List.filter_cons_of_neg hv, hnil]
      rfl

end LogRecord
