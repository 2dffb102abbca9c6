import Imcodes.Collections.JsonOrder
import Imcodes.Collections.JsonText
import Imcodes.Collections.Sorted
import Imcodes.Workflow.Types
import Mathlib.Algebra.GroupWithZero.Nat

/-!
# Canonical texts and their hashes

`canonicalize` gives every object its keys in one order, `stableStringify` writes what that
gives, and `stableHash` is the 64-bit FNV-1a hash of a text's code units.

* `jsSort_eq_of_perm` — sorted texts do not depend on the order they had.
* `stableStringify_eq_of_reordered` — **the order of keys is not written**, in no object of the
  value.
* `hashP2pStaticPolicy_eq_of_perm` — nor is that of a policy's executables.

How a number is written is a parameter.
-/

namespace Imcodes.Workflow

/-! ## Texts in order -/

/-- The code units of a character. -/
def charUnits (c : Char) : List Nat :=
  if c.toNat < 0x10000 then [c.toNat]
  else [0xd800 + (c.toNat - 0x10000) / 0x400, 0xdc00 + (c.toNat - 0x10000) % 0x400]

theorem codeUnits_eq_flatMap (value : String) : codeUnits value = value.toList.flatMap charUnits :=
  rfl

/-- A character's number is no surrogate's. -/
theorem toNat_lt_or_gt (c : Char) : c.toNat < 0xd800 ∨ 0xdfff < c.toNat ∧ c.toNat < 0x110000 :=
  c.valid

/-- The first character is read from its units. -/
theorem eq_of_charUnits_append {c d : Char} {s t : List Nat}
    (h : charUnits c ++ s = charUnits d ++ t) : c = d ∧ s = t := by
  have hc := toNat_lt_or_gt c
  have hd := toNat_lt_or_gt d
  unfold charUnits at h
  split at h <;> split at h <;> simp only [List.cons_append, List.nil_append, List.cons.injEq] at h
  · exact ⟨Char.toNat_inj.1 h.1, h.2⟩
  -- the first unit of a pair is a surrogate
  · omega
  · omega
  · obtain ⟨hhigh, hlow, htail⟩ := h
    exact ⟨Char.toNat_inj.1 (by omega), htail⟩

/-- **Texts are their code units.** -/
theorem codeUnits_injective : Function.Injective codeUnits := by
  intro a b h
  rw [codeUnits_eq_flatMap, codeUnits_eq_flatMap] at h
  refine String.toList_injective ?_
  generalize a.toList = s at h
  generalize b.toList = t at h
  have hne (c : Char) : charUnits c ≠ [] := by
    unfold charUnits
    split <;> exact List.cons_ne_nil _ _
  induction s generalizing t with
  | nil =>
    cases t with
    | nil => rfl
    | cons d t => exact absurd (List.append_eq_nil_iff.1 h.symm).1 (hne d)
  | cons c s ih =>
    cases t with
    | nil => exact absurd (List.append_eq_nil_iff.1 h).1 (hne c)
    | cons d t =>
      obtain ⟨rfl, htail⟩ := eq_of_charUnits_append h
      rw [ih t htail]

/-- The order of code units, on what has a text for a key. -/
theorem orders_codeUnits {α : Type} (key : α → String) {values : List α}
    (hkey : ∀ a ∈ values, ∀ b ∈ values, key a = key b → a = b) :
    Sorted.Orders (fun a b => codeUnits (key a) ≤ codeUnits (key b)) values where
  total _ _ _ _ := le_total _ _
  trans _ _ _ _ _ _ := le_trans
  antisymm a ha b hb hab hba := hkey a ha b hb (codeUnits_injective (le_antisymm hab hba))

/-- **One sorted list**, in whatever order the texts are. -/
theorem jsSort_eq_of_perm {values values' : List String} (h : values.Perm values') :
    jsSort values = jsSort values' :=
  Sorted.insertionSort_eq_of_perm (orders_codeUnits id fun _ _ _ _ => id) h

/-! ## Canonical values -/

/-- A key that is an array index, which objects have before all other keys. -/
def arrayIndex? (key : String) : Option Nat :=
  key.toNat?.filter fun n => toString n = key ∧ n < 2 ^ 32 - 1

/-- The keys of an object in the order in which they are enumerated when they were put there in
this order: array indices by number, and then the others. -/
def enumerated (fields : Fields) : Fields :=
  (fields.filter fun field => (arrayIndex? field.1).isSome).insertionSort
    (fun a b => (arrayIndex? a.1).getD 0 ≤ (arrayIndex? b.1).getD 0) ++
  fields.filter fun field => (arrayIndex? field.1).isNone

/-- What is put into a new object in the order of the sorted keys.  A value that is put under
`__proto__` is no property. -/
def canonicalFields (fields : Fields) : Fields :=
  enumerated ((fields.insertionSort fun a b => codeUnits a.1 ≤ codeUnits b.1).filter
    (·.1 ≠ "__proto__"))

def canonicalize : Json → Json := Json.rearrange canonicalFields

/-- Fields of different keys are sorted alike in any order. -/
theorem canonicalFields_eq_of_perm {fields fields' : Fields} (hnodup : fields.keys.Nodup)
    (h : fields.Perm fields') : canonicalFields fields = canonicalFields fields' := by
  have horders := orders_codeUnits Prod.fst (List.inj_on_of_nodup_map hnodup)
  rw [canonicalFields, canonicalFields, Sorted.insertionSort_eq_of_perm horders h]

variable {numbers : Json.NumberText}

def stableStringify (numbers : Json.NumberText) (value : Json) : String :=
  String.ofList (Json.stringify numbers (canonicalize value))

/-- **The order of keys is not written.** -/
theorem stableStringify_eq_of_reordered {value value' : Json} (h : Json.Reordered value value') :
    stableStringify numbers value = stableStringify numbers value' := by
  have hcanonical : canonicalize value = canonicalize value' :=
    Json.rearrange_eq_of_reordered (fun _ _ => canonicalFields_eq_of_perm) h
  rw [stableStringify, stableStringify, hcanonical]

/-! ## Hashes -/

/-- `BigInt.asUintN(64, (hash ^ unit) * prime)` -/
def hashUnit (hash unit : Nat) : Nat := (hash ^^^ unit) * 0x100000001b3 % 2 ^ 64

/-- `hash.toString(16).padStart(16, '0')` -/
def hexText (hash : Nat) : List Char := (Nat.toDigits 16 hash).leftpad 16 '0'

def stableHash (input : String) : String :=
  "fnv1a64:" ++ String.ofList (hexText ((codeUnits input).foldl hashUnit 0xcbf29ce484222325))

example : stableHash "" = "fnv1a64:cbf29ce484222325" := by decide +kernel

example : stableHash "a" = "fnv1a64:af63dc4c8601ec8c" := by decide +kernel

/-! ## Policies -/

def P2pPolicyConcurrency.json (concurrency : P2pPolicyConcurrency) : Json :=
  .object [("maxAdvancedRuns", .number concurrency.maxAdvancedRuns),
    ("maxScripts", .number concurrency.maxScripts)]

/-- A policy without its hash. -/
def P2pStaticPolicy.json (policy : P2pStaticPolicy) : Json :=
  .object [("policyVersion", .number 1), ("maxNodes", .number policy.maxNodes),
    ("maxEdges", .number policy.maxEdges), ("maxLoopBudget", .number policy.maxLoopBudget),
    ("allowedExecutables", .array (policy.allowedExecutables.map .string)),
    ("allowInterpreterScripts", .bool policy.allowInterpreterScripts),
    ("allowOpenSpecArtifacts", .bool policy.allowOpenSpecArtifacts),
    ("allowImplementationPermission", .bool policy.allowImplementationPermission),
    ("maxPromptAppendBytes", .number policy.maxPromptAppendBytes),
    ("concurrency", policy.concurrency.json)]

def canonicalizeP2pStaticPolicy (policy : P2pStaticPolicy) : P2pStaticPolicy :=
  { policy with allowedExecutables := jsSort policy.allowedExecutables }

def hashP2pStaticPolicy (numbers : Json.NumberText) (policy : P2pStaticPolicy) : String :=
  stableHash (stableStringify numbers (canonicalizeP2pStaticPolicy policy).json)

/-- **The order of a policy's executables is not hashed.** -/
theorem hashP2pStaticPolicy_eq_of_perm {policy : P2pStaticPolicy} {executables : List String}
    (h : policy.allowedExecutables.Perm executables) :
    hashP2pStaticPolicy numbers { policy with allowedExecutables := executables } =
      hashP2pStaticPolicy numbers policy := by
  simp only [hashP2pStaticPolicy, canonicalizeP2pStaticPolicy, jsSort_eq_of_perm h]

end Imcodes.Workflow
