import Imcodes.Collections.JsonReading
import Imcodes.Workflow.Canonical

/-!
# What a canonical text says

The canonical text of a value says everything of the value but the order of keys, so what is
hashed is never the same for values that differ otherwise.

* `canonicalFields_perm` — every field is in the canonical object.
* `reordered_canonicalize` — a value differs from its canonical form in the order of keys only.
* `stableStringify_eq_iff` — **a complete invariant**: two values have one canonical text exactly
  when they are the same but for the order of keys.
* `policyText_eq_iff` — two policies have one canonical text exactly when they are the same but
  for the order of the executables.
-/

namespace Imcodes.Workflow

/-! ## Canonical objects -/

/-- The keys of an object that was parsed and has no key that is lost. -/
def PlainKeys (keys : List String) : Prop := keys.Nodup ∧ "__proto__" ∉ keys

theorem enumerated_perm (fields : Fields) : fields.Perm (enumerated fields) := by
  have hsplit : fields.Perm (fields.filter (fun field => (arrayIndex? field.1).isSome) ++
      fields.filter fun field => !(arrayIndex? field.1).isSome) :=
    (List.filter_append_perm _ _).symm
  simp only [Option.not_isSome] at hsplit
  exact hsplit.trans ((List.perm_insertionSort _ _).symm.append_right _)

/-- **Every field is in the canonical object.** -/
theorem canonicalFields_perm {fields : Fields} (h : PlainKeys fields.keys) :
    fields.Perm (canonicalFields fields) := by
  have hkept : (fields.insertionSort fun a b => codeUnits a.1 ≤ codeUnits b.1).filter
      (·.1 ≠ "__proto__") = fields.insertionSort fun a b => codeUnits a.1 ≤ codeUnits b.1 := by
    rw [List.filter_eq_self]
    intro field hmem
    have hne : field.1 ≠ "__proto__" := by
      intro heq
      exact h.2 (heq ▸ List.mem_map_of_mem ((List.mem_insertionSort _).1 hmem))
    simpa using hne
  rw [canonicalFields, hkept]
  exact (List.perm_insertionSort _ _).symm.trans (enumerated_perm _)

/-- A canonical object has no field of its own. -/
theorem mem_of_mem_canonicalFields {fields : Fields} {field : String × Json}
    (h : field ∈ canonicalFields fields) : field ∈ fields := by
  have hmem := (enumerated_perm _).mem_iff.2 h
  exact (List.mem_insertionSort _).1 (List.mem_filter.1 hmem).1

/-! ## Canonical values -/

/-- Every object in the value has plain keys. -/
def PlainValue (value : Json) : Prop :=
  value.Throughout (Json.FieldsSatisfy fun fields => PlainKeys fields.keys)

/-- **A value differs from its canonical form in the order of keys only.** -/
theorem reordered_canonicalize {value : Json} (h : PlainValue value) :
    Json.Reordered value (canonicalize value) :=
  Json.reordered_rearrange (fun _ h => h.1) (fun _ => canonicalFields_perm) h

theorem throughout_canonicalize {S : Set ℚ} {value : Json}
    (h : value.Throughout (Json.NumberIn S)) : (canonicalize value).Throughout (Json.NumberIn S) :=
  h.rearrange (fun _ => trivial) (fun _ => trivial) fun _ _ => mem_of_mem_canonicalFields

/-- Values of one canonical text have one canonical form. -/
theorem canonicalize_eq_of_stableStringify {numbers : Json.NumberText} {S : Set ℚ}
    (hnumbers : numbers.Exact S) {value value' : Json} (hin : value.Throughout (Json.NumberIn S))
    (hin' : value'.Throughout (Json.NumberIn S))
    (h : stableStringify numbers value = stableStringify numbers value') :
    canonicalize value = canonicalize value' :=
  Json.stringify_injOn hnumbers (throughout_canonicalize hin) (throughout_canonicalize hin')
    (String.ofList_injective h)

/-- **A complete invariant**: the canonical text says everything but the order of keys. -/
theorem stableStringify_eq_iff (numbers : Json.NumberText) (S : Set ℚ)
    (hnumbers : numbers.Exact S) (value value' : Json)
    (hplain : PlainValue value) (hplain' : PlainValue value')
    (hin : value.Throughout (Json.NumberIn S)) (hin' : value'.Throughout (Json.NumberIn S)) :
    stableStringify numbers value = stableStringify numbers value' ↔
      Json.Reordered value value' := by
  refine ⟨fun h => ?_, stableStringify_eq_of_reordered⟩
  have hback := (reordered_canonicalize hplain').symm
  rw [← canonicalize_eq_of_stableStringify hnumbers hin hin' h] at hback
  exact (reordered_canonicalize hplain).trans hback

/-! ## Policies -/

/-- The same fields with the keys in the same order are in the same order. -/
theorem eq_of_perm_of_keys {fields fields' : Fields} (hnodup : fields.keys.Nodup)
    (hkeys : fields.keys = fields'.keys) (h : fields.Perm fields') : fields = fields' := by
  refine List.ext_getElem h.length_eq fun i hi hi' => ?_
  have hkey : fields[i].1 = fields'[i].1 := by
    have hget := List.getElem_of_eq hkeys (i := i) (by simpa [Fields.keys] using hi)
    simpa [Fields.keys] using hget
  exact List.inj_on_of_nodup_map hnodup (List.getElem_mem hi)
    (h.mem_iff.2 (List.getElem_mem hi')) hkey

/-- Objects of one canonical form with their keys in one order have the same fields. -/
theorem rearrangeFields_eq_of_canonicalize {fields fields' : Fields} (h : PlainKeys fields.keys)
    (hkeys : fields.keys = fields'.keys)
    (heq : canonicalize (.object fields) = canonicalize (.object fields')) :
    Json.rearrangeFields canonicalFields fields = Json.rearrangeFields canonicalFields fields' := by
  have hplain : PlainKeys (Fields.keys (Json.rearrangeFields canonicalFields fields)) := by
    rw [Json.keys_rearrangeFields]
    exact h
  have hplain' : PlainKeys (Fields.keys (Json.rearrangeFields canonicalFields fields')) := by
    rw [Json.keys_rearrangeFields, ← hkeys]
    exact h
  refine eq_of_perm_of_keys hplain.1 ?_ ?_
  · rw [Json.keys_rearrangeFields, Json.keys_rearrangeFields, hkeys]
  · have hperm := canonicalFields_perm hplain
    rw [Json.object.inj heq] at hperm
    exact hperm.trans (canonicalFields_perm hplain').symm

/-- What of a policy is hashed. -/
def policyText (numbers : Json.NumberText) (policy : P2pStaticPolicy) : String :=
  stableStringify numbers (canonicalizeP2pStaticPolicy policy).json

theorem hashP2pStaticPolicy_eq (numbers : Json.NumberText) (policy : P2pStaticPolicy) :
    hashP2pStaticPolicy numbers policy = stableHash (policyText numbers policy) := rfl

/-- The numbers of the policy are in the set. -/
structure P2pStaticPolicy.NumbersIn (S : Set ℚ) (policy : P2pStaticPolicy) : Prop where
  policyVersion : 1 ∈ S
  maxNodes : policy.maxNodes ∈ S
  maxEdges : policy.maxEdges ∈ S
  maxLoopBudget : policy.maxLoopBudget ∈ S
  maxPromptAppendBytes : policy.maxPromptAppendBytes ∈ S
  maxAdvancedRuns : policy.concurrency.maxAdvancedRuns ∈ S
  maxScripts : policy.concurrency.maxScripts ∈ S

theorem P2pStaticPolicy.NumbersIn.json {S : Set ℚ} {policy : P2pStaticPolicy}
    (h : policy.NumbersIn S) : policy.json.Throughout (Json.NumberIn S) := by
  refine .object trivial ?_
  simp only [List.forall_mem_cons, List.not_mem_nil, false_imp_iff, implies_true, and_true]
  refine ⟨.number h.policyVersion, .number h.maxNodes, .number h.maxEdges,
    .number h.maxLoopBudget, ?_, .bool trivial, .bool trivial, .bool trivial,
    .number h.maxPromptAppendBytes, ?_⟩
  · refine .array trivial fun item hmem => ?_
    obtain ⟨executable, -, rfl⟩ := List.mem_map.1 hmem
    exact .string trivial
  · refine .object trivial ?_
    simp only [List.forall_mem_cons, List.not_mem_nil, false_imp_iff, implies_true, and_true]
    exact ⟨.number h.maxAdvancedRuns, .number h.maxScripts⟩

theorem eq_of_canonicalize_concurrency {concurrency concurrency' : P2pPolicyConcurrency}
    (h : canonicalize concurrency.json = canonicalize concurrency'.json) :
    concurrency = concurrency' := by
  have hfields := rearrangeFields_eq_of_canonicalize (by simp [PlainKeys, Fields.keys])
    (by simp [Fields.keys]) h
  simp only [Json.rearrangeFields, Json.rearrange, List.cons.injEq, Prod.mk.injEq,
    Json.number.injEq, true_and, and_true] at hfields
  cases concurrency
  cases concurrency'
  rw [P2pPolicyConcurrency.mk.injEq]
  exact hfields

/-- Policies of one canonical form are one policy. -/
theorem eq_of_canonicalize_json {policy policy' : P2pStaticPolicy}
    (h : canonicalize policy.json = canonicalize policy'.json) : policy = policy' := by
  have hfields := rearrangeFields_eq_of_canonicalize (by simp [PlainKeys, Fields.keys])
    (by simp [Fields.keys]) h
  have hstrings (texts : List String) :
      Json.rearrangeItems canonicalFields (texts.map .string) = texts.map .string := by
    rw [Json.rearrangeItems_eq_map, List.map_map]
    rfl
  simp only [Json.rearrangeFields, Json.rearrange, hstrings, List.cons.injEq, Prod.mk.injEq,
    Json.number.injEq, Json.bool.injEq, Json.array.injEq, true_and, and_true] at hfields
  obtain ⟨hnodes, hedges, hbudget, hexecutables, hinterpreter, hopenSpec, himplementation, hprompt,
    hconcurrency⟩ := hfields
  have hexecutables : policy.allowedExecutables = policy'.allowedExecutables :=
    List.map_injective_iff.2 (fun _ _ => Json.string.inj) hexecutables
  have hconcurrency := eq_of_canonicalize_concurrency hconcurrency
  cases policy
  cases policy'
  simp only [P2pStaticPolicy.mk.injEq]
  exact ⟨hnodes, hedges, hbudget, hexecutables, hinterpreter, hopenSpec, himplementation, hprompt,
    hconcurrency⟩

/-- **A policy's text says everything** but the order of the executables. -/
theorem policyText_eq_iff (numbers : Json.NumberText) (S : Set ℚ) (hnumbers : numbers.Exact S)
    (policy policy' : P2pStaticPolicy) (hin : policy.NumbersIn S) (hin' : policy'.NumbersIn S) :
    policyText numbers policy = policyText numbers policy' ↔
      policy.allowedExecutables.Perm policy'.allowedExecutables ∧
        { policy with allowedExecutables := policy'.allowedExecutables } = policy' := by
  have hcanonicalIn {policy : P2pStaticPolicy} (hin : policy.NumbersIn S) :
      (canonicalizeP2pStaticPolicy policy).NumbersIn S := { hin with }
  constructor
  · intro h
    have hjson := eq_of_canonicalize_json (canonicalize_eq_of_stableStringify hnumbers
      (hcanonicalIn hin).json (hcanonicalIn hin').json h)
    simp only [canonicalizeP2pStaticPolicy, P2pStaticPolicy.mk.injEq] at hjson
    obtain ⟨hnodes, hedges, hbudget, hexecutables, hrest⟩ := hjson
    refine ⟨?_, ?_⟩
    · have hperm := (List.perm_insertionSort (fun a b => codeUnits a ≤ codeUnits b)
        policy.allowedExecutables).symm
      exact hperm.trans ((List.Perm.of_eq hexecutables).trans (List.perm_insertionSort _ _))
    · cases policy'
      simp only [P2pStaticPolicy.mk.injEq]
      exact ⟨hnodes, hedges, hbudget, trivial, hrest⟩
  · rintro ⟨hperm, hrest⟩
    rw [← hrest]
    simp only [policyText, canonicalizeP2pStaticPolicy, jsSort_eq_of_perm hperm]

/-! ## Whole numbers -/

/-- The numbers that are written in digits only. -/
def wholeSet : Set ℚ := Set.range ((↑) : ℕ → ℚ)

theorem isNumberChar_of_isDigit {c : Char} (h : c.isDigit = true) : Json.isNumberChar c = true := by
  simp only [Char.isDigit, Bool.and_eq_true, decide_eq_true_eq] at h
  have hlow : 48 ≤ c.toNat := UInt32.le_iff_toNat_le.1 h.1
  have hhigh : c.toNat ≤ 57 := UInt32.le_iff_toNat_le.1 h.2
  have hdigits : ∀ n ≤ 57, 48 ≤ n → Json.isNumberChar (Char.ofNat n) = true := by decide
  have hc := hdigits c.toNat hhigh hlow
  rwa [Char.ofNat_toNat] at hc

theorem exact_wholeNumbers : Json.wholeNumbers.Exact wholeSet where
  ne_nil value _ := Nat.toDigits_ne_nil
  chars value _ c hmem :=
    isNumberChar_of_isDigit (Nat.isDigit_of_mem_toDigits (b := 10) (by decide) (by decide) hmem)
  injOn := by
    rintro _ ⟨n, rfl⟩ _ ⟨m, rfl⟩ htext
    simp only [Json.wholeNumbers, Rat.num_natCast, Int.toNat_natCast] at htext
    have hread := congrArg (fun digits => Nat.ofDigitChars 10 digits 0) htext
    simp only [Nat.ofDigitChars_toDigits (b := 10) (by decide) (by decide)] at hread
    rw [hread]

/-- The fields of an example, from the first to the last and from the last to the first. -/
def exampleFields : Fields := [("rounds", .array [.number 3]), ("7", .null)]

theorem plainValue_exampleFields {fields : Fields} (h : fields.Perm exampleFields) :
    PlainValue (.object fields) := by
  have hkeys : fields.keys.Perm exampleFields.keys := h.map Prod.fst
  refine .object ⟨hkeys.nodup_iff.2 (by decide), fun hmem => ?_⟩ fun field hmem => ?_
  · exact absurd (hkeys.mem_iff.1 hmem) (by decide)
  · obtain rfl | rfl : field = ("rounds", .array [.number 3]) ∨ field = ("7", .null) := by
      simpa [exampleFields] using h.mem_iff.1 hmem
    · refine .array trivial fun item hitem => ?_
      rw [List.mem_singleton.1 hitem]
      exact .number trivial
    · exact .null trivial

theorem numbersIn_exampleFields {fields : Fields} (h : fields.Perm exampleFields) :
    (Json.object fields).Throughout (Json.NumberIn wholeSet) := by
  refine .object trivial fun field hmem => ?_
  obtain rfl | rfl : field = ("rounds", .array [.number 3]) ∨ field = ("7", .null) := by
    simpa [exampleFields] using h.mem_iff.1 hmem
  · refine .array trivial fun item hitem => ?_
    rw [List.mem_singleton.1 hitem]
    exact .number ⟨3, rfl⟩
  · exact .null trivial

theorem stableStringify_exampleFields :
    stableStringify Json.wholeNumbers (.object exampleFields) =
        stableStringify Json.wholeNumbers (.object exampleFields.reverse) ↔
      Json.Reordered (.object exampleFields) (.object exampleFields.reverse) :=
  stableStringify_eq_iff Json.wholeNumbers wholeSet exact_wholeNumbers _ _
    (plainValue_exampleFields (.refl _)) (plainValue_exampleFields (List.reverse_perm _))
    (numbersIn_exampleFields (.refl _)) (numbersIn_exampleFields (List.reverse_perm _))

theorem numbersIn_examplePolicy : examplePolicy.NumbersIn wholeSet where
  policyVersion := ⟨1, rfl⟩
  maxNodes := ⟨10, rfl⟩
  maxEdges := ⟨10, rfl⟩
  maxLoopBudget := ⟨10, rfl⟩
  maxPromptAppendBytes := ⟨100, rfl⟩
  maxAdvancedRuns := ⟨1, rfl⟩
  maxScripts := ⟨1, rfl⟩

/-- The policy with these executables. -/
def policyAllowing (executables : List String) : P2pStaticPolicy :=
  { examplePolicy with allowedExecutables := executables }

/-- Two orders of three executables make one text, and two of them another one. -/
theorem policyText_examplePolicy :
    policyText Json.wholeNumbers (policyAllowing ["node", "bash", "git"]) =
        policyText Json.wholeNumbers (policyAllowing ["git", "node", "bash"]) ∧
      policyText Json.wholeNumbers (policyAllowing ["node", "bash", "git"]) ≠
        policyText Json.wholeNumbers (policyAllowing ["node", "bash"]) := by
  have hiff (executables executables' : List String) :=
    policyText_eq_iff Json.wholeNumbers wholeSet exact_wholeNumbers (policyAllowing executables)
      (policyAllowing executables') { numbersIn_examplePolicy with }
      { numbersIn_examplePolicy with }
  refine ⟨(hiff _ _).2 ⟨by decide, rfl⟩, fun h => ?_⟩
  exact absurd ((hiff _ _).1 h).1 (by decide)

end Imcodes.Workflow
