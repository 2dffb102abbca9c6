import Imcodes.Workflow.Accepted
import Imcodes.Workflow.Chain
import Mathlib.Algebra.Order.BigOperators.Group.List
import Mathlib.Algebra.Order.Floor.Ring
import Mathlib.Data.Rat.Cast.Order
import Mathlib.Data.Rat.Floor

/-!
# Runs of an old configuration

A run without a compiled workflow goes through its rounds in their order.  Only the rule of a
round leads back, to an earlier round, and each time it does is counted.

* `Plannable.of_resolve` — what a configuration that is accepted has satisfied.
* `Passed.step` — a turn keeps the account of the jumps, and what has been passed.
* `legacy_run` — **a run ends** within as many rounds as the rules give room for, and when it is
  completed every forced rework has taken place.
-/

namespace Imcodes.Workflow

open Imcodes.Queue (jsTrim)
open Machine PlainObject

/-! ## Accepted configurations -/

/-- How often a round can jump. -/
def P2pAdvancedRound.triggers (round : P2pAdvancedRound) : ℕ :=
  ((round.jumpRule.bind (·.maxTriggers)).map fun maxTriggers => ⌈maxTriggers⌉₊).getD 0

/-- How many rounds a run can begin. -/
def legacyBound (rounds : List P2pAdvancedRound) : ℕ :=
  ((rounds.map (·.triggers)).sum + 1) * rounds.length

section Plans

variable {rounds : List P2pAdvancedRound} {resolved : List P2pResolvedRound} {plan : Plan}
  {round : P2pAdvancedRound} {rule : P2pAdvancedJumpRule} {i : ℕ}

theorem orElse_eq_none {α : Type} {a b : Option α} : (a <|> b) = none ↔ a = none ∧ b = none := by
  cases a <;> simp

theorem validateAdvancedRoundIds_eq_none (h : validateAdvancedRoundIds rounds = none) :
    (∀ round ∈ rounds, jsTrim round.id ≠ "") ∧ (rounds.map (·.id)).Nodup := by
  rw [validateAdvancedRoundIds, List.findSome?_eq_none_iff] at h
  have hpair (p : P2pAdvancedRound × ℕ) (hp : p ∈ rounds.zipIdx) :
      jsTrim p.1.id ≠ "" ∧ p.1.id ∉ (rounds.take p.2).map (·.id) := by
    have hnone := h p hp
    dsimp only at hnone
    by_cases hblank : jsTrim p.1.id = ""
    · rw [if_pos hblank] at hnone
      cases hnone
    · rw [if_neg hblank] at hnone
      by_cases htwice : p.1.id ∈ (rounds.take p.2).map (·.id)
      · rw [if_pos htwice] at hnone
        cases hnone
      · exact ⟨hblank, htwice⟩
  constructor
  · intro round hround
    obtain ⟨i, hi⟩ := List.mem_iff_getElem?.1 hround
    exact (hpair (round, i) (List.mem_zipIdx_iff_getElem?.2 hi)).1
  · rw [nodup_iff_not_mem_take, List.zipIdx_map]
    intro p hp
    obtain ⟨q, hq, rfl⟩ := List.mem_map.1 hp
    rw [← List.map_take]
    exact (hpair q hq).2

theorem Plannable.of_resolve (h : resolveP2pRoundPlan rounds = .ok resolved) :
    Plannable rounds ∧ resolved = rounds.map normalizeAdvancedRound := by
  rw [resolveP2pRoundPlan] at h
  by_cases hnil : rounds = []
  · rw [if_pos hnil] at h
    cases h
  · rw [if_neg hnil] at h
    cases herror : validateAdvancedRounds rounds with
    | some error =>
      rw [herror] at h
      cases h
    | none =>
      rw [herror] at h
      rw [validateAdvancedRounds, orElse_eq_none, List.findSome?_eq_none_iff] at herror
      obtain ⟨hnonblank, hnodup⟩ := validateAdvancedRoundIds_eq_none herror.1
      exact ⟨⟨hnil, hnonblank, hnodup, herror.2⟩, (Except.ok.inj h).symm⟩

theorem plannable_of_legacyPlan (h : legacyPlan rounds = .ok plan) :
    Plannable rounds ∧ plan = ⟨rounds.map normalizeAdvancedRound, none⟩ := by
  rw [legacyPlan] at h
  cases hresolve : resolveP2pRoundPlan rounds with
  | error message =>
    rw [hresolve] at h
    cases h
  | ok resolved =>
    rw [hresolve] at h
    obtain ⟨hrounds, rfl⟩ := Plannable.of_resolve hresolve
    exact ⟨hrounds, (Except.ok.inj h).symm⟩

/-- The place of a round that is found by its id. -/
theorem Plannable.findIdx_id (h : Plannable rounds) (hi : rounds[i]? = some round) :
    rounds.findIdx (·.id = round.id) = i := by
  have hlt : rounds.findIdx (·.id = round.id) < rounds.length :=
    List.findIdx_lt_length_of_exists ⟨round, List.mem_of_getElem? hi, decide_eq_true rfl⟩
  have hfound := of_decide_eq_true (List.findIdx_getElem (w := hlt))
  have hget : (rounds.map (·.id))[rounds.findIdx (·.id = round.id)]? = (rounds.map (·.id))[i]? := by
    rw [List.getElem?_map, List.getElem?_map, hi, List.getElem?_eq_getElem hlt, Option.map_some,
      Option.map_some, hfound]
  exact (List.getElem?_inj (by rwa [List.length_map]) h.nodup).1 hget

/-- A rule leads to an earlier round. -/
theorem Plannable.target_lt (h : Plannable rounds) (hi : rounds[i]? = some round)
    (hrule : round.jumpRule = some rule) :
    ∃ t < i, ∃ target, rounds[t]? = some target ∧ target.id = rule.targetRoundId ∧
      rounds.findIdx? (·.id = rule.targetRoundId) = some t := by
  have herror := h.error round (List.mem_of_getElem? hi)
  rw [advancedRoundError] at herror
  split at herror
  · cases herror
  · have hjump := (orElse_eq_none.1 herror).2
    rw [jumpRuleError, hrule] at hjump
    dsimp only at hjump
    split_ifs at hjump with hmem hlater
    obtain ⟨target, htarget, hid⟩ := List.mem_map.1 hmem
    obtain ⟨t, ht⟩ := List.mem_iff_getElem?.1 htarget
    have hindex := h.findIdx_id ht
    rw [hid] at hindex
    refine ⟨t, ?_, target, ht, hid, ?_⟩
    · rw [ge_iff_le, Nat.not_le, roundIndexOf, roundIndexOf, hindex, h.findIdx_id hi] at hlater
      exact hlater
    · rw [List.findIdx?_eq_some_iff_findIdx_eq]
      exact ⟨(List.getElem?_eq_some_iff.1 ht).1, hindex⟩

/-- A forced rework has a rule that can do it. -/
theorem Plannable.forced (h : Plannable rounds) (hround : round ∈ rounds)
    (hpolicy : round.policy = .forcedRework) :
    ∃ rule, round.jumpRule = some rule ∧ (normalizeAdvancedRound round).allowRouting = true ∧
      ∀ maxTriggers, rule.maxTriggers = some maxTriggers → rule.minTriggers ≤ maxTriggers := by
  have herror := h.error round hround
  rw [advancedRoundError] at herror
  split at herror
  · cases herror
  · obtain ⟨hforced, hjump⟩ := orElse_eq_none.1 herror
    rw [forcedReworkError, if_pos hpolicy] at hforced
    cases hrule : round.jumpRule with
    | none =>
      rw [hrule] at hforced
      cases hforced
    | some rule =>
      rw [hrule] at hforced
      rw [jumpRuleError, hrule] at hjump
      dsimp only at hforced hjump
      split_ifs at hforced hjump with hmin hbelow hmem hlater hpreset
      refine ⟨rule, rfl, ?_, fun maxTriggers hmax => ?_⟩
      · rw [normalizeAdvancedRound]
        simp [hpreset, hpolicy, hrule]
      · rw [hmax] at hbelow
        simpa [isBelow] using hbelow

end Plans

/-! ## Jumps -/

/-- How often a round has jumped. -/
def Chain.jumps (c : Chain) (id : String) : ℕ := (c.roundJumpCounts.count id).getD 0

/-- How often the rounds have jumped. -/
def Chain.allJumps (c : Chain) (rounds : List P2pAdvancedRound) : ℕ :=
  (rounds.map fun round => c.jumps round.id).sum

section Jumps

variable {rounds : List P2pAdvancedRound} {round : P2pAdvancedRound} {rule : P2pAdvancedJumpRule}
  {counts : Counters} {verdict : Option P2pVerdictMarker} {target id : String} {n : ℕ} {c c' : Chain}

@[simp] theorem normalizeAdvancedRound_id : (normalizeAdvancedRound round).id = round.id := rfl

@[simp] theorem normalizeAdvancedRound_jumpRule :
    (normalizeAdvancedRound round).jumpRule = round.jumpRule := rfl

@[simp] theorem normalizeAdvancedRound_verdictPolicy :
    (normalizeAdvancedRound round).verdictPolicy = round.policy := rfl

theorem legacyJump_eq_some (h : legacyJump counts (normalizeAdvancedRound round) verdict =
    some target) :
    ∃ rule n, round.jumpRule = some rule ∧ rule.targetRoundId = target ∧
      counts.count round.id = some n ∧ n < round.triggers := by
  rw [legacyJump, normalizeAdvancedRound_id, normalizeAdvancedRound_jumpRule,
    normalizeAdvancedRound_verdictPolicy] at h
  cases hrule : round.jumpRule with
  | none =>
    rw [hrule] at h
    cases h
  | some rule =>
    rw [hrule] at h
    dsimp only at h
    split_ifs at h with hallow
    cases hcount : counts.count round.id with
    | none =>
      rw [hcount] at h
      cases h
    | some n =>
      cases hmax : rule.maxTriggers with
      | none =>
        rw [hcount, hmax] at h
        cases h
      | some maxTriggers =>
        rw [hcount, hmax] at h
        dsimp only at h
        split_ifs at h with htrigger
        refine ⟨rule, n, rfl, Option.some.inj h, rfl, ?_⟩
        rw [P2pAdvancedRound.triggers, hrule, Option.bind_some, hmax, Option.map_some,
          Option.getD_some]
        exact Nat.lt_ceil.2 htrigger.1

/-- A forced rework does not let the run pass before it has taken place. -/
theorem le_of_legacyJump_eq_none (hplan : Plannable rounds) (hround : round ∈ rounds)
    (hpolicy : round.policy = .forcedRework) (hrule : round.jumpRule = some rule)
    (hmax : rule.maxTriggers.isSome) (hcount : counts.count round.id = some n)
    (h : legacyJump counts (normalizeAdvancedRound round) verdict = none) :
    rule.minTriggers ≤ n := by
  obtain ⟨rule', hrule', hallow, hle⟩ := hplan.forced hround hpolicy
  obtain rfl := Option.some.inj (hrule'.symm.trans hrule)
  obtain ⟨maxTriggers, hmax⟩ := Option.isSome_iff_exists.1 hmax
  by_contra hlt
  rw [not_le] at hlt
  have htriggers : (n : ℚ) < maxTriggers ∧
      (round.policy = .forcedRework ∧ (n : ℚ) < rule'.minTriggers ∨
        verdict = some (rule'.marker.getD .rework)) :=
    ⟨hlt.trans_le (hle maxTriggers hmax), Or.inl ⟨hpolicy, hlt⟩⟩
  have hsome : legacyJump counts (normalizeAdvancedRound round) verdict =
      some rule'.targetRoundId := by
    rw [legacyJump, normalizeAdvancedRound_id, normalizeAdvancedRound_jumpRule,
      normalizeAdvancedRound_verdictPolicy, hrule]
    dsimp only
    rw [if_pos hallow, hcount, hmax]
    exact if_pos htriggers
  rw [h] at hsome
  cases hsome

theorem jumps_countUp (hcount : c.roundJumpCounts.count id = some n)
    (hc' : c'.roundJumpCounts = c.roundJumpCounts.countUp id) (id' : String) :
    c'.jumps id' = if id' = id then c.jumps id + 1 else c.jumps id' := by
  rw [Chain.jumps, hc']
  split_ifs with heq
  · subst heq
    rw [count_countUp_of_eq_some hcount, Chain.jumps, hcount]
    rfl
  · rw [count_countUp_of_ne heq, Chain.jumps]

theorem allJumps_countUp (hround : round ∈ rounds)
    (hcount : c.roundJumpCounts.count round.id = some n)
    (hc' : c'.roundJumpCounts = c.roundJumpCounts.countUp round.id) :
    c.allJumps rounds < c'.allJumps rounds := by
  refine List.sum_lt_sum _ _ (fun r _ => ?_) ⟨round, hround, ?_⟩
  · rw [jumps_countUp hcount hc']
    split_ifs with heq
    · rw [heq]
      exact Nat.le_succ _
    · exact le_rfl
  · rw [jumps_countUp hcount hc', if_pos rfl]
    exact Nat.lt_succ_self _

end Jumps

/-! ## Turns -/

/-- The account of a run that is at some round: how many rounds it has begun, which jumps there
were, and that what lies behind it was passed. -/
structure Passed (rounds : List P2pAdvancedRound) (c : Chain) : Prop where
  index : c.roundIndex ≤ rounds.length
  visits : c.visited.length ≤ c.allJumps rounds * rounds.length + c.roundIndex
  within : ∀ round ∈ rounds, c.jumps round.id ≤ round.triggers
  numbers : ∀ id ∉ objectPrototypeKeys, (c.roundJumpCounts.count id).isSome
  /-- A target is begun before its round, and again for each jump. -/
  targets : ∀ (i t : ℕ) round rule target, rounds[i]? = some round →
    round.jumpRule = some rule → rounds[t]? = some target → target.id = rule.targetRoundId →
      c.jumps round.id + (if t < c.roundIndex then 1 else 0) ≤ c.visited.count target.id
  forced : ∀ (i : ℕ) round rule, i < c.roundIndex → rounds[i]? = some round →
    round.policy = .forcedRework → round.jumpRule = some rule → rule.maxTriggers.isSome →
      round.id ∉ objectPrototypeKeys → rule.minTriggers ≤ c.jumps round.id

section Turns

variable {rounds : List P2pAdvancedRound} {round : P2pAdvancedRound} {c c' : Chain}

theorem Passed.visited_lt (h : Passed rounds c) (hround : rounds[c.roundIndex]? = some round) :
    c.visited.length < legacyBound rounds := by
  have hlt : c.roundIndex < rounds.length := (List.getElem?_eq_some_iff.1 hround).1
  have hjumps : c.allJumps rounds ≤ (rounds.map (·.triggers)).sum :=
    List.sum_le_sum h.within
  calc c.visited.length ≤ c.allJumps rounds * rounds.length + c.roundIndex := h.visits
    _ < c.allJumps rounds * rounds.length + rounds.length := Nat.add_lt_add_left hlt _
    _ = (c.allJumps rounds + 1) * rounds.length := (Nat.succ_mul _ _).symm
    _ ≤ legacyBound rounds := Nat.mul_le_mul_right _ (Nat.succ_le_succ hjumps)

theorem Passed.visited_le (h : Passed rounds c) : c.visited.length ≤ legacyBound rounds := by
  have hjumps : c.allJumps rounds ≤ (rounds.map (·.triggers)).sum :=
    List.sum_le_sum h.within
  calc c.visited.length ≤ c.allJumps rounds * rounds.length + c.roundIndex := h.visits
    _ ≤ c.allJumps rounds * rounds.length + rounds.length := Nat.add_le_add_left h.index _
    _ = (c.allJumps rounds + 1) * rounds.length := (Nat.succ_mul _ _).symm
    _ ≤ legacyBound rounds := Nat.mul_le_mul_right _ (Nat.succ_le_succ hjumps)

/-- A round is passed. -/
theorem Passed.pass (h : Passed rounds c) (hplan : Plannable rounds)
    (hround : rounds[c.roundIndex]? = some round) {verdict : Option P2pVerdictMarker}
    (hjump : legacyJump c.roundJumpCounts (normalizeAdvancedRound round) verdict = none)
    (hindex : c'.roundIndex = c.roundIndex + 1) (hvisited : c'.visited = c.visited ++ [round.id])
    (hcounts : c'.roundJumpCounts = c.roundJumpCounts) : Passed rounds c' := by
  have hjumps (id : String) : c'.jumps id = c.jumps id := by rw [Chain.jumps, hcounts, Chain.jumps]
  have hall : c'.allJumps rounds = c.allJumps rounds := by simp only [Chain.allJumps, hjumps]
  constructor
  · rw [hindex]
    exact (List.getElem?_eq_some_iff.1 hround).1
  · rw [hvisited, hall, hindex, List.length_append, List.length_singleton]
    exact Nat.succ_le_succ h.visits
  · intro r hr
    rw [hjumps]
    exact h.within r hr
  · rw [hcounts]
    exact h.numbers
  · intro i t r rule target hr hrule htarget hid
    rw [hjumps, hindex, hvisited, List.count_append]
    have hold := h.targets i t r rule target hr hrule htarget hid
    rcases Nat.lt_trichotomy t c.roundIndex with hlt | rfl | hgt
    · rw [if_pos hlt] at hold
      rw [if_pos (hlt.trans (Nat.lt_succ_self _))]
      exact hold.trans (Nat.le_add_right _ _)
    · -- the target is what is begun now
      obtain rfl := Option.some.inj (htarget.symm.trans hround)
      rw [if_neg (Nat.lt_irrefl _)] at hold
      rw [if_pos (Nat.lt_succ_self _), List.count_singleton_self]
      exact Nat.succ_le_succ hold
    · rw [if_neg (by omega)] at hold ⊢
      exact hold.trans (Nat.le_add_right _ _)
  · intro i r rule hi hr hpolicy hrule hmax hid
    rw [hjumps]
    rw [hindex] at hi
    rcases Nat.lt_succ_iff_lt_or_eq.1 hi with hlt | rfl
    · exact h.forced i r rule hlt hr hpolicy hrule hmax hid
    · obtain rfl := Option.some.inj (hr.symm.trans hround)
      obtain ⟨n, hn⟩ := Option.isSome_iff_exists.1 (h.numbers r.id hid)
      rw [Chain.jumps, hn, Option.getD_some]
      exact le_of_legacyJump_eq_none hplan (List.mem_of_getElem? hround) hpolicy hrule hmax hn hjump

/-- A round jumps back. -/
theorem Passed.jump (h : Passed rounds c) (hplan : Plannable rounds)
    (hround : rounds[c.roundIndex]? = some round) {n : ℕ}
    (hcount : c.roundJumpCounts.count round.id = some n) (hlt : n < round.triggers)
    (hindex : c'.roundIndex < c.roundIndex) (hvisited : c'.visited = c.visited ++ [round.id])
    (hcounts : c'.roundJumpCounts = c.roundJumpCounts.countUp round.id)
    (hback : ∀ rule, round.jumpRule = some rule →
      rounds.findIdx? (·.id = rule.targetRoundId) = some c'.roundIndex) : Passed rounds c' := by
  have hjumps := jumps_countUp hcount hcounts
  have hmem := List.mem_of_getElem? hround
  have hi : c.roundIndex < rounds.length := (List.getElem?_eq_some_iff.1 hround).1
  constructor
  · exact (hindex.trans hi).le
  · have hless := allJumps_countUp hmem hcount hcounts
    calc c'.visited.length = c.visited.length + 1 := by
          rw [hvisited, List.length_append, List.length_singleton]
      _ ≤ c.allJumps rounds * rounds.length + rounds.length := by
          have hvisits := h.visits
          omega
      _ = (c.allJumps rounds + 1) * rounds.length := (Nat.succ_mul _ _).symm
      _ ≤ c'.allJumps rounds * rounds.length := Nat.mul_le_mul_right _ hless
      _ ≤ c'.allJumps rounds * rounds.length + c'.roundIndex := Nat.le_add_right _ _
  · intro r hr
    rw [hjumps]
    split_ifs with heq
    · -- an id names one round
      obtain ⟨j, hj⟩ := List.mem_iff_getElem?.1 hr
      have hij : c.roundIndex = j := by
        rw [← hplan.findIdx_id hround, ← heq, hplan.findIdx_id hj]
      subst hij
      obtain rfl := Option.some.inj (hj.symm.trans hround)
      rw [Chain.jumps, hcount]
      exact hlt
    · exact h.within r hr
  · intro id hid
    rw [hcounts]
    by_cases heq : id = round.id
    · rw [heq, count_countUp_of_eq_some hcount]
      rfl
    · rw [count_countUp_of_ne heq]
      exact h.numbers id hid
  · intro i t r rule target hr hrule htarget hid
    rw [hjumps, hvisited, List.count_append]
    have hold := h.targets i t r rule target hr hrule htarget hid
    split_ifs with heq hless hless
    · -- the rule is the one of the round that jumps
      have hij : i = c.roundIndex := by
        rw [← hplan.findIdx_id hr, heq, hplan.findIdx_id hround]
      subst hij
      obtain rfl := Option.some.inj (hr.symm.trans hround)
      have ht := hplan.findIdx_id htarget
      rw [hid, (List.findIdx?_eq_some_iff_findIdx_eq.1 (hback rule hrule)).2] at ht
      exact absurd hless (by omega)
    · have hij : i = c.roundIndex := by
        rw [← hplan.findIdx_id hr, heq, hplan.findIdx_id hround]
      subst hij
      obtain rfl := Option.some.inj (hr.symm.trans hround)
      have ht := hplan.findIdx_id htarget
      rw [hid, (List.findIdx?_eq_some_iff_findIdx_eq.1 (hback rule hrule)).2] at ht
      rw [if_pos (by omega)] at hold
      omega
    · rw [if_pos (by omega)] at hold
      omega
    · split_ifs at hold <;> omega
  · intro i r rule hi hr hpolicy hrule hmax hid
    refine (h.forced i r rule (hi.trans hindex) hr hpolicy hrule hmax hid).trans ?_
    rw [hjumps]
    split_ifs with heq
    · rw [heq]
      exact_mod_cast Nat.le_succ _
    · exact le_rfl

/-- What holds of a run, also when it has ended. -/
structure LegacyBounded (rounds : List P2pAdvancedRound) (c : Chain) : Prop where
  visits : c.visited.length ≤ legacyBound rounds
  going : c.ended = none → Passed rounds c
  completed : c.ended = some .completed → Passed rounds c ∧ c.roundIndex = rounds.length
  found : c.ended ≠ some .threw

theorem LegacyBounded.of_passed (h : Passed rounds c) (hended : c.ended = none) :
    LegacyBounded rounds c := by
  refine ⟨h.visited_le, fun _ => h, fun hcompleted => ?_, fun hthrew => ?_⟩
  · rw [hended] at hcompleted
    cases hcompleted
  · rw [hended] at hthrew
    cases hthrew

/-- A run ends before its rounds are through. -/
theorem LegacyBounded.of_ended {ending : Ending} (hvisits : c.visited.length ≤ legacyBound rounds)
    (hended : c.ended = some ending) (hcompleted : ending ≠ .completed) (hthrew : ending ≠ .threw) :
    LegacyBounded rounds c := by
  refine ⟨hvisits, fun hnone => ?_, fun hsome => ?_, fun hsome => ?_⟩
  · rw [hended] at hnone
    cases hnone
  · exact absurd (Option.some.inj (hended.symm.trans hsome)) hcompleted
  · exact absurd (Option.some.inj (hended.symm.trans hsome)) hthrew

/-- **After a round**, the run goes on with the next one or with the target of the rule. -/
theorem Passed.advanceLegacy (h : Passed rounds c) (hplan : Plannable rounds)
    (hround : rounds[c.roundIndex]? = some round) (hended : c.ended = none) (signals : Signals) :
    LegacyBounded rounds
      (Plan.advanceLegacy ⟨rounds.map normalizeAdvancedRound, none⟩
        { c with visited := c.visited ++ [round.id] } (normalizeAdvancedRound round) signals) := by
  rw [Plan.advanceLegacy]
  cases hjump : legacyJump c.roundJumpCounts (normalizeAdvancedRound round)
    signals.effectiveVerdict with
  | none => exact .of_passed (h.pass hplan hround hjump rfl rfl rfl) hended
  | some target =>
    obtain ⟨rule, n, hrule, rfl, hcount, hlt⟩ := legacyJump_eq_some hjump
    obtain ⟨t, ht, -, -, -, hfound⟩ := hplan.target_lt hround hrule
    have hfound' : (rounds.map normalizeAdvancedRound).findIdx? (·.id = rule.targetRoundId) =
        some t := by
      rw [List.findIdx?_map]
      exact hfound
    dsimp only
    rw [Plan.goTo, hfound']
    refine .of_passed (h.jump hplan hround hcount hlt ht rfl rfl fun rule' hrule' => ?_) hended
    obtain rfl := Option.some.inj (hrule'.symm.trans hrule)
    exact hfound

/-- **A turn** keeps the account. -/
theorem LegacyBounded.step (h : LegacyBounded rounds c) (hplan : Plannable rounds)
    (outcome : Outcome) :
    LegacyBounded rounds (Plan.step ⟨rounds.map normalizeAdvancedRound, none⟩ c outcome) := by
  rw [Plan.step]
  by_cases hended : c.ended = none
  case neg => rwa [if_pos (Option.isSome_iff_ne_none.2 hended)]
  case pos =>
    have hpassed := h.going hended
    rw [if_neg (by simp [hended])]
    dsimp only
    rw [List.getElem?_map]
    cases hround : rounds[c.roundIndex]? with
    | none =>
      have hindex : c.roundIndex = rounds.length :=
        le_antisymm hpassed.index (List.getElem?_eq_none_iff.1 hround)
      refine ⟨h.visits, fun hnone => ?_, fun _ => ⟨⟨hpassed.index, hpassed.visits, hpassed.within,
        hpassed.numbers, hpassed.targets, hpassed.forced⟩, hindex⟩, fun hthrew => ?_⟩
      · cases hnone
      · cases hthrew
    | some round =>
      have hvisits : (c.visited ++ [round.id]).length ≤ legacyBound rounds := by
        rw [List.length_append, List.length_singleton]
        exact hpassed.visited_lt hround
      cases outcome with
      | stops => exact .of_ended h.visits rfl (by decide) (by decide)
      | fails => exact .of_ended hvisits rfl (by decide) (by decide)
      | scriptFails retriable => exact .of_ended hvisits rfl (by decide) (by decide)
      | done verdict routingKey logicMarker =>
        exact hpassed.advanceLegacy hplan hround hended _

/-- As long as a run goes on, each turn begins a round. -/
theorem length_visited_step {plan : Plan} (hplan : plan.boundWorkflow = none) {outcome : Outcome}
    (h : (plan.step c outcome).ended = none) :
    c.ended = none ∧ (plan.step c outcome).visited.length = c.visited.length + 1 := by
  by_cases hended : c.ended = none
  case neg =>
    rw [Plan.step, if_pos (Option.isSome_iff_ne_none.2 hended)] at h
    exact absurd h hended
  case pos =>
    refine ⟨hended, ?_⟩
    rw [Plan.step, if_neg (by simp [hended])] at h ⊢
    cases hround : plan.rounds[c.roundIndex]? with
    | none =>
      rw [hround] at h
      cases h
    | some round =>
      rw [hround] at h
      cases outcome with
      | stops | fails => cases h
      | scriptFails retriable =>
        dsimp only at h
        rw [Plan.isScriptRound, hplan] at h
        cases h
      | done verdict routingKey logicMarker =>
        dsimp only
        rw [Plan.advance, hplan]
        dsimp only
        rw [Plan.advanceLegacy]
        cases legacyJump c.roundJumpCounts round
          (plan.signals round verdict routingKey logicMarker).effectiveVerdict with
        | none => exact List.length_append
        | some target =>
          dsimp only
          rw [Plan.goTo]
          cases plan.rounds.findIdx? (·.id = target) <;> exact List.length_append

end Turns

/-! ## Whole runs -/

theorem passed_start {rounds : List P2pAdvancedRound} : Passed rounds {} := by
  have hjumps (id : String) : Chain.jumps {} id = 0 := getD_count_empty
  refine ⟨Nat.zero_le _, Nat.zero_le _, fun round _ => ?_, fun id hid => ?_, ?_, ?_⟩
  · rw [hjumps]
    exact Nat.zero_le _
  · exact Option.isSome_iff_exists.2 ⟨0, count_empty hid⟩
  · intro i t round rule target hround hrule htarget hid
    rw [hjumps, if_neg (Nat.not_lt_zero t)]
    exact Nat.zero_le _
  · exact fun i round rule hi => absurd hi (Nat.not_lt_zero i)

theorem length_visited_run {plan : Plan} (hplan : plan.boundWorkflow = none)
    {outcomes : List Outcome} (h : (plan.run outcomes).ended = none) :
    (plan.run outcomes).visited.length = outcomes.length := by
  induction outcomes using List.reverseRecOn with
  | nil => rfl
  | append_singleton outcomes outcome ih =>
    rw [Plan.run, run_append] at h ⊢
    obtain ⟨hended, hlength⟩ := length_visited_step hplan h
    rw [List.length_append, List.length_singleton, ← ih hended]
    exact hlength

/-- **A run of an old configuration ends**: it begins at most `legacyBound` rounds, after so many
turns it has ended, and it never looks for a round in vain.  A run that is completed has begun the
target of every forced rework once, and again as often as the rule asks for. -/
theorem legacy_run {rounds : List P2pAdvancedRound} {plan : Plan}
    (h : legacyPlan rounds = .ok plan) (outcomes : List Outcome) :
    (plan.run outcomes).visited.length ≤ legacyBound rounds ∧
      (legacyBound rounds < outcomes.length → (plan.run outcomes).ended.isSome) ∧
        (plan.run outcomes).ended ≠ some .threw ∧
          ((plan.run outcomes).ended = some .completed → ∀ round ∈ rounds,
            round.policy = .forcedRework → ∀ rule, round.jumpRule = some rule →
              rule.maxTriggers.isSome → round.id ∉ objectPrototypeKeys →
                rule.minTriggers + 1 ≤ (plan.run outcomes).visited.count rule.targetRoundId) := by
  obtain ⟨hplan, rfl⟩ := plannable_of_legacyPlan h
  have hrun : LegacyBounded rounds
      (Plan.run ⟨rounds.map normalizeAdvancedRound, none⟩ outcomes) :=
    run_invariant_all (LegacyBounded rounds) (fun c outcome hc => hc.step hplan outcome)
      (.of_passed passed_start rfl) outcomes
  refine ⟨hrun.visits, fun hlong => ?_, hrun.found, fun hcompleted => ?_⟩
  · by_contra hgoing
    rw [Option.not_isSome_iff_eq_none] at hgoing
    have hlength := length_visited_run rfl hgoing
    have hvisits := hrun.visits
    omega
  · intro round hround hpolicy rule hrule hmax hid
    obtain ⟨hpassed, hindex⟩ := hrun.completed hcompleted
    obtain ⟨i, hi⟩ := List.mem_iff_getElem?.1 hround
    have hlt : i < rounds.length := (List.getElem?_eq_some_iff.1 hi).1
    obtain ⟨t, ht, target, htarget, htargetId, -⟩ := hplan.target_lt hi hrule
    have hforced := hpassed.forced i round rule (by omega) hi hpolicy hrule hmax hid
    have hcount := hpassed.targets i t round rule target hi hrule htarget htargetId
    rw [if_pos (by omega), htargetId] at hcount
    calc rule.minTriggers + 1 ≤ (Chain.jumps _ round.id : ℚ) + 1 := by gcongr
      _ ≤ _ := by exact_mod_cast hcount

/-- An audit that sends the implementation back once at least, and twice at most. -/
def auditedRounds : List P2pAdvancedRound :=
  [{ id := "implementation"
     title := "Implementation"
     preset := .implementation
     executionMode := .singleMain
     permissionScope := .implementation },
   { id := "audit"
     title := "Audit"
     preset := .implementationAudit
     executionMode := .multiDispatch
     permissionScope := .analysisOnly
     verdictPolicy := some .forcedRework
     jumpRule := some { targetRoundId := "implementation", minTriggers := 1, maxTriggers := some 2 } }]

def auditedPlan : Plan := ⟨auditedRounds.map normalizeAdvancedRound, none⟩

/-- Every audit passes. -/
def auditedOutcomes : List Outcome := List.replicate 5 (.done (some .pass) none "")

theorem legacyPlan_audited : legacyPlan auditedRounds = .ok auditedPlan := by
  have h : resolveP2pRoundPlan auditedRounds = .ok (auditedRounds.map normalizeAdvancedRound) := by
    decide +kernel
  rw [legacyPlan, h]
  rfl

theorem legacy_run_audited :
    (auditedPlan.run auditedOutcomes).visited.length ≤ legacyBound auditedRounds ∧
      (legacyBound auditedRounds < auditedOutcomes.length →
        (auditedPlan.run auditedOutcomes).ended.isSome) ∧
        (auditedPlan.run auditedOutcomes).ended ≠ some .threw ∧
          ((auditedPlan.run auditedOutcomes).ended = some .completed → ∀ round ∈ auditedRounds,
            round.policy = .forcedRework → ∀ rule, round.jumpRule = some rule →
              rule.maxTriggers.isSome → round.id ∉ objectPrototypeKeys →
                rule.minTriggers + 1 ≤
                  (auditedPlan.run auditedOutcomes).visited.count rule.targetRoundId) :=
  legacy_run legacyPlan_audited auditedOutcomes

example : (auditedPlan.run auditedOutcomes).ended = some .completed := by decide +kernel

end Imcodes.Workflow
