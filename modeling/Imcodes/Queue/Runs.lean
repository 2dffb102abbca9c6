import Imcodes.Queue.Refinement

/-!
# Runs of the store

* `QueueAction.run_spec` — any call of the store does to each session nothing,
  or the one operation it asks for, and the events of its answer show the state
  it leaves.
* `run_induction` — what a new store satisfies and every call keeps,
  holds at the end of every run, whatever fails on the way.
-/

namespace Imcodes.Queue

open Relational SessionState

section Runs

variable {localeCompare : Collation} {env : OpEnv} {c : StoreConn}

/-! ## Any call -/

/-- The operation an action asks for, with what it draws from outside. -/
def QueueAction.target : QueueAction → Option (SessionName × SessionOp × OpEnv)
  | .mutate op env | .mutateSafely _ _ op env _ => op.target.map fun t => (t.1, t.2, env)
  | .readSnapshot .. | .readSnapshotSafely .. => none

/-- What an action draws from outside. -/
def QueueAction.envs : QueueAction → List OpEnv
  | .mutate _ env | .readSnapshot _ _ env | .readSnapshotSafely _ _ env => [env]
  | .mutateSafely _ _ _ env readEnv => [env, readEnv]

/-- What an action does to one session. -/
inductive SessionStep (a : QueueAction) (s : SessionName) (c c' : StoreConn) : Prop
  /-- Nothing, except that `ensureMeta` may have found no row. -/
  | quiet (h : c'.data.session s = c.data.session s ∨ ∃ env ∈ a.envs, ∃ now,
        c'.data.session s = (c.data.session s).ensured env s now)
      (hcommits : c'.commits = c.commits ∨ ∀ op env, a.target ≠ some (s, op, env))
  /-- The operation it asks for. -/
  | committed {op : SessionOp} {env : OpEnv} (htarget : a.target = some (s, op, env))
      (henv : env ∈ a.envs) (commits : c'.commits = c.commits + 1)
      (h : c'.data.session s = op.apply env s (c.data.session s))

/-- What an action does, and what the events in its answer show. -/
structure ActionSpec (localeCompare : Collation) (a : QueueAction) (c : StoreConn)
    (p : List QueueEvent × StoreConn) : Prop where
  saved : p.2.saved = none
  session : ∀ s, SessionStep a s c p.2
  events : ∀ e ∈ p.1, ∃ s,
    EventOf localeCompare (a.target.map fun t => (t.1, t.2.1)) s (p.2.data.session s) p.1 e

/-- A read after a step changes nothing that matters about the step. -/
theorem SessionStep.read {a : QueueAction} {s : SessionName} {c c₁ c₂ : StoreConn} {env : OpEnv}
    (henv : env ∈ a.envs) (h : SessionStep a s c c₁) (hcommits : c₂.commits = c₁.commits)
    (hdata : c₂.data = c₁.data ∨ ∃ s now, Db.Moves s (ensured env s now) c₁.data c₂.data) :
    SessionStep a s c c₂ := by
  have h₂ : c₂.data.session s = c₁.data.session s ∨
      ∃ now, c₂.data.session s = (c₁.data.session s).ensured env s now := by
    rcases hdata with hd | ⟨s', now, hd⟩
    · exact Or.inl (by rw [hd])
    · by_cases hs : s = s'
      · subst hs
        exact Or.inr ⟨now, hd.session⟩
      · exact Or.inl (hd.off s hs)
  cases h with
  | committed htarget henv' commits h =>
    refine .committed htarget henv' (hcommits.trans commits) ?_
    rcases h₂ with h₂ | ⟨now, h₂⟩
    · rw [h₂, h]
    · rw [h₂, h, ensured_of_isSome (SessionOp.isSome_metaRow_apply _ s _ _)]
  | quiet h hquiet =>
    have hquiet₂ := hquiet.imp hcommits.trans id
    rcases h₂ with h₂ | ⟨now, h₂⟩
    · exact .quiet (by rw [h₂]; exact h) hquiet₂
    · rcases h with h | ⟨env', henv', now', h⟩
      · exact .quiet (Or.inr ⟨env, henv, now, by rw [h₂, h]⟩) hquiet₂
      · refine .quiet (Or.inr ⟨env', henv', now', ?_⟩) hquiet₂
        rw [h₂, h, ensured_of_isSome rfl]

theorem CallSpec.session {a : QueueAction} {target : Option (SessionName × SessionOp)}
    {r : Except StoreError (List QueueEvent)} {c' : StoreConn}
    (h : CallSpec localeCompare env target c (r, c')) (henv : env ∈ a.envs)
    (ha : ∀ s op, target = some (s, op) → a.target = some (s, op, env)) (s : SessionName) :
    SessionStep a s c c' := by
  cases h with
  | uncommitted commits saved data answer =>
    exact SessionStep.read henv (.quiet (Or.inl rfl) (Or.inl rfl)) commits data
  | @committed _ _ s' op htarget commits saved moves answer =>
    by_cases hs : s = s'
    · subst hs
      exact .committed (ha s op htarget) henv commits moves.session
    · refine .quiet (Or.inl (moves.off s hs)) (Or.inr fun op' env' h => hs ?_)
      rw [ha s' op htarget] at h
      cases h
      rfl

theorem CallSpec.saved {target : Option (SessionName × SessionOp)}
    {p : Except StoreError (List QueueEvent) × StoreConn}
    (h : CallSpec localeCompare env target c p) : p.2.saved = none := by
  cases h with
  | uncommitted commits saved data answer => exact saved
  | committed htarget commits saved moves answer => exact saved

theorem CallSpec.events {target : Option (SessionName × SessionOp)}
    {p : Except StoreError (List QueueEvent) × StoreConn}
    (h : CallSpec localeCompare env target c p) :
    ∀ e ∈ (answered p).1, ∃ s,
      EventOf localeCompare target s (p.2.data.session s) (answered p).1 e := by
  cases h with
  | @uncommitted r c' commits saved data answer | @committed r c' _ _ _ commits saved moves answer =>
    cases r with
    | error e => exact fun e he => by cases he
    | ok events => exact answer events rfl

theorem answered_snd (p : Except StoreError (List QueueEvent) × StoreConn) :
    (answered p).2 = p.2 := by
  obtain ⟨r, c'⟩ := p
  cases r <;> rfl

theorem CallSpec.action {a : QueueAction} {target : Option (SessionName × SessionOp)}
    {p : Except StoreError (List QueueEvent) × StoreConn}
    (h : CallSpec localeCompare env target c p) (henv : env ∈ a.envs)
    (ha : ∀ s op, target = some (s, op) → a.target = some (s, op, env)) :
    ActionSpec localeCompare a c (answered p) := by
  refine ⟨?_, fun s => ?_, ?_⟩
  · rw [answered_snd]
    exact h.saved
  · rw [answered_snd]
    obtain ⟨r, c'⟩ := p
    exact h.session henv ha s
  · rw [answered_snd]
    intro e he
    obtain ⟨s, hs⟩ := h.events e he
    exact ⟨s, hs.imp fun ht => by rw [ha _ _ ht, Option.map_some]⟩

/-- **Any call of the store does to each session nothing, or the one operation
it asks for**, and what its answer shows is the state it leaves. -/
theorem QueueAction.run_spec (localeCompare : Collation) (a : QueueAction) (hc : c.saved = none) :
    ActionSpec localeCompare a c (a.run localeCompare c) := by
  cases a with
  | mutate op env =>
    refine (op.run_spec localeCompare env hc).action (List.mem_singleton_self _) fun s op' h => ?_
    simp only [target, h]
    rfl
  | readSnapshot sessionName source env =>
    simp only [run]
    exact (CallSpec.of_readSnapshot none hc).action (List.mem_singleton_self _)
      fun s op h => by cases h
  | readSnapshotSafely sessionName source env =>
    simp only [run]
    exact (CallSpec.of_readSnapshotSafely none hc).action (List.mem_singleton_self _)
      fun s op h => by cases h
  | mutateSafely sessionName source op env readEnv =>
    have h := op.run_spec localeCompare env hc
    have ha : ∀ s op', op.target = some (s, op') →
        (QueueAction.mutateSafely sessionName source op env readEnv).target = some (s, op', env) :=
      fun s op' h => by simp only [target, h]; rfl
    simp only [run, Queue.mutateSafely]
    generalize op.run localeCompare env c = p at h ⊢
    obtain ⟨r, c₁⟩ := p
    cases r with
    | ok events => exact h.action (List.mem_cons_self ..) ha
    | error e =>
      have hread : CallSpec localeCompare readEnv none c₁
          ((Queue.readSnapshotSafely localeCompare readEnv sessionName source).map snapshotEvent
            c₁) :=
        .of_readSnapshotSafely none h.saved
      simp only
      generalize (Queue.readSnapshotSafely localeCompare readEnv sessionName source).map
        snapshotEvent c₁ = q at hread ⊢
      refine ⟨?_, fun s => ?_, ?_⟩
      · rw [answered_snd]
        exact hread.saved
      · rw [answered_snd]
        cases hread with
        | committed htarget => cases htarget
        | uncommitted commits saved data answer =>
          exact (h.session (List.mem_cons_self ..) ha s).read
            (List.mem_cons_of_mem _ (List.mem_singleton_self _)) commits data
      · rw [answered_snd]
        intro e he
        obtain ⟨s, hs⟩ := hread.events e he
        exact ⟨s, hs.imp fun ht => by cases ht⟩

/-! ## Runs -/

/-- The events of a run that starts with a new store. -/
def eventsOf (localeCompare : Collation) (fault : Nat → Option (Fault StoreError))
    (as : List QueueAction) : List QueueEvent :=
  (runActions localeCompare as (freshConn fault)).1

/-- The connection after a run that starts with a new store. -/
def connAfter (localeCompare : Collation) (fault : Nat → Option (Fault StoreError))
    (as : List QueueAction) : StoreConn :=
  (runActions localeCompare as (freshConn fault)).2

variable {fault : Nat → Option (Fault StoreError)}

theorem eventsOf_snoc (as : List QueueAction) (a : QueueAction) :
    eventsOf localeCompare fault (as ++ [a]) =
      eventsOf localeCompare fault as ++ (a.run localeCompare (connAfter localeCompare fault as)).1 := by
  simp only [eventsOf, connAfter, runActions_append, runActions, List.append_nil]

theorem connAfter_snoc (as : List QueueAction) (a : QueueAction) :
    connAfter localeCompare fault (as ++ [a]) =
      (a.run localeCompare (connAfter localeCompare fault as)).2 := by
  simp only [connAfter, runActions_append, runActions]

/-- No transaction is left open between two calls. -/
theorem saved_connAfter (as : List QueueAction) :
    (connAfter localeCompare fault as).saved = none := by
  induction as using List.reverseRecOn with
  | nil => rfl
  | append_singleton as a ih =>
    rw [connAfter_snoc]
    exact (a.run_spec localeCompare ih).saved

/-- The next call of a run. -/
theorem next_spec (localeCompare : Collation) (fault : Nat → Option (Fault StoreError))
    (as : List QueueAction) (a : QueueAction) :
    ActionSpec localeCompare a (connAfter localeCompare fault as)
      (a.run localeCompare (connAfter localeCompare fault as)) :=
  a.run_spec localeCompare (saved_connAfter as)

/-- Every event of a run is in the answer of one of its calls. -/
theorem exists_of_mem_eventsOf {as : List QueueAction} {e : QueueEvent}
    (he : e ∈ eventsOf localeCompare fault as) :
    ∃ pre a post, as = pre ++ a :: post ∧
      e ∈ (a.run localeCompare (connAfter localeCompare fault pre)).1 ∧
      (a.run localeCompare (connAfter localeCompare fault pre)).1 ⊆
        eventsOf localeCompare fault as := by
  induction as using List.reverseRecOn with
  | nil => cases he
  | append_singleton as a ih =>
    rw [eventsOf_snoc] at he ⊢
    rcases List.mem_append.1 he with he | he
    · obtain ⟨pre, b, post, has, heb, hsub⟩ := ih he
      exact ⟨pre, b, post ++ [a], by simp [has], heb,
        fun x hx => List.mem_append_left _ (hsub hx)⟩
    · exact ⟨as, a, [], rfl, he, fun x hx => List.mem_append_right _ hx⟩

/-- **What holds of a new store and is kept by every call, holds at the end of
every run.**  `P` may speak of the calls made so far and of all their events. -/
theorem run_induction {P : List QueueAction → List QueueEvent → StoreConn → Prop}
    (h₀ : P [] [] (freshConn fault))
    (step : ∀ as events c a, P as events c → ActionSpec localeCompare a c (a.run localeCompare c) →
      P (as ++ [a]) (events ++ (a.run localeCompare c).1) (a.run localeCompare c).2)
    (as : List QueueAction) :
    P as (eventsOf localeCompare fault as) (connAfter localeCompare fault as) := by
  induction as using List.reverseRecOn with
  | nil => exact h₀
  | append_singleton as a ih =>
    rw [eventsOf_snoc, connAfter_snoc]
    exact step as _ _ a ih (next_spec _ _ as a)

end Runs

end Imcodes.Queue
