import Mathlib.Tactic.Common

/-!
# Transactions whose statements may fail

A `Script` is a sequence of statements over a database, each allowed to look at
what the earlier ones returned.  A `Conn` is a connection: what it reads, the
state an open transaction would return to, and a fault plan that says which of
the statements it executes fail.  `transaction body after` is the usual shape

    BEGIN IMMEDIATE; try { body; COMMIT; return after } catch { ROLLBACK; throw }

with the reads of `after` still inside the `try`.

* `Script.eval` is what a script does when no statement fails.
* `Script.run_open` — inside a transaction, a script either agrees with `eval`
  or throws with the saved state still at hand.
* `transaction_outcome` — **a transaction happens completely or not at all**:
  whatever fails, either the database is what it was and an error is thrown, or
  the body's `eval` was committed.
-/

namespace Relational

/-- Statements over a database `σ`, with errors in `ε`. -/
inductive Script (σ ε α : Type) : Type 1
  /-- No statement left. -/
  | pure (a : α)
  /-- One statement, and what follows once its answer is known. -/
  | stmt {β : Type} (act : σ → Except ε (β × σ)) (next : β → Script σ ε α)

namespace Script

variable {σ ε α β : Type}

/-- Sequencing. -/
def bind : Script σ ε α → (α → Script σ ε β) → Script σ ε β
  | .pure a, f => f a
  | .stmt act next, f => .stmt act fun b => (next b).bind f

instance : Monad (Script σ ε) where
  pure := .pure
  bind := bind

/-- A `SELECT`. -/
def query (f : σ → α) : Script σ ε α := .stmt (fun d => .ok (f d, d)) .pure

/-- A statement that changes the database and cannot violate a constraint. -/
def write (f : σ → σ) : Script σ ε Unit := .stmt (fun d => .ok ((), f d)) .pure

/-- A statement that may violate a constraint. -/
def tryWrite (f : σ → Except ε σ) : Script σ ε Unit :=
  .stmt (fun d => (f d).map fun d' => ((), d')) .pure

/-- The same statement for each element of a list, in order. -/
def forEach (f : β → Script σ ε Unit) : List β → Script σ ε Unit
  | [] => .pure ()
  | b :: bs => (f b).bind fun _ => forEach f bs

/-- What the script does when the engine never fails. -/
def eval : Script σ ε α → σ → Except ε (α × σ)
  | .pure a, d => .ok (a, d)
  | .stmt act next, d =>
      match act d with
      | .error e => .error e
      | .ok (b, d') => (next b).eval d'

@[simp] theorem eval_pure (a : α) (d : σ) : (Script.pure a : Script σ ε α).eval d = .ok (a, d) := rfl

@[simp] theorem eval_pure' (a : α) (d : σ) :
    (Pure.pure a : Script σ ε α).eval d = .ok (a, d) := rfl

theorem eval_bind (s : Script σ ε α) (f : α → Script σ ε β) (d : σ) :
    (s.bind f).eval d =
      match s.eval d with
      | .error e => .error e
      | .ok (a, d') => (f a).eval d' := by
  induction s generalizing d with
  | pure a => rfl
  | stmt act next ih =>
    simp only [bind, eval]
    cases act d with
    | error e => rfl
    | ok p => exact ih p.1 p.2

/-- A sequence that succeeds is two successes in a row. -/
theorem eval_bind_eq_ok {s : Script σ ε α} {f : α → Script σ ε β} {d d' : σ} {b : β} :
    (s >>= f).eval d = .ok (b, d') ↔ ∃ a d₁, s.eval d = .ok (a, d₁) ∧ (f a).eval d₁ = .ok (b, d') := by
  change (s.bind f).eval d = _ ↔ _
  rw [eval_bind]
  cases h : s.eval d with
  | error e => simp
  | ok p =>
    obtain ⟨a, d₁⟩ := p
    constructor
    · exact fun h => ⟨a, d₁, rfl, h⟩
    · rintro ⟨a', d₁', h, h'⟩
      cases h
      exact h'

theorem eval_bind_of_ok {s : Script σ ε α} {f : α → Script σ ε β} {d d' : σ} {a : α}
    (h : s.eval d = .ok (a, d')) : (s >>= f).eval d = (f a).eval d' := by
  change (s.bind f).eval d = _
  rw [eval_bind, h]

theorem eval_bind_of_error {s : Script σ ε α} {f : α → Script σ ε β} {d : σ} {e : ε}
    (h : s.eval d = .error e) : (s >>= f).eval d = .error e := by
  change (s.bind f).eval d = _
  rw [eval_bind, h]

@[simp] theorem eval_query (f : σ → α) (d : σ) :
    (query f : Script σ ε α).eval d = .ok (f d, d) := rfl

@[simp] theorem eval_write (f : σ → σ) (d : σ) :
    (write f : Script σ ε Unit).eval d = .ok ((), f d) := rfl

theorem eval_query_bind (f : σ → α) (k : α → Script σ ε β) (d : σ) :
    (query f >>= k).eval d = (k (f d)).eval d := rfl

theorem eval_tryWrite_eq_ok {f : σ → Except ε σ} {d d' : σ} {u : Unit} :
    (tryWrite f : Script σ ε Unit).eval d = .ok (u, d') ↔ f d = .ok d' := by
  simp only [tryWrite, eval]
  cases f d with
  | error e => simp [Except.map]
  | ok d₁ => simp [Except.map]

/-- Some of the script's statements, taken from the first on, lead from `d` to `d'`. -/
def Reaches : Script σ ε α → σ → σ → Prop
  | .pure _, d, d' => d' = d
  | .stmt act next, d, d' => d' = d ∨ ∃ b d₁, act d = .ok (b, d₁) ∧ (next b).Reaches d₁ d'

theorem Reaches.refl (s : Script σ ε α) (d : σ) : s.Reaches d d := by
  cases s with
  | pure a => rfl
  | stmt act next => exact Or.inl rfl

/-- From `d`, no statement of the script changes the database. -/
def ReadsOnly (s : Script σ ε α) (d : σ) : Prop := ∀ d', s.Reaches d d' → d' = d

theorem readsOnly_pure (a : α) (d : σ) : (Pure.pure a : Script σ ε α).ReadsOnly d :=
  fun _ h => h

theorem readsOnly_query (f : σ → α) (d : σ) : (query f : Script σ ε α).ReadsOnly d := by
  rintro d' (rfl | ⟨b, d₁, h, h'⟩)
  · rfl
  · cases h
    exact h'

/-- What a sequence reaches, its first part reaches, or its second part does
once the first has run. -/
theorem reaches_bind {s : Script σ ε α} {f : α → Script σ ε β} {d d' : σ}
    (h : (s >>= f).Reaches d d') :
    s.Reaches d d' ∨ ∃ a d₁, s.eval d = .ok (a, d₁) ∧ (f a).Reaches d₁ d' := by
  change (s.bind f).Reaches d d' at h
  induction s generalizing d with
  | pure a => exact Or.inr ⟨a, d, rfl, h⟩
  | stmt act next ih =>
    obtain rfl | ⟨b, d₁, hb, h₁⟩ := h
    · exact Or.inl (Or.inl rfl)
    · obtain h₂ | ⟨a, d₂, ha, h₂⟩ := ih b h₁
      · exact Or.inl (Or.inr ⟨b, d₁, hb, h₂⟩)
      · exact Or.inr ⟨a, d₂, by simp only [eval, hb]; exact ha, h₂⟩

theorem ReadsOnly.bind {s : Script σ ε α} {f : α → Script σ ε β} {d : σ} (hs : s.ReadsOnly d)
    (hf : ∀ a d₁, s.eval d = .ok (a, d₁) → d₁ = d ∧ (f a).ReadsOnly d) :
    (s >>= f).ReadsOnly d := by
  intro d' h
  obtain h | ⟨a, d₁, ha, h'⟩ := reaches_bind h
  · exact hs d' h
  · obtain ⟨rfl, h₁⟩ := hf a d₁ ha
    exact h₁ d' h'

end Script

/-! ## Connections -/

/-- How the engine may fail a statement. -/
inductive Fault (ε : Type)
  /-- The statement alone fails; an open transaction stays open. -/
  | statement (e : ε)
  /-- The engine gives up and rolls the whole transaction back by itself. -/
  | abort (e : ε)

/-- The error a fault is reported with. -/
def Fault.error {ε : Type} : Fault ε → ε
  | .statement e => e
  | .abort e => e

/-- The errors the transaction commands themselves raise. -/
class EngineErrors (ε : Type) where
  /-- `BEGIN` inside a transaction. -/
  nestedBegin : ε
  /-- `COMMIT` outside a transaction. -/
  idleCommit : ε
  /-- `ROLLBACK` outside a transaction. -/
  idleRollback : ε

/-- A connection to a database. -/
structure Conn (σ ε : Type) where
  /-- What a statement on this connection reads and writes. -/
  data : σ
  /-- While a transaction is open, the state `ROLLBACK` returns to. -/
  saved : Option σ
  /-- How many `COMMIT`s have taken effect. -/
  commits : Nat
  /-- How many statements have been submitted. -/
  clock : Nat
  /-- The statements that fail, by the time of their submission. -/
  fault : Nat → Option (Fault ε)

namespace Conn

variable {σ ε : Type}

/-- One more statement has been submitted. -/
def tick (c : Conn σ ε) : Conn σ ε := { c with clock := c.clock + 1 }

@[simp] theorem tick_data (c : Conn σ ε) : c.tick.data = c.data := rfl
@[simp] theorem tick_saved (c : Conn σ ε) : c.tick.saved = c.saved := rfl
@[simp] theorem tick_commits (c : Conn σ ε) : c.tick.commits = c.commits := rfl

/-- What a fault leaves behind. -/
def failWith (c : Conn σ ε) : Fault ε → Conn σ ε
  | .statement _ => c.tick
  | .abort _ => { c.tick with data := c.saved.getD c.data, saved := none }

end Conn

variable {σ ε α β : Type}

/-- Submit one statement. -/
def exec (act : σ → Except ε (β × σ)) (c : Conn σ ε) : Except ε β × Conn σ ε :=
  match c.fault c.clock with
  | some f => (.error f.error, c.failWith f)
  | none =>
      match act c.data with
      | .error e => (.error e, c.tick)
      | .ok (b, d) => (.ok b, { c.tick with data := d })

/-- Submit the statements of a script until one fails. -/
def Script.run : Script σ ε α → Conn σ ε → Except ε α × Conn σ ε
  | .pure a, c => (.ok a, c)
  | .stmt act next, c =>
      match exec act c with
      | (.error e, c') => (.error e, c')
      | (.ok b, c') => (next b).run c'

variable [EngineErrors ε]

/-- `BEGIN IMMEDIATE`. -/
def beginImmediate (c : Conn σ ε) : Except ε Unit × Conn σ ε :=
  match c.fault c.clock with
  | some f => (.error f.error, c.tick)
  | none =>
      match c.saved with
      | some _ => (.error EngineErrors.nestedBegin, c.tick)
      | none => (.ok (), { c.tick with saved := some c.data })

/-- `COMMIT`. -/
def commit (c : Conn σ ε) : Except ε Unit × Conn σ ε :=
  match c.fault c.clock with
  | some f => (.error f.error, c.failWith f)
  | none =>
      match c.saved with
      | none => (.error EngineErrors.idleCommit, c.tick)
      | some _ => (.ok (), { c.tick with saved := none, commits := c.commits + 1 })

/-- `ROLLBACK`.  It needs no new pages and does not fail on an open transaction. -/
def rollback (c : Conn σ ε) : Except ε Unit × Conn σ ε :=
  match c.saved with
  | none => (.error EngineErrors.idleRollback, c.tick)
  | some d => (.ok (), { c.tick with data := d, saved := none })

/-- `body; COMMIT; return after`, the part inside the `try`. -/
def tryBlock (body : Script σ ε α) (after : α → Script σ ε β) (c : Conn σ ε) :
    Except ε β × Conn σ ε :=
  match body.run c with
  | (.error e, c₁) => (.error e, c₁)
  | (.ok a, c₁) =>
      match commit c₁ with
      | (.error e, c₂) => (.error e, c₂)
      | (.ok _, c₂) => (after a).run c₂

/-- `BEGIN IMMEDIATE; try { body; COMMIT; return after } catch { ROLLBACK; throw }`. -/
def transaction (body : Script σ ε α) (after : α → Script σ ε β) (c : Conn σ ε) :
    Except ε β × Conn σ ε :=
  match beginImmediate c with
  | (.error e, c₁) => (.error e, c₁)
  | (.ok _, c₁) =>
      match tryBlock body after c₁ with
      | (.ok b, c₂) => (.ok b, c₂)
      | (.error e, c₂) =>
          match rollback c₂ with
          | (.ok _, c₃) => (.error e, c₃)
          | (.error e', c₃) => (.error e', c₃)

/-! ## What a script leaves behind -/

omit [EngineErrors ε] in
/-- Inside a transaction, a script that returns did what `eval` says, and a
script that throws leaves the saved state at hand. -/
theorem Script.run_open {d₀ : σ} (s : Script σ ε α) {c : Conn σ ε} (hc : c.saved = some d₀) :
    (s.run c).2.commits = c.commits ∧
      ((∃ a, (s.run c).1 = .ok a ∧ (s.run c).2.saved = some d₀ ∧
          s.eval c.data = .ok (a, (s.run c).2.data)) ∨
        (∃ e, (s.run c).1 = .error e) ∧
          ((s.run c).2.saved = some d₀ ∨ (s.run c).2.saved = none ∧ (s.run c).2.data = d₀)) := by
  induction s generalizing c with
  | pure a => exact ⟨rfl, Or.inl ⟨a, rfl, hc, rfl⟩⟩
  | stmt act next ih =>
    simp only [run, exec, eval]
    cases hf : c.fault c.clock with
    | some f =>
      cases f with
      | statement e => exact ⟨rfl, Or.inr ⟨⟨e, rfl⟩, Or.inl hc⟩⟩
      | abort e => exact ⟨rfl, Or.inr ⟨⟨e, rfl⟩, Or.inr ⟨rfl, by simp [Conn.failWith, hc]⟩⟩⟩
    | none =>
      cases ha : act c.data with
      | error e => exact ⟨rfl, Or.inr ⟨⟨e, rfl⟩, Or.inl hc⟩⟩
      | ok p =>
        obtain ⟨b, d⟩ := p
        exact ih b (c := { c.tick with data := d }) hc

omit [EngineErrors ε] in
/-- Outside a transaction, a script gets as far as it gets, and one that
returns did what `eval` says. -/
theorem Script.run_autocommit (s : Script σ ε α) {c : Conn σ ε} (hc : c.saved = none) :
    (s.run c).2.commits = c.commits ∧ (s.run c).2.saved = none ∧
      s.Reaches c.data (s.run c).2.data ∧
      ∀ a, (s.run c).1 = .ok a → s.eval c.data = .ok (a, (s.run c).2.data) := by
  induction s generalizing c with
  | pure a => exact ⟨rfl, hc, rfl, fun a' h => by cases h; rfl⟩
  | stmt act next ih =>
    simp only [run, exec, eval, Reaches]
    cases hf : c.fault c.clock with
    | some f =>
      cases f with
      | statement e => exact ⟨rfl, hc, Or.inl rfl, fun a h => by cases h⟩
      | abort e => exact ⟨rfl, rfl, by simp [Conn.failWith, hc], fun a h => by cases h⟩
    | none =>
      cases ha : act c.data with
      | error e => exact ⟨rfl, hc, Or.inl rfl, fun a h => by cases h⟩
      | ok p =>
        obtain ⟨b, d⟩ := p
        obtain ⟨h₁, h₂, h₃, h₄⟩ := ih b (c := { c.tick with data := d }) hc
        exact ⟨h₁, h₂, Or.inr ⟨b, d, rfl, h₃⟩, h₄⟩

/-- The two ways a transaction can end. -/
inductive TransactionOutcome (body : Script σ ε α) (after : α → Script σ ε β) (c : Conn σ ε) :
    Except ε β × Conn σ ε → Prop
  /-- No `COMMIT` took effect: the database is what it was, and the caller sees an error. -/
  | rolledBack {e : ε} {c' : Conn σ ε} (commits : c'.commits = c.commits) (saved : c'.saved = none)
      (data : c'.data = c.data) : TransactionOutcome body after c (.error e, c')
  /-- The body's effect was committed; an answer, if there is one, is the one read after it. -/
  | committed {a : α} {r : Except ε β} {c' : Conn σ ε} (commits : c'.commits = c.commits + 1)
      (saved : c'.saved = none) (effect : body.eval c.data = .ok (a, c'.data))
      (answer : ∀ b, r = .ok b → (after a).eval c'.data = .ok (b, c'.data)) :
      TransactionOutcome body after c (r, c')

/-- **A transaction happens completely or not at all.** -/
theorem transaction_outcome {body : Script σ ε α} {after : α → Script σ ε β} {c : Conn σ ε}
    (hc : c.saved = none)
    (hafter : ∀ a d, body.eval c.data = .ok (a, d) → (after a).ReadsOnly d) :
    TransactionOutcome body after c (transaction body after c) := by
  simp only [transaction, beginImmediate]
  cases hb : c.fault c.clock with
  | some f => exact .rolledBack rfl hc rfl
  | none =>
    simp only [hc]
    -- `c₁` is the connection inside the transaction
    set c₁ : Conn σ ε := { c.tick with saved := some c.data } with hc₁
    have hsaved : c₁.saved = some c.data := rfl
    obtain ⟨hcom, ⟨a, hok, hs, heval⟩ | ⟨⟨e, herr⟩, hs⟩⟩ := body.run_open hsaved
    · simp only [tryBlock]
      rw [show body.run c₁ = (.ok a, (body.run c₁).2) from Prod.ext hok rfl]
      set c₂ := (body.run c₁).2
      simp only [commit]
      cases hf : c₂.fault c₂.clock with
      | some f =>
        cases f with
        | statement e =>
          simp only [Conn.failWith, rollback, Conn.tick_saved, hs]
          exact .rolledBack hcom rfl rfl
        | abort e =>
          simp only [Conn.failWith, rollback, hs]
          exact .rolledBack hcom rfl rfl
      | none =>
        simp only [hs]
        set c₃ : Conn σ ε := { c₂.tick with saved := none, commits := c₂.commits + 1 } with hc₃
        obtain ⟨h3c, h3s, h3r, h3a⟩ := (after a).run_autocommit (c := c₃) rfl
        have h3d := hafter a c₃.data heval _ h3r
        cases hr : (after a).run c₃ with
        | mk r c₄ =>
          simp only [hr] at h3c h3s h3d h3a
          have hc4 : c₄.commits = c.commits + 1 := by rw [h3c, hc₃]; simp only [hcom]; rfl
          cases r with
          | ok b =>
            rw [h3d] at h3a
            exact .committed hc4 h3s (by rw [h3d]; exact heval) (by rw [h3d]; exact h3a)
          | error e =>
            -- the reads failed after the `COMMIT`: the `ROLLBACK` finds no transaction
            simp only [rollback, h3s]
            have h4 : body.eval c.data = .ok (a, c₄.tick.data) := by
              rw [Conn.tick_data, h3d]
              exact heval
            exact .committed hc4 h3s h4 fun b hb => by cases hb
    · simp only [tryBlock]
      rw [show body.run c₁ = (.error e, (body.run c₁).2) from Prod.ext herr rfl]
      rcases hs with hs | ⟨hs, hd⟩
      · simp only [rollback, hs]
        exact .rolledBack hcom rfl rfl
      · simp only [rollback, hs]
        exact .rolledBack hcom hs hd

end Relational
