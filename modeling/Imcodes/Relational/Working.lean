import Imcodes.Relational.Transaction

/-!
# Connections that work

A connection works when no transaction is open on it and none of its statements
will fail.  On such a connection a script does what `eval` says, and a
transaction succeeds exactly when its body does.
-/

namespace Relational

variable {σ ε α β : Type}

/-- No transaction is open, and no statement will fail. -/
structure Conn.Working (c : Conn σ ε) : Prop where
  saved : c.saved = none
  fault : ∀ i, c.fault i = none

/-- Without faults, a script that succeeds does what `eval` says. -/
theorem Script.run_eq_ok (s : Script σ ε α) {c : Conn σ ε} (hc : ∀ i, c.fault i = none) {a : α}
    {d : σ} (h : s.eval c.data = .ok (a, d)) :
    ∃ n, s.run c = (.ok a, { c with data := d, clock := n }) := by
  induction s generalizing c with
  | pure b =>
    cases h
    exact ⟨c.clock, rfl⟩
  | stmt act next ih =>
    simp only [eval] at h
    simp only [run, exec, hc]
    cases hact : act c.data with
    | error e =>
      rw [hact] at h
      cases h
    | ok p =>
      rw [hact] at h
      exact ih p.1 (c := { c.tick with data := p.2 }) hc h

/-- Without faults, a script that fails fails with the error `eval` says. -/
theorem Script.run_eq_error (s : Script σ ε α) {c : Conn σ ε} (hc : ∀ i, c.fault i = none) {e : ε}
    (h : s.eval c.data = .error e) :
    ∃ d n, s.run c = (.error e, { c with data := d, clock := n }) := by
  induction s generalizing c with
  | pure b => cases h
  | stmt act next ih =>
    simp only [eval] at h
    simp only [run, exec, hc]
    cases hact : act c.data with
    | error e' =>
      rw [hact] at h
      cases h
      exact ⟨c.data, c.clock + 1, rfl⟩
    | ok p =>
      rw [hact] at h
      exact ih p.1 (c := { c.tick with data := p.2 }) hc h

namespace Conn.Working

variable {c : Conn σ ε}

/-- A script outside a transaction. -/
theorem run_eq_ok (hc : c.Working) {s : Script σ ε α} {a : α} {d : σ}
    (h : s.eval c.data = .ok (a, d)) :
    ∃ c', s.run c = (.ok a, c') ∧ c'.Working ∧ c'.data = d := by
  obtain ⟨n, hn⟩ := s.run_eq_ok hc.fault h
  exact ⟨_, hn, ⟨hc.saved, hc.fault⟩, rfl⟩

variable [EngineErrors ε] {body : Script σ ε α} {after : α → Script σ ε β}

/-- A transaction whose body succeeds is committed and answered. -/
theorem transaction_eq_ok (hc : c.Working) (after : α → Script σ ε β) {a : α} {b : β} {d : σ}
    (hbody : body.eval c.data = .ok (a, d)) (hafter : (after a).eval d = .ok (b, d)) :
    ∃ c', transaction body after c = (.ok b, c') ∧ c'.Working ∧ c'.data = d := by
  set c₁ : Conn σ ε := { c.tick with saved := some c.data } with hc₁
  obtain ⟨n, hn⟩ := body.run_eq_ok (c := c₁) hc.fault hbody
  set c₂ : Conn σ ε := { c with data := d, saved := none, commits := c.commits + 1, clock := n + 1 }
  obtain ⟨k, hk⟩ := (after a).run_eq_ok (c := c₂) hc.fault hafter
  have htry : tryBlock body after c₁ = (.ok b, { c₂ with clock := k }) := by
    rw [tryBlock, hn]
    simp only [commit]
    rw [show c₁.fault n = none from hc.fault n]
    exact hk
  refine ⟨{ c₂ with clock := k }, ?_, ⟨rfl, hc.fault⟩, rfl⟩
  simp only [transaction, beginImmediate, hc.fault, hc.saved]
  rw [← hc₁, htry]

/-- A transaction whose body fails leaves nothing behind. -/
theorem transaction_eq_error (hc : c.Working) {e : ε} (hbody : body.eval c.data = .error e) :
    ∃ c', transaction body after c = (.error e, c') ∧ c'.Working ∧ c'.data = c.data := by
  set c₁ : Conn σ ε := { c.tick with saved := some c.data } with hc₁
  obtain ⟨d, n, hn⟩ := body.run_eq_error (c := c₁) hc.fault hbody
  refine ⟨{ c with clock := n + 1 }, ?_, ⟨hc.saved, hc.fault⟩, rfl⟩
  simp only [transaction, beginImmediate, hc.fault, hc.saved]
  rw [← hc₁, tryBlock, hn]
  exact congrArg (Prod.mk _) (by rw [hc₁, ← hc.saved]; rfl)

end Conn.Working

end Relational
