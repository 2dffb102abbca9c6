import Mathlib.Data.List.Induction
import Mathlib.Logic.Relation

/-!
# Runs of a machine

A machine is a function `step : σ → ε → σ`.  Nothing here knows what its states
and events are.

* `run` — the state after a list of events, and `Along` — a condition on every
  event of a run and the state in which it happens.
* `run_invariant` — what a start satisfies, and every step that meets a
  condition keeps, holds at the end of a run along which the condition holds.
* `run_gathered`, `run_countP` — what each step adds to a list or a number, a run adds event by
  event.
* `along_iff` — a condition holds along a run exactly when it holds at the last
  event of each of its beginnings.
* `reflTransGen_invariant` — the same for a relation between states.
* `Traced` — a list in which every element is right, given those before it.
* `of_sublist_append_singleton` — what comes in some order in a trace, element by
  element.
-/

namespace Machine

variable {σ ε : Type*} (step : σ → ε → σ)

/-- The state after a run. -/
def run (es : List ε) (s : σ) : σ := es.foldl step s

/-- Every event of the run happens in a state in which it meets the condition. -/
def Along (ok : σ → ε → Prop) : List ε → σ → Prop
  | [], _ => True
  | e :: es, s => ok s e ∧ Along ok es (step s e)

/-- What the events of a run add to a list, each in the state in which it happens. -/
def gathered {α : Type*} (added : σ → ε → List α) : List ε → σ → List α
  | [], _ => []
  | e :: es, s => added s e ++ gathered added es (step s e)

instance Along.decidable (ok : σ → ε → Prop) [∀ s e, Decidable (ok s e)] :
    ∀ es s, Decidable (Along step ok es s)
  | [], _ => inferInstanceAs (Decidable True)
  | e :: es, s =>
      have := Along.decidable ok es (step s e)
      inferInstanceAs (Decidable (ok s e ∧ Along step ok es (step s e)))

variable {step} {ok : σ → ε → Prop} {es : List ε} {s : σ}

@[simp] theorem run_nil : run step [] s = s := rfl

@[simp] theorem run_cons {e : ε} : run step (e :: es) s = run step es (step s e) := rfl

theorem run_append {es' : List ε} : run step (es ++ es') s = run step es' (run step es s) :=
  List.foldl_append

theorem Along.imp {ok' : σ → ε → Prop} (h : ∀ s e, ok s e → ok' s e) :
    Along step ok es s → Along step ok' es s := by
  induction es generalizing s with
  | nil => exact id
  | cons e es ih => exact And.imp (h s e) ih

theorem Along.and {ok' : σ → ε → Prop} (h : Along step ok es s) (h' : Along step ok' es s) :
    Along step (fun s e => ok s e ∧ ok' s e) es s := by
  induction es generalizing s with
  | nil => trivial
  | cons e es ih => exact ⟨⟨h.1, h'.1⟩, ih h.2 h'.2⟩

theorem along_append {es' : List ε} :
    Along step ok (es ++ es') s ↔ Along step ok es s ∧ Along step ok es' (run step es s) := by
  induction es generalizing s with
  | nil => exact (iff_of_eq (true_and _)).symm
  | cons e es ih => rw [List.cons_append, Along, Along, ih, and_assoc, run_cons]

/-- A condition holds along a run exactly when it holds at the last event of
each of its beginnings. -/
theorem along_iff :
    Along step ok es s ↔ ∀ before e, before ++ [e] <+: es → ok (run step before s) e := by
  constructor
  · rintro h before e ⟨after, rfl⟩
    rw [List.append_assoc, along_append] at h
    exact h.2.1
  · intro h
    induction es generalizing s with
    | nil => trivial
    | cons e es ih =>
      refine ⟨h [] e ⟨es, rfl⟩, ih fun before e' hpre => ?_⟩
      exact h (e :: before) e' (List.prefix_cons_inj e |>.2 hpre)

/-- What a start satisfies, and every step that meets the condition keeps, holds
at the end of the run. -/
theorem run_invariant (inv : σ → Prop) (hstep : ∀ s e, inv s → ok s e → inv (step s e))
    (hs : inv s) (h : Along step ok es s) : inv (run step es s) := by
  induction es generalizing s with
  | nil => exact hs
  | cons e es ih => exact ih (hstep s e hs h.1) h.2

/-- An invariant that every step keeps. -/
theorem run_invariant_all (inv : σ → Prop) (hstep : ∀ s e, inv s → inv (step s e)) (hs : inv s)
    (es : List ε) : inv (run step es s) := by
  induction es generalizing s with
  | nil => exact hs
  | cons e es ih => exact ih (hstep s e hs)

/-- Along a run, a condition may use an invariant of the run. -/
theorem Along.of_invariant (inv : σ → Prop) {ok' : σ → ε → Prop}
    (hstep : ∀ s e, inv s → ok s e → inv (step s e))
    (hok : ∀ s e, inv s → ok s e → ok' s e) (hs : inv s) (h : Along step ok es s) :
    Along step ok' es s := by
  induction es generalizing s with
  | nil => trivial
  | cons e es ih => exact ⟨hok s e hs h.1, ih (hstep s e hs h.1) h.2⟩

/-- What each step adds to a list, a run adds event by event. -/
theorem run_gathered {α : Type*} (list : σ → List α) (added : σ → ε → List α)
    (hstep : ∀ s e, list (step s e) = list s ++ added s e) (s : σ) (es : List ε) :
    list (run step es s) = list s ++ gathered step added es s := by
  induction es generalizing s with
  | nil => rw [run_nil, gathered, List.append_nil]
  | cons e es ih => rw [run_cons, ih, hstep, gathered, List.append_assoc]

theorem gathered_eq_nil {α : Type*} {added : σ → ε → List α} :
    gathered step added es s = [] ↔ Along step (fun s e => added s e = []) es s := by
  induction es generalizing s with
  | nil => exact iff_of_true rfl trivial
  | cons e es ih => rw [gathered, List.append_eq_nil_iff, ih, Along]

theorem gathered_const {α : Type*} (added : ε → List α) :
    gathered step (fun _ => added) es s = es.flatMap added := by
  induction es generalizing s with
  | nil => rfl
  | cons e es ih => rw [gathered, ih, List.flatMap_cons]

theorem run_flatMap {α : Type*} (list : σ → List α) (added : ε → List α)
    (hstep : ∀ s e, list (step s e) = list s ++ added e) (s : σ) (es : List ε) :
    list (run step es s) = list s ++ es.flatMap added := by
  rw [run_gathered list (fun _ => added) hstep, gathered_const]

/-- What each event of some kind adds one to, counts these events of a run. -/
theorem run_countP (counter : σ → ℕ) (counted : ε → Bool)
    (hstep : ∀ s e, counter (step s e) = counter s + (counted e).toNat) (s : σ) (es : List ε) :
    counter (run step es s) = counter s + es.countP counted := by
  induction es generalizing s with
  | nil => rw [run_nil, List.countP_nil, Nat.add_zero]
  | cons e es ih =>
    rw [run_cons, ih, hstep, List.countP_cons, Nat.add_assoc, Nat.add_comm (es.countP counted)]
    cases counted e <;> rfl

/-- What a relation keeps, its chains keep. -/
theorem reflTransGen_invariant {r : σ → σ → Prop} (inv : σ → Prop)
    (hr : ∀ s t, r s t → inv s → inv t) {s t : σ} (h : Relation.ReflTransGen r s t) (hs : inv s) :
    inv t := by
  induction h with
  | refl => exact hs
  | tail _ hst ih => exact hr _ _ hst ih

/-! ## Traces -/

variable {α : Type*}

/-- Every element of the list is right, given those before it. -/
def Traced (right : List α → α → Prop) (t : List α) : Prop :=
  ∀ before a, before ++ [a] <+: t → right before a

variable {right : List α → α → Prop} {t : List α}

theorem traced_nil : Traced right [] := fun before a h => by
  simpa using List.prefix_nil.1 h

theorem traced_concat {a : α} : Traced right (t ++ [a]) ↔ Traced right t ∧ right t a := by
  constructor
  · intro h
    exact ⟨fun before b hb => h before b (hb.trans (List.prefix_append t [a])),
      h t a (List.prefix_refl _)⟩
  · rintro ⟨ht, ha⟩ before b hb
    rcases List.prefix_concat_iff.1 hb with heq | hpre
    · obtain ⟨rfl, hba⟩ := List.append_inj' heq rfl
      cases hba
      exact ha
    · exact ht before b hpre

theorem Traced.imp {right' : List α → α → Prop} (h : ∀ before a, right before a → right' before a)
    (ht : Traced right t) : Traced right' t :=
  fun before a hb => h before a (ht before a hb)

/-- Some elements come in this order in a trace: they did before its last element,
or it is the last of them. -/
theorem of_sublist_append_singleton {l : List α} {b : α} (h : l.Sublist (t ++ [b])) :
    l.Sublist t ∨ l.dropLast.Sublist t ∧ l.getLast? = some b := by
  obtain ⟨l₁, l₂, rfl, h₁, h₂⟩ := List.sublist_append_iff.1 h
  cases h₂ with
  | cons _ h₂ => exact Or.inl (by rwa [List.sublist_nil.1 h₂, List.append_nil])
  | cons_cons _ h₂ =>
    rw [List.sublist_nil.1 h₂]
    exact Or.inr ⟨by rwa [List.dropLast_concat], List.getLast?_concat⟩

end Machine
