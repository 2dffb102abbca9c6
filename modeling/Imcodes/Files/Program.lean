import Mathlib.Logic.Basic

/-!
# Programs that make requests

A program is done, or it makes a request and goes on with the answer.  It says nothing about who
answers: a world may answer it alone, request by request, or between the requests of others.

* `run_bind` — a world that answers one program after the other.
* `Asks.run_snd` — a program whose requests leave the world alone leaves it alone.
* `ensures_bind` — what holds after a program whatever it is answered.
* `Ensures.run` — it holds when a world answers.
-/

variable {ρ : Type} {answer : ρ → Type} {α β σ : Type}

/-- A program with requests of `ρ`. -/
inductive Program (ρ : Type) (answer : ρ → Type) (α : Type)
  | done (a : α)
  | request (r : ρ) (next : answer r → Program ρ answer α)

namespace Program

/-- One program, and then another with what the first gave. -/
def andThen : Program ρ answer α → (α → Program ρ answer β) → Program ρ answer β
  | done a, f => f a
  | request r next, f => request r fun a => (next a).andThen f

instance : Monad (Program ρ answer) where
  pure := done
  bind := andThen

/-- One request. -/
def ask (r : ρ) : Program ρ answer (answer r) := request r done

@[simp] theorem pure_eq (a : α) : (pure a : Program ρ answer α) = done a := rfl

@[simp] theorem done_bind (a : α) (f : α → Program ρ answer β) : done a >>= f = f a := rfl

@[simp] theorem request_bind (r : ρ) (next : answer r → Program ρ answer α)
    (f : α → Program ρ answer β) :
    request r next >>= f = request r fun a => next a >>= f := rfl

@[simp] theorem ask_bind (r : ρ) (f : answer r → Program ρ answer β) :
    ask r >>= f = request r f := rfl

/-! ## One world -/

variable (perform : (r : ρ) → σ → answer r × σ)

/-- A world answers every request of a program. -/
def run : Program ρ answer α → σ → α × σ
  | done a, world => (a, world)
  | request r next, world => (next (perform r world).1).run (perform r world).2

@[simp] theorem run_done (a : α) (world : σ) :
    (done a : Program ρ answer α).run perform world = (a, world) := rfl

@[simp] theorem run_request (r : ρ) (next : answer r → Program ρ answer α) (world : σ) :
    (request r next).run perform world =
      (next (perform r world).1).run perform (perform r world).2 := rfl

/-- A world answers one program after the other. -/
theorem run_bind (p : Program ρ answer α) (f : α → Program ρ answer β) (world : σ) :
    (p >>= f).run perform world =
      (f (p.run perform world).1).run perform (p.run perform world).2 := by
  induction p generalizing world with
  | done a => rfl
  | request r next ih => exact ih _ _

/-- A program that makes only such requests. -/
def Asks (ok : ρ → Prop) : Program ρ answer α → Prop
  | done _ => True
  | request r next => ok r ∧ ∀ a, (next a).Asks ok

theorem asks_bind {ok : ρ → Prop} {p : Program ρ answer α} {f : α → Program ρ answer β}
    (hp : p.Asks ok) (hf : ∀ a, (f a).Asks ok) : (p >>= f).Asks ok := by
  induction p with
  | done a => exact hf a
  | request r next ih => exact ⟨hp.1, fun a => ih a (hp.2 a)⟩

/-- A program whose requests leave the world alone leaves it alone. -/
theorem Asks.run_snd {perform : (r : ρ) → σ → answer r × σ} {ok : ρ → Prop}
    {p : Program ρ answer α} (h : p.Asks ok)
    (hperform : ∀ r world, ok r → (perform r world).2 = world) (world : σ) :
    (p.run perform world).2 = world := by
  induction p with
  | done a => rfl
  | request r next ih =>
    rw [run_request, hperform r world h.1]
    exact ih _ (h.2 _)

/-! ## Whatever the answers -/

/-- What a program was answered, oldest first. -/
abbrev Answers (ρ : Type) (answer : ρ → Type) := List (Σ r : ρ, answer r)

/-- Whatever a program is answered, it ends with what `post` says of all answers. -/
def Ensures (post : Answers ρ answer → α → Prop) : Program ρ answer α → Answers ρ answer → Prop
  | done a, answers => post answers a
  | request r next, answers => ∀ a, (next a).Ensures post (answers ++ [⟨r, a⟩])

variable {post post' : Answers ρ answer → α → Prop} {answers : Answers ρ answer}

theorem Ensures.of_forall {p : Program ρ answer α} (h : ∀ answers a, post answers a) :
    p.Ensures post answers := by
  induction p generalizing answers with
  | done a => exact h _ _
  | request r next ih => exact fun a => ih a

theorem Ensures.imp {p : Program ρ answer α} (h : p.Ensures post answers)
    (hpost : ∀ answers a, post answers a → post' answers a) : p.Ensures post' answers := by
  induction p generalizing answers with
  | done a => exact hpost _ _ h
  | request r next ih => exact fun a => ih a (h a)

/-- One program after the other, whatever they are answered. -/
theorem ensures_bind {p : Program ρ answer α} {f : α → Program ρ answer β}
    {post : Answers ρ answer → β → Prop} :
    (p >>= f).Ensures post answers ↔
      p.Ensures (fun answers a => (f a).Ensures post answers) answers := by
  induction p generalizing answers with
  | done a => rfl
  | request r next ih => exact forall_congr' fun a => ih a

/-- **What holds whatever the answers holds in every world.** -/
theorem Ensures.run {p : Program ρ answer α} {post : α → Prop}
    (h : p.Ensures (fun _ => post) answers) (world : σ) : post (p.run perform world).1 := by
  induction p generalizing answers world with
  | done a => exact h
  | request r next ih => exact ih _ (h _) _

end Program
