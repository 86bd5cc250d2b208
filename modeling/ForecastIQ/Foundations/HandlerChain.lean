import Mathlib.Data.List.Basic

/-!
# Chains of middleware

A middleware does something with the state, and either goes on to the rest of the chain or
stops it; when the rest returns it does something more. A handler at the end of the chain may
panic: then what the middleware before it would have done afterwards is left out, up to the
first one that recovers (`Middleware.leave`).

Middleware that never stop can be taken off the front of a chain (`run_append_of_passing`).
-/

namespace ForecastIQ.Foundations.HandlerChain

variable {σ : Type*}

/-- How a handler ends. -/
inductive Outcome (σ : Type*) where
  | returned (s : σ)
  | panicked (s : σ)

/-- The state in which it ends. -/
def Outcome.state : Outcome σ → σ
  | returned s => s
  | panicked s => s

/-- One element of a chain. -/
structure Middleware (σ : Type*) where
  /-- What it does first, and whether it goes on. -/
  before : σ → σ × Bool
  /-- What it does when the rest of the chain has returned. -/
  after : σ → σ
  /-- What it does with a panic, if it recovers. -/
  onPanic : Option (σ → σ)

/-- One that goes on, whatever the state. -/
def Middleware.Passes (m : Middleware σ) : Prop := ∀ s, (m.before s).2 = true

/-- The way back through a middleware. -/
def Middleware.leave (m : Middleware σ) : Outcome σ → Outcome σ
  | .returned s => .returned (m.after s)
  | .panicked s =>
    match m.onPanic with
    | some f => .returned (f s)
    | none => .panicked s

@[simp] theorem Middleware.leave_returned (m : Middleware σ) (s : σ) :
    m.leave (.returned s) = .returned (m.after s) := rfl

/-- The chain, with the handler at its end. -/
def run (handler : σ → Outcome σ) : List (Middleware σ) → σ → Outcome σ
  | [], s => handler s
  | m :: ms, s => if (m.before s).2 then m.leave (run handler ms (m.before s).1) else .returned (m.before s).1

variable {handler : σ → Outcome σ}

@[simp] theorem run_nil (s : σ) : run handler [] s = handler s := rfl

theorem run_cons_of_passes {m : Middleware σ} {ms : List (Middleware σ)} {s : σ} (h : (m.before s).2 = true) :
    run handler (m :: ms) s = m.leave (run handler ms (m.before s).1) := by
  rw [run, if_pos h]

theorem run_cons_of_stops {m : Middleware σ} {ms : List (Middleware σ)} {s : σ} (h : (m.before s).2 = false) :
    run handler (m :: ms) s = .returned (m.before s).1 := by
  rw [run, if_neg (by simp [h])]

/-- The state behind middleware that go on. -/
def enter (ms : List (Middleware σ)) (s : σ) : σ := ms.foldl (fun s m => (m.before s).1) s

/-- The way back through all of them. -/
def leave (ms : List (Middleware σ)) (o : Outcome σ) : Outcome σ := ms.foldr Middleware.leave o

/-- Middleware that never stop, taken off the front. -/
theorem run_append_of_passing {ms : List (Middleware σ)} (h : ∀ m ∈ ms, m.Passes) (rest : List (Middleware σ)) (s : σ) :
    run handler (ms ++ rest) s = leave ms (run handler rest (enter ms s)) := by
  induction ms generalizing s with
  | nil => rfl
  | cons m ms ih =>
    rw [List.cons_append, run_cons_of_passes (h m List.mem_cons_self s),
      ih fun m' hm' => h m' (List.mem_cons_of_mem m hm')]
    rfl

end ForecastIQ.Foundations.HandlerChain
