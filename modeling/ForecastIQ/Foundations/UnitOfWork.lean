import Mathlib.Data.List.Basic

/-!
# Calls that fail, and units of work

A program makes its calls in a fixed order under a context that can be cancelled. A call that ends in
an error may have had its effect all the same: the answer to a `COMMIT` can be lost. `Faults` says how
each call ends by itself, and under which call the context is cancelled. From then on a call that
heeds the context is refused (`Faults.refused_of_lt`), and what comes before a call that is not
refused has gone as it does by itself (`Faults.outcome_eq_own`).

`unitOfWork` is a transaction: what its body does is kept when the commit takes effect, and dropped
otherwise.
-/

namespace ForecastIQ.Foundations

/-! ### Calls -/

/-- How a call ends. -/
inductive CallOutcome where
  | done
  /-- An error, without effect. -/
  | refused
  /-- An error, although the call had its effect. -/
  | unanswered
  deriving DecidableEq

/-- The place of each call in the program, and whether it heeds the context. -/
structure CallOrder (ι : Type*) where
  position : ι → ℕ
  heeds : ι → Bool

/-- What goes wrong. -/
structure Faults (ι : Type*) where
  /-- How the call ends by itself. -/
  own : ι → CallOutcome
  /-- The context is cancelled before the call at this place is answered. -/
  cancelledAt : Option ℕ
  /-- That call has its effect. -/
  reached : Bool

variable {ι : Type*}

/-- How the call ends. -/
def Faults.outcome (f : Faults ι) (order : CallOrder ι) (i : ι) : CallOutcome :=
  if order.heeds i then
    match f.cancelledAt with
    | none => f.own i
    | some p =>
      if order.position i < p then f.own i
      else if order.position i = p ∧ f.reached then .unanswered
      else .refused
  else f.own i

/-- The context was not cancelled before a call that is not refused. -/
theorem Faults.outcome_eq_own {f : Faults ι} {order : CallOrder ι} {i j : ι} (hj : order.heeds j = true)
    (hlt : order.position i < order.position j) (h : f.outcome order j ≠ .refused) : f.outcome order i = f.own i := by
  unfold Faults.outcome at h ⊢
  rw [if_pos hj] at h
  split_ifs with hi
  · cases hp : f.cancelledAt with
    | none => rfl
    | some p =>
      rw [hp] at h
      have hle : order.position j ≤ p := by
        by_contra hgt
        exact h (by simp only [show ¬ order.position j < p by omega, show order.position j ≠ p by omega, if_false,
          false_and])
      exact if_pos (by omega)
  · rfl

/-- Once the context has interfered, it goes on. -/
theorem Faults.refused_of_lt {f : Faults ι} {order : CallOrder ι} {i j : ι} (hj : order.heeds j = true)
    (hlt : order.position i < order.position j) (h : f.outcome order i ≠ f.own i) : f.outcome order j = .refused :=
  Classical.byContradiction fun hne => h (outcome_eq_own hj hlt hne)

/-! ### Transactions -/

variable {ε σ α : Type*}

/-- A call that is not done fails with the error. -/
def attempt (o : CallOutcome) (e : ε) (x : Except ε α) : Except ε α := if o = .done then x else .error e

theorem attempt_eq_ok_iff {o : CallOutcome} {e : ε} {x : Except ε α} {a : α} :
    attempt o e x = .ok a ↔ o = .done ∧ x = .ok a := by
  unfold attempt
  split_ifs with h <;> simp [h]

/-- A transaction: it begins, does its work and commits. -/
def unitOfWork (commence commit : CallOutcome) (unbegun uncommitted : ε) (body : σ → Except ε σ) (s : σ) :
    σ × Except ε Unit :=
  if commence = .done then
    match body s with
    | .error e => (s, .error e)
    | .ok t =>
      match commit with
      | .done => (t, .ok ())
      | .refused => (s, .error uncommitted)
      | .unanswered => (t, .error uncommitted)
  else (s, .error unbegun)

/-- It leaves the state as it was, as one of its parts has failed; or the work is done and the commit took
effect. -/
theorem unitOfWork_cases (commence commit : CallOutcome) (unbegun uncommitted : ε) (body : σ → Except ε σ) (s : σ) :
    (∃ e, unitOfWork commence commit unbegun uncommitted body s = (s, .error e)) ∧
        ¬ (commence = .done ∧ (∃ t, body s = .ok t) ∧ commit ≠ .refused) ∨
      ∃ t, commence = .done ∧ body s = .ok t ∧
        (commit = .done ∧ unitOfWork commence commit unbegun uncommitted body s = (t, .ok ()) ∨
          commit = .unanswered ∧ unitOfWork commence commit unbegun uncommitted body s = (t, .error uncommitted)) := by
  unfold unitOfWork
  split_ifs with hbegun
  · cases hbody : body s with
    | error e => exact .inl ⟨⟨e, rfl⟩, fun ⟨_, ⟨t, ht⟩, _⟩ => nomatch ht⟩
    | ok t =>
      cases commit with
      | done => exact .inr ⟨t, hbegun, rfl, .inl ⟨rfl, rfl⟩⟩
      | refused => exact .inl ⟨⟨uncommitted, rfl⟩, fun h => h.2.2 rfl⟩
      | unanswered => exact .inr ⟨t, hbegun, rfl, .inr ⟨rfl, rfl⟩⟩
  · exact .inl ⟨⟨unbegun, rfl⟩, fun h => hbegun h.1⟩

end ForecastIQ.Foundations
