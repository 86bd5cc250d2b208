import ForecastIQ.Catalog.Circuit
import Mathlib.Logic.Function.Basic
import Mathlib.Data.List.Induction

/-!
# The circuit service

`internal/catalog/circuit_service.go` on the rows of `provider_circuits`, one call after
another. Each call reads the provider's circuit, applies one operation of the breaker, and
writes the circuit back; `Evaluate` writes only when it has moved the circuit to half-open.
A provider without a row has a fresh circuit.

What the breaker knows of the past is the list of the failures recorded since the last
success, `failuresSinceSuccess`: its length is the stored counter, the breaker is closed as
long as the list is shorter than the threshold, and the probe time is the probe delay after
its first element (`Tracks`).

`Tracks.allowed_iff` says from the past alone when `Evaluate` lets a collection through. Only the
times of the evaluations have to be in order: the times of the records may be anything, in
particular what is left of a clock reading in the column.
-/

namespace ForecastIQ.Catalog

open ForecastIQ.Foundations

/-! ### Operations -/

/-- What a call does to the circuit of its provider, and when. -/
inductive CircuitOp where
  | evaluate (now : ℤ)
  | recordSuccess (now : ℤ)
  | recordFailure (now : ℤ)
  deriving DecidableEq, Repr

/-- The circuit that the call leaves in memory. -/
def CircuitOp.apply (c : ProviderCircuit) : CircuitOp → ProviderCircuit
  | .evaluate now => (c.evaluate now).2
  | .recordSuccess _ => c.applySuccess
  | .recordFailure now => c.applyFailure now

/-- The call writes the circuit back. -/
def CircuitOp.writes (c : ProviderCircuit) : CircuitOp → Bool
  | .evaluate now => (c.evaluate now).2.state ≠ c.state
  | .recordSuccess _ => true
  | .recordFailure _ => true

/-- The call records a success. -/
def CircuitOp.isSuccess : CircuitOp → Bool
  | .recordSuccess _ => true
  | _ => false

/-- The time of the failure that the call records. -/
def CircuitOp.failureAt : CircuitOp → Option ℤ
  | .recordFailure now => some now
  | _ => none

/-- What a call that does not write leaves in memory is what it has read. -/
theorem CircuitOp.apply_of_not_writes {c : ProviderCircuit} {op : CircuitOp} (h : op.writes c = false) :
    op.apply c = c := by
  cases op with
  | evaluate now =>
    have hstate : (c.evaluate now).2.state = c.state := by simpa [CircuitOp.writes] using h
    show (c.evaluate now).2 = c
    unfold ProviderCircuit.evaluate at hstate ⊢
    split at hstate
    · rename_i ho
      split_ifs at hstate ⊢
      · rw [ho] at hstate
        cases hstate
      · rfl
    · rfl
    · rfl
  | recordSuccess now => cases h
  | recordFailure now => cases h

/-! ### The service -/

/-- `Transition`: what a record did to the breaker. -/
structure Transition where
  providerID : ℕ
  changed : Bool
  old : CircuitState
  new : CircuitState
  consecutiveFailures : ℕ
  deriving DecidableEq, Repr

/-- The rows of `provider_circuits`; `Get` of a missing row is a fresh circuit. -/
abbrev Circuits := ℕ → ProviderCircuit

/-- `Evaluate`. -/
def evaluate (s : Circuits) (providerID : ℕ) (now : ℤ) : Decision × Circuits :=
  let (decision, circuit) := (s providerID).evaluate now
  (decision, if circuit.state ≠ (s providerID).state then Function.update s providerID circuit else s)

/-- The body that `RecordSuccess` and `RecordFailure` share. -/
def record (s : Circuits) (providerID : ℕ) (op : CircuitOp) : Transition × Circuits :=
  let prev := (s providerID).state
  let circuit := op.apply (s providerID)
  (⟨providerID, prev ≠ circuit.state, prev, circuit.state, circuit.consecutiveFailures⟩,
    Function.update s providerID circuit)

/-- `RecordSuccess`. -/
def recordSuccess (s : Circuits) (providerID : ℕ) (now : ℤ) : Transition × Circuits :=
  record s providerID (.recordSuccess now)

/-- `RecordFailure`. -/
def recordFailure (s : Circuits) (providerID : ℕ) (now : ℤ) : Transition × Circuits :=
  record s providerID (.recordFailure now)

/-- One call of the service. -/
structure CircuitCall where
  providerID : ℕ
  op : CircuitOp
  deriving DecidableEq, Repr

/-- The rows after a call. -/
def CircuitCall.perform (s : Circuits) (call : CircuitCall) : Circuits :=
  match call.op with
  | .evaluate now => (evaluate s call.providerID now).2
  | .recordSuccess now => (recordSuccess s call.providerID now).2
  | .recordFailure now => (recordFailure s call.providerID now).2

/-- The rows after the calls, one after another, from an empty table. -/
def afterCalls (calls : List CircuitCall) : Circuits := calls.foldl CircuitCall.perform fun _ => .new

/-- What the calls of one provider do. -/
def opsOf (providerID : ℕ) (calls : List CircuitCall) : List CircuitOp :=
  (calls.filter fun c => c.providerID = providerID).map CircuitCall.op

theorem evaluate_snd (s : Circuits) (p : ℕ) (now : ℤ) :
    (evaluate s p now).2 = Function.update s p ((CircuitOp.evaluate now).apply (s p)) := by
  show (if ((s p).evaluate now).2.state ≠ (s p).state then Function.update s p ((s p).evaluate now).2 else s) = _
  split_ifs with hstate
  · rfl
  · have heq : (CircuitOp.evaluate now).apply (s p) = s p := by
      apply CircuitOp.apply_of_not_writes
      simpa [CircuitOp.writes] using hstate
    rw [heq, Function.update_eq_self]

/-- A call applies its operation to the circuit of its provider, and leaves the others. -/
theorem CircuitCall.perform_eq (s : Circuits) (call : CircuitCall) :
    call.perform s = Function.update s call.providerID (call.op.apply (s call.providerID)) := by
  obtain ⟨providerID, op⟩ := call
  cases op with
  | evaluate now => exact evaluate_snd s providerID now
  | recordSuccess now => rfl
  | recordFailure now => rfl

/-- The circuit of a provider depends on its own calls only. -/
theorem afterCalls_apply (calls : List CircuitCall) (p : ℕ) :
    afterCalls calls p = (opsOf p calls).foldl CircuitOp.apply .new := by
  induction calls using List.reverseRecOn with
  | nil => rfl
  | append_singleton calls call ih =>
    rw [afterCalls, List.foldl_append, ← afterCalls, List.foldl_cons, List.foldl_nil, CircuitCall.perform_eq, opsOf,
      List.filter_append, List.map_append, ← opsOf, List.foldl_append, ← ih]
    by_cases h : call.providerID = p
    · subst h
      simp
    · rw [Function.update_of_ne (Ne.symm h)]
      simp [h]

/-! ### What the breaker knows of the past -/

/-- The times of the failures recorded after the last success, newest first. -/
def failuresSinceSuccess (ops : List CircuitOp) : List ℤ :=
  (ops.reverse.takeWhile fun op => !op.isSuccess).filterMap CircuitOp.failureAt

/-- The time of the last recorded failure. -/
def lastFailure (ops : List CircuitOp) : Option ℤ := (ops.reverse.filterMap CircuitOp.failureAt).head?

section History

variable (ops : List CircuitOp) (now : ℤ)

@[simp] theorem failuresSinceSuccess_evaluate :
    failuresSinceSuccess (ops ++ [.evaluate now]) = failuresSinceSuccess ops := by
  unfold failuresSinceSuccess
  rw [List.reverse_append]
  rfl

@[simp] theorem failuresSinceSuccess_recordSuccess : failuresSinceSuccess (ops ++ [.recordSuccess now]) = [] := by
  simp [failuresSinceSuccess, CircuitOp.isSuccess]

@[simp] theorem failuresSinceSuccess_recordFailure :
    failuresSinceSuccess (ops ++ [.recordFailure now]) = now :: failuresSinceSuccess ops := by
  unfold failuresSinceSuccess
  rw [List.reverse_append]
  rfl

end History

/-- The last failure since the last success is the last failure. -/
theorem lastFailure_eq_head {ops : List CircuitOp} {f : ℤ} {fs : List ℤ} (h : failuresSinceSuccess ops = f :: fs) :
    lastFailure ops = some f := by
  obtain ⟨rest, hrest⟩ := List.takeWhile_prefix (l := ops.reverse) (fun op => !op.isSuccess)
  rw [lastFailure, ← hrest, List.filterMap_append]
  unfold failuresSinceSuccess at h
  rw [h]
  rfl

/-- What the circuit holds of the operations it went through. -/
structure ProviderCircuit.Tracks (c : ProviderCircuit) (ops : List CircuitOp) : Prop where
  consecutiveFailures : c.consecutiveFailures = (failuresSinceSuccess ops).length
  closed_iff : c.state = .closed ↔ (failuresSinceSuccess ops).length < failureThreshold
  nextProbeAt : c.state ≠ .closed → c.nextProbeAt = (failuresSinceSuccess ops).head?.map (· + probeDelay)
  /-- A half-open circuit was evaluated when its probe was due. -/
  evaluated : c.state = .halfOpen → ∃ now, .evaluate now ∈ ops ∧ ∀ t ∈ c.nextProbeAt, t ≤ now

namespace ProviderCircuit

theorem Tracks.init : ProviderCircuit.new.Tracks [] where
  consecutiveFailures := rfl
  closed_iff := by decide
  nextProbeAt h := absurd rfl h
  evaluated h := by cases h

@[simp] theorem consecutiveFailures_applyFailure (c : ProviderCircuit) (now : ℤ) :
    (c.applyFailure now).consecutiveFailures = c.consecutiveFailures + 1 := by
  simp only [applyFailure]
  split_ifs <;> rfl

/-- What `evaluate` can do: nothing, or move an open circuit whose probe is due to half-open. -/
theorem evaluate_cases (c : ProviderCircuit) (now : ℤ) :
    (c.evaluate now).2 = c ∨ (c.state = .opened ∧ (∃ t, c.nextProbeAt = some t ∧ t ≤ now) ∧
      (c.evaluate now).2 = { c with state := .halfOpen }) := by
  unfold evaluate
  split
  · rename_i ho
    split_ifs with h
    · rw [Option.any_eq_true] at h
      obtain ⟨t, ht, hle⟩ := h
      exact .inr ⟨ho, ⟨t, ht, of_decide_eq_true hle⟩, rfl⟩
    · exact .inl rfl
  · exact .inl rfl
  · exact .inl rfl

/-- Evaluation refuses an open circuit before its probe is due, and nothing else. -/
theorem allowed_evaluate_iff (c : ProviderCircuit) (now : ℤ) :
    (c.evaluate now).1.allowed = true ↔ c.state = .opened → ∃ t, c.nextProbeAt = some t ∧ t ≤ now := by
  unfold evaluate
  split
  · rename_i ho
    split_ifs with h
    · rw [Option.any_eq_true] at h
      simpa [ho] using h
    · rw [Option.any_eq_true] at h
      simpa [ho] using h
  · rename_i ho
    simp [ho]
  · rename_i ho
    simp [ho]

theorem Tracks.evaluate {c : ProviderCircuit} {ops : List CircuitOp} (h : c.Tracks ops) (now : ℤ) :
    (c.evaluate now).2.Tracks (ops ++ [.evaluate now]) := by
  rcases c.evaluate_cases now with he | ⟨ho, ⟨t, ht, hle⟩, he⟩
  · rw [he]
    refine ⟨?_, ?_, ?_, fun hs => ?_⟩
    · simpa using h.consecutiveFailures
    · simpa using h.closed_iff
    · simpa using h.nextProbeAt
    · obtain ⟨seen, hmem, hle⟩ := h.evaluated hs
      exact ⟨seen, List.mem_append_left _ hmem, hle⟩
  · have hne : c.state ≠ .closed := by
      rw [ho]
      decide
    rw [he]
    refine ⟨?_, ?_, fun _ => ?_, fun _ => ⟨now, by simp, fun q hq => ?_⟩⟩
    · simpa using h.consecutiveFailures
    · have hlen := mt h.closed_iff.mpr hne
      simpa using hlen
    · simpa using h.nextProbeAt hne
    · rw [Option.mem_def, ht, Option.some.injEq] at hq
      rwa [← hq]

theorem Tracks.applySuccess {c : ProviderCircuit} (ops : List CircuitOp) (now : ℤ) :
    c.applySuccess.Tracks (ops ++ [.recordSuccess now]) := by
  refine ⟨?_, ?_, fun h => absurd rfl h, fun h => ?_⟩
  · simp [ProviderCircuit.applySuccess]
  · simp [ProviderCircuit.applySuccess, failureThreshold]
  · cases h

theorem Tracks.applyFailure {c : ProviderCircuit} {ops : List CircuitOp} (h : c.Tracks ops) (now : ℤ) :
    (c.applyFailure now).Tracks (ops ++ [.recordFailure now]) := by
  have hcount := h.consecutiveFailures
  simp only [ProviderCircuit.applyFailure]
  split_ifs with hth
  · refine ⟨?_, ?_, fun _ => ?_, fun hs => ?_⟩
    · simp [hcount]
    · have : failureThreshold ≤ (failuresSinceSuccess ops).length + 1 := hcount ▸ hth
      simpa using this
    · simp
    · cases hs
  · -- below the threshold the circuit was closed, and stays so
    have hlt : (failuresSinceSuccess ops).length + 1 < failureThreshold := by
      rw [← hcount]
      exact not_le.mp hth
    have hclosed : c.state = .closed := h.closed_iff.mpr (by omega)
    refine ⟨?_, ?_, fun hs => absurd hclosed hs, fun hs => ?_⟩
    · simp [hcount]
    · simpa [hclosed] using hlt
    · rw [show c.state = .halfOpen from hs] at hclosed
      cases hclosed

/-- **The circuit tracks the operations**, one after another from a fresh circuit. -/
theorem tracks_foldl (ops : List CircuitOp) : (ops.foldl CircuitOp.apply .new).Tracks ops := by
  induction ops using List.reverseRecOn with
  | nil => exact Tracks.init
  | append_singleton ops op ih =>
    rw [List.foldl_append, List.foldl_cons, List.foldl_nil]
    cases op with
    | evaluate now => exact ih.evaluate now
    | recordSuccess now => exact Tracks.applySuccess ops now
    | recordFailure now => exact ih.applyFailure now

/-- A tracking circuit lets an evaluation through while the failures are few, and when the last one is
long enough ago. -/
theorem Tracks.allowed_iff {c : ProviderCircuit} {ops : List CircuitOp} (h : c.Tracks ops) {t : ℤ}
    (hmono : ∀ now, .evaluate now ∈ ops → now ≤ t) :
    (c.evaluate t).1.allowed = true ↔ (failuresSinceSuccess ops).length < failureThreshold ∨
      ∃ f, lastFailure ops = some f ∧ f + probeDelay ≤ t := by
  rw [allowed_evaluate_iff]
  by_cases hclosed : c.state = .closed
  · refine iff_of_true (fun ho => ?_) (.inl (h.closed_iff.mp hclosed))
    rw [hclosed] at ho
    cases ho
  · have hlong := mt h.closed_iff.mpr hclosed
    obtain ⟨f, fs, hfs⟩ : ∃ f fs, failuresSinceSuccess ops = f :: fs := by
      refine List.exists_cons_of_length_pos ?_
      unfold failureThreshold at hlong
      omega
    have hprobe : c.nextProbeAt = some (f + probeDelay) := by
      rw [h.nextProbeAt hclosed, hfs]
      rfl
    have hright : ((failuresSinceSuccess ops).length < failureThreshold ∨
        ∃ f, lastFailure ops = some f ∧ f + probeDelay ≤ t) ↔ f + probeDelay ≤ t := by
      simp [hlong, lastFailure_eq_head hfs]
    rw [hright, hprobe]
    simp only [Option.some.injEq, exists_eq_left']
    refine ⟨fun hopen => ?_, fun hle _ => hle⟩
    cases hs : c.state with
    | closed => exact absurd hs hclosed
    | opened => exact hopen hs
    | halfOpen =>
      obtain ⟨now, hmem, hle⟩ := h.evaluated hs
      exact (hle _ hprobe).trans (hmono now hmem)

end ProviderCircuit

/-- **When `Evaluate` lets a collection through**, said of the calls before it: fewer failures than
the threshold since the last success, or the probe delay has passed since the last failure. -/
theorem evaluate_allowed_iff (calls : List CircuitCall) (p : ℕ) (t : ℤ)
    (hmono : ∀ now, ⟨p, .evaluate now⟩ ∈ calls → now ≤ t) :
    (evaluate (afterCalls calls) p t).1.allowed = true ↔
      (failuresSinceSuccess (opsOf p calls)).length < failureThreshold ∨
        ∃ f, lastFailure (opsOf p calls) = some f ∧ f + probeDelay ≤ t := by
  show ((afterCalls calls p).evaluate t).1.allowed = true ↔ _
  rw [afterCalls_apply]
  refine (ProviderCircuit.tracks_foldl _).allowed_iff fun now hmem => hmono now ?_
  obtain ⟨⟨q, op⟩, hcall, rfl⟩ := List.mem_map.mp hmem
  obtain ⟨hcall, hq⟩ := List.mem_filter.mp hcall
  rwa [← of_decide_eq_true hq]

/-- Five failures, a probe a minute after the last of them, and another evaluation after it. -/
theorem evaluate_allowed_probe :
    (evaluate (afterCalls ((List.replicate 5 ⟨1, .recordFailure 0⟩) ++ [⟨1, .evaluate probeDelay⟩])) 1
      (probeDelay + 1)).1.allowed = true :=
  (evaluate_allowed_iff _ 1 _ (by simp)).mpr (.inr ⟨0, by decide, by decide⟩)

end ForecastIQ.Catalog
