import ForecastIQ.Foundations.Instant

/-!
# The circuit breaker

`internal/catalog/domain/circuit.go`: the persistent breaker of a provider. It opens
after `failureThreshold` consecutive failures, lets a probe through after `probeDelay`,
and closes on a success.
-/

namespace ForecastIQ.Catalog

open ForecastIQ.Foundations

/-- `CircuitFailureThreshold`. -/
def failureThreshold : ℕ := 5

/-- `CircuitProbeDelay`. -/
def probeDelay : ℤ := 60 * second

/-- `CircuitState`. -/
inductive CircuitState where
  | closed
  | halfOpen
  | opened
  deriving DecidableEq, Repr

/-- `ProviderCircuit`: the breaker state of one provider. -/
structure ProviderCircuit where
  state : CircuitState
  consecutiveFailures : ℕ
  lastFailureAt : Option ℤ
  openedAt : Option ℤ
  nextProbeAt : Option ℤ
  deriving DecidableEq, Repr

/-- `NewProviderCircuit`. -/
def ProviderCircuit.new : ProviderCircuit := ⟨.closed, 0, none, none, none⟩

/-- `Decision`: the outcome of evaluating a circuit before a provider call. -/
structure Decision where
  allowed : Bool
  probe : Bool
  state : CircuitState
  /-- When the circuit is open, the time of the next probe. -/
  retryAt : Option ℤ
  deriving DecidableEq, Repr

/-- `Evaluate`: the decision, and the circuit after a transition to half-open. -/
def ProviderCircuit.evaluate (c : ProviderCircuit) (now : ℤ) : Decision × ProviderCircuit :=
  match c.state with
  | .opened =>
    if c.nextProbeAt.any fun t => decide (t ≤ now) then
      (⟨true, true, .halfOpen, none⟩, { c with state := .halfOpen })
    else (⟨false, false, .opened, c.nextProbeAt⟩, c)
  | .halfOpen => (⟨true, true, .halfOpen, none⟩, c)
  | .closed => (⟨true, false, .closed, none⟩, c)

/-- `ApplySuccess`. -/
def ProviderCircuit.applySuccess (c : ProviderCircuit) : ProviderCircuit :=
  { c with state := .closed, consecutiveFailures := 0, openedAt := none, nextProbeAt := none }

/-- `ApplyFailure`. -/
def ProviderCircuit.applyFailure (c : ProviderCircuit) (now : ℤ) : ProviderCircuit :=
  let c := { c with consecutiveFailures := c.consecutiveFailures + 1, lastFailureAt := some now }
  if failureThreshold ≤ c.consecutiveFailures then
    { c with state := .opened, openedAt := some now, nextProbeAt := some (now + probeDelay) }
  else c

end ForecastIQ.Catalog
