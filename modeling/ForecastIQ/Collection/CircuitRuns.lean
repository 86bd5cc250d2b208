import ForecastIQ.Catalog.CircuitService
import ForecastIQ.Collection.Collect

/-!
# The circuit over runs of `Collect`

Runs of `collect`, one after another, for any providers, locations and hours. Each run
evaluates the circuit of its provider, and records the outcome of the provider call in it
when it stores the collection. A usable response that is deduplicated stores its collection
on another path, `storeDeduplicated`, and records nothing.

The ledger keeps the provider calls next to the store. The circuit of a provider is not
closed exactly when the five most recent *recorded* calls have failed
(`CallsTracked.ne_closed_iff`).
-/

namespace ForecastIQ.Collection

open ForecastIQ.Foundations ForecastIQ.Catalog

/-! ### Provider calls -/

/-- The outcomes of which the breaker hears: a usable response, a failure or a timeout. -/
def Outcome.counted (o : Outcome) : Bool := o.usable || o = .failed || o = .timeout

/-- A provider call, and whether its collection was deduplicated. -/
structure ProviderCall where
  providerID : ℕ
  outcome : Outcome
  deduplicated : Bool
  deriving DecidableEq, Repr

/-- The provider call that a run makes; a refused run makes none. -/
def providerCall (input : CollectInput) (x : Exchange) (s : Store) : Option ProviderCall :=
  match x.adapter, (collect input x s).1 with
  | some fetch, .ok coll => some ⟨input.providerID, (fetch (issuance x.now)).outcome, coll.status = .deduplicated⟩
  | _, _ => none

/-- The store, and the provider calls so far, newest first. -/
structure Ledger where
  store : Store
  calls : List ProviderCall

/-- One run. -/
def Ledger.collect (l : Ledger) (run : CollectInput × Exchange) : Ledger :=
  ⟨(Collection.collect run.1 run.2 l.store).2, (providerCall run.1 run.2 l.store).toList ++ l.calls⟩

/-- Runs one after another. -/
def ledger (s : Store) (runs : List (CollectInput × Exchange)) : Ledger := runs.foldl Ledger.collect ⟨s, []⟩

/-- The calls of a provider that have a counted outcome. -/
def countedCalls (p : ℕ) (calls : List ProviderCall) : List ProviderCall :=
  calls.filter fun c => c.providerID = p && c.outcome.counted

/-- The calls of a provider whose outcome was recorded. -/
def recordedCalls (p : ℕ) (calls : List ProviderCall) : List ProviderCall :=
  (countedCalls p calls).filter fun c => !c.deduplicated

/-- The most recent calls of the list, as many as the threshold, are there and have all failed. -/
def RecentFailed (calls : List ProviderCall) : Prop :=
  (calls.take failureThreshold).length = failureThreshold ∧
    ∀ c ∈ calls.take failureThreshold, c.outcome.isFailure = true

instance (calls : List ProviderCall) : Decidable (RecentFailed calls) := inferInstanceAs (Decidable (_ ∧ _))

/-! ### What a run does to the circuits -/

theorem persist_circuits {input : CollectInput} {x : Exchange} {collectionID : ℕ} {issuedAt : ℤ}
    {result : ForecastResult} {payloadOK : Bool} {objectKey : Option PayloadKey} {s s' : Store}
    {coll : ForecastCollection}
    (h : persist input x collectionID issuedAt result payloadOK objectKey s = some (coll, s')) :
    s'.circuits = Function.update s.circuits input.providerID
      (recordOutcome result.outcome x.completedAt (s.circuits input.providerID)) := by
  obtain ⟨stored, s1, hbatch, -, rfl⟩ := persist_inv h
  have hs1 : s1.circuits = s.circuits := by
    split_ifs at hbatch <;> cases hbatch <;> rfl
  rw [← hs1]
  rfl

/-- A deduplicated collection records nothing, any other one its outcome. -/
theorem collectResult_circuits {input : CollectInput} {x : Exchange} {issuedAt : ℤ} {result : ForecastResult}
    {s s' : Store} {coll : ForecastCollection} (h : collectResult input x issuedAt result s = (coll, s')) :
    s'.circuits = if coll.status = .deduplicated then s.circuits else
      Function.update s.circuits input.providerID
        (recordOutcome result.outcome x.completedAt (s.circuits input.providerID)) := by
  obtain ⟨payloads, hdedup | ⟨payloadOK, objectKey, hpersist⟩⟩ := collectResult_inv h
  · cases hdedup
    rfl
  · have hne : coll.status ≠ .deduplicated := by
      rw [(persist_payload hpersist).2.2.1]
      exact Outcome.status_ne_deduplicated _
    rw [if_neg hne, persist_circuits hpersist]

/-- Everything a run can do to the circuits, with the call it makes. -/
inductive CircuitStep (input : CollectInput) (x : Exchange) (circuits : Circuits) :
    Option ProviderCall → Circuits → Prop where
  /-- The run stops before the circuit. -/
  | refused : CircuitStep input x circuits none circuits
  /-- The circuit stops the run. -/
  | opened : CircuitStep input x circuits none (evaluate circuits input.providerID x.now).2
  /-- The response is usable and its collection is deduplicated. -/
  | deduplicated {outcome : Outcome} : outcome.usable = true → CircuitStep input x circuits
      (some ⟨input.providerID, outcome, true⟩) (evaluate circuits input.providerID x.now).2
  /-- The outcome is recorded. -/
  | recorded {outcome : Outcome} : CircuitStep input x circuits (some ⟨input.providerID, outcome, false⟩)
      (Function.update (evaluate circuits input.providerID x.now).2 input.providerID
        (recordOutcome outcome x.completedAt ((evaluate circuits input.providerID x.now).2 input.providerID)))

theorem circuitStep (input : CollectInput) (x : Exchange) (s : Store) :
    CircuitStep input x s.circuits (providerCall input x s) (collect input x s).2.circuits := by
  have heval : Function.update s.circuits input.providerID ((s.circuits input.providerID).evaluate x.now).2 =
      (evaluate s.circuits input.providerID x.now).2 := (evaluate_snd _ _ _).symm
  unfold providerCall
  cases hx : x.adapter with
  | none =>
    simp only [collect, hx]
    split_ifs <;> exact .refused
  | some fetch =>
    simp only [collect, hx]
    split_ifs with hinactive hallowed
    · exact .refused
    · rcases hr : collectResult input x (issuance x.now) (fetch (issuance x.now))
        (s.setCircuit input.providerID ((s.circuits input.providerID).evaluate x.now).2) with ⟨coll, s'⟩
      have hcircuits := collectResult_circuits hr
      simp only [Store.setCircuit, heval] at hcircuits
      by_cases hd : coll.status = .deduplicated
      · rw [if_pos hd] at hcircuits
        simp only [hd, decide_true, hcircuits]
        refine .deduplicated ?_
        obtain ⟨-, -, -, -, -, ⟨hu, -⟩ | ⟨-, hst, -⟩⟩ := collectResult_cases hr
        · exact hu
        · exact absurd (hst.symm.trans hd) (Outcome.status_ne_deduplicated _)
      · rw [if_neg hd] at hcircuits
        simp only [hd, decide_false, hcircuits]
        exact .recorded
    · simp only [Store.setCircuit, heval]
      exact .opened

/-! ### The circuit and the recorded calls -/

/-- The failed calls at the head of the recorded ones. -/
def recentFailures (p : ℕ) (calls : List ProviderCall) : List ProviderCall :=
  (recordedCalls p calls).takeWhile fun c => c.outcome.isFailure

/-- The circuit went through operations with that many failures since the last success. -/
def HasFailures (c : ProviderCircuit) (n : ℕ) : Prop := ∃ ops, c.Tracks ops ∧ (failuresSinceSuccess ops).length = n

theorem HasFailures.evaluate {circuits : Circuits} {p n : ℕ} (h : HasFailures (circuits p) n) (q : ℕ) (now : ℤ) :
    HasFailures ((Catalog.evaluate circuits q now).2 p) n := by
  obtain ⟨ops, htracks, hlen⟩ := h
  rw [evaluate_snd]
  by_cases hq : p = q
  · subst hq
    rw [Function.update_self]
    refine ⟨ops ++ [CircuitOp.evaluate now], htracks.evaluate now, ?_⟩
    rw [failuresSinceSuccess_evaluate, hlen]
  · rw [Function.update_of_ne hq]
    exact ⟨ops, htracks, hlen⟩

theorem HasFailures.recordSuccess {c : ProviderCircuit} {n : ℕ} (h : HasFailures c n) :
    HasFailures c.applySuccess 0 := by
  obtain ⟨ops, -, -⟩ := h
  exact ⟨ops ++ [.recordSuccess 0], .applySuccess ops 0, by simp⟩

theorem HasFailures.recordFailure {c : ProviderCircuit} {n : ℕ} (h : HasFailures c n) (now : ℤ) :
    HasFailures (c.applyFailure now) (n + 1) := by
  obtain ⟨ops, htracks, rfl⟩ := h
  exact ⟨ops ++ [.recordFailure now], htracks.applyFailure now, by simp⟩

/-- What the provider calls say of the circuit of a provider. -/
structure CallsTracked (circuits : Circuits) (calls : List ProviderCall) (p : ℕ) : Prop where
  failures : HasFailures (circuits p) (recentFailures p calls).length
  /-- Only usable responses are deduplicated. -/
  usable : ∀ c ∈ calls, c.deduplicated = true → c.outcome.usable = true

theorem Outcome.isFailure_of_usable {o : Outcome} (h : o.usable = true) : o.isFailure = false := by
  cases o <;> first | rfl | cases h

/-- A call that is not recorded for the provider leaves its recent failures. -/
theorem recentFailures_cons_of_not_recorded {p : ℕ} {calls : List ProviderCall} {c : ProviderCall}
    (h : (c.providerID = p && c.outcome.counted && !c.deduplicated) = false) :
    recentFailures p (c :: calls) = recentFailures p calls := by
  unfold recentFailures recordedCalls countedCalls
  rw [List.filter_filter, List.filter_filter, List.filter_cons_of_neg]
  rw [Bool.and_comm, h]
  decide

theorem recentFailures_cons_of_recorded {p : ℕ} {calls : List ProviderCall} {c : ProviderCall}
    (h : (c.providerID = p && c.outcome.counted && !c.deduplicated) = true) :
    recentFailures p (c :: calls) = if c.outcome.isFailure then c :: recentFailures p calls else [] := by
  unfold recentFailures recordedCalls countedCalls
  rw [List.filter_filter, List.filter_filter, List.filter_cons_of_pos, List.takeWhile_cons]
  rw [Bool.and_comm, h]

/-- A run keeps the circuit in step with the calls. -/
theorem CallsTracked.step {input : CollectInput} {x : Exchange} {circuits circuits' : Circuits}
    {call : Option ProviderCall} {calls : List ProviderCall} {p : ℕ} (h : CallsTracked circuits calls p)
    (hstep : CircuitStep input x circuits call circuits') : CallsTracked circuits' (call.toList ++ calls) p := by
  have hevaluated := h.failures.evaluate input.providerID x.now
  cases hstep with
  | refused => exact h
  | opened => exact ⟨hevaluated, h.usable⟩
  | deduplicated husable =>
    refine ⟨?_, ?_⟩
    · rw [Option.toList_some, List.singleton_append, recentFailures_cons_of_not_recorded (by simp)]
      exact hevaluated
    · rintro c hc hd
      rcases List.mem_cons.mp hc with rfl | hc
      · exact husable
      · exact h.usable c hc hd
  | @recorded outcome =>
    refine ⟨?_, ?_⟩
    · rw [Option.toList_some, List.singleton_append]
      by_cases hp : p = input.providerID
      · subst hp
        rw [Function.update_self, recordOutcome]
        by_cases hu : outcome.usable = true
        · rw [if_pos hu, recentFailures_cons_of_recorded (by simp [Outcome.counted, hu]),
            if_neg (by rw [Outcome.isFailure_of_usable hu]; decide)]
          exact hevaluated.recordSuccess
        · rw [if_neg hu]
          by_cases hf : outcome.isFailure = true
          · have hcounted : outcome.counted = true := by
              rw [Outcome.counted, Bool.or_assoc]
              exact Bool.or_eq_true_iff.mpr (.inr hf)
            rw [if_pos hf, recentFailures_cons_of_recorded (by simp [hcounted]), if_pos hf]
            exact hevaluated.recordFailure x.completedAt
          · have hcounted : outcome.counted = false := by
              rw [Outcome.counted, Bool.or_assoc, Bool.or_eq_false_iff]
              exact ⟨Bool.eq_false_iff.mpr hu, Bool.eq_false_iff.mpr hf⟩
            rw [if_neg hf, recentFailures_cons_of_not_recorded (by simp [hcounted])]
            exact hevaluated
      · rw [Function.update_of_ne hp, recentFailures_cons_of_not_recorded (by simp [Ne.symm hp])]
        exact hevaluated
    · rintro c hc hd
      rcases List.mem_cons.mp hc with rfl | hc
      · cases hd
      · exact h.usable c hc hd

/-- **The calls track the circuit over any runs**, from a store where the provider's circuit is fresh. -/
theorem callsTracked_ledger {s : Store} {p : ℕ} (h : s.circuits p = .new) (runs : List (CollectInput × Exchange)) :
    CallsTracked (ledger s runs).store.circuits (ledger s runs).calls p := by
  induction runs using List.reverseRecOn with
  | nil =>
    refine ⟨⟨[], ?_, rfl⟩, by simp [ledger]⟩
    show (s.circuits p).Tracks []
    rw [h]
    exact .init
  | append_singleton runs run ih =>
    rw [ledger, List.foldl_append, ← ledger]
    exact ih.step (circuitStep run.1 run.2 (ledger s runs).store)

/-! ### The most recent calls -/

/-- A prefix of that length satisfies the test if and only if so many elements satisfy it at the head. -/
theorem le_length_takeWhile_iff {α : Type*} (q : α → Bool) (l : List α) (n : ℕ) :
    n ≤ (l.takeWhile q).length ↔ (l.take n).length = n ∧ ∀ a ∈ l.take n, q a = true := by
  induction l generalizing n with
  | nil => cases n <;> simp
  | cons a l ih =>
    cases n with
    | zero => simp
    | succ n =>
      rw [List.takeWhile_cons, List.take_succ_cons]
      cases ha : q a <;> simp [ha, ih]

/-- A filter keeps a prefix that satisfies its test. -/
theorem take_filter_of_forall {α : Type*} {q : α → Bool} {l : List α} {n : ℕ} (h : ∀ a ∈ l.take n, q a = true) :
    (l.filter q).take n = l.take n := by
  induction l generalizing n with
  | nil => rfl
  | cons a l ih =>
    cases n with
    | zero => rfl
    | succ n =>
      rw [List.take_succ_cons] at h
      rw [List.filter_cons_of_pos (h a List.mem_cons_self), List.take_succ_cons, List.take_succ_cons,
        ih fun b hb => h b (List.mem_cons_of_mem _ hb)]

/-- The circuit is not closed exactly when the most recent recorded calls have failed. -/
theorem CallsTracked.ne_closed_iff {circuits : Circuits} {calls : List ProviderCall} {p : ℕ}
    (h : CallsTracked circuits calls p) : (circuits p).state ≠ .closed ↔ RecentFailed (recordedCalls p calls) := by
  obtain ⟨ops, htracks, hlen⟩ := h.failures
  rw [ne_eq, htracks.closed_iff, hlen, not_lt]
  exact le_length_takeWhile_iff _ _ _

/-- The response of a provider that is down. -/
def noResponse (_issuedAt : ℤ) : ForecastResult := .ofPayload []

end ForecastIQ.Collection
