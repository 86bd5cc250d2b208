import ForecastIQ.Catalog.CircuitService
import ForecastIQ.Foundations.Register

/-!
# The circuit under concurrent collections

`Evaluate` is a transaction of its own, and `RecordSuccess` and `RecordFailure` are part of
the transaction that stores a collection. Each reads the circuit of the provider with a plain
`SELECT` and writes it back with an unconditional upsert, under READ COMMITTED: the
transactions on the row of one provider are those of `Register`, with the operations of the
breaker. Other providers have other rows.

When transactions overlap,

* every evaluation that reads a half-open circuit is let through, so that a probe is alone
  only when nobody else evaluates (`letThrough_of_halfOpen`);
* a transaction that has read the circuit before another one recorded an outcome writes over
  that outcome, and the counter is right only as long as no such write commits
  (`concat_counts_iff`).
-/

namespace ForecastIQ.Catalog

open ForecastIQ.Foundations

/-- The transactions on the row of one provider. -/
def circuitProgram : Register.Program ProviderCircuit CircuitOp := ⟨.new, CircuitOp.apply, CircuitOp.writes⟩

/-- A committed transaction on the circuit. -/
abbrev CircuitCommit := Register.Commit ProviderCircuit CircuitOp

/-- The state of the row and its transactions. -/
abbrev CircuitRow := Register.State ProviderCircuit CircuitOp

/-! ### The probe -/

/-- The evaluation let its collection through. -/
def letThrough (c : CircuitCommit) : Bool :=
  match c.op with
  | .evaluate now => (c.value.evaluate now).1.allowed
  | _ => false

/-- The evaluation has moved the circuit from open to half-open. -/
def isProbe (c : CircuitCommit) : Bool :=
  match c.op with
  | .evaluate _ => c.wrote
  | _ => false

/-- The operation records a success or a failure. -/
def CircuitOp.isRecord : CircuitOp → Bool
  | .evaluate _ => false
  | _ => true

theorem CircuitOp.eq_evaluate_of_not_record {op : CircuitOp} (h : op.isRecord = false) : ∃ now, op = .evaluate now := by
  cases op with
  | evaluate now => exact ⟨now, rfl⟩
  | recordSuccess now => cases h
  | recordFailure now => cases h

/-- An evaluation that writes has found the circuit open with its probe due, and leaves it half-open. -/
theorem CircuitOp.evaluate_of_writes {c : ProviderCircuit} {now : ℤ} (h : (CircuitOp.evaluate now).writes c = true) :
    (c.evaluate now).1.allowed = true ∧ (c.evaluate now).2 = { c with state := .halfOpen } := by
  rcases c.evaluate_cases now with he | ⟨-, hdue, he⟩
  · simp [CircuitOp.writes, he] at h
  · exact ⟨(c.allowed_evaluate_iff now).mpr fun _ => hdue, he⟩

section Probe

variable {pre mid : List CircuitCommit} {probe : CircuitCommit}

/-- After a probe the circuit is half-open until an outcome is recorded. -/
theorem state_stateAt_probe (h : Register.IsLog circuitProgram (pre ++ probe :: mid)) (hprobe : isProbe probe = true)
    (hmid : ∀ c ∈ mid, c.op.isRecord = false) :
    (Register.stateAt circuitProgram (pre ++ probe :: mid)).state = .halfOpen := by
  -- an evaluation that writes leaves the circuit half-open
  have hwrote : ∀ (c : CircuitCommit) (log : List CircuitCommit) (now : ℤ), c.op = .evaluate now → c.wrote = true →
      c.wrote = c.op.writes c.value → (Register.stateAt circuitProgram (log ++ [c])).state = .halfOpen := by
    intro c log now hop hw hwrites
    rw [hw, hop] at hwrites
    rw [Register.stateAt_concat, if_pos hw, hop]
    show (c.value.evaluate now).2.state = .halfOpen
    rw [(CircuitOp.evaluate_of_writes hwrites.symm).2]
  induction mid using List.reverseRecOn with
  | nil =>
    unfold isProbe at hprobe
    split at hprobe
    · rename_i now hop
      exact hwrote probe pre now hop hprobe h.commit.2
    · cases hprobe
  | append_singleton mid c ih =>
    rw [← List.cons_append, ← List.append_assoc] at h ⊢
    obtain ⟨hlog, -, hwrites⟩ := h.of_concat
    obtain ⟨now, hop⟩ := CircuitOp.eq_evaluate_of_not_record (hmid c (by simp))
    by_cases hw : c.wrote = true
    · exact hwrote c _ now hop hw hwrites
    · rw [Register.stateAt_concat, if_neg hw]
      exact ih hlog fun d hd => hmid d (List.mem_append_left _ hd)

/-- Every evaluation that reads the circuit after the probe is let through. -/
theorem letThrough_of_halfOpen {c : CircuitCommit} {before after : List CircuitCommit}
    (h : Register.IsLog circuitProgram (pre ++ probe :: mid)) (hprobe : isProbe probe = true)
    (hmid : ∀ c ∈ mid, c.op.isRecord = false) (hc : mid = before ++ c :: after) (hread : pre.length < c.readAt) :
    letThrough c = true := by
  subst hc
  obtain ⟨now, hop⟩ := CircuitOp.eq_evaluate_of_not_record (hmid c (by simp))
  rw [← List.cons_append, ← List.append_assoc] at h
  obtain ⟨⟨hle, hvalue⟩, -⟩ := h.commit
  -- what it has read is the log up to some place after the probe
  obtain ⟨k, hk⟩ : ∃ k, c.readAt = pre.length + (k + 1) := ⟨c.readAt - pre.length - 1, by omega⟩
  rw [hk, List.take_length_add_append, List.take_succ_cons] at hvalue
  have hstate : c.value.state = .halfOpen := by
    rw [hvalue]
    have hlog : Register.IsLog circuitProgram (pre ++ probe :: before.take k) := by
      have hsplit : pre ++ probe :: before = pre ++ probe :: before.take k ++ before.drop k := by simp
      have hlong := h.of_append
      rw [hsplit] at hlong
      exact hlong.of_append
    exact state_stateAt_probe hlog hprobe fun d hd => hmid d (by simp [List.mem_of_mem_take hd])
  show (match c.op with | .evaluate now => (c.value.evaluate now).1.allowed | _ => false) = true
  rw [hop]
  refine (c.value.allowed_evaluate_iff now).mpr fun ho => ?_
  rw [hstate] at ho
  cases ho

theorem letThrough_of_isProbe (h : Register.IsLog circuitProgram (pre ++ probe :: mid))
    (hprobe : isProbe probe = true) : letThrough probe = true := by
  unfold isProbe at hprobe
  unfold letThrough
  split at hprobe
  · rename_i now hop
    have hwrites : probe.wrote = probe.op.writes probe.value := h.commit.2
    rw [hprobe, hop] at hwrites
    exact (CircuitOp.evaluate_of_writes hwrites.symm).1
  · cases hprobe

/-- The evaluations that are not let through found the circuit open before its probe was due. -/
theorem letThrough_eq_false_iff {c : CircuitCommit} {now : ℤ} (hop : c.op = .evaluate now) :
    letThrough c = false ↔ c.value.state = .opened ∧ ∀ t, c.value.nextProbeAt = some t → now < t := by
  have hiff := c.value.allowed_evaluate_iff now
  rw [← Bool.not_eq_true, letThrough, hop]
  simp only [hiff, Classical.not_imp, not_exists, not_and, not_le]

end Probe

/-- **When a probe is the only one.** Between a move to half-open and the next recorded outcome, at most one
evaluation is let through if and only if each of the others had read the circuit before the move,
while it was open and its probe was not due. -/
theorem probe_only_iff {s : CircuitRow} (h : s.Reachable circuitProgram) {pre mid post : List CircuitCommit}
    {probe : CircuitCommit} (hlog : s.log = pre ++ probe :: (mid ++ post)) (hprobe : isProbe probe = true)
    (hmid : ∀ c ∈ mid, c.op.isRecord = false) :
    (probe :: mid).countP letThrough ≤ 1 ↔ ∀ c ∈ mid, c.readAt ≤ pre.length ∧
      ∃ now, c.op = .evaluate now ∧ c.value.state = .opened ∧ ∀ t, c.value.nextProbeAt = some t → now < t := by
  have hvalid : Register.IsLog circuitProgram (pre ++ probe :: mid) := by
    have hall := h.inv.log
    rw [hlog, ← List.cons_append, ← List.append_assoc] at hall
    exact hall.of_append
  have hcount : (probe :: mid).countP letThrough ≤ 1 ↔ ∀ c ∈ mid, letThrough c = false := by
    rw [List.countP_cons_of_pos (letThrough_of_isProbe hvalid hprobe), Nat.succ_le_succ_iff, Nat.le_zero,
      List.countP_eq_zero]
    simp only [Bool.not_eq_true]
  rw [hcount]
  refine forall₂_congr fun c hc => ?_
  obtain ⟨now, hop⟩ := CircuitOp.eq_evaluate_of_not_record (hmid c hc)
  constructor
  · intro hrefused
    refine ⟨?_, now, hop, (letThrough_eq_false_iff hop).mp hrefused⟩
    by_contra hread
    obtain ⟨before, after, hsplit⟩ := List.append_of_mem hc
    rw [letThrough_of_halfOpen hvalid hprobe hmid hsplit (not_le.mp hread)] at hrefused
    cases hrefused
  · rintro ⟨-, now', hop', hopen⟩
    exact (letThrough_eq_false_iff hop').mpr hopen

/-- The statements of five failures recorded one after another. -/
def fiveFailures : List (Register.Act CircuitOp) :=
  (List.range 5).flatMap fun i => [.beginTx (.recordFailure 0), .read i, .write i, .commit i]

/-- Their log. -/
def fiveFailuresLog : List CircuitCommit :=
  (List.range 5).map fun i =>
    ⟨.recordFailure 0, (List.replicate i (.recordFailure 0)).foldl CircuitOp.apply .new, i, true⟩

/-- The circuit they leave. -/
def openedAtZero : ProviderCircuit := ⟨.opened, 5, some 0, some 0, some probeDelay⟩

/-- An evaluation that has read the open circuit too early commits after the probe, and is refused. -/
theorem probe_only_early : ∃ s : CircuitRow, s.Reachable circuitProgram ∧ ∃ pre probe mid,
    s.log = pre ++ probe :: (mid ++ []) ∧ mid ≠ [] ∧ (probe :: mid).countP letThrough ≤ 1 := by
  let acts : List (Register.Act CircuitOp) := fiveFailures ++ [.beginTx (.evaluate 1), .read 5,
    .beginTx (.evaluate probeDelay), .read 6, .write 6, .commit 6, .commit 5]
  let probe : CircuitCommit := ⟨.evaluate probeDelay, openedAtZero, 5, true⟩
  let early : CircuitCommit := ⟨.evaluate 1, openedAtZero, 5, false⟩
  have hlog : ((Register.State.empty circuitProgram).run circuitProgram acts).map Register.State.log =
      some (fiveFailuresLog ++ probe :: ([early] ++ [])) := by decide +kernel
  obtain ⟨s, hrun, hlog⟩ := Option.map_eq_some_iff.mp hlog
  refine ⟨s, ⟨acts, hrun⟩, fiveFailuresLog, probe, [early], hlog, by simp, ?_⟩
  refine (probe_only_iff ⟨acts, hrun⟩ hlog rfl (by decide)).mpr fun c hc => ?_
  rw [List.mem_singleton.mp hc]
  refine ⟨by decide, 1, rfl, rfl, fun t ht => ?_⟩
  cases ht
  decide

/-- Two collections are let through between the move to half-open and the first recorded outcome. -/
theorem second_probe : ∃ s : CircuitRow, s.Reachable circuitProgram ∧ ∃ pre probe mid,
    s.log = pre ++ probe :: mid ∧ isProbe probe = true ∧ (∀ c ∈ mid, c.op.isRecord = false) ∧
      (probe :: mid).countP letThrough = 2 := by
  let acts : List (Register.Act CircuitOp) := fiveFailures ++ [.beginTx (.evaluate probeDelay), .read 5, .write 5,
    .commit 5, .beginTx (.evaluate probeDelay), .read 6, .commit 6]
  let probe : CircuitCommit := ⟨.evaluate probeDelay, openedAtZero, 5, true⟩
  let second : CircuitCommit := ⟨.evaluate probeDelay, { openedAtZero with state := .halfOpen }, 6, false⟩
  have hlog : ((Register.State.empty circuitProgram).run circuitProgram acts).map Register.State.log =
      some (fiveFailuresLog ++ [probe, second]) := by decide +kernel
  obtain ⟨s, hrun, hlog⟩ := Option.map_eq_some_iff.mp hlog
  exact ⟨s, ⟨acts, hrun⟩, fiveFailuresLog, probe, [second], hlog, rfl, by decide, by decide⟩

/-! ### The counter -/

/-- The operations of the committed transactions, in order of commit. -/
def committedOps (log : List CircuitCommit) : List CircuitOp := log.map Register.Commit.op

/-- The transaction writes over a success that committed after its read, with what it makes of the row before. -/
def overwritesSuccess (pre : List CircuitCommit) (c : CircuitCommit) : Bool :=
  c.wrote && !c.op.isSuccess && (pre.drop c.readAt).any fun d => d.op.isSuccess

/-- The counter of the row is the number of failures committed after the last committed success. -/
def Counts (log : List CircuitCommit) : Prop :=
  (Register.stateAt circuitProgram log).consecutiveFailures = (failuresSinceSuccess (committedOps log)).length

/-- The transaction writes a row that no outcome was recorded in since it had read it; a success may write
whatever was recorded. -/
def IsCurrent (pre : List CircuitCommit) (c : CircuitCommit) : Prop :=
  c.wrote = true → c.op.isSuccess = false → ∀ d ∈ pre.drop c.readAt, d.op.isRecord = false

theorem CircuitOp.isRecord_eq (op : CircuitOp) : op.isRecord = (op.isSuccess || op.failureAt.isSome) := by
  cases op <;> rfl

/-- Without a success among them, later operations add their failures. -/
theorem failuresSinceSuccess_append {ops more : List CircuitOp} (h : ∀ op ∈ more, op.isSuccess = false) :
    failuresSinceSuccess (ops ++ more) = more.reverse.filterMap CircuitOp.failureAt ++ failuresSinceSuccess ops := by
  unfold failuresSinceSuccess
  rw [List.reverse_append, List.takeWhile_append_of_pos, List.filterMap_append]
  intro op hop
  rw [h op (List.mem_reverse.mp hop)]
  rfl

/-- Without a success among them, later operations leave the number of failures if they record none. -/
theorem length_failuresSinceSuccess_append_iff {ops more : List CircuitOp} (h : ∀ op ∈ more, op.isSuccess = false) :
    (failuresSinceSuccess ops).length = (failuresSinceSuccess (ops ++ more)).length ↔
      ∀ op ∈ more, op.isRecord = false := by
  rw [failuresSinceSuccess_append h, List.length_append, Nat.right_eq_add, List.length_eq_zero_iff,
    List.filterMap_eq_nil_iff]
  simp only [List.mem_reverse]
  refine forall₂_congr fun op hop => ?_
  rw [op.isRecord_eq, h op hop, Bool.false_or, Option.isSome_eq_false_iff, Option.isNone_iff_eq_none]

/-- A write that carries the counter over from its read carries the right one, and overwrites no success, if the row
that it read is current. -/
theorem carried_iff {log : List CircuitCommit} {c : CircuitCommit} (hw : c.wrote = true)
    (hs : c.op.isSuccess = false) :
    (failuresSinceSuccess (committedOps (log.take c.readAt))).length =
        (failuresSinceSuccess (committedOps log)).length ∧ overwritesSuccess log c = false ↔ IsCurrent log c := by
  have hsplit : committedOps (log.take c.readAt) ++ committedOps (log.drop c.readAt) = committedOps log := by
    rw [committedOps, committedOps, committedOps, ← List.map_append, List.take_append_drop]
  have hover : overwritesSuccess log c = false ↔ ∀ op ∈ committedOps (log.drop c.readAt), op.isSuccess = false := by
    rw [committedOps, List.forall_mem_map]
    simp [overwritesSuccess, hw, hs]
  have hcurrent : IsCurrent log c ↔ ∀ op ∈ committedOps (log.drop c.readAt), op.isRecord = false := by
    rw [committedOps, List.forall_mem_map]
    simp [IsCurrent, hw, hs]
  rw [hover, hcurrent, ← hsplit]
  constructor
  · rintro ⟨hlen, hno⟩
    exact (length_failuresSinceSuccess_append_iff hno).mp hlen
  · intro hrec
    have hno : ∀ op ∈ committedOps (log.drop c.readAt), op.isSuccess = false := by
      intro op hop
      have := hrec op hop
      rw [op.isRecord_eq, Bool.or_eq_false_iff] at this
      exact this.1
    exact ⟨(length_failuresSinceSuccess_append_iff hno).mpr hrec, hno⟩

/-- **One more commit keeps the counter right, and overwrites no success, if it writes a current row.** -/
theorem concat_counts_iff {log : List CircuitCommit} {c : CircuitCommit}
    (h : Register.IsLog circuitProgram (log ++ [c])) (hcounts : ∀ pre, pre <+: log → Counts pre) :
    Counts (log ++ [c]) ∧ overwritesSuccess log c = false ↔ IsCurrent log c := by
  obtain ⟨-, ⟨-, hvalue⟩, hwrote⟩ := h.of_concat
  have hops : committedOps (log ++ [c]) = committedOps log ++ [c.op] := List.map_append ..
  have hread : c.value.consecutiveFailures = (failuresSinceSuccess (committedOps (log.take c.readAt))).length := by
    rw [hvalue]
    exact hcounts _ (List.take_prefix _ _)
  unfold Counts
  rw [Register.stateAt_concat, hops]
  cases hop : c.op with
  | evaluate now =>
    rw [failuresSinceSuccess_evaluate]
    by_cases hw : c.wrote = true
    · rw [← carried_iff hw (by rw [hop]; rfl), if_pos hw, ← hread]
      have hwrites : c.wrote = c.op.writes c.value := hwrote
      rw [hw, hop] at hwrites
      have happly : circuitProgram.apply c.value (.evaluate now) = { c.value with state := .halfOpen } :=
        (CircuitOp.evaluate_of_writes hwrites.symm).2
      rw [happly]
    · rw [if_neg hw]
      refine iff_of_true ⟨hcounts log (List.prefix_refl _), ?_⟩ fun hw' => absurd hw' hw
      simp [overwritesSuccess, hw]
  | recordSuccess now =>
    have hw : c.wrote = true := by
      rw [hwrote, hop]
      rfl
    rw [failuresSinceSuccess_recordSuccess, if_pos hw]
    refine iff_of_true ⟨rfl, ?_⟩ fun _ hs => ?_
    · simp [overwritesSuccess, hop, CircuitOp.isSuccess]
    · rw [hop] at hs
      cases hs
  | recordFailure now =>
    have hw : c.wrote = true := by
      rw [hwrote, hop]
      rfl
    have hcount : (circuitProgram.apply c.value (.recordFailure now)).consecutiveFailures =
        c.value.consecutiveFailures + 1 := c.value.consecutiveFailures_applyFailure now
    rw [← carried_iff hw (by rw [hop]; rfl), if_pos hw, hcount, failuresSinceSuccess_recordFailure, List.length_cons,
      Nat.add_right_cancel_iff, hread]

/-- The counter is right after every commit, and no success is overwritten, if every write is of a current row. -/
theorem counts_iff {log : List CircuitCommit} (h : Register.IsLog circuitProgram log) :
    (∀ pre, pre <+: log → Counts pre) ∧ Register.EachCommit (fun pre c => overwritesSuccess pre c = false) log ↔
      Register.EachCommit IsCurrent log := by
  induction log using List.reverseRecOn with
  | nil =>
    refine iff_of_true ⟨fun pre hpre => ?_, Register.eachCommit_nil _⟩ (Register.eachCommit_nil _)
    rw [List.prefix_nil.mp hpre]
    rfl
  | append_singleton log c ih =>
    have hprefix : (∀ pre, pre <+: log ++ [c] → Counts pre) ↔
        (∀ pre, pre <+: log → Counts pre) ∧ Counts (log ++ [c]) := by
      simp only [List.prefix_concat_iff, or_imp, forall_and, forall_eq]
      exact and_comm
    rw [Register.eachCommit_concat, Register.eachCommit_concat, hprefix, ← ih h.of_concat.1]
    constructor
    · rintro ⟨⟨hcounts, hlast⟩, hover, hc⟩
      exact ⟨⟨hcounts, hover⟩, (concat_counts_iff h hcounts).mp ⟨hlast, hc⟩⟩
    · rintro ⟨⟨hcounts, hover⟩, hc⟩
      obtain ⟨hlast, hc⟩ := (concat_counts_iff h hcounts).mpr hc
      exact ⟨⟨hcounts, hlast⟩, hover, hc⟩

/-- **When the stored counter is right.** Throughout a run the stored counter is the number of failures committed
since the last committed success, and no committed success is overwritten from an older row, if
and only if no failure and no probe is written over an outcome recorded since its read. -/
theorem consecutiveFailures_right_iff {acts : List (Register.Act CircuitOp)} {s : CircuitRow}
    (h : (Register.State.empty circuitProgram).run circuitProgram acts = some s) :
    ((∀ acts' s', acts' <+: acts → (Register.State.empty circuitProgram).run circuitProgram acts' = some s' →
        s'.value.consecutiveFailures = (failuresSinceSuccess (committedOps s'.log)).length) ∧
      Register.EachCommit (fun pre c => overwritesSuccess pre c = false) s.log) ↔
    Register.EachCommit IsCurrent s.log := by
  rw [← counts_iff (Register.State.inv_of_run h).log, ← Register.State.forall_run_iff h Counts]
  refine and_congr_left' (forall₄_congr fun acts' s' _ hs' => ?_)
  rw [Counts, ← (Register.State.inv_of_run hs').value]

/-- A success that had read the row before a failure was recorded in it. -/
theorem consecutiveFailures_right_success : ∃ s : CircuitRow, s.Reachable circuitProgram ∧
    s.value.consecutiveFailures = (failuresSinceSuccess (committedOps s.log)).length ∧ s.log.length = 2 := by
  let acts : List (Register.Act CircuitOp) := [.beginTx (.recordFailure 0), .beginTx (.recordSuccess 0), .read 0,
    .read 1, .write 0, .commit 0, .write 1, .commit 1]
  have hlog : ((Register.State.empty circuitProgram).run circuitProgram acts).map Register.State.log =
      some ([] ++ [⟨.recordFailure 0, .new, 0, true⟩] ++ [⟨.recordSuccess 0, .new, 0, true⟩]) := by decide +kernel
  obtain ⟨s, hrun, hlog⟩ := Option.map_eq_some_iff.mp hlog
  have hright := (consecutiveFailures_right_iff hrun).mpr (by
    rw [hlog, Register.eachCommit_concat, Register.eachCommit_concat]
    exact ⟨⟨Register.eachCommit_nil _, by simp [IsCurrent]⟩, by simp [IsCurrent, CircuitOp.isSuccess]⟩)
  exact ⟨s, ⟨acts, hrun⟩, hright.1 acts s (List.prefix_refl _) hrun, by rw [hlog]; rfl⟩

/-- A failure that had read the row before a success was recorded in it counts on from the older row. -/
theorem success_overwritten : ∃ s : CircuitRow, s.Reachable circuitProgram ∧ s.value.consecutiveFailures = 2 ∧
    (failuresSinceSuccess (committedOps s.log)).length = 1 ∧
    ¬ Register.EachCommit (fun pre c => overwritesSuccess pre c = false) s.log := by
  let acts : List (Register.Act CircuitOp) := [.beginTx (.recordFailure 0), .read 0, .write 0, .commit 0,
    .beginTx (.recordFailure 1), .read 1, .beginTx (.recordSuccess 2), .read 2, .write 2, .commit 2, .write 1,
    .commit 1]
  let failing : ProviderCircuit := ⟨.closed, 1, some 0, none, none⟩
  have hlog : ((Register.State.empty circuitProgram).run circuitProgram acts).map
      (fun s => (s.value.consecutiveFailures, s.log)) =
      some (2, [⟨.recordFailure 0, .new, 0, true⟩, ⟨.recordSuccess 2, failing, 1, true⟩,
        ⟨.recordFailure 1, failing, 1, true⟩]) := by decide +kernel
  obtain ⟨s, hrun, hlog⟩ := Option.map_eq_some_iff.mp hlog
  obtain ⟨hcount, hlog⟩ := Prod.mk.injEq .. ▸ hlog
  refine ⟨s, ⟨acts, hrun⟩, hcount, by rw [hlog]; rfl, fun hnone => ?_⟩
  have hover := hnone [_, _] _ [] hlog
  revert hover
  decide

end ForecastIQ.Catalog
