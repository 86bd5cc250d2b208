import ForecastIQ.Foundations.Processes
import ForecastIQ.Scheduler.Slots

/-!
# Workers

Any number of scheduler instances on one slot table. A tick claims slots under a lease and
keeps the rows as they were then; each is executed when its instance has a free place,
under a deadline of its own: the run is started, the dispatcher invoked, and its outcome
written to the slot. All of this can fail, or stop with the process, at any step, and then
nothing of the outcome is written. Clocks differ between instances.

The lease starts at the claim, the deadline at the execution, and nothing relates the two.
The writes of `Complete` and `Fail` name the slot only: neither its status nor its owner is
looked at, and the number of attempts is that of the row at the claim plus one.

So long as no slot is claimed while a job on it has not ended (`LeasesHold`), a slot has one
job at a time (`WorkState.Held`), every write finds the row as the claim left it, and the attempts of the
row count the failed invocations. Invocations without a written outcome are not counted.
-/

namespace ForecastIQ.Scheduler

open ForecastIQ.Foundations

/-! ### Claims -/

/-- `MaxAttempts`. -/
def maxAttempts : ℕ := 5

/-- `retryBackoff`: 1, 2, 4, 8 and 16 seconds. -/
def retryBackoff (attempt : ℕ) : ℤ := 2 ^ (min (max attempt 1) 5 - 1) * second

/-- When a slot with so many attempts is tried again. -/
def nextRetry (attempts : ℕ) (now : ℤ) : Option ℤ :=
  if attempts < maxAttempts then some (now + retryBackoff attempts) else none

/-- The slots that `ClaimDue` takes: the oldest claimable ones that no other transaction has locked. -/
def claimIDs (w : World) (now : ℤ) (locked : List ℕ) (s : State) : List ℕ :=
  let claimable := (s.slots.filter fun r => r.claimable now && !locked.contains r.id).insertionSort
    fun a b => a.key.slotTime ≤ b.key.slotTime
  (claimable.take w.cfg.claimBatch).map Slot.id

/-- A slot that `ClaimDue` has claimed. -/
def Slot.claim (w : World) (instanceID : ℕ) (now : ℤ) (r : Slot) : Slot :=
  { r with status := .claimed, claimedBy := some instanceID, claimedAt := some now
           leaseExpiresAt := some (now + w.cfg.leaseDuration) }

/-- `ClaimDue` with `SKIP LOCKED`: the table, and the claimed slots that it returns. -/
def claimUnlocked (w : World) (instanceID : ℕ) (now : ℤ) (locked : List ℕ) (s : State) : State × List Slot :=
  let ids := claimIDs w now locked s
  ({ s with slots := s.slots.map fun r => if r.id ∈ ids then r.claim w instanceID now else r },
    (s.slots.filter fun r => r.id ∈ ids).map (Slot.claim w instanceID now))

theorem exists_of_mem_claimIDs {w : World} {now : ℤ} {locked : List ℕ} {s : State} {id : ℕ}
    (h : id ∈ claimIDs w now locked s) : ∃ r ∈ s.slots, r.id = id ∧ r.claimable now = true := by
  obtain ⟨r, hr, rfl⟩ := List.mem_map.mp h
  have hmem := (List.mem_insertionSort _).mp (List.mem_of_mem_take hr)
  rw [List.mem_filter, Bool.and_eq_true] at hmem
  exact ⟨r, hmem.1, rfl, hmem.2.1⟩

/-- A claimable slot is due, or its lease is over. -/
theorem Slot.claimable_cases {r : Slot} {now : ℤ} (h : r.claimable now = true) :
    r.status = .due ∨ (r.status = .claimed ∧ ∃ t, r.leaseExpiresAt = some t ∧ t < now) := by
  simp only [Slot.claimable, Bool.or_eq_true, Bool.and_eq_true, decide_eq_true_eq, Option.any_eq_true] at h
  rcases h with ⟨⟨h, -⟩, -⟩ | ⟨h, t, ht, hlt⟩
  · exact .inl h
  · exact .inr ⟨h, t, ht, hlt⟩

theorem Slot.status_of_claimable {r : Slot} {now : ℤ} (h : r.claimable now = true) :
    r.status ≠ .completed ∧ r.status ≠ .failed := by
  rcases Slot.claimable_cases h with hst | ⟨hst, -⟩ <;> simp [hst]

/-! ### Identifiers -/

/-- No two slots have an identifier, and those to come are new. -/
structure State.Identified (s : State) : Prop where
  nodup : (s.slots.map Slot.id).Nodup
  lt : ∀ r ∈ s.slots, r.id < s.nextID

theorem State.Identified.eq {s : State} (h : s.Identified) {a b : Slot} (ha : a ∈ s.slots) (hb : b ∈ s.slots)
    (hid : a.id = b.id) : a = b :=
  List.inj_on_of_nodup_map h.nodup ha hb hid

/-- Updating slots in place keeps their identifiers. -/
theorem State.Identified.map {s : State} (h : s.Identified) {f : Slot → Slot} (hf : ∀ r, (f r).id = r.id) :
    State.Identified { s with slots := s.slots.map f } where
  nodup := by
    have hids : s.slots.map (Slot.id ∘ f) = s.slots.map Slot.id := List.map_congr_left fun r _ => hf r
    rw [List.map_map, hids]
    exact h.nodup
  lt := by
    intro r' hr'
    obtain ⟨r, hr, rfl⟩ := List.mem_map.mp hr'
    rw [hf]
    exact h.lt r hr

/-- What a generation adds: new slots, with new identifiers. -/
theorem generateSlots_slots (w : World) (now : ℤ) (s : State) :
    ∃ added, (generateSlots w now s).slots = s.slots ++ added ∧ (added.map Slot.id).Nodup ∧
      ∀ r ∈ added, s.nextID ≤ r.id ∧ r.id < (generateSlots w now s).nextID ∧ r.status = .due ∧ r.attempts = 0 := by
  obtain ⟨added, he, hsub⟩ := insertAll_eq_append Slot.index s.slots
    ((w.wanted now).zipIdx.map fun p => newSlot now (s.nextID + p.2) p.1)
  refine ⟨added, he, (hsub.map Slot.id).nodup ?_, fun r hr => ?_⟩
  · rw [List.map_map]
    have hids : (w.wanted now).zipIdx.map (Slot.id ∘ fun p => newSlot now (s.nextID + p.2) p.1) =
        ((w.wanted now).zipIdx.map Prod.snd).map (s.nextID + ·) := by
      rw [List.map_map]
      rfl
    rw [hids, List.zipIdx_map_snd]
    exact (List.nodup_range' ..).map fun a b hab => Nat.add_left_cancel hab
  · obtain ⟨p, hp, rfl⟩ := List.mem_map.mp (hsub.subset hr)
    have hlt := List.snd_lt_of_mem_zipIdx hp
    refine ⟨Nat.le_add_right _ _, ?_, rfl, rfl⟩
    simp only [generateSlots, newSlot, List.length_map, List.length_zipIdx]
    omega

theorem State.Identified.generateSlots {s : State} (h : s.Identified) (w : World) (now : ℤ) :
    (generateSlots w now s).Identified := by
  obtain ⟨added, he, hn, hadded⟩ := generateSlots_slots w now s
  have hnext : s.nextID ≤ (Scheduler.generateSlots w now s).nextID := Nat.le_add_right _ _
  constructor
  · rw [he, List.map_append, List.nodup_append]
    refine ⟨h.nodup, hn, fun a ha b hb => ?_⟩
    obtain ⟨r, hr, rfl⟩ := List.mem_map.mp ha
    obtain ⟨r', hr', rfl⟩ := List.mem_map.mp hb
    have := h.lt r hr
    have := (hadded r' hr').1
    omega
  · intro r hr
    rw [he, List.mem_append] at hr
    rcases hr with hr | hr
    · exact Nat.lt_of_lt_of_le (h.lt r hr) hnext
    · exact (hadded r hr).2.1

/-! ### Jobs -/

/-- The settings of an instance that its jobs depend on. -/
structure Worker where
  id : ℕ
  maxConcurrent : ℕ
  jobTimeout : ℤ
  deriving DecidableEq, Repr

/-- How far the execution of a claimed slot is. -/
inductive JobPhase where
  /-- The slot waits for a free place. -/
  | queued
  /-- `execute` has started. -/
  | started (deadline : ℤ)
  /-- The dispatcher is at work. -/
  | dispatching (deadline : ℤ)
  /-- The dispatcher has returned, without an error or with one. -/
  | dispatched (deadline : ℤ) (ok : Bool)
  /-- The outcome is in the slot, or will never be. -/
  | ended (recorded : Bool)
  deriving DecidableEq, Repr

/-- The execution of a claimed slot: the row as the claim returned it, and whether the dispatcher was
invoked. -/
structure Job where
  worker : Worker
  slot : Slot
  phase : JobPhase
  invoked : Bool
  deriving DecidableEq, Repr

namespace Job

/-- A claimed slot. -/
def new (worker : Worker) (slot : Slot) : Job := ⟨worker, slot, .queued, false⟩

/-- The job has not ended. -/
def live (j : Job) : Bool :=
  match j.phase with
  | .ended _ => false
  | _ => true

/-- The job has one of the places of its instance. -/
def running (j : Job) : Bool := j.live && j.phase != .queued

/-- The invocation of the dispatcher is in progress. -/
def dispatching (j : Job) : Bool :=
  match j.phase with
  | .dispatching _ => true
  | _ => false

theorem live_of_dispatching {j : Job} (h : j.dispatching = true) : j.live = true := by
  unfold dispatching at h
  unfold live
  split at h
  · simp_all
  · cases h

end Job

/-- The jobs of the slots that `ClaimDue` returns. -/
def claimedJobs (w : World) (worker : Worker) (now : ℤ) (locked : List ℕ) (s : State) : List Job :=
  (claimUnlocked w worker.id now locked s).2.map (Job.new worker)

theorem exists_of_mem_claimedJobs {w : World} {worker : Worker} {now : ℤ} {locked : List ℕ} {s : State} {j : Job}
    (h : j ∈ claimedJobs w worker now locked s) :
    ∃ r ∈ s.slots, r.id ∈ claimIDs w now locked s ∧ j = Job.new worker (r.claim w worker.id now) := by
  obtain ⟨c, hc, rfl⟩ := List.mem_map.mp h
  obtain ⟨r, hr, rfl⟩ := List.mem_map.mp hc
  rw [List.mem_filter, decide_eq_true_eq] at hr
  exact ⟨r, hr.1, hr.2, rfl⟩

/-- A claim returns a slot once. -/
theorem State.Identified.pairwise_claimedJobs {s : State} (h : s.Identified) (w : World) (worker : Worker) (now : ℤ)
    (locked : List ℕ) : (claimedJobs w worker now locked s).Pairwise fun a b => a.slot.id ≠ b.slot.id := by
  unfold claimedJobs claimUnlocked
  rw [List.pairwise_map, List.pairwise_map]
  exact (List.pairwise_map.mp h.nodup).filter _

/-- What a job does without the slot table. -/
inductive JobMove where
  /-- A place is free, and `execute` starts. -/
  | start (now : ℤ)
  /-- The run is stored, and the dispatcher is invoked. -/
  | dispatch (now : ℤ)
  /-- The dispatcher returns. -/
  | finish (ok : Bool)
  /-- The job ends without its outcome: the run or the outcome could not be stored, the deadline is over, or the
  process stops. -/
  | drop
  deriving DecidableEq, Repr

/-- One move of a job. -/
def Job.move (j : Job) (m : JobMove) : Option Job :=
  match m, j.phase with
  | .start now, .queued => some { j with phase := .started (now + j.worker.jobTimeout) }
  | .dispatch now, .started deadline =>
    if now < deadline then some { j with phase := .dispatching deadline, invoked := true } else none
  | .finish ok, .dispatching deadline => some { j with phase := .dispatched deadline ok }
  | .drop, .ended _ => none
  | .drop, _ => some { j with phase := .ended false }
  | _, _ => none

/-- A job that moves has not ended, keeps its slot, and records nothing. -/
theorem Job.move_spec {j j' : Job} {m : JobMove} (h : j.move m = some j') :
    j.live = true ∧ j'.slot = j.slot ∧ j'.phase ≠ .ended true := by
  unfold Job.move at h
  unfold Job.live
  split at h <;> first | split_ifs at h | skip
  all_goals cases h
  all_goals simp_all

/-! ### Steps -/

/-- The slot table and the jobs so far. -/
structure WorkState where
  table : State
  jobs : List Job
  deriving DecidableEq, Repr

/-- No slot, and no job. -/
def WorkState.empty : WorkState := ⟨.empty, []⟩

/-- What happens: the two transactions of a tick, a move of a job, and the write of its outcome. -/
inductive WorkAct where
  | generate (w : World) (now : ℤ)
  | claim (w : World) (worker : Worker) (now : ℤ) (locked : List ℕ)
  | move (i : ℕ) (m : JobMove)
  | record (i : ℕ) (now : ℤ)

/-- The write of a job that the dispatcher has returned to: `Complete`, or `Fail` with the attempts of the claimed
row plus one. -/
def State.write (s : State) (runID : ℕ) (j : Job) (now : ℤ) (ok : Bool) : State :=
  if ok then complete j.slot.id runID s
  else fail j.slot.id runID (j.slot.attempts + 1) (nextRetry (j.slot.attempts + 1) now) s

/-- The places of an instance that are taken. -/
def WorkState.running (s : WorkState) (instanceID : ℕ) : ℕ :=
  s.jobs.countP fun j => j.worker.id = instanceID && j.running

/-- One step. An instance ticks again when the slots of its last claim have started, and a job starts when a place is
free; the outcome is written before the deadline. -/
def WorkState.step (s : WorkState) : WorkAct → Option WorkState
  | .generate w now => some { s with table := generateSlots w now s.table }
  | .claim w worker now locked =>
    if s.jobs.any fun j => j.worker.id = worker.id && j.phase = .queued then none
    else
      some ⟨(claimUnlocked w worker.id now locked s.table).1, s.jobs ++ claimedJobs w worker now locked s.table⟩
  | .move i m => do
    let j ← s.jobs[i]?
    guard (j.phase ≠ .queued ∨ m = .drop ∨ s.running j.worker.id < j.worker.maxConcurrent)
    let j' ← j.move m
    some { s with jobs := s.jobs.set i j' }
  | .record i now => do
    let j ← s.jobs[i]?
    match j.phase with
    | .dispatched deadline ok =>
      guard (now < deadline)
      some ⟨s.table.write i j now ok, s.jobs.set i { j with phase := .ended true }⟩
    | _ => none

/-- What a step does. -/
inductive Moves (s : WorkState) : WorkAct → WorkState → Prop
  | generate (w : World) (now : ℤ) : Moves s (.generate w now) { s with table := generateSlots w now s.table }
  | claim (w : World) (worker : Worker) (now : ℤ) (locked : List ℕ) :
    Moves s (.claim w worker now locked)
      ⟨(claimUnlocked w worker.id now locked s.table).1, s.jobs ++ claimedJobs w worker now locked s.table⟩
  | move {i : ℕ} {j j' : Job} {m : JobMove} (hj : s.jobs[i]? = some j) (hm : j.move m = some j') :
    Moves s (.move i m) { s with jobs := s.jobs.set i j' }
  | record {i : ℕ} {j : Job} {now deadline : ℤ} {ok : Bool} (hj : s.jobs[i]? = some j)
    (hphase : j.phase = .dispatched deadline ok) :
    Moves s (.record i now) ⟨s.table.write i j now ok, s.jobs.set i { j with phase := .ended true }⟩

theorem WorkState.step_cases {s s' : WorkState} {a : WorkAct} (h : s.step a = some s') : Moves s a s' := by
  cases a with
  | generate w now =>
    cases h
    exact .generate w now
  | claim w worker now locked =>
    simp only [WorkState.step] at h
    split_ifs at h
    cases h
    exact .claim w worker now locked
  | move i m =>
    simp only [WorkState.step, Option.bind_eq_bind, Option.bind_eq_some_iff] at h
    obtain ⟨j, hj, -, -, j', hm, he⟩ := h
    cases he
    exact .move hj hm
  | record i now =>
    simp only [WorkState.step, Option.bind_eq_bind, Option.bind_eq_some_iff] at h
    obtain ⟨j, hj, h⟩ := h
    split at h
    · rename_i deadline ok hphase
      simp only [Option.bind_eq_some_iff] at h
      obtain ⟨-, -, he⟩ := h
      cases he
      exact .record hj hphase
    · cases h

/-- What the write of a job does: to its slot alone, the status and the attempts. -/
theorem State.write_slots (s : State) (runID : ℕ) (j : Job) (now : ℤ) (ok : Bool) :
    ∃ f : Slot → Slot, s.write runID j now ok = { s with slots := s.slots.map f } ∧ (∀ r, (f r).id = r.id) ∧
      (∀ r, r.id ≠ j.slot.id → f r = r) ∧
      ∀ r, r.id = j.slot.id →
        (f r).status = (if ok then .completed else if j.slot.attempts + 1 < maxAttempts then .due else .failed) ∧
          (f r).attempts = if ok then r.attempts else j.slot.attempts + 1 := by
  cases ok with
  | true =>
    refine ⟨_, rfl, fun r => ?_, fun r hr => ?_, fun r hr => ?_⟩
    · split_ifs <;> rfl
    · exact if_neg hr
    · rw [if_pos hr]
      exact ⟨rfl, rfl⟩
  | false =>
    refine ⟨_, rfl, fun r => ?_, fun r hr => ?_, fun r hr => ?_⟩
    · split_ifs <;> rfl
    · exact if_neg hr
    · rw [if_pos hr]
      refine ⟨?_, rfl⟩
      simp only [nextRetry]
      split_ifs <;> simp_all

/-! ### Runs -/

/-- One state leads to another by steps that each meet a condition. -/
inductive Run (C : WorkState → WorkAct → Prop) : WorkState → WorkState → Prop
  | refl (s : WorkState) : Run C s s
  | tail {s t u : WorkState} {a : WorkAct} : Run C s t → C t a → t.step a = some u → Run C s u

/-- The states of the runs each of whose steps meets the condition. -/
abbrev WorkState.Reaches (C : WorkState → WorkAct → Prop) (s : WorkState) : Prop := Run C .empty s

/-- Any step. -/
def AnyStep (_ : WorkState) (_ : WorkAct) : Prop := True

theorem Run.any {C : WorkState → WorkAct → Prop} {s t : WorkState} (h : Run C s t) : Run AnyStep s t := by
  induction h with
  | refl => exact .refl s
  | tail _ _ hstep ih => exact ih.tail trivial hstep

theorem Run.trans {C : WorkState → WorkAct → Prop} {s t u : WorkState} (h : Run C s t) (h' : Run C t u) :
    Run C s u := by
  induction h' with
  | refl => exact h
  | tail _ hc hstep ih => exact ih.tail hc hstep

/-- The identifiers are in order, and every job is of a slot. -/
structure WorkState.Inv (s : WorkState) : Prop where
  ids : s.table.Identified
  known : ∀ j ∈ s.jobs, ∃ r ∈ s.table.slots, r.id = j.slot.id

theorem WorkState.Inv.empty : WorkState.empty.Inv where
  ids := ⟨List.nodup_nil, fun r hr => by cases hr⟩
  known := fun j hj => by cases hj

/-- Slots that are updated in place are known as before. -/
theorem exists_mem_map_id {slots : List Slot} {f : Slot → Slot} (hf : ∀ r, (f r).id = r.id) {id : ℕ}
    (h : ∃ r ∈ slots, r.id = id) : ∃ r ∈ slots.map f, r.id = id := by
  obtain ⟨r, hr, rfl⟩ := h
  exact ⟨f r, List.mem_map_of_mem hr, hf r⟩

theorem id_claim_ite (w : World) (instanceID : ℕ) (now : ℤ) (ids : List ℕ) (r : Slot) :
    (if r.id ∈ ids then r.claim w instanceID now else r).id = r.id := by
  split_ifs <;> rfl

theorem WorkState.Inv.step {s s' : WorkState} {a : WorkAct} (h : s.Inv) (hstep : s.step a = some s') : s'.Inv := by
  cases WorkState.step_cases hstep with
  | generate w now =>
    obtain ⟨added, he, -, -⟩ := generateSlots_slots w now s.table
    refine ⟨h.ids.generateSlots w now, fun j hj => ?_⟩
    obtain ⟨r, hr, hid⟩ := h.known j hj
    exact ⟨r, he ▸ List.mem_append_left _ hr, hid⟩
  | claim w worker now locked =>
    have hf := id_claim_ite w worker.id now (claimIDs w now locked s.table)
    refine ⟨h.ids.map hf, fun j hj => exists_mem_map_id hf ?_⟩
    rcases List.mem_append.mp hj with hj | hj
    · exact h.known j hj
    · obtain ⟨r, hr, -, rfl⟩ := exists_of_mem_claimedJobs hj
      exact ⟨r, hr, rfl⟩
  | @move i j j' m hj hm =>
    refine ⟨h.ids, forall_mem_set h.known ?_⟩
    rw [(Job.move_spec hm).2.1]
    exact h.known j (List.mem_of_getElem? hj)
  | @record i j now deadline ok hj hphase =>
    obtain ⟨f, he, hid, -, -⟩ := s.table.write_slots i j now ok
    rw [he]
    exact ⟨h.ids.map hid, fun k hk => exists_mem_map_id hid
      (forall_mem_set h.known (a := { j with phase := .ended true }) (h.known j (List.mem_of_getElem? hj)) k hk)⟩

theorem Run.inv {C : WorkState → WorkAct → Prop} {s t : WorkState} (h : Run C s t) (hs : s.Inv) : t.Inv := by
  induction h with
  | refl => exact hs
  | tail _ _ hstep ih => exact ih.step hstep

/-! ### Leases that hold -/

/-- No slot is claimed while a job on it has not ended though its lease has. -/
def LeasesHold (s : WorkState) : WorkAct → Prop
  | .claim w _ now locked => ∀ j ∈ s.jobs, j.live = true → j.slot.id ∈ claimIDs w now locked s.table →
      ∀ t ∈ j.slot.leaseExpiresAt, now ≤ t
  | _ => True

/-- The jobs of a slot whose outcome was written. -/
def WorkState.recorded (s : WorkState) (id : ℕ) : ℕ :=
  s.jobs.countP fun j => j.slot.id = id && j.phase = .ended true

/-- A job that ends with its outcome written. -/
theorem WorkState.recorded_end {s : WorkState} {i : ℕ} {j : Job} (hj : s.jobs[i]? = some j)
    (hphase : j.phase ≠ .ended true) (t : State) (id : ℕ) :
    WorkState.recorded ⟨t, s.jobs.set i { j with phase := .ended true }⟩ id =
      s.recorded id + if j.slot.id = id then 1 else 0 := by
  have hcount := countP_set_add hj (fun j => decide (j.slot.id = id) && decide (j.phase = .ended true))
    { j with phase := .ended true }
  simp only [hphase, decide_false, Bool.and_false, Bool.toNat_false, Nat.add_zero, decide_true, Bool.and_true] at hcount
  refine hcount.trans ?_
  by_cases hid : j.slot.id = id <;> simp [hid, WorkState.recorded]

/-- The two jobs are not at work on one slot. -/
def Job.Apart (a b : Job) : Prop := a.live = true → b.live = true → a.slot.id ≠ b.slot.id

theorem Job.Apart.symm (a b : Job) (h : a.Apart b) : b.Apart a := fun hb ha => (h ha hb).symm

/-- What holds as long as the leases do: a slot has one job at a time, which finds the row as the claim left it, and
the row counts the outcomes that were written. -/
structure WorkState.Held (s : WorkState) : Prop extends s.Inv where
  one : ForAllPairs Job.Apart s.jobs
  row : ∀ j ∈ s.jobs, j.live = true → ∀ r ∈ s.table.slots, r.id = j.slot.id →
    r.status = .claimed ∧ r.attempts = j.slot.attempts ∧ r.leaseExpiresAt = j.slot.leaseExpiresAt
  count : ∀ r ∈ s.table.slots, s.recorded r.id = r.attempts + if r.status = .completed then 1 else 0
  bound : ∀ r ∈ s.table.slots, r.attempts ≤ maxAttempts ∧ (r.status ≠ .failed → r.attempts < maxAttempts)

theorem WorkState.Held.empty : WorkState.empty.Held where
  toInv := .empty
  one := .nil
  row := fun j hj => by cases hj
  count := fun r hr => by cases hr
  bound := fun r hr => by cases hr

/-- A slot that is claimed while the leases hold has no job that has not ended. -/
theorem WorkState.Held.not_live_of_claimable {s : WorkState} (h : s.Held) {now : ℤ} {r : Slot}
    (hr : r ∈ s.table.slots) (hc : r.claimable now = true) {j : Job} (hj : j ∈ s.jobs) (hid : r.id = j.slot.id)
    (hlease : ∀ t ∈ j.slot.leaseExpiresAt, now ≤ t) : ¬ j.live = true := by
  intro hlive
  obtain ⟨hst, -, hl⟩ := h.row j hj hlive r hr hid
  rcases Slot.claimable_cases hc with hdue | ⟨-, t, ht, hlt⟩
  · rw [hst] at hdue
    cases hdue
  · have := hlease t (hl ▸ ht)
    omega

theorem WorkState.Inv.claimable {s : WorkState} (h : s.Inv) {w : World} {now : ℤ} {locked : List ℕ} {r : Slot}
    (hr : r ∈ s.table.slots) (hid : r.id ∈ claimIDs w now locked s.table) : r.claimable now = true := by
  obtain ⟨r', hr', he, hc⟩ := exists_of_mem_claimIDs hid
  rwa [← h.ids.eq hr' hr he]

section Held

variable {s : WorkState} (h : s.Held)
include h

theorem WorkState.Held.generate (w : World) (now : ℤ) :
    WorkState.Held { s with table := generateSlots w now s.table } := by
  obtain ⟨added, he, -, hadded⟩ := generateSlots_slots w now s.table
  -- the jobs are of older slots
  have hold : ∀ j ∈ s.jobs, ∀ r ∈ added, r.id ≠ j.slot.id := by
    intro j hj r hr
    obtain ⟨r', hr', hid⟩ := h.known j hj
    have := h.ids.lt r' hr'
    have := (hadded r hr).1
    omega
  refine ⟨h.toInv.step (a := .generate w now) rfl, h.one, fun j hj hlive r hr hid => ?_, fun r hr => ?_, fun r hr => ?_⟩
  all_goals
    rw [he] at hr
    rcases List.mem_append.mp hr with hr | hr
  · exact h.row j hj hlive r hr hid
  · exact absurd hid (hold j hj r hr)
  · exact h.count r hr
  · obtain ⟨-, -, hst, hat⟩ := hadded r hr
    have hnone : s.recorded r.id = 0 := by
      refine List.countP_eq_zero.mpr fun j hj => ?_
      simp [Ne.symm (hold j hj r hr)]
    rw [hst, hat]
    exact hnone
  · exact h.bound r hr
  · obtain ⟨-, -, -, hat⟩ := hadded r hr
    rw [hat]
    exact ⟨by decide, fun _ => by decide⟩

theorem WorkState.Held.claim {w : World} {worker : Worker} {now : ℤ} {locked : List ℕ} {s' : WorkState}
    (hstep : s.step (.claim w worker now locked) = some s') (hlease : LeasesHold s (.claim w worker now locked)) :
    s'.Held := by
  have hinv := h.toInv.step hstep
  cases WorkState.step_cases hstep
  have hfree : ∀ r ∈ s.table.slots, r.id ∈ claimIDs w now locked s.table → ∀ j ∈ s.jobs, j.live = true →
      r.id ≠ j.slot.id :=
    fun r hr hid j hj hlive he =>
      h.not_live_of_claimable hr (h.toInv.claimable hr hid) hj he (hlease j hj hlive (he ▸ hid)) hlive
  refine ⟨hinv, ?_, fun j hj hlive r' hr' hid => ?_, fun r' hr' => ?_, fun r' hr' => ?_⟩
  · have hnew := (h.ids.pairwise_claimedJobs w worker now locked).imp (S := Job.Apart) fun hne _ _ => hne
    refine h.one.append Job.Apart.symm (.of_pairwise Job.Apart.symm hnew) fun j hj k hk _ hlj => ?_
    obtain ⟨r, hr, hid, rfl⟩ := exists_of_mem_claimedJobs hk
    exact hfree r hr hid j hj hlj
  · obtain ⟨r, hr, rfl⟩ := List.mem_map.mp hr'
    rw [id_claim_ite] at hid
    rcases List.mem_append.mp hj with hj | hj
    · -- an older job: its slot was not claimed
      rw [if_neg fun hmem => hfree r hr hmem j hj hlive hid]
      exact h.row j hj hlive r hr hid
    · obtain ⟨r₀, hr₀, hmem, rfl⟩ := exists_of_mem_claimedJobs hj
      rw [h.ids.eq hr hr₀ hid, if_pos hmem]
      exact ⟨rfl, rfl, rfl⟩
  · obtain ⟨r, hr, rfl⟩ := List.mem_map.mp hr'
    have hsame : WorkState.recorded ⟨(claimUnlocked w worker.id now locked s.table).1,
        s.jobs ++ claimedJobs w worker now locked s.table⟩ r.id = s.recorded r.id := by
      refine List.countP_append.trans (Nat.add_eq_left.mpr (List.countP_eq_zero.mpr fun j hj => ?_))
      obtain ⟨r₀, -, -, rfl⟩ := exists_of_mem_claimedJobs hj
      simp [Job.new]
    rw [id_claim_ite, hsame, h.count r hr]
    by_cases hmem : r.id ∈ claimIDs w now locked s.table
    · rw [if_pos hmem, if_neg (Slot.status_of_claimable (h.toInv.claimable hr hmem)).1]
      rfl
    · rw [if_neg hmem]
  · obtain ⟨r, hr, rfl⟩ := List.mem_map.mp hr'
    split_ifs with hmem
    · have hst := (Slot.status_of_claimable (h.toInv.claimable hr hmem)).2
      exact ⟨(h.bound r hr).1, fun _ => (h.bound r hr).2 hst⟩
    · exact h.bound r hr

theorem WorkState.Held.move {i : ℕ} {j j' : Job} {m : JobMove} (hj : s.jobs[i]? = some j) (hm : j.move m = some j')
    (hinv : WorkState.Inv { s with jobs := s.jobs.set i j' }) : WorkState.Held { s with jobs := s.jobs.set i j' } := by
  obtain ⟨hlive, hslot, hphase⟩ := Job.move_spec hm
  have hmem := List.mem_of_getElem? hj
  refine ⟨hinv, ?_, ?_, fun r hr => ?_, h.bound⟩
  · refine h.one.set Job.Apart.symm fun k b hk hb _ hb' => ?_
    rw [hslot]
    exact h.one i k j b (Ne.symm hk) hj hb hlive hb'
  · refine forall_mem_set h.row fun _ => ?_
    rw [hslot]
    exact h.row j hmem hlive
  · have hcount := countP_set_add hj (fun j => decide (j.slot.id = r.id) && decide (j.phase = .ended true)) j'
    have hjphase : j.phase ≠ .ended true := by
      intro hp
      simp [Job.live, hp] at hlive
    simp only [hphase, hjphase, decide_false, Bool.and_false, Bool.toNat_false, Nat.add_zero] at hcount
    exact hcount.trans (h.count r hr)

theorem WorkState.Held.record {i : ℕ} {j : Job} {now deadline : ℤ} {ok : Bool} (hj : s.jobs[i]? = some j)
    (hphase : j.phase = .dispatched deadline ok)
    (hinv : WorkState.Inv ⟨s.table.write i j now ok, s.jobs.set i { j with phase := .ended true }⟩) :
    WorkState.Held ⟨s.table.write i j now ok, s.jobs.set i { j with phase := .ended true }⟩ := by
  have hlive : j.live = true := by simp [Job.live, hphase]
  have hmem := List.mem_of_getElem? hj
  obtain ⟨f, he, hid, hother, hown⟩ := s.table.write_slots i j now ok
  refine ⟨hinv, ?_, ?_, fun r' hr' => ?_, fun r' hr' => ?_⟩
  · exact h.one.set Job.Apart.symm fun k b _ _ ha => by cases ha
  · intro k hk hlk r' hr' hk'
    rw [he] at hr'
    obtain ⟨r, hr, rfl⟩ := List.mem_map.mp hr'
    rw [hid] at hk'
    obtain ⟨n, hn⟩ := List.mem_iff_getElem?.mp hk
    rcases getElem?_set_cases hn with ⟨-, rfl⟩ | ⟨hne, hn'⟩
    · cases hlk
    · have hrj : r.id ≠ j.slot.id := hk' ▸ h.one n i k j hne hn' hj hlk hlive
      rw [hother r hrj]
      exact h.row k (List.mem_of_getElem? hn') hlk r hr hk'
  · rw [he] at hr'
    obtain ⟨r, hr, rfl⟩ := List.mem_map.mp hr'
    rw [hid, WorkState.recorded_end hj (by simp [hphase]), h.count r hr]
    by_cases hrj : r.id = j.slot.id
    · obtain ⟨hst, hat, -⟩ := h.row j hmem hlive r hr hrj
      obtain ⟨hst', hat'⟩ := hown r hrj
      rw [hst', hat', hst, hat]
      cases ok
      · by_cases hlast : j.slot.attempts + 1 < maxAttempts <;> simp [hlast, hrj]
      · simp [hrj]
    · rw [hother r hrj, if_neg (Ne.symm hrj)]
      rfl
  · rw [he] at hr'
    obtain ⟨r, hr, rfl⟩ := List.mem_map.mp hr'
    by_cases hrj : r.id = j.slot.id
    · obtain ⟨hst, hat, -⟩ := h.row j hmem hlive r hr hrj
      obtain ⟨hst', hat'⟩ := hown r hrj
      have hlt : j.slot.attempts < maxAttempts := hat ▸ (h.bound r hr).2 (by simp [hst])
      rw [hst', hat', hat]
      cases ok with
      | true => exact ⟨Nat.le_of_lt hlt, fun _ => hlt⟩
      | false =>
        simp only [Bool.false_eq_true, if_false]
        split_ifs with hlast
        · exact ⟨Nat.le_of_lt hlast, fun _ => hlast⟩
        · exact ⟨hlt, fun hne => absurd rfl hne⟩
    · rw [hother r hrj]
      exact h.bound r hr

end Held

theorem WorkState.Held.step {s s' : WorkState} {a : WorkAct} (h : s.Held) (hlease : LeasesHold s a)
    (hstep : s.step a = some s') : s'.Held := by
  have hinv := h.toInv.step hstep
  cases WorkState.step_cases hstep with
  | generate w now => exact h.generate w now
  | claim w worker now locked => exact h.claim hstep hlease
  | move hj hm => exact h.move hj hm hinv
  | record hj hphase => exact h.record hj hphase hinv

theorem Run.held {s t : WorkState} (h : Run LeasesHold s t) (hs : s.Held) : t.Held := by
  induction h with
  | refl => exact hs
  | tail _ hlease hstep ih => exact ih.step hlease hstep

/-! ### Invocations of the dispatcher -/

/-- How often the dispatcher was invoked for a slot. -/
def WorkState.invocations (s : WorkState) (id : ℕ) : ℕ := s.jobs.countP fun j => j.slot.id = id && j.invoked

/-- How many of these invocations ended without a written outcome. -/
def WorkState.lost (s : WorkState) (id : ℕ) : ℕ :=
  s.jobs.countP fun j => j.slot.id = id && j.invoked && j.phase = .ended false

/-- An invocation has left its outcome, has lost it, or its job has not ended. -/
theorem WorkState.invocations_le (s : WorkState) (id : ℕ) :
    s.invocations id ≤ s.recorded id + (s.lost id + s.jobs.countP fun j => j.slot.id = id && j.live) := by
  refine Nat.le_trans (countP_le_add (q := fun j => j.slot.id = id && j.phase = .ended true)
    (r := fun j => j.slot.id = id && j.invoked && j.phase ≠ .ended true) fun j _ hj => ?_)
    (Nat.add_le_add_left (countP_le_add fun j _ hj => ?_) _)
  · simp only [Bool.and_eq_true, decide_eq_true_eq] at hj ⊢
    by_cases hp : j.phase = .ended true
    · exact .inl ⟨hj.1, hp⟩
    · exact .inr ⟨hj, hp⟩
  · simp only [Bool.and_eq_true, decide_eq_true_eq] at hj ⊢
    obtain ⟨hj, hne⟩ := hj
    unfold Job.live
    split
    · rename_i b hp
      cases b
      · exact .inl ⟨hj, hp⟩
      · exact absurd hp hne
    · exact .inr ⟨hj.1, rfl⟩

theorem WorkState.Held.invocations_le {s : WorkState} (h : s.Held) (id : ℕ) :
    s.invocations id ≤ maxAttempts + s.lost id := by
  have hsum := s.invocations_le id
  have hone : (s.jobs.countP fun j => j.slot.id = id && j.live) ≤ 1 := by
    refine ForAllPairs.countP_le_one fun i k a b hik ha hb hpa hpb => ?_
    simp only [Bool.and_eq_true, decide_eq_true_eq] at hpa hpb
    exact h.one i k a b hik ha hb hpa.2 hpb.2 (hpa.1.trans hpb.1.symm)
  by_cases hslot : ∃ r ∈ s.table.slots, r.id = id
  · obtain ⟨r, hr, rfl⟩ := hslot
    have hcount := h.count r hr
    obtain ⟨hle, hlt⟩ := h.bound r hr
    rcases Nat.eq_zero_or_pos (s.jobs.countP fun j => j.slot.id = r.id && j.live) with hz | hpos
    · by_cases hc : r.status = .completed
      · have := hlt (by simp [hc])
        rw [if_pos hc] at hcount
        omega
      · rw [if_neg hc] at hcount
        omega
    · -- a job that has not ended: the slot is claimed, so one more attempt is left
      obtain ⟨j, hj, hp⟩ := List.countP_pos_iff.mp hpos
      simp only [Bool.and_eq_true, decide_eq_true_eq] at hp
      obtain ⟨hst, -, -⟩ := h.row j hj hp.2 r hr hp.1.symm
      have := hlt (by simp [hst])
      rw [if_neg (by simp [hst])] at hcount
      omega
  · have hnone : s.invocations id = 0 := by
      refine List.countP_eq_zero.mpr fun j hj hp => hslot ?_
      simp only [Bool.and_eq_true, decide_eq_true_eq] at hp
      rw [← hp.1]
      exact h.known j hj
    omega

/-! ### Statuses and attempts -/

/-- A slot that is completed or failed stays so, and no slot has fewer attempts than before. -/
def State.Keeps (t t' : State) : Prop :=
  ∀ r ∈ t.slots, ∃ r' ∈ t'.slots, r'.id = r.id ∧
    (r.status = .completed ∨ r.status = .failed → r'.status = r.status) ∧ r.attempts ≤ r'.attempts

theorem State.Keeps.refl (t : State) : t.Keeps t := fun r hr => ⟨r, hr, rfl, fun _ => rfl, Nat.le_refl _⟩

theorem State.Keeps.trans {t u v : State} (h : t.Keeps u) (h' : u.Keeps v) : t.Keeps v := by
  intro r hr
  obtain ⟨r', hr', hid, hst, hat⟩ := h r hr
  obtain ⟨r'', hr'', hid', hst', hat'⟩ := h' r' hr'
  refine ⟨r'', hr'', hid'.trans hid, fun hend => ?_, Nat.le_trans hat hat'⟩
  have he := hst hend
  rw [← he] at hend
  exact (hst' hend).trans he

/-- The outcome of the job takes something back that the row has by now: `Complete` a failure; `Fail` a completion,
a failure if it has a retry left, or attempts that others have made. -/
def Job.overwrites (j : Job) (ok : Bool) (r : Slot) : Prop :=
  match ok with
  | true => r.status = .failed
  | false =>
    r.status = .completed ∨ (r.status = .failed ∧ j.slot.attempts + 1 < maxAttempts) ∨ j.slot.attempts + 1 < r.attempts

/-- The act writes an outcome that overwrites its row. -/
def WorkState.Overwrites (s : WorkState) : WorkAct → Prop
  | .record i _ => ∃ j deadline ok, s.jobs[i]? = some j ∧ j.phase = .dispatched deadline ok ∧
      ∃ r ∈ s.table.slots, r.id = j.slot.id ∧ j.overwrites ok r
  | _ => False

/-- A write keeps what its row has exactly if it does not overwrite it. -/
theorem State.keeps_write_iff {t : State} (h : t.Identified) (runID : ℕ) (j : Job) (now : ℤ) (ok : Bool) :
    t.Keeps (t.write runID j now ok) ↔ ∀ r ∈ t.slots, r.id = j.slot.id → ¬ j.overwrites ok r := by
  obtain ⟨f, he, hid, hother, hown⟩ := t.write_slots runID j now ok
  rw [he]
  constructor
  · intro hkeeps r hr hrj hover
    obtain ⟨r', hr', hid', hst, hat⟩ := hkeeps r hr
    obtain ⟨r₀, hr₀, rfl⟩ := List.mem_map.mp hr'
    rw [h.eq hr₀ hr ((hid r₀).symm.trans hid')] at hst hat
    obtain ⟨hst', hat'⟩ := hown r hrj
    rw [hst'] at hst
    rw [hat'] at hat
    cases ok with
    | true =>
      simp only [Job.overwrites] at hover
      simp [hover] at hst
    | false =>
      simp only [Bool.false_eq_true, if_false] at hst hat
      rcases hover with hc | ⟨hf, hlt⟩ | hlt
      · split_ifs at hst <;> simp [hc] at hst
      · simp [hf, hlt] at hst
      · omega
  · intro hno r hr
    refine ⟨f r, List.mem_map_of_mem hr, hid r, ?_⟩
    by_cases hrj : r.id = j.slot.id
    · obtain ⟨hst', hat'⟩ := hown r hrj
      have hover := hno r hr hrj
      rw [hst', hat']
      cases ok with
      | true =>
        refine ⟨fun hend => ?_, Nat.le_refl _⟩
        rcases hend with hc | hf
        · exact hc.symm
        · exact absurd hf hover
      | false =>
        simp only [Job.overwrites, not_or, not_and, Nat.not_lt] at hover
        obtain ⟨hc, hf, hle⟩ := hover
        refine ⟨fun hend => ?_, hle⟩
        have hst := hend.resolve_left hc
        simp only [Bool.false_eq_true, if_false]
        rw [if_neg (Nat.not_lt.mpr (hf hst)), hst]
    · rw [hother r hrj]
      exact ⟨fun _ => rfl, Nat.le_refl _⟩

theorem WorkState.Inv.keeps_iff {s s' : WorkState} {a : WorkAct} (h : s.Inv) (hstep : s.step a = some s') :
    s.table.Keeps s'.table ↔ ¬ s.Overwrites a := by
  cases WorkState.step_cases hstep with
  | generate w now =>
    obtain ⟨added, he, -, -⟩ := generateSlots_slots w now s.table
    refine iff_of_true (fun r hr => ?_) id
    exact ⟨r, he ▸ List.mem_append_left _ hr, rfl, fun _ => rfl, Nat.le_refl _⟩
  | claim w worker now locked =>
    refine iff_of_true (fun r hr => ⟨_, List.mem_map_of_mem hr, id_claim_ite .., ?_⟩) id
    split_ifs with hmem
    · obtain ⟨hc, hf⟩ := Slot.status_of_claimable (h.claimable hr hmem)
      exact ⟨fun hend => absurd hend (not_or.mpr ⟨hc, hf⟩), Nat.le_refl _⟩
    · exact ⟨fun _ => rfl, Nat.le_refl _⟩
  | move hj hm => exact iff_of_true (.refl _) id
  | @record i j now deadline ok hj hphase =>
    rw [State.keeps_write_iff h.ids]
    constructor
    · rintro hno ⟨j', deadline', ok', hj', hphase', r, hr, hid, hover⟩
      rw [hj, Option.some.injEq] at hj'
      subst hj'
      rw [hphase] at hphase'
      cases hphase'
      exact hno r hr hid hover
    · exact fun hno r hr hid hover => hno ⟨j, deadline, ok, hj, hphase, r, hr, hid, hover⟩

/-- A job that has its lease overwrites nothing. -/
theorem WorkState.Held.not_overwrites {s : WorkState} (h : s.Held) (a : WorkAct) : ¬ s.Overwrites a := by
  cases a with
  | record i now =>
    rintro ⟨j, deadline, ok, hj, hphase, r, hr, hid, hover⟩
    obtain ⟨hst, hat, -⟩ := h.row j (List.mem_of_getElem? hj) (by simp [Job.live, hphase]) r hr hid
    cases ok <;> simp [Job.overwrites, hst, hat] at hover
  | _ => exact id

theorem Run.keeps {s t : WorkState} (h : Run LeasesHold s t) (hs : s.Held) : s.table.Keeps t.table := by
  induction h with
  | refl => exact .refl _
  | tail hrun _ hstep ih =>
    have hheld := hrun.held hs
    exact ih.trans ((hheld.toInv.keeps_iff hstep).mpr (hheld.not_overwrites _))

/-! ### Main results -/

instance (s : WorkState) : DecidablePred (LeasesHold s) := fun a => by
  cases a <;> unfold LeasesHold <;> infer_instance

instance (s : WorkState) : DecidablePred (AnyStep s) := fun _ => .isTrue trivial

/-- The acts one after another, as long as each meets the condition. -/
def runWhile (C : WorkState → WorkAct → Prop) [∀ s, DecidablePred (C s)] (s : WorkState) (acts : List WorkAct) :
    Option WorkState :=
  acts.foldlM (fun s a => if C s a then s.step a else none) s

theorem Run.of_runWhile {C : WorkState → WorkAct → Prop} [∀ s, DecidablePred (C s)] {acts : List WorkAct}
    {s t u : WorkState} (hs : Run C s t) (h : runWhile C t acts = some u) : Run C s u := by
  refine foldlM_invariant (fun t a t' hs ht' => ?_) hs h
  split_ifs at ht' with hc
  exact hs.tail hc ht'

/-- One provider, collected at minute 59 of each hour: from the start of an hour on one slot is due. -/
def lateWorld (leaseDuration : ℤ) : World where
  cfg := ⟨none, 0, none, [], leaseDuration, 10⟩
  configs := [⟨1, 1, ⟨.hourly, 59⟩⟩]
  locations := [7]

/-- An instance with the default settings. -/
def defaultWorker (id : ℕ) : Worker := ⟨id, 8, 60 * second⟩

/-- An instance claims the due slot, and job `i` invokes the dispatcher. -/
def claimAndDispatch (leaseDuration : ℤ) (id i : ℕ) (now : ℤ) : List WorkAct :=
  [.claim (lateWorld leaseDuration) (defaultWorker id) now [], .move i (.start now), .move i (.dispatch now)]

/-- **While the leases hold, a slot is dispatched five times at most**, apart from the invocations whose outcome was
never written. -/
theorem dispatched_le {s : WorkState} (h : s.Reaches LeasesHold) (id : ℕ) :
    s.invocations id ≤ maxAttempts + s.lost id :=
  (h.held .empty).invocations_le id

/-- A failure and a retry. -/
theorem dispatched_le_retry : ∃ s : WorkState, s.Reaches LeasesHold ∧ s.invocations 0 = 2 ∧ s.lost 0 = 0 ∧
    s.invocations 0 ≤ maxAttempts + s.lost 0 := by
  have hrun : (runWhile LeasesHold .empty ([.generate (lateWorld (5 * minute)) 0] ++
      claimAndDispatch (5 * minute) 1 0 0 ++ [.move 0 (.finish false), .record 0 second] ++
      claimAndDispatch (5 * minute) 1 1 (2 * second))).map (fun s => (s.invocations 0, s.lost 0)) = some (2, 0) := by
    decide +kernel
  obtain ⟨s, hs, he⟩ := Option.map_eq_some_iff.mp hrun
  rw [Prod.mk.injEq] at he
  have hr := Run.of_runWhile (.refl _) hs
  exact ⟨s, hr, he.1, he.2, dispatched_le hr 0⟩

/-- Each invocation runs into its deadline, so its outcome cannot be written; when the lease is over, the slot is
claimed again with no attempt counted. -/
def timeouts (n : ℕ) : List WorkAct :=
  (List.range n).flatMap fun i =>
    claimAndDispatch (5 * minute) 1 i (i * (5 * minute + second)) ++ [.move i (.finish false), .move i .drop]

/-- With the default settings a slot is dispatched six times. -/
theorem dispatched_six : ∃ s : WorkState, s.Reaches LeasesHold ∧ s.invocations 0 = 6 ∧
    s.table.slots.map (fun r => (r.id, r.status, r.attempts)) = [(0, .claimed, 0), (1, .due, 0)] := by
  have hrun : (runWhile LeasesHold .empty (.generate (lateWorld (5 * minute)) 0 :: timeouts 6)).map
      (fun s => (s.invocations 0, s.table.slots.map fun r => (r.id, r.status, r.attempts))) =
      some (6, [(0, .claimed, 0), (1, .due, 0)]) := by
    decide +kernel
  obtain ⟨s, hs, he⟩ := Option.map_eq_some_iff.mp hrun
  rw [Prod.mk.injEq] at he
  exact ⟨s, Run.of_runWhile (.refl _) hs, he⟩

/-- **A slot keeps its final status and its attempts exactly in the steps that overwrite nothing**, and in every run
in which the leases hold. -/
theorem slots_progress {s : WorkState} (h : s.Reaches AnyStep) :
    (∀ a s', s.step a = some s' → (s.table.Keeps s'.table ↔ ¬ s.Overwrites a)) ∧
      (s.Reaches LeasesHold → ∀ t, Run LeasesHold s t → s.table.Keeps t.table) := by
  refine ⟨fun a s' hstep => ?_, fun hs t hrun => ?_⟩
  · exact (h.inv .empty).keeps_iff hstep
  · exact hrun.keeps (hs.held .empty)

/-- The statuses and attempts of the slots. -/
def State.statuses (t : State) : List (ℕ × SlotStatus × ℕ) := t.slots.map fun r => (r.id, r.status, r.attempts)

/-- Two runs on a fixed schedule, the second after the first. -/
theorem exists_runs (C : WorkState → WorkAct → Prop) [∀ s, DecidablePred (C s)] {β : Type} (f : WorkState → β)
    (acts acts' : List WorkAct) {x y : β}
    (h : ((runWhile C .empty acts).bind fun s => (runWhile C s acts').map fun t => (f s, f t)) = some (x, y)) :
    ∃ s t : WorkState, s.Reaches C ∧ Run C s t ∧ f s = x ∧ f t = y := by
  obtain ⟨s, hs, h⟩ := Option.bind_eq_some_iff.mp h
  obtain ⟨t, ht, h⟩ := Option.map_eq_some_iff.mp h
  rw [Prod.mk.injEq] at h
  exact ⟨s, t, .of_runWhile (.refl _) hs, .of_runWhile (.refl _) ht, h.1, h.2⟩

/-- A slot is completed, and the next one is claimed. -/
theorem slots_progress_completed : ∃ s t : WorkState, s.Reaches LeasesHold ∧ Run LeasesHold s t ∧
    s.table.statuses = [(0, .completed, 0), (1, .due, 0)] ∧ t.table.statuses = [(0, .completed, 0), (1, .claimed, 0)] ∧
    s.table.Keeps t.table := by
  obtain ⟨s, t, hs, ht, hfs, hft⟩ := exists_runs LeasesHold (fun s => s.table.statuses)
    (.generate (lateWorld (5 * minute)) 0 :: claimAndDispatch (5 * minute) 1 0 0 ++
      [.move 0 (.finish true), .record 0 second])
    (claimAndDispatch (5 * minute) 1 1 (59 * minute))
    (x := [(0, .completed, 0), (1, .due, 0)]) (y := [(0, .completed, 0), (1, .claimed, 0)]) (by decide +kernel)
  exact ⟨s, t, hs, ht, hfs, hft, (slots_progress hs.any).2 hs t ht⟩

/-- A lease of half a minute is over while the dispatcher is at work, and another instance invokes it again. -/
def expiredLease : List WorkAct :=
  .generate (lateWorld (30 * second)) 0 :: claimAndDispatch (30 * second) 1 0 0 ++
    claimAndDispatch (30 * second) 2 1 (31 * second)

/-- The second instance completes the slot; then the first one fails it, and the slot is due again. -/
theorem completed_then_due : ∃ s t : WorkState, s.Reaches AnyStep ∧ Run AnyStep s t ∧
    s.table.statuses = [(0, .completed, 0), (1, .due, 0)] ∧ t.table.statuses = [(0, .due, 1), (1, .due, 0)] ∧
    ¬ s.table.Keeps t.table := by
  obtain ⟨s, t, hs, ht, hfs, hft⟩ := exists_runs AnyStep (fun s => s.table.statuses)
    (expiredLease ++ [.move 1 (.finish true), .record 1 (32 * second)])
    [.move 0 (.finish false), .record 0 (40 * second)]
    (x := [(0, .completed, 0), (1, .due, 0)]) (y := [(0, .due, 1), (1, .due, 0)]) (by decide +kernel)
  refine ⟨s, t, hs, ht, hfs, hft, fun hkeeps => ?_⟩
  have hmem : (0, SlotStatus.completed, 0) ∈ s.table.statuses := by simp [hfs]
  obtain ⟨r, hr, he⟩ := List.mem_map.mp hmem
  simp only [Prod.mk.injEq] at he
  obtain ⟨r', hr', hid, hst, -⟩ := hkeeps r hr
  have hmem' : (r'.id, r'.status, r'.attempts) ∈ t.table.statuses := List.mem_map_of_mem hr'
  rw [hft, hid, hst (.inl he.2.1), he.1, he.2.1] at hmem'
  simp at hmem'

/-- **While the leases hold, no two invocations of the dispatcher for one slot are in progress.** -/
theorem one_invocation {s : WorkState} (h : s.Reaches LeasesHold) :
    ForAllPairs (fun a b => a.slot.id = b.slot.id → ¬ (a.dispatching = true ∧ b.dispatching = true)) s.jobs := by
  rintro i k a b hik ha hb hid ⟨hda, hdb⟩
  exact (h.held .empty).one i k a b hik ha hb (Job.live_of_dispatching hda) (Job.live_of_dispatching hdb) hid

/-- Two instances invoke the dispatcher for the two slots of an hour. -/
theorem one_invocation_two_slots : ∃ s : WorkState, s.Reaches LeasesHold ∧
    s.jobs.map (fun j => (j.slot.id, j.dispatching)) = [(0, true), (1, true)] ∧
    ForAllPairs (fun a b => a.slot.id = b.slot.id → ¬ (a.dispatching = true ∧ b.dispatching = true)) s.jobs := by
  obtain ⟨s, t, hs, ht, -, hft⟩ := exists_runs LeasesHold (fun s => s.jobs.map fun j => (j.slot.id, j.dispatching))
    (.generate (lateWorld (5 * minute)) 0 :: claimAndDispatch (5 * minute) 1 0 (58 * minute))
    (claimAndDispatch (5 * minute) 2 1 (59 * minute))
    (x := [(0, true)]) (y := [(0, true), (1, true)]) (by decide +kernel)
  exact ⟨t, hs.trans ht, hft, one_invocation (hs.trans ht)⟩

/-- With a lease shorter than the job timeout two invocations for one slot are in progress. -/
theorem two_invocations : ∃ s : WorkState, s.Reaches AnyStep ∧
    s.jobs.map (fun j => (j.slot.id, j.dispatching)) = [(0, true), (0, true)] := by
  have hrun : (runWhile AnyStep .empty expiredLease).map (fun s => s.jobs.map fun j => (j.slot.id, j.dispatching)) =
      some [(0, true), (0, true)] := by
    decide +kernel
  obtain ⟨s, hs, he⟩ := Option.map_eq_some_iff.mp hrun
  exact ⟨s, .of_runWhile (.refl _) hs, he⟩

end ForecastIQ.Scheduler
