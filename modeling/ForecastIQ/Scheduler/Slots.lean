import ForecastIQ.Catalog.Configuration
import ForecastIQ.Foundations.Table
import Mathlib.Data.List.Chain
import Mathlib.Data.List.Sort

/-!
# Slots

`internal/scheduler` on the slot table: every tick generates the slots of the previous
and the current hour for each active configuration and location, and then claims due
slots; a dispatched slot is later completed or failed. Generating a slot that exists
does nothing.

The documentation counts the hours of an outage as missed slots. The generation window,
however, reaches back one hour only, so after a longer outage the hours in between have
no slot at all: `no_missed_slot_iff` says that every scheduled instant up to a tick has
its slot exactly when no two consecutive ticks are more than two clock hours apart.
-/

namespace ForecastIQ.Scheduler

open ForecastIQ.Foundations ForecastIQ.Catalog

/-- The job types. -/
inductive JobType where
  | forecastCollection
  | observationCollection
  | analysisBatch
  deriving DecidableEq, Repr

/-- The slot statuses. -/
inductive SlotStatus where
  | due
  | claimed
  | completed
  | failed
  | expired
  deriving DecidableEq, Repr

/-- The columns of the unique index on slots. A global job has no location, and the index takes
two absent locations as equal. -/
structure SlotKey where
  providerConfigurationID : ℕ
  jobType : JobType
  locationID : Option ℕ
  slotTime : ℤ
  deriving DecidableEq, Repr

/-- `Slot`: one scheduled unit of work. -/
structure Slot where
  id : ℕ
  key : SlotKey
  status : SlotStatus
  claimedBy : Option ℕ
  claimedAt : Option ℤ
  leaseExpiresAt : Option ℤ
  attempts : ℕ
  nextRetryAt : Option ℤ
  scheduleRunID : Option ℕ
  createdAt : ℤ
  deriving DecidableEq, Repr

/-- The index of the slot table. -/
def Slot.index (s : Slot) : Option SlotKey := some s.key

/-- The settings of a scheduler; a job without an owning configuration is not scheduled. -/
structure Config where
  observationConfigID : Option ℕ
  observationMinuteOffset : ℤ
  analysisConfigID : Option ℕ
  analysisMinuteOffsets : List ℤ
  leaseDuration : ℤ
  claimBatch : ℕ
  deriving DecidableEq, Repr

/-- What a tick reads of the catalog: the active configurations and locations. -/
structure World where
  cfg : Config
  configs : List ProviderConfiguration
  locations : List ℕ

/-- The slot table and the next identifier. -/
structure State where
  slots : List Slot
  nextID : ℕ
  deriving DecidableEq, Repr

/-- The table before the first tick. -/
def State.empty : State := ⟨[], 0⟩

/-! ### Generation -/

/-- `analysisSlotTimes`: the minutes of each hour of the window, `:10` and `:40` by default. -/
def analysisSlotTimes (start stop : ℤ) (offsets : List ℤ) : List ℤ :=
  let offsets := if offsets = [] then [10, 40] else offsets
  (everyHour stop ((stop - start) / hour + 2).toNat (truncateHour start)).flatMap fun h =>
    (offsets.map fun off => h + off * minute).filter fun t => start ≤ t ∧ t < stop

/-- The keys of `generateSlots` for one scheduled job at every location. -/
def keysAt (configID : ℕ) (job : JobType) (times : List ℤ) (locations : List ℕ) : List SlotKey :=
  times.flatMap fun t => locations.map fun l => ⟨configID, job, some l, t⟩

/-- The keys that a tick at `now` generates, in order. -/
def World.wanted (w : World) (now : ℤ) : List SlotKey :=
  let start := truncateHour now - hour
  let stop := truncateHour now + hour
  if w.locations = [] then []
  else
    (w.configs.flatMap fun c =>
      keysAt c.id .forecastCollection (c.collectionSchedule.slotTimes start stop) w.locations) ++
    (match w.cfg.observationConfigID with
      | some id =>
        keysAt id .observationCollection (Schedule.slotTimes ⟨.hourly, w.cfg.observationMinuteOffset⟩ start stop)
          w.locations
      | none => []) ++
    (match w.cfg.analysisConfigID with
      | some id =>
        (analysisSlotTimes start stop w.cfg.analysisMinuteOffsets).map fun t => ⟨id, .analysisBatch, none, t⟩
      | none => [])

/-- A new slot. -/
def newSlot (now : ℤ) (id : ℕ) (key : SlotKey) : Slot := ⟨id, key, .due, none, none, none, 0, none, none, now⟩

/-- `generateSlots`: insert the slots of the window that do not exist yet. -/
def generateSlots (w : World) (now : ℤ) (s : State) : State :=
  let rows := (w.wanted now).zipIdx.map fun p => newSlot now (s.nextID + p.2) p.1
  { slots := insertAll Slot.index s.slots rows, nextID := s.nextID + rows.length }

/-! ### Claiming and finishing -/

/-- The predicate of `ClaimDue`: due and past its retry time, or claimed under an expired lease. -/
def Slot.claimable (s : Slot) (now : ℤ) : Bool :=
  (s.status = .due && s.key.slotTime ≤ now && s.nextRetryAt.all fun t => t ≤ now) ||
    (s.status = .claimed && s.leaseExpiresAt.any fun t => t < now)

/-- `ClaimDue`: claim the oldest claimable slots for an instance. -/
def claimDue (w : World) (instanceID : ℕ) (now : ℤ) (s : State) : State :=
  let claimable := (s.slots.filter fun r => r.claimable now).insertionSort fun a b => a.key.slotTime ≤ b.key.slotTime
  let ids := (claimable.take w.cfg.claimBatch).map Slot.id
  { s with slots := s.slots.map fun r =>
      if r.id ∈ ids then
        { r with status := .claimed, claimedBy := some instanceID, claimedAt := some now
                 leaseExpiresAt := some (now + w.cfg.leaseDuration) }
      else r }

/-- `Complete`. -/
def complete (slotID runID : ℕ) (s : State) : State :=
  { s with slots := s.slots.map fun r =>
      if r.id = slotID then { r with status := .completed, scheduleRunID := some runID } else r }

/-- `Fail`: back to due with a retry time, or failed without one. -/
def fail (slotID runID attempts : ℕ) (nextRetryAt : Option ℤ) (s : State) : State :=
  { s with slots := s.slots.map fun r =>
      if r.id = slotID then
        { r with status := if nextRetryAt.isSome then .due else .failed, attempts := attempts
                 nextRetryAt := nextRetryAt, scheduleRunID := some runID, claimedBy := none, claimedAt := none
                 leaseExpiresAt := none }
      else r }

/-- What happens to the slot table: a tick of an instance, and a finished job. -/
inductive Event where
  | tick (instanceID : ℕ) (now : ℤ)
  | completed (slotID runID : ℕ)
  | failed (slotID runID attempts : ℕ) (nextRetryAt : Option ℤ)
  deriving DecidableEq, Repr

/-- One event. -/
def step (w : World) (s : State) : Event → State
  | .tick instanceID now => claimDue w instanceID now (generateSlots w now s)
  | .completed slotID runID => complete slotID runID s
  | .failed slotID runID attempts nextRetryAt => fail slotID runID attempts nextRetryAt s

/-- The events of a run, one after another. -/
def run (w : World) (s : State) (events : List Event) : State := events.foldl (step w) s

/-- The tick times of a run. -/
def tickTimes (events : List Event) : List ℤ :=
  events.filterMap fun e => match e with
    | .tick _ now => some now
    | _ => none

/-! ### Which slots a run has -/

/-- The keys of the slots. -/
def State.keys (s : State) : List SlotKey := s.slots.map Slot.key

/-- Updating slots in place keeps their keys. -/
theorem keys_map_of_key_eq (s : State) {f : Slot → Slot} (h : ∀ r, (f r).key = r.key) :
    State.keys { s with slots := s.slots.map f } = s.keys := by
  simp only [State.keys, List.map_map]
  exact List.map_congr_left fun r _ => h r

theorem keys_claimDue (w : World) (instanceID : ℕ) (now : ℤ) (s : State) :
    (claimDue w instanceID now s).keys = s.keys :=
  keys_map_of_key_eq s fun r => by split_ifs <;> rfl

theorem keys_complete (slotID runID : ℕ) (s : State) : (complete slotID runID s).keys = s.keys :=
  keys_map_of_key_eq s fun r => by split_ifs <;> rfl

theorem keys_fail (slotID runID attempts : ℕ) (nextRetryAt : Option ℤ) (s : State) :
    (fail slotID runID attempts nextRetryAt s).keys = s.keys :=
  keys_map_of_key_eq s fun r => by split_ifs <;> rfl

theorem keys_index (slots : List Slot) : Foundations.keys Slot.index slots = slots.map Slot.key :=
  congrFun (List.filterMap_eq_map (f := Slot.key)) slots

/-- A tick adds the keys it wants. -/
theorem mem_keys_generateSlots {w : World} {now : ℤ} {s : State} {k : SlotKey} :
    k ∈ (generateSlots w now s).keys ↔ k ∈ s.keys ∨ k ∈ w.wanted now := by
  have hrows : ((w.wanted now).zipIdx.map fun p => newSlot now (s.nextID + p.2) p.1).map Slot.key = w.wanted now := by
    rw [List.map_map]
    exact List.zipIdx_map_fst ..
  rw [State.keys, State.keys, ← keys_index, ← keys_index, generateSlots, mem_keys_insertAll, keys_index, keys_index,
    hrows]

/-- A run has the slots it started with and those that one of its ticks wanted. -/
theorem mem_keys_run (w : World) (s : State) (events : List Event) (k : SlotKey) :
    k ∈ (run w s events).keys ↔ k ∈ s.keys ∨ ∃ now ∈ tickTimes events, k ∈ w.wanted now := by
  induction events generalizing s with
  | nil => simp [run, tickTimes]
  | cons e events ih =>
    rw [run, List.foldl_cons, ← run, ih]
    cases e with
    | tick instanceID now =>
      rw [step, keys_claimDue, mem_keys_generateSlots]
      simp only [tickTimes, List.filterMap_cons, List.mem_cons, exists_eq_or_imp, or_assoc]
    | completed slotID runID =>
      rw [step, keys_complete]
      rfl
    | failed slotID runID attempts nextRetryAt =>
      rw [step, keys_fail]
      rfl

/-! ### Missed slots -/

/-- The key is a forecast collection that an active configuration schedules at an active location. -/
def World.Scheduled (w : World) (k : SlotKey) : Prop :=
  ∃ c ∈ w.configs, c.collectionSchedule.valid = true ∧ c.collectionSchedule.IsInstant k.slotTime ∧
    ∃ l ∈ w.locations, k = ⟨c.id, .forecastCollection, some l, k.slotTime⟩

/-- A tick wants the scheduled keys of its window and the one before, and no other. -/
theorem World.Scheduled.mem_wanted_iff {w : World} {k : SlotKey} (h : w.Scheduled k) {now : ℤ} :
    k ∈ w.wanted now ↔ truncateHour now - hour ≤ k.slotTime ∧ k.slotTime < truncateHour now + hour := by
  obtain ⟨c, hc, hv, hi, l, hl, he⟩ := h
  have hne : w.locations ≠ [] := List.ne_nil_of_mem hl
  rw [wanted]
  simp only [hne, if_false, List.mem_append]
  constructor
  · rintro ((hk | hk) | hk)
    · simp only [keysAt, List.mem_flatMap, List.mem_map] at hk
      obtain ⟨c', -, t, ht, l', -, rfl⟩ := hk
      exact ⟨(Schedule.mem_slotTimes.mp ht).2.1, (Schedule.mem_slotTimes.mp ht).2.2.1⟩
    · -- the other jobs have other types
      rw [he] at hk
      split at hk
      · simp [keysAt] at hk
      · simp at hk
    · rw [he] at hk
      split at hk <;> simp at hk
  · rintro ⟨h1, h2⟩
    refine .inl (.inl ?_)
    rw [he]
    simp only [keysAt, List.mem_flatMap, List.mem_map]
    exact ⟨c, hc, k.slotTime, Schedule.mem_slotTimes.mpr ⟨hv, h1, h2, hi⟩, l, hl, rfl⟩

/-- Ticks that are never more than two clock hours apart leave no instant between the first and the
last of them uncovered. -/
theorem exists_covering_tick {t0 : ℤ} {l : List ℤ} {s : ℤ}
    (hc : (t0 :: l).IsChain fun a b => truncateHour b ≤ truncateHour a + 2 * hour)
    (h0 : t0 ≤ s) (h1 : s ≤ (t0 :: l).getLast (by simp)) :
    ∃ t ∈ t0 :: l, truncateHour t - hour ≤ s ∧ s < truncateHour t + hour := by
  induction l generalizing t0 with
  | nil =>
    rw [List.getLast_singleton] at h1
    have := truncateHour_le t0
    have := lt_truncateHour_add t0
    have : (0 : ℤ) < hour := by decide
    exact ⟨t0, List.mem_cons_self, by omega, by omega⟩
  | cons t1 l ih =>
    obtain ⟨hgap, hc⟩ := List.isChain_cons_cons.mp hc
    have hle := truncateHour_le t0
    have hlt := lt_truncateHour_add t1
    have hpos : (0 : ℤ) < hour := by decide
    by_cases hs : s < truncateHour t0 + hour
    · exact ⟨t0, List.mem_cons_self, by omega, hs⟩
    · by_cases h : t1 ≤ s
      · obtain ⟨t, ht, hcov⟩ := ih hc h (by rwa [List.getLast_cons (by simp)] at h1)
        exact ⟨t, List.mem_cons_of_mem _ ht, hcov⟩
      · exact ⟨t1, List.mem_cons_of_mem _ List.mem_cons_self, by omega, by omega⟩

theorem tickTimes_append (l l' : List Event) : tickTimes (l ++ l') = tickTimes l ++ tickTimes l' :=
  List.filterMap_append ..

@[simp] theorem tickTimes_tick (instanceID : ℕ) (now : ℤ) : tickTimes [.tick instanceID now] = [now] := rfl

/-- The tick that a position in the tick times stands for. -/
theorem exists_tick_of_tickTimes_eq {events : List Event} {l l' : List ℤ} {b : ℤ}
    (h : tickTimes events = l ++ b :: l') :
    ∃ pre instanceID post, events = pre ++ .tick instanceID b :: post ∧ tickTimes pre = l := by
  induction events generalizing l with
  | nil => simp [tickTimes] at h
  | cons e events ih =>
    cases e with
    | tick instanceID now =>
      rw [show tickTimes (.tick instanceID now :: events) = now :: tickTimes events from rfl] at h
      cases l with
      | nil =>
        obtain ⟨rfl, -⟩ := List.cons.inj h
        exact ⟨[], instanceID, events, rfl, rfl⟩
      | cons a l =>
        obtain ⟨rfl, htail⟩ := List.cons.inj h
        obtain ⟨pre, i, post, he, ht⟩ := ih htail
        exact ⟨.tick instanceID now :: pre, i, post, by rw [he]; rfl, by rw [← ht]; rfl⟩
    | completed slotID runID =>
      obtain ⟨pre, i, post, he, ht⟩ := ih h
      exact ⟨.completed slotID runID :: pre, i, post, by rw [he]; rfl, ht⟩
    | failed slotID runID attempts nextRetryAt =>
      obtain ⟨pre, i, post, he, ht⟩ := ih h
      exact ⟨.failed slotID runID attempts nextRetryAt :: pre, i, post, by rw [he]; rfl, ht⟩

/-- Every scheduled instant from the first tick of the run up to a tick has its slot after that
tick. -/
def NoMissedSlot (w : World) (events : List Event) : Prop :=
  ∀ pre instanceID now post, events = pre ++ .tick instanceID now :: post → ∀ k, w.Scheduled k →
    (∀ t0 ∈ (tickTimes events).head?, t0 ≤ k.slotTime) → k.slotTime ≤ now →
      ∃ slot ∈ (run w .empty (pre ++ [.tick instanceID now])).slots, slot.key = k

theorem exists_slot_iff {w : World} {events : List Event} {k : SlotKey} (h : w.Scheduled k) :
    (∃ slot ∈ (run w .empty events).slots, slot.key = k) ↔
      ∃ t ∈ tickTimes events, truncateHour t - hour ≤ k.slotTime ∧ k.slotTime < truncateHour t + hour := by
  have := mem_keys_run w .empty events k
  simp only [State.keys, List.mem_map, State.empty, List.map_nil, List.not_mem_nil, false_or] at this
  rw [State.empty, this]
  simp only [h.mem_wanted_iff]

/-- After a gap of more than two clock hours from tick `a` to tick `b`, the instant of the hour after
`a` is past every tick up to `a`, before `b`, and in the window of none of them. -/
theorem uncovered_instant {l l' : List ℤ} {a b off : ℤ} (hmono : (l ++ a :: b :: l').Pairwise (· ≤ ·))
    (hgap : truncateHour a + 2 * hour < truncateHour b) (h0 : 0 ≤ off) (h59 : off ≤ 59) {s : ℤ}
    (hs : s = truncateHour a + hour + off * minute) :
    s % hour = off * minute ∧ s ≤ b ∧ (∀ t ∈ l ++ [a], t ≤ s) ∧
      ∀ t ∈ l ++ [a] ++ [b], ¬ (truncateHour t - hour ≤ s ∧ s < truncateHour t + hour) := by
  have ha := truncateHour_emod a
  have hb := truncateHour_emod b
  have hlb := truncateHour_le b
  have hle : ∀ t ∈ l ++ [a], truncateHour t ≤ truncateHour a := by
    intro t ht
    rcases List.mem_append.mp ht with ht | ht
    · exact truncateHour_mono ((List.pairwise_append.mp hmono).2.2 t ht a List.mem_cons_self)
    · rw [List.mem_singleton.mp ht]
  simp only [hour_eq, minute_eq] at ha hb hgap hs ⊢
  refine ⟨by omega, by omega, fun t ht => ?_, fun t ht => ?_⟩
  · have h1 := hle t ht
    have h2 := lt_truncateHour_add t
    rw [hour_eq] at h2
    omega
  · rcases List.mem_append.mp ht with ht | ht
    · have := hle t ht
      omega
    · rw [List.mem_singleton.mp ht]
      omega

/-- **No scheduled instant is without a slot exactly when no two consecutive ticks are more than two
clock hours apart**, or when nothing is scheduled at all. -/
theorem no_missed_slot_iff (w : World) (events : List Event) (hmono : (tickTimes events).Pairwise (· ≤ ·)) :
    NoMissedSlot w events ↔
      (∀ c ∈ w.configs, c.collectionSchedule.valid = false) ∨ w.locations = [] ∨
        (tickTimes events).IsChain fun a b => truncateHour b ≤ truncateHour a + 2 * hour := by
  constructor
  · intro h
    by_contra hno
    simp only [not_or, not_forall, Bool.not_eq_false] at hno
    obtain ⟨⟨c, hc, hv⟩, hne, hch⟩ := hno
    obtain ⟨loc, hloc⟩ := List.exists_mem_of_ne_nil _ hne
    rw [List.isChain_iff_forall_rel_of_append_cons_cons] at hch
    push Not at hch
    obtain ⟨a, b, l, l', he, hgap⟩ := hch
    obtain ⟨pre, i, post, hev, hpre⟩ :=
      exists_tick_of_tickTimes_eq (l := l ++ [a]) (b := b) (by rw [he, List.append_assoc]; rfl)
    rw [he] at hmono
    obtain ⟨h0, h59⟩ := Schedule.minuteOffset_of_valid hv
    -- the slot of the hour after tick `a` is missing after tick `b`
    obtain ⟨hmod, hsb, hfirst, hmiss⟩ := uncovered_instant hmono hgap h0 h59 rfl
    have hk : w.Scheduled ⟨c.id, .forecastCollection, some loc, _⟩ := ⟨c, hc, hv, hmod, loc, hloc, rfl⟩
    have hslot := h pre i b post hev _ hk ?_ hsb
    · rw [exists_slot_iff hk, tickTimes_append, hpre, tickTimes_tick] at hslot
      obtain ⟨t, ht, hcov⟩ := hslot
      exact hmiss t ht hcov
    · intro t0 ht0
      refine hfirst t0 ?_
      rw [he] at ht0
      cases l with
      | nil => simp_all
      | cons x l => simp_all
  · intro h pre i now post he k hk hfirst hlast
    rw [exists_slot_iff hk, tickTimes_append, tickTimes_tick]
    obtain ⟨c, hc, hv, -, loc, hloc, -⟩ := hk
    rcases h with h | h | h
    · rw [h c hc] at hv
      exact absurd hv (by simp)
    · rw [h] at hloc
      exact absurd hloc List.not_mem_nil
    · rw [he, tickTimes_append] at h hfirst
      have hchain : (tickTimes pre ++ [now]).IsChain fun a b => truncateHour b ≤ truncateHour a + 2 * hour := by
        refine h.prefix ⟨tickTimes post, ?_⟩
        rw [List.append_assoc]
        rfl
      cases hp : tickTimes pre with
      | nil =>
        rw [hp] at hfirst hchain
        exact exists_covering_tick hchain (hfirst now rfl) (by simpa using hlast)
      | cons t0 ts =>
        rw [hp] at hfirst hchain
        exact exists_covering_tick hchain (hfirst t0 rfl) (by simpa using hlast)

/-! ### An outage -/

/-- One provider collected on the hour at one location. -/
def hourlyWorld : World where
  cfg := ⟨none, 0, none, [], 5 * minute, 10⟩
  configs := [⟨1, 1, ⟨.hourly, 0⟩⟩]
  locations := [7]

/-- Ticks in consecutive hours leave no slot out. -/
theorem no_missed_slot_steady : NoMissedSlot hourlyWorld [.tick 0 0, .tick 0 hour, .tick 0 (3 * hour)] :=
  (no_missed_slot_iff hourlyWorld [.tick 0 0, .tick 0 hour, .tick 0 (3 * hour)] (by decide)).mpr
    (.inr (.inr (by decide)))

/-- After an outage of four hours the slots of the hours `1` and `2` are missing, though they were
scheduled after the first tick and before the second. -/
theorem missed_slot_after_outage :
    ¬ NoMissedSlot hourlyWorld [.tick 0 0, .tick 0 (4 * hour)] ∧
      (run hourlyWorld .empty [.tick 0 0, .tick 0 (4 * hour)]).keys.map SlotKey.slotTime =
        [-hour, 0, 3 * hour, 4 * hour] := by
  refine ⟨fun h => ?_, by decide⟩
  have hslot := h [.tick 0 0] 0 (4 * hour) [] rfl ⟨1, .forecastCollection, some 7, hour⟩
    ⟨⟨1, 1, ⟨.hourly, 0⟩⟩, by decide, by decide, by decide, 7, by decide, rfl⟩ (by decide) (by decide)
  exact absurd hslot (by decide)

end ForecastIQ.Scheduler
