import ForecastIQ.Collection.RequestBudget

/-!
# The pause of the request budget

`dailyBudget` under any sequence of calls. A `429` with a `Retry-After` is to stop every call
until the advised time. But `rollover` forgets the pause together with the counter, so that a
pause lasts to the advised time only when no midnight lies before it
(`DailyBudget.pausedUntil_pause`, and `DailyBudget.reserve_midnight` for the call that gets
through).

A refused call is told when the budget frees. The refusal of a pause does not look at the
counter: the end of a pause on a day whose budget is spent frees nothing. What a refused call
finds at the advised time is said by `DailyBudget.reserve_of_paused` and
`DailyBudget.reserve_of_unpaused`, the two refusals of `reserve`.

What a call does to the day of the counter is the same for all calls
(`DailyBudget.call_cases`).
-/

namespace ForecastIQ.Collection.OpenWeather

open ForecastIQ.Foundations

/-- A call on the budget. -/
inductive BudgetCall where
  | reserve (now : ℤ)
  | pause (now d : ℤ)
  | consume (n now : ℤ)
  deriving DecidableEq, Repr

/-- The time that the call is given. -/
def BudgetCall.time : BudgetCall → ℤ
  | reserve now => now
  | pause now _ => now
  | consume _ now => now

/-- Midnight UTC at the end of the day of `t`. -/
def nextMidnight (t : ℤ) : ℤ := startOfDay t + day

theorem lt_nextMidnight (t : ℤ) : t < nextMidnight t := by
  simp only [nextMidnight, startOfDay, dayNumber, day_eq]
  omega

theorem startOfDay_nextMidnight (t : ℤ) : startOfDay (nextMidnight t) = nextMidnight t := by
  simp only [nextMidnight, startOfDay, dayNumber, day_eq]
  omega

theorem startOfDay_lt_nextMidnight (t : ℤ) : startOfDay t < nextMidnight t := by
  simp only [nextMidnight, day_eq]
  omega

/-- Before midnight it is the same day. -/
theorem startOfDay_eq_of_lt {s t : ℤ} (hle : s ≤ t) (hlt : t < nextMidnight s) : startOfDay t = startOfDay s := by
  simp only [nextMidnight, startOfDay, dayNumber, day_eq] at hlt ⊢
  omega

theorem add_untilNextUTCDay (t : ℤ) : t + untilNextUTCDay t = nextMidnight t := by
  simp only [untilNextUTCDay, nextMidnight]
  omega

namespace DailyBudget

/-- The budget after a call. -/
def call (b : DailyBudget) : BudgetCall → DailyBudget
  | .reserve now => (b.reserve now).1
  | .pause now d => b.pause now d
  | .consume n now => b.consume n.toNat now

/-- The budget after calls in order. -/
def run (b : DailyBudget) (calls : List BudgetCall) : DailyBudget := calls.foldl call b

/-! ### The two refusals -/

variable {b : DailyBudget} {now : ℤ}

/-- A pause in force refuses, whatever is left of the budget. -/
theorem reserve_of_paused {p : ℤ} (hp : (b.rollover now).pausedTil = some p) (hlt : now < p) :
    b.reserve now = (b.rollover now, some (p - now)) := by
  have hsome : ((b.rollover now).pausedTil.filter fun t => now < t) = some p := by
    rw [hp]
    exact Option.filter_some_pos (by simpa using hlt)
  simp only [reserve, hsome]

/-- Without a pause in force the counter decides. -/
theorem reserve_of_unpaused (h : ∀ p, (b.rollover now).pausedTil = some p → p ≤ now) :
    b.reserve now =
      if (b.rollover now).max ≤ (b.rollover now).used then
        ({ b.rollover now with pausedTil := none }, some (untilNextUTCDay now))
      else ({ b.rollover now with used := (b.rollover now).used + 1, pausedTil := none }, none) := by
  have hnone : ((b.rollover now).pausedTil.filter fun t => now < t) = none := by
    rw [Option.filter_eq_none_iff]
    intro p hp
    simpa using h p hp
  simp only [reserve, hnone]

theorem rollover_of_lt (h : b.day < startOfDay now) :
    b.rollover now = { b with day := startOfDay now, used := 0, pausedTil := none } := if_pos h

theorem rollover_of_le (h : startOfDay now ≤ b.day) : b.rollover now = b := if_neg (not_lt.mpr h)

/-- On a new day a unit is free. -/
theorem reserve_newDay (hday : b.day < startOfDay now) (hmax : 1 ≤ b.max) : (b.reserve now).2 = none := by
  rw [reserve_of_unpaused (by simp [rollover_of_lt hday]), rollover_of_lt hday]
  simp only
  rw [if_neg (by omega)]

/-! ### What a call does -/

/-- A call rolls over and changes the counter and the pause, or does nothing at all. -/
theorem call_cases (b : DailyBudget) (c : BudgetCall) :
    b.call c = b ∨ ∃ u p, b.call c = { b.rollover c.time with used := u, pausedTil := p } := by
  cases c with
  | reserve now =>
    right
    rcases b.reserve_cases now with ⟨p, r, h⟩ | ⟨-, h⟩
    · exact ⟨(b.rollover now).used, p, by rw [call, h]; rfl⟩
    · exact ⟨_, none, by rw [call, h]; rfl⟩
  | pause now d =>
    obtain ⟨p, h⟩ := b.pause_eq now d
    exact .inr ⟨(b.rollover now).used, p, h⟩
  | consume n now =>
    rw [call, consume]
    split_ifs
    · exact .inl rfl
    · exact .inr ⟨_, (b.rollover now).pausedTil, rfl⟩

theorem max_call (b : DailyBudget) (c : BudgetCall) : (b.call c).max = b.max := by
  rcases b.call_cases c with h | ⟨u, p, h⟩
  · rw [h]
  · rw [h]
    exact b.max_rollover c.time

theorem max_run (b : DailyBudget) (calls : List BudgetCall) : (b.run calls).max = b.max := by
  induction calls generalizing b with
  | nil => rfl
  | cons c calls ih => exact (ih (b.call c)).trans (b.max_call c)

theorem day_rollover_cases (b : DailyBudget) (now : ℤ) :
    (b.rollover now).day = b.day ∨ (b.rollover now).day = startOfDay now := by
  unfold rollover
  split_ifs
  · exact .inr rfl
  · exact .inl rfl

theorem day_call_cases (b : DailyBudget) (c : BudgetCall) :
    (b.call c).day = b.day ∨ (b.call c).day = startOfDay c.time := by
  rcases b.call_cases c with h | ⟨u, p, h⟩
  · exact .inl (by rw [h])
  · rw [h]
    exact b.day_rollover_cases c.time

/-- The counter belongs to a midnight. -/
theorem startOfDay_day_run (max : ℕ) (t₀ : ℤ) (calls : List BudgetCall) :
    startOfDay ((newDailyBudget max t₀).run calls).day = ((newDailyBudget max t₀).run calls).day := by
  have hmidnight : ∀ t, startOfDay (startOfDay t) = startOfDay t := fun t => by
    simp only [startOfDay, dayNumber, day_eq]
    omega
  suffices h : ∀ b : DailyBudget, startOfDay b.day = b.day → startOfDay (b.run calls).day = (b.run calls).day from
    h _ (hmidnight t₀)
  induction calls with
  | nil => exact fun b hb => hb
  | cons c calls ih =>
    refine fun b hb => ih (b.call c) ?_
    rcases b.day_call_cases c with h | h
    · rw [h, hb]
    · rw [h, hmidnight]

/-- When the clock does not go back, the counter does not belong to a later day. -/
theorem day_run_le {calls : List BudgetCall} {t₀ now : ℤ} (hb : b.day ≤ startOfDay t₀)
    (hclock : (t₀ :: (calls.map BudgetCall.time ++ [now])).Pairwise (· ≤ ·)) : (b.run calls).day ≤ startOfDay now := by
  induction calls generalizing b t₀ with
  | nil =>
    have hle : t₀ ≤ now := (List.pairwise_cons.mp hclock).1 now (by simp)
    exact hb.trans (startOfDay_mono hle)
  | cons c calls ih =>
    obtain ⟨hle, hrest⟩ := List.pairwise_cons.mp hclock
    have hc : t₀ ≤ c.time := hle c.time (by simp)
    refine ih ?_ hrest
    rcases b.day_call_cases c with h | h
    · exact h ▸ hb.trans (startOfDay_mono hc)
    · exact h.le

/-! ### A pause and the day it belongs to -/

/-- No call is let through before `stop`, and `stop` is not after the day of the counter. -/
structure PausedUntil (b : DailyBudget) (stop : ℤ) : Prop where
  paused : ∃ p, b.pausedTil = some p ∧ stop ≤ p
  within : ∀ t, t < stop → startOfDay t ≤ b.day

theorem PausedUntil.rollover {stop : ℤ} (h : b.PausedUntil stop) (hlt : now < stop) : b.rollover now = b :=
  rollover_of_le (h.within now hlt)

theorem PausedUntil.refuses {stop : ℤ} (h : b.PausedUntil stop) (hlt : now < stop) :
    ∃ r, b.reserve now = (b, some r) := by
  obtain ⟨p, hp, hle⟩ := h.paused
  have hroll := h.rollover hlt
  refine ⟨p - now, ?_⟩
  rw [reserve_of_paused (p := p) (by rw [hroll, hp]) (by omega), hroll]

/-- Another pause does not shorten one. -/
theorem pausedTil_pause {p : ℤ} (hp : (b.rollover now).pausedTil = some p) (d : ℤ) :
    ∃ q, b.pause now d = { b.rollover now with pausedTil := some q } ∧ p ≤ q := by
  rw [pause]
  simp only [hp, Option.all_some, decide_eq_true_eq]
  generalize (if 0 < d then now + d else now + untilNextUTCDay now) = stop
  split_ifs with hlater
  · exact ⟨stop, rfl, hlater.le⟩
  · exact ⟨p, by rw [← hp], le_refl p⟩

/-- A pause never ends earlier for another call. -/
theorem PausedUntil.call {stop : ℤ} (h : b.PausedUntil stop) {c : BudgetCall} (hlt : c.time < stop) :
    (b.call c).PausedUntil stop := by
  have hroll := h.rollover hlt
  cases c with
  | reserve now =>
    obtain ⟨r, hr⟩ := h.refuses hlt
    rw [BudgetCall.time] at hr
    rw [DailyBudget.call, hr]
    exact h
  | pause now d =>
    obtain ⟨p, hp, hle⟩ := h.paused
    rw [BudgetCall.time] at hroll
    obtain ⟨q, hq, hpq⟩ := pausedTil_pause (show (b.rollover now).pausedTil = some p by rw [hroll, hp]) d
    rw [DailyBudget.call, hq, hroll]
    exact ⟨⟨q, rfl, hle.trans hpq⟩, h.within⟩
  | consume n now =>
    rw [BudgetCall.time] at hroll
    rw [DailyBudget.call, consume, hroll]
    split_ifs
    · exact h
    · exact ⟨h.paused, h.within⟩

theorem PausedUntil.run {stop : ℤ} (h : b.PausedUntil stop) {calls : List BudgetCall}
    (hlt : ∀ c ∈ calls, c.time < stop) : (b.run calls).PausedUntil stop := by
  induction calls generalizing b with
  | nil => exact h
  | cons c calls ih =>
    exact ih (h.call (hlt c List.mem_cons_self)) fun c' hc' => hlt c' (List.mem_cons_of_mem c hc')

/-- A pause that ends on its day holds until it ends. -/
theorem pausedUntil_pause {d : ℤ} (hday : b.day ≤ startOfDay now) (hd : 0 < d) (hstop : now + d ≤ nextMidnight now) :
    (b.pause now d).PausedUntil (now + d) := by
  have hrolled : (b.rollover now).day = startOfDay now := by
    rcases lt_or_ge b.day (startOfDay now) with h | h
    · rw [rollover_of_lt h]
    · rw [rollover_of_le h]
      exact le_antisymm hday h
  have hwithin : ∀ t, t < now + d → startOfDay t ≤ (b.rollover now).day := by
    intro t ht
    rw [hrolled]
    rcases le_total now t with hle | hle
    · rw [startOfDay_eq_of_lt hle (by omega)]
    · exact startOfDay_mono hle
  rw [pause]
  simp only [if_pos hd]
  split_ifs with hlater
  · exact ⟨⟨_, rfl, le_refl _⟩, hwithin⟩
  · obtain ⟨p, hp, hle⟩ : ∃ p, (b.rollover now).pausedTil = some p ∧ now + d ≤ p := by
      cases hp : (b.rollover now).pausedTil with
      | none => simp [hp] at hlater
      | some p => exact ⟨p, rfl, by simpa [hp] using hlater⟩
    exact ⟨⟨p, hp, hle⟩, hwithin⟩

/-- The first call after midnight gets through, paused or not. -/
theorem reserve_midnight {d : ℤ} (hday : b.day ≤ startOfDay now) (hmax : 1 ≤ b.max) :
    ((b.pause now d).reserve (nextMidnight now)).2 = none := by
  refine reserve_newDay ?_ ?_
  · rw [startOfDay_nextMidnight]
    have hle : (b.call (.pause now d)).day ≤ startOfDay now := by
      rcases b.day_call_cases (.pause now d) with h | h
      · exact h ▸ hday
      · exact h.le
    exact hle.trans_lt (startOfDay_lt_nextMidnight now)
  · exact (b.max_call (.pause now d)).symm ▸ hmax

/-- A budget of nothing admits no call. -/
theorem reserve_of_max_zero (h : b.max = 0) : (b.reserve now).2 ≠ none := by
  rcases b.reserve_cases now with ⟨p, r, hr⟩ | ⟨hlt, -⟩
  · rw [hr]
    exact Option.some_ne_none r
  · rw [max_rollover, h] at hlt
    exact absurd hlt (Nat.not_lt_zero _)

end DailyBudget

open DailyBudget

/-- **A pause stops every call until the advised time** exactly when no midnight lies before that time (or the budget
is zero anyway): whatever calls are made in between, with a clock that does not go back. -/
theorem pause_lasts_iff (max : ℕ) (t₀ : ℤ) (before : List BudgetCall) {now d : ℤ}
    (hclock : (t₀ :: (before.map BudgetCall.time ++ [now])).Pairwise (· ≤ ·)) (hd : 0 < d) :
    (∀ (after : List BudgetCall) (t : ℤ), (now :: (after.map BudgetCall.time ++ [t])).Pairwise (· ≤ ·) →
        t < now + d → (((((newDailyBudget max t₀).run before).pause now d).run after).reserve t).2 ≠ none) ↔
      now + d ≤ nextMidnight now ∨ max = 0 := by
  have hday := day_run_le (b := newDailyBudget max t₀) (le_refl _) hclock
  have hmax : ((newDailyBudget max t₀).run before).max = max := max_run _ before
  generalize (newDailyBudget max t₀).run before = b at hday hmax ⊢
  constructor
  · intro hnone
    by_contra hcon
    rw [not_or, not_le] at hcon
    have hlt := lt_nextMidnight now
    refine hnone [] (nextMidnight now) (by simpa using hlt.le) hcon.1 (reserve_midnight hday ?_)
    omega
  · rintro (hstop | hzero) after t hafter ht
    · have hbefore : ∀ c ∈ after, c.time < now + d := by
        intro c hc
        have hle : c.time ≤ t := by
          refine (List.pairwise_append.mp (List.pairwise_cons.mp hafter).2).2.2 c.time ?_ t (by simp)
          exact List.mem_map_of_mem hc
        omega
      obtain ⟨r, hr⟩ := ((pausedUntil_pause hday hd hstop).run hbefore).refuses ht
      rw [hr]
      exact Option.some_ne_none r
    · refine reserve_of_max_zero ?_
      rw [max_run, show (b.pause now d).max = b.max from b.max_call (.pause now d), hmax, hzero]

/-- A pause of 45 seconds at noon: the call 44 seconds later is refused. -/
theorem pause_lasts_noon :
    ((((newDailyBudget 100 0).pause (12 * hour) (45 * second)).run [.consume 1 (12 * hour + second)]).reserve
      (12 * hour + 44 * second)).2 ≠ none :=
  (pause_lasts_iff 100 0 [] (by decide) (by decide)).mpr (.inl (by decide)) _ _ (by decide) (by decide)

/-- A pause of two hours, an hour before midnight: at midnight the call gets through. -/
theorem pause_forgotten :
    (23 * hour : ℤ) ≤ 24 * hour ∧ 24 * hour < 23 * hour + 2 * hour ∧
      (((newDailyBudget 100 0).pause (23 * hour) (2 * hour)).reserve (24 * hour)).2 = none := by
  decide

/-! ### The advised delay -/

namespace DailyBudget

variable {b : DailyBudget} {now : ℤ}

/-- At the end of a pause a call gets through on a new day, or if a unit is left. -/
theorem reserve_pauseEnd_iff {p : ℤ} (hp : (b.rollover now).pausedTil = some p) (hmax : 1 ≤ b.max) :
    ((b.rollover now).reserve p).2 = none ↔
      (b.rollover now).day < startOfDay p ∨ (b.rollover now).used < b.max := by
  have hrmax := b.max_rollover now
  rcases lt_or_ge (b.rollover now).day (startOfDay p) with hday | hday
  · exact iff_of_true (reserve_newDay hday (by omega)) (.inl hday)
  · have hroll : (b.rollover now).rollover p = b.rollover now := rollover_of_le hday
    have hover : ∀ q, ((b.rollover now).rollover p).pausedTil = some q → q ≤ p := by
      rw [hroll, hp]
      rintro q ⟨⟩
      exact le_refl p
    rw [reserve_of_unpaused hover, hroll, hrmax]
    by_cases hspent : b.max ≤ (b.rollover now).used
    · rw [if_pos hspent]
      exact iff_of_false (Option.some_ne_none _) (by omega)
    · rw [if_neg hspent]
      exact iff_of_true rfl (.inr (not_le.mp hspent))

/-- At midnight a spent budget is renewed, unless its counter belongs to a later day. -/
theorem reserve_renewed_iff (hmidnight : startOfDay b.day = b.day) (hmax : 1 ≤ b.max)
    (hspent : b.max ≤ (b.rollover now).used) :
    (DailyBudget.reserve { b.rollover now with pausedTil := none } (nextMidnight now)).2 = none ↔
      b.day ≤ startOfDay now := by
  rcases le_or_gt b.day (startOfDay now) with hday | hday
  · refine iff_of_true (reserve_newDay ?_ ?_) hday
    · rw [startOfDay_nextMidnight]
      have hle : (b.rollover now).day ≤ startOfDay now := by
        rcases b.day_rollover_cases now with h | h
        · exact h ▸ hday
        · exact h.le
      exact hle.trans_lt (startOfDay_lt_nextMidnight now)
    · exact (b.max_rollover now).symm ▸ hmax
  · refine iff_of_false ?_ (not_le.mpr hday)
    have hroll : b.rollover now = b := rollover_of_le hday.le
    rw [hroll] at hspent ⊢
    have hnext : startOfDay (nextMidnight now) ≤ b.day := by
      rw [startOfDay_nextMidnight]
      simp only [nextMidnight, startOfDay, dayNumber, day_eq] at hmidnight hday ⊢
      omega
    have hstay : DailyBudget.rollover { b with pausedTil := none } (nextMidnight now) = { b with pausedTil := none } :=
      rollover_of_le hnext
    rw [reserve_of_unpaused (by simp [hstay]), hstay]
    simp only
    rw [if_pos hspent]
    exact Option.some_ne_none _

end DailyBudget

/-- **A refused call gets through after the advised delay** exactly when a pause in force ends on a later day than
that of the counter or a unit is left, and when without one the counter is not that of a later day, as it never is
while the clock does not go back. -/
theorem reserve_after_delay_iff {max : ℕ} (hmax : 1 ≤ max) (t₀ : ℤ) (calls : List BudgetCall) {b b' : DailyBudget}
    {t r : ℤ} (hb : (newDailyBudget max t₀).run calls = b) (hrefused : b.reserve t = (b', some r)) :
    (b'.reserve (t + r)).2 = none ↔
      (∀ p, b.pausedTil = some p → t < p → b.day < startOfDay p ∨ b.used < max) ∧
        ((∀ p, b.pausedTil = some p → p ≤ t) → b.day ≤ startOfDay t) := by
  have hmidnight : startOfDay b.day = b.day := hb ▸ startOfDay_day_run max t₀ calls
  obtain rfl : b.max = max := hb ▸ max_run _ calls
  -- on a new day the call would have got through
  have hroll : b.rollover t = b := rollover_of_le (not_lt.mp fun hday => by
    have hnew := reserve_newDay hday hmax
    rw [hrefused] at hnew
    cases hnew)
  by_cases hpaused : ∃ p, b.pausedTil = some p ∧ t < p
  · obtain ⟨p, hp, hlt⟩ := hpaused
    have hp' : (b.rollover t).pausedTil = some p := by rw [hroll, hp]
    rw [reserve_of_paused hp' hlt] at hrefused
    cases hrefused
    rw [show t + (p - t) = p by omega, reserve_pauseEnd_iff hp' hmax, hroll]
    constructor
    · refine fun h => ⟨fun q hq _ => ?_, fun hover => absurd (hover p hp) (not_le.mpr hlt)⟩
      obtain rfl := Option.some.inj (hp.symm.trans hq)
      exact h
    · exact fun h => h.1 p hp hlt
  · have hover : ∀ p, b.pausedTil = some p → p ≤ t := fun p hp => not_lt.mp fun hlt => hpaused ⟨p, hp, hlt⟩
    have hover' : ∀ p, (b.rollover t).pausedTil = some p → p ≤ t := by rwa [hroll]
    have hspent : (b.rollover t).max ≤ (b.rollover t).used := by
      by_contra hleft
      rw [reserve_of_unpaused hover', if_neg hleft] at hrefused
      cases hrefused
    rw [reserve_of_unpaused hover', if_pos hspent] at hrefused
    cases hrefused
    rw [add_untilNextUTCDay, reserve_renewed_iff hmidnight hmax (b.max_rollover t ▸ hspent)]
    exact ⟨fun h => ⟨fun p hp hlt => absurd (hover p hp) (not_le.mpr hlt), fun _ => h⟩, fun h => h.2 hover⟩

/-- A budget of one, with its unit spent. -/
def spentBudget : DailyBudget := ⟨1, 0, 1, none⟩

/-- The refused call gets through at midnight. -/
theorem reserve_after_delay_midnight :
    spentBudget.reserve 0 = (spentBudget, some (24 * hour)) ∧ (spentBudget.reserve (0 + 24 * hour)).2 = none :=
  ⟨by decide, (reserve_after_delay_iff (Nat.le_refl 1) 0 [.reserve 0] rfl (by decide)).mpr (by decide)⟩

/-- The unit is spent and the provider asks for a pause of 45 seconds: after the 45 seconds that a refused call is told
to wait, it is refused again. -/
theorem refused_after_delay :
    ((newDailyBudget 1 0).run [.reserve 0, .pause 0 (45 * second)]).reserve 0 =
        ({ spentBudget with pausedTil := some (45 * second) }, some (45 * second)) ∧
      (DailyBudget.reserve { spentBudget with pausedTil := some (45 * second) } (0 + 45 * second)).2 =
        some (24 * hour - 45 * second) := by
  decide

end ForecastIQ.Collection.OpenWeather
