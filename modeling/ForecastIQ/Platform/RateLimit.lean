import ForecastIQ.Foundations.Instant
import ForecastIQ.Foundations.TokenBucket
import Mathlib.Algebra.Order.Field.Rat
import Mathlib.Data.Rat.Floor
import Mathlib.Logic.Function.Basic

/-!
# The rate limiter

`internal/platform/ratelimit`: a token bucket that starts full and is refilled when it is asked,
for the time since it was last refilled. `Allow` takes a token or refuses; `Wait` asks again,
each time after the time that the missing part of a token takes, until it gets one. Tokens
and rates are exact.

The lock is held for one question at a time, and `Wait` asks just as `Allow` does. So whatever
the calls and however they interleave, the bucket sees questions one after another, and each
is a step of a token bucket (`Limiter.step_allow`): the library's bound on the grants of a window
holds of every run.

`KeyedLimiter` has a bucket for each key, made when the key is first seen.
-/

namespace ForecastIQ.Platform

open ForecastIQ.Foundations

/-- `Limiter`. -/
structure Limiter where
  tokens : ℚ
  max : ℚ
  refillPerSec : ℚ
  last : ℤ
  deriving DecidableEq

/-- `NewLimiter`. -/
def newLimiter (max refillPerSec : ℚ) (now : ℤ) : Limiter := ⟨max, max, refillPerSec, now⟩

/-- `Seconds`, of a duration or from the origin of the clock. -/
def seconds (d : ℤ) : ℚ := d / second

namespace Limiter

/-- `refill`. -/
def refill (l : Limiter) (now : ℤ) : Limiter :=
  let elapsed := seconds (timeSub now l.last)
  if 0 < elapsed then
    let tokens := l.tokens + elapsed * l.refillPerSec
    { l with tokens := if l.max < tokens then l.max else tokens, last := now }
  else l

/-- `Allow`, and what `Wait` does while it holds the lock. -/
def allow (l : Limiter) (now : ℤ) : Bool × Limiter :=
  let l := l.refill now
  if 1 ≤ l.tokens then (true, { l with tokens := l.tokens - 1 }) else (false, l)

/-- How long `Wait` sleeps before it asks again. -/
def waitFor (l : Limiter) : ℤ :=
  let wait := ((1 - l.tokens) / l.refillPerSec * second).floor
  if wait < 10000000 then 10000000 else wait

/-- `Wait` from a question at `now` on. Each timer fires a little late; when no timer is left, the context is done.
The questions with their answers, of which only the last can be a grant, and the bucket after them. -/
def wait (l : Limiter) (now : ℤ) : List ℕ → List (ℤ × Bool) × Limiter
  | [] => ([(now, (l.allow now).1)], (l.allow now).2)
  | late :: lates =>
    if (l.allow now).1 then ([(now, true)], (l.allow now).2)
    else
      let l := (l.allow now).2
      let rest := l.wait (now + l.waitFor + late) lates
      ((now, false) :: rest.1, rest.2)

end Limiter

/-- A call of the limiter. -/
inductive LimiterCall where
  | allow (now : ℤ)
  | wait (now : ℤ) (lates : List ℕ)
  deriving DecidableEq

namespace Limiter

/-- A call: the questions with their answers, and the bucket after it. -/
def call (l : Limiter) : LimiterCall → List (ℤ × Bool) × Limiter
  | .allow now => ([(now, (l.allow now).1)], (l.allow now).2)
  | .wait now lates => l.wait now lates

/-- Calls in order. -/
def run (l : Limiter) : List LimiterCall → List (ℤ × Bool) × Limiter
  | [] => ([], l)
  | c :: calls => ((l.call c).1 ++ ((l.call c).2.run calls).1, ((l.call c).2.run calls).2)

/-! ### A question is a step of a token bucket -/

/-- The tokens are within the bucket, and it fills. -/
structure Valid (l : Limiter) : Prop where
  nonneg : 0 ≤ l.tokens
  le_max : l.tokens ≤ l.max
  rate_nonneg : 0 ≤ l.refillPerSec

/-- The bucket as the library sees it. -/
def bucket (l : Limiter) : Bucket ℚ := ⟨l.tokens, seconds l.last⟩

theorem second_pos : (0 : ℚ) < second := by norm_num [second]

theorem seconds_sub (t u : ℤ) : seconds (t - u) = seconds t - seconds u := by
  rw [seconds, seconds, seconds, Int.cast_sub, sub_div]

theorem seconds_le_seconds {t u : ℤ} (h : t ≤ u) : seconds t ≤ seconds u :=
  div_le_div_of_nonneg_right (Int.cast_le.mpr h) second_pos.le

theorem seconds_pos_iff {d : ℤ} : 0 < seconds d ↔ 0 < d := by
  rw [seconds, div_pos_iff_of_pos_right second_pos, Int.cast_pos]

variable {l : Limiter} {now : ℤ}

/-- A refill at a time that is not earlier: no more than is gained, and no more than fits. -/
theorem refill_spec (h : l.Valid) (hle : l.last ≤ now) :
    ∃ tokens, l.refill now = { l with tokens := tokens, last := now } ∧ 0 ≤ tokens ∧ tokens ≤ l.max ∧
      tokens ≤ l.tokens + l.refillPerSec * (seconds now - seconds l.last) := by
  have hdiff : timeSub now l.last ≤ now - l.last ∧ (0 < timeSub now l.last ↔ l.last < now) := by
    simp only [timeSub, minDuration, maxDuration]
    omega
  have hgain : seconds (timeSub now l.last) * l.refillPerSec ≤
      l.refillPerSec * (seconds now - seconds l.last) := by
    rw [mul_comm, ← seconds_sub]
    exact mul_le_mul_of_nonneg_left (seconds_le_seconds hdiff.1) h.rate_nonneg
  rw [refill]
  simp only [seconds_pos_iff]
  split_ifs with helapsed hfull
  · refine ⟨l.max, rfl, h.nonneg.trans h.le_max, le_refl _, ?_⟩
    linarith
  · refine ⟨_, rfl, ?_, not_lt.mp hfull, by linarith⟩
    exact add_nonneg h.nonneg (mul_nonneg (seconds_pos_iff.mpr helapsed).le h.rate_nonneg)
  · -- no time has passed
    obtain rfl : now = l.last := le_antisymm (not_lt.mp fun hlt => helapsed (hdiff.2.mpr hlt)) hle
    exact ⟨l.tokens, rfl, h.nonneg, h.le_max, by simp⟩

/-- A question takes a token of the refilled bucket, if it holds one. -/
theorem allow_spec (h : l.Valid) (hle : l.last ≤ now) :
    ∃ tokens, (l.allow now).2 = { l with tokens := tokens, last := now } ∧ 0 ≤ tokens ∧
      tokens + taken (l.allow now).1 ≤ l.max ∧
        tokens + taken (l.allow now).1 ≤ l.tokens + l.refillPerSec * (seconds now - seconds l.last) := by
  obtain ⟨tokens, hrefill, hnonneg, hmax, hgain⟩ := refill_spec h hle
  rw [allow, hrefill]
  dsimp only
  split_ifs with hone
  · refine ⟨tokens - 1, rfl, sub_nonneg.mpr hone, ?_⟩
    rw [taken, if_pos rfl, sub_add_cancel]
    exact ⟨hmax, hgain⟩
  · refine ⟨tokens, rfl, hnonneg, ?_⟩
    simp only [taken, Bool.false_eq_true, if_false, add_zero]
    exact ⟨hmax, hgain⟩

theorem taken_nonneg (granted : Bool) : (0 : ℚ) ≤ taken granted := by
  cases granted <;> simp [taken]

theorem Valid.allow (h : l.Valid) (hle : l.last ≤ now) : (l.allow now).2.Valid := by
  obtain ⟨tokens, heq, hnonneg, hmax, -⟩ := allow_spec h hle
  rw [heq]
  exact ⟨hnonneg, (le_add_of_nonneg_right (taken_nonneg _)).trans hmax, h.rate_nonneg⟩

theorem last_allow (h : l.Valid) (hle : l.last ≤ now) : (l.allow now).2.last = now := by
  obtain ⟨tokens, heq, -⟩ := allow_spec h hle
  rw [heq]

/-- A question changes neither the size of the bucket nor its rate. -/
theorem settings_allow (l : Limiter) (now : ℤ) :
    (l.allow now).2.max = l.max ∧ (l.allow now).2.refillPerSec = l.refillPerSec := by
  simp only [Limiter.allow, refill]
  split_ifs <;> exact ⟨rfl, rfl⟩

/-- **Each question is a step of a token bucket.** -/
theorem step_allow (h : l.Valid) (hle : l.last ≤ now) :
    Bucket.Step l.max l.refillPerSec l.bucket (seconds now, (l.allow now).1) (l.allow now).2.bucket := by
  obtain ⟨tokens, heq, hnonneg, hmax, hgain⟩ := allow_spec h hle
  rw [heq]
  exact ⟨seconds_le_seconds hle, rfl, hnonneg, hmax, hgain⟩

/-! ### Calls and runs -/

/-- The questions and answers, with the times in seconds. -/
def inSeconds (log : List (ℤ × Bool)) : List (ℚ × Bool) := log.map fun a => (seconds a.1, a.2)

/-- What the questions of a call or of several do: steps of the bucket, from a valid one to a valid one of the same
size and rate. -/
structure Follows (l : Limiter) (log : List (ℤ × Bool)) (l' : Limiter) : Prop where
  run : Bucket.Run l.max l.refillPerSec l.bucket (inSeconds log) l'.bucket
  valid : l'.Valid
  max_eq : l'.max = l.max
  rate_eq : l'.refillPerSec = l.refillPerSec
  last_le : ∀ t, l.last ≤ t → (∀ a ∈ log, a.1 ≤ t) → l'.last ≤ t

theorem Follows.refl (h : l.Valid) : l.Follows [] l := ⟨.nil _, h, rfl, rfl, fun _ ht _ => ht⟩

theorem Follows.allow (h : l.Valid) (hle : l.last ≤ now) : l.Follows [(now, (l.allow now).1)] (l.allow now).2 where
  run := .cons (step_allow h hle) (.nil _)
  valid := h.allow hle
  max_eq := (settings_allow l now).1
  rate_eq := (settings_allow l now).2
  last_le := fun _ _ ht => (last_allow h hle).trans_le (ht (now, (l.allow now).1) (List.mem_singleton_self _))

theorem Follows.trans {l' l'' : Limiter} {log log' : List (ℤ × Bool)} (h : l.Follows log l')
    (h' : l'.Follows log' l'') : l.Follows (log ++ log') l'' where
  run := by
    have hrun := h'.run
    rw [h.max_eq, h.rate_eq] at hrun
    rw [inSeconds, List.map_append]
    exact h.run.append hrun
  valid := h'.valid
  max_eq := h'.max_eq.trans h.max_eq
  rate_eq := h'.rate_eq.trans h.rate_eq
  last_le := fun t ht hall => h'.last_le t (h.last_le t ht fun a ha => hall a (List.mem_append_left _ ha))
    fun a ha => hall a (List.mem_append_right _ ha)

/-- The clock does not go back: the questions come in order, none before the last refill. -/
def Ordered (l : Limiter) (log : List (ℤ × Bool)) : Prop := (l.last :: log.map Prod.fst).Pairwise (· ≤ ·)

theorem Ordered.head {a : ℤ × Bool} {log : List (ℤ × Bool)} (h : l.Ordered (a :: log)) : l.last ≤ a.1 :=
  (List.pairwise_cons.mp h).1 a.1 (by simp)

/-- After a first part of the questions the others are still in order. -/
theorem Ordered.append {l' : Limiter} {log log' : List (ℤ × Bool)} (h : l.Ordered (log ++ log'))
    (hf : l.Follows log l') : l'.Ordered log' := by
  rw [Ordered, List.map_append, List.pairwise_cons, List.pairwise_append] at h
  obtain ⟨hlast, -, hlog', hle⟩ := h
  refine List.pairwise_cons.mpr ⟨fun t ht => ?_, hlog'⟩
  refine hf.last_le t (hlast t (List.mem_append_right _ ht)) fun a ha => ?_
  exact hle a.1 (List.mem_map_of_mem ha) t ht

theorem Ordered.left {log log' : List (ℤ × Bool)} (h : l.Ordered (log ++ log')) : l.Ordered log := by
  rw [Ordered, List.map_append, ← List.cons_append] at h
  exact (List.pairwise_append.mp h).1

theorem Follows.wait (h : l.Valid) {lates : List ℕ} (hclock : l.Ordered (l.wait now lates).1) :
    l.Follows (l.wait now lates).1 (l.wait now lates).2 := by
  induction lates generalizing l now with
  | nil => exact Follows.allow h hclock.head
  | cons late lates ih =>
    rw [Limiter.wait] at hclock ⊢
    split_ifs at hclock ⊢ with hgranted
    · have hfirst := Follows.allow h hclock.head
      rwa [hgranted] at hfirst
    · have hfirst : l.Follows [(now, false)] (l.allow now).2 := by
        have hallow := Follows.allow h hclock.head
        rwa [Bool.eq_false_iff.mpr hgranted] at hallow
      exact hfirst.trans (ih hfirst.valid (Ordered.append hclock hfirst))

theorem Follows.call (h : l.Valid) {c : LimiterCall} (hclock : l.Ordered (l.call c).1) :
    l.Follows (l.call c).1 (l.call c).2 := by
  cases c with
  | allow now => exact Follows.allow h hclock.head
  | wait now lates => exact Follows.wait h hclock

/-- Every run of calls is a run of a token bucket. -/
theorem Follows.runAll (h : l.Valid) {calls : List LimiterCall} (hclock : l.Ordered (l.run calls).1) :
    l.Follows (l.run calls).1 (l.run calls).2 := by
  induction calls generalizing l with
  | nil => exact Follows.refl h
  | cons c calls ih =>
    have hfirst := Follows.call h hclock.left
    exact hfirst.trans (ih hfirst.valid (hclock.append hfirst))

theorem run_append (l : Limiter) (calls calls' : List LimiterCall) :
    (l.run (calls ++ calls')).1 = (l.run calls).1 ++ ((l.run calls).2.run calls').1 := by
  induction calls generalizing l with
  | nil => rfl
  | cons c calls ih => rw [List.cons_append, run, run, ih, List.append_assoc]

end Limiter

/-! ### A bucket for each key -/

/-- `KeyedLimiter`. -/
structure KeyedLimiter where
  buckets : String → Option Limiter
  max : ℚ
  refillPerSec : ℚ

/-- `NewKeyedLimiter`. -/
def newKeyedLimiter (max refillPerSec : ℚ) : KeyedLimiter := ⟨fun _ => none, max, refillPerSec⟩

/-- A call with a key: the clock when its bucket would be made, and when it is asked. -/
structure KeyedCall where
  key : String
  created : ℤ
  now : ℤ
  deriving DecidableEq

namespace KeyedLimiter

/-- The bucket that a call asks. -/
def bucketOf (k : KeyedLimiter) (c : KeyedCall) : Limiter :=
  (k.buckets c.key).getD (newLimiter k.max k.refillPerSec c.created)

/-- `Allow` with a key. -/
def allow (k : KeyedLimiter) (c : KeyedCall) : Bool × KeyedLimiter :=
  (((k.bucketOf c).allow c.now).1,
    { k with buckets := Function.update k.buckets c.key (some ((k.bucketOf c).allow c.now).2) })

/-- Calls in order, with their answers. -/
def answers (k : KeyedLimiter) : List KeyedCall → List (KeyedCall × Bool)
  | [] => []
  | c :: calls => (c, (k.allow c).1) :: (k.allow c).2.answers calls

/-- Two limiters that agree on the bucket of a key, and on how they make buckets. -/
structure AgreeOn (key : String) (k k' : KeyedLimiter) : Prop where
  bucket : k.buckets key = k'.buckets key
  max_eq : k.max = k'.max
  rate_eq : k.refillPerSec = k'.refillPerSec

theorem AgreeOn.refl (key : String) (k : KeyedLimiter) : AgreeOn key k k := ⟨rfl, rfl, rfl⟩

theorem AgreeOn.bucketOf {k k' : KeyedLimiter} {c : KeyedCall} (h : AgreeOn c.key k k') :
    k.bucketOf c = k'.bucketOf c := by
  rw [KeyedLimiter.bucketOf, KeyedLimiter.bucketOf, h.bucket, h.max_eq, h.rate_eq]

/-- A call with the key: the same answer, and they still agree. -/
theorem AgreeOn.allow_same {k k' : KeyedLimiter} {c : KeyedCall} (h : AgreeOn c.key k k') :
    (k.allow c).1 = (k'.allow c).1 ∧ AgreeOn c.key (k.allow c).2 (k'.allow c).2 := by
  refine ⟨by rw [KeyedLimiter.allow, KeyedLimiter.allow, h.bucketOf], ?_, h.max_eq, h.rate_eq⟩
  simp only [KeyedLimiter.allow, Function.update_self, h.bucketOf]

/-- A call with another key is not seen. -/
theorem AgreeOn.allow_other {key : String} {k k' : KeyedLimiter} (h : AgreeOn key k k') {c : KeyedCall}
    (hne : c.key ≠ key) : AgreeOn key (k.allow c).2 k' := by
  refine ⟨?_, h.max_eq, h.rate_eq⟩
  rw [← h.bucket]
  exact Function.update_of_ne hne.symm _ _

theorem AgreeOn.answers {key : String} {k k' : KeyedLimiter} (h : AgreeOn key k k') (calls : List KeyedCall) :
    ((k.answers calls).filter fun a => a.1.key = key) = k'.answers (calls.filter fun c => c.key = key) := by
  induction calls generalizing k k' with
  | nil => rfl
  | cons c calls ih =>
    by_cases hkey : c.key = key
    · subst hkey
      obtain ⟨hsame, hagree⟩ := h.allow_same
      rw [KeyedLimiter.answers, List.filter_cons_of_pos (by simp), List.filter_cons_of_pos (by simp),
        KeyedLimiter.answers, hsame, ih hagree]
    · rw [KeyedLimiter.answers, List.filter_cons_of_neg (by simpa using hkey),
        List.filter_cons_of_neg (by simpa using hkey), ih (h.allow_other hkey)]

end KeyedLimiter

open Limiter

/-- **The rate limiter limits the rate.** For a bucket of at least one token and a positive rate, whatever
calls are made while the clock does not go back: the tokens stay within the bucket; in a window of
`d` seconds at most `max + rate * d` requests are granted; and with a bucket for each key, the
answers for a key are those of the calls with that key alone. -/
theorem limiter_limits {max rate : ℚ} (hmax : 1 ≤ max) (hrate : 0 < rate) (start : ℤ) (calls : List LimiterCall)
    (hclock : (start :: ((newLimiter max rate start).run calls).1.map Prod.fst).Pairwise (· ≤ ·)) :
    (∀ before, before <+: calls →
        0 ≤ ((newLimiter max rate start).run before).2.tokens ∧
          ((newLimiter max rate start).run before).2.tokens ≤ max) ∧
      (∀ s d : ℚ, 0 ≤ d →
        (((newLimiter max rate start).run calls).1.countP
            fun a => a.2 && decide (s ≤ seconds a.1 ∧ seconds a.1 ≤ s + d) : ℚ) ≤ max + rate * d) ∧
      ∀ (keyed : List KeyedCall) (key : String),
        (((newKeyedLimiter max rate).answers keyed).filter fun a => a.1.key = key) =
          (newKeyedLimiter max rate).answers (keyed.filter fun c => c.key = key) := by
  have hvalid : (newLimiter max rate start).Valid := ⟨zero_le_one.trans hmax, le_refl _, hrate.le⟩
  refine ⟨fun before hbefore => ?_, fun s d hd => ?_, fun keyed key => (KeyedLimiter.AgreeOn.refl key _).answers keyed⟩
  · obtain ⟨after, rfl⟩ := hbefore
    have hordered : (newLimiter max rate start).Ordered ((newLimiter max rate start).run (before ++ after)).1 := hclock
    rw [run_append] at hordered
    have hfollows := Follows.runAll hvalid hordered.left
    exact ⟨hfollows.valid.nonneg, hfollows.valid.le_max.trans_eq hfollows.max_eq⟩
  · have hle : s ≤ s + d := le_add_of_nonneg_right hd
    have hwindow := (Follows.runAll hvalid hclock).run.grantsIn_le hrate.le (zero_le_one.trans hmax) hle
    rw [grantsIn, inSeconds, List.countP_map, add_sub_cancel_left] at hwindow
    exact hwindow

/-- Three questions in a second to a bucket of two that gains one token a second: two are granted at once, and the
third one a second later. -/
theorem limiter_limits_three :
    ((newLimiter 2 1 0).run [.allow 0, .allow 0, .wait 0 [0]]).1 =
        [(0, true), (0, true), (0, false), (second, true)] ∧
      (((newLimiter 2 1 0).run [.allow 0, .allow 0, .wait 0 [0]]).1.countP
          fun a => a.2 && decide ((0 : ℚ) ≤ seconds a.1 ∧ seconds a.1 ≤ 0 + 1) : ℚ) ≤ 2 + 1 * 1 :=
  ⟨by decide +kernel,
    (limiter_limits (show (1 : ℚ) ≤ 2 by norm_num) (show (0 : ℚ) < 1 by norm_num) 0 [.allow 0, .allow 0, .wait 0 [0]]
      (by decide +kernel)).2.1 0 1 (by norm_num)⟩

end ForecastIQ.Platform
