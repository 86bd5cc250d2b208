import ForecastIQ.Collection.Observe
import ForecastIQ.Foundations.Chain

/-!
# Corrections as chains

A correction points the row it replaces to its own row. Rows of one source, location and
hour form chains in this way. A table is `Linked` when it has one live row at most for each
key, and pointers never go back and name no row of another key. That they name a row at all
is a property of its own, `Chain.Named`: the row of a correction may be passed over when it is
inserted.

What several corrections do to a row (`markAll`) is said once (`markAll_cases`): nothing,
or the first one that is for the row supersedes it.
-/

namespace ForecastIQ.Collection

open ForecastIQ.Foundations

/-! ### Keys -/

/-- The columns of the index `observations_dedup`. -/
def Observation.hourKey (o : Observation) : String × ℕ × ℤ := (o.source, o.locationID, o.observedAt)

/-- The row as its columns hold it. -/
def Observation.storedRow (o : Observation) : Observation := { o with toReading := o.stored }

/-- The key under which the row is inserted. -/
def Observation.indexKey (o : Observation) : String × ℕ × ℤ := (o.source, o.locationID, storedTime o.observedAt)

@[simp] theorem Observation.hourKey_storedRow (o : Observation) : o.storedRow.hourKey = o.indexKey := rfl

@[simp] theorem Observation.indexKey_storedRow (o : Observation) : o.storedRow.indexKey = o.indexKey := by
  simp only [indexKey, storedRow, Reading.stored, storedTime_storedTime]

theorem Observation.dedupKey_of_live {o : Observation} (h : o.live = true) : o.dedupKey = some o.hourKey := by
  rw [dedupKey, if_pos h]
  rfl

/-- An insert is passed over when the transaction sees a live row with its key. -/
theorem conflicts_dedupKey_iff {rows : List Observation} {o : Observation} (h : o.live = true) :
    conflicts Observation.dedupKey rows o = true ↔ ∃ v ∈ rows, v.live = true ∧ v.hourKey = o.hourKey := by
  rw [conflicts, Observation.dedupKey_of_live h]
  simp only [Option.isSome_some, Bool.true_and, List.any_eq_true, decide_eq_true_eq]
  refine exists_congr fun v => and_congr_right fun _ => ⟨fun hv => ?_, fun hv => ?_⟩
  · have hlive : v.live = true := by
      by_contra hno
      rw [Observation.dedupKey, if_neg hno] at hv
      cases hv
    rw [Observation.dedupKey_of_live hlive] at hv
    exact ⟨hlive, Option.some.inj hv⟩
  · rw [Observation.dedupKey_of_live hv.1, hv.2]

/-! ### Marks -/

/-- The row with all marks. -/
def markAll (marks : List Correction) (o : Observation) : Observation := marks.foldl (fun o c => c.mark o) o

/-- A correction is for the row. -/
def Correction.Names (c : Correction) (o : Observation) : Prop := o.id = c.oldID ∧ o.observedAt = c.oldObservedAt

theorem Correction.mark_of_not_live {c : Correction} {o : Observation} (h : o.live = false) : c.mark o = o := by
  rw [mark, if_neg]
  rintro ⟨-, -, hlive⟩
  rw [h] at hlive
  cases hlive

theorem markAll_of_not_live {marks : List Correction} {o : Observation} (h : o.live = false) : markAll marks o = o := by
  induction marks with
  | nil => rfl
  | cons c marks ih =>
    rw [markAll, List.foldl_cons, c.mark_of_not_live h]
    exact ih

/-- Either no mark is for the row and it is as it was, or the first of those that are supersedes it. -/
theorem markAll_cases (marks : List Correction) (o : Observation) :
    (markAll marks o = o ∧ ∀ c ∈ marks, o.live = true → ¬ c.Names o) ∨
      o.live = true ∧
        ∃ c ∈ marks, c.Names o ∧ markAll marks o = { o with supersededObservationID := some c.newID } := by
  induction marks with
  | nil => exact .inl ⟨rfl, by simp⟩
  | cons c marks ih =>
    rw [markAll, List.foldl_cons, ← markAll]
    by_cases hc : c.Names o ∧ o.live = true
    · have hmark : c.mark o = { o with supersededObservationID := some c.newID } := by
        rw [Correction.mark, if_pos ⟨hc.1.1, hc.1.2, hc.2⟩]
      rw [hmark, markAll_of_not_live rfl]
      exact .inr ⟨hc.2, c, List.mem_cons_self, hc.1, rfl⟩
    · have hmark : c.mark o = o := by
        rw [Correction.mark, if_neg]
        exact fun h => hc ⟨⟨h.1, h.2.1⟩, h.2.2⟩
      rw [hmark]
      rcases ih with ⟨he, hno⟩ | ⟨hlive, d, hd, hn, he⟩
      · refine .inl ⟨he, fun d hd hlive hn => ?_⟩
        rcases List.mem_cons.mp hd with rfl | hd
        · exact hc ⟨hn, hlive⟩
        · exact hno d hd hlive hn
      · exact .inr ⟨hlive, d, List.mem_cons_of_mem _ hd, hn, he⟩

@[simp] theorem markAll_id (marks : List Correction) (o : Observation) : (markAll marks o).id = o.id := by
  rcases markAll_cases marks o with ⟨he, -⟩ | ⟨-, c, -, -, he⟩ <;> rw [he]

@[simp] theorem markAll_hourKey (marks : List Correction) (o : Observation) :
    (markAll marks o).hourKey = o.hourKey := by
  rcases markAll_cases marks o with ⟨he, -⟩ | ⟨-, c, -, -, he⟩ <;> rw [he]
  rfl

@[simp] theorem markAll_toReading (marks : List Correction) (o : Observation) :
    (markAll marks o).toReading = o.toReading := by
  rcases markAll_cases marks o with ⟨he, -⟩ | ⟨-, c, -, -, he⟩ <;> rw [he]

theorem live_markAll {marks : List Correction} {o : Observation} :
    (markAll marks o).live = true ↔ o.live = true ∧ ∀ c ∈ marks, ¬ c.Names o := by
  rcases markAll_cases marks o with ⟨he, hno⟩ | ⟨hlive, c, hc, hn, he⟩
  · rw [he]
    exact ⟨fun h => ⟨h, fun c hc => hno c hc h⟩, fun h => h.1⟩
  · rw [he]
    exact ⟨fun h => (Bool.false_ne_true h).elim, fun h => absurd hn (h.2 c hc)⟩

/-! ### Linked tables -/

/-- The row with identifier `a` was superseded by the row with identifier `b`. -/
abbrev SupersededBy (rows : List Observation) : ℕ → ℕ → Prop :=
  Chain.Link Observation.id Observation.supersededObservationID rows

/-- The table is one of corrections: each source, location and hour has one live row at most, no
pointer goes back, and a row that one names is of the same hour and corrects no other row. -/
structure Linked (rows : List Observation) : Prop where
  nodup : (rows.map Observation.id).Nodup
  /-- The column holds microseconds. -/
  instants : ∀ o ∈ rows, storedTime o.observedAt = o.observedAt
  forward : Chain.Forward Observation.id Observation.supersededObservationID rows
  sameHour : ∀ o ∈ rows, ∀ o' ∈ rows, o.supersededObservationID = some o'.id → o'.hourKey = o.hourKey
  correctsOne : ∀ o ∈ rows, ∀ o' ∈ rows, ∀ n, o.supersededObservationID = some n →
    o'.supersededObservationID = some n → o.id = o'.id
  oneLive : ∀ o ∈ rows, ∀ o' ∈ rows, o.live = true → o'.live = true → o.hourKey = o'.hourKey → o.id = o'.id

theorem Linked.empty : Linked [] where
  nodup := List.nodup_nil
  instants := by simp
  forward := trivial
  sameHour := by simp
  correctsOne := by simp
  oneLive := by simp

/-- A chain stays in its hour. -/
theorem Linked.hourKey_of_reaches {rows : List Observation} (h : Linked rows) {a b : ℕ}
    (hab : Chain.Reaches Observation.id Observation.supersededObservationID rows a b) {o o' : Observation}
    (ho : o ∈ rows) (ho' : o' ∈ rows) (hid : o.id = a) (hid' : o'.id = b) : o'.hourKey = o.hourKey := by
  induction hab generalizing o' with
  | refl => rw [List.inj_on_of_nodup_map h.nodup ho' ho (hid'.trans hid.symm)]
  | tail _ hlink ih =>
    obtain ⟨c, hc, hcid, hnext⟩ := hlink
    rw [h.sameHour c hc o' ho' (by rw [hid']; exact hnext)]
    exact ih hc hcid

/-- Every row is still there with its key, and a row that was superseded is so by the same row. -/
def Extends (rows rows' : List Observation) : Prop :=
  ∀ o ∈ rows, ∃ o' ∈ rows', o'.id = o.id ∧ o'.hourKey = o.hourKey ∧
    ∀ n, o.supersededObservationID = some n → o'.supersededObservationID = some n

theorem Extends.refl (rows : List Observation) : Extends rows rows := fun o ho => ⟨o, ho, rfl, rfl, fun _ h => h⟩

theorem Extends.supersededBy {rows rows' : List Observation} (h : Extends rows rows') {a b : ℕ}
    (hab : SupersededBy rows a b) : SupersededBy rows' a b := by
  refine Chain.Link.mono (fun o ho n hn => ?_) hab
  obtain ⟨o', ho', hid, -, hsame⟩ := h o ho
  exact ⟨o', ho', hid, hsame n hn⟩

theorem Extends.reaches {rows rows' : List Observation} (h : Extends rows rows') {a b : ℕ}
    (hab : Chain.Reaches Observation.id Observation.supersededObservationID rows a b) :
    Chain.Reaches Observation.id Observation.supersededObservationID rows' a b :=
  Relation.ReflTransGen.mono (fun _ _ => h.supersededBy) _ _ hab

end ForecastIQ.Collection
