import ForecastIQ.Catalog.Locations
import ForecastIQ.Foundations.Processes
import ForecastIQ.Foundations.Runs

/-!
# Locations under concurrent requests

`CreateLocation` and `SetLocationStatus` run in transactions, under READ COMMITTED. A
creation takes an advisory lock, reads the active locations, compares, and inserts its row
with the commit, which also releases the lock. A status change reads its row, and updates it
with the commit; it takes no lock. The requests take these turns in any order, and any of
them may fail in between.

The lock does its work: at most one creation is past it (`checked_unique`), and as long as no
location is enabled nothing clashes (`separated_of_not_enabling`). In all runs, a clash arises
exactly when a status change enables a location that clashes with an active one, or a creation
commits beside an active location that was not in the list it compared with, or not near
before rounding (`makesPair`).
-/

namespace ForecastIQ.Catalog

open ForecastIQ.Foundations ForecastIQ.Foundations.FormEncoding

/-! ### Requests -/

/-- Where a request is. -/
inductive LocationStage where
  /-- The transaction is open. -/
  | begun
  /-- A creation has the lock. -/
  | locked
  /-- A creation has compared with these active locations. -/
  | checked (seen : List Location)
  /-- A status change has read its row. -/
  | read
  /-- Over, with the error if there was one. -/
  | done (error : Option LocationError)
  deriving DecidableEq

/-- The transaction holds the advisory lock. -/
def LocationStage.holdsLock : LocationStage → Bool
  | locked | checked _ => true
  | _ => false

/-- A request. -/
structure LocationRequest where
  call : LocationCall
  stage : LocationStage
  deriving DecidableEq

/-- The rows, who has the lock, and the requests. -/
structure LocationState where
  rows : List Location
  lock : Option ℕ
  requests : List LocationRequest
  deriving DecidableEq

/-- A turn of a request. -/
inductive LocationAct where
  | call (c : LocationCall)
  | lock (i : ℕ)
  | list (i : ℕ)
  | insert (i : ℕ)
  | read (i : ℕ)
  | update (i : ℕ)
  /-- The transaction fails and is rolled back. -/
  | fail (i : ℕ)
  deriving DecidableEq

/-- The call enables no location, and creates one only at coordinates that the columns hold. -/
def LocationCall.quiet : LocationCall → Bool
  | createLocation input id => (input.location id).stored = input.location id
  | setLocationStatus _ status => status ≠ .active

section Service

variable (knownZone : Bytes → Bool) (distance : ℚ × ℚ → ℚ × ℚ → ℚ)

namespace LocationState

/-- What a turn of a request leaves of the rows, the lock and the request. -/
abbrev Turn := LocationRequest → Option ((List Location × Option ℕ) × LocationRequest)

/-- `AcquireDedupLock`: waits while another transaction has the lock. -/
def lockTurn (s : LocationState) (i : ℕ) : Turn := fun r =>
  match r.call, r.stage with
  | .createLocation _ _, .begun => if s.lock = none then some ((s.rows, some i), { r with stage := .locked }) else none
  | _, _ => none

/-- `ListActive` and the comparison; on an error the lock is released. -/
def listTurn (s : LocationState) : Turn := fun r =>
  match r.call, r.stage with
  | .createLocation input id, .locked =>
    match dedupCheck distance (input.location id) (listActive s.rows) with
    | some e => some ((s.rows, none), { r with stage := .done (some e) })
    | none => some ((s.rows, s.lock), { r with stage := .checked (listActive s.rows) })
  | _, _ => none

/-- `Insert` and the commit, which releases the lock. -/
def insertTurn (s : LocationState) : Turn := fun r =>
  match r.call, r.stage with
  | .createLocation input id, .checked _ =>
    match insertLocation s.rows (input.location id).stored with
    | .error e => some ((s.rows, none), { r with stage := .done (some e) })
    | .ok rows => some ((rows, none), { r with stage := .done none })
  | _, _ => none

/-- `GetByID`, and the no-op rule. -/
def readTurn (s : LocationState) : Turn := fun r =>
  match r.call, r.stage with
  | .setLocationStatus id status, .begun =>
    match s.rows.find? fun l => l.id = id with
    | none => some ((s.rows, s.lock), { r with stage := .done (some .notFound) })
    | some l =>
      if l.status = status then
        some ((s.rows, s.lock), { r with stage := .done (some (.statusTransition l.status status)) })
      else some ((s.rows, s.lock), { r with stage := .read })
  | _, _ => none

/-- `UpdateStatus` and the commit. -/
def updateTurn (s : LocationState) : Turn := fun r =>
  match r.call, r.stage with
  | .setLocationStatus id status, .read =>
    match updateLocationStatus s.rows id status with
    | .error e => some ((s.rows, s.lock), { r with stage := .done (some e) })
    | .ok rows => some ((rows, s.lock), { r with stage := .done none })
  | _, _ => none

/-- The rollback of an open transaction. -/
def failTurn (s : LocationState) : Turn := fun r =>
  match r.stage with
  | .done _ => none
  | stage => some ((s.rows, if stage.holdsLock then none else s.lock), { r with stage := .done (some .database) })

/-- Request `i` takes a turn. -/
def turn (s : LocationState) : ℕ → Turn → Option LocationState :=
  takeTurn (fun shared requests => ⟨shared.1, shared.2, requests⟩) s.requests

/-- One turn. -/
def step (s : LocationState) : LocationAct → Option LocationState
  | .call c =>
    match c.validate knownZone with
    | some e => some { s with requests := s.requests ++ [⟨c, .done (some e)⟩] }
    | none => some { s with requests := s.requests ++ [⟨c, .begun⟩] }
  | .lock i => s.turn i (s.lockTurn i)
  | .list i => s.turn i (s.listTurn distance)
  | .insert i => s.turn i s.insertTurn
  | .read i => s.turn i s.readTurn
  | .update i => s.turn i s.updateTurn
  | .fail i => s.turn i s.failTurn

/-- No location, no request. -/
def start : LocationState := ⟨[], none, []⟩

end LocationState

/-- The turn makes a pair that clashes. A creation inserts a row beside one that it did not
compare with, or that was not near before rounding; a status change enables a row beside one. -/
def LocationState.makesPair (s : LocationState) : LocationAct → Bool
  | .insert i =>
    s.requests[i]?.any fun r =>
      match r.call, r.stage with
      | .createLocation input id, .checked seen =>
        let l := input.location id
        (insertLocation s.rows l.stored).isOk && s.rows.any fun e =>
          clash distance l.stored e && (!seen.contains e || !near distance l.point e.point)
      | _, _ => false
  | .update i =>
    s.requests[i]?.any fun r =>
      match r.call, r.stage with
      | .setLocationStatus id status, .read =>
        status = .active && (updateLocationStatus s.rows id status).isOk && s.rows.any fun l =>
          l.id = id && s.rows.any fun e => e.id ≠ id && clash distance { l with status := .active } e
      | _, _ => false
  | _ => false

variable {knownZone distance}

/-! ### What a turn does -/

namespace LocationState

theorem turn_some_iff {s t : LocationState} {i : ℕ} {f : Turn} :
    s.turn i f = some t ↔ ∃ r shared r', s.requests[i]? = some r ∧ f r = some (shared, r') ∧
      t = ⟨shared.1, shared.2, s.requests.set i r'⟩ :=
  takeTurn_some_iff

variable (distance) in
/-- What a turn does. -/
inductive Moves (s : LocationState) : LocationAct → LocationState → Prop where
  /-- A call arrives; its checks pass or not. -/
  | called {c : LocationCall} {stage : LocationStage} (h : stage = .begun ∨ ∃ e, stage = .done e) :
      Moves s (.call c) { s with requests := s.requests ++ [⟨c, stage⟩] }
  | locked {i : ℕ} {c : LocationCall} (hi : s.requests[i]? = some ⟨c, .begun⟩) (h : s.lock = none) :
      Moves s (.lock i) ⟨s.rows, some i, s.requests.set i ⟨c, .locked⟩⟩
  /-- The comparison has found nothing. -/
  | compared {i : ℕ} {input : CreateLocationInput} {id : ℕ}
      (hi : s.requests[i]? = some ⟨.createLocation input id, .locked⟩)
      (h : dedupCheck distance (input.location id) (listActive s.rows) = none) :
      Moves s (.list i) { s with
        requests := s.requests.set i ⟨.createLocation input id, .checked (listActive s.rows)⟩ }
  | inserted {i : ℕ} {input : CreateLocationInput} {id : ℕ} {seen rows : List Location}
      (hi : s.requests[i]? = some ⟨.createLocation input id, .checked seen⟩)
      (h : insertLocation s.rows (input.location id).stored = .ok rows) :
      Moves s (.insert i) ⟨rows, none, s.requests.set i ⟨.createLocation input id, .done none⟩⟩
  | found {i : ℕ} {c : LocationCall} (hi : s.requests[i]? = some ⟨c, .begun⟩) :
      Moves s (.read i) { s with requests := s.requests.set i ⟨c, .read⟩ }
  | updated {i id : ℕ} {status : LocationStatus} {rows : List Location}
      (hi : s.requests[i]? = some ⟨.setLocationStatus id status, .read⟩)
      (h : updateLocationStatus s.rows id status = .ok rows) :
      Moves s (.update i) ⟨rows, s.lock, s.requests.set i ⟨.setLocationStatus id status, .done none⟩⟩
  /-- The transaction has failed; it releases the lock if it has it. -/
  | failed {a : LocationAct} {i : ℕ} {r : LocationRequest} {lock : Option ℕ} {e : LocationError}
      (hi : s.requests[i]? = some r) (hpair : s.makesPair distance a = false)
      (hlock : lock = if r.stage.holdsLock then none else s.lock) :
      Moves s a ⟨s.rows, lock, s.requests.set i { r with stage := .done (some e) }⟩

theorem moves_step {s t : LocationState} {a : LocationAct} (h : s.step knownZone distance a = some t) :
    Moves distance s a t := by
  cases a with
  | call c =>
    simp only [step] at h
    split at h <;> cases h
    · exact .called (.inr ⟨_, rfl⟩)
    · exact .called (.inl rfl)
  | lock i =>
    obtain ⟨⟨c, stage⟩, ⟨rows, lock⟩, r', hi, hf, rfl⟩ := turn_some_iff.mp h
    simp only [lockTurn] at hf
    split at hf
    · split_ifs at hf with hfree
      cases hf
      exact .locked hi hfree
    · cases hf
  | list i =>
    obtain ⟨⟨c, stage⟩, ⟨rows, lock⟩, r', hi, hf, rfl⟩ := turn_some_iff.mp h
    simp only [listTurn] at hf
    split at hf
    · split at hf
      · cases hf
        exact .failed hi rfl rfl
      · rename_i hnone
        cases hf
        exact .compared hi hnone
    · cases hf
  | insert i =>
    obtain ⟨⟨c, stage⟩, ⟨rows, lock⟩, r', hi, hf, rfl⟩ := turn_some_iff.mp h
    simp only [insertTurn] at hf
    split at hf
    · split at hf
      · rename_i e herror
        cases hf
        exact .failed hi (by simp [makesPair, hi, herror, Except.isOk, Except.toBool]) rfl
      · rename_i rows' hok
        cases hf
        exact .inserted hi hok
    · cases hf
  | read i =>
    obtain ⟨⟨c, stage⟩, ⟨rows, lock⟩, r', hi, hf, rfl⟩ := turn_some_iff.mp h
    simp only [readTurn] at hf
    split at hf
    · split at hf
      · cases hf
        exact .failed hi rfl rfl
      · split_ifs at hf <;> cases hf
        · exact .failed hi rfl rfl
        · exact .found hi
    · cases hf
  | update i =>
    obtain ⟨⟨c, stage⟩, ⟨rows, lock⟩, r', hi, hf, rfl⟩ := turn_some_iff.mp h
    simp only [updateTurn] at hf
    split at hf
    · split at hf
      · rename_i e herror
        cases hf
        exact .failed hi (by simp [makesPair, hi, herror, Except.isOk, Except.toBool]) rfl
      · rename_i rows' hok
        cases hf
        exact .updated hi hok
    · cases hf
  | fail i =>
    obtain ⟨⟨c, stage⟩, ⟨rows, lock⟩, r', hi, hf, rfl⟩ := turn_some_iff.mp h
    simp only [failTurn] at hf
    split at hf
    · cases hf
    · cases hf
      exact .failed hi rfl rfl

/-! ### The lock and the comparison -/

variable (distance) in
/-- What holds in every state. -/
structure Inv (s : LocationState) : Prop where
  /-- Only the transaction that has the lock is past it. -/
  lock : ∀ i r, s.requests[i]? = some r → r.stage.holdsLock = true → s.lock = some i
  /-- A creation that is about to insert has passed its comparison. -/
  compared : ∀ input id seen, ⟨.createLocation input id, .checked seen⟩ ∈ s.requests →
    dedupCheck distance (input.location id) seen = none

/-- The lock, after a turn of request `i`. -/
theorem lock_set {s : LocationState} (h : s.Inv distance) {i : ℕ} {r' : LocationRequest} {lock : Option ℕ}
    (hself : r'.stage.holdsLock = true → lock = some i) (hothers : ∀ j, j ≠ i → s.lock = some j → lock = some j) :
    ∀ j r, (s.requests.set i r')[j]? = some r → r.stage.holdsLock = true → lock = some j := by
  intro j r hj hholds
  rcases getElem?_set_cases hj with ⟨rfl, rfl⟩ | ⟨hne, hj⟩
  · exact hself hholds
  · exact hothers j hne (h.lock j r hj hholds)

/-- The comparisons, after a turn that makes none. -/
theorem compared_set {s : LocationState} (h : s.Inv distance) {i : ℕ} {r' : LocationRequest}
    (hr' : ∀ seen, r'.stage ≠ .checked seen) :
    ∀ input id seen, ⟨.createLocation input id, .checked seen⟩ ∈ s.requests.set i r' →
      dedupCheck distance (input.location id) seen = none := by
  intro input id seen hmem
  rcases List.mem_or_eq_of_mem_set hmem with hmem | rfl
  · exact h.compared input id seen hmem
  · exact absurd rfl (hr' seen)

theorem inv_start : start.Inv distance := ⟨by simp [start], by simp [start]⟩

/-- Every turn keeps the invariant. -/
theorem Inv.step {s t : LocationState} {a : LocationAct} (h : s.Inv distance)
    (hstep : s.step knownZone distance a = some t) : t.Inv distance := by
  cases moves_step hstep with
  | @called c stage hstage =>
    have hout : stage.holdsLock = false ∧ ∀ seen, stage ≠ .checked seen := by
      rcases hstage with rfl | ⟨e, rfl⟩ <;> exact ⟨rfl, by simp⟩
    constructor
    · intro i r hi hholds
      rcases getElem?_append_cases hi with ⟨-, hlast⟩ | hi
      · cases List.mem_singleton.mp (List.mem_of_getElem? hlast)
        rw [hout.1] at hholds
        cases hholds
      · exact h.lock i r hi hholds
    · intro input id seen hmem
      rcases List.mem_append.mp hmem with hmem | hmem
      · exact h.compared input id seen hmem
      · cases List.mem_singleton.mp hmem
        exact absurd rfl (hout.2 seen)
  | locked hi hfree =>
    refine ⟨lock_set h (fun _ => rfl) fun j _ hj => ?_, compared_set h (by simp)⟩
    rw [hfree] at hj
    cases hj
  | @compared i input id hi hnone =>
    have hlock : s.lock = some i := h.lock i _ hi rfl
    refine ⟨lock_set h (fun _ => hlock) fun _ _ hj => hj, ?_⟩
    intro input' id' seen hmem
    rcases List.mem_or_eq_of_mem_set hmem with hmem | he
    · exact h.compared input' id' seen hmem
    · cases he
      exact hnone
  | @inserted i input id seen rows hi _ =>
    have hlock : s.lock = some i := h.lock i _ hi rfl
    refine ⟨lock_set h (by simp [LocationStage.holdsLock]) fun j hne hj => ?_, compared_set h (by simp)⟩
    rw [hlock, Option.some.injEq] at hj
    exact absurd hj.symm hne
  | found hi => exact ⟨lock_set h (by simp [LocationStage.holdsLock]) fun _ _ hj => hj, compared_set h (by simp)⟩
  | updated hi _ => exact ⟨lock_set h (by simp [LocationStage.holdsLock]) fun _ _ hj => hj, compared_set h (by simp)⟩
  | @failed _ i r lock e hi _ hlock =>
    refine ⟨lock_set h (by simp [LocationStage.holdsLock]) fun j hne hj => ?_, compared_set h (by simp)⟩
    cases hholds : r.stage.holdsLock with
    | false => simpa [hlock, hholds] using hj
    | true =>
      rw [h.lock i r hi hholds, Option.some.injEq] at hj
      exact absurd hj.symm hne

/-- At most one creation is past the lock. -/
theorem checked_unique {s : LocationState} (h : s.Inv distance) {i j : ℕ} {r r' : LocationRequest}
    (hi : s.requests[i]? = some r) (hr : r.stage.holdsLock = true) (hj : s.requests[j]? = some r')
    (hr' : r'.stage.holdsLock = true) : i = j :=
  Option.some.inj ((h.lock i r hi hr).symm.trans (h.lock j r' hj hr'))

/-! ### When locations clash -/

theorem makesPair_insert_iff {s : LocationState} {i id : ℕ} {input : CreateLocationInput} {seen rows : List Location}
    (hi : s.requests[i]? = some ⟨.createLocation input id, .checked seen⟩)
    (hok : insertLocation s.rows (input.location id).stored = .ok rows) :
    s.makesPair distance (.insert i) = true ↔ ∃ e ∈ s.rows, clash distance (input.location id).stored e = true ∧
      (e ∉ seen ∨ near distance (input.location id).point e.point = false) := by
  simp [makesPair, hi, hok, Except.isOk, Except.toBool]

theorem makesPair_update_iff {s : LocationState} {i id : ℕ} {status : LocationStatus} {rows : List Location}
    (hi : s.requests[i]? = some ⟨.setLocationStatus id status, .read⟩)
    (hok : updateLocationStatus s.rows id status = .ok rows) :
    s.makesPair distance (.update i) = true ↔ status = .active ∧ ∃ l ∈ s.rows, l.id = id ∧
      ∃ e ∈ s.rows, e.id ≠ id ∧ clash distance { l with status := .active } e = true := by
  simp [makesPair, hi, hok, Except.isOk, Except.toBool]

/-- A turn keeps the locations separated exactly when it does not make a pair. -/
theorem step_separated_iff (hsymm : ∀ p q, distance p q = distance q p) {s t : LocationState} {a : LocationAct}
    (hinv : s.Inv distance) (h : Separated distance s.rows) (hstep : s.step knownZone distance a = some t) :
    Separated distance t.rows ↔ ¬ s.makesPair distance a = true := by
  cases moves_step hstep with
  | called _ => exact iff_of_true h (by simp [makesPair])
  | locked _ _ => exact iff_of_true h (by simp [makesPair])
  | compared _ _ => exact iff_of_true h (by simp [makesPair])
  | @inserted i input id seen rows hi hok =>
    obtain ⟨hfresh, -, rfl⟩ := insertLocation_ok_iff.mp hok
    rw [separated_concat_iff hsymm h hfresh, makesPair_insert_iff hi hok]
    have hcompared := hinv.compared input id seen (List.mem_of_getElem? hi)
    constructor
    · rintro hnone ⟨e, he, hclash, -⟩
      rw [hnone e he] at hclash
      cases hclash
    · intro hnot e he
      by_contra hclash
      rw [Bool.not_eq_false] at hclash
      -- the comparison was with the given point
      have hflag : (input.location id).allowNearDuplicate = false := (clash_iff.mp hclash).2.2.1
      refine hnot ⟨e, he, hclash, ?_⟩
      by_cases hseen : e ∈ seen
      · exact .inr (not_near_of_dedupCheck hcompared hflag hseen)
      · exact .inl hseen
  | found _ => exact iff_of_true h (by simp [makesPair])
  | @updated i id status rows hi hok =>
    rw [updateLocationStatus_ok hok, makesPair_update_iff hi hok]
    by_cases hstatus : status = .active
    · subst hstatus
      rw [separated_enabled_iff hsymm h]
      simp
    · exact iff_of_true (separated_withStatus h hstatus) (by simp [hstatus])
  | failed _ hpair _ => exact iff_of_true h (by simp [hpair])

/-! ### Without enabling -/

variable (distance) in
/-- The invariant of runs of quiet calls: nothing clashes, and a creation that is about to insert
has seen every active location. -/
structure Settled (s : LocationState) : Prop where
  inv : s.Inv distance
  separated : Separated distance s.rows
  calls : ∀ r ∈ s.requests, r.call.quiet = true
  seen : ∀ c seen, ⟨c, .checked seen⟩ ∈ s.requests → ∀ e ∈ s.rows, e.active = true → e ∈ seen

/-- A turn of quiet calls makes no pair. -/
theorem Settled.not_makesPair {s t : LocationState} {a : LocationAct} (h : s.Settled distance)
    (hstep : s.step knownZone distance a = some t) : ¬ s.makesPair distance a = true := by
  cases moves_step hstep with
  | @inserted i input id seen rows hi hok =>
    have hmem := List.mem_of_getElem? hi
    have hstored : (input.location id).stored = input.location id := by
      simpa [LocationCall.quiet] using h.calls _ hmem
    rw [makesPair_insert_iff hi hok]
    rintro ⟨e, he, hclash, hout⟩
    obtain ⟨-, hactive, -, -, hnear⟩ := clash_iff.mp hclash
    rcases hout with hout | hout
    · exact hout (h.seen _ _ hmem e he hactive)
    · rw [hstored, hout] at hnear
      cases hnear
  | @updated i id status rows hi hok =>
    have hquiet : status ≠ .active := by
      simpa [LocationCall.quiet] using h.calls _ (List.mem_of_getElem? hi)
    rw [makesPair_update_iff hi hok]
    rintro ⟨hactive, -⟩
    exact hquiet hactive
  | failed _ hpair _ => simp [hpair]
  | _ => simp [makesPair]

/-- What the creations have seen, after a turn that leaves the rows and makes no comparison. -/
theorem seen_set {s : LocationState} {rows : List Location} {i : ℕ} {r' : LocationRequest}
    (h : ∀ c seen, ⟨c, .checked seen⟩ ∈ s.requests → ∀ e ∈ rows, e.active = true → e ∈ seen)
    (hr' : ∀ seen, r'.stage ≠ .checked seen) :
    ∀ c seen, ⟨c, .checked seen⟩ ∈ s.requests.set i r' → ∀ e ∈ rows, e.active = true → e ∈ seen := by
  intro c seen hmem
  rcases List.mem_or_eq_of_mem_set hmem with hmem | rfl
  · exact h c seen hmem
  · exact absurd rfl (hr' seen)

/-- A turn keeps every request's call. -/
theorem calls_set {s : LocationState} {i : ℕ} {r r' : LocationRequest} (h : ∀ r ∈ s.requests, r.call.quiet = true)
    (hi : s.requests[i]? = some r) (hr' : r'.call = r.call) : ∀ x ∈ s.requests.set i r', x.call.quiet = true :=
  forall_mem_set h (by rw [hr']; exact h r (List.mem_of_getElem? hi))

/-- Quiet calls keep the locations settled. -/
theorem Settled.step (hsymm : ∀ p q, distance p q = distance q p) {s t : LocationState} {a : LocationAct}
    (h : s.Settled distance) (ha : ∀ c, a = .call c → c.quiet = true) (hstep : s.step knownZone distance a = some t) :
    t.Settled distance := by
  have hseparated : Separated distance t.rows :=
    (step_separated_iff hsymm h.inv h.separated hstep).mpr (h.not_makesPair hstep)
  have hinv : t.Inv distance := h.inv.step hstep
  cases moves_step hstep with
  | @called c stage hstage =>
    refine ⟨hinv, hseparated, fun r hr => ?_, fun c' seen hmem => ?_⟩
    · rcases List.mem_append.mp hr with hr | hr
      · exact h.calls r hr
      · cases List.mem_singleton.mp hr
        exact ha c rfl
    · rcases List.mem_append.mp hmem with hmem | hmem
      · exact h.seen c' seen hmem
      · cases List.mem_singleton.mp hmem
        simp at hstage
  | locked hi _ => exact ⟨hinv, hseparated, calls_set h.calls hi rfl, seen_set h.seen (by simp)⟩
  | compared hi _ =>
    refine ⟨hinv, hseparated, calls_set h.calls hi rfl, fun c seen hmem e he hactive => ?_⟩
    rcases List.mem_or_eq_of_mem_set hmem with hmem | heq
    · exact h.seen c seen hmem e he hactive
    · cases heq
      exact mem_listActive.mpr ⟨he, hactive⟩
  | @inserted i input id seen rows hi hok =>
    refine ⟨hinv, hseparated, calls_set h.calls hi rfl, fun c seen' hmem => ?_⟩
    -- the lock keeps every other creation from having seen the rows before the insert
    obtain ⟨j, hj⟩ := List.mem_iff_getElem?.mp hmem
    rcases getElem?_set_cases hj with ⟨-, heq⟩ | ⟨hne, hj⟩
    · cases heq
    · exact absurd (checked_unique h.inv hj rfl hi rfl) hne
  | found hi => exact ⟨hinv, hseparated, calls_set h.calls hi rfl, seen_set h.seen (by simp)⟩
  | @updated i id status rows hi hok =>
    have hquiet : status ≠ .active := by
      simpa [LocationCall.quiet] using h.calls _ (List.mem_of_getElem? hi)
    refine ⟨hinv, hseparated, calls_set h.calls hi rfl, seen_set (fun c seen hmem e he hactive => ?_) (by simp)⟩
    rw [updateLocationStatus_ok hok] at he
    rcases mem_withStatus.mp he with ⟨he, -⟩ | ⟨l, -, -, rfl⟩
    · exact h.seen c seen hmem e he hactive
    · simp [Location.active, hquiet] at hactive
  | failed hi _ _ => exact ⟨hinv, hseparated, calls_set h.calls hi rfl, seen_set h.seen (by simp)⟩

/-- **The lock keeps creations apart**: in a run that enables no location nothing clashes. -/
theorem separated_of_not_enabling (hsymm : ∀ p q, distance p q = distance q p) {acts : List LocationAct}
    {t : LocationState} (hquiet : ∀ a ∈ acts, ∀ c, a = .call c → c.quiet = true)
    (hrun : runFrom (step knownZone distance) start acts = some t) : Separated distance t.rows := by
  have hstart : start.Settled distance := ⟨inv_start, by simp [start, Separated], by simp [start], by simp [start]⟩
  have hsettled : t.Settled distance :=
    runFrom_invariant_of_along (P := Settled distance) (fun _ _ _ hs ha => hs.step hsymm ha) hstart
      (along_of_forall_mem hquiet start) hrun
  exact hsettled.separated

/-! ### All runs -/

/-- **No two locations clash after any turn exactly when no turn makes a pair that does**,
from the empty table, for any symmetric distance. -/
theorem locations_separated_iff (hsymm : ∀ p q, distance p q = distance q p) {acts : List LocationAct}
    {t : LocationState}
    (hrun : runFrom (step knownZone distance) start acts = some t) :
    (∀ pre u, pre <+: acts → runFrom (step knownZone distance) start pre = some u → Separated distance u.rows) ↔
      Along (step knownZone distance) (fun s a => ¬ s.makesPair distance a = true) start acts :=
  forall_states_iff_along (I := Inv distance) (G := fun s => Separated distance s.rows)
    (fun _ _ _ => Inv.step) (fun _ _ _ => step_separated_iff hsymm) inv_start (by simp [start, Separated]) hrun

/-- A distance on the grid of coordinates. -/
def gridDistance (p q : ℚ × ℚ) : ℚ := |p.1 - q.1| + |p.2 - q.2|

theorem gridDistance_comm (p q : ℚ × ℚ) : gridDistance p q = gridDistance q p := by
  rw [gridDistance, gridDistance, abs_sub_comm p.1, abs_sub_comm p.2]

/-- A location at a latitude, in thousandths of a degree. -/
def site (name : String) (latitude : ℤ) : CreateLocationInput :=
  ⟨0, ascii name, mkRat latitude 1000, 0, ascii "DE", ascii "UTC", false, []⟩

/-- Two locations far apart, one of them disabled and enabled again. -/
theorem separated_far_apart :
    (∀ p q, gridDistance p q = gridDistance q p) ∧
      ∀ pre u, pre <+: [.call (.createLocation (site "A" 0) 1), .lock 0, .list 0, .insert 0,
          .call (.createLocation (site "B" 500) 2), .lock 1, .list 1, .insert 1, .call (.setLocationStatus 1 .disabled),
          .read 2, .update 2, .call (.setLocationStatus 1 .active), .read 3, .update 3] →
        runFrom (step (fun _ => true) gridDistance) start pre = some u → Separated gridDistance u.rows := by
  have hrun : (runFrom (step (fun _ => true) gridDistance) start
      [.call (.createLocation (site "A" 0) 1), .lock 0, .list 0, .insert 0,
        .call (.createLocation (site "B" 500) 2), .lock 1, .list 1, .insert 1, .call (.setLocationStatus 1 .disabled),
        .read 2, .update 2, .call (.setLocationStatus 1 .active), .read 3, .update 3]).isSome := by decide +kernel
  obtain ⟨t, ht⟩ := Option.isSome_iff_exists.mp hrun
  exact ⟨gridDistance_comm, (locations_separated_iff gridDistance_comm ht).mpr (by decide +kernel)⟩

/-- A location is disabled, another is created a hundredth of a degree away, and the first is
enabled again: both are active, and neither was created with the flag. -/
theorem enabled_beside_duplicate :
    (∀ p q, gridDistance p q = gridDistance q p) ∧
      ∃ t, runFrom (step (fun _ => true) gridDistance) start
        [.call (.createLocation (site "A" 0) 1), .lock 0, .list 0, .insert 0,
          .call (.setLocationStatus 1 .disabled), .read 1, .update 1,
          .call (.createLocation (site "B" 10) 2), .lock 2, .list 2, .insert 2,
          .call (.setLocationStatus 1 .active), .read 3, .update 3] = some t ∧ ¬ Separated gridDistance t.rows := by
  have hrun : (runFrom (step (fun _ => true) gridDistance) start
      [.call (.createLocation (site "A" 0) 1), .lock 0, .list 0, .insert 0,
        .call (.setLocationStatus 1 .disabled), .read 1, .update 1,
        .call (.createLocation (site "B" 10) 2), .lock 2, .list 2, .insert 2,
        .call (.setLocationStatus 1 .active), .read 3, .update 3]).map
          (fun t => decide (Separated gridDistance t.rows)) = some false := by decide +kernel
  obtain ⟨t, ht, hclash⟩ := Option.map_eq_some_iff.mp hrun
  exact ⟨gridDistance_comm, t, ht, of_decide_eq_false hclash⟩

/-- Two creations a hundredth of a degree apart at the same time: the second waits for the lock, and is refused. -/
theorem separated_of_not_enabling_two :
    ∃ t, runFrom (step (fun _ => true) gridDistance) start
        [.call (.createLocation (site "A" 0) 1), .call (.createLocation (site "B" 10) 2), .lock 0, .list 0, .insert 0,
          .lock 1, .list 1] = some t ∧ t.rows.length = 1 ∧ Separated gridDistance t.rows := by
  have hrun : (runFrom (step (fun _ => true) gridDistance) start
      [.call (.createLocation (site "A" 0) 1), .call (.createLocation (site "B" 10) 2), .lock 0, .list 0, .insert 0,
        .lock 1, .list 1]).map (fun t => t.rows.length) = some 1 := by decide +kernel
  obtain ⟨t, ht, hlength⟩ := Option.map_eq_some_iff.mp hrun
  refine ⟨t, ht, hlength, separated_of_not_enabling gridDistance_comm (fun a ha c hc => ?_) ht⟩
  subst hc
  simp only [List.mem_cons, LocationAct.call.injEq, reduceCtorEq, List.not_mem_nil, or_false] at ha
  rcases ha with rfl | rfl
  · decide +kernel
  · decide +kernel

end LocationState

end Service

end ForecastIQ.Catalog
