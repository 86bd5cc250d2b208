import ForecastIQ.Identity.Users
import ForecastIQ.Foundations.Runs
import ForecastIQ.Foundations.Processes

/-!
# The admin surface under concurrent requests

A request of the admin surface is authenticated, its role is checked, and only later does it
change its target: between the two the requests of other admins run. Here a request takes
four turns, and the requests take their turns in any order:

* the middleware, which reads the actor's row (`RequireAuth`, `RequireRole("admin")`);
* what the call does before its transaction (`AdminCall.prepare`);
* the answer of the auth provider (`AdminCall.propagate`);
* the transaction (`AdminCall.commit`).

The self-lockout rule looks at the actor's id only: no call changes its own actor
(`Surface.Inv`), and while the actor of every mutation is an active admin, an active admin
remains (`hasActiveAdmin_of_actors`). But a request that has passed the middleware is not checked
again. An active admin remains exactly when no mutation takes the last one out, which only
an actor who has lost the role or the status since its check can do (`takesLast`).
-/

namespace ForecastIQ.Identity

open ForecastIQ.Foundations

/-! ### Requests -/

/-- Where a request of the admin surface is. -/
inductive AdminStage where
  /-- The middleware let it through. -/
  | checked
  /-- The input is valid, and the target was found. -/
  | prepared
  /-- The auth provider has answered. -/
  | ready
  /-- Over, with the error if there was one. -/
  | done (error : Option AdminError)
  deriving DecidableEq

/-- A request of the admin surface. -/
structure AdminRequest where
  actorID : ℕ
  call : AdminCall
  stage : AdminStage
  deriving DecidableEq

/-- The users, and the requests that the middleware let through. -/
structure Surface where
  users : List User
  requests : List AdminRequest
  deriving DecidableEq

/-- A turn of a request. -/
inductive SurfaceAct where
  /-- A request arrives at the middleware. -/
  | check (actorID : ℕ) (call : AdminCall)
  | prepare (i : ℕ)
  | propagate (i : ℕ) (answered : Bool)
  | mutate (i : ℕ)
  deriving DecidableEq

namespace Surface

/-- `RequireAuth` and `RequireRole("admin")`: the actor's row is that of an active admin. -/
def letsThrough (users : List User) (actorID : ℕ) : Bool := (getByID users actorID).any User.isActiveAdmin

/-- Request `i` takes a turn. -/
def turn (s : Surface) : ℕ → (AdminRequest → Option (List User × AdminRequest)) → Option Surface :=
  takeTurn Surface.mk s.requests

/-- The stage after a part that may fail. -/
def next (stage : AdminStage) : Except AdminError Unit → AdminStage
  | .ok _ => stage
  | .error e => .done (some e)

/-- The turn of a request that is about to prepare. -/
def prepareTurn (users : List User) (r : AdminRequest) : Option (List User × AdminRequest) :=
  if r.stage = .checked then some (users, { r with stage := next .prepared (r.call.prepare users r.actorID) })
  else none

/-- The turn of a request that waits for the auth provider. -/
def propagateTurn (users : List User) (answered : Bool) (r : AdminRequest) : Option (List User × AdminRequest) :=
  if r.stage = .prepared then some (users, { r with stage := next .ready (r.call.propagate answered) }) else none

/-- The transaction of a request: on an error it is rolled back. -/
def mutateTurn (users : List User) (r : AdminRequest) : Option (List User × AdminRequest) :=
  if r.stage = .ready then
    match r.call.commit users r.actorID with
    | .ok users' => some (users', { r with stage := .done none })
    | .error e => some (users, { r with stage := .done (some e) })
  else none

/-- One turn. The admin surface has no self-service calls, and a request that the middleware
refuses changes nothing. -/
def step (s : Surface) : SurfaceAct → Option Surface
  | .check actorID call =>
    if call.selfService then none
    else if letsThrough s.users actorID then some { s with requests := s.requests ++ [⟨actorID, call, .checked⟩] }
    else some s
  | .prepare i => s.turn i (prepareTurn s.users)
  | .propagate i answered => s.turn i (propagateTurn s.users answered)
  | .mutate i => s.turn i (mutateTurn s.users)

/-- No request yet. -/
def start (users : List User) : Surface := ⟨users, []⟩

/-- Some user is an active admin. -/
def HasActiveAdmin (s : Surface) : Prop := ∃ u ∈ s.users, u.isActiveAdmin = true

instance (s : Surface) : Decidable s.HasActiveAdmin :=
  inferInstanceAs (Decidable (∃ u ∈ s.users, u.isActiveAdmin = true))

theorem turn_some_iff {s t : Surface} {i : ℕ} {f : AdminRequest → Option (List User × AdminRequest)} :
    s.turn i f = some t ↔ ∃ r users r', s.requests[i]? = some r ∧ f r = some (users, r') ∧
      t = ⟨users, s.requests.set i r'⟩ :=
  takeTurn_some_iff

/-! ### What the self-lockout rule gives -/

/-- A request of the admin surface that is past its preparation is not about its actor. -/
def Regular (r : AdminRequest) : Prop :=
  r.call.selfService = false ∧ (r.stage = .prepared ∨ r.stage = .ready → r.call.targetID ≠ r.actorID)

/-- Every request is regular. -/
def Inv (s : Surface) : Prop := ∀ r ∈ s.requests, Regular r

theorem regular_next {r : AdminRequest} (h : r.call.selfService = false) {stage : AdminStage}
    {result : Except AdminError Unit} (hok : result = .ok () → r.call.targetID ≠ r.actorID) :
    Regular { r with stage := next stage result } := by
  refine ⟨h, fun hstage => ?_⟩
  cases result with
  | ok _ => exact hok rfl
  | error e => simp [next] at hstage

/-- Every turn keeps the requests regular. -/
theorem Inv.step {s t : Surface} {a : SurfaceAct} (h : s.Inv) (hstep : s.step a = some t) : t.Inv := by
  cases a with
  | check actorID call =>
    simp only [Surface.step] at hstep
    split_ifs at hstep with hself hthrough
    · cases hstep
      intro r hr
      rcases List.mem_append.mp hr with hr | hr
      · exact h r hr
      · cases List.mem_singleton.mp hr
        exact ⟨by simpa using hself, by simp⟩
    · cases hstep
      exact h
  | prepare i =>
    obtain ⟨r, users, r', hi, hf, rfl⟩ := turn_some_iff.mp hstep
    obtain ⟨hself, -⟩ := h r (List.mem_of_getElem? hi)
    refine forall_mem_set h ?_
    simp only [prepareTurn] at hf
    split_ifs at hf with hstage
    cases hf
    exact regular_next hself fun hok => (AdminCall.prepare_ok_iff.mp hok).2.1 hself
  | propagate i answered =>
    obtain ⟨r, users, r', hi, hf, rfl⟩ := turn_some_iff.mp hstep
    obtain ⟨hself, hne⟩ := h r (List.mem_of_getElem? hi)
    refine forall_mem_set h ?_
    simp only [propagateTurn] at hf
    split_ifs at hf with hstage
    cases hf
    exact regular_next hself fun _ => hne (.inl hstage)
  | mutate i =>
    obtain ⟨r, users, r', hi, hf, rfl⟩ := turn_some_iff.mp hstep
    obtain ⟨hself, -⟩ := h r (List.mem_of_getElem? hi)
    refine forall_mem_set h ?_
    simp only [mutateTurn] at hf
    split_ifs at hf with hstage
    split at hf <;> cases hf <;> exact ⟨hself, by simp⟩

/-! ### The last active admin -/

/-- The turn is a mutation that takes the last active admin out, by an actor whose row is
there but no longer that of an active admin. -/
def takesLast (s : Surface) : SurfaceAct → Bool
  | .mutate i =>
    s.requests[i]?.any fun r =>
      r.stage = .ready && r.call.removes && (getByID s.users r.actorID).any (fun u => !u.isActiveAdmin) &&
        s.users.all fun u => !u.isActiveAdmin || u.id = r.call.targetID
  | _ => false

theorem takesLast_mutate_iff {s : Surface} {i : ℕ} {r : AdminRequest} (hi : s.requests[i]? = some r) :
    s.takesLast (.mutate i) = true ↔ r.stage = .ready ∧ r.call.removes = true ∧
      (∃ u, getByID s.users r.actorID = some u ∧ u.isActiveAdmin = false) ∧
        ∀ u ∈ s.users, u.isActiveAdmin = true → u.id = r.call.targetID := by
  have hor : ∀ u : User, (u.isActiveAdmin = false ∨ u.id = r.call.targetID) ↔
      (u.isActiveAdmin = true → u.id = r.call.targetID) := by
    intro u
    cases u.isActiveAdmin <;> simp
  simp [takesLast, hi, Option.any_eq_true, hor, and_assoc]

/-- After the statement on the target's row there is an active admin, unless the target was
the only one and is taken out. -/
theorem exists_isActiveAdmin_rewrite_iff {users : List User} (c : AdminCall) (h : ∃ u ∈ users, u.isActiveAdmin = true) :
    (∃ v ∈ users.filterMap fun u => if u.id = c.targetID then c.rewrite u else some u, v.isActiveAdmin = true) ↔
      ¬ (c.removes = true ∧ ∀ u ∈ users, u.isActiveAdmin = true → u.id = c.targetID) := by
  constructor
  · rintro ⟨v, hv, hadmin⟩ ⟨hremoves, hall⟩
    rcases mem_rewrite_iff.mp hv with ⟨hmem, hne⟩ | ⟨u, -, -, hu⟩
    · exact hne (hall v hmem hadmin)
    · rw [AdminCall.isActiveAdmin_rewrite hu hadmin] at hremoves
      cases hremoves
  · intro hnot
    by_cases hother : ∃ u ∈ users, u.isActiveAdmin = true ∧ u.id ≠ c.targetID
    · obtain ⟨u, hu, hadmin, hne⟩ := hother
      exact ⟨u, mem_rewrite_iff.mpr (.inl ⟨hu, hne⟩), hadmin⟩
    · simp only [not_exists, not_and, not_not] at hother
      have hkeeps : c.removes = false := by
        by_contra hremoves
        exact hnot ⟨by simpa using hremoves, hother⟩
      obtain ⟨u, hu, hadmin⟩ := h
      obtain ⟨v, hv, hvadmin⟩ := AdminCall.exists_rewrite_of_not_removes hkeeps hadmin
      exact ⟨v, mem_rewrite_iff.mpr (.inr ⟨u, hu, hother u hu hadmin, hv⟩), hvadmin⟩

/-- A turn leaves an active admin exactly when it does not take the last one out. -/
theorem step_hasActiveAdmin_iff {s t : Surface} {a : SurfaceAct} (hinv : s.Inv) (h : s.HasActiveAdmin)
    (hstep : s.step a = some t) : t.HasActiveAdmin ↔ ¬ s.takesLast a = true := by
  cases a with
  | check actorID call =>
    simp only [step] at hstep
    split_ifs at hstep with hself hthrough <;> cases hstep <;> exact iff_of_true h (by simp [takesLast])
  | prepare i =>
    obtain ⟨r, users, r', hi, hf, rfl⟩ := turn_some_iff.mp hstep
    simp only [prepareTurn] at hf
    split_ifs at hf
    cases hf
    exact iff_of_true h (by simp [takesLast])
  | propagate i answered =>
    obtain ⟨r, users, r', hi, hf, rfl⟩ := turn_some_iff.mp hstep
    simp only [propagateTurn] at hf
    split_ifs at hf
    cases hf
    exact iff_of_true h (by simp [takesLast])
  | mutate i =>
    obtain ⟨r, users, r', hi, hf, rfl⟩ := turn_some_iff.mp hstep
    rw [takesLast_mutate_iff hi]
    simp only [mutateTurn] at hf
    split_ifs at hf with hready
    have hne : r.call.targetID ≠ r.actorID := (hinv r (List.mem_of_getElem? hi)).2 (.inr hready)
    -- the only active admin is the target, so the actor is none
    have hlost : (∀ u ∈ s.users, u.isActiveAdmin = true → u.id = r.call.targetID) →
        ∀ u, getByID s.users r.actorID = some u → u.isActiveAdmin = false := by
      intro hall u hu
      obtain ⟨hmem, hid⟩ := getByID_some hu
      by_contra hadmin
      exact hne ((hall u hmem (by simpa using hadmin)).symm.trans hid)
    split at hf
    · rename_i users' hcommit
      cases hf
      obtain ⟨hactor, -, rfl⟩ := AdminCall.commit_ok_iff.mp hcommit
      obtain ⟨u, hu⟩ := Option.isSome_iff_exists.mp (getByID_isSome_iff.mpr hactor)
      refine (exists_isActiveAdmin_rewrite_iff r.call h).trans (not_congr ⟨fun hlast => ?_, fun hlast => ?_⟩)
      · exact ⟨hready, hlast.1, ⟨u, hu, hlost hlast.2 u hu⟩, hlast.2⟩
      · exact ⟨hlast.2.1, hlast.2.2.2⟩
    · rename_i e hcommit
      cases hf
      refine iff_of_true h ?_
      rintro ⟨-, -, ⟨u, hu, -⟩, hall⟩
      obtain ⟨v, hv, hadmin⟩ := h
      have hok := AdminCall.commit_ok_iff.mpr ⟨⟨u, getByID_some hu⟩, ⟨v, hv, hall v hv hadmin⟩, rfl⟩
      rw [hcommit] at hok
      cases hok

/-- **An active admin remains after every turn exactly when no mutation takes the last one
out**, from any users with an active admin. -/
theorem admins_kept_iff {users : List User} (h : (start users).HasActiveAdmin) {acts : List SurfaceAct} {t : Surface}
    (hrun : runFrom step (start users) acts = some t) :
    (∀ pre u, pre <+: acts → runFrom step (start users) pre = some u → u.HasActiveAdmin) ↔
      Along step (fun s a => ¬ s.takesLast a = true) (start users) acts :=
  forall_states_iff_along (fun _ _ _ => Inv.step) (fun _ _ _ => step_hasActiveAdmin_iff)
    (by intro r hr; cases hr) h hrun

/-- Two active admins. -/
def twoAdmins : List User :=
  [⟨1, "subject-1", "one@example.org", .admin, .active⟩, ⟨2, "subject-2", "two@example.org", .admin, .active⟩]

/-- One of two admins disables the other. -/
theorem admins_kept_disable :
    (start twoAdmins).HasActiveAdmin ∧
      ∀ pre u, pre <+: [.check 1 (.setStatus 2 "disabled"), .prepare 0, .propagate 0 true, .mutate 0] →
        runFrom step (start twoAdmins) pre = some u → u.HasActiveAdmin := by
  have h : (start twoAdmins).HasActiveAdmin := by decide
  have hrun : (runFrom step (start twoAdmins)
      [.check 1 (.setStatus 2 "disabled"), .prepare 0, .propagate 0 true, .mutate 0]).isSome := by decide +kernel
  obtain ⟨t, ht⟩ := Option.isSome_iff_exists.mp hrun
  exact ⟨h, (admins_kept_iff h ht).mpr (by decide +kernel)⟩

/-- Both admins are let through before either mutation: each disables the other. -/
theorem mutual_disable :
    (start twoAdmins).HasActiveAdmin ∧
      ∃ t, runFrom step (start twoAdmins)
        [.check 1 (.setStatus 2 "disabled"), .check 2 (.setStatus 1 "disabled"), .prepare 0, .prepare 1,
          .propagate 0 true, .propagate 1 true, .mutate 0, .mutate 1] = some t ∧ ¬ t.HasActiveAdmin := by
  refine ⟨by decide, ⟨[⟨1, "subject-1", "one@example.org", .admin, .disabled⟩,
    ⟨2, "subject-2", "two@example.org", .admin, .disabled⟩],
    [⟨1, .setStatus 2 "disabled", .done none⟩, ⟨2, .setStatus 1 "disabled", .done none⟩]⟩, ?_, by decide⟩
  decide +kernel

/-- The actor of a mutation is still an active admin. -/
def actorIsAdmin (s : Surface) : SurfaceAct → Bool
  | .mutate i => s.requests[i]?.all fun r => letsThrough s.users r.actorID
  | _ => true

theorem not_takesLast_of_actorIsAdmin {s : Surface} {a : SurfaceAct} (h : s.actorIsAdmin a = true) :
    ¬ s.takesLast a = true := by
  cases a with
  | mutate i =>
    cases hi : s.requests[i]? with
    | none => simp [takesLast, hi]
    | some r =>
      rw [takesLast_mutate_iff hi]
      rintro ⟨-, -, ⟨u, hu, hlost⟩, -⟩
      simp [actorIsAdmin, hi, letsThrough, hu, hlost] at h
  | _ => simp [takesLast]

/-- While the middleware's check still holds at every mutation, an active admin remains. -/
theorem hasActiveAdmin_of_actors {users : List User} (h : (start users).HasActiveAdmin) {acts : List SurfaceAct}
    {t : Surface} (hactors : Along step (fun s a => s.actorIsAdmin a = true) (start users) acts)
    (hrun : runFrom step (start users) acts = some t) : t.HasActiveAdmin := by
  have hkept : t.Inv ∧ t.HasActiveAdmin := by
    refine runFrom_invariant_of_along (P := fun s => s.Inv ∧ s.HasActiveAdmin) ?_ ⟨?_, h⟩ hactors hrun
    · rintro s a u ⟨hinv, hadmin⟩ hactor hu
      exact ⟨hinv.step hu, (step_hasActiveAdmin_iff hinv hadmin hu).mpr (not_takesLast_of_actorIsAdmin hactor)⟩
    · intro r hr
      cases hr
  exact hkept.2

end Surface

end ForecastIQ.Identity
