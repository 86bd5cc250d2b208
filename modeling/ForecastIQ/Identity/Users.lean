import Mathlib.Data.List.Basic
import Mathlib.Data.Nat.Notation

/-!
# Users and the admin surface

The rows of `users`, the statements of the user repository, and the calls of
`AdminUserService` that change a user: `SetStatus`, `SetRole` and `Delete`. The profile
fields and time stamps of a user are left out, no function here reads them.

A call first checks its input and reads the target. A status change is then propagated to
the auth provider, which may fail. At last the row is changed in a transaction that also
records an audit event. The event refers to the actor by a foreign key, so that the
transaction fails when the actor's row is gone. `AdminCall.prepare` and `AdminCall.commit`
are the two parts on the database, and `AdminCall.perform` is the whole call.
-/

namespace ForecastIQ.Identity

/-- `user_role`. -/
inductive Role where
  | user | admin
  deriving DecidableEq

/-- `entity_status`. -/
inductive UserStatus where
  | active | disabled | archived
  deriving DecidableEq

/-- A row of `users`. -/
structure User where
  id : ℕ
  /-- The subject of the auth provider's tokens, unique. -/
  authSubject : String
  /-- Unique as well. -/
  email : String
  role : Role
  status : UserStatus
  deriving DecidableEq

/-- `User.Active`. -/
def User.active (u : User) : Bool := u.status = .active

/-- The user passes `RequireAuth` and `RequireRole("admin")`. -/
def User.isActiveAdmin (u : User) : Bool := u.active && u.role = .admin

/-! ### The repository -/

/-- `GetByID`. -/
def getByID (users : List User) (id : ℕ) : Option User := users.find? fun u => u.id = id

/-- `GetByAuthSubject`. -/
def getByAuthSubject (users : List User) (subject : String) : Option User :=
  users.find? fun u => u.authSubject = subject

/-- `Insert`; nothing on a unique violation (`ErrDuplicateSubject`). -/
def insertUser (users : List User) (u : User) : Option (List User) :=
  if users.any fun v => v.id = u.id ∨ v.authSubject = u.authSubject ∨ v.email = u.email then none
  else some (users ++ [u])

/-- A statement on the row with the id, which it changes or removes; nothing if no row has
the id (`ErrUserNotFound`). -/
def rewriteUser (f : User → Option User) (users : List User) (id : ℕ) : Option (List User) :=
  if users.any fun u => u.id = id then some (users.filterMap fun u => if u.id = id then f u else some u) else none

/-- `UpdateStatus`. -/
def updateStatus (users : List User) (id : ℕ) (status : UserStatus) : Option (List User) :=
  rewriteUser (fun u => some { u with status := status }) users id

/-- `UpdateRole`. -/
def updateRole (users : List User) (id : ℕ) (role : Role) : Option (List User) :=
  rewriteUser (fun u => some { u with role := role }) users id

/-- `Delete`. -/
def deleteUser (users : List User) (id : ℕ) : Option (List User) := rewriteUser (fun _ => none) users id

theorem getByID_some {users : List User} {id : ℕ} {u : User} (h : getByID users id = some u) :
    u ∈ users ∧ u.id = id :=
  ⟨List.mem_of_find?_eq_some h, by simpa using List.find?_some h⟩

theorem getByID_isSome_iff {users : List User} {id : ℕ} : (getByID users id).isSome ↔ ∃ u ∈ users, u.id = id := by
  simp [getByID]

theorem getByAuthSubject_none_iff {users : List User} {subject : String} :
    getByAuthSubject users subject = none ↔ ∀ u ∈ users, u.authSubject ≠ subject := by
  simp [getByAuthSubject]

/-- What `Insert` needs, and what it leaves. -/
theorem insertUser_some_iff {users users' : List User} {u : User} :
    insertUser users u = some users' ↔
      (∀ v ∈ users, v.id ≠ u.id ∧ v.authSubject ≠ u.authSubject ∧ v.email ≠ u.email) ∧ users' = users ++ [u] := by
  unfold insertUser
  split_ifs with h
  · simp only [List.any_eq_true, decide_eq_true_eq] at h
    obtain ⟨v, hv, hne⟩ := h
    simp only [false_iff, not_and]
    intro hall
    obtain ⟨h1, h2, h3⟩ := hall v hv
    tauto
  · simp only [List.any_eq_true, decide_eq_true_eq, not_exists, not_and, not_or] at h
    simp only [Option.some.injEq]
    exact ⟨fun he => ⟨h, he.symm⟩, fun he => he.2.symm⟩

/-- A statement on one row finds it, and leaves the others. -/
theorem rewriteUser_some_iff {f : User → Option User} {users users' : List User} {id : ℕ} :
    rewriteUser f users id = some users' ↔
      (∃ u ∈ users, u.id = id) ∧ users' = users.filterMap fun u => if u.id = id then f u else some u := by
  unfold rewriteUser
  split_ifs with h
  · simp only [List.any_eq_true, decide_eq_true_eq] at h
    simp only [Option.some.injEq]
    exact ⟨fun he => ⟨h, he.symm⟩, fun he => he.2.symm⟩
  · simp only [List.any_eq_true, decide_eq_true_eq] at h
    simp [h]

theorem mem_rewrite_iff {f : User → Option User} {users : List User} {id : ℕ} {v : User} :
    (v ∈ users.filterMap fun u => if u.id = id then f u else some u) ↔
      (v ∈ users ∧ v.id ≠ id) ∨ ∃ u ∈ users, u.id = id ∧ f u = some v := by
  rw [List.mem_filterMap]
  constructor
  · rintro ⟨u, hu, he⟩
    split_ifs at he with hid
    · exact .inr ⟨u, hu, hid, he⟩
    · cases he
      exact .inl ⟨hu, hid⟩
  · rintro (⟨hv, hid⟩ | ⟨u, hu, hid, he⟩)
    · exact ⟨v, hv, if_neg hid⟩
    · exact ⟨u, hu, by rw [if_pos hid, he]⟩

/-! ### The calls of the admin surface -/

/-- What a call fails with. -/
inductive AdminError where
  /-- `statusError` and `roleError`, surfaced as 422. -/
  | field (name message : String)
  /-- `ErrSelfLockout`. -/
  | selfLockout
  /-- `ErrUserNotFound`. -/
  | userNotFound
  /-- `ErrUpstreamAuth`. -/
  | upstreamAuth
  /-- The audit event refers to an actor whose row is gone. -/
  | auditActor
  deriving DecidableEq

/-- A call that changes one user. -/
inductive AdminCall where
  | setStatus (targetID : ℕ) (status : String)
  | setRole (targetID : ℕ) (role : String)
  /-- `selfService` for `DELETE /me`. -/
  | delete (targetID : ℕ) (selfService : Bool)
  deriving DecidableEq

namespace AdminCall

/-- The user to change. -/
def targetID : AdminCall → ℕ
  | setStatus targetID _ => targetID
  | setRole targetID _ => targetID
  | delete targetID _ => targetID

/-- The actor may be the target. -/
def selfService : AdminCall → Bool
  | delete _ selfService => selfService
  | _ => false

/-- The field validation. -/
def validate : AdminCall → Option AdminError
  | setStatus _ status =>
    if status ≠ "active" ∧ status ≠ "disabled" then some (.field "status" "status must be one of active|disabled")
    else none
  | setRole _ role =>
    if role ≠ "user" ∧ role ≠ "admin" then some (.field "role" "role must be one of user|admin") else none
  | delete _ _ => none

/-- What the call does before its transaction: the field validation, the self-lockout rule
and the lookup of the target. -/
def prepare (c : AdminCall) (users : List User) (actorID : ℕ) : Except AdminError Unit :=
  match c.validate with
  | some e => .error e
  | none =>
    if !c.selfService && c.targetID = actorID then .error .selfLockout
    else if (getByID users c.targetID).isNone then .error .userNotFound
    else .ok ()

/-- The auth provider is told; only a status change waits for the answer. -/
def propagate (c : AdminCall) (answered : Bool) : Except AdminError Unit :=
  match c with
  | setStatus _ _ => if answered then .ok () else .error .upstreamAuth
  | _ => .ok ()

/-- The statement on the target's row. -/
def statement (c : AdminCall) (users : List User) : Option (List User) :=
  match c with
  | setStatus targetID status => updateStatus users targetID (if status = "disabled" then .disabled else .active)
  | setRole targetID role => updateRole users targetID (if role = "admin" then .admin else .user)
  | delete targetID _ => deleteUser users targetID

/-- The event is recorded before the statement, not after it. -/
def auditsFirst : AdminCall → Bool
  | delete _ _ => true
  | _ => false

/-- The transaction: the statement and the audit event of the actor. -/
def commit (c : AdminCall) (users : List User) (actorID : ℕ) : Except AdminError (List User) :=
  let actorGone := (getByID users actorID).isNone
  match c.statement users with
  | none => .error (if c.auditsFirst && actorGone then .auditActor else .userNotFound)
  | some users' => if actorGone then .error .auditActor else .ok users'

/-- The whole call, by itself. -/
def perform (c : AdminCall) (users : List User) (actorID : ℕ) (answered : Bool) : Except AdminError (List User) := do
  c.prepare users actorID
  c.propagate answered
  c.commit users actorID

/-- What the statement makes of the target's row. -/
def rewrite : AdminCall → User → Option User
  | setStatus _ status => fun u => some { u with status := if status = "disabled" then .disabled else .active }
  | setRole _ role => fun u => some { u with role := if role = "admin" then .admin else .user }
  | delete _ _ => fun _ => none

/-- The call takes its target out of the active admins. -/
def removes : AdminCall → Bool
  | setStatus _ status => status = "disabled"
  | setRole _ role => role ≠ "admin"
  | delete _ _ => true

theorem statement_eq (c : AdminCall) (users : List User) :
    c.statement users = rewriteUser c.rewrite users c.targetID := by
  cases c <;> rfl

/-- A statement makes no user of a new subject. -/
theorem exists_of_mem_statement {c : AdminCall} {users users' : List User} (h : c.statement users = some users')
    {v : User} (hv : v ∈ users') : ∃ u ∈ users, u.authSubject = v.authSubject := by
  rw [statement_eq, rewriteUser_some_iff] at h
  obtain ⟨-, rfl⟩ := h
  rcases mem_rewrite_iff.mp hv with ⟨hmem, -⟩ | ⟨u, hu, -, he⟩
  · exact ⟨v, hmem, rfl⟩
  · refine ⟨u, hu, ?_⟩
    cases c <;> cases he <;> rfl

/-- What passes before the transaction. -/
theorem prepare_ok_iff {c : AdminCall} {users : List User} {actorID : ℕ} :
    c.prepare users actorID = .ok () ↔
      c.validate = none ∧ (c.selfService = false → c.targetID ≠ actorID) ∧ ∃ u ∈ users, u.id = c.targetID := by
  rw [← getByID_isSome_iff, prepare]
  cases c.validate with
  | some e => simp
  | none =>
    cases hf : c.selfService <;> by_cases hid : c.targetID = actorID <;> cases getByID users c.targetID <;> simp [hid]

/-- What the transaction needs, and what it leaves. -/
theorem commit_ok_iff {c : AdminCall} {users users' : List User} {actorID : ℕ} :
    c.commit users actorID = .ok users' ↔
      (∃ u ∈ users, u.id = actorID) ∧ (∃ u ∈ users, u.id = c.targetID) ∧
        users' = users.filterMap fun u => if u.id = c.targetID then c.rewrite u else some u := by
  rw [← rewriteUser_some_iff, ← statement_eq, ← getByID_isSome_iff, commit]
  cases getByID users actorID <;> cases c.statement users <;> simp

/-- A target that is an active admin afterwards was not taken out. -/
theorem isActiveAdmin_rewrite {c : AdminCall} {u v : User} (h : c.rewrite u = some v) :
    v.isActiveAdmin = true → c.removes = false := by
  cases c with
  | setStatus _ status =>
    cases h
    by_cases hs : status = "disabled" <;> simp [User.isActiveAdmin, User.active, removes, hs]
  | setRole _ role =>
    cases h
    by_cases hr : role = "admin" <;> simp [User.isActiveAdmin, removes, hr]
  | delete _ _ => cases h

/-- A call that does not take its target out of the active admins keeps an active admin one. -/
theorem exists_rewrite_of_not_removes {c : AdminCall} (h : c.removes = false) {u : User} (hu : u.isActiveAdmin = true) :
    ∃ v, c.rewrite u = some v ∧ v.isActiveAdmin = true := by
  simp only [User.isActiveAdmin, User.active, Bool.and_eq_true, decide_eq_true_eq] at hu
  cases c with
  | setStatus _ status =>
    refine ⟨_, rfl, ?_⟩
    simp only [removes, decide_eq_false_iff_not] at h
    simp [User.isActiveAdmin, User.active, h, hu.2]
  | setRole _ role =>
    refine ⟨_, rfl, ?_⟩
    simp only [removes, decide_eq_false_iff_not, ne_eq, not_not] at h
    simp [User.isActiveAdmin, User.active, h, hu.1]
  | delete _ _ => cases h

end AdminCall

/-- `SetStatus`. -/
def setStatus (users : List User) (actorID targetID : ℕ) (status : String) (answered : Bool) :
    Except AdminError (List User) :=
  (AdminCall.setStatus targetID status).perform users actorID answered

/-- `SetRole`. -/
def setRole (users : List User) (actorID targetID : ℕ) (role : String) : Except AdminError (List User) :=
  (AdminCall.setRole targetID role).perform users actorID true

/-- `Delete`; the auth provider is told afterwards, whatever it answers. -/
def delete (users : List User) (actorID targetID : ℕ) (selfService : Bool) : Except AdminError (List User) :=
  (AdminCall.delete targetID selfService).perform users actorID true

end ForecastIQ.Identity
