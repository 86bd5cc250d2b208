import ForecastIQ.Identity.ApiKeys
import ForecastIQ.Identity.Jwks
import ForecastIQ.Foundations.Processes

/-!
# Accounts under bearer tokens

`UserService.Authenticate` verifies a bearer token and resolves its subject to a user,
whom it provisions on first use. Deleting an account removes its row. Nothing remembers
that there was one, and the token verifier knows nothing of it.

A request takes its turns one by one, between the turns of other requests and the
transactions that change users: the verification, the lookup by subject, the insert of a
new user, the second lookup when the insert hits a unique column, and the check of the
user's status.

The verifier is a parameter, its answer to a token at a time. The deletion stops no request. After
it a token of the account's subject authenticates none exactly when the token no longer verifies at
any time and each of its requests under way fails by itself: it has read a disabled user, or it has
lost its insert and nothing provisions the subject again before it looks it up (`Stopped`).
-/

namespace ForecastIQ.Identity

open ForecastIQ.Foundations

/-- What a login fails with. -/
inductive LoginError where
  | token (e : TokenError)
  | userNotFound
  | userDisabled
  deriving DecidableEq

/-- The user that is provisioned for the claims. -/
def provisioned (claims : Claims) (id : ℕ) : User := ⟨id, claims.subject, claims.email, .user, .active⟩

/-- The principal of a session. -/
def User.session (u : User) : Principal := ⟨u.id, u.role, .jwt, []⟩

section Login

variable (verify : ℤ → Token → Except TokenError Claims)

/-! ### Requests side by side -/

/-- Where a request is. -/
inductive LoginStage where
  | arrived
  | verified (claims : Claims)
  /-- The lookup has found no user. -/
  | missing (claims : Claims)
  /-- The insert has hit a unique column. -/
  | conflicted (claims : Claims)
  | resolved (u : User)
  | authenticated (p : Principal)
  | refused (e : LoginError)
  deriving DecidableEq

/-- The claims that the request is about to look up or to insert a user for. -/
def LoginStage.provisions : LoginStage → Option Claims
  | verified claims | missing claims => some claims
  | _ => none

/-- A request with a bearer token. -/
structure LoginRequest where
  token : Token
  stage : LoginStage
  deriving DecidableEq

/-- The users, the time, and the requests. -/
structure Accounts where
  users : List User
  now : ℤ
  requests : List LoginRequest
  deriving DecidableEq

/-- A turn of a request, a transaction of the admin surface or of `DELETE /me`, or time that
passes. -/
inductive AccountAct where
  | wait (now : ℤ)
  | change (call : AdminCall)
  | arrive (token : Token)
  | verify (i : ℕ)
  | lookup (i : ℕ)
  | insert (i : ℕ) (id : ℕ)
  | reread (i : ℕ)
  | finish (i : ℕ)
  deriving DecidableEq

namespace Accounts

/-- The verification. -/
def verifyTurn (users : List User) (now : ℤ) (r : LoginRequest) : Option (List User × LoginRequest) :=
  match r.stage with
  | .arrived =>
    match verify now r.token with
    | .ok claims => some (users, { r with stage := .verified claims })
    | .error e => some (users, { r with stage := .refused (.token e) })
  | _ => none

/-- `GetByAuthSubject`, before the insert. -/
def lookupTurn (users : List User) (r : LoginRequest) : Option (List User × LoginRequest) :=
  match r.stage with
  | .verified claims =>
    match getByAuthSubject users claims.subject with
    | some u => some (users, { r with stage := .resolved u })
    | none => some (users, { r with stage := .missing claims })
  | _ => none

/-- The transaction that provisions. -/
def insertTurn (users : List User) (id : ℕ) (r : LoginRequest) : Option (List User × LoginRequest) :=
  match r.stage with
  | .missing claims =>
    match insertUser users (provisioned claims id) with
    | some users' => some (users', { r with stage := .resolved (provisioned claims id) })
    | none => some (users, { r with stage := .conflicted claims })
  | _ => none

/-- `GetByAuthSubject`, after a lost insert. -/
def rereadTurn (users : List User) (r : LoginRequest) : Option (List User × LoginRequest) :=
  match r.stage with
  | .conflicted claims =>
    match getByAuthSubject users claims.subject with
    | some u => some (users, { r with stage := .resolved u })
    | none => some (users, { r with stage := .refused .userNotFound })
  | _ => none

/-- The status of the user that was read, and the login time, whose update finds the row or
does not. -/
def finishTurn (users : List User) (r : LoginRequest) : Option (List User × LoginRequest) :=
  match r.stage with
  | .resolved u =>
    if !u.active then some (users, { r with stage := .refused .userDisabled })
    else some (users, { r with stage := .authenticated u.session })
  | _ => none

/-- Request `i` takes a turn. -/
def turn (s : Accounts) : ℕ → (LoginRequest → Option (List User × LoginRequest)) → Option Accounts :=
  takeTurn (fun users requests => { s with users := users, requests := requests }) s.requests

/-- One step. -/
def step (s : Accounts) : AccountAct → Option Accounts
  | .wait now => if s.now ≤ now then some { s with now := now } else none
  | .change call => (call.statement s.users).map fun users => { s with users := users }
  | .arrive token => some { s with requests := s.requests ++ [⟨token, .arrived⟩] }
  | .verify i => s.turn i (verifyTurn verify s.users s.now)
  | .lookup i => s.turn i (lookupTurn s.users)
  | .insert i id => s.turn i (insertTurn s.users id)
  | .reread i => s.turn i (rereadTurn s.users)
  | .finish i => s.turn i (finishTurn s.users)

/-- A request with the token has authenticated since `s`. -/
def AuthenticatedSince (s t : Accounts) (token : Token) : Prop :=
  ∃ (i : ℕ) (r : LoginRequest) (p : Principal),
    t.requests[i]? = some r ∧ r.token = token ∧ r.stage = .authenticated p ∧ s.requests[i]? ≠ some r

variable {verify}

theorem turn_some_iff {s t : Accounts} {i : ℕ} {f : LoginRequest → Option (List User × LoginRequest)} :
    s.turn i f = some t ↔ ∃ r users r', s.requests[i]? = some r ∧ f r = some (users, r') ∧
      t = { s with users := users, requests := s.requests.set i r' } :=
  takeTurn_some_iff

/-- What a turn does to the users and to its request. -/
inductive Turns (verify : ℤ → Token → Except TokenError Claims) (users : List User) (now : ℤ) (r : LoginRequest) :
    List User → LoginStage → Prop where
  | verified {claims : Claims} (h : r.stage = .arrived) (hok : verify now r.token = .ok claims) :
      Turns verify users now r users (.verified claims)
  | found {claims : Claims} {u : User} (h : r.stage = .verified claims ∨ r.stage = .conflicted claims)
      (hu : getByAuthSubject users claims.subject = some u) : Turns verify users now r users (.resolved u)
  | missed {claims : Claims} (h : r.stage = .verified claims) : Turns verify users now r users (.missing claims)
  | inserted {claims : Claims} (id : ℕ) (h : r.stage = .missing claims) :
      Turns verify users now r (users ++ [provisioned claims id]) (.resolved (provisioned claims id))
  | conflicted {claims : Claims} (h : r.stage = .missing claims) : Turns verify users now r users (.conflicted claims)
  | authenticated {u : User} (h : r.stage = .resolved u) (hactive : u.active = true) :
      Turns verify users now r users (.authenticated u.session)
  | refused (e : LoginError) : Turns verify users now r users (.refused e)

/-- What a step does. -/
inductive Moves (verify : ℤ → Token → Except TokenError Claims) (s : Accounts) : Accounts → Prop where
  | kept {users : List User} {now : ℤ} (h : s.now ≤ now)
      (hsub : ∀ v ∈ users, ∃ u ∈ s.users, u.authSubject = v.authSubject) : Moves verify s ⟨users, now, s.requests⟩
  | arrived (token : Token) : Moves verify s { s with requests := s.requests ++ [⟨token, .arrived⟩] }
  | turned {users : List User} {i : ℕ} {r : LoginRequest} {stage : LoginStage} (hi : s.requests[i]? = some r)
      (h : Turns verify s.users s.now r users stage) :
      Moves verify s ⟨users, s.now, s.requests.set i { r with stage := stage }⟩

theorem moves_of_turn {s t : Accounts} {i : ℕ} {f : LoginRequest → Option (List User × LoginRequest)}
    (h : s.turn i f = some t)
    (hf : ∀ r users r', f r = some (users, r') →
      ∃ stage, r' = { r with stage := stage } ∧ Turns verify s.users s.now r users stage) :
    Moves verify s t := by
  obtain ⟨r, users, r', hi, hr, rfl⟩ := turn_some_iff.mp h
  obtain ⟨stage, rfl, hturns⟩ := hf r users r' hr
  exact .turned hi hturns

theorem moves_step {s t : Accounts} {a : AccountAct} (h : s.step verify a = some t) : Moves verify s t := by
  cases a with
  | wait now =>
    simp only [step] at h
    split_ifs at h with hle
    cases h
    exact .kept hle fun v hv => ⟨v, hv, rfl⟩
  | change call =>
    obtain ⟨users, hcall, rfl⟩ := Option.map_eq_some_iff.mp h
    exact .kept (Int.le_refl _) fun v hv => AdminCall.exists_of_mem_statement hcall hv
  | arrive token =>
    cases h
    exact .arrived token
  | verify i =>
    refine moves_of_turn h fun r users r' hf => ?_
    unfold verifyTurn at hf
    split at hf
    · rename_i hstage
      split at hf
      · rename_i claims hok
        cases hf
        exact ⟨_, rfl, .verified hstage hok⟩
      · cases hf
        exact ⟨_, rfl, .refused _⟩
    · cases hf
  | lookup i =>
    refine moves_of_turn h fun r users r' hf => ?_
    unfold lookupTurn at hf
    split at hf
    · rename_i claims hstage
      split at hf
      · rename_i u hu
        cases hf
        exact ⟨_, rfl, .found (.inl hstage) hu⟩
      · cases hf
        exact ⟨_, rfl, .missed hstage⟩
    · cases hf
  | insert i id =>
    refine moves_of_turn h fun r users r' hf => ?_
    unfold insertTurn at hf
    split at hf
    · rename_i claims hstage
      split at hf
      · rename_i users' hinsert
        cases hf
        obtain ⟨-, rfl⟩ := insertUser_some_iff.mp hinsert
        exact ⟨_, rfl, .inserted id hstage⟩
      · cases hf
        exact ⟨_, rfl, .conflicted hstage⟩
    · cases hf
  | reread i =>
    refine moves_of_turn h fun r users r' hf => ?_
    unfold rereadTurn at hf
    split at hf
    · rename_i claims hstage
      split at hf
      · rename_i u hu
        cases hf
        exact ⟨_, rfl, .found (.inr hstage) hu⟩
      · cases hf
        exact ⟨_, rfl, .refused _⟩
    · cases hf
  | finish i =>
    refine moves_of_turn h fun r users r' hf => ?_
    unfold finishTurn at hf
    split at hf
    · rename_i u hstage
      split_ifs at hf with hactive
      · cases hf
        exact ⟨_, rfl, .refused _⟩
      · cases hf
        exact ⟨_, rfl, .authenticated hstage (by simpa using hactive)⟩
    · cases hf

/-! ### Requests that fail by themselves -/

variable (verify) in
/-- From `s` on the subject can get a new user: a token for it verifies, or a request is about to look it up or to
insert it. -/
def Returns (s : Accounts) (subject : String) : Prop :=
  (∃ now, s.now ≤ now ∧ ∃ token claims, verify now token = .ok claims ∧ claims.subject = subject) ∨
    ∃ r ∈ s.requests, ∃ claims, r.stage.provisions = some claims ∧ claims.subject = subject

variable (verify) in
/-- Without a user of the subject in `s`, a request of the subject at this stage does not authenticate, unless its
token has yet to be verified. -/
def Stopped (s : Accounts) (subject : String) : LoginStage → Prop
  | .verified _ | .missing _ => False
  | .conflicted _ => ¬ s.Returns verify subject
  | .resolved u => u.active = false
  | _ => True

/-- What holds from `s` on: the requests with the token are stopped, those that have lost their insert since nothing
provisions the subject. -/
structure Out (verify : ℤ → Token → Except TokenError Claims) (s : Accounts) (subject : String) (token : Token)
    (t : Accounts) : Prop where
  later : s.now ≤ t.now
  stopped : ∀ r ∈ t.requests, r.token = token → s.Stopped verify subject r.stage
  claims : ∀ r ∈ t.requests, r.token = token → ∀ claims, r.stage = .conflicted claims → claims.subject = subject
  gone : ¬ s.Returns verify subject → (∀ u ∈ t.users, u.authSubject ≠ subject) ∧
    ∀ r ∈ t.requests, ∀ claims, r.stage.provisions = some claims → claims.subject ≠ subject
  none : ¬ AuthenticatedSince s t token

section Out

variable {s t : Accounts} {subject : String} {token : Token}

/-- A turn of a request with the token refuses it. -/
theorem Out.refused (h : Out verify s subject token t)
    (hnever : ∀ now, s.now ≤ now → ∀ claims, verify now token ≠ .ok claims) {r : LoginRequest} (hr : r ∈ t.requests)
    (htoken : r.token = token) {users : List User} {stage : LoginStage}
    (hturns : Turns verify t.users t.now r users stage) : ∃ e, stage = .refused e := by
  have hstopped := h.stopped r hr htoken
  cases hturns with
  | verified _ hok => exact absurd (htoken ▸ hok) (hnever t.now h.later _)
  | found hstage hu =>
    rcases hstage with hstage | hstage
    · rw [hstage] at hstopped
      exact hstopped.elim
    · rw [hstage] at hstopped
      rw [h.claims r hr htoken _ hstage, getByAuthSubject_none_iff.mpr (h.gone hstopped).1] at hu
      cases hu
  | missed hstage | inserted _ hstage | conflicted hstage =>
    rw [hstage] at hstopped
    exact hstopped.elim
  | authenticated hstage hactive =>
    rw [hstage] at hstopped
    exact absurd (hactive.symm.trans hstopped) (by decide)
  | refused e => exact ⟨e, rfl⟩

/-- A turn provisions no user of a subject that does not return, and no request comes to do so. -/
theorem Out.gone_turn (h : Out verify s subject token t) (hnone : ¬ s.Returns verify subject) {i : ℕ}
    {r : LoginRequest} (hi : t.requests[i]? = some r) {users : List User} {stage : LoginStage}
    (hturns : Turns verify t.users t.now r users stage) :
    (∀ u ∈ users, u.authSubject ≠ subject) ∧
      ∀ r' ∈ t.requests.set i { r with stage := stage }, ∀ claims, r'.stage.provisions = some claims →
        claims.subject ≠ subject := by
  obtain ⟨husers, hrequests⟩ := h.gone hnone
  have hr := hrequests r (List.mem_of_getElem? hi)
  cases hturns with
  | verified _ hok =>
    refine ⟨husers, forall_mem_set hrequests ?_⟩
    rintro claims ⟨⟩ he
    exact hnone (.inl ⟨t.now, h.later, r.token, _, hok, he⟩)
  | missed hstage =>
    refine ⟨husers, forall_mem_set hrequests ?_⟩
    rintro claims ⟨⟩
    exact hr _ (by rw [hstage]; rfl)
  | inserted id hstage =>
    refine ⟨fun u hu => ?_, forall_mem_set hrequests nofun⟩
    rcases List.mem_append.mp hu with hu | hu
    · exact husers u hu
    · rw [List.mem_singleton.mp hu]
      exact hr _ (by rw [hstage]; rfl)
  | found | conflicted | authenticated | refused => exact ⟨husers, forall_mem_set hrequests nofun⟩

/-- A token that no longer verifies stays out. -/
theorem Out.step {t' : Accounts} {a : AccountAct} (h : Out verify s subject token t)
    (hnever : ∀ now, s.now ≤ now → ∀ claims, verify now token ≠ .ok claims) (hstep : t.step verify a = some t') :
    Out verify s subject token t' := by
  cases moves_step hstep with
  | kept hle hsub =>
    refine ⟨h.later.trans hle, h.stopped, h.claims, fun hnone => ⟨fun v hv he => ?_, (h.gone hnone).2⟩, h.none⟩
    obtain ⟨u, hu, hsubject⟩ := hsub v hv
    exact (h.gone hnone).1 u hu (hsubject.trans he)
  | arrived token' =>
    have hnew : ∀ {p : LoginRequest → Prop}, (∀ r ∈ t.requests, p r) → p ⟨token', .arrived⟩ →
        ∀ r ∈ t.requests ++ [⟨token', .arrived⟩], p r :=
      fun hall hp r hr => (List.mem_append.mp hr).elim (hall r) fun hr => List.mem_singleton.mp hr ▸ hp
    refine ⟨h.later, hnew h.stopped fun _ => trivial, hnew h.claims nofun,
      fun hnone => ⟨(h.gone hnone).1, hnew (h.gone hnone).2 nofun⟩, ?_⟩
    rintro ⟨i, r, p, hi, htoken, hstage, hnew⟩
    rcases getElem?_append_cases hi with ⟨-, hlast⟩ | hi
    · have hmem := List.mem_of_getElem? hlast
      cases List.mem_singleton.mp hmem
      cases hstage
    · exact h.none ⟨i, r, p, hi, htoken, hstage, hnew⟩
  | @turned users i r stage hi hturns =>
    have hrefused : r.token = token → ∃ e, stage = .refused e := fun htoken =>
      h.refused hnever (List.mem_of_getElem? hi) htoken hturns
    refine ⟨h.later, forall_mem_set h.stopped fun htoken => ?_, forall_mem_set h.claims fun htoken => ?_,
      fun hnone => h.gone_turn hnone hi hturns, ?_⟩
    · obtain ⟨e, rfl⟩ := hrefused htoken
      trivial
    · obtain ⟨e, rfl⟩ := hrefused htoken
      exact nofun
    · rintro ⟨j, r', p, hj, htoken, hstage, hnew⟩
      rcases getElem?_set_cases hj with ⟨-, rfl⟩ | ⟨-, hj⟩
      · obtain ⟨e, rfl⟩ := hrefused htoken
        cases hstage
      · exact h.none ⟨j, r', p, hj, htoken, hstage, hnew⟩

end Out

/-! ### After a deletion -/

/-- The unique columns of `users`. -/
structure UniqueColumns (users : List User) : Prop where
  subject : ∀ u ∈ users, ∀ v ∈ users, u.authSubject = v.authSubject → u = v
  email : ∀ u ∈ users, ∀ v ∈ users, u.email = v.email → u = v

/-- The users without those with an id. -/
def without (users : List User) (id : ℕ) : List User := users.filterMap fun u => if u.id = id then none else some u

theorem mem_without {users : List User} {id : ℕ} {u : User} : u ∈ without users id ↔ u ∈ users ∧ u.id ≠ id := by
  rw [without, mem_rewrite_iff]
  simp

theorem step_delete {s : Accounts} {u : User} (hu : u ∈ s.users) (selfService : Bool) :
    s.step verify (.change (.delete u.id selfService)) = some { s with users := without s.users u.id } :=
  Option.map_eq_some_iff.mpr ⟨_, rewriteUser_some_iff.mpr ⟨⟨u, hu, rfl⟩, rfl⟩, rfl⟩

variable (verify) in
/-- One deletion at most makes an email free. -/
theorem exists_email_free {s : Accounts} (hs : UniqueColumns s.users) (email : String) :
    ∃ acts users, runFrom (step verify) s acts = some { s with users := users } ∧ (∀ u ∈ users, u ∈ s.users) ∧
      ∀ u ∈ users, u.email ≠ email := by
  by_cases h : ∃ v ∈ s.users, v.email = email
  · obtain ⟨v, hv, rfl⟩ := h
    refine ⟨[.change (.delete v.id false)], without s.users v.id, ?_, fun u hu => (mem_without.mp hu).1, ?_⟩
    · exact runFrom_cons_iff.mpr ⟨_, step_delete hv false, rfl⟩
    · intro u hu he
      obtain ⟨hmem, hne⟩ := mem_without.mp hu
      exact hne (congrArg User.id (hs.email u hmem v hv he))
  · simp only [not_exists, not_and] at h
    exact ⟨[], s.users, rfl, fun u hu => hu, h⟩

variable (verify) in
/-- A request that is about to look up or to insert a user whose subject is free can provision it. -/
theorem exists_provisioned {s : Accounts} (hs : UniqueColumns s.users) {claims : Claims}
    (hfree : ∀ u ∈ s.users, u.authSubject ≠ claims.subject) {i : ℕ} {r : LoginRequest}
    (hi : s.requests[i]? = some r) (hr : r.stage.provisions = some claims) :
    ∃ acts users id, runFrom (step verify) s acts =
        some ⟨users ++ [provisioned claims id], s.now, s.requests.set i ⟨r.token, .resolved (provisioned claims id)⟩⟩ ∧
      ∀ u ∈ users, u.authSubject ≠ claims.subject := by
  obtain ⟨acts, users, hacts, hsub, hemail⟩ := exists_email_free verify hs claims.email
  have hsubject : ∀ u ∈ users, u.authSubject ≠ claims.subject := fun u hu => hfree u (hsub u hu)
  obtain ⟨id, hid⟩ := Infinite.exists_notMem_finset (users.map User.id).toFinset
  simp only [List.mem_toFinset, List.mem_map, not_exists, not_and] at hid
  have hget : getByAuthSubject users claims.subject = none := getByAuthSubject_none_iff.mpr hsubject
  have hinsert : insertUser users (provisioned claims id) = some (users ++ [provisioned claims id]) :=
    insertUser_some_iff.mpr ⟨fun u hu => ⟨hid u hu, hsubject u hu, hemail u hu⟩, rfl⟩
  have hlast : ∀ requests : List LoginRequest, requests[i]? = some ⟨r.token, .missing claims⟩ →
      step verify ⟨users, s.now, requests⟩ (.insert i id) =
        some ⟨users ++ [provisioned claims id], s.now, requests.set i ⟨r.token, .resolved (provisioned claims id)⟩⟩ :=
    fun _ h => turn_some_iff.mpr ⟨_, _, _, h, by simp only [insertTurn, hinsert], rfl⟩
  obtain ⟨more, hmore⟩ : ∃ more, runFrom (step verify) { s with users := users } more = some
      ⟨users ++ [provisioned claims id], s.now, s.requests.set i ⟨r.token, .resolved (provisioned claims id)⟩⟩ := by
    obtain ⟨token, stage⟩ := r
    cases stage with
    | verified claims' =>
      cases hr
      have hlookup : step verify { s with users := users } (.lookup i) =
          some ⟨users, s.now, s.requests.set i ⟨token, .missing claims⟩⟩ :=
        turn_some_iff.mpr ⟨_, _, _, hi, by simp only [lookupTurn, hget], rfl⟩
      have hset := hlast _ (List.getElem?_set_self (List.getElem?_eq_some_iff.mp hi).1)
      rw [List.set_set] at hset
      exact ⟨[.lookup i, .insert i id], runFrom_cons_iff.mpr ⟨_, hlookup, runFrom_cons_iff.mpr ⟨_, hset, rfl⟩⟩⟩
    | missing claims' =>
      cases hr
      exact ⟨[.insert i id], runFrom_cons_iff.mpr ⟨_, hlast _ hi, rfl⟩⟩
    | arrived | conflicted | resolved | authenticated | refused => cases hr
  exact ⟨acts ++ more, users, id, (runFrom_append hacts more).trans hmore, hsubject⟩

/-- A token that verifies makes a request that can provision its user. -/
theorem run_verified {s : Accounts} {now : ℤ} (hnow : s.now ≤ now) {token : Token} {claims : Claims}
    (hok : verify now token = .ok claims) :
    runFrom (step verify) s [.wait now, .arrive token, .verify s.requests.length] =
      some ⟨s.users, now, s.requests ++ [⟨token, .verified claims⟩]⟩ := by
  simp [runFrom, step, hnow, turn, takeTurn, verifyTurn, hok]

/-- If the subject can return, a request can come to provision it. -/
theorem Returns.exists_request {s : Accounts} {subject : String} (h : s.Returns verify subject) :
    ∃ (acts : List AccountAct) (now : ℤ) (new : List LoginRequest) (i : ℕ) (r : LoginRequest) (claims : Claims),
      runFrom (step verify) s acts = some ⟨s.users, now, s.requests ++ new⟩ ∧ (s.requests ++ new)[i]? = some r ∧
        r.stage.provisions = some claims ∧ claims.subject = subject := by
  rcases h with ⟨now, hnow, token, claims, hok, he⟩ | ⟨r, hr, claims, hclaims, he⟩
  · exact ⟨_, now, _, s.requests.length, _, claims, run_verified hnow hok, List.getElem?_concat_length, rfl, he⟩
  · obtain ⟨i, hi⟩ := List.mem_iff_getElem?.mp hr
    refine ⟨[], s.now, [], i, r, claims, ?_, ?_, hclaims, he⟩
    · rw [List.append_nil]
      rfl
    · rw [List.append_nil, hi]

variable (verify) in
/-- A request with an active user is let through. -/
theorem exists_finished {s t : Accounts} {i : ℕ} {token : Token} {u : User}
    (hi : t.requests[i]? = some ⟨token, .resolved u⟩) (hactive : u.active = true)
    (hnew : ∀ p, s.requests[i]? ≠ some ⟨token, .authenticated p⟩) :
    ∃ acts t', runFrom (step verify) t acts = some t' ∧ s.AuthenticatedSince t' token := by
  have hfinish : step verify t (.finish i) =
      some { t with requests := t.requests.set i ⟨token, .authenticated u.session⟩ } :=
    turn_some_iff.mpr ⟨_, _, _, hi, by simp [finishTurn, hactive], rfl⟩
  refine ⟨[.finish i], _, runFrom_cons_iff.mpr ⟨_, hfinish, rfl⟩, i, _, u.session, ?_, rfl, rfl, hnew _⟩
  exact List.getElem?_set_self (List.getElem?_eq_some_iff.mp hi).1

section Deleted

variable {s : Accounts} (hs : UniqueColumns s.users) {subject : String} (hfree : ∀ u ∈ s.users, u.authSubject ≠ subject)
include hs hfree

variable (verify) in
/-- Where the subject is free, a request that can provision it authenticates. -/
theorem exists_authenticated {i : ℕ} {r : LoginRequest} (hi : s.requests[i]? = some r) {claims : Claims}
    (hr : r.stage.provisions = some claims) (hsubject : claims.subject = subject) :
    ∃ acts t, runFrom (step verify) s acts = some t ∧ s.AuthenticatedSince t r.token := by
  subst hsubject
  obtain ⟨acts, users, id, hacts, -⟩ := exists_provisioned verify hs hfree hi hr
  obtain ⟨more, t, hmore, ht⟩ := exists_finished verify (s := s) (i := i) (t := ⟨_, _, _⟩)
    (List.getElem?_set_self (List.getElem?_eq_some_iff.mp hi).1) (rfl : (provisioned claims id).active = true) (by
      intro p hp
      rw [hi, Option.some.injEq] at hp
      rw [hp] at hr
      cases hr)
  exact ⟨acts ++ more, t, (runFrom_append hacts more).trans hmore, ht⟩

/-- Where the subject is free, a request that has lost its insert authenticates if the subject returns. -/
theorem exists_authenticated_of_returns {i : ℕ} {token : Token} {claims : Claims}
    (hi : s.requests[i]? = some ⟨token, .conflicted claims⟩) (hsubject : claims.subject = subject)
    (hreturns : s.Returns verify subject) :
    ∃ acts t, runFrom (step verify) s acts = some t ∧ s.AuthenticatedSince t token := by
  obtain ⟨first, now, new, j, r, claims', hfirst, hj, hr, rfl⟩ := hreturns.exists_request
  have hi' : (s.requests ++ new)[i]? = some ⟨token, .conflicted claims⟩ := by
    rw [List.getElem?_append_left (List.getElem?_eq_some_iff.mp hi).1, hi]
  have hij : j ≠ i := by
    rintro rfl
    rw [hi', Option.some.injEq] at hj
    rw [← hj] at hr
    cases hr
  -- request `j` provisions the user that request `i` then finds
  obtain ⟨acts, users, id, hacts, husers⟩ := exists_provisioned verify (s := ⟨s.users, now, s.requests ++ new⟩) hs
    hfree hj hr
  have hread : getByAuthSubject (users ++ [provisioned claims' id]) claims.subject = some (provisioned claims' id) := by
    rw [getByAuthSubject, List.find?_append, ← getByAuthSubject, hsubject, getByAuthSubject_none_iff.mpr husers]
    simp [provisioned]
  have hreread : rereadTurn (users ++ [provisioned claims' id]) ⟨token, .conflicted claims⟩ =
      some (users ++ [provisioned claims' id], ⟨token, .resolved (provisioned claims' id)⟩) := by
    simp only [rereadTurn, hread]
  have hlt : i < ((s.requests ++ new).set j ⟨r.token, .resolved (provisioned claims' id)⟩).length := by
    rw [List.length_set]
    exact (List.getElem?_eq_some_iff.mp hi').1
  obtain ⟨last, t, hlast, ht⟩ := exists_finished verify (s := s) (i := i) (t := ⟨_, _, _⟩) (List.getElem?_set_self hlt)
    (rfl : (provisioned claims' id).active = true) (by simp [hi])
  refine ⟨first ++ (acts ++ .reread i :: last), t, ?_, ht⟩
  rw [runFrom_append hfirst, runFrom_append hacts]
  exact runFrom_cons_iff.mpr
    ⟨_, turn_some_iff.mpr ⟨_, _, _, (List.getElem?_set_ne hij).trans hi', hreread, rfl⟩, hlast⟩

/-- Where the subject is free, a token that verifies authenticates. -/
theorem exists_authenticated_of_verify {now : ℤ} (hnow : s.now ≤ now) {token : Token} {claims : Claims}
    (hok : verify now token = .ok claims) (hsubject : claims.subject = subject) :
    ∃ acts t, runFrom (step verify) s acts = some t ∧ s.AuthenticatedSince t token := by
  obtain ⟨acts, t, hacts, i, r, p, hi, htoken, hstage, hnew⟩ := exists_authenticated verify
    (s := ⟨s.users, now, s.requests ++ [⟨token, .verified claims⟩]⟩) hs hfree
    (r := ⟨token, .verified claims⟩) List.getElem?_concat_length rfl hsubject
  refine ⟨_, t, (runFrom_append (run_verified hnow hok) acts).trans hacts, i, r, p, hi, htoken, hstage, fun hr => ?_⟩
  exact hnew ((List.getElem?_append_left (List.getElem?_eq_some_iff.mp hr).1).trans hr)

/-- Where the subject is free, a request that is not stopped authenticates. -/
theorem exists_authenticated_of_not_stopped {r : LoginRequest} (hr : r ∈ s.requests)
    (hclaims : ∀ claims, r.stage.provisions = some claims ∨ r.stage = .conflicted claims → claims.subject = subject)
    (h : ¬ s.Stopped verify subject r.stage) :
    ∃ acts t, runFrom (step verify) s acts = some t ∧ s.AuthenticatedSince t r.token := by
  obtain ⟨i, hi⟩ := List.mem_iff_getElem?.mp hr
  obtain ⟨token, stage⟩ := r
  cases stage with
  | verified claims | missing claims => exact exists_authenticated verify hs hfree hi rfl (hclaims claims (.inl rfl))
  | conflicted claims =>
    exact exists_authenticated_of_returns hs hfree hi (hclaims claims (.inr rfl)) (not_not.mp h)
  | resolved v => exact exists_finished verify hi (Bool.eq_true_of_not_eq_false h) (by simp [hi])
  | arrived | authenticated | refused => exact absurd trivial h

end Deleted

/-! ### Tokens of the published keys -/

/-- The answers of a verifier whose cache stays as it is. -/
def answers (cfg : VerifierConfig) (fetch : ℤ → Option (List Jwk)) (c : KeyCache) (now : ℤ) (token : Token) :
    Except TokenError Claims :=
  (c.verify cfg fetch now token).2

/-! ### All tokens -/

/-- **After its account is deleted, a token authenticates no request exactly when it does not
verify at any time from then on and its requests under way fail by themselves**: the deletion itself keeps no
token out. -/
theorem deleted_token_iff {s : Accounts} (hs : UniqueColumns s.users) {u : User} (hu : u ∈ s.users) (selfService : Bool)
    {token : Token} (hsubject : ∀ now claims, verify now token = .ok claims → claims.subject = u.authSubject)
    (hclaims : ∀ r ∈ s.requests, r.token = token → ∀ claims,
      r.stage.provisions = some claims ∨ r.stage = .conflicted claims → claims.subject = u.authSubject) :
    (∀ acts t, runFrom (step verify) s (.change (.delete u.id selfService) :: acts) = some t →
        ¬ s.AuthenticatedSince t token) ↔
      (∀ now, s.now ≤ now → ∀ claims, verify now token ≠ .ok claims) ∧
        ∀ r ∈ s.requests, r.token = token → s.Stopped verify u.authSubject r.stage := by
  set d : Accounts := { s with users := without s.users u.id } with hd
  have hdeleted : s.step verify (.change (.delete u.id selfService)) = some d := step_delete hu selfService
  have hunique : UniqueColumns d.users :=
    ⟨fun v hv w hw => hs.subject v (mem_without.mp hv).1 w (mem_without.mp hw).1,
      fun v hv w hw => hs.email v (mem_without.mp hv).1 w (mem_without.mp hw).1⟩
  have hfree : ∀ v ∈ d.users, v.authSubject ≠ u.authSubject := by
    intro v hv he
    obtain ⟨hmem, hne⟩ := mem_without.mp hv
    exact hne (congrArg User.id (hs.subject v hmem u hu he))
  constructor
  · intro h
    have hout : ¬ ∃ acts t, runFrom (step verify) d acts = some t ∧ s.AuthenticatedSince t token :=
      fun ⟨_, _, hrun, ht⟩ => h _ _ (runFrom_cons_iff.mpr ⟨_, hdeleted, hrun⟩) ht
    refine ⟨fun now hnow claims hok => ?_, fun r hr htoken => by_contra fun hnot => ?_⟩
    · exact hout (exists_authenticated_of_verify hunique hfree hnow hok (hsubject now claims hok))
    · subst htoken
      exact hout (exists_authenticated_of_not_stopped hunique hfree hr (hclaims r hr rfl) hnot)
  · rintro ⟨hnever, hstopped⟩ acts t hrun
    obtain ⟨_, hdel, hrun⟩ := runFrom_cons_iff.mp hrun
    rw [hdeleted, Option.some.injEq] at hdel
    subst hdel
    have hstart : Out verify s u.authSubject token d :=
      { later := Int.le_refl _
        stopped := hstopped
        claims := fun r hr htoken claims hstage => hclaims r hr htoken claims (.inr hstage)
        gone := fun hnone => ⟨hfree, fun r hr claims hc he => hnone (.inr ⟨r, hr, claims, hc, he⟩)⟩
        none := fun ⟨i, r, p, hi, _, _, hnew⟩ => hnew hi }
    exact (runFrom_invariant (P := Out verify s u.authSubject token) (fun _ _ _ h => h.step hnever) hstart hrun).none

/-- One account, of the subject of `rsaToken`. -/
def oneAccount (now : ℤ) : Accounts := ⟨[⟨1, "subject-1", "one@example.org", .user, .active⟩], now, []⟩

/-- A verifier that has fetched key `a`. -/
def keyA : ℤ → Token → Except TokenError Claims :=
  answers (.new "" "" 0 0) VerifierState.rotation VerifierState.beforeRotation.cache

/-- Three hours later the token has expired, and stays out. -/
theorem deleted_token_expired :
    (keyA 0 (VerifierState.rsaToken "a" 3233)).isOk = true ∧
      ∀ acts t, runFrom (step keyA) (oneAccount (3 * hour)) (.change (.delete 1 false) :: acts) = some t →
        ¬ (oneAccount (3 * hour)).AuthenticatedSince t (VerifierState.rsaToken "a" 3233) := by
  have hexpired : ∀ now, 3 * hour ≤ now → ∀ claims, keyA now (VerifierState.rsaToken "a" 3233) ≠ .ok claims := by
    intro now hnow claims hok
    obtain ⟨-, -, -, -, -, hclaims⟩ := KeyCache.verify_ok hok
    obtain ⟨p, hp, -, -, -, -, hle, -⟩ := checkClaims_ok_iff.mp hclaims
    cases hp
    exact absurd (hnow.trans hle) (by decide)
  have hsubject : ∀ now claims, keyA now (VerifierState.rsaToken "a" 3233) = .ok claims →
      claims.subject = "subject-1" := by
    intro now claims hok
    obtain ⟨-, -, -, -, -, hclaims⟩ := KeyCache.verify_ok hok
    obtain ⟨p, hp, -, -, -, -, -, rfl⟩ := checkClaims_ok_iff.mp hclaims
    cases hp
    rfl
  have hs : UniqueColumns (oneAccount (3 * hour)).users := ⟨by decide, by decide⟩
  have hnone : (oneAccount (3 * hour)).requests = [] := rfl
  refine ⟨by decide +kernel, (deleted_token_iff hs List.mem_cons_self false hsubject ?_).mpr ⟨hexpired, ?_⟩⟩
  all_goals simp [hnone]

/-- The owner logs in and deletes the account. A minute later the same token authenticates
again, as a new user of the same subject. -/
theorem deleted_account_returns :
    let token := VerifierState.rsaToken "a" 3233
    ∃ s, runFrom (step keyA) (oneAccount 0) [.arrive token, .verify 0, .lookup 0, .finish 0] = some s ∧
      ∃ t, runFrom (step keyA) s
        [.change (.delete 1 true), .wait minute, .arrive token, .verify 1, .lookup 1, .insert 1 2, .finish 1] = some t ∧
        s.AuthenticatedSince t token := by
  refine ⟨⟨(oneAccount 0).users, 0, [⟨VerifierState.rsaToken "a" 3233, .authenticated ⟨1, .user, .jwt, []⟩⟩]⟩, ?_,
    ⟨[⟨2, "subject-1", "one@example.org", .user, .active⟩], minute,
      [⟨VerifierState.rsaToken "a" 3233, .authenticated ⟨1, .user, .jwt, []⟩⟩,
        ⟨VerifierState.rsaToken "a" 3233, .authenticated ⟨2, .user, .jwt, []⟩⟩]⟩, ?_,
    1, _, _, rfl, rfl, rfl, by simp⟩ <;> decide +kernel

end Accounts

end Login

end ForecastIQ.Identity
