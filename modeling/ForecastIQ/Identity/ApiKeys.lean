import ForecastIQ.Identity.Users
import ForecastIQ.Api.Cache
import ForecastIQ.Foundations.Runs
import Mathlib.Data.Fintype.EquivFin

/-!
# API keys

`APIKeyService`: a user creates keys with a list of scopes, and a request that presents the
plaintext of a key acts as the key's user with the key's scopes. `RequireScope` lets such a
request through if the key carries the scope; the public read is implicit. Of the routes,
those that change users or keys are modelled and those behind a scope check; the others
leave both tables alone.

Randomness and hashing are idealised. A plaintext is the pair of its random parts, the
lookup prefix and the secret, which the environment draws (`fiq_<prefix>.<secret>` is the
text of it), and a hash verifies exactly the plaintext it was made from.

`Session` is the holder of a key at work: requests one after another, each with a key the
holder knows, which is the first key and those that creations have answered with.
`CreateKey` takes the scopes it is asked for, whatever key asks. So the scopes that requests
of the holder pass are those of the first key exactly as long as the creations ask for no
others.
-/

namespace ForecastIQ.Identity

open ForecastIQ.Foundations ForecastIQ.Foundations.FormEncoding

/-! ### Keys -/

/-- The plaintext of a key. -/
structure PlainKey where
  keyPrefix : ℕ
  secret : ℕ
  deriving DecidableEq

/-- An argon2id hash, which determines its plaintext. -/
structure KeyHash where
  plaintext : PlainKey
  deriving DecidableEq

/-- `hashKey`. -/
def hashKey (plaintext : PlainKey) : KeyHash := ⟨plaintext⟩

/-- `verifyKey`. -/
def verifyKey (plaintext : PlainKey) (hash : KeyHash) : Bool := hash.plaintext = plaintext

/-- A row of `api_keys`. -/
structure APIKey where
  id : ℕ
  userID : ℕ
  name : Bytes
  keyHash : KeyHash
  keyPrefix : ℕ
  scopes : List String
  rateLimitPerMin : ℤ
  expiresAt : Option ℤ
  createdAt : ℤ
  revokedAt : Option ℤ
  deriving DecidableEq

/-- `Revoked`. -/
def APIKey.revoked (k : APIKey) : Bool := k.revokedAt.isSome

/-- `Expired`. -/
def APIKey.expired (k : APIKey) (now : ℤ) : Bool := k.expiresAt.any fun at' => !(now < at')

/-- `Usable`. -/
def APIKey.usable (k : APIKey) (now : ℤ) : Bool := !k.revoked && !k.expired now

/-- `DefaultScopes`. -/
def defaultScopes : List String := ["read:public"]

def maxKeyNameLen : ℕ := 100

def defaultKeyRateMin : ℤ := 60

/-- The tables `users` and `api_keys`. -/
structure Store where
  users : List User
  keys : List APIKey
  deriving DecidableEq

/-- What a key call fails with. -/
inductive KeyError where
  /-- `nameError`, surfaced as 422. -/
  | field (name message : String)
  /-- The row violates a constraint of the table. -/
  | insert
  /-- `ErrKeyNotFound`. -/
  | keyNotFound
  deriving DecidableEq

/-- `CreateKeyInput`. -/
structure CreateKeyInput where
  name : Bytes
  scopes : List String
  rateLimitPerMin : ℤ
  expiresAt : Option ℤ
  deriving DecidableEq

/-- `Insert`: the id and the prefix are unique, the user is there, and the rate fits its
column. -/
def Store.insertKey (s : Store) (k : APIKey) : Except KeyError Store :=
  if (s.keys.any fun k' => k'.id = k.id ∨ k'.keyPrefix = k.keyPrefix) ∨ (getByID s.users k.userID).isNone ∨
      2147483647 < k.rateLimitPerMin then
    .error .insert
  else .ok { s with keys := s.keys ++ [k] }

/-- The row that `CreateKey` inserts for a drawn plaintext. -/
def newKey (now : ℤ) (userID : ℕ) (input : CreateKeyInput) (id : ℕ) (drawn : PlainKey) : APIKey where
  id := id
  userID := userID
  name := Api.trimSpace input.name
  keyHash := hashKey drawn
  keyPrefix := drawn.keyPrefix
  scopes := if input.scopes = [] then defaultScopes else input.scopes
  rateLimitPerMin := if input.rateLimitPerMin ≤ 0 then defaultKeyRateMin else input.rateLimitPerMin
  expiresAt := input.expiresAt.map storedTime
  createdAt := storedTime now
  revokedAt := none

/-- `CreateKey`, with the id and the plaintext that were drawn. -/
def createKey (s : Store) (now : ℤ) (userID : ℕ) (input : CreateKeyInput) (id : ℕ) (drawn : PlainKey) :
    Except KeyError Store :=
  let name := Api.trimSpace input.name
  if name = [] ∨ maxKeyNameLen < name.length then
    .error (.field "name" "name is required and must be at most 100 characters")
  else s.insertKey (newKey now userID input id drawn)

/-- `Revoke`: keeps the time of the first revocation. -/
def APIKey.revoke (now : ℤ) (k : APIKey) : APIKey :=
  if k.revokedAt.isNone then { k with revokedAt := some (storedTime now) } else k

/-- `RevokeKey`: of a key of the user. -/
def revokeKey (s : Store) (now : ℤ) (userID keyID : ℕ) : Except KeyError Store :=
  match s.keys.find? fun k => k.id = keyID with
  | none => .error .keyNotFound
  | some k =>
    if k.userID ≠ userID then .error .keyNotFound
    else .ok { s with keys := s.keys.map fun k' => if k'.id = keyID then k'.revoke now else k' }

/-! ### Authentication -/

/-- How a principal was authenticated. -/
inductive AuthMethod where
  | jwt | apiKey
  deriving DecidableEq

/-- Who makes a request. -/
structure Principal where
  userID : ℕ
  role : Role
  method : AuthMethod
  scopes : List String
  deriving DecidableEq

/-- What authentication fails with. -/
inductive AuthError where
  | invalidCredential | keyInactive | userNotFound | userDisabled
  deriving DecidableEq

/-- `AuthenticateAPIKey`. -/
def authenticateAPIKey (s : Store) (now : ℤ) (raw : PlainKey) : Except AuthError Principal :=
  match s.keys.find? fun k => k.keyPrefix = raw.keyPrefix with
  | none => .error .invalidCredential
  | some k =>
    if !verifyKey raw k.keyHash then .error .invalidCredential
    else if !k.usable now then .error .keyInactive
    else
      match getByID s.users k.userID with
      | none => .error .userNotFound
      | some u => if !u.active then .error .userDisabled else .ok ⟨u.id, u.role, .apiKey, k.scopes⟩

/-- The scopes of a key give the scope: it is one of them, or the implicit public read. -/
def carries (scopes : List String) (scope : String) : Bool :=
  scope = "" || scope = "read:public" || scopes.contains scope

/-- `HasScope`. -/
def Principal.hasScope (p : Principal) (scope : String) : Bool :=
  match p.method with
  | .apiKey => carries p.scopes scope
  | .jwt => true

theorem authenticateAPIKey_ok {s : Store} {now : ℤ} {raw : PlainKey} {p : Principal}
    (h : authenticateAPIKey s now raw = .ok p) :
    ∃ k ∈ s.keys, ∃ u, k.keyHash = hashKey raw ∧ k.usable now = true ∧ getByID s.users k.userID = some u ∧
      u.active = true ∧ p = ⟨u.id, u.role, .apiKey, k.scopes⟩ := by
  simp only [authenticateAPIKey] at h
  split at h
  · cases h
  · rename_i k hk
    split_ifs at h with hverify husable
    split at h
    · cases h
    · rename_i u hu
      split_ifs at h with hactive
      cases h
      have hhash : k.keyHash = hashKey raw := by
        have hplain : k.keyHash.plaintext = raw := by simpa [verifyKey] using hverify
        rw [hashKey, ← hplain]
      exact ⟨k, List.mem_of_find?_eq_some hk, u, hhash, by simpa using husable, hu, by simpa using hactive, rfl⟩

/-! ### Requests -/

/-- The routes that change users or keys, those behind a scope check, and the rest. -/
inductive Route where
  /-- `POST /api-keys`, with the id and the plaintext that the server draws. -/
  | createAPIKey (input : CreateKeyInput) (id : ℕ) (drawn : PlainKey)
  /-- `DELETE /api-keys/:id`. -/
  | revokeAPIKey (keyID : ℕ)
  /-- `DELETE /me`. -/
  | deleteMe
  /-- `PATCH /admin/users/:id/status`, with the answer of the auth provider. -/
  | setUserStatus (userID : ℕ) (status : String) (answered : Bool)
  /-- `PATCH /admin/users/:id/role`. -/
  | setUserRole (userID : ℕ) (role : String)
  /-- `DELETE /admin/users/:id`. -/
  | deleteUser (userID : ℕ)
  /-- A route behind `RequireScope(scope)`; `/forecasts/latest` with `read:data`. -/
  | behindScope (scope : String)
  /-- Any other route. -/
  | other
  deriving DecidableEq

/-- What a request is answered with. -/
inductive Response where
  | ok
  /-- 201 with the plaintext, shown this once. -/
  | created (plaintext : PlainKey)
  /-- The scope check let the request through. -/
  | passed (scope : String)
  | unauthorized
  | forbidden
  /-- Another error of the call. -/
  | failed
  deriving DecidableEq

/-- A user call leaves the users it returns; `api_keys` cascades. -/
def Store.afterUsers (s : Store) : Except AdminError (List User) → Store × Response
  | .ok users => (⟨users, s.keys.filter fun k => (getByID users k.userID).isSome⟩, .ok)
  | .error _ => (s, .failed)

/-- The handler behind `RequireAuth`. -/
def Store.handle (s : Store) (now : ℤ) (p : Principal) : Route → Store × Response
  | .createAPIKey input id drawn =>
    match createKey s now p.userID input id drawn with
    | .ok s' => (s', .created drawn)
    | .error _ => (s, .failed)
  | .revokeAPIKey keyID =>
    match revokeKey s now p.userID keyID with
    | .ok s' => (s', .ok)
    | .error _ => (s, .failed)
  | .deleteMe => s.afterUsers (delete s.users p.userID p.userID true)
  | .setUserStatus userID status answered =>
    if p.role ≠ .admin then (s, .forbidden) else s.afterUsers (setStatus s.users p.userID userID status answered)
  | .setUserRole userID role =>
    if p.role ≠ .admin then (s, .forbidden) else s.afterUsers (setRole s.users p.userID userID role)
  | .deleteUser userID =>
    if p.role ≠ .admin then (s, .forbidden) else s.afterUsers (delete s.users p.userID userID false)
  | .behindScope scope => if p.hasScope scope then (s, .passed scope) else (s, .forbidden)
  | .other => (s, .ok)

/-- A request with an API key. -/
def Store.serve (s : Store) (now : ℤ) (credential : PlainKey) (route : Route) : Store × Response :=
  match authenticateAPIKey s now credential with
  | .error _ => (s, .unauthorized)
  | .ok p => s.handle now p route

/-! ### What a request does to the keys -/

/-- The constraints of `api_keys` that a lookup relies on. -/
structure Store.Valid (s : Store) : Prop where
  /-- The prefix is unique. -/
  unique : (s.keys.map APIKey.keyPrefix).Nodup
  /-- A row has the prefix of the plaintext it was made for. -/
  hashed : ∀ k ∈ s.keys, k.keyPrefix = k.keyHash.plaintext.keyPrefix

theorem insertKey_ok_iff {s s' : Store} {k : APIKey} :
    s.insertKey k = .ok s' ↔ (∀ k' ∈ s.keys, k'.id ≠ k.id ∧ k'.keyPrefix ≠ k.keyPrefix) ∧
      (∃ u ∈ s.users, u.id = k.userID) ∧ k.rateLimitPerMin ≤ 2147483647 ∧ s' = { s with keys := s.keys ++ [k] } := by
  rw [Store.insertKey, ← getByID_isSome_iff]
  split_ifs with h
  · simp only [false_iff]
    rintro ⟨hnew, huser, hrate, -⟩
    rcases h with h | h | h
    · obtain ⟨k', hk', he⟩ := List.any_eq_true.mp h
      obtain ⟨hid, hprefix⟩ := hnew k' hk'
      simp [hid, hprefix] at he
    · rw [Option.isNone_iff_eq_none.mp h] at huser
      cases huser
    · omega
  · simp only [not_or, Bool.not_eq_true, List.any_eq_false, decide_eq_true_eq, not_lt] at h
    obtain ⟨hnew, huser, hrate⟩ := h
    rw [Option.isNone_eq_false_iff] at huser
    exact ⟨fun he => ⟨fun k' hk' => by simpa using hnew k' hk', huser, hrate, (Except.ok.inj he).symm⟩,
      fun he => by rw [he.2.2.2]⟩

/-- What a creation leaves: one row more, with the scopes asked for. -/
theorem createKey_ok {s s' : Store} {now : ℤ} {userID id : ℕ} {input : CreateKeyInput} {drawn : PlainKey}
    (h : createKey s now userID input id drawn = .ok s') :
    (∀ k ∈ s.keys, k.keyPrefix ≠ drawn.keyPrefix) ∧
      s' = { s with keys := s.keys ++ [newKey now userID input id drawn] } := by
  simp only [createKey] at h
  split_ifs at h
  obtain ⟨hnew, -, -, he⟩ := insertKey_ok_iff.mp h
  exact ⟨fun k hk => (hnew k hk).2, he⟩

/-- What a revocation leaves: the rows with their prefixes, hashes and scopes. -/
theorem revokeKey_ok {s s' : Store} {now : ℤ} {userID keyID : ℕ} (h : revokeKey s now userID keyID = .ok s') :
    s' = { s with keys := s.keys.map fun k => if k.id = keyID then k.revoke now else k } := by
  simp only [revokeKey] at h
  split at h
  · cases h
  · split_ifs at h
    cases h
    rfl

theorem revoke_eq (now : ℤ) (k : APIKey) :
    (k.revoke now).keyPrefix = k.keyPrefix ∧ (k.revoke now).keyHash = k.keyHash ∧ (k.revoke now).scopes = k.scopes := by
  unfold APIKey.revoke
  split_ifs <;> simp

/-- The rows after a handler are rows there were, or some of them, but for revocations; a
creation adds its own. -/
inductive Store.Changes (s : Store) : Store → Route → Response → Prop where
  | kept {route : Route} {response : Response} (h : ∀ p, response ≠ .created p) : Changes s s route response
  | created {now : ℤ} {userID id : ℕ} {input : CreateKeyInput} {drawn : PlainKey}
      (h : ∀ k ∈ s.keys, k.keyPrefix ≠ drawn.keyPrefix) :
      Changes s { s with keys := s.keys ++ [newKey now userID input id drawn] } (.createAPIKey input id drawn)
        (.created drawn)
  | revoked {now : ℤ} {keyID : ℕ} :
      Changes s { s with keys := s.keys.map fun k => if k.id = keyID then k.revoke now else k } (.revokeAPIKey keyID)
        .ok
  | users {route : Route} (users : List User) :
      Changes s ⟨users, s.keys.filter fun k => (getByID users k.userID).isSome⟩ route .ok

theorem changes_afterUsers (s : Store) (route : Route) (result : Except AdminError (List User)) :
    s.Changes (s.afterUsers result).1 route (s.afterUsers result).2 := by
  cases result with
  | ok users => exact .users users
  | error e => exact .kept (by simp [Store.afterUsers])

theorem changes_handle (s : Store) (now : ℤ) (p : Principal) (route : Route) :
    s.Changes (s.handle now p route).1 route (s.handle now p route).2 := by
  cases route with
  | createAPIKey input id drawn =>
    simp only [Store.handle]
    split
    · rename_i s' hok
      obtain ⟨hnew, rfl⟩ := createKey_ok hok
      exact .created hnew
    · exact .kept (by simp)
  | revokeAPIKey keyID =>
    simp only [Store.handle]
    split
    · rename_i s' hok
      rw [revokeKey_ok hok]
      exact .revoked
    · exact .kept (by simp)
  | deleteMe => exact changes_afterUsers s _ _
  | setUserStatus userID status answered =>
    simp only [Store.handle]
    split_ifs
    · exact .kept (by simp)
    · exact changes_afterUsers s _ _
  | setUserRole userID role =>
    simp only [Store.handle]
    split_ifs
    · exact .kept (by simp)
    · exact changes_afterUsers s _ _
  | deleteUser userID =>
    simp only [Store.handle]
    split_ifs
    · exact .kept (by simp)
    · exact changes_afterUsers s _ _
  | behindScope scope =>
    simp only [Store.handle]
    split_ifs <;> exact .kept (by simp)
  | other => exact .kept (by simp [Store.handle])

/-- What a request does to the tables. -/
theorem changes_serve (s : Store) (now : ℤ) (credential : PlainKey) (route : Route) :
    s.Changes (s.serve now credential route).1 route (s.serve now credential route).2 := by
  simp only [Store.serve]
  split
  · exact .kept (by simp)
  · exact changes_handle s now _ route

/-- Every request keeps the constraints. -/
theorem Store.Valid.changes {s s' : Store} {route : Route} {response : Response} (h : s.Valid)
    (hc : s.Changes s' route response) : s'.Valid := by
  cases hc with
  | kept _ => exact h
  | created hnew =>
    refine ⟨?_, fun k hk => ?_⟩
    · rw [List.map_append, List.nodup_append]
      refine ⟨h.unique, List.nodup_singleton _, ?_⟩
      intro a ha b hb
      obtain ⟨k, hk, rfl⟩ := List.mem_map.mp ha
      cases List.mem_singleton.mp hb
      exact hnew k hk
    · rcases List.mem_append.mp hk with hk | hk
      · exact h.hashed k hk
      · cases List.mem_singleton.mp hk
        rfl
  | @revoked now keyID =>
    refine ⟨?_, fun k hk => ?_⟩
    · have he : (s.keys.map fun k => if k.id = keyID then k.revoke now else k).map APIKey.keyPrefix =
          s.keys.map APIKey.keyPrefix := by
        rw [List.map_map]
        refine List.map_congr_left fun k _ => ?_
        simp only [Function.comp_apply]
        split_ifs
        · exact (revoke_eq _ k).1
        · rfl
      rw [he]
      exact h.unique
    · obtain ⟨k', hk', rfl⟩ := List.mem_map.mp hk
      split_ifs
      · rw [(revoke_eq _ k').1, (revoke_eq _ k').2.1]
        exact h.hashed k' hk'
      · exact h.hashed k' hk'
  | users users =>
    exact ⟨h.unique.sublist (List.filter_sublist.map _), fun k hk => h.hashed k (List.mem_filter.mp hk).1⟩

/-- A row afterwards was there, with its hash and scopes, or is the one created. -/
theorem Store.Changes.mem_keys {s s' : Store} {route : Route} {response : Response} (h : s.Changes s' route response)
    {k : APIKey} (hk : k ∈ s'.keys) :
    (∃ k' ∈ s.keys, k.keyHash = k'.keyHash ∧ k.scopes = k'.scopes ∧
        ∀ drawn, response = .created drawn → k'.keyPrefix ≠ drawn.keyPrefix) ∨
      ∃ input id drawn, route = .createAPIKey input id drawn ∧
        k.scopes = if input.scopes = [] then defaultScopes else input.scopes := by
  cases h with
  | kept hne => exact .inl ⟨k, hk, rfl, rfl, fun drawn he => absurd he (hne drawn)⟩
  | @created now userID id input drawn hnew =>
    rcases List.mem_append.mp hk with hk | hk
    · refine .inl ⟨k, hk, rfl, rfl, fun drawn' he => ?_⟩
      cases he
      exact hnew k hk
    · cases List.mem_singleton.mp hk
      exact .inr ⟨input, id, drawn, rfl, rfl⟩
  | revoked =>
    obtain ⟨k', hk', rfl⟩ := List.mem_map.mp hk
    refine .inl ⟨k', hk', ?_⟩
    split_ifs
    · exact ⟨(revoke_eq _ k').2.1, (revoke_eq _ k').2.2, by simp⟩
    · exact ⟨rfl, rfl, by simp⟩
  | users users => exact .inl ⟨k, (List.mem_filter.mp hk).1, rfl, rfl, by simp⟩

theorem afterUsers_ne_passed (s : Store) (result : Except AdminError (List User)) (scope : String) :
    (s.afterUsers result).2 ≠ .passed scope := by
  cases result <;> simp [Store.afterUsers]

/-- Only a principal that has the scope passes its check. -/
theorem handle_passed {s : Store} {now : ℤ} {p : Principal} {route : Route} {scope : String}
    (h : (s.handle now p route).2 = .passed scope) : route = .behindScope scope ∧ p.hasScope scope = true := by
  cases route with
  | createAPIKey _ _ _ | revokeAPIKey _ =>
    simp only [Store.handle] at h
    split at h <;> cases h
  | deleteMe => exact absurd h (afterUsers_ne_passed s _ scope)
  | setUserStatus _ _ _ | setUserRole _ _ | deleteUser _ =>
    simp only [Store.handle] at h
    split_ifs at h
    exact absurd h (afterUsers_ne_passed s _ scope)
  | behindScope scope' =>
    simp only [Store.handle] at h
    split_ifs at h with hscope
    cases h
    exact ⟨rfl, hscope⟩
  | other => cases h

/-- A request that passes a scope check is made with a key that carries the scope. -/
theorem serve_passed {s : Store} {now : ℤ} {credential : PlainKey} {route : Route} {scope : String}
    (h : (s.serve now credential route).2 = .passed scope) :
    route = .behindScope scope ∧ ∃ k ∈ s.keys, k.keyHash = hashKey credential ∧ carries k.scopes scope = true := by
  simp only [Store.serve] at h
  split at h
  · cases h
  · rename_i p hp
    obtain ⟨k, hk, u, hhash, -, -, -, rfl⟩ := authenticateAPIKey_ok hp
    exact ⟨(handle_passed h).1, k, hk, hhash, (handle_passed h).2⟩

/-! ### The holder of a key -/

/-- One request of the holder. -/
structure KeyRequest where
  now : ℤ
  credential : PlainKey
  route : Route
  deriving DecidableEq

/-- The scopes the request asks a new key to carry. -/
def KeyRequest.asks (r : KeyRequest) : List String :=
  match r.route with
  | .createAPIKey input _ _ => input.scopes
  | _ => []

/-- The scope whose check the request comes to. -/
def KeyRequest.checks (r : KeyRequest) : List String :=
  match r.route with
  | .behindScope scope => [scope]
  | _ => []

/-- The scopes that the routes of `NewRouter` check. -/
def routerScopes : List String := ["read:data"]

/-- The server, the keys the holder knows, and the scopes whose check a request has passed. -/
structure Session where
  store : Store
  now : ℤ
  known : List PlainKey
  passed : List String
  deriving DecidableEq

namespace Session

/-- The session after the answer to a request at `now`. -/
def learn (s : Session) (now : ℤ) (store : Store) : Response → Session
  | .created plaintext => { s with store := store, now := now, known := s.known ++ [plaintext] }
  | .passed scope => { s with store := store, now := now, passed := s.passed ++ [scope] }
  | _ => { s with store := store, now := now }

/-- One request, with a key the holder knows and not before the last one. -/
def step (s : Session) (r : KeyRequest) : Option Session :=
  if s.now ≤ r.now ∧ r.credential ∈ s.known then
    let answer := s.store.serve r.now r.credential r.route
    some (s.learn r.now answer.1 answer.2)
  else none

/-- The holder of one key. -/
def start (store : Store) (now : ℤ) (key : PlainKey) : Session := ⟨store, now, [key], []⟩

theorem step_some_iff {s t : Session} {r : KeyRequest} :
    s.step r = some t ↔ (s.now ≤ r.now ∧ r.credential ∈ s.known) ∧
      t = s.learn r.now (s.store.serve r.now r.credential r.route).1 (s.store.serve r.now r.credential r.route).2 := by
  unfold step
  split_ifs with h
  · simp [h, eq_comm]
  · simp [h]

@[simp] theorem learn_store (s : Session) (now : ℤ) (store : Store) (response : Response) :
    (s.learn now store response).store = store := by
  cases response <;> rfl

/-- A key becomes known by the answer to its creation only. -/
theorem mem_known_learn {s : Session} {now : ℤ} {store : Store} {response : Response} {key : PlainKey} :
    key ∈ (s.learn now store response).known ↔ key ∈ s.known ∨ response = .created key := by
  cases response <;> simp [learn, eq_comm]

theorem mem_passed_learn {s : Session} {now : ℤ} {store : Store} {response : Response} {scope : String} :
    scope ∈ (s.learn now store response).passed ↔ scope ∈ s.passed ∨ response = .passed scope := by
  cases response <;> simp [learn, eq_comm]

/-! ### The scopes a holder can pass -/

/-- The known keys carry scopes that the first key carries or that were asked for, and only these were passed, where
a route checks them. -/
structure Confined (scopes : List String) (asked checked : String → Prop) (s : Session) : Prop where
  valid : s.store.Valid
  keys : ∀ k ∈ s.store.keys, k.keyHash.plaintext ∈ s.known → ∀ scope, carries k.scopes scope = true →
    carries scopes scope = true ∨ asked scope
  passed : ∀ scope ∈ s.passed, checked scope ∧ (carries scopes scope = true ∨ asked scope)

section Confined

variable {scopes : List String} {asked checked : String → Prop}

/-- A request keeps the session confined. -/
theorem Confined.step {s t : Session} {r : KeyRequest} (h : s.Confined scopes asked checked)
    (hr : (∀ scope ∈ r.asks, asked scope) ∧ ∀ scope ∈ r.checks, checked scope) (hstep : s.step r = some t) :
    t.Confined scopes asked checked := by
  obtain ⟨⟨-, hknown⟩, rfl⟩ := step_some_iff.mp hstep
  have hchanges := changes_serve s.store r.now r.credential r.route
  refine ⟨?_, fun k hk hplain => ?_, fun scope hscope => ?_⟩
  · rw [learn_store]
    exact h.valid.changes hchanges
  · rw [learn_store] at hk
    rcases hchanges.mem_keys hk with ⟨k', hk', hhash, hscopes, hold⟩ | ⟨input, id, drawn, hroute, hscopes⟩
    · rw [hhash, mem_known_learn] at hplain
      rw [hscopes]
      rcases hplain with hplain | hplain
      · exact h.keys k' hk' hplain
      · exact absurd (h.valid.hashed k' hk') (hold _ hplain)
    · rw [hscopes]
      intro scope hcarries
      simp only [carries, Bool.or_eq_true, decide_eq_true_eq, List.contains_iff_mem] at hcarries ⊢
      rcases hcarries with hcarries | hmem
      · exact .inl (.inl hcarries)
      · split_ifs at hmem with hempty
        · exact .inl (.inl (.inr (List.mem_singleton.mp hmem)))
        · exact .inr (hr.1 scope (by rw [KeyRequest.asks, hroute]; exact hmem))
  · rcases mem_passed_learn.mp hscope with hscope | hscope
    · exact h.passed scope hscope
    · obtain ⟨hroute, k, hk, hhash, hcarries⟩ := serve_passed hscope
      exact ⟨hr.2 scope (by simp [KeyRequest.checks, hroute]), h.keys k hk (by rw [hhash]; exact hknown) scope hcarries⟩

/-- The first key carries what its principal has. -/
theorem confined_start {store : Store} (hvalid : store.Valid) {now : ℤ} {key : PlainKey} {p : Principal}
    (hauth : authenticateAPIKey store now key = .ok p) : (start store now key).Confined p.scopes asked checked := by
  obtain ⟨k, hk, u, hhash, -, -, -, rfl⟩ := authenticateAPIKey_ok hauth
  refine ⟨hvalid, fun k' hk' hplain scope hscope => .inl ?_, by simp [start]⟩
  have hplain' : k'.keyHash.plaintext = k.keyHash.plaintext := by
    rw [List.mem_singleton.mp hplain, hhash, hashKey]
  have he : k' = k := by
    refine List.inj_on_of_nodup_map hvalid.unique hk' hk ?_
    rw [hvalid.hashed k' hk', hvalid.hashed k hk, hplain']
  rwa [he] at hscope

end Confined

/-- A key that was just created with a scope authenticates, as its user with that scope. -/
theorem authenticate_newKey {s : Store} {now : ℤ} {u : User} {scope : String} {id : ℕ} {drawn : PlainKey}
    (hu : getByID s.users u.id = some u) (hactive : u.active = true)
    (hnew : ∀ k ∈ s.keys, k.keyPrefix ≠ drawn.keyPrefix) :
    authenticateAPIKey { s with keys := s.keys ++ [newKey now u.id ⟨ascii "key", [scope], 0, none⟩ id drawn] } now
        drawn =
      .ok ⟨u.id, u.role, .apiKey, [scope]⟩ := by
  have hold : s.keys.find? (fun k => k.keyPrefix = drawn.keyPrefix) = none := by
    simpa using hnew
  simp [authenticateAPIKey, List.find?_append, hold, newKey, verifyKey, hashKey, APIKey.usable, APIKey.revoked,
    APIKey.expired, hu, hactive]

/-- The holder of a key creates one with any scope, and passes the check of that scope. -/
theorem exists_passed {store : Store} {now : ℤ} {key : PlainKey} {p : Principal}
    (hauth : authenticateAPIKey store now key = .ok p) (scope : String) :
    ∃ requests t, runFrom step (start store now key) requests = some t ∧
      (∀ r ∈ requests, (∀ a ∈ r.asks, a = scope) ∧ ∀ a ∈ r.checks, a = scope) ∧ scope ∈ t.passed := by
  obtain ⟨k, -, u, -, -, hfound, hactive, hp⟩ := authenticateAPIKey_ok hauth
  obtain ⟨hmem, hid⟩ := getByID_some hfound
  have hu : getByID store.users u.id = some u := by rw [hid, hfound]
  -- the server draws an id and a prefix that no row has
  obtain ⟨id, hfresh⟩ := Infinite.exists_notMem_finset (store.keys.map APIKey.id).toFinset
  obtain ⟨n, hn⟩ := Infinite.exists_notMem_finset (store.keys.map APIKey.keyPrefix).toFinset
  simp only [List.mem_toFinset, List.mem_map, not_exists, not_and] at hfresh hn
  let input : CreateKeyInput := ⟨ascii "key", [scope], 0, none⟩
  let store' : Store := { store with keys := store.keys ++ [newKey now u.id input id ⟨n, 0⟩] }
  have hcreate : createKey store now u.id input id ⟨n, 0⟩ = .ok store' := by
    have hname : ¬ (Api.trimSpace (ascii "key") = [] ∨ maxKeyNameLen < (Api.trimSpace (ascii "key")).length) := by
      decide +kernel
    rw [createKey, if_neg hname, insertKey_ok_iff]
    exact ⟨fun k' hk' => ⟨hfresh k' hk', hn k' hk'⟩, ⟨u, hmem, rfl⟩, by simp [newKey, input, defaultKeyRateMin], rfl⟩
  have hcreated : store.serve now key (.createAPIKey input id ⟨n, 0⟩) = (store', .created ⟨n, 0⟩) := by
    simp only [Store.serve, hauth, Store.handle, hp, hcreate]
  have hpassed : store'.serve now ⟨n, 0⟩ (.behindScope scope) = (store', .passed scope) := by
    have hnew : authenticateAPIKey store' now ⟨n, 0⟩ = .ok ⟨u.id, u.role, .apiKey, [scope]⟩ :=
      authenticate_newKey hu hactive hn
    simp [Store.serve, hnew, Store.handle, Principal.hasScope, carries]
  refine ⟨[⟨now, key, .createAPIKey input id ⟨n, 0⟩⟩, ⟨now, ⟨n, 0⟩, .behindScope scope⟩],
    ⟨store', now, [key, ⟨n, 0⟩], [scope]⟩, ?_, ?_, by simp⟩
  · rw [runFrom_cons_iff]
    refine ⟨⟨store', now, [key, ⟨n, 0⟩], []⟩, ?_, ?_⟩
    · simp [step, start, hcreated, learn]
    · rw [runFrom_cons_iff]
      exact ⟨_, by simp [step, hpassed, learn], rfl⟩
  · simp [KeyRequest.asks, KeyRequest.checks, input]

/-- **The holder of a key passes no scope that the key does not carry exactly when the
creations ask for none that a route checks**: with `asked` the scopes that creations may ask
for and `checked` those that routes check, every run stays within the scopes of the key if and
only if all that are both do. For the routes of `NewRouter`, `checked` are the `routerScopes`. -/
theorem scopes_confined_iff {store : Store} (hvalid : store.Valid) {now : ℤ} {key : PlainKey} {p : Principal}
    (hauth : authenticateAPIKey store now key = .ok p) (asked checked : String → Prop) :
    (∀ requests t, runFrom step (start store now key) requests = some t →
        (∀ r ∈ requests, (∀ scope ∈ r.asks, asked scope) ∧ ∀ scope ∈ r.checks, checked scope) →
        ∀ scope ∈ t.passed, carries p.scopes scope = true) ↔
      ∀ scope, checked scope → asked scope → carries p.scopes scope = true := by
  constructor
  · intro h scope hchecked hasked
    obtain ⟨requests, t, hrun, honly, hpassed⟩ := exists_passed hauth scope
    refine h requests t hrun (fun r hr => ⟨fun a ha => ?_, fun a ha => ?_⟩) scope hpassed
    · rw [(honly r hr).1 a ha]
      exact hasked
    · rw [(honly r hr).2 a ha]
      exact hchecked
  · intro h requests t hrun hrequests scope hscope
    have hconfined : t.Confined p.scopes asked checked :=
      runFrom_invariant_of_along (P := Confined p.scopes asked checked) (fun _ _ _ hs hr => hs.step hr)
        (confined_start hvalid hauth) (along_of_forall_mem hrequests _) hrun
    obtain ⟨hchecked, hcarries | hasked⟩ := hconfined.passed scope hscope
    · exact hcarries
    · exact h scope hchecked hasked

/-- One user, with a key that carries the public read. -/
def oneKey : Store where
  users := [⟨1, "subject-1", "one@example.org", .user, .active⟩]
  keys := [⟨1, 1, ascii "key", ⟨⟨10, 77⟩⟩, 10, ["read:public"], 60, none, 0, none⟩]

/-- A holder who asks for the public read only stays within it. -/
theorem scopes_confined_public :
    authenticateAPIKey oneKey 5 ⟨10, 77⟩ = .ok ⟨1, .user, .apiKey, ["read:public"]⟩ ∧
      ∀ requests t, runFrom step (start oneKey 5 ⟨10, 77⟩) requests = some t →
        (∀ r ∈ requests, ∀ scope ∈ r.asks, scope = "read:public") →
          ∀ scope ∈ t.passed, carries ["read:public"] scope = true := by
  have hvalid : oneKey.Valid := ⟨by decide, by decide⟩
  have hauth : authenticateAPIKey oneKey 5 ⟨10, 77⟩ = .ok ⟨1, .user, .apiKey, ["read:public"]⟩ := by rfl
  refine ⟨hauth, fun requests t hrun hasks => ?_⟩
  refine (scopes_confined_iff hvalid hauth (· = "read:public") fun _ => True).mpr ?_ requests t hrun
    fun r hr => ⟨hasks r hr, fun _ _ => trivial⟩
  rintro scope - rfl
  rfl

/-- A key that carries the public read creates one that carries `read:data`, and a request
with that one passes `RequireScope("read:data")`. -/
theorem public_key_reads_data :
    authenticateAPIKey oneKey 5 ⟨10, 77⟩ = .ok ⟨1, .user, .apiKey, ["read:public"]⟩ ∧
      carries ["read:public"] "read:data" = false ∧
      ∃ t, runFrom step (start oneKey 5 ⟨10, 77⟩)
        [⟨6, ⟨10, 77⟩, .createAPIKey ⟨ascii "data", ["read:data"], 0, none⟩ 2 ⟨11, 78⟩⟩,
          ⟨7, ⟨11, 78⟩, .behindScope "read:data"⟩] = some t ∧ "read:data" ∈ t.passed := by
  have hrun : (runFrom step (start oneKey 5 ⟨10, 77⟩)
      [⟨6, ⟨10, 77⟩, .createAPIKey ⟨ascii "data", ["read:data"], 0, none⟩ 2 ⟨11, 78⟩⟩,
        ⟨7, ⟨11, 78⟩, .behindScope "read:data"⟩]).map passed = some ["read:data"] := by decide +kernel
  obtain ⟨t, ht, hpassed⟩ := Option.map_eq_some_iff.mp hrun
  exact ⟨rfl, by decide, t, ht, by rw [hpassed]; exact List.mem_singleton_self _⟩

end Session

end ForecastIQ.Identity
