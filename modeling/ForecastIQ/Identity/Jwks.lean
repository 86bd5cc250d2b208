import ForecastIQ.Foundations.Instant
import ForecastIQ.Foundations.Runs

/-!
# Verifying bearer tokens against the published keys

`Verifier` accepts a token that one of the keys of the JWKS endpoint has signed. It keeps
the keys it has fetched, and fetches again when a token names a key id it does not have,
though not within `MinRefreshInterval` of the last fetch. A fetch replaces all keys.

A call is taken at one instant. What the endpoint answers is a function of time, and the
base64 and JSON encodings are left out: a token is its decoded parts, each of which may be
malformed. Signatures are idealised: a signature is made with a key, and verifies with that
key only.

The keys kept have no age. A key that the endpoint no longer publishes goes with the next
fetch, and only a token with an unknown key id starts one. So a token signed with it is
rejected exactly when a call before has fetched (`KeyCache.refreshes`).
-/

namespace ForecastIQ.Identity

open ForecastIQ.Foundations

/-! ### Keys -/

/-- A public key. -/
inductive PublicKey where
  | rsa (n e : ℕ)
  | ecdsa (x y : ℕ)
  deriving DecidableEq

/-- An entry of the JWKS document; a number that does not decode is missing. -/
structure Jwk where
  kty : String
  kid : String
  n : Option ℕ
  e : Option ℕ
  crv : String
  x : Option ℕ
  y : Option ℕ
  deriving DecidableEq

/-- `publicKey`; nothing for an unusable entry. -/
def Jwk.publicKey (k : Jwk) : Option PublicKey :=
  if k.kty = "RSA" then k.n.bind fun n => k.e.map (PublicKey.rsa n)
  else if k.kty = "EC" then if k.crv ≠ "P-256" then none else k.x.bind fun x => k.y.map (PublicKey.ecdsa x)
  else none

/-- The keys by their ids, the latest entry of an id first. -/
abbrev KeySet := List (String × PublicKey)

/-- The key with the id. -/
def KeySet.get (keys : KeySet) (kid : String) : Option PublicKey :=
  (keys.find? fun entry => entry.1 = kid).map Prod.snd

/-- One entry of the document: skipped if it is unusable or has no id. -/
def addKey (out : KeySet) (k : Jwk) : KeySet :=
  match k.publicKey with
  | none => out
  | some key => if k.kid = "" then out else (k.kid, key) :: out

/-- The usable entries, a later one in place of an earlier one with its id. -/
def usableKeys (doc : List Jwk) : KeySet := doc.foldl addKey []

/-- `parseJWKS`: at least one usable key. -/
def parseJWKS (doc : List Jwk) : Option KeySet := if usableKeys doc = [] then none else some (usableKeys doc)

theorem KeySet.get_mem {keys : KeySet} {kid : String} {key : PublicKey} (h : keys.get kid = some key) :
    (kid, key) ∈ keys := by
  obtain ⟨entry, hfind, rfl⟩ := Option.map_eq_some_iff.mp h
  have hid : entry.1 = kid := by simpa using List.find?_some hfind
  rw [← hid]
  exact List.mem_of_find?_eq_some hfind

theorem mem_addKey {out : KeySet} {k : Jwk} {entry : String × PublicKey} (h : entry ∈ addKey out k) :
    entry ∈ out ∨ k.publicKey = some entry.2 := by
  unfold addKey at h
  split at h
  · exact .inl h
  · rename_i key hkey
    split_ifs at h
    · exact .inl h
    · rcases List.mem_cons.mp h with rfl | h
      · exact .inr hkey
      · exact .inl h

/-- A usable key is one of the document's. -/
theorem mem_foldl_addKey {doc : List Jwk} {out : KeySet} {entry : String × PublicKey}
    (h : entry ∈ doc.foldl addKey out) :
    entry ∈ out ∨ ∃ k ∈ doc, k.publicKey = some entry.2 := by
  induction doc generalizing out with
  | nil => exact .inl h
  | cons k doc ih =>
    rcases ih h with h | ⟨k', hk', he⟩
    · exact (mem_addKey h).imp_right fun he => ⟨k, List.mem_cons_self, he⟩
    · exact .inr ⟨k', List.mem_cons_of_mem k hk', he⟩

/-- The keys of a parsed document are among its entries. -/
theorem get_parseJWKS {doc : List Jwk} {keys : KeySet} (h : parseJWKS doc = some keys) {kid : String} {key : PublicKey}
    (hkey : keys.get kid = some key) : ∃ k ∈ doc, k.publicKey = some key := by
  unfold parseJWKS at h
  split_ifs at h
  cases h
  rcases mem_foldl_addKey (KeySet.get_mem hkey) with h | h
  · cases h
  · exact h

/-! ### Tokens -/

/-- The JOSE header. -/
structure JwtHeader where
  alg : String
  kid : String
  deriving DecidableEq

/-- The claims that are read. -/
structure JwtClaims where
  subject : String
  email : String
  issuer : String
  /-- In seconds; 0 if missing. -/
  expiry : ℤ
  audience : List String
  deriving DecidableEq

/-- The third part of a token. -/
inductive Signature where
  /-- It does not decode. -/
  | malformed
  /-- A signature of the first two parts, made with the key. -/
  | made (key : PublicKey)
  /-- No key has made it. -/
  | foreign
  deriving DecidableEq

/-- A token; the header is missing if it does not decode or the parts are not three. -/
structure Token where
  header : Option JwtHeader
  payload : Option JwtClaims
  signature : Signature
  deriving DecidableEq

/-- `verifySignature`: the key is of the kind of the algorithm, and has made the signature. -/
def verifySignature (alg : String) (key : PublicKey) (signature : Signature) : Bool :=
  match key with
  | .rsa _ _ => alg = "RS256" && signature = .made key
  | .ecdsa _ _ => alg = "ES256" && signature = .made key

/-- What verification fails with. -/
inductive TokenError where
  | invalidToken | tokenExpired
  deriving DecidableEq

/-- What a verified token says. -/
structure Claims where
  subject : String
  email : String
  expiresAt : ℤ
  deriving DecidableEq

/-! ### The verifier -/

/-- The settings of a verifier; an empty issuer or audience is not checked. -/
structure VerifierConfig where
  issuer : String
  audience : String
  minRefresh : ℤ
  leeway : ℤ
  deriving DecidableEq

/-- `New`: the defaults of the intervals. -/
def VerifierConfig.new (issuer audience : String) (minRefresh leeway : ℤ) : VerifierConfig where
  issuer := issuer
  audience := audience
  minRefresh := if minRefresh ≤ 0 then minute else minRefresh
  leeway := if leeway ≤ 0 then 60 * second else leeway

/-- The keys fetched last, and when. -/
structure KeyCache where
  keys : KeySet
  lastRefresh : Option ℤ
  deriving DecidableEq

/-- The checks on the claims. -/
def checkClaims (cfg : VerifierConfig) (now : ℤ) : Option JwtClaims → Except TokenError Claims
  | none => .error .invalidToken
  | some claims =>
    if claims.subject = "" then .error .invalidToken
    else if cfg.issuer ≠ "" ∧ claims.issuer ≠ cfg.issuer then .error .invalidToken
    else if cfg.audience ≠ "" ∧ cfg.audience ∉ claims.audience then .error .invalidToken
    else if claims.expiry = 0 then .error .invalidToken
    else if timeAdd (timeUnix claims.expiry) cfg.leeway < now then .error .tokenExpired
    else .ok ⟨claims.subject, claims.email, timeUnix claims.expiry⟩

/-- What passes the checks. -/
theorem checkClaims_ok_iff {cfg : VerifierConfig} {now : ℤ} {payload : Option JwtClaims} {claims : Claims} :
    checkClaims cfg now payload = .ok claims ↔ ∃ p, payload = some p ∧ p.subject ≠ "" ∧
      (cfg.issuer ≠ "" → p.issuer = cfg.issuer) ∧ (cfg.audience ≠ "" → cfg.audience ∈ p.audience) ∧ p.expiry ≠ 0 ∧
        now ≤ timeAdd (timeUnix p.expiry) cfg.leeway ∧ claims = ⟨p.subject, p.email, timeUnix p.expiry⟩ := by
  cases payload with
  | none => simp [checkClaims]
  | some p =>
    simp only [checkClaims]
    constructor
    · intro h
      split_ifs at h with hsubject hissuer haudience hexpiry hnow
      cases h
      refine ⟨p, rfl, hsubject, fun hi => ?_, fun ha => ?_, hexpiry, Int.not_lt.mp hnow, rfl⟩
      · by_contra hne
        exact hissuer ⟨hi, hne⟩
      · by_contra hne
        exact haudience ⟨ha, hne⟩
    · rintro ⟨_, ⟨⟩, hsubject, hissuer, haudience, hexpiry, hnow, rfl⟩
      rw [if_neg hsubject, if_neg fun h => h.2 (hissuer h.1), if_neg fun h => h.2 (haudience h.1), if_neg hexpiry,
        if_neg (Int.not_lt.mpr hnow)]

/-- The key id the token looks up: its header is in order, and its signature decodes. -/
def Token.kid (τ : Token) : Option String :=
  match τ.header with
  | none => none
  | some header =>
    if header.alg ≠ "RS256" ∧ header.alg ≠ "ES256" then none
    else if τ.signature = .malformed then none
    else some header.kid

section Verifier

/- `fetch now` is what the endpoint answers at `now`: a document, or nothing if the request
fails, its status is not 200 or its body is not JSON. -/
variable (cfg : VerifierConfig) (fetch : ℤ → Option (List Jwk))

namespace KeyCache

/-- A refetch would come too soon. -/
def limited (c : KeyCache) (now : ℤ) : Bool := c.lastRefresh.any fun last => now - last < cfg.minRefresh

/-- `refresh`; the flag tells that there was no error. -/
def refresh (c : KeyCache) (now : ℤ) : KeyCache × Bool :=
  if c.limited cfg now then (c, true)
  else
    match (fetch now).bind parseJWKS with
    | none => (c, false)
    | some keys => (⟨keys, some now⟩, true)

/-- `keyForKID`. -/
def keyForKID (c : KeyCache) (now : ℤ) (kid : String) : KeyCache × Option PublicKey :=
  match c.keys.get kid with
  | some key => (c, some key)
  | none =>
    let refreshed := c.refresh cfg fetch now
    if refreshed.2 then (refreshed.1, refreshed.1.keys.get kid) else (refreshed.1, none)

/-- `Verify`. -/
def verify (c : KeyCache) (now : ℤ) (τ : Token) : KeyCache × Except TokenError Claims :=
  match τ.header with
  | none => (c, .error .invalidToken)
  | some header =>
    if header.alg ≠ "RS256" ∧ header.alg ≠ "ES256" then (c, .error .invalidToken)
    else if τ.signature = .malformed then (c, .error .invalidToken)
    else
      let found := c.keyForKID cfg fetch now header.kid
      match found.2 with
      | none => (found.1, .error .invalidToken)
      | some key =>
        if !verifySignature header.alg key τ.signature then (found.1, .error .invalidToken)
        else (found.1, checkClaims cfg now τ.payload)

/-- The call fetches the keys anew: its key id is unknown, the last fetch is long enough ago,
and the endpoint answers with usable keys. -/
def refreshes (c : KeyCache) (now : ℤ) (τ : Token) : Bool :=
  τ.kid.any fun kid => (c.keys.get kid).isNone && !c.limited cfg now && ((fetch now).bind parseJWKS).isSome

/-- What a lookup returns is in the cache it leaves. -/
theorem keyForKID_snd (c : KeyCache) (now : ℤ) (kid : String) :
    (c.keyForKID cfg fetch now kid).2 = (c.keyForKID cfg fetch now kid).1.keys.get kid := by
  unfold keyForKID refresh
  cases hget : c.keys.get kid with
  | some key => simp [hget]
  | none => cases c.limited cfg now <;> cases (fetch now).bind parseJWKS <;> simp [hget]

/-- A call that reaches the lookup leaves the cache of the lookup. -/
theorem verify_fst (c : KeyCache) (now : ℤ) (τ : Token) :
    (c.verify cfg fetch now τ).1 =
      match τ.kid with
      | none => c
      | some kid => (c.keyForKID cfg fetch now kid).1 := by
  unfold verify Token.kid
  cases τ.header with
  | none => rfl
  | some header =>
    simp only
    split_ifs
    · rfl
    · rfl
    · simp only
      split
      · rfl
      · split_ifs <;> rfl

/-- What a call does to the cache: it keeps it, or has fetched. -/
theorem verify_cases (c : KeyCache) (now : ℤ) (τ : Token) :
    (c.refreshes cfg fetch now τ = false ∧ (c.verify cfg fetch now τ).1 = c) ∨
      (c.refreshes cfg fetch now τ = true ∧
        ∃ keys, (fetch now).bind parseJWKS = some keys ∧ (c.verify cfg fetch now τ).1 = ⟨keys, some now⟩) := by
  rw [verify_fst, refreshes]
  cases τ.kid with
  | none => simp
  | some kid =>
    unfold keyForKID refresh
    cases hget : c.keys.get kid with
    | some key => simp [hget]
    | none => cases c.limited cfg now <;> cases (fetch now).bind parseJWKS <;> simp [hget]

variable {cfg fetch}

/-- An accepted token is signed with a key of the cache, and its claims pass. -/
theorem verify_ok {c : KeyCache} {now : ℤ} {τ : Token} {claims : Claims}
    (h : (c.verify cfg fetch now τ).2 = .ok claims) :
    ∃ kid key, τ.kid = some kid ∧ τ.signature = .made key ∧ (c.verify cfg fetch now τ).1.keys.get kid = some key ∧
      checkClaims cfg now τ.payload = .ok claims := by
  have hfst := verify_fst cfg fetch c now τ
  unfold verify at h
  split at h
  · cases h
  · rename_i header hheader
    split_ifs at h with halg hsig
    have hkid : τ.kid = some header.kid := by simp [Token.kid, hheader, halg, hsig]
    rw [hkid] at hfst
    simp only at h
    split at h
    · cases h
    · rename_i key hkey
      split_ifs at h with hverified
      have hmade : τ.signature = .made key := by
        cases key <;> simp [verifySignature] at hverified <;> exact hverified.2
      rw [keyForKID_snd] at hkey
      exact ⟨header.kid, key, hkid, hmade, by rw [hfst]; exact hkey, h⟩

/-- No id has the key. -/
def Lacks (c : KeyCache) (key : PublicKey) : Prop := ∀ kid, c.keys.get kid ≠ some key

end KeyCache

/-! ### A withdrawn key -/

/-- From `t` on the endpoint is reachable and does not publish the key. -/
def Withdrawn (key : PublicKey) (t : ℤ) : Prop :=
  ∀ now, t ≤ now → ∃ doc, fetch now = some doc ∧ ∀ k ∈ doc, k.publicKey ≠ some key

/-- One call of `Verify`. -/
structure VerifyCall where
  now : ℤ
  token : Token
  deriving DecidableEq

/-- The cache, and the time of the last call. -/
structure VerifierState where
  cache : KeyCache
  now : ℤ
  deriving DecidableEq

namespace VerifierState

/-- One call, not before the last one. -/
def step (s : VerifierState) (call : VerifyCall) : Option VerifierState :=
  if s.now ≤ call.now then some ⟨(s.cache.verify cfg fetch call.now call.token).1, call.now⟩ else none

/-- The call is answered with claims. -/
def accepts (s : VerifierState) (call : VerifyCall) : Bool :=
  (s.cache.verify cfg fetch call.now call.token).2.isOk

/-- The call fetches the keys anew. -/
def refreshes (s : VerifierState) (call : VerifyCall) : Bool := s.cache.refreshes cfg fetch call.now call.token

variable {cfg fetch}

theorem step_some_iff {s t : VerifierState} {call : VerifyCall} :
    s.step cfg fetch call = some t ↔
      s.now ≤ call.now ∧ t = ⟨(s.cache.verify cfg fetch call.now call.token).1, call.now⟩ := by
  unfold step
  split_ifs with h <;> simp [h, eq_comm]

/-- A fetch drops a withdrawn key. -/
theorem lacks_of_refreshes {key : PublicKey} {t : ℤ} (hw : Withdrawn fetch key t) {c : KeyCache} {now : ℤ} {τ : Token}
    (hnow : t ≤ now) (h : c.refreshes cfg fetch now τ = true) : (c.verify cfg fetch now τ).1.Lacks key := by
  rcases KeyCache.verify_cases cfg fetch c now τ with ⟨hnot, -⟩ | ⟨-, keys, hkeys, he⟩
  · rw [h] at hnot
    cases hnot
  · obtain ⟨doc, hdoc, habsent⟩ := hw now hnow
    rw [hdoc, Option.bind_some] at hkeys
    intro kid hget
    rw [he] at hget
    obtain ⟨k, hk, hkey⟩ := get_parseJWKS hkeys hget
    exact habsent k hk hkey

/-- A withdrawn key does not come back. -/
theorem Lacks.verify {key : PublicKey} {t : ℤ} (hw : Withdrawn fetch key t) {c : KeyCache} (h : c.Lacks key) {now : ℤ}
    (hnow : t ≤ now) (τ : Token) : (c.verify cfg fetch now τ).1.Lacks key := by
  rcases KeyCache.verify_cases cfg fetch c now τ with ⟨-, he⟩ | ⟨hr, -⟩
  · rw [he]
    exact h
  · exact lacks_of_refreshes hw hnow hr

/-- The cache is as it was while no call fetches. -/
theorem cache_eq_of_not_refreshes {s u : VerifierState} {calls : List VerifyCall}
    (h : ∀ d ∈ calls, s.refreshes cfg fetch d = false) (hrun : runFrom (step cfg fetch) s calls = some u) :
    u.cache = s.cache := by
  induction calls generalizing s with
  | nil =>
    cases hrun
    rfl
  | cons d calls ih =>
    obtain ⟨v, hv, hrest⟩ := runFrom_cons_iff.mp hrun
    obtain ⟨-, rfl⟩ := step_some_iff.mp hv
    have hkept : (s.cache.verify cfg fetch d.now d.token).1 = s.cache := by
      rcases KeyCache.verify_cases cfg fetch s.cache d.now d.token with ⟨-, he⟩ | ⟨hr, -⟩
      · exact he
      · have hnot := h d List.mem_cons_self
        rw [refreshes, hr] at hnot
        cases hnot
    refine (ih (fun d' hd' => ?_) hrest).trans hkept
    simp only [refreshes, hkept]
    exact h d' (List.mem_cons_of_mem d hd')

/-- Without the key, the cache stays without it. -/
theorem lacks_of_run {key : PublicKey} {t : ℤ} (hw : Withdrawn fetch key t) {s u : VerifierState}
    {calls : List VerifyCall} (hs : s.cache.Lacks key) (ht : t ≤ s.now)
    (hrun : runFrom (step cfg fetch) s calls = some u) : u.cache.Lacks key := by
  have hinv : t ≤ u.now ∧ u.cache.Lacks key := by
    refine runFrom_invariant (P := fun s => t ≤ s.now ∧ s.cache.Lacks key) ?_ ⟨ht, hs⟩ hrun
    rintro s d v ⟨ht, hs⟩ hv
    obtain ⟨hle, rfl⟩ := step_some_iff.mp hv
    exact ⟨ht.trans hle, Lacks.verify hw hs (ht.trans hle) d.token⟩
  exact hinv.2

/-- After a call that would fetch with the cache as it was, the cache is without the key. -/
theorem lacks_of_mem_refreshes {key : PublicKey} {t : ℤ} (hw : Withdrawn fetch key t) {s u : VerifierState}
    {calls : List VerifyCall} (ht : t ≤ s.now) (h : ∃ d ∈ calls, s.refreshes cfg fetch d = true)
    (hrun : runFrom (step cfg fetch) s calls = some u) : u.cache.Lacks key := by
  induction calls generalizing s with
  | nil => simp at h
  | cons d calls ih =>
    obtain ⟨v, hv, hrest⟩ := runFrom_cons_iff.mp hrun
    obtain ⟨hle, rfl⟩ := step_some_iff.mp hv
    rcases KeyCache.verify_cases cfg fetch s.cache d.now d.token with ⟨hnot, he⟩ | ⟨hr, -⟩
    · -- the call keeps the cache, so the one that fetches is behind it
      obtain ⟨d', hd', hr⟩ := h
      rcases List.mem_cons.mp hd' with rfl | hd'
      · rw [refreshes, hnot] at hr
        cases hr
      · refine ih (ht.trans hle) ⟨d', hd', ?_⟩ hrest
        rw [refreshes, he]
        exact hr
    · exact lacks_of_run hw (lacks_of_refreshes hw (ht.trans hle) hr) (ht.trans hle) hrest

/-- A token signed with a key that the cache lacks afterwards is rejected. -/
theorem not_accepts_of_lacks {key : PublicKey} {t : ℤ} (hw : Withdrawn fetch key t) {s : VerifierState}
    (hs : s.cache.Lacks key) {call : VerifyCall} (ht : t ≤ call.now) (hsigned : call.token.signature = .made key) :
    s.accepts cfg fetch call = false := by
  by_contra hacc
  rw [Bool.not_eq_false, accepts] at hacc
  cases hres : (s.cache.verify cfg fetch call.now call.token).2 with
  | error e =>
    rw [hres] at hacc
    cases hacc
  | ok claims =>
    obtain ⟨kid, key', -, hmade, hget, -⟩ := KeyCache.verify_ok hres
    rw [hsigned, Signature.made.injEq] at hmade
    rw [← hmade] at hget
    exact Lacks.verify hw hs ht call.token kid hget

/-- The documented lifetime of the cache. -/
def cacheLifetime : ℤ := 15 * minute

/-- **A withdrawn key is rejected past the documented lifetime exactly when the keys were
fetched anew before**: `s` is the state at the withdrawal, and every later call with a token
of the key that the cache would still accept comes after a call that fetches. -/
theorem withdrawn_rejected_iff {key : PublicKey} {s : VerifierState} (hw : Withdrawn fetch key s.now)
    {calls : List VerifyCall} {t : VerifierState} (hrun : runFrom (step cfg fetch) s calls = some t) :
    (∀ pre call post u, calls = pre ++ call :: post → runFrom (step cfg fetch) s pre = some u →
        s.now + cacheLifetime < call.now → call.token.signature = .made key → u.accepts cfg fetch call = false) ↔
      ∀ pre call post, calls = pre ++ call :: post → s.now + cacheLifetime < call.now →
        call.token.signature = .made key → s.accepts cfg fetch call = true →
          ∃ d ∈ pre, s.refreshes cfg fetch d = true := by
  have hlate : ∀ call : VerifyCall, s.now + cacheLifetime < call.now → s.now ≤ call.now := by
    intro call h
    have hpos : (0 : ℤ) ≤ cacheLifetime := by decide
    omega
  constructor
  · intro h pre call post he hcall hsigned hacc
    by_contra hnone
    simp only [not_exists, not_and, Bool.not_eq_true] at hnone
    rw [he] at hrun
    obtain ⟨u, hu, -⟩ := exists_runFrom_of_append hrun
    have hcache := cache_eq_of_not_refreshes hnone hu
    have hrejected := h pre call post u he hu hcall hsigned
    rw [accepts, hcache, ← accepts, hacc] at hrejected
    cases hrejected
  · intro h pre call post u he hu hcall hsigned
    by_cases hfetched : ∃ d ∈ pre, s.refreshes cfg fetch d = true
    · exact not_accepts_of_lacks hw (lacks_of_mem_refreshes hw (Int.le_refl _) hfetched hu) (hlate call hcall) hsigned
    · have hnone : ∀ d ∈ pre, s.refreshes cfg fetch d = false := by
        simpa only [not_exists, not_and, Bool.not_eq_true] using hfetched
      by_contra hacc
      rw [Bool.not_eq_false, accepts, cache_eq_of_not_refreshes hnone hu] at hacc
      exact hfetched (h pre call post he hcall hsigned hacc)

end VerifierState

end Verifier

namespace VerifierState

/-- An RSA key published under an id. -/
def rsaJwk (kid : String) (n : ℕ) : Jwk := ⟨"RSA", kid, some n, some 65537, "", none, none⟩

/-- A token signed with that key, for two hours. -/
def rsaToken (kid : String) (n : ℕ) : Token :=
  ⟨some ⟨"RS256", kid⟩, some ⟨"subject-1", "one@example.org", "", 7200, []⟩, .made (.rsa n 65537)⟩

/-- Key `a` is replaced by key `b` at 0. -/
def rotation (now : ℤ) : Option (List Jwk) := some (if now < 0 then [rsaJwk "a" 3233] else [rsaJwk "b" 2773])

/-- The verifier at the rotation: it has fetched key `a` five minutes before. -/
def beforeRotation : VerifierState := ⟨⟨[("a", .rsa 3233 65537)], some (-5 * minute)⟩, 0⟩

theorem withdrawn_rotation : Withdrawn rotation (.rsa 3233 65537) beforeRotation.now := by
  intro now hnow
  have hlate : ¬ now < 0 := Int.not_lt.mpr hnow
  have hdoc : rotation now = some [rsaJwk "b" 2773] := by rw [rotation, if_neg hlate]
  exact ⟨_, hdoc, by decide⟩

/-- A token of key `b` comes first, so the old key is gone. -/
theorem withdrawn_rejected_rotation :
    Withdrawn rotation (.rsa 3233 65537) beforeRotation.now ∧
      ∀ pre call post u, [⟨5 * minute, rsaToken "b" 2773⟩, ⟨20 * minute, rsaToken "a" 3233⟩] = pre ++ call :: post →
        runFrom (step (.new "" "" 0 0) rotation) beforeRotation pre = some u →
          beforeRotation.now + cacheLifetime < call.now → call.token.signature = .made (.rsa 3233 65537) →
            u.accepts (.new "" "" 0 0) rotation call = false := by
  have hrun : (runFrom (step (.new "" "" 0 0) rotation) beforeRotation
      [⟨5 * minute, rsaToken "b" 2773⟩, ⟨20 * minute, rsaToken "a" 3233⟩]).isSome := by decide +kernel
  obtain ⟨t, ht⟩ := Option.isSome_iff_exists.mp hrun
  refine ⟨withdrawn_rotation, (withdrawn_rejected_iff withdrawn_rotation ht).mpr ?_⟩
  intro pre call post he hlate _ _
  cases pre with
  | nil =>
    obtain ⟨rfl, -⟩ := List.cons.inj he
    exact absurd hlate (by decide)
  | cons d pre =>
    obtain ⟨rfl, -⟩ := List.cons.inj he
    exact ⟨_, List.mem_cons_self, by decide +kernel⟩

/-- Only tokens of key `a` come: none fetches, and twenty minutes later it is still accepted. -/
theorem withdrawn_accepted :
    Withdrawn rotation (.rsa 3233 65537) beforeRotation.now ∧
      ∃ u, runFrom (step (.new "" "" 0 0) rotation) beforeRotation [⟨5 * minute, rsaToken "a" 3233⟩] = some u ∧
        beforeRotation.now + cacheLifetime < 20 * minute ∧
        u.accepts (.new "" "" 0 0) rotation ⟨20 * minute, rsaToken "a" 3233⟩ = true := by
  refine ⟨withdrawn_rotation, ⟨beforeRotation.cache, 5 * minute⟩, ?_, by decide, ?_⟩ <;> decide +kernel

end VerifierState

end ForecastIQ.Identity
