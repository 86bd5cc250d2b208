import ForecastIQ.Identity.Jwks
import ForecastIQ.Foundations.Processes

/-!
# Fetching the keys, side by side

The calls of `Verify` take turns, and time passes between the turns. `keyForKID` looks the key id up under
the read lock; `refresh` checks the time of the last fetch under the lock, sends its request and waits for
the answer without it, and takes the lock again to store the keys and the time. The endpoint may answer
anything, late, or not at all. The client follows its redirects, ten requests in all, and its transport may
send a request again on another connection. By itself a call is `KeyCache.verify` (`alone_verify`).

The check compares with the time at which keys were last stored. A request that is still out or has failed
leaves no trace there, nor does a call that has passed its check and not sent yet. So requests are
`MinRefreshInterval` apart when each check that lets a call through finds no such call, and no such request
of less than `MinRefreshInterval` ago, and when no request is sent to the endpoint twice (`requests_apart`).
-/

namespace ForecastIQ.Identity

open ForecastIQ.Foundations

/-- Where a call is. -/
inductive FetchStage where
  | arrived
  /-- The keys do not have its key id. -/
  | missing
  /-- The last fetch is long enough ago. -/
  | allowed
  /-- Its request is sent, after so many redirects, and `here` if to the endpoint. -/
  | waiting (hops : ℕ) (here : Bool)
  /-- The answer has usable keys. -/
  | answered (keys : KeySet)
  /-- `refresh` has returned without an error. -/
  | refreshed
  /-- `keyForKID` has returned, with an error if there is no key. -/
  | looked (key : Option PublicKey)
  | done (result : Except TokenError Claims)

/-- The request is not sent yet. -/
def FetchStage.unsent : FetchStage → Bool
  | arrived | missing | allowed => true
  | _ => false

/-- The call may send its request. -/
def FetchStage.isAllowed : FetchStage → Bool
  | allowed => true
  | _ => false

/-- The request that is out went to the endpoint. -/
def FetchStage.atEndpoint : FetchStage → Bool
  | waiting _ here => here
  | _ => false

/-- A call of `Verify`, when it last sent a request to the endpoint, and whether it has stored the keys. -/
structure FetchCall where
  token : Token
  stage : FetchStage
  sentAt : Option ℤ
  stored : Bool

/-- The keys, and when the endpoint was sent a request. -/
structure Fetched where
  cache : KeyCache
  requests : List ℤ

/-- What the calls share, the time, and the calls. -/
structure Refetching where
  fetched : Fetched
  now : ℤ
  calls : List FetchCall

/-- A turn of a call, or time that passes. -/
inductive FetchAct where
  | wait (now : ℤ)
  | arrive (token : Token)
  | lookup (i : ℕ)
  | check (i : ℕ)
  /-- The request cannot be made. -/
  | abort (i : ℕ)
  | send (i : ℕ)
  /-- The answer is a redirect, `here` if to the endpoint. -/
  | redirect (i : ℕ) (here : Bool)
  /-- The transport sends the request again. -/
  | resend (i : ℕ)
  /-- The answer; `none` if the exchange fails, the status is not 200 or the body is not JSON. -/
  | answer (i : ℕ) (doc : Option (List Jwk))
  | store (i : ℕ)
  | relookup (i : ℕ)
  | finish (i : ℕ)

/-- What `Verify` answers when it has looked for the key. -/
def verifyWith (cfg : VerifierConfig) (now : ℤ) (τ : Token) (key : Option PublicKey) : Except TokenError Claims :=
  match τ.header, key with
  | some header, some key =>
    if !verifySignature header.alg key τ.signature then .error .invalidToken else checkClaims cfg now τ.payload
  | _, _ => .error .invalidToken

namespace Refetching

/-- Nothing is fetched yet, and nobody has called. -/
def init (now : ℤ) : Refetching := ⟨⟨⟨[], none⟩, []⟩, now, []⟩

/-- A call that has just come. -/
def newCall (token : Token) : FetchCall := ⟨token, .arrived, none, false⟩

section Turns

variable (cfg : VerifierConfig) (k : Fetched) (now : ℤ)

/-- The checks before `keyForKID`, and its first lookup. -/
def lookupTurn (c : FetchCall) : Option (Fetched × FetchCall) :=
  match c.stage with
  | .arrived =>
    match c.token.kid with
    | none => some (k, { c with stage := .done (.error .invalidToken) })
    | some kid =>
      match k.cache.keys.get kid with
      | some key => some (k, { c with stage := .looked (some key) })
      | none => some (k, { c with stage := .missing })
  | _ => none

/-- The check of `refresh`. -/
def checkTurn (c : FetchCall) : Option (Fetched × FetchCall) :=
  match c.stage with
  | .missing => some (k, { c with stage := if k.cache.limited cfg now then .refreshed else .allowed })
  | _ => none

/-- `NewRequestWithContext` fails. -/
def abortTurn (c : FetchCall) : Option (Fetched × FetchCall) :=
  match c.stage with
  | .allowed => some (k, { c with stage := .looked none })
  | _ => none

/-- A request to the endpoint, after so many redirects. -/
def request (hops : ℕ) (c : FetchCall) : Fetched × FetchCall :=
  ({ k with requests := k.requests ++ [now] }, { c with stage := .waiting hops true, sentAt := some now })

/-- `Do` sends the request. -/
def sendTurn (c : FetchCall) : Option (Fetched × FetchCall) :=
  match c.stage with
  | .allowed => some (request k now 0 c)
  | _ => none

/-- The client follows a redirect, but not after ten requests. -/
def redirectTurn (here : Bool) (c : FetchCall) : Option (Fetched × FetchCall) :=
  match c.stage with
  | .waiting hops _ =>
    if 10 ≤ hops + 1 then some (k, { c with stage := .looked none })
    else if here then some (request k now (hops + 1) c)
    else some (k, { c with stage := .waiting (hops + 1) false })
  | _ => none

/-- The transport sends the request once more, to where it went. -/
def resendTurn (c : FetchCall) : Option (Fetched × FetchCall) :=
  match c.stage with
  | .waiting hops true => some (request k now hops c)
  | .waiting _ false => some (k, c)
  | _ => none

/-- The answer, and `parseJWKS`. -/
def answerTurn (doc : Option (List Jwk)) (c : FetchCall) : Option (Fetched × FetchCall) :=
  match c.stage with
  | .waiting _ _ =>
    match doc.bind parseJWKS with
    | none => some (k, { c with stage := .looked none })
    | some keys => some (k, { c with stage := .answered keys })
  | _ => none

/-- The end of `refresh`. -/
def storeTurn (c : FetchCall) : Option (Fetched × FetchCall) :=
  match c.stage with
  | .answered keys => some ({ k with cache := ⟨keys, some now⟩ }, { c with stage := .refreshed, stored := true })
  | _ => none

/-- The second lookup of `keyForKID`. -/
def relookupTurn (c : FetchCall) : Option (Fetched × FetchCall) :=
  match c.stage with
  | .refreshed => some (k, { c with stage := .looked (c.token.kid.bind k.cache.keys.get) })
  | _ => none

/-- The rest of `Verify`. -/
def finishTurn (c : FetchCall) : Option (Fetched × FetchCall) :=
  match c.stage with
  | .looked key => some (k, { c with stage := .done (verifyWith cfg now c.token key) })
  | _ => none

end Turns

/-- Call `i` takes a turn. -/
def turn (s : Refetching) : ℕ → (FetchCall → Option (Fetched × FetchCall)) → Option Refetching :=
  takeTurn (fun k calls => ⟨k, s.now, calls⟩) s.calls

variable (cfg : VerifierConfig)

/-- One step. -/
def step (s : Refetching) : FetchAct → Option Refetching
  | .wait now => if s.now ≤ now then some { s with now := now } else none
  | .arrive token => some { s with calls := s.calls ++ [newCall token] }
  | .lookup i => s.turn i (lookupTurn s.fetched)
  | .check i => s.turn i (checkTurn cfg s.fetched s.now)
  | .abort i => s.turn i (abortTurn s.fetched)
  | .send i => s.turn i (sendTurn s.fetched s.now)
  | .redirect i here => s.turn i (redirectTurn s.fetched s.now here)
  | .resend i => s.turn i (resendTurn s.fetched s.now)
  | .answer i doc => s.turn i (answerTurn s.fetched doc)
  | .store i => s.turn i (storeTurn s.fetched s.now)
  | .relookup i => s.turn i (relookupTurn s.fetched)
  | .finish i => s.turn i (finishTurn cfg s.fetched s.now)

/-! ### What a check can find -/

/-- No call has passed its check without sending, and a request that is out or has failed was sent at least
`MinRefreshInterval` ago. -/
def Quiet (s : Refetching) : Prop :=
  ∀ c ∈ s.calls, c.stage.isAllowed = false ∧ (c.stored = false → ∀ t ∈ c.sentAt, t + cfg.minRefresh ≤ s.now)

/-- A check that lets a call through finds the state quiet, and no request is sent to the endpoint twice. -/
def Clear (s : Refetching) : FetchAct → Prop
  | .check _ => s.fetched.cache.limited cfg s.now = false → s.Quiet cfg
  | .redirect _ here => here = false
  | .resend i => ∀ c ∈ s.calls[i]?, c.stage.atEndpoint = false
  | _ => True

instance (s : Refetching) : Decidable (s.Quiet cfg) := inferInstanceAs (Decidable (∀ c ∈ s.calls, _))

instance : ∀ (s : Refetching) (a : FetchAct), Decidable (Clear cfg s a)
  | s, .check _ => inferInstanceAs (Decidable (s.fetched.cache.limited cfg s.now = false → s.Quiet cfg))
  | _, .redirect _ here => inferInstanceAs (Decidable (here = false))
  | s, .resend i => inferInstanceAs (Decidable (∀ c ∈ s.calls[i]?, c.stage.atEndpoint = false))
  | _, .wait _ | _, .arrive _ | _, .lookup _ | _, .abort _ | _, .send _ | _, .answer _ _ | _, .store _
  | _, .relookup _ | _, .finish _ => isTrue trivial

/-- What a clear step does. -/
inductive Moves (s : Refetching) : Refetching → Prop where
  | waited {now : ℤ} (h : s.now ≤ now) : Moves s { s with now := now }
  | arrived (token : Token) : Moves s { s with calls := s.calls ++ [newCall token] }
  | moved {i : ℕ} {c : FetchCall} {stage : FetchStage} (hi : s.calls[i]? = some c)
      (hunsent : stage.unsent = true → c.stage.unsent = true) (hallowed : stage.isAllowed = false) :
      Moves s { s with calls := s.calls.set i { c with stage := stage } }
  | checked {i : ℕ} {c : FetchCall} (hi : s.calls[i]? = some c) (h : c.stage = .missing)
      (hok : s.fetched.cache.limited cfg s.now = false) (hquiet : s.Quiet cfg) :
      Moves s { s with calls := s.calls.set i { c with stage := .allowed } }
  | sent {i : ℕ} {c : FetchCall} (hi : s.calls[i]? = some c) (h : c.stage = .allowed) :
      Moves s ⟨(request s.fetched s.now 0 c).1, s.now, s.calls.set i (request s.fetched s.now 0 c).2⟩
  | stored {i : ℕ} {c : FetchCall} {keys : KeySet} (hi : s.calls[i]? = some c) (h : c.stage = .answered keys) :
      Moves s ⟨{ s.fetched with cache := ⟨keys, some s.now⟩ }, s.now,
        s.calls.set i { c with stage := .refreshed, stored := true }⟩

variable {cfg}

theorem exists_of_turn {s t : Refetching} {i : ℕ} {f : FetchCall → Option (Fetched × FetchCall)}
    (h : s.turn i f = some t) :
    ∃ c k c', s.calls[i]? = some c ∧ f c = some (k, c') ∧ t = ⟨k, s.now, s.calls.set i c'⟩ := takeTurn_some_iff.mp h

theorem moves_step {s t : Refetching} {a : FetchAct} (h : s.step cfg a = some t) (hclear : Clear cfg s a) :
    Moves cfg s t := by
  cases a with
  | wait now =>
    simp only [step] at h
    split_ifs at h with hle
    cases h
    exact .waited hle
  | arrive token =>
    cases h
    exact .arrived token
  | lookup i =>
    obtain ⟨c, k, c', hi, hf, rfl⟩ := exists_of_turn h
    unfold lookupTurn at hf
    split at hf
    · rename_i hstage
      split at hf
      · cases hf
        exact .moved hi nofun rfl
      · split at hf <;> cases hf
        · exact .moved hi nofun rfl
        · exact .moved hi (fun _ => by rw [hstage]; rfl) rfl
    · cases hf
  | check i =>
    obtain ⟨c, k, c', hi, hf, rfl⟩ := exists_of_turn h
    unfold checkTurn at hf
    split at hf <;> cases hf
    cases hlimited : s.fetched.cache.limited cfg s.now with
    | true => exact .moved hi nofun rfl
    | false => exact .checked hi ‹_› hlimited (hclear hlimited)
  | abort i =>
    obtain ⟨c, k, c', hi, hf, rfl⟩ := exists_of_turn h
    unfold abortTurn at hf
    split at hf <;> cases hf
    exact .moved hi nofun rfl
  | send i =>
    obtain ⟨c, k, c', hi, hf, rfl⟩ := exists_of_turn h
    unfold sendTurn at hf
    split at hf <;> cases hf
    exact .sent hi ‹_›
  | redirect i here =>
    obtain ⟨c, k, c', hi, hf, rfl⟩ := exists_of_turn h
    unfold redirectTurn at hf
    rw [show here = false from hclear] at hf
    split at hf
    · split at hf
      · cases hf
        exact .moved hi nofun rfl
      · cases hf
        exact .moved hi nofun rfl
    · cases hf
  | resend i =>
    obtain ⟨c, k, c', hi, hf, rfl⟩ := exists_of_turn h
    unfold resendTurn at hf
    split at hf
    · rename_i hops hstage
      have hhere := hclear c hi
      rw [hstage] at hhere
      cases hhere
    · rename_i hops hstage
      cases hf
      have hallowed : c.stage.isAllowed = false := by
        rw [hstage]
        rfl
      exact .moved hi id hallowed
    · cases hf
  | answer i doc =>
    obtain ⟨c, k, c', hi, hf, rfl⟩ := exists_of_turn h
    unfold answerTurn at hf
    split at hf
    · split at hf <;> cases hf <;> exact .moved hi nofun rfl
    · cases hf
  | store i =>
    obtain ⟨c, k, c', hi, hf, rfl⟩ := exists_of_turn h
    unfold storeTurn at hf
    split at hf <;> cases hf
    exact .stored hi ‹_›
  | relookup i =>
    obtain ⟨c, k, c', hi, hf, rfl⟩ := exists_of_turn h
    unfold relookupTurn at hf
    split at hf <;> cases hf
    exact .moved hi nofun rfl
  | finish i =>
    obtain ⟨c, k, c', hi, hf, rfl⟩ := exists_of_turn h
    unfold finishTurn at hf
    split at hf <;> cases hf
    exact .moved hi nofun rfl

/-! ### Requests to the endpoint -/

/-- What a call says about the requests: its own was sent in time, counts for the check once its keys are stored, and
is not sent before the check. -/
structure OnTime (k : Fetched) (now : ℤ) (c : FetchCall) : Prop where
  sent : ∀ t ∈ c.sentAt, t ≤ now ∧ t ∈ k.requests
  stored : c.stored = true → ∀ t ∈ c.sentAt, ∃ last ∈ k.cache.lastRefresh, t ≤ last
  unsent : c.stage.unsent = true → c.sentAt = none ∧ c.stored = false

/-- The requests are apart, each is the one of a call, and a call that may send is the only one and far from all. -/
structure Spaced (cfg : VerifierConfig) (s : Refetching) : Prop where
  calls : ∀ c ∈ s.calls, OnTime s.fetched s.now c
  apart : s.fetched.requests.Pairwise fun t u => t + cfg.minRefresh ≤ u
  sentBy : ∀ t ∈ s.fetched.requests, ∃ c ∈ s.calls, c.sentAt = some t
  single : s.calls.countP (·.stage.isAllowed) ≤ 1
  far : (∃ c ∈ s.calls, c.stage.isAllowed = true) → ∀ t ∈ s.fetched.requests, t + cfg.minRefresh ≤ s.now

/-- In a quiet state a check that lets a call through is far from all requests. -/
theorem Spaced.far_of_quiet {s : Refetching} (h : Spaced cfg s) (hok : s.fetched.cache.limited cfg s.now = false)
    (hquiet : s.Quiet cfg) : ∀ t ∈ s.fetched.requests, t + cfg.minRefresh ≤ s.now := by
  intro t ht
  obtain ⟨c, hc, hsent⟩ := h.sentBy t ht
  cases hstored : c.stored with
  | false => exact (hquiet c hc).2 hstored t hsent
  | true =>
    obtain ⟨last, hlast, hle⟩ := (h.calls c hc).stored hstored t hsent
    rw [Option.mem_def] at hlast
    simp only [KeyCache.limited, hlast, Option.any_some, decide_eq_false_iff_not, not_lt] at hok
    omega

/-- A turn that leaves the time of the request leaves who sent what. -/
theorem sentBy_set {calls : List FetchCall} {i : ℕ} {c : FetchCall} (hi : calls[i]? = some c) (c' : FetchCall)
    (hsent : c.sentAt = none ∨ c'.sentAt = c.sentAt) {t : ℤ} (h : ∃ b ∈ calls, b.sentAt = some t) :
    ∃ b ∈ calls.set i c', b.sentAt = some t := by
  obtain ⟨b, hb, ht⟩ := h
  obtain ⟨hlt, rfl⟩ := List.getElem?_eq_some_iff.mp hi
  by_cases hbc : b = calls[i]
  · rcases hsent with hnone | hsame
    · rw [hbc, hnone] at ht
      cases ht
    · exact ⟨c', List.mem_set hlt c', hsame.trans (hbc ▸ ht)⟩
  · exact ⟨b, mem_set_of_ne hb hi hbc, ht⟩

/-- A turn after which the call may not send. -/
theorem single_set {calls : List FetchCall} {i : ℕ} {c c' : FetchCall} (hi : calls[i]? = some c)
    (h : calls.countP (·.stage.isAllowed) ≤ 1) (hc' : c'.stage.isAllowed = false) :
    (calls.set i c').countP (·.stage.isAllowed) ≤ 1 := by
  have hcount := countP_set_add hi (fun c => c.stage.isAllowed) c'
  simp only [hc', Bool.toNat_false] at hcount
  omega

theorem exists_allowed_of_set {calls : List FetchCall} {i : ℕ} {c' : FetchCall} (hc' : c'.stage.isAllowed = false)
    (h : ∃ b ∈ calls.set i c', b.stage.isAllowed = true) : ∃ b ∈ calls, b.stage.isAllowed = true := by
  obtain ⟨b, hb, hallowed⟩ := h
  rcases List.mem_or_eq_of_mem_set hb with hb | rfl
  · exact ⟨b, hb, hallowed⟩
  · rw [hc'] at hallowed
    cases hallowed

/-- The call that may send is the only one, and no request lies less than the interval back. -/
theorem Spaced.sent {s : Refetching} (h : Spaced cfg s) {i : ℕ} {c : FetchCall} (hi : s.calls[i]? = some c)
    (hstage : c.stage = .allowed) : Spaced cfg
      ⟨(request s.fetched s.now 0 c).1, s.now, s.calls.set i (request s.fetched s.now 0 c).2⟩ := by
  have hmem := List.mem_of_getElem? hi
  have hbefore : c.stage.isAllowed = true := by rw [hstage]; rfl
  have hfar := h.far ⟨c, hmem, hbefore⟩
  obtain ⟨hnone, hunstored⟩ := (h.calls _ hmem).unsent (by rw [hstage]; rfl)
  have hcount := countP_set_add hi (fun c => c.stage.isAllowed) (request s.fetched s.now 0 c).2
  have hafter : (request s.fetched s.now 0 c).2.stage.isAllowed = false := rfl
  have hsingle := h.single
  simp only [hbefore, hafter, Bool.toNat_true, Bool.toNat_false] at hcount
  have hzero : (s.calls.set i (request s.fetched s.now 0 c).2).countP (·.stage.isAllowed) = 0 := by omega
  refine ⟨?_, ?_, ?_, hzero.le.trans (Nat.zero_le 1), ?_⟩
  · refine forall_mem_set (fun b hb => ?_) ⟨fun u hu => ?_, fun hstored u hu => ?_, nofun⟩
    · exact ⟨fun u hu => ((h.calls b hb).sent u hu).imp_right (List.mem_append_left _), (h.calls b hb).stored,
        (h.calls b hb).unsent⟩
    · cases hu
      exact ⟨le_rfl, List.mem_append_right _ (List.mem_singleton.mpr rfl)⟩
    · exact absurd (hunstored.symm.trans hstored) Bool.false_ne_true
  · exact List.pairwise_append.mpr ⟨h.apart, List.pairwise_singleton _ _, fun u hu v hv =>
      List.mem_singleton.mp hv ▸ hfar u hu⟩
  · intro u hu
    rcases List.mem_append.mp hu with hu | hu
    · exact sentBy_set hi _ (.inl hnone) (h.sentBy u hu)
    · exact ⟨_, List.mem_set (List.getElem?_eq_some_iff.mp hi).1 _, by rw [List.mem_singleton.mp hu]; rfl⟩
  · rintro ⟨b, hb, hallowed⟩
    exact absurd hallowed (List.countP_eq_zero.mp hzero b hb)

theorem Spaced.step {s t : Refetching} {a : FetchAct} (h : Spaced cfg s) (hclear : Clear cfg s a)
    (ht : s.step cfg a = some t) : Spaced cfg t := by
  cases moves_step ht hclear with
  | waited hle =>
    refine ⟨fun c hc => ⟨fun u hu => ((h.calls c hc).sent u hu).imp_left hle.trans', (h.calls c hc).stored,
      (h.calls c hc).unsent⟩, h.apart, h.sentBy, h.single, fun hex u hu => (h.far hex u hu).trans hle⟩
  | arrived token =>
    refine ⟨List.forall_mem_append.mpr ⟨h.calls, List.forall_mem_singleton.mpr ⟨nofun, nofun, fun _ => ⟨rfl, rfl⟩⟩⟩,
      h.apart, fun u hu => ?_, ?_, ?_⟩
    · obtain ⟨c, hc, hsent⟩ := h.sentBy u hu
      exact ⟨c, List.mem_append_left _ hc, hsent⟩
    · rw [List.countP_append]
      exact h.single
    · rintro ⟨c, hc, hallowed⟩
      rcases List.mem_append.mp hc with hc | hc
      · exact h.far ⟨c, hc, hallowed⟩
      · rw [List.mem_singleton.mp hc] at hallowed
        cases hallowed
  | @moved i c stage hi hunsent hallowed =>
    have hc := h.calls _ (List.mem_of_getElem? hi)
    exact ⟨forall_mem_set h.calls ⟨hc.sent, hc.stored, fun hu => hc.unsent (hunsent hu)⟩, h.apart,
      fun u hu => sentBy_set hi { c with stage := stage } (.inr rfl) (h.sentBy u hu), single_set hi h.single hallowed,
      fun hex => h.far (exists_allowed_of_set hallowed hex)⟩
  | @checked i c hi hstage hok hquiet =>
    have hc := h.calls _ (List.mem_of_getElem? hi)
    refine ⟨forall_mem_set h.calls ⟨hc.sent, hc.stored, fun _ => hc.unsent (by rw [hstage]; rfl)⟩, h.apart,
      fun u hu => sentBy_set hi { c with stage := .allowed } (.inr rfl) (h.sentBy u hu), ?_,
      fun _ => h.far_of_quiet hok hquiet⟩
    -- nobody else may send, so there is one call that may
    have hnone : s.calls.countP (·.stage.isAllowed) = 0 :=
      List.countP_eq_zero.mpr fun b hb => Bool.eq_false_iff.mp (hquiet b hb).1
    have hcount := countP_set_add hi (fun c => c.stage.isAllowed) { c with stage := .allowed }
    have hone := Bool.toNat_le ({ c with stage := .allowed } : FetchCall).stage.isAllowed
    change (s.calls.set i { c with stage := .allowed }).countP (·.stage.isAllowed) ≤ 1
    omega
  | sent hi hstage => exact h.sent hi hstage
  | @stored i c keys hi hstage =>
    have hc := h.calls _ (List.mem_of_getElem? hi)
    refine ⟨forall_mem_set (fun b hb => ?_) ⟨hc.sent, fun _ u hu => ⟨s.now, rfl, (hc.sent u hu).1⟩, nofun⟩, h.apart,
      fun u hu => sentBy_set hi { c with stage := .refreshed, stored := true } (.inr rfl) (h.sentBy u hu),
      single_set hi h.single rfl,
      fun hex => h.far (exists_allowed_of_set rfl hex)⟩
    exact ⟨(h.calls b hb).sent, fun _ u hu => ⟨s.now, rfl, ((h.calls b hb).sent u hu).1⟩, (h.calls b hb).unsent⟩

theorem spaced_init (cfg : VerifierConfig) (now : ℤ) : Spaced cfg (init now) where
  calls _ hc := absurd hc List.not_mem_nil
  apart := .nil
  sentBy _ ht := absurd ht List.not_mem_nil
  single := Nat.zero_le 1
  far _ _ ht := absurd ht List.not_mem_nil

/-- At most one request is sent in any interval shorter than `MinRefreshInterval`. -/
def OneRequest (cfg : VerifierConfig) (s : Refetching) : Prop :=
  ∀ start d, d < cfg.minRefresh → s.fetched.requests.countP (fun t => start ≤ t && t ≤ start + d) ≤ 1

/-- What holds after a clear run. -/
theorem spaced_of_clear {now : ℤ} {acts : List FetchAct} {s : Refetching}
    (h : runFrom (step cfg) (init now) acts = some s) (hclear : Along (step cfg) (Clear cfg) (init now) acts) :
    Spaced cfg s :=
  runFrom_invariant_of_along (fun _ _ _ h hclear ht => h.step hclear ht) (spaced_init cfg now) hclear h

/-- **At most one request is sent in any interval shorter than `MinRefreshInterval`** when each check that lets a call
through finds the state quiet and no request is sent to the endpoint twice. -/
theorem requests_apart {now : ℤ} {acts : List FetchAct} {s : Refetching}
    (h : runFrom (step cfg) (init now) acts = some s) (hclear : Along (step cfg) (Clear cfg) (init now) acts) :
    OneRequest cfg s := by
  intro start d hd
  refine countP_le_one_of_pairwise (spaced_of_clear h hclear).apart fun t u hle ht hu => ?_
  simp only [Bool.and_eq_true, decide_eq_true_eq] at ht hu
  omega

/-! ### A call by itself -/

theorem verify_snd (cfg : VerifierConfig) (fetch : ℤ → Option (List Jwk)) (cache : KeyCache) (now : ℤ) (τ : Token) :
    (cache.verify cfg fetch now τ).2 =
      match τ.kid with
      | none => .error .invalidToken
      | some kid => verifyWith cfg now τ (cache.keyForKID cfg fetch now kid).2 := by
  unfold KeyCache.verify Token.kid verifyWith
  cases τ.header with
  | none => rfl
  | some header =>
    simp only
    split_ifs
    · rfl
    · rfl
    · simp only
      cases (cache.keyForKID cfg fetch now header.kid).2 with
      | none => rfl
      | some key =>
        simp only
        split_ifs <;> rfl

section Alone

variable (cfg : VerifierConfig) (now : ℤ)

/-- The turns of call `i` in their order, with the answer that it gets. -/
def callTurns (i : ℕ) (doc : Option (List Jwk)) :
    List (FetchAct × (Fetched → FetchCall → Option (Fetched × FetchCall))) :=
  [(.lookup i, lookupTurn), (.check i, fun k => checkTurn cfg k now), (.send i, fun k => sendTurn k now),
    (.answer i doc, fun k => answerTurn k doc), (.store i, fun k => storeTurn k now), (.relookup i, relookupTurn),
    (.finish i, fun k => finishTurn cfg k now)]

/-- What a call does by itself. -/
theorem solo_callTurns (fetch : ℤ → Option (List Jwk)) (cache : KeyCache) (requests : List ℤ) (τ : Token) (i : ℕ) :
    ∃ requests' c, solo ((callTurns cfg now i (fetch now)).map Prod.snd) (⟨cache, requests⟩, newCall τ) =
        (⟨(cache.verify cfg fetch now τ).1, requests'⟩, c) ∧
      c.token = τ ∧ c.stage = .done (cache.verify cfg fetch now τ).2 := by
  rw [KeyCache.verify_fst, verify_snd]
  simp only [callTurns, solo, List.map_cons, List.map_nil, List.foldl_cons, List.foldl_nil, newCall, lookupTurn]
  cases hkid : τ.kid with
  | none => simp [checkTurn, sendTurn, answerTurn, storeTurn, relookupTurn, finishTurn]
  | some kid =>
    unfold KeyCache.keyForKID
    cases hget : cache.keys.get kid with
    | some key => simp [checkTurn, sendTurn, answerTurn, storeTurn, relookupTurn, finishTurn, hget]
    | none =>
      unfold KeyCache.refresh
      cases hlimited : cache.limited cfg now with
      | true => simp [checkTurn, sendTurn, answerTurn, storeTurn, relookupTurn, finishTurn, hget, hlimited, hkid]
      | false =>
        cases hdoc : (fetch now).bind parseJWKS <;>
          simp [checkTurn, sendTurn, request, answerTurn, storeTurn, relookupTurn, finishTurn, hget, hlimited, hkid,
            hdoc]

end Alone

/-- **A call that runs alone is `Verify`.** -/
theorem alone_verify (cfg : VerifierConfig) (fetch : ℤ → Option (List Jwk)) (s : Refetching) (τ : Token) :
    ∃ acts requests c, runFrom (step cfg) s acts =
        some ⟨⟨(s.fetched.cache.verify cfg fetch s.now τ).1, requests⟩, s.now, s.calls ++ [c]⟩ ∧
      c.token = τ ∧ c.stage = .done (s.fetched.cache.verify cfg fetch s.now τ).2 := by
  obtain ⟨⟨cache, requests⟩, now, calls⟩ := s
  obtain ⟨acts, hacts⟩ := exists_runFrom_solo (step cfg) (fun k calls => ⟨k, now, calls⟩) calls.length
    (callTurns cfg now calls.length (fetch now)) (by simp [callTurns, step, turn]) (⟨cache, requests⟩, newCall τ)
    List.getElem?_concat_length
  obtain ⟨requests', c, hsolo, hc, hstage⟩ := solo_callTurns cfg now fetch cache requests τ calls.length
  rw [hsolo, List.set_append_right _ _ le_rfl, Nat.sub_self, List.set_cons_zero] at hacts
  exact ⟨.arrive τ :: acts, requests', c, runFrom_cons_iff.mpr ⟨_, rfl, hacts⟩, hc, hstage⟩

/-! ### Two calls -/

/-- The first of two calls has its keys at once; the second comes a minute later with another key id. -/
theorem requests_apart_minute :
    ∃ acts s, runFrom (step (.new "" "" 0 0)) (init 0) acts = some s ∧ s.fetched.requests = [0, minute] ∧
      OneRequest (.new "" "" 0 0) s := by
  obtain ⟨s, hrun, htimes⟩ : ∃ s, runFrom (step (.new "" "" 0 0)) (init 0)
      [.arrive (VerifierState.rsaToken "a" 3233), .lookup 0, .check 0, .send 0,
        .answer 0 (some [VerifierState.rsaJwk "a" 3233]), .store 0, .relookup 0, .finish 0, .wait minute,
        .arrive (VerifierState.rsaToken "b" 2773), .lookup 1, .check 1, .send 1] = some s ∧
      s.fetched.requests = [0, minute] := ⟨_, rfl, by decide +kernel⟩
  exact ⟨_, s, hrun, htimes, requests_apart hrun (by decide +kernel)⟩

/-- The endpoint fails, and the next call asks it again a second later. And a call whose answer is a redirect to the
endpoint asks it twice. -/
theorem requests_close :
    (∃ s, runFrom (step (.new "" "" 0 0)) (init 0)
        [.arrive (VerifierState.rsaToken "a" 3233), .lookup 0, .check 0, .send 0, .answer 0 none, .finish 0,
          .wait second, .arrive (VerifierState.rsaToken "a" 3233), .lookup 1, .check 1, .send 1] = some s ∧
      ¬ OneRequest (.new "" "" 0 0) s) ∧
    ∃ s, runFrom (step (.new "" "" 0 0)) (init 0)
        [.arrive (VerifierState.rsaToken "a" 3233), .lookup 0, .check 0, .send 0, .redirect 0 true] = some s ∧
      ¬ OneRequest (.new "" "" 0 0) s := by
  refine ⟨⟨_, rfl, fun h => ?_⟩, ⟨_, rfl, fun h => ?_⟩⟩
  · exact absurd (h 0 second (by decide)) (by decide)
  · exact absurd (h 0 0 (by decide)) (by decide)

end Refetching

end ForecastIQ.Identity
