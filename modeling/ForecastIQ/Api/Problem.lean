import ForecastIQ.Catalog.Locations

/-!
# Errors and the problems sent for them

`internal/api/respond/errors.go`. An error of the source is a chain: each call on the way up
may wrap what it got with a text of its own (`fmt.Errorf("…: %w", err)`, and the errors that
implement `Unwrap`). `Classify` looks for the first error of a known class along the chain
(`errors.As`, `errors.Is`) and answers with the problem of its class, or with the problem of an
internal error.

The texts of the wraps reach no client, nor does the text of an error that has no class:
`classify_congr`. The JSON of a problem and the formatting of the texts that do are left out:
an error carries what its `Error()` returns where `Classify` sends it.
-/

namespace ForecastIQ.Api

open ForecastIQ.Catalog

/-- The errors that are compared with `errors.Is`. -/
inductive Sentinel where
  | catalogNotFound | collectionNotFound | userNotFound | keyNotFound | exportNotFound
  | catalogInactive | collectionInactive
  | payloadUnavailable | replayUnsupported
  | unauthorized | invalidToken | tokenExpired | invalidCredential | keyInactive | userDisabled
  | forbidden | selfLockout | exportInProgress | exportExpired | upstreamAuth | rateLimited | payloadTooLarge
  deriving DecidableEq

/-- `ExistingResource`. -/
structure ExistingResource where
  id : String
  name : String
  distanceDegrees : ℚ
  deriving DecidableEq

/-- An error. -/
inductive Err where
  /-- `ValidationError`. -/
  | validation (fields : List FieldError)
  /-- Any error with `Field` and `Message`: `badUUID`, `fieldErr`, `badField`, `validationError` and those of the
  identity services. -/
  | fieldMessage (field message : String)
  /-- `DuplicateLocationError`, with its text. -/
  | duplicate (existing : ExistingResource) (text : String)
  /-- `NameConflictError`, with its text. -/
  | nameConflict (text : String)
  /-- `StatusTransitionError`, with its text. -/
  | statusTransition (text : String)
  | circuitOpen
  | sentinel (s : Sentinel)
  /-- `http.MaxBytesError`. -/
  | maxBytes
  /-- Any other error. -/
  | other (text : String)
  /-- An error around another one. -/
  | wrap (text : String) (inner : Err)
  deriving DecidableEq

/-- The error and those it wraps, the outermost first. -/
def Err.chain : Err → List Err
  | wrap text inner => wrap text inner :: inner.chain
  | e => [e]

/-- What all the wraps are around. -/
def Err.root : Err → Err
  | wrap _ inner => inner.root
  | e => e

/-- `errors.As`: the first error of the chain that is of the type. -/
def Err.as {α : Type*} (e : Err) (type : Err → Option α) : Option α := e.chain.findSome? type

/-- `errors.Is` for any of the errors. -/
def Err.isAny (e : Err) (errors : List Sentinel) : Bool :=
  e.chain.any fun
    | .sentinel s => errors.contains s
    | _ => false

/-- `Problem`; `docs` is never set. -/
structure Problem where
  type : String
  title : String
  status : ℕ
  detail : String
  /-- `Instance`. -/
  path : String
  requestID : String
  retryable : Bool
  errors : List FieldError
  existingResource : Option ExistingResource
  deriving DecidableEq

/-- `errorBase`. -/
def errorBase : String := "https://forecastiq.example/errors/"

/-- The problem of a class, without the parts that few of them have. -/
def problem (requestID path slug title : String) (status : ℕ) (detail : String) (retryable : Bool) : Problem where
  type := errorBase ++ slug
  title := title
  status := status
  detail := detail
  path := path
  requestID := requestID
  retryable := retryable
  errors := []
  existingResource := none

/-- `ValidationError.Error`. -/
def validationText (fields : List FieldError) : String :=
  "validation failed: " ++ "; ".intercalate (fields.map fun f => f.field ++ ": " ++ f.message)

section Classify

variable (requestID path : String)

/-- The classes of `Classify` that are found by the type of an error, in their order. -/
def classifyType (e : Err) : Option Problem :=
  let problem := problem requestID path
  (e.as fun
    | .validation fields =>
      some { problem "validation" "Validation Error" 422 (validationText fields) true with errors := fields }
    | _ => none) <|>
  (e.as fun
    | .fieldMessage field message =>
      some { problem "validation" "Validation Error" 422 message true with errors := [⟨field, message⟩] }
    | _ => none) <|>
  (e.as fun
    | .duplicate existing text =>
      some { problem "duplicate" "Duplicate Location" 409 text true with existingResource := some existing }
    | _ => none) <|>
  (e.as fun
    | .nameConflict text => some (problem "conflict" "Name Conflict" 409 text true)
    | _ => none) <|>
  (e.as fun
    | .statusTransition text => some (problem "conflict" "Invalid Status Transition" 409 text false)
    | _ => none) <|>
  (e.as fun
    | .circuitOpen =>
      some (problem "conflict" "Provider Circuit Open" 409
        "The provider circuit breaker is open; collection is temporarily blocked." true)
    | _ => none)

/-- `Classify`. -/
def classify (e : Err) : Problem :=
  let problem := problem requestID path
  match classifyType requestID path e with
  | some p => p
  | none =>
    if e.isAny [.catalogNotFound, .collectionNotFound, .userNotFound, .keyNotFound, .exportNotFound] then
      problem "not_found" "Not Found" 404 "The requested resource was not found." false
    else if e.isAny [.catalogInactive, .collectionInactive] then
      problem "validation" "Resource Inactive" 422 "The provider, location, or configuration is not active." false
    else if e.isAny [.payloadUnavailable] then
      problem "payload_unavailable" "Payload Unavailable" 422 "The raw payload is unavailable (expired or corrupt)."
        false
    else if e.isAny [.replayUnsupported] then
      problem "validation" "Replay Unsupported" 422 "The provider adapter does not support payload replay." false
    else if e.isAny [.unauthorized, .invalidToken, .tokenExpired, .invalidCredential, .keyInactive,
        .userDisabled] then
      problem "unauthorized" "Unauthorized" 401 "Authentication is required to access this resource." true
    else if e.isAny [.forbidden] then
      problem "forbidden" "Forbidden" 403 "You do not have permission to perform this action." false
    else if e.isAny [.selfLockout] then
      problem "conflict" "Self-Lockout Prevented" 409 "You cannot disable or delete your own admin account." false
    else if e.isAny [.exportInProgress] then
      problem "conflict" "Export In Progress" 409 "An export is already in progress for this user." true
    else if e.isAny [.exportExpired] then
      problem "gone" "Export Expired" 410 "The export download window has closed; request a new export." false
    else if e.isAny [.upstreamAuth] then
      problem "upstream_unavailable" "Auth Provider Unavailable" 502
        "The change could not be propagated to the authentication provider; no change was made." true
    else if e.isAny [.rateLimited] then
      problem "rate_limited" "Rate Limited" 429 "Too many requests; please retry later." true
    else if e.isAny [.payloadTooLarge] || (e.as fun | .maxBytes => some () | _ => none).isSome then
      problem "payload_too_large" "Payload Too Large" 413 "The request body exceeds the maximum allowed size." false
    else problem "internal" "Internal Server Error" 500 "An unexpected error occurred." true

/-! ### What a problem depends on -/

theorem Err.as_eq {α : Type*} {type : Err → Option α} (htype : ∀ text inner, type (.wrap text inner) = none)
    (e : Err) : e.as type = type e.root := by
  induction e with
  | wrap text inner ih =>
    rw [as, chain, List.findSome?_cons, htype, root, ← ih]
    rfl
  | _ => simp [as, chain, root]

theorem Err.isAny_eq (e : Err) (errors : List Sentinel) : e.isAny errors = e.root.isAny errors := by
  induction e with
  | wrap text inner ih =>
    rw [root, ← ih, isAny, chain, List.any_cons, isAny]
    rfl
  | _ => rfl

theorem Err.root_root (e : Err) : e.root.root = e.root := by
  induction e with
  | wrap text inner ih => exact ih
  | _ => rfl

/-- The problem of an error is that of the innermost one. -/
theorem classify_root (e : Err) : classify requestID path e = classify requestID path e.root := by
  have has : ∀ {α : Type} (type : Err → Option α), (∀ text inner, type (.wrap text inner) = none) →
      e.as type = e.root.as type := by
    intro α type htype
    rw [Err.as_eq htype, Err.as_eq htype, Err.root_root]
  unfold classify classifyType
  simp only [e.isAny_eq]
  rw [has _ fun _ _ => rfl, has _ fun _ _ => rfl, has _ fun _ _ => rfl, has _ fun _ _ => rfl, has _ fun _ _ => rfl,
    has _ fun _ _ => rfl, has _ fun _ _ => rfl]

/-- The errors are around the same one, or around errors of no class. -/
def SameClass (e e' : Err) : Prop :=
  e.root = e'.root ∨ ∃ text text', e.root = .other text ∧ e'.root = .other text'

/-- **Internal texts are not sent**: the problem does not depend on the text of any wrap, nor on that of an error of
no class. -/
theorem classify_congr {e e' : Err} (h : SameClass e e') :
    classify requestID path e = classify requestID path e' := by
  rw [classify_root, classify_root requestID path e']
  rcases h with h | ⟨text, text', h, h'⟩
  · rw [h]
  · rw [h, h']
    rfl

end Classify

end ForecastIQ.Api
