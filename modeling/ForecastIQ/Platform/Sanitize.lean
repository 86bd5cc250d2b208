import Mathlib.Data.List.Infix

/-!
# Redacting log attributes

`SanitizingHandler` of `internal/platform/logging/sanitize.go` stands before the handler that writes the
log. It replaces the value of an attribute whose key is sensitive, and goes into groups to do so. What it
hands on is a chain of `WithAttrs` and `WithGroup` calls and the attributes of a record.

A value that resolves when it is logged (`LogValuer`) is handed on as it is, and the handler behind
resolves it. A group that `WithGroup` opens is handed on by its name. So of the names around a leaf the
handler looks at some only: its key and the groups around it in the attribute (`Passage.examined`), but
not those that `WithGroup` has opened nor those inside a value that resolves. A leaf with a sensitive name
is safe exactly when one of the names that are looked at is sensitive (`sanitized_iff`).

`unicode.ToLower` is a parameter. `slog` drops a group without attributes from a group and from a record.
-/

namespace ForecastIQ.Platform.Logging

/-- A value without parts. -/
inductive Scalar (ν : Type*) where
  | string (s : String)
  | other (v : ν)
  deriving DecidableEq, Repr

/-- A value: a scalar, a group of attributes, or one that `Resolve` turns into another value. -/
inductive LogValue (ν : Type*) where
  | scalar (s : Scalar ν)
  | group (attrs : List (String × LogValue ν))
  | logValuer (resolved : LogValue ν)

/-- `slog.Attr`: a key and a value. -/
abbrev Attr (ν : Type*) := String × LogValue ν

/-- What `With` and `WithGroup` do to a handler. -/
inductive HandlerCall (ν : Type*) where
  | withAttrs (attrs : List (Attr ν))
  | withGroup (name : String)

/-- A leaf and the names on the way to it, its own key last. -/
structure Leaf (ν : Type*) where
  path : List String
  value : Scalar ν
  deriving DecidableEq, Repr

section Sanitizing

variable {ν : Type*}

/-- `sensitiveKeys`. -/
def sensitiveKeys : List String :=
  ["token", "password", "passwd", "apikey", "secret", "credential", "authorization", "servicerole", "jwt", "bearer"]

def redactedValue : String := "[REDACTED]"

/-- The value that stands in for a sensitive one. -/
def redacted : Scalar ν := .string redactedValue

/-- The attribute is a group without attributes. -/
def isEmptyGroup : Attr ν → Bool
  | (_, .group []) => true
  | _ => false

/-- `slog.GroupValue`. -/
def groupValue (attrs : List (Attr ν)) : LogValue ν := .group (attrs.filter fun a => !isEmptyGroup a)

variable (lower : Char → Char)

/-- `isSensitiveKey`. -/
def isSensitiveKey (key : String) : Bool :=
  let normalized := (key.toList.map lower).filter fun c => c ≠ '_' && c ≠ '-'
  sensitiveKeys.any fun sensitive => decide (sensitive.toList <:+: normalized)

mutual

/-- The value of an attribute whose key is not sensitive. -/
def sanitizeValue : LogValue ν → LogValue ν
  | .scalar s => .scalar s
  | .group attrs => groupValue (sanitizeAttrs attrs)
  | .logValuer resolved => .logValuer resolved

/-- `sanitizeAttr`, for each of the attributes. -/
def sanitizeAttrs : List (Attr ν) → List (Attr ν)
  | [] => []
  | (key, value) :: attrs =>
    (key, if isSensitiveKey lower key then .scalar redacted else sanitizeValue value) :: sanitizeAttrs attrs

end

/-- `SanitizingHandler`: what it has done to the handler behind it. -/
structure SanitizingHandler (ν : Type*) where
  inner : List (HandlerCall ν)

namespace SanitizingHandler

/-- `NewSanitizingHandler`. -/
def new : SanitizingHandler ν := ⟨[]⟩

/-- `WithAttrs`. -/
def withAttrs (h : SanitizingHandler ν) (attrs : List (Attr ν)) : SanitizingHandler ν :=
  ⟨h.inner ++ [.withAttrs (sanitizeAttrs lower attrs)]⟩

/-- `WithGroup`. -/
def withGroup (h : SanitizingHandler ν) (name : String) : SanitizingHandler ν := ⟨h.inner ++ [.withGroup name]⟩

/-- `Handle`: the attributes of the record for the handler behind. -/
def handle (_ : SanitizingHandler ν) (record : List (Attr ν)) : List (Attr ν) :=
  (sanitizeAttrs lower record).filter fun a => !isEmptyGroup a

/-- One call of `With` or `WithGroup`. -/
def apply (h : SanitizingHandler ν) : HandlerCall ν → SanitizingHandler ν
  | .withAttrs attrs => h.withAttrs lower attrs
  | .withGroup name => h.withGroup name

end SanitizingHandler

/-! ### What reaches the handler behind -/

mutual

/-- The leaves of a value, when it is resolved, each with the names from the value to it. -/
def LogValue.leaves : LogValue ν → List (Leaf ν)
  | .scalar s => [⟨[], s⟩]
  | .group attrs => attrsLeaves attrs
  | .logValuer resolved => resolved.leaves

/-- The leaves of attributes. -/
def attrsLeaves : List (Attr ν) → List (Leaf ν)
  | [] => []
  | (key, value) :: attrs => (value.leaves.map fun l => ⟨key :: l.path, l.value⟩) ++ attrsLeaves attrs

end

/-- The leaves that a handler gets by its calls and a record. -/
def received : List (HandlerCall ν) → List (Attr ν) → List (Leaf ν)
  | [], record => attrsLeaves record
  | .withAttrs attrs :: calls, record => attrsLeaves attrs ++ received calls record
  | .withGroup name :: calls, record => (received calls record).map fun l => ⟨name :: l.path, l.value⟩

/-- A leaf on its way through `SanitizingHandler`: the groups that `WithGroup` has opened, the keys that are looked
at, and the names inside a value that resolves. -/
structure Passage (ν : Type*) where
  opened : List String
  examined : List String
  resolved : List String
  value : Scalar ν
  deriving DecidableEq, Repr

def Passage.toLeaf (p : Passage ν) : Leaf ν := ⟨p.opened ++ p.examined ++ p.resolved, p.value⟩

mutual

/-- The leaves of a value. -/
def LogValue.passages : LogValue ν → List (Passage ν)
  | .scalar s => [⟨[], [], [], s⟩]
  | .group attrs => attrsPassages attrs
  | .logValuer resolved => resolved.leaves.map fun l => ⟨[], [], l.path, l.value⟩

/-- The leaves of attributes. -/
def attrsPassages : List (Attr ν) → List (Passage ν)
  | [] => []
  | (key, value) :: attrs =>
    (value.passages.map fun p => { p with examined := key :: p.examined }) ++ attrsPassages attrs

end

/-- The leaves of a chain of calls and a record. -/
def passages : List (HandlerCall ν) → List (Attr ν) → List (Passage ν)
  | [], record => attrsPassages record
  | .withAttrs attrs :: calls, record => attrsPassages attrs ++ passages calls record
  | .withGroup name :: calls, record => (passages calls record).map fun p => { p with opened := name :: p.opened }

/-- No group without attributes has a leaf. -/
theorem attrsLeaves_filter (attrs : List (Attr ν)) :
    attrsLeaves (attrs.filter fun a => !isEmptyGroup a) = attrsLeaves attrs := by
  induction attrs with
  | nil => rfl
  | cons a attrs ih =>
    obtain ⟨key, value⟩ := a
    by_cases h : isEmptyGroup (key, value) = true
    · have hvalue : value = .group [] := by
        unfold isEmptyGroup at h
        split at h
        · rename_i heq
          exact congrArg Prod.snd heq
        · cases h
      rw [List.filter_cons_of_neg (by simp [h]), ih, hvalue]
      simp [attrsLeaves, LogValue.leaves]
    · rw [List.filter_cons_of_pos (by simpa using h), attrsLeaves, attrsLeaves, ih]

/-- The keys that are looked at are not sensitive. -/
def Passage.Passed (p : Passage ν) : Prop := ∀ key ∈ p.examined, isSensitiveKey lower key = false

/-- These leaves come of those: the ones that pass, and redacted ones. -/
structure ComeOf (leaves : List (Leaf ν)) (input : List (Passage ν)) : Prop where
  cases : ∀ l ∈ leaves, l.value = redacted ∨ ∃ p ∈ input, p.Passed lower ∧ l = p.toLeaf
  of_passed : ∀ p ∈ input, p.Passed lower → p.toLeaf ∈ leaves

variable {lower}

namespace ComeOf

theorem append {a b : List (Leaf ν)} {p q : List (Passage ν)} (h : ComeOf lower a p) (h' : ComeOf lower b q) :
    ComeOf lower (a ++ b) (p ++ q) where
  cases l hl := by
    rcases List.mem_append.mp hl with hl | hl
    · exact (h.cases l hl).imp_right fun ⟨r, hr, hpassed⟩ => ⟨r, List.mem_append_left q hr, hpassed⟩
    · exact (h'.cases l hl).imp_right fun ⟨r, hr, hpassed⟩ => ⟨r, List.mem_append_right p hr, hpassed⟩
  of_passed r hr hpassed := by
    rcases List.mem_append.mp hr with hr | hr
    · exact List.mem_append_left b (h.of_passed r hr hpassed)
    · exact List.mem_append_right a (h'.of_passed r hr hpassed)

/-- Under a key that is not sensitive. -/
theorem examine {a : List (Leaf ν)} {p : List (Passage ν)} {key : String} (hkey : isSensitiveKey lower key = false)
    (hopen : ∀ r ∈ p, r.opened = []) (h : ComeOf lower a p) :
    ComeOf lower (a.map fun l => ⟨key :: l.path, l.value⟩)
      (p.map fun r => { r with examined := key :: r.examined }) where
  cases l hl := by
    obtain ⟨l', hl', rfl⟩ := List.mem_map.mp hl
    rcases h.cases l' hl' with hred | ⟨r, hr, hpassed, rfl⟩
    · exact .inl hred
    · refine .inr ⟨_, List.mem_map_of_mem hr, List.forall_mem_cons.mpr ⟨hkey, hpassed⟩, ?_⟩
      simp [Passage.toLeaf, hopen r hr]
  of_passed r hr hpassed := by
    obtain ⟨r', hr', rfl⟩ := List.mem_map.mp hr
    have hleaf := h.of_passed r' hr' (List.forall_mem_cons.mp hpassed).2
    refine List.mem_map.mpr ⟨_, hleaf, ?_⟩
    simp [Passage.toLeaf, hopen r' hr']

/-- Under a sensitive key only the redacted value is left. -/
theorem redact {p : List (Passage ν)} {key : String} (hkey : isSensitiveKey lower key = true) :
    ComeOf lower [⟨[key], redacted⟩] (p.map fun r => { r with examined := key :: r.examined }) where
  cases l hl := by
    rw [List.mem_singleton.mp hl]
    exact .inl rfl
  of_passed r hr hpassed := by
    obtain ⟨r', hr', rfl⟩ := List.mem_map.mp hr
    have hnot := hpassed key List.mem_cons_self
    rw [hkey] at hnot
    cases hnot

/-- A value that resolves is not looked at. -/
theorem resolve (a : List (Leaf ν)) : ComeOf lower a (a.map fun l => ⟨[], [], l.path, l.value⟩) where
  cases l hl := .inr ⟨_, List.mem_map_of_mem hl, fun _ hk => absurd hk List.not_mem_nil, rfl⟩
  of_passed r hr _ := by
    obtain ⟨l, hl, rfl⟩ := List.mem_map.mp hr
    exact hl

/-- In a group that `WithGroup` has opened. -/
theorem opened {a : List (Leaf ν)} {p : List (Passage ν)} (h : ComeOf lower a p) (name : String) :
    ComeOf lower (a.map fun l => ⟨name :: l.path, l.value⟩) (p.map fun r => { r with opened := name :: r.opened }) where
  cases l hl := by
    obtain ⟨l', hl', rfl⟩ := List.mem_map.mp hl
    refine (h.cases l' hl').imp_right ?_
    rintro ⟨r, hr, hpassed, rfl⟩
    exact ⟨_, List.mem_map_of_mem hr, hpassed, rfl⟩
  of_passed r hr hpassed := by
    obtain ⟨r', hr', rfl⟩ := List.mem_map.mp hr
    exact List.mem_map.mpr ⟨_, h.of_passed r' hr' hpassed, rfl⟩

end ComeOf

mutual

theorem opened_of_mem_passages : ∀ (v : LogValue ν), ∀ p ∈ v.passages, p.opened = []
  | .scalar _ => by simp [LogValue.passages]
  | .group attrs => by
    rw [LogValue.passages]
    exact opened_of_mem_attrsPassages attrs
  | .logValuer resolved => by simp [LogValue.passages]

theorem opened_of_mem_attrsPassages : ∀ (attrs : List (Attr ν)), ∀ p ∈ attrsPassages attrs, p.opened = []
  | [] => by simp [attrsPassages]
  | (key, value) :: attrs => by
    rw [attrsPassages, List.forall_mem_append, List.forall_mem_map]
    exact ⟨opened_of_mem_passages value, opened_of_mem_attrsPassages attrs⟩

end

mutual

theorem toLeaf_passages : ∀ v : LogValue ν, v.passages.map Passage.toLeaf = v.leaves
  | .scalar _ => by simp [LogValue.passages, LogValue.leaves, Passage.toLeaf]
  | .group attrs => by
    rw [LogValue.passages, LogValue.leaves]
    exact toLeaf_attrsPassages attrs
  | .logValuer resolved => by
    rw [LogValue.passages, LogValue.leaves, List.map_map]
    exact List.map_id' _

theorem toLeaf_attrsPassages : ∀ attrs : List (Attr ν), (attrsPassages attrs).map Passage.toLeaf = attrsLeaves attrs
  | [] => by rw [attrsPassages, attrsLeaves, List.map_nil]
  | (key, value) :: attrs => by
    rw [attrsPassages, attrsLeaves, List.map_append, toLeaf_attrsPassages attrs, ← toLeaf_passages value, List.map_map,
      List.map_map]
    refine congrArg (· ++ _) (List.map_congr_left fun p hp => ?_)
    simp [Passage.toLeaf, opened_of_mem_passages value p hp]

end

/-- **The passages are the leaves that come in**, with the names on the way to each split in three. -/
theorem toLeaf_passages_chain (calls : List (HandlerCall ν)) (record : List (Attr ν)) :
    (passages calls record).map Passage.toLeaf = received calls record := by
  induction calls with
  | nil => exact toLeaf_attrsPassages record
  | cons call calls ih =>
    cases call with
    | withAttrs attrs => rw [passages, received, List.map_append, toLeaf_attrsPassages, ih]
    | withGroup name =>
      rw [passages, received, ← ih, List.map_map, List.map_map]
      rfl

mutual

/-- What is left of a value under keys that are not sensitive. -/
theorem leaves_sanitizeValue : ∀ v : LogValue ν, ComeOf lower (sanitizeValue lower v).leaves v.passages
  | .scalar s => by
    refine ⟨fun l hl => .inr ⟨⟨[], [], [], s⟩, ?_, fun _ hk => absurd hk List.not_mem_nil, ?_⟩, fun p hp _ => ?_⟩
    · simp [LogValue.passages]
    · simpa [sanitizeValue, LogValue.leaves, Passage.toLeaf] using hl
    · rw [LogValue.passages, List.mem_singleton] at hp
      simp [hp, sanitizeValue, LogValue.leaves, Passage.toLeaf]
  | .group attrs => by
    rw [sanitizeValue, groupValue, LogValue.leaves, attrsLeaves_filter, LogValue.passages]
    exact leaves_sanitizeAttrs attrs
  | .logValuer resolved => by
    rw [sanitizeValue, LogValue.leaves, LogValue.passages]
    exact .resolve _

/-- What is left of attributes. -/
theorem leaves_sanitizeAttrs : ∀ attrs : List (Attr ν),
    ComeOf lower (attrsLeaves (sanitizeAttrs lower attrs)) (attrsPassages attrs)
  | [] => by
    rw [sanitizeAttrs, attrsLeaves, attrsPassages]
    exact ⟨fun l hl => absurd hl List.not_mem_nil, fun p hp => absurd hp List.not_mem_nil⟩
  | (key, value) :: attrs => by
    rw [sanitizeAttrs, attrsLeaves, attrsPassages]
    refine .append ?_ (leaves_sanitizeAttrs attrs)
    cases hkey : isSensitiveKey lower key with
    | true =>
      rw [if_pos rfl, LogValue.leaves]
      exact .redact hkey
    | false =>
      rw [if_neg Bool.false_ne_true]
      exact (leaves_sanitizeValue value).examine hkey (opened_of_mem_passages value)

end

/-- What `SanitizingHandler` does to the handler behind it for a call. -/
def sanitizeCall (lower : Char → Char) : HandlerCall ν → HandlerCall ν
  | .withAttrs attrs => .withAttrs (sanitizeAttrs lower attrs)
  | .withGroup name => .withGroup name

theorem inner_foldl_apply (calls : List (HandlerCall ν)) (h : SanitizingHandler ν) :
    (calls.foldl (SanitizingHandler.apply lower) h).inner = h.inner ++ calls.map (sanitizeCall lower) := by
  induction calls generalizing h with
  | nil => simp
  | cons call calls ih =>
    rw [List.foldl_cons, ih, List.map_cons]
    cases call <;>
      simp [SanitizingHandler.apply, SanitizingHandler.withAttrs, SanitizingHandler.withGroup, sanitizeCall]

/-- What reaches the handler behind, of a chain of calls and a record. -/
theorem received_sanitized (calls : List (HandlerCall ν)) (record : List (Attr ν)) :
    ComeOf lower
      (received (calls.map (sanitizeCall lower)) ((sanitizeAttrs lower record).filter fun a => !isEmptyGroup a))
      (passages calls record) := by
  induction calls with
  | nil =>
    rw [List.map_nil, received, attrsLeaves_filter, passages]
    exact leaves_sanitizeAttrs record
  | cons call calls ih =>
    cases call with
    | withAttrs attrs => exact .append (leaves_sanitizeAttrs attrs) ih
    | withGroup name => exact ih.opened name

/-- **No leaf with a sensitive name reaches the handler behind unredacted** exactly when every leaf with a sensitive
name among the groups that `WithGroup` has opened and the names inside a value that resolves has one among the keys
that are looked at as well, or reads `[REDACTED]` by itself. -/
theorem sanitized_iff (lower : Char → Char) (calls : List (HandlerCall ν)) (record : List (Attr ν)) :
    (∀ l ∈ received (calls.foldl (SanitizingHandler.apply lower) .new).inner
        ((calls.foldl (SanitizingHandler.apply lower) .new).handle lower record),
      (∃ name ∈ l.path, isSensitiveKey lower name = true) → l.value = redacted) ↔
    ∀ p ∈ passages calls record, (∃ name ∈ p.opened ++ p.resolved, isSensitiveKey lower name = true) →
      (∃ name ∈ p.examined, isSensitiveKey lower name = true) ∨ p.value = redacted := by
  have hcome : ComeOf lower _ (passages calls record) := received_sanitized calls record
  rw [inner_foldl_apply, SanitizingHandler.new, List.nil_append, SanitizingHandler.handle]
  constructor
  · rintro h p hp ⟨name, hname, hsens⟩
    by_cases hpassed : p.Passed lower
    · refine .inr (h p.toLeaf (hcome.of_passed p hp hpassed) ⟨name, ?_, hsens⟩)
      rcases List.mem_append.mp hname with hname | hname
      · exact List.mem_append_left _ (List.mem_append_left _ hname)
      · exact List.mem_append_right _ hname
    · simp only [Passage.Passed, not_forall, Bool.not_eq_false] at hpassed
      obtain ⟨key, hkey, hsens⟩ := hpassed
      exact .inl ⟨key, hkey, hsens⟩
  · rintro h l hl ⟨name, hname, hsens⟩
    rcases hcome.cases l hl with hred | ⟨p, hp, hpassed, rfl⟩
    · exact hred
    · have hnot : ¬ ∃ name ∈ p.examined, isSensitiveKey lower name = true := by
        rintro ⟨key, hkey, hsens⟩
        rw [hpassed key hkey] at hsens
        cases hsens
      refine (h p hp ⟨name, ?_, hsens⟩).resolve_left hnot
      rw [Passage.toLeaf, List.mem_append, List.mem_append] at hname
      rcases hname with (hname | hname) | hname
      · exact List.mem_append_left _ hname
      · exact absurd ⟨name, hname, hsens⟩ hnot
      · exact List.mem_append_right _ hname

end Sanitizing

/-- A text under a key. -/
def textAttr (key text : String) : Attr Unit := (key, .scalar (.string text))

/-- Sensitive keys in a group and in `With`, and a group that resolves to harmless names. -/
theorem sanitized_request :
    ¬ ∃ l ∈ received
        ([HandlerCall.withAttrs [textAttr "apiKey" "k-1"], .withGroup "request"].foldl
          (SanitizingHandler.apply Char.toLower) .new).inner
        (([HandlerCall.withAttrs [textAttr "apiKey" "k-1"], .withGroup "request"].foldl
          (SanitizingHandler.apply Char.toLower) .new).handle Char.toLower
          [("user", .group [textAttr "refresh_token" "t-1", textAttr "id" "7"]),
            ("place", .logValuer (.group [textAttr "city" "Oslo"]))]),
      (∃ name ∈ l.path, isSensitiveKey Char.toLower name = true) ∧ l.value ≠ redacted := by
  rintro ⟨l, hl, hname, hvalue⟩
  exact hvalue ((sanitized_iff Char.toLower [.withAttrs [textAttr "apiKey" "k-1"], .withGroup "request"]
    [("user", .group [textAttr "refresh_token" "t-1", textAttr "id" "7"]),
      ("place", .logValuer (.group [textAttr "city" "Oslo"]))]).mpr (by decide +kernel) l hl hname)

/-- A sensitive name of `WithGroup` and one inside a value that resolves, with their values. -/
theorem unredacted_names :
    (isSensitiveKey Char.toLower "credentials" = true ∧ isSensitiveKey Char.toLower "password" = true) ∧
    (⟨["credentials", "value"], .string "hunter2"⟩ : Leaf Unit) ∈
      received ([HandlerCall.withGroup "credentials"].foldl (SanitizingHandler.apply Char.toLower) .new).inner
        (([HandlerCall.withGroup "credentials"].foldl (SanitizingHandler.apply Char.toLower) .new).handle Char.toLower
          [textAttr "value" "hunter2"]) ∧
    (⟨["user", "password"], .string "hunter2"⟩ : Leaf Unit) ∈
      received SanitizingHandler.new.inner
        (SanitizingHandler.new.handle Char.toLower
          [("user", .logValuer (.group [textAttr "password" "hunter2"]))]) := by
  decide +kernel

end ForecastIQ.Platform.Logging
