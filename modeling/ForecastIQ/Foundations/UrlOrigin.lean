import ForecastIQ.Foundations.ScriptText
import Mathlib.Data.Nat.Notation

/-!
# Where a link leads

A link on a page is resolved against the address of the page. The origin of the result is its scheme,
host and port. Here the page has the scheme `http` or `https`, and the URL parser is followed as far
as it decides the origin:

* control characters and blanks at the ends are cut off, and tabs and line breaks are taken out
  wherever they are;
* a link with a scheme of its own leads where that says;
* a link that begins with two slashes names a new authority; a backslash counts as a slash, and
  further slashes are skipped;
* every other link stays at the origin of the page.

In an authority, what comes before the last `@` is not part of the host, and the port follows the
first colon that is not in brackets. The parser of hosts and that of links with a scheme are parameters.
-/

namespace ForecastIQ.Foundations.UrlOrigin

open ScriptText

/-- The schemes of a page. -/
inductive Scheme where
  | http | https
  deriving DecidableEq, Repr

def Scheme.defaultPort : Scheme → ℕ
  | http => 80
  | https => 443

/-- An origin; a default port is left out. -/
structure Origin (η : Type*) where
  scheme : Scheme
  host : η
  port : Option ℕ
  deriving DecidableEq, Repr

def solidus : UInt16 := 0x2F

def backslash : UInt16 := 0x5C

/-- A C0 control or a space. -/
def controlOrSpace (c : UInt16) : Bool := c ≤ 0x20

/-- Tab, line feed and carriage return. -/
def tabOrNewline (c : UInt16) : Bool := c = tab || c = lineFeed || c = carriageReturn

/-- The link as the parser goes through it. -/
def cleaned (s : ScriptText) : ScriptText :=
  ((s.dropWhile controlOrSpace).rdropWhile controlOrSpace).filter fun c => !tabOrNewline c

def isSlash (c : UInt16) : Bool := c = solidus || c = backslash

def isAlpha (c : UInt16) : Bool := (0x41 ≤ c && c ≤ 0x5A) || (0x61 ≤ c && c ≤ 0x7A)

def isDigit (c : UInt16) : Bool := 0x30 ≤ c && c ≤ 0x39

/-- The link begins with a scheme. -/
def hasScheme (s : ScriptText) : Bool :=
  s.head?.any isAlpha &&
    (s.dropWhile fun c => isAlpha c || isDigit c || c ∈ units "+-.").head? = some (codeUnit ':')

/-- The host and what is behind the first colon that is not in brackets. -/
def splitPort : Bool → ScriptText → ScriptText × ScriptText
  | _, [] => ([], [])
  | inBrackets, c :: s =>
    if c = codeUnit ':' && !inBrackets then ([], s)
    else
      let rest := splitPort (if c = codeUnit '[' then true else if c = codeUnit ']' then false else inBrackets) s
      (c :: rest.1, rest.2)

/-- The number that digits write. -/
def decimal (s : ScriptText) : ℕ := s.foldl (fun n c => 10 * n + (c.toNat - 0x30)) 0

/-- The port; nothing for one that is no port. -/
def parsePort (scheme : Scheme) (s : ScriptText) : Option (Option ℕ) :=
  if s = [] then some none
  else if !s.all isDigit || 65535 < decimal s then none
  else if decimal s = scheme.defaultPort then some none
  else some (some (decimal s))

section Resolving

variable {η : Type*} (parseHost : ScriptText → Option η) (absolute : ScriptText → Option (Origin η))

/-- The origin of what follows the slashes. -/
def authorityOrigin (scheme : Scheme) (s : ScriptText) : Option (Origin η) :=
  let authority := s.takeWhile fun c => !(isSlash c || c = codeUnit '?' || c = codeUnit '#')
  let parts := splitPort false (authority.rtakeWhile fun c => c ≠ codeUnit '@')
  if parts.1 = [] then none
  else (parseHost parts.1).bind fun host => (parsePort scheme parts.2).map fun port => ⟨scheme, host, port⟩

/-- The origin of the resolved link, if it can be resolved. -/
def resolveOrigin (page : Origin η) (link : ScriptText) : Option (Origin η) :=
  let s := cleaned link
  if hasScheme s then absolute s
  else
    match s with
    | a :: b :: rest =>
      if isSlash a && isSlash b then authorityOrigin parseHost page.scheme (rest.dropWhile isSlash) else some page
    | _ => some page

end Resolving

/-- What the parser sees of the rest of a link. -/
def cleanedRest (s : ScriptText) : ScriptText := (s.rdropWhile controlOrSpace).filter fun c => !tabOrNewline c

/-- The end of a text is cut off behind a character that stays. -/
theorem rdropWhile_append_cons {α : Type*} {p : α → Bool} {c : α} (hc : p c = false) (s t : List α) :
    (s ++ c :: t).rdropWhile p = s ++ c :: t.rdropWhile p := by
  induction t using List.reverseRecOn with
  | nil => exact List.rdropWhile_concat_neg p s c (by simp [hc])
  | append_singleton t a ih =>
    by_cases ha : p a = true
    · rw [← List.cons_append, ← List.append_assoc, List.rdropWhile_concat_pos p _ a ha,
        List.rdropWhile_concat_pos p _ a ha, ih]
    · rw [← List.cons_append, ← List.append_assoc, List.rdropWhile_concat_neg p _ a ha,
        List.rdropWhile_concat_neg p _ a ha, List.append_assoc, List.cons_append]

/-- Tabs and line breaks before a slash are not seen. -/
theorem cleanedRest_gap {gap : ScriptText} (h : ∀ c ∈ gap, tabOrNewline c = true) (tail : ScriptText) :
    cleanedRest (gap ++ solidus :: tail) = solidus :: cleanedRest tail := by
  have hgap : (gap.filter fun c => !tabOrNewline c) = [] := List.filter_eq_nil_iff.mpr fun c hc => by simp [h c hc]
  rw [cleanedRest, rdropWhile_append_cons (by decide), List.filter_append, hgap, List.nil_append,
    List.filter_cons_of_pos (by decide), cleanedRest]

/-- A slash that is seen first has only tabs and line breaks before it. -/
theorem exists_gap_of_cleanedRest {s rest : ScriptText} (h : cleanedRest s = solidus :: rest) :
    ∃ gap tail, s = gap ++ solidus :: tail ∧ (∀ c ∈ gap, tabOrNewline c = true) ∧ rest = cleanedRest tail := by
  obtain ⟨gap, tail, hsplit, hgap, -, -⟩ := List.filter_eq_cons_iff.mp h
  obtain ⟨cut, hcut⟩ := List.rdropWhile_prefix controlOrSpace s
  have hall : ∀ c ∈ gap, tabOrNewline c = true := fun c hc => by simpa using hgap c hc
  have hs : s = gap ++ solidus :: (tail ++ cut) := by
    rw [← hcut, hsplit, List.append_assoc, List.cons_append]
  rw [hs, cleanedRest_gap hall, List.cons.injEq] at h
  exact ⟨gap, tail ++ cut, hs, hall, h.2.symm⟩

theorem mem_of_mem_cleanedRest {s : ScriptText} {c : UInt16} (h : c ∈ cleanedRest s) : c ∈ s :=
  (List.rdropWhile_prefix controlOrSpace s).subset (List.mem_filter.mp h).1

theorem cleaned_solidus (s : ScriptText) : cleaned (solidus :: s) = solidus :: cleanedRest s := by
  have hnil : ∀ c ∈ ([] : ScriptText), tabOrNewline c = true := by simp
  rw [cleaned, List.dropWhile_cons_of_neg (by decide)]
  exact cleanedRest_gap hnil s

theorem hasScheme_solidus (s : ScriptText) : hasScheme (solidus :: s) = false := rfl

section OneSlash

variable {η : Type*} {parseHost : ScriptText → Option η} {absolute : ScriptText → Option (Origin η)} (page : Origin η)

/-- **A link with a slash in front that goes on with another slash**, as the parser sees it, leads where its
authority says. -/
theorem resolveOrigin_authority {s rest : ScriptText} (h : cleanedRest s = solidus :: rest) :
    resolveOrigin parseHost absolute page (solidus :: s) =
      authorityOrigin parseHost page.scheme (rest.dropWhile isSlash) := by
  simp only [resolveOrigin, cleaned_solidus, hasScheme_solidus, h, Bool.false_eq_true, if_false]
  rfl

/-- A link with a slash in front that does not go on with another one stays. -/
theorem resolveOrigin_path {s : ScriptText} (hslash : (cleanedRest s).head? ≠ some solidus) (hback : backslash ∉ s) :
    resolveOrigin parseHost absolute page (solidus :: s) = some page := by
  simp only [resolveOrigin, cleaned_solidus, hasScheme_solidus, Bool.false_eq_true, if_false]
  cases hrest : cleanedRest s with
  | nil => rfl
  | cons c rest =>
    have hne : c ≠ backslash := by
      rintro rfl
      exact hback (mem_of_mem_cleanedRest (by rw [hrest]; exact List.mem_cons_self))
    have hne' : c ≠ solidus := by
      rintro rfl
      exact hslash (by rw [hrest]; rfl)
    simp [isSlash, hne, hne']

end OneSlash

end ForecastIQ.Foundations.UrlOrigin
