import ForecastIQ.Foundations.UrlOrigin

/-!
# Returning after sign-in

`safeReturnPath` of `web/lib/auth/session.ts` looks at the target of the redirect as it is given: it
must begin with one slash and have no backslash. The browser takes tabs and line breaks out of the
target before it looks for slashes (`UrlOrigin.resolveOrigin`). So a target leads off the site exactly
when only tabs and line breaks stand between its first slash and another one, unless what follows names
the site itself.
-/

namespace ForecastIQ.Web

open ForecastIQ.Foundations ForecastIQ.Foundations.ScriptText ForecastIQ.Foundations.UrlOrigin

/-- `safeReturnPath`; `none` for `null` and `undefined`. -/
def safeReturnPath (raw : Option ScriptText) : ScriptText :=
  match raw with
  | none => units "/"
  | some raw =>
    if raw = [] ∨ ¬ units "/" <+: raw ∨ units "//" <+: raw ∨ backslash ∈ raw then units "/" else raw

/-- What passes the check. -/
theorem safeReturnPath_cases (raw : Option ScriptText) :
    safeReturnPath raw = units "/" ∨
      ∃ s, raw = some (solidus :: s) ∧ s.head? ≠ some solidus ∧ backslash ∉ s ∧ safeReturnPath raw = solidus :: s := by
  cases raw with
  | none => exact .inl rfl
  | some raw =>
    rw [safeReturnPath]
    split_ifs with h
    · exact .inl rfl
    · simp only [not_or, not_not] at h
      obtain ⟨-, ⟨s, rfl⟩, hdouble, hback⟩ := h
      refine .inr ⟨s, rfl, fun hs => hdouble ?_, fun hs => hback (List.mem_append_right _ hs), rfl⟩
      obtain ⟨t, rfl⟩ := List.head?_eq_some_iff.mp hs
      exact ⟨t, rfl⟩

/-- Tabs and line breaks between two slashes pass the check. -/
theorem safeReturnPath_gap {gap tail : ScriptText} (hne : gap ≠ []) (hgap : ∀ c ∈ gap, tabOrNewline c = true)
    (hback : backslash ∉ tail) :
    safeReturnPath (some (solidus :: (gap ++ solidus :: tail))) = solidus :: (gap ++ solidus :: tail) := by
  have hmem : ∀ c, c ∈ gap → c ≠ backslash ∧ c ≠ solidus := by
    intro c hc
    refine ⟨?_, ?_⟩ <;>
    · rintro rfl
      exact absurd (hgap _ hc) (by decide)
  rw [safeReturnPath, if_neg]
  simp only [not_or, not_not]
  refine ⟨List.cons_ne_nil _ _, ⟨gap ++ solidus :: tail, rfl⟩, ?_, ?_⟩
  · rintro ⟨t, ht⟩
    obtain ⟨c, gap, rfl⟩ := List.exists_cons_of_ne_nil hne
    injection ht with _ ht
    injection ht with hc _
    exact (hmem c List.mem_cons_self).2 hc.symm
  · rw [List.mem_cons, List.mem_append, List.mem_cons]
    rintro (h | h | h | h)
    · exact absurd h (by decide)
    · exact (hmem _ h).1 rfl
    · exact absurd h (by decide)
    · exact hback h

section Resolving

variable {η : Type*} (parseHost : ScriptText → Option η) (absolute : ScriptText → Option (Origin η))

/-- **The redirect stays on the site** exactly when only tabs and line breaks between the first slash of the target and
another one come with an authority that is the site's own. -/
theorem returnPath_sameOrigin_iff (site : Origin η) (raw : Option ScriptText) :
    resolveOrigin parseHost absolute site (safeReturnPath raw) = some site ↔
      ∀ gap tail, raw = some (solidus :: (gap ++ solidus :: tail)) → gap ≠ [] → (∀ c ∈ gap, tabOrNewline c = true) →
        backslash ∉ tail →
          authorityOrigin parseHost site.scheme ((cleanedRest tail).dropWhile isSlash) = some site := by
  constructor
  · rintro h gap tail rfl hne hgap hback
    rwa [safeReturnPath_gap hne hgap hback, resolveOrigin_authority site (cleanedRest_gap hgap tail)] at h
  · intro h
    rcases safeReturnPath_cases raw with hroot | ⟨s, rfl, hhead, hback, hkept⟩
    · rw [hroot]
      rfl
    · rw [hkept]
      by_cases hslash : (cleanedRest s).head? = some solidus
      · obtain ⟨rest, hrest⟩ := List.head?_eq_some_iff.mp hslash
        obtain ⟨gap, tail, rfl, hgap, rfl⟩ := exists_gap_of_cleanedRest hrest
        rw [resolveOrigin_authority site hrest]
        refine h gap tail rfl ?_ hgap fun ht => hback (List.mem_append_right _ (List.mem_cons_of_mem _ ht))
        rintro rfl
        exact hhead rfl
      · exact resolveOrigin_path site hslash hback

/-- A path with a query stays. -/
theorem returnPath_sameOrigin_trends :
    resolveOrigin some (fun _ => none) ⟨.https, units "app.example", none⟩
      (safeReturnPath (some (units "/trends?horizon_minutes=1440"))) =
        some ⟨.https, units "app.example", none⟩ := by
  refine (returnPath_sameOrigin_iff some (fun _ => none) _ _).mpr fun gap tail hraw hne hgap _ => ?_
  cases gap with
  | nil => exact absurd rfl hne
  | cons c gap =>
    have hc : c = codeUnit 't' := by
      injection hraw with hraw
      injection hraw with _ hraw
      injection hraw with hraw _
      exact hraw.symm
    exact absurd (hgap c List.mem_cons_self) (by rw [hc]; decide)

/-- A tab between two slashes passes the check and leads to another host. -/
theorem returnPath_offSite :
    resolveOrigin some (fun _ => none) ⟨.https, units "app.example", none⟩
      (safeReturnPath (some (units "/\t/evil.example"))) = some ⟨.https, units "evil.example", none⟩ := by
  decide +kernel

end Resolving

end ForecastIQ.Web
