import Mathlib.Data.List.Basic

/-!
# Runs of a guarded step

`step s a` is the state after the act `a`, or `none` where the act is not possible. A run is
the list of its acts. What every step keeps, every run keeps (`runFrom_invariant`, and
`foldlM_invariant` for a run as a fold), also when the acts are held to a condition on the state
they are taken from (`Along`, `runFrom_invariant_of_along`).

If a step leaves the good states exactly when it is a bad one, then all states of a run are
good exactly when none of its steps is bad (`forall_states_iff_along`).
-/

namespace ForecastIQ.Foundations

variable {σ α : Type*} (step : σ → α → Option σ)

/-- The state after the acts, if each of them is possible. -/
def runFrom (s : σ) : List α → Option σ
  | [] => some s
  | a :: acts => (step s a).bind fun t => runFrom t acts

/-- Every act of the run satisfies the condition in the state it is taken from. -/
def Along (C : σ → α → Prop) (s : σ) : List α → Prop
  | [] => True
  | a :: acts => C s a ∧ ∀ t, step s a = some t → Along C t acts

variable {step}

/-- The condition can be checked along a run. -/
instance Along.decidable {C : σ → α → Prop} [∀ s a, Decidable (C s a)] :
    ∀ (s : σ) (acts : List α), Decidable (Along step C s acts)
  | _, [] => isTrue trivial
  | s, a :: acts =>
    match h : step s a with
    | none => decidable_of_iff (C s a) ⟨fun hc => ⟨hc, fun t ht => by rw [h] at ht; cases ht⟩, And.left⟩
    | some t =>
      have := Along.decidable (C := C) t acts
      decidable_of_iff (C s a ∧ Along step C t acts)
        ⟨fun hc => ⟨hc.1, fun u hu => by rw [h] at hu; cases hu; exact hc.2⟩, fun hc => ⟨hc.1, hc.2 t h⟩⟩

theorem runFrom_cons_iff {s t : σ} {a : α} {acts : List α} :
    runFrom step s (a :: acts) = some t ↔ ∃ u, step s a = some u ∧ runFrom step u acts = some t := by
  rw [runFrom, Option.bind_eq_some_iff]

/-- A run as a fold. -/
theorem foldlM_eq_runFrom (s : σ) (acts : List α) : acts.foldlM step s = runFrom step s acts := by
  induction acts generalizing s with
  | nil => rfl
  | cons a acts ih =>
    rw [List.foldlM_cons, runFrom]
    exact congrArg _ (funext ih)

theorem runFrom_append_eq_bind (s : σ) (acts acts' : List α) :
    runFrom step s (acts ++ acts') = (runFrom step s acts).bind fun t => runFrom step t acts' := by
  simp only [← foldlM_eq_runFrom, List.foldlM_append, Option.bind_eq_bind]

/-- Acts after acts. -/
theorem runFrom_append {s t : σ} {acts : List α} (h : runFrom step s acts = some t) (acts' : List α) :
    runFrom step s (acts ++ acts') = runFrom step t acts' := by
  rw [runFrom_append_eq_bind, h, Option.bind_some]

/-- The acts of a run can be cut in two. -/
theorem exists_runFrom_of_append {s t : σ} {acts acts' : List α} (h : runFrom step s (acts ++ acts') = some t) :
    ∃ u, runFrom step s acts = some u ∧ runFrom step u acts' = some t :=
  Option.bind_eq_some_iff.mp ((runFrom_append_eq_bind s acts acts').symm.trans h)

/-- A property that the steps under a condition keep holds after a run under that condition. -/
theorem runFrom_invariant_of_along {C : σ → α → Prop} {P : σ → Prop}
    (hstep : ∀ s a t, P s → C s a → step s a = some t → P t) {s t : σ} {acts : List α} (hs : P s)
    (hC : Along step C s acts) (h : runFrom step s acts = some t) : P t := by
  induction acts generalizing s with
  | nil =>
    cases h
    exact hs
  | cons a acts ih =>
    obtain ⟨u, hu, hrest⟩ := runFrom_cons_iff.mp h
    exact ih (hstep s a u hs hC.1 hu) (hC.2 u hu) hrest

/-- A condition on the acts alone. -/
theorem along_of_forall_mem {C : α → Prop} {acts : List α} (h : ∀ a ∈ acts, C a) (s : σ) :
    Along step (fun _ a => C a) s acts := by
  induction acts generalizing s with
  | nil => trivial
  | cons a acts ih => exact ⟨h a List.mem_cons_self, fun t _ => ih (fun b hb => h b (List.mem_cons_of_mem a hb)) t⟩

/-- A property that every step keeps holds after every run. -/
theorem runFrom_invariant {P : σ → Prop} (hstep : ∀ s a t, P s → step s a = some t → P t) {s t : σ}
    {acts : List α} (hs : P s) (h : runFrom step s acts = some t) : P t :=
  runFrom_invariant_of_along (C := fun _ _ => True) (fun s a t hs _ => hstep s a t hs) hs
    (along_of_forall_mem (fun _ _ => trivial) s) h

theorem foldlM_invariant {P : σ → Prop} (hstep : ∀ s a t, P s → step s a = some t → P t) {s t : σ}
    {acts : List α} (hs : P s) (h : acts.foldlM step s = some t) : P t :=
  runFrom_invariant hstep hs ((foldlM_eq_runFrom s acts).symm.trans h)

/-- The states of a run: those after its first acts. -/
theorem forall_states_cons {G : σ → Prop} {s t : σ} {a : α} {acts : List α} (h : step s a = some t) :
    (∀ pre u, pre <+: a :: acts → runFrom step s pre = some u → G u) ↔
      G s ∧ ∀ pre u, pre <+: acts → runFrom step t pre = some u → G u := by
  constructor
  · intro hall
    refine ⟨hall [] s List.nil_prefix rfl, fun pre u hpre hu => ?_⟩
    exact hall (a :: pre) u ((List.prefix_cons_inj a).mpr hpre) (runFrom_cons_iff.mpr ⟨t, h, hu⟩)
  · rintro ⟨hs, hall⟩ pre u hpre hu
    cases pre with
    | nil =>
      cases hu
      exact hs
    | cons b pre =>
      obtain ⟨rfl, hrest⟩ := List.cons_prefix_cons.mp hpre
      obtain ⟨t', ht', hrun⟩ := runFrom_cons_iff.mp hu
      rw [h, Option.some.injEq] at ht'
      exact hall pre u hrest (ht' ▸ hrun)

/-- **All states of a run are good exactly when none of its steps is bad**, if a step from a
good state leads to a good one exactly when it is not bad. -/
theorem forall_states_iff_along {I G : σ → Prop} {bad : σ → α → Prop}
    (hinv : ∀ s a t, I s → step s a = some t → I t)
    (hstep : ∀ s a t, I s → G s → step s a = some t → (G t ↔ ¬ bad s a)) {s t : σ} {acts : List α}
    (hI : I s) (hG : G s) (h : runFrom step s acts = some t) :
    (∀ pre u, pre <+: acts → runFrom step s pre = some u → G u) ↔ Along step (fun s a => ¬ bad s a) s acts := by
  induction acts generalizing s with
  | nil =>
    refine ⟨fun _ => trivial, fun _ pre u hpre hu => ?_⟩
    rw [List.prefix_nil.mp hpre] at hu
    cases hu
    exact hG
  | cons a acts ih =>
    obtain ⟨v, hv, hrest⟩ := runFrom_cons_iff.mp h
    rw [forall_states_cons hv]
    constructor
    · rintro ⟨-, hall⟩
      have hGv : G v := hall [] v List.nil_prefix rfl
      refine ⟨(hstep s a v hI hG hv).mp hGv, fun w hw => ?_⟩
      rw [hv, Option.some.injEq] at hw
      exact hw ▸ (ih (hinv s a v hI hv) hGv hrest).mp hall
    · rintro ⟨hbad, halong⟩
      have hGv : G v := (hstep s a v hI hG hv).mpr hbad
      exact ⟨hG, (ih (hinv s a v hI hv) hGv hrest).mpr (halong v hv)⟩

end ForecastIQ.Foundations
