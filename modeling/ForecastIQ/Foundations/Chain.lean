import Mathlib.Data.List.Nodup
import Mathlib.Logic.Relation

/-!
# Chains of rows

Rows with identifiers, of which each may point to the row that replaced it. In a table
whose pointers go forward (to no row before, `Forward`) no row is reached from itself. When
they also name rows of the table (`Named`), one reaches from every row a row that points
nowhere. With unique identifiers that last row is the only one of its kind
(`eq_of_reaches_ends`).
-/

namespace ForecastIQ.Foundations.Chain

open Relation

variable {ρ ι : Type*} (id : ρ → ι) (next : ρ → Option ι)

/-- A row with identifier `a` points to `b`. -/
def Link (rows : List ρ) (a b : ι) : Prop := ∃ r ∈ rows, id r = a ∧ next r = some b

/-- `b` is reached from `a` along pointers. -/
def Reaches (rows : List ρ) : ι → ι → Prop := ReflTransGen (Link id next rows)

/-- No pointer names its own row, or one before it. -/
def Forward : List ρ → Prop
  | [] => True
  | r :: rows => (∀ r' ∈ r :: rows, next r' ≠ some (id r)) ∧ Forward rows

/-- Every pointer names a row of the table. -/
def Named (rows : List ρ) : Prop := ∀ r ∈ rows, ∀ b, next r = some b → b ∈ rows.map id

variable {id next}

theorem Link.mono {rows rows' : List ρ} (h : ∀ r ∈ rows, ∀ b, next r = some b → ∃ r' ∈ rows', id r' = id r ∧
    next r' = some b) {a b : ι} (hl : Link id next rows a b) : Link id next rows' a b := by
  obtain ⟨r, hr, rfl, hb⟩ := hl
  exact h r hr b hb

theorem Link.cons {rows : List ρ} {r : ρ} {a b : ι} (h : Link id next rows a b) : Link id next (r :: rows) a b := by
  obtain ⟨r', hr', h⟩ := h
  exact ⟨r', List.mem_cons_of_mem _ hr', h⟩

/-- From every row one reaches a row that points nowhere. -/
theorem Forward.exists_end {rows : List ρ} (h : Forward id next rows) (hn : Named id next rows) {r : ρ}
    (hr : r ∈ rows) : ∃ e ∈ rows, next e = none ∧ Reaches id next rows (id r) (id e) := by
  induction rows generalizing r with
  | nil => cases hr
  | cons r' rows ih =>
    have hcons : ∀ {a b}, Reaches id next rows a b → Reaches id next (r' :: rows) a b := fun hab =>
      ReflTransGen.mono (fun _ _ => Link.cons) _ _ hab
    -- a pointer does not name the first row, so it names one of the others
    have hlater : ∀ x ∈ r' :: rows, ∀ b, next x = some b → b ∈ rows.map id := by
      intro x hx b hb
      rcases List.mem_cons.mp (hn x hx b hb) with rfl | hmem
      · exact absurd hb (h.1 x hx)
      · exact hmem
    have hih : ∀ {x}, x ∈ rows → ∃ e ∈ rows, next e = none ∧ Reaches id next rows (id x) (id e) := fun hx =>
      ih h.2 (fun x hx => hlater x (List.mem_cons_of_mem _ hx)) hx
    rcases List.mem_cons.mp hr with rfl | hr
    · cases hb : next r with
      | none => exact ⟨r, List.mem_cons_self, hb, .refl⟩
      | some b =>
        obtain ⟨r2, hr2, rfl⟩ := List.mem_map.mp (hlater r List.mem_cons_self b hb)
        obtain ⟨e, he, hend, hreach⟩ := hih hr2
        exact ⟨e, List.mem_cons_of_mem _ he, hend, .head ⟨r, List.mem_cons_self, rfl, hb⟩ (hcons hreach)⟩
    · obtain ⟨e, he, hend, hreach⟩ := hih hr
      exact ⟨e, List.mem_cons_of_mem _ he, hend, hcons hreach⟩

theorem Forward.idxOf_lt [DecidableEq ι] {rows : List ρ} (h : Forward id next rows) {a b : ι}
    (hl : Link id next rows a b) : (rows.map id).idxOf a < (rows.map id).idxOf b := by
  induction rows with
  | nil =>
    obtain ⟨r, hr, -⟩ := hl
    cases hr
  | cons r rows ih =>
    obtain ⟨r', hr', ha, hb⟩ := hl
    have hne : id r ≠ b := fun he => h.1 r' hr' (by rw [he]; exact hb)
    rw [List.map_cons, List.idxOf_cons_ne _ hne]
    by_cases hra : id r = a
    · rw [hra, List.idxOf_cons_self]
      exact Nat.succ_pos _
    · rw [List.idxOf_cons_ne _ hra]
      rcases List.mem_cons.mp hr' with rfl | hr'
      · exact absurd ha hra
      · exact Nat.succ_lt_succ (ih h.2 ⟨r', hr', ha, hb⟩)

/-- No row is reached from itself by following pointers. -/
theorem Forward.acyclic {rows : List ρ} (h : Forward id next rows) (a : ι) :
    ¬ TransGen (Link id next rows) a a := by
  classical
  have hlt : ∀ {b}, TransGen (Link id next rows) a b → (rows.map id).idxOf a < (rows.map id).idxOf b := by
    intro b hab
    induction hab with
    | single hl => exact h.idxOf_lt hl
    | tail _ hl ih => exact Nat.lt_trans ih (h.idxOf_lt hl)
  exact fun hcycle => Nat.lt_irrefl _ (hlt hcycle)

/-- Pointers go forward after rows that point nowhere are added, if those that changed name no row
from before. -/
theorem Forward.append_of_map {rows new : List ρ} (h : Forward id next rows) (hnew : ∀ r ∈ new, next r = none)
    {f : ρ → ρ} (hid : ∀ r ∈ rows, id (f r) = id r)
    (hf : ∀ r ∈ rows, ∀ b, next (f r) = some b → next r = some b ∨ b ∉ rows.map id) :
    Forward id next (rows.map f ++ new) := by
  induction rows with
  | nil =>
    clear h hid hf
    induction new with
    | nil => trivial
    | cons r new ih =>
      refine ⟨fun r' hr' hb => ?_, ih fun r hr => hnew r (List.mem_cons_of_mem _ hr)⟩
      rw [hnew r' hr'] at hb
      cases hb
  | cons r rows ih =>
    rw [List.map_cons, List.cons_append, Forward]
    refine ⟨fun r' hr' hb => ?_, ih h.2 (fun r hr => hid r (List.mem_cons_of_mem _ hr)) fun x hx b hb =>
      (hf x (List.mem_cons_of_mem _ hx) b hb).imp_right fun hno hb => hno (List.mem_cons_of_mem _ hb)⟩
    rw [hid r List.mem_cons_self] at hb
    rw [← List.cons_append, ← List.map_cons] at hr'
    rcases List.mem_append.mp hr' with hr' | hr'
    · obtain ⟨x, hx, rfl⟩ := List.mem_map.mp hr'
      rcases hf x hx _ hb with hb | hno
      · exact h.1 x hx hb
      · exact hno List.mem_cons_self
    · rw [hnew r' hr'] at hb
      cases hb

/-- With unique identifiers a row points to one row at most. -/
theorem Link.right_unique {rows : List ρ} (hn : (rows.map id).Nodup) {a b c : ι} (hb : Link id next rows a b)
    (hc : Link id next rows a c) : b = c := by
  obtain ⟨r, hr, rfl, hb⟩ := hb
  obtain ⟨r', hr', he, hc⟩ := hc
  obtain rfl := List.inj_on_of_nodup_map hn hr' hr he
  exact Option.some.inj (hb.symm.trans hc)

/-- Two rows that point nowhere and are reached from one row are the same. -/
theorem eq_of_reaches_ends {rows : List ρ} (hn : (rows.map id).Nodup) {a : ι} {e e' : ρ} (he : e ∈ rows)
    (he' : e' ∈ rows) (hend : next e = none) (hend' : next e' = none) (h : Reaches id next rows a (id e))
    (h' : Reaches id next rows a (id e')) : e = e' := by
  have hstay : ∀ {x y : ρ}, x ∈ rows → next x = none → Reaches id next rows (id x) (id y) → id x = id y := by
    intro x y hx hxend hxy
    rcases ReflTransGen.cases_head hxy with heq | ⟨c, ⟨r, hr, hid, hb⟩, -⟩
    · exact heq
    · obtain rfl := List.inj_on_of_nodup_map hn hr hx hid
      rw [hxend] at hb
      cases hb
  have huniq : Relator.RightUnique (Link id next rows) := fun _ _ _ hb hc => hb.right_unique hn hc
  rcases ReflTransGen.total_of_right_unique huniq h h' with hee | hee
  · exact List.inj_on_of_nodup_map hn he he' (hstay he hend hee)
  · exact (List.inj_on_of_nodup_map hn he' he (hstay he' hend' hee)).symm

end ForecastIQ.Foundations.Chain
