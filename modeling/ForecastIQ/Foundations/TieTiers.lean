import ForecastIQ.Foundations.Keyset
import ForecastIQ.Foundations.TieGroups
import Mathlib.Data.List.Dedup

/-!
# Ranks that do not depend on the order of equal items

The items of a list are ordered by a key and then ranked in groups of ties. Items with
equal keys (a tier) may stand in any order among themselves, and then another item can
lead a group, with other items near it. `Steady` says when that makes no difference, tier
by tier: the items that may lead the last group are near all items of the next tier, or
near none of them, and in the second case the items of the tier are near each other, or
copies of one item.

The groups are read as one pass over the list, with the current leader and rank as its
state (`ranksFrom`); the pass over one tier either leaves the leader or ends with a leader
of the tier. With one rank for every order of the tiers the ranks are the same up to order
(`perm_of_steady`), and a tier that breaks the rule has two orders with different ranks
(`steady_of_perm`).
-/

namespace ForecastIQ.Foundations

variable {α κ : Type*}

/-! ### Ranks in one pass -/

/-- The items with their ranks, from a current leader and the rank of its group on. -/
@[simp] def ranksFrom (near : α → α → Bool) : Option α → ℕ → List α → List (α × ℕ)
  | _, _, [] => []
  | lead, r, x :: l =>
    if lead.any (near · x) then (x, r) :: ranksFrom near lead r l
    else (x, r + 1) :: ranksFrom near (some x) (r + 1) l

/-- The leader and its rank after the list. -/
@[simp] def leadAfter (near : α → α → Bool) : Option α → ℕ → List α → Option α × ℕ
  | lead, r, [] => (lead, r)
  | lead, r, x :: l =>
    if lead.any (near · x) then leadAfter near lead r l else leadAfter near (some x) (r + 1) l

section Pass

variable {near : α → α → Bool} {lead : Option α} {r : ℕ}

theorem ranksFrom_append (l m : List α) :
    ranksFrom near lead r (l ++ m) =
      ranksFrom near lead r l ++ ranksFrom near (leadAfter near lead r l).1 (leadAfter near lead r l).2 m := by
  induction l generalizing lead r with
  | nil => rfl
  | cons x l ih =>
    simp only [List.cons_append, ranksFrom, leadAfter]
    split_ifs
    · rw [ih, List.cons_append]
    · rw [ih, List.cons_append]

theorem map_fst_ranksFrom (l : List α) : (ranksFrom near lead r l).map Prod.fst = l := by
  induction l generalizing lead r with
  | nil => rfl
  | cons x l ih =>
    rw [ranksFrom]
    split_ifs
    · rw [List.map_cons, ih]
    · rw [List.map_cons, ih]

theorem fst_mem_of_mem_ranksFrom {l : List α} {p : α × ℕ} (h : p ∈ ranksFrom near lead r l) : p.1 ∈ l := by
  have hfst := List.mem_map_of_mem (f := Prod.fst) h
  rwa [map_fst_ranksFrom] at hfst

theorem le_of_mem_ranksFrom {l : List α} {p : α × ℕ} (h : p ∈ ranksFrom near lead r l) : r ≤ p.2 := by
  induction l generalizing lead r with
  | nil => cases h
  | cons x l ih =>
    rw [ranksFrom] at h
    split_ifs at h
    · rcases List.mem_cons.mp h with rfl | h
      · exact le_rfl
      · exact ih h
    · rcases List.mem_cons.mp h with rfl | h
      · exact Nat.le_succ r
      · exact (Nat.le_succ r).trans (ih h)

/-- Items near the leader keep its rank and leave it the leader. -/
theorem ranksFrom_near {l : List α} (h : ∀ x ∈ l, lead.any (near · x) = true) :
    ranksFrom near lead r l = l.map (·, r) ∧ leadAfter near lead r l = (lead, r) := by
  induction l with
  | nil => exact ⟨rfl, rfl⟩
  | cons x l ih =>
    obtain ⟨hx, hl⟩ := List.forall_mem_cons.mp h
    rw [ranksFrom, leadAfter, if_pos hx, if_pos hx, (ih hl).1, (ih hl).2]
    exact ⟨rfl, rfl⟩

theorem ranksFrom_far {x : α} (h : lead.any (near · x) = false) (l : List α) :
    ranksFrom near lead r (x :: l) = (x, r + 1) :: ranksFrom near (some x) (r + 1) l := by
  rw [ranksFrom, if_neg (by simp [h])]

theorem leadAfter_far {x : α} (h : lead.any (near · x) = false) (l : List α) :
    leadAfter near lead r (x :: l) = leadAfter near (some x) (r + 1) l := by
  rw [leadAfter, if_neg (by simp [h])]

/-- After a leader comes a leader. -/
theorem leadAfter_some (a : α) (r : ℕ) (l : List α) : ∃ b ∈ a :: l, (leadAfter near (some a) r l).1 = some b := by
  induction l generalizing a r with
  | nil => exact ⟨a, List.mem_cons_self, rfl⟩
  | cons x l ih =>
    rw [leadAfter]
    split_ifs
    · obtain ⟨b, hb, he⟩ := ih a r
      exact ⟨b, by rcases List.mem_cons.mp hb with rfl | hb <;> simp [*], he⟩
    · obtain ⟨b, hb, he⟩ := ih x (r + 1)
      exact ⟨b, List.mem_cons_of_mem a hb, he⟩

/-- The pass reads the groups one after the other. -/
theorem ranksFrom_some (a : α) (r : ℕ) (l : List α) :
    ranksFrom near (some a) r l =
      (l.takeWhile (near a)).map (·, r) ++ ranksFrom near none r (l.dropWhile (near a)) := by
  induction l with
  | nil => rfl
  | cons x l ih =>
    by_cases h : near a x = true
    · rw [ranksFrom, if_pos (by simpa using h), ih, List.takeWhile_cons_of_pos h, List.dropWhile_cons_of_pos h,
        List.map_cons, List.cons_append]
    · rw [List.takeWhile_cons_of_neg h, List.dropWhile_cons_of_neg h, List.map_nil, List.nil_append,
        ranksFrom_far (by simpa using h), ranksFrom_far rfl]

/-- The ranks of the pass are the numbers of the groups. -/
theorem numbered_eq_ranksFrom (r : ℕ) (l : List α) :
    (numbered (r + 1) (tieGroups near l)).map (fun p => (p.row, p.rank)) = ranksFrom near none r l := by
  induction l using tie_induction near generalizing r with
  | nil => rfl
  | cons x l ih =>
    rw [tieGroups_cons, numbered, List.map_append, ih, ranksFrom_far rfl, ranksFrom_some, List.map_map]
    rfl

end Pass

/-- Two parts of a permutation that a condition tells apart. -/
theorem perm_append_split {β : Type*} (q : β → Prop) [DecidablePred q] {a a' b b' : List β} (ha : ∀ p ∈ a, q p)
    (ha' : ∀ p ∈ a', q p) (hb : ∀ p ∈ b, ¬ q p) (hb' : ∀ p ∈ b', ¬ q p) (h : (a ++ b).Perm (a' ++ b')) :
    a.Perm a' ∧ b.Perm b' := by
  have hin : ∀ {c d : List β}, (∀ p ∈ c, q p) → (∀ p ∈ d, ¬ q p) →
      (c ++ d).filter (fun p => decide (q p)) = c ∧ (c ++ d).filter (fun p => !decide (q p)) = d := by
    intro c d hc hd
    rw [List.filter_append, List.filter_append, List.filter_eq_self.mpr (by simpa using hc),
      List.filter_eq_nil_iff.mpr (by simpa using hd), List.filter_eq_nil_iff.mpr (by simpa using hc),
      List.filter_eq_self.mpr (by simpa using hd), List.append_nil, List.nil_append]
    exact ⟨rfl, rfl⟩
  have hfst := h.filter fun p => decide (q p)
  have hsnd := h.filter fun p => !decide (q p)
  rw [(hin ha hb).1, (hin ha' hb').1] at hfst
  rw [(hin ha hb).2, (hin ha' hb').2] at hsnd
  exact ⟨hfst, hsnd⟩

/-! ### Tiers -/

/-- The list runs through the tiers one after the other, each in some order. -/
inductive Arranged : List (List α) → List α → Prop where
  | nil : Arranged [] []
  | cons {t u : List α} {ts : List (List α)} {m : List α} : u.Perm t → Arranged ts m → Arranged (t :: ts) (u ++ m)

theorem arranged_flatten (ts : List (List α)) : Arranged ts ts.flatten := by
  induction ts with
  | nil => exact .nil
  | cons t ts ih => exact .cons (.refl t) ih

theorem Arranged.perm {ts : List (List α)} {m : List α} (h : Arranged ts m) : m.Perm ts.flatten := by
  induction h with
  | nil => exact .refl _
  | cons hu _ ih => exact hu.append ih

/-- The items of the tier are near each other, or copies of one item. -/
def SelfTied (near : α → α → Bool) (t : List α) : Prop :=
  (t.Pairwise fun x y => near x y = true) ∨ ∀ x ∈ t, ∀ y ∈ t, x = y

/-- Whoever of `leads` leads the group before a tier, it is near all items of the tier or near none,
and in the second case the tier is tied in itself. Before the first group there is no leader. -/
def Steady (near : α → α → Bool) : List (Option α) → List (List α) → Prop
  | _, [] => True
  | leads, t :: ts =>
    ((∀ lead ∈ leads, ∀ x ∈ t, lead.any (near · x) = true) ∧ Steady near leads ts) ∨
      (∀ lead ∈ leads, ∀ x ∈ t, lead.any (near · x) = false) ∧ SelfTied near t ∧ Steady near (t.map some) ts

instance [DecidableEq α] (near : α → α → Bool) (t : List α) : Decidable (SelfTied near t) :=
  inferInstanceAs (Decidable (_ ∨ _))

instance Steady.decidable [DecidableEq α] (near : α → α → Bool) :
    ∀ (leads : List (Option α)) (ts : List (List α)), Decidable (Steady near leads ts)
  | _, [] => .isTrue trivial
  | leads, t :: ts =>
    have := Steady.decidable near leads ts
    have := Steady.decidable near (t.map some) ts
    inferInstanceAs (Decidable (_ ∨ _))

section Steady

variable {near : α → α → Bool} (hsymm : ∀ a b, near a b = near b a)

/-- A tier whose items are near each other, behind a leader that is near none of them. -/
theorem ranksFrom_tied {lead : Option α} {r : ℕ} {x : α} {l : List α} (hfar : lead.any (near · x) = false)
    (h : (x :: l).Pairwise fun a b => near a b = true) :
    ranksFrom near lead r (x :: l) = (x :: l).map (·, r + 1) ∧ leadAfter near lead r (x :: l) = (some x, r + 1) := by
  have hnear : ∀ y ∈ l, (some x).any (near · y) = true := (List.pairwise_cons.mp h).1
  rw [ranksFrom_far hfar, leadAfter_far hfar, (ranksFrom_near hnear).1, (ranksFrom_near hnear).2]
  exact ⟨rfl, rfl⟩

include hsymm

/-- Two orders of a tier that is tied in itself, behind leaders that are near none of it. -/
theorem tier_perm {leads : List (Option α)} {t u u' : List α} (hne : t ≠ [])
    (hfar : ∀ lead ∈ leads, ∀ x ∈ t, lead.any (near · x) = false) (htied : SelfTied near t) (hu : u.Perm t)
    (hu' : u'.Perm t) {lead lead' : Option α} (hlead : lead ∈ leads) (hlead' : lead' ∈ leads) (r : ℕ) :
    (ranksFrom near lead r u).Perm (ranksFrom near lead' r u') ∧ ∃ k, ∃ a ∈ t, ∃ a' ∈ t,
      leadAfter near lead r u = (some a, k) ∧ leadAfter near lead' r u' = (some a', k) := by
  cases u with
  | nil => exact absurd (List.nil_perm.mp hu) hne
  | cons x l =>
    cases u' with
    | nil => exact absurd (List.nil_perm.mp hu') hne
    | cons x' l' =>
      have hx : x ∈ t := hu.mem_iff.mp List.mem_cons_self
      have hx' : x' ∈ t := hu'.mem_iff.mp List.mem_cons_self
      rcases htied with hnear | hall
      · have hperm : ∀ {v : List α}, v.Perm t → v.Pairwise fun a b => near a b = true := fun hv =>
          hv.symm.pairwise hnear fun {a b} hab => (hsymm b a).trans hab
        obtain ⟨hr, hl⟩ := ranksFrom_tied (r := r) (hfar lead hlead x hx) (hperm hu)
        obtain ⟨hr', hl'⟩ := ranksFrom_tied (r := r) (hfar lead' hlead' x' hx') (hperm hu')
        rw [hr, hr']
        exact ⟨(hu.trans hu'.symm).map _, r + 1, x, hx, x', hx', hl, hl'⟩
      · -- copies of one item come in one order only
        have hcopies : ∀ {v : List α}, v.Perm t → v = List.replicate t.length x := fun hv =>
          List.eq_replicate_iff.mpr ⟨hv.length_eq, fun b hb => hall b (hv.mem_iff.mp hb) x hx⟩
        cases (hcopies hu).trans (hcopies hu').symm
        obtain ⟨a, ha, hlast⟩ : ∃ b ∈ x :: l, (leadAfter near (some x) (r + 1) l).1 = some b := leadAfter_some x _ l
        rw [ranksFrom_far (hfar lead hlead x hx), ranksFrom_far (hfar lead' hlead' x hx),
          leadAfter_far (hfar lead hlead x hx), leadAfter_far (hfar lead' hlead' x hx)]
        have ha' : a ∈ t := hu.mem_iff.mp ha
        exact ⟨.refl _, _, a, ha', a, ha', Prod.ext hlast rfl, Prod.ext hlast rfl⟩

/-- **Steady tiers give the same ranks in every order.** -/
theorem perm_of_steady {ts : List (List α)} (hne : ∀ t ∈ ts, t ≠ []) {leads : List (Option α)}
    (h : Steady near leads ts) {m m' : List α} (hm : Arranged ts m) (hm' : Arranged ts m') {lead lead' : Option α}
    (hlead : lead ∈ leads) (hlead' : lead' ∈ leads) (r : ℕ) :
    (ranksFrom near lead r m).Perm (ranksFrom near lead' r m') := by
  induction ts generalizing leads lead lead' m m' r with
  | nil =>
    cases hm
    cases hm'
    exact .refl _
  | cons t ts ih =>
    obtain ⟨ht, hts⟩ := List.forall_mem_cons.mp hne
    cases hm with
    | cons hu hm =>
      cases hm' with
      | cons hu' hm' =>
        rw [ranksFrom_append, ranksFrom_append]
        rcases h with ⟨hnear, hsteady⟩ | ⟨hfar, htied, hsteady⟩
        · obtain ⟨hr, hl⟩ := ranksFrom_near (r := r) fun x hx => hnear lead hlead x (hu.mem_iff.mp hx)
          obtain ⟨hr', hl'⟩ := ranksFrom_near (r := r) fun x hx => hnear lead' hlead' x (hu'.mem_iff.mp hx)
          rw [hr, hr', hl, hl']
          exact ((hu.trans hu'.symm).map _).append (ih hts hsteady hm hm' hlead hlead' r)
        · obtain ⟨hperm, k, a, ha, a', ha', hl, hl'⟩ := tier_perm hsymm ht hfar htied hu hu' hlead hlead' r
          rw [hl, hl']
          exact hperm.append (ih hts hsteady hm hm' (List.mem_map_of_mem ha) (List.mem_map_of_mem ha') k)

omit hsymm in
/-- A tier that is not near in itself starts, in some order, with two items that are not near. -/
theorem exists_perm_of_not_pairwise {t : List α} (h : ¬ t.Pairwise fun x y => near x y = true) :
    ∃ a b rest, (a :: b :: rest).Perm t ∧ near a b = false := by
  induction t with
  | nil => exact absurd List.Pairwise.nil h
  | cons x t ih =>
    by_cases ht : t.Pairwise fun x y => near x y = true
    · have hx : ∃ y ∈ t, near x y = false := by
        by_contra hne
        simp only [not_exists, not_and, Bool.not_eq_false] at hne
        exact h (List.pairwise_cons.mpr ⟨hne, ht⟩)
      obtain ⟨y, hy, hxy⟩ := hx
      obtain ⟨s, s', rfl⟩ := List.append_of_mem hy
      exact ⟨x, y, s ++ s', List.perm_middle.symm.cons x, hxy⟩
    · obtain ⟨a, b, rest, hperm, hab⟩ := ih ht
      refine ⟨a, b, x :: rest, ?_, hab⟩
      exact ((List.Perm.swap x b rest).cons a).trans ((List.Perm.swap x a (b :: rest)).trans (hperm.cons x))

omit hsymm in
/-- A tier with the same ranks in every order, behind a leader that is near none of it, is tied in itself. -/
theorem selfTied_of_perm {t : List α} {lead : Option α} {r : ℕ} (hfar : ∀ x ∈ t, lead.any (near · x) = false)
    (h : ∀ u u', u.Perm t → u'.Perm t → (ranksFrom near lead r u).Perm (ranksFrom near lead r u')) :
    SelfTied near t := by
  by_cases hnear : t.Pairwise fun x y => near x y = true
  · exact .inl hnear
  · -- with `a` first and `b` second, only `a` has the first rank; any item can come first
    obtain ⟨a, b, rest, hperm, hab⟩ := exists_perm_of_not_pairwise hnear
    have hfirst : ∀ z ∈ t, z = a := by
      intro z hz
      obtain ⟨s, s', rfl⟩ := List.append_of_mem hz
      have hmem : (z, r + 1) ∈ ranksFrom near lead r (z :: (s ++ s')) := by
        rw [ranksFrom_far (hfar z hz)]
        exact List.mem_cons_self
      have ha := hfar a (hperm.mem_iff.mp List.mem_cons_self)
      rw [(h _ _ List.perm_middle.symm hperm).mem_iff, ranksFrom_far ha, ranksFrom_far (by simpa using hab)] at hmem
      rcases List.mem_cons.mp hmem with he | hmem
      · exact congrArg Prod.fst he
      · rcases List.mem_cons.mp hmem with he | hmem
        · have := congrArg Prod.snd he
          simp at this
        · have : r + 1 + 1 ≤ r + 1 := le_of_mem_ranksFrom hmem
          omega
    exact .inr fun x hx y hy => (hfirst x hx).trans (hfirst y hy).symm

/-- Every item of a tied tier can be the last leader, with one rank. -/
theorem exists_leadAfter {t : List α} {lead : Option α} (r : ℕ) (hfar : ∀ x ∈ t, lead.any (near · x) = false)
    (htied : SelfTied near t) : ∃ k, ∀ a ∈ t, ∃ u, u.Perm t ∧ leadAfter near lead r u = (some a, k) := by
  rcases htied with hnear | hall
  · refine ⟨r + 1, fun a ha => ?_⟩
    obtain ⟨s, s', rfl⟩ := List.append_of_mem ha
    have hperm : (a :: (s ++ s')).Perm (s ++ a :: s') := List.perm_middle.symm
    exact ⟨_, hperm, (ranksFrom_tied (hfar a ha)
      (hperm.symm.pairwise hnear fun {x y} hxy => (hsymm y x).trans hxy)).2⟩
  · refine ⟨(leadAfter near lead r t).2, fun a ha => ⟨t, .refl t, ?_⟩⟩
    cases t with
    | nil => cases ha
    | cons x l =>
      rw [leadAfter_far (hfar x List.mem_cons_self)]
      obtain ⟨b, hb, hlast⟩ : ∃ b ∈ x :: l, (leadAfter near (some x) (r + 1) l).1 = some b := leadAfter_some x _ l
      rw [hall a ha b hb]
      exact Prod.ext hlast rfl

omit hsymm in
/-- The ranks of a tier and those of the later tiers can be told apart. -/
theorem ranks_split {t : List α} {ts : List (List α)} (hfirst : ∀ t' ∈ ts, ∀ x ∈ t, x ∉ t') {lead lead' : Option α}
    {r : ℕ} {u u' m m' : List α} (hu : u.Perm t) (hu' : u'.Perm t) (hm : Arranged ts m) (hm' : Arranged ts m')
    (h : (ranksFrom near lead r (u ++ m)).Perm (ranksFrom near lead' r (u' ++ m'))) :
    (ranksFrom near lead r u).Perm (ranksFrom near lead' r u') ∧
      (ranksFrom near (leadAfter near lead r u).1 (leadAfter near lead r u).2 m).Perm
        (ranksFrom near (leadAfter near lead' r u').1 (leadAfter near lead' r u').2 m') := by
  classical
  have hin : ∀ {v lead}, v.Perm t → ∀ p ∈ ranksFrom near lead r v, p.1 ∈ t := fun hv p hp =>
    hv.mem_iff.mp (fst_mem_of_mem_ranksFrom hp)
  have hout : ∀ {n lead k}, Arranged ts n → ∀ p ∈ ranksFrom near lead k n, p.1 ∉ t := by
    intro n lead k hn p hp hpt
    obtain ⟨t', ht', hmem⟩ := List.mem_flatten.mp (hn.perm.mem_iff.mp (fst_mem_of_mem_ranksFrom hp))
    exact hfirst t' ht' p.1 hpt hmem
  rw [ranksFrom_append, ranksFrom_append] at h
  exact perm_append_split (fun p => p.1 ∈ t) (hin hu) (hin hu') (hout hm) (hout hm') h

omit hsymm in
/-- If one leader is far from an item of a tier, and the tier has the same ranks behind every leader and in every
order, then no leader is near an item of it: the item would have the rank of its leader. -/
theorem far_of_perm {t : List α} {lead lead' : Option α} {r : ℕ} {x y : α} (hx : x ∈ t) (hy : y ∈ t)
    (hfar : lead'.any (near · y) = false)
    (h : ∀ u u', u.Perm t → u'.Perm t → (ranksFrom near lead r u).Perm (ranksFrom near lead' r u')) :
    lead.any (near · x) = false := by
  by_contra hne
  obtain ⟨s, s', hs⟩ := List.append_of_mem hx
  obtain ⟨v, v', hv⟩ := List.append_of_mem hy
  have hperm := h (x :: (s ++ s')) (y :: (v ++ v')) (hs ▸ List.perm_middle.symm) (hv ▸ List.perm_middle.symm)
  have hmem : (x, r) ∈ ranksFrom near lead r (x :: (s ++ s')) := by
    rw [ranksFrom, if_pos (eq_true_of_ne_false hne)]
    exact List.mem_cons_self
  rw [hperm.mem_iff, ranksFrom_far hfar] at hmem
  rcases List.mem_cons.mp hmem with he | hmem
  · have := congrArg Prod.snd he
    simp at this
  · have : r + 1 ≤ r := le_of_mem_ranksFrom hmem
    omega

/-- **Tiers with the same ranks in every order are steady.** -/
theorem steady_of_perm {ts : List (List α)} (hdisj : ts.Pairwise fun t t' => ∀ x ∈ t, x ∉ t')
    {leads : List (Option α)} (r : ℕ)
    (h : ∀ lead ∈ leads, ∀ lead' ∈ leads, ∀ m m', Arranged ts m → Arranged ts m' →
      (ranksFrom near lead r m).Perm (ranksFrom near lead' r m')) : Steady near leads ts := by
  induction ts generalizing leads r with
  | nil => trivial
  | cons t ts ih =>
    obtain ⟨hfirst, hrest⟩ := List.pairwise_cons.mp hdisj
    have htier : ∀ lead ∈ leads, ∀ lead' ∈ leads, ∀ u u', u.Perm t → u'.Perm t →
        (ranksFrom near lead r u).Perm (ranksFrom near lead' r u') := fun lead hlead lead' hlead' u u' hu hu' =>
      (ranks_split hfirst hu hu' (arranged_flatten ts) (arranged_flatten ts)
        (h lead hlead lead' hlead' _ _ (.cons hu (arranged_flatten ts)) (.cons hu' (arranged_flatten ts)))).1
    have hlater : ∀ lead ∈ leads, ∀ lead' ∈ leads, ∀ u u' m m', u.Perm t → u'.Perm t → Arranged ts m →
        Arranged ts m' → (ranksFrom near (leadAfter near lead r u).1 (leadAfter near lead r u).2 m).Perm
          (ranksFrom near (leadAfter near lead' r u').1 (leadAfter near lead' r u').2 m') :=
      fun lead hlead lead' hlead' u u' m m' hu hu' hm hm' =>
        (ranks_split hfirst hu hu' hm hm' (h lead hlead lead' hlead' _ _ (.cons hu hm) (.cons hu' hm'))).2
    by_cases hnear : ∀ lead ∈ leads, ∀ x ∈ t, lead.any (near · x) = true
    · refine .inl ⟨hnear, ih hrest r fun lead hlead lead' hlead' m m' hm hm' => ?_⟩
      have hperm := hlater lead hlead lead' hlead' t t m m' (.refl t) (.refl t) hm hm'
      rwa [(ranksFrom_near (hnear lead hlead)).2, (ranksFrom_near (hnear lead' hlead')).2] at hperm
    · simp only [not_forall] at hnear
      obtain ⟨lead₀, hlead₀, y, hy, hy₀⟩ := hnear
      have hfar : ∀ lead ∈ leads, ∀ x ∈ t, lead.any (near · x) = false := fun lead hlead x hx =>
        far_of_perm hx hy (eq_false_of_ne_true hy₀) (htier lead hlead lead₀ hlead₀)
      have htied : SelfTied near t := selfTied_of_perm (hfar lead₀ hlead₀) (htier lead₀ hlead₀ lead₀ hlead₀)
      obtain ⟨k, hk⟩ := exists_leadAfter hsymm r (hfar lead₀ hlead₀) htied
      refine .inr ⟨hfar, htied, ih hrest k ?_⟩
      refine List.forall_mem_map.mpr fun a ha => List.forall_mem_map.mpr fun a' ha' m m' hm hm' => ?_
      obtain ⟨u, hu, hl⟩ := hk a ha
      obtain ⟨u', hu', hl'⟩ := hk a' ha'
      have hperm := hlater lead₀ hlead₀ lead₀ hlead₀ u u' m m' hu hu' hm hm'
      rwa [hl, hl'] at hperm

end Steady

/-! ### Tiers of a key -/

section Keyed

variable [LinearOrder κ] {key : α → κ}

/-- The items of each key, from the least key on. -/
def tiersOf (key : α → κ) (l : List α) : List (List α) :=
  (ordered id (l.map key).dedup).map fun c => l.filter fun x => key x = c

/-- In an ordered list the items of the least key come first. -/
theorem filter_append_filter_of_le {c : κ} {m : List α} (hm : m.Pairwise fun a b => key a ≤ key b)
    (hc : ∀ x ∈ m, c ≤ key x) : (m.filter fun x => key x = c) ++ (m.filter fun x => key x ≠ c) = m := by
  induction m with
  | nil => rfl
  | cons x m ih =>
    obtain ⟨hx, hm⟩ := List.pairwise_cons.mp hm
    obtain ⟨hcx, hcm⟩ := List.forall_mem_cons.mp hc
    by_cases he : key x = c
    · rw [List.filter_cons_of_pos (by simpa using he), List.filter_cons_of_neg (by simpa using he), List.cons_append,
        ih hm hcm]
    · have hne : ∀ y ∈ m, key y ≠ c := fun y hy hy' =>
        he (le_antisymm ((hx y hy).trans_eq hy') hcx)
      rw [List.filter_cons_of_neg (by simpa using he), List.filter_cons_of_pos (by simpa using he),
        List.filter_eq_nil_iff.mpr (by simpa using hne), List.filter_eq_self.mpr (by simpa using hne), List.nil_append]

/-- The orders of the tiers are the permutations in the order of the key. -/
theorem arranged_map_filter_iff {vs : List κ} (hvs : vs.Pairwise (· < ·)) {l m : List α}
    (hl : ∀ x ∈ l, key x ∈ vs) :
    Arranged (vs.map fun c => l.filter fun x => key x = c) m ↔ m.Perm l ∧ m.Pairwise fun a b => key a ≤ key b := by
  induction vs generalizing l m with
  | nil =>
    have hnil : l = [] := List.eq_nil_iff_forall_not_mem.mpr fun x hx => by simpa using hl x hx
    subst hnil
    constructor
    · intro h
      cases h
      exact ⟨.refl _, .nil⟩
    · rintro ⟨h, -⟩
      rw [List.perm_nil.mp h]
      exact .nil
  | cons c vs ih =>
    obtain ⟨hc, hvs⟩ := List.pairwise_cons.mp hvs
    have hkey : ∀ x ∈ l, c ≤ key x := by
      intro x hx
      rcases List.mem_cons.mp (hl x hx) with he | hmem
      · exact he.ge
      · exact (hc _ hmem).le
    have hrest : ∀ x ∈ l.filter (fun x => key x ≠ c), key x ∈ vs := by
      intro x hx
      rw [List.mem_filter, decide_eq_true_eq] at hx
      exact (List.mem_cons.mp (hl x hx.1)).resolve_left hx.2
    have htiers : (vs.map fun c' => l.filter fun x => key x = c') =
        vs.map fun c' => (l.filter fun x => key x ≠ c).filter fun x => key x = c' := by
      refine List.map_congr_left fun c' hc' => ?_
      rw [List.filter_filter]
      refine List.filter_congr fun x _ => ?_
      rw [← Bool.decide_and, decide_eq_decide]
      exact ⟨fun he => ⟨he, fun hx => (hc c' hc').ne (hx.symm.trans he)⟩, fun he => he.1⟩
    have hparts : ((l.filter fun x => key x = c) ++ l.filter fun x => key x ≠ c).Perm l := by
      simpa using List.filter_append_perm (fun x => decide (key x = c)) l
    rw [List.map_cons, htiers]
    constructor
    · intro h
      cases h with
      | cons hu hm' =>
        obtain ⟨hperm, hsorted⟩ := (ih hvs hrest).mp hm'
        have hukey : ∀ x ∈ _, key x = c := fun x hx => by
          simpa using (List.mem_filter.mp (hu.mem_iff.mp hx)).2
        refine ⟨(hu.append hperm).trans hparts, List.pairwise_append.mpr ⟨?_, hsorted, fun a ha b hb => ?_⟩⟩
        · exact List.pairwise_of_forall_mem_list fun a ha b hb => ((hukey a ha).trans (hukey b hb).symm).le
        · rw [hukey a ha]
          exact hkey b (List.mem_filter.mp (hperm.mem_iff.mp hb)).1
    · rintro ⟨hperm, hsorted⟩
      rw [← filter_append_filter_of_le hsorted fun x hx => hkey x (hperm.mem_iff.mp hx)]
      exact .cons (hperm.filter _) ((ih hvs hrest).mpr ⟨hperm.filter _, hsorted.filter _⟩)

theorem mem_keys {l : List α} {c : κ} : c ∈ ordered id (l.map key).dedup ↔ ∃ x ∈ l, key x = c := by
  rw [mem_ordered, List.mem_dedup, List.mem_map]

theorem keys_pairwise (l : List α) : (ordered id (l.map key).dedup).Pairwise (· < ·) :=
  pairwise_lt_ordered (by simpa using List.nodup_dedup (l.map key))

theorem arranged_tiersOf_iff {l m : List α} :
    Arranged (tiersOf key l) m ↔ m.Perm l ∧ m.Pairwise fun a b => key a ≤ key b :=
  arranged_map_filter_iff (keys_pairwise l) fun x hx => mem_keys.mpr ⟨x, hx, rfl⟩

/-- **The ranks of the ordered list do not depend on the order of the items exactly when its tiers are
steady.** -/
theorem ranks_perm_iff {near : α → α → Bool} (hsymm : ∀ a b, near a b = near b a) (r : ℕ) (l : List α) :
    (∀ l', l'.Perm l → (ranksFrom near none r (ordered key l')).Perm (ranksFrom near none r (ordered key l))) ↔
      Steady near [none] (tiersOf key l) := by
  have harr : ∀ l', l'.Perm l → Arranged (tiersOf key l) (ordered key l') := fun l' hl' =>
    arranged_tiersOf_iff.mpr ⟨(ordered_perm l').trans hl', pairwise_ordered l'⟩
  constructor
  · intro h
    refine steady_of_perm hsymm ?_ r ?_
    · refine List.pairwise_map.mpr ((keys_pairwise l).imp fun {c c'} hlt x hx hx' => ?_)
      rw [List.mem_filter, decide_eq_true_eq] at hx hx'
      exact hlt.ne (hx.2.symm.trans hx'.2)
    · have heq : ∀ {m}, Arranged (tiersOf key l) m →
          (ranksFrom near none r m).Perm (ranksFrom near none r (ordered key l)) := by
        intro m hm
        obtain ⟨hperm, hsorted⟩ := arranged_tiersOf_iff.mp hm
        have hm := h m hperm
        rwa [ordered, hsorted.insertionSort_eq] at hm
      simp only [List.mem_singleton, forall_eq]
      exact fun m m' hm hm' => (heq hm).trans (heq hm').symm
  · intro h l' hl'
    refine perm_of_steady hsymm ?_ h (harr l' hl') (harr l (.refl l)) List.mem_cons_self List.mem_cons_self r
    refine List.forall_mem_map.mpr fun c hc => ?_
    obtain ⟨x, hx, he⟩ := mem_keys.mp hc
    exact List.ne_nil_of_mem (List.mem_filter.mpr ⟨hx, by simpa using he⟩)

end Keyed

/-- The flags follow from the ranks. -/
theorem numbered_perm_iff {near : α → α → Bool} {r : ℕ} {l l' : List α} :
    (numbered (r + 1) (tieGroups near l)).Perm (numbered (r + 1) (tieGroups near l')) ↔
      (ranksFrom near none r l).Perm (ranksFrom near none r l') := by
  have hflags : ∀ l : List α, numbered (r + 1) (tieGroups near l) = (ranksFrom near none r l).map fun p =>
      ⟨p.1, p.2, decide (1 < (ranksFrom near none r l).countP fun q => q.2 = p.2)⟩ := by
    intro l
    rw [← numbered_eq_ranksFrom, List.map_map]
    refine (List.map_id _).symm.trans (List.map_congr_left fun p hp => ?_)
    simp only [Function.comp_apply, List.countP_map, id_eq]
    exact congrArg (Placed.mk p.row p.rank) (tied_numbered hp)
  constructor
  · intro h
    rw [← numbered_eq_ranksFrom, ← numbered_eq_ranksFrom]
    exact h.map _
  · intro h
    rw [hflags, hflags]
    simp only [h.countP_eq]
    exact h.map _

/-- Every number of a group is a rank. -/
theorem exists_rank_numbered {base k : ℕ} {groups : List (List α)} (hne : ∀ g ∈ groups, g ≠ [])
    (hk : k < groups.length) : ∃ p ∈ numbered base groups, p.rank = base + k := by
  induction groups generalizing base k with
  | nil => cases hk
  | cons g groups ih =>
    obtain ⟨hg, hrest⟩ := List.forall_mem_cons.mp hne
    simp only [numbered, List.mem_append]
    cases k with
    | zero =>
      obtain ⟨x, hx⟩ := List.exists_mem_of_ne_nil g hg
      exact ⟨_, .inl (List.mem_map_of_mem hx), rfl⟩
    | succ k =>
      obtain ⟨p, hp, hrank⟩ := ih hrest (Nat.lt_of_succ_lt_succ hk)
      exact ⟨p, .inr hp, by omega⟩

/-- The ranks say how many groups there are. -/
theorem length_eq_of_numbered_perm {base : ℕ} {groups groups' : List (List α)} (hne : ∀ g ∈ groups, g ≠ [])
    (hne' : ∀ g ∈ groups', g ≠ []) (h : (numbered base groups).Perm (numbered base groups')) :
    groups.length = groups'.length := by
  have hle : ∀ {gs gs' : List (List α)}, (∀ g ∈ gs, g ≠ []) → (numbered base gs).Perm (numbered base gs') →
      gs.length ≤ gs'.length := by
    intro gs gs' hgs hperm
    by_contra hlt
    obtain ⟨p, hp, hrank⟩ : ∃ p ∈ numbered base gs, p.rank = base + gs'.length :=
      exists_rank_numbered hgs (not_le.mp hlt)
    have := (rank_mem_numbered (hperm.mem_iff.mp hp)).2
    omega
  exact le_antisymm (hle hne h) (hle hne' h.symm)

end ForecastIQ.Foundations
