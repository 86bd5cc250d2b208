import Mathlib.Data.List.Chain
import Mathlib.Data.List.TakeWhile

/-!
# Groups of ties

A list is read from its start, and each item either joins the last group, if it is near
the first item of that group (its leader), or starts a group of its own. So a group is a
leader and the items directly behind it that are near it, and the rest is grouped in the
same way (`tieGroups_cons`); proofs about groups go by `tie_induction`.

Numbering the groups gives each item a rank, and the flag of a tie in a group of several
(`numbered`). The items of one rank are one group (`filter_numbered`).

Being near is in general not transitive, so two items that are near each other can stand
in different groups. `LeadersCover` says of the list when this does not happen
(`separated_iff`): an item that is near none before it has all the items near it directly
behind it, and is near all the items that those are near.
-/

namespace ForecastIQ.Foundations

variable {α β : Type*}

/-! ### Groups -/

/-- The item joins the last group if it is near its leader, and starts a group otherwise. -/
def joinLast (near : α → α → Bool) (groups : List (List α)) (x : α) : List (List α) :=
  match groups.getLast? with
  | some (lead :: rest) => if near lead x then groups.dropLast ++ [lead :: rest ++ [x]] else groups ++ [[x]]
  | _ => groups ++ [[x]]

/-- The groups of a list. -/
def tieGroups (near : α → α → Bool) (l : List α) : List (List α) := l.foldl (joinLast near) []

section Groups

variable {near : α → α → Bool}

theorem joinLast_append (groups : List (List α)) (lead : α) (rest : List α) (x : α) :
    joinLast near (groups ++ [lead :: rest]) x =
      if near lead x then groups ++ [lead :: (rest ++ [x])] else groups ++ [lead :: rest] ++ [[x]] := by
  simp [joinLast]

/-- From a group with a leader on. -/
private theorem foldl_joinLast (l : List α) (groups : List (List α)) (lead : α) (rest : List α) :
    l.foldl (joinLast near) (groups ++ [lead :: rest]) =
      groups ++ (lead :: (rest ++ l.takeWhile (near lead))) :: tieGroups near (l.dropWhile (near lead)) := by
  induction l generalizing groups lead rest with
  | nil => simp [tieGroups]
  | cons x l ih =>
    rw [List.foldl_cons, joinLast_append]
    by_cases h : near lead x = true
    · rw [if_pos h, ih, List.takeWhile_cons_of_pos h, List.dropWhile_cons_of_pos h, List.append_assoc,
        List.singleton_append]
    · -- the item leads a group in both readings
      have hx : tieGroups near (x :: l) = (x :: l.takeWhile (near x)) :: tieGroups near (l.dropWhile (near x)) :=
        ih [] x []
      rw [if_neg h, ih, List.takeWhile_cons_of_neg h, List.dropWhile_cons_of_neg h, hx, List.append_nil,
        List.nil_append, List.append_assoc, List.singleton_append]

@[simp] theorem tieGroups_nil : tieGroups near [] = [] := rfl

/-- **A group is a leader with the items directly behind it that are near it**, and the rest is
grouped in the same way. -/
theorem tieGroups_cons (x : α) (l : List α) :
    tieGroups near (x :: l) = (x :: l.takeWhile (near x)) :: tieGroups near (l.dropWhile (near x)) :=
  foldl_joinLast l [] x []

/-- Induction from group to group. -/
theorem tie_induction (near : α → α → Bool) {motive : List α → Prop} (nil : motive [])
    (cons : ∀ x l, motive (l.dropWhile (near x)) → motive (x :: l)) (l : List α) : motive l := by
  induction hn : l.length using Nat.strongRecOn generalizing l with
  | _ n ih =>
    cases l with
    | nil => exact nil
    | cons x l =>
      refine cons x l (ih _ ?_ _ rfl)
      rw [← hn, List.length_cons]
      exact Nat.lt_succ_of_le (List.dropWhile_sublist _).length_le

theorem tieGroups_map (f : α → β) (near : β → β → Bool) (l : List α) :
    tieGroups near (l.map f) = (tieGroups (fun a b => near (f a) (f b)) l).map (List.map f) := by
  induction l using tie_induction (fun a b => near (f a) (f b)) with
  | nil => rfl
  | cons x l ih =>
    rw [List.map_cons, tieGroups_cons, tieGroups_cons, List.map_cons, List.map_cons, List.takeWhile_map,
      List.dropWhile_map]
    exact congrArg _ ih

/-- The groups hold the list, in its order. -/
theorem flatten_tieGroups (l : List α) : (tieGroups near l).flatten = l := by
  induction l using tie_induction near with
  | nil => rfl
  | cons x l ih => rw [tieGroups_cons, List.flatten_cons, ih, List.cons_append, List.takeWhile_append_dropWhile]

/-- A group has a leader, and the others are near it. -/
theorem mem_tieGroups {l : List α} {g : List α} (h : g ∈ tieGroups near l) :
    ∃ lead rest, g = lead :: rest ∧ ∀ y ∈ rest, near lead y = true := by
  induction l using tie_induction near with
  | nil => cases h
  | cons x l ih =>
    rw [tieGroups_cons, List.mem_cons] at h
    rcases h with rfl | h
    · exact ⟨x, _, rfl, fun y hy => List.mem_takeWhile_imp hy⟩
    · exact ih h

end Groups

/-! ### Ranks -/

/-- An item with its rank, and whether it shares it. -/
structure Placed (α : Type*) where
  row : α
  rank : ℕ
  tied : Bool
  deriving DecidableEq, Repr

/-- The groups, numbered from `base` on. -/
@[simp] def numbered (base : ℕ) : List (List α) → List (Placed α)
  | [] => []
  | g :: groups => g.map (fun x => ⟨x, base, decide (1 < g.length)⟩) ++ numbered (base + 1) groups

section Numbered

theorem numbered_append (base : ℕ) (groups groups' : List (List α)) :
    numbered base (groups ++ groups') = numbered base groups ++ numbered (base + groups.length) groups' := by
  induction groups generalizing base with
  | nil => rfl
  | cons g groups ih =>
    rw [List.cons_append, numbered, numbered, ih, List.append_assoc, List.length_cons, Nat.add_assoc, Nat.add_comm 1]

/-- The numbering as a loop over groups of indexes, with the next number and the items so far. -/
theorem foldl_numbered {ι : Type*} (f : ι → α) (groups : List (List ι)) (base : ℕ) (out : List (Placed α)) :
    groups.foldl (fun s g => (s.1 + 1, s.2 ++ g.map fun i => ⟨f i, s.1, decide (1 < g.length)⟩)) (base, out) =
      (base + groups.length, out ++ numbered base (groups.map (List.map f))) := by
  induction groups generalizing base out with
  | nil => simp [numbered]
  | cons g groups ih =>
    rw [List.foldl_cons, ih, List.map_cons, numbered, List.length_map, List.map_map, List.append_assoc,
      List.length_cons, Nat.add_assoc, Nat.add_comm 1]
    rfl

theorem map_row_numbered (base : ℕ) (groups : List (List α)) :
    (numbered base groups).map Placed.row = groups.flatten := by
  induction groups generalizing base with
  | nil => rfl
  | cons g groups ih =>
    rw [numbered, List.map_append, List.map_map, ih, List.flatten_cons]
    exact congrArg (· ++ _) (List.map_id g)

theorem rank_mem_numbered {base : ℕ} {groups : List (List α)} {p : Placed α} (h : p ∈ numbered base groups) :
    base ≤ p.rank ∧ p.rank < base + groups.length := by
  induction groups generalizing base with
  | nil => cases h
  | cons g groups ih =>
    rw [numbered, List.mem_append, List.mem_map] at h
    rw [List.length_cons]
    rcases h with ⟨x, -, rfl⟩ | h
    · exact ⟨le_rfl, Nat.lt_add_of_pos_right (Nat.succ_pos _)⟩
    · have := ih h
      omega

/-- **The items of one rank are one group**, and they are tied when there are several. -/
theorem filter_numbered {base : ℕ} {groups : List (List α)} {p : Placed α} (h : p ∈ numbered base groups) :
    ∃ g ∈ groups, p.row ∈ g ∧ p.tied = decide (1 < g.length) ∧
      (numbered base groups).filter (fun q => q.rank = p.rank) = g.map fun x => ⟨x, p.rank, p.tied⟩ := by
  induction groups generalizing base with
  | nil => cases h
  | cons g groups ih =>
    rw [numbered, List.mem_append, List.mem_map] at h
    rcases h with ⟨x, hx, rfl⟩ | h
    · have hrest : (numbered (base + 1) groups).filter (fun q => q.rank = base) = [] := by
        refine List.filter_eq_nil_iff.mpr fun q hq => ?_
        have := (rank_mem_numbered hq).1
        simp only [decide_eq_true_eq]
        omega
      refine ⟨g, List.mem_cons_self, hx, rfl, ?_⟩
      rw [numbered, List.filter_append, hrest, List.append_nil]
      exact List.filter_eq_self.mpr (by simp)
    · obtain ⟨g', hg', hrow, htied, hfilter⟩ := ih h
      have hfirst : (g.map fun x => (⟨x, base, decide (1 < g.length)⟩ : Placed α)).filter
          (fun q => q.rank = p.rank) = [] := by
        have := (rank_mem_numbered h).1
        refine List.filter_eq_nil_iff.mpr (List.forall_mem_map.mpr fun x _ => ?_)
        simp only [decide_eq_true_eq]
        omega
      refine ⟨g', List.mem_cons_of_mem g hg', hrow, htied, ?_⟩
      rw [numbered, List.filter_append, hfirst, List.nil_append, hfilter]

/-- An item is tied exactly when it shares its rank. -/
theorem tied_numbered {base : ℕ} {groups : List (List α)} {p : Placed α} (h : p ∈ numbered base groups) :
    p.tied = decide (1 < (numbered base groups).countP fun q => q.rank = p.rank) := by
  obtain ⟨g, -, -, htied, hfilter⟩ := filter_numbered h
  rw [List.countP_eq_length_filter, hfilter, List.length_map, htied]

/-- The ranks go up by one from group to group. -/
theorem isChain_numbered (base : ℕ) {groups : List (List α)} (hne : ∀ g ∈ groups, g ≠ []) :
    (∀ p ∈ (numbered base groups).head?, p.rank = base) ∧
      (numbered base groups).IsChain fun p q => q.rank = p.rank ∨ q.rank = p.rank + 1 := by
  induction groups generalizing base with
  | nil => simp [numbered]
  | cons g groups ih =>
    obtain ⟨hg, hrest⟩ := List.forall_mem_cons.mp hne
    obtain ⟨hhead, hchain⟩ := ih (base + 1) hrest
    have hgroup : ∀ p ∈ g.map fun x => (⟨x, base, decide (1 < g.length)⟩ : Placed α), p.rank = base :=
      List.forall_mem_map.mpr fun _ _ => rfl
    rw [numbered]
    refine ⟨fun p hp => ?_, List.isChain_append.mpr ⟨?_, hchain, fun p hp q hq => ?_⟩⟩
    · rw [List.head?_append_of_ne_nil _ (by simpa using hg)] at hp
      exact hgroup p (List.mem_of_mem_head? hp)
    · refine List.Pairwise.isChain (List.pairwise_iff_forall_sublist.mpr fun {p q} hpq => .inl ?_)
      rw [hgroup p (hpq.subset (by simp)), hgroup q (hpq.subset (by simp))]
    · rw [hgroup p (List.mem_of_mem_getLast? hp), hhead q hq]
      exact .inr rfl

end Numbered

/-! ### Items near each other -/

/-- No item is near an item of a later group. -/
def Separated (near : α → α → Bool) (l : List α) : Prop :=
  (tieGroups near l).Pairwise fun g h => ∀ x ∈ g, ∀ y ∈ h, near x y = false

/-- The items near `x` come before the others, and `x` is near all that they are near. -/
def Covers (near : α → α → Bool) (x : α) (rest : List α) : Prop :=
  (rest.Pairwise fun z y => near x y = true → near x z = true) ∧
    ∀ y ∈ rest, near x y = true → ∀ z ∈ rest, near y z = true → near x z = true

/-- Every item that is near none before it covers the items behind it. -/
def LeadersCover (near : α → α → Bool) : List α → List α → Prop
  | _, [] => True
  | before, x :: rest =>
    ((∀ w ∈ before, near w x = false) → Covers near x rest) ∧ LeadersCover near (before ++ [x]) rest

instance (near : α → α → Bool) (x : α) (rest : List α) : Decidable (Covers near x rest) :=
  inferInstanceAs (Decidable (_ ∧ _))

instance LeadersCover.decidable (near : α → α → Bool) : ∀ before l : List α, Decidable (LeadersCover near before l)
  | _, [] => .isTrue trivial
  | before, x :: rest =>
    have := LeadersCover.decidable near (before ++ [x]) rest
    inferInstanceAs (Decidable (_ ∧ _))

section Separated

variable {near : α → α → Bool}

theorem separated_cons (x : α) (l : List α) :
    Separated near (x :: l) ↔
      (∀ u ∈ x :: l.takeWhile (near x), ∀ v ∈ l.dropWhile (near x), near u v = false) ∧
        Separated near (l.dropWhile (near x)) := by
  have hmem : ∀ v, v ∈ l.dropWhile (near x) ↔ ∃ h ∈ tieGroups near (l.dropWhile (near x)), v ∈ h := by
    intro v
    rw [← List.mem_flatten, flatten_tieGroups]
  rw [Separated, tieGroups_cons, List.pairwise_cons]
  refine and_congr_left fun _ => ⟨fun h u hu v hv => ?_, fun h g hg u hu v hv => h u hu v ((hmem v).mpr ⟨g, hg, hv⟩)⟩
  obtain ⟨g, hg, hv⟩ := (hmem v).mp hv
  exact h g hg u hu v hv

/-- If the items near `x` come before the others, the run of them is all of them. -/
theorem far_of_mem_dropWhile {x : α} {l : List α} (h : l.Pairwise fun z y => near x y = true → near x z = true) :
    ∀ v ∈ l.dropWhile (near x), near x v = false := by
  cases hd : l.dropWhile (near x) with
  | nil => simp
  | cons d rest =>
    have hfirst : near x d = false := by
      have hhead := List.head?_dropWhile_not (near x) l
      rw [hd] at hhead
      simpa using hhead
    rw [← List.takeWhile_append_dropWhile (p := near x) (l := l), hd] at h
    have hpair := (List.pairwise_cons.mp (List.pairwise_append.mp h).2.1).1
    refine List.forall_mem_cons.mpr ⟨hfirst, fun v hv => ?_⟩
    by_contra hne
    rw [hpair v hv (eq_true_of_ne_false hne)] at hfirst
    cases hfirst

/-- An item covers what is behind it exactly when its group is near nothing behind the group. -/
theorem covers_iff (x : α) (l : List α) :
    Covers near x l ↔ ∀ u ∈ x :: l.takeWhile (near x), ∀ v ∈ l.dropWhile (near x), near u v = false := by
  have hnear : ∀ y ∈ l.takeWhile (near x), near x y = true := fun y hy => List.mem_takeWhile_imp hy
  have hsplit : ∀ y ∈ l, y ∈ l.takeWhile (near x) ∨ y ∈ l.dropWhile (near x) := by
    intro y hy
    rwa [← List.mem_append, List.takeWhile_append_dropWhile]
  constructor
  · rintro ⟨hbefore, hcover⟩
    have hx := far_of_mem_dropWhile hbefore
    refine List.forall_mem_cons.mpr ⟨hx, fun u hu v hv => ?_⟩
    by_contra hne
    have hv' : v ∈ l := (List.dropWhile_sublist _).subset hv
    have hu' : u ∈ l := (List.takeWhile_sublist _).subset hu
    have := hcover u hu' (hnear u hu) v hv' (eq_true_of_ne_false hne)
    rw [hx v hv] at this
    cases this
  · intro h
    have hx : ∀ v ∈ l.dropWhile (near x), near x v = false := h x List.mem_cons_self
    refine ⟨?_, fun y hy hxy z hz hyz => ?_⟩
    · rw [← List.takeWhile_append_dropWhile (p := near x) (l := l), List.pairwise_append]
      refine ⟨?_, ?_, fun z hz y _ _ => hnear z hz⟩
      · exact List.pairwise_of_forall_mem_list fun z hz _ _ _ => hnear z hz
      · refine List.pairwise_of_forall_mem_list fun _ _ y hy hxy => ?_
        rw [hx y hy] at hxy
        cases hxy
    · rcases hsplit z hz with hz | hz
      · exact hnear z hz
      · rcases hsplit y hy with hy | hy
        · rw [h y (List.mem_cons_of_mem x hy) z hz] at hyz
          cases hyz
        · rw [hx y hy] at hxy
          cases hxy

/-- Items that are near one before them do not matter. -/
theorem leadersCover_append {before l l' : List α} (h : ∀ y ∈ l, ∃ w ∈ before, near w y = true) :
    LeadersCover near before (l ++ l') ↔ LeadersCover near (before ++ l) l' := by
  induction l generalizing before with
  | nil => simp
  | cons x l ih =>
    obtain ⟨⟨w, hw, hwx⟩, hl⟩ := List.forall_mem_cons.mp h
    have hskip : ¬ ∀ w ∈ before, near w x = false := fun hall => by simp [hall w hw] at hwx
    rw [List.cons_append, LeadersCover, ih fun y hy => ?_, List.append_assoc, List.singleton_append]
    · exact and_iff_right fun hall => absurd hall hskip
    · obtain ⟨v, hv, hvy⟩ := hl y hy
      exact ⟨v, List.mem_append_left _ hv, hvy⟩

/-- **Items near each other are in one group exactly when the leaders cover what is behind them.** -/
theorem separated_iff {l : List α} : Separated near l ↔ LeadersCover near [] l := by
  suffices hgen : ∀ before : List α, (∀ w ∈ before, ∀ v ∈ l, near w v = false) →
      (Separated near l ↔ LeadersCover near before l) from hgen [] (by simp)
  induction l using tie_induction near with
  | nil => exact fun _ _ => ⟨fun _ => trivial, fun _ => List.Pairwise.nil⟩
  | cons x l ih =>
    intro before hbefore
    have hx : ∀ w ∈ before, near w x = false := fun w hw => hbefore w hw x List.mem_cons_self
    rw [separated_cons, ← covers_iff, LeadersCover, forall_prop_of_true hx]
    refine and_congr_right fun hcovers => ?_
    have hsep := (covers_iff x l).mp hcovers
    -- the rest of the group is near its leader, and nothing before is near what is behind the group
    have hgroup : ∀ y ∈ l.takeWhile (near x), ∃ w ∈ before ++ [x], near w y = true := fun y hy =>
      ⟨x, List.mem_append_right _ List.mem_cons_self, List.mem_takeWhile_imp hy⟩
    have hskip : LeadersCover near (before ++ [x]) (l.takeWhile (near x) ++ l.dropWhile (near x)) ↔ _ :=
      leadersCover_append hgroup
    rw [List.takeWhile_append_dropWhile] at hskip
    rw [hskip, List.append_assoc]
    refine ih _ fun w hw v hv => ?_
    rcases List.mem_append.mp hw with hw | hw
    · exact hbefore w hw v (List.mem_cons_of_mem x ((List.dropWhile_sublist _).subset hv))
    · exact hsep w hw v hv

/-- Groups are separated exactly when items near each other have the same rank. -/
theorem pairwise_groups_iff (hsymm : ∀ a b, near a b = near b a) (base : ℕ) (groups : List (List α)) :
    (groups.Pairwise fun g h => ∀ x ∈ g, ∀ y ∈ h, near x y = false) ↔
      ∀ p ∈ numbered base groups, ∀ q ∈ numbered base groups, near p.row q.row = true → p.rank = q.rank := by
  induction groups generalizing base with
  | nil => simp [numbered]
  | cons g groups ih =>
    have hrow : ∀ y, y ∈ groups.flatten ↔ ∃ q ∈ numbered (base + 1) groups, q.row = y := by
      intro y
      rw [← map_row_numbered (base + 1), List.mem_map]
    simp only [numbered, List.forall_mem_append, List.forall_mem_map]
    rw [List.pairwise_cons, ih (base + 1)]
    constructor
    · rintro ⟨hfirst, hrest⟩
      have hfar : ∀ x ∈ g, ∀ q ∈ numbered (base + 1) groups, near x q.row = false := by
        intro x hx q hq
        obtain ⟨h, hh, hy⟩ := List.mem_flatten.mp ((hrow q.row).mpr ⟨q, hq, rfl⟩)
        exact hfirst h hh x hx q.row hy
      refine ⟨fun x hx => ⟨fun _ _ _ => trivial, fun q hq hnear => ?_⟩, fun p hp => ⟨fun y hy hnear => ?_, hrest p hp⟩⟩
      · rw [hfar x hx q hq] at hnear
        cases hnear
      · rw [hsymm, hfar y hy p hp] at hnear
        cases hnear
    · rintro ⟨hfirst, hrest⟩
      refine ⟨fun h hh x hx y hy => ?_, fun p hp => (hrest p hp).2⟩
      obtain ⟨q, hq, rfl⟩ := (hrow y).mp (List.mem_flatten.mpr ⟨h, hh, hy⟩)
      by_contra hne
      have hrank := (hfirst x hx).2 q hq (eq_true_of_ne_false hne)
      have := (rank_mem_numbered hq).1
      omega

end Separated

end ForecastIQ.Foundations
