import Mathlib.Data.List.Nodup
import Mathlib.Data.List.Induction

/-!
# Loops over a list

The loops of the modelled code that keep something in an accumulator, and what they
leave in it.

A loop that keeps one accumulator for each key, created when the key is first seen
and listed in the order of first appearance. `groupFold` is that loop, over any keys,
items and accumulators. Its result has one entry for each key of the list, whose
accumulator is the fold of the items with that key, in order (`mem_groupFold`).

Going through the items key by key only reorders them (`perm_flatMap_filter`).

A loop over the items with their positions that collects what it accepts and counts the
rest collects the accepted items in order (`foldl_accept`).

A loop that keeps the better of two items ends with one of the items (`foldl_best_mem`), and
none is better (`not_better_foldl_best`).
-/

namespace ForecastIQ.Foundations

variable {κ α β : Type*} [DecidableEq κ]

/-- Apply `f` to the accumulator of key `k`, which starts as `init` when `k` is new. -/
@[simp] def upsert (init : α) (k : κ) (f : α → α) : List (κ × α) → List (κ × α)
  | [] => [(k, f init)]
  | (i, a) :: rest => if i = k then (i, f a) :: rest else (i, a) :: upsert init k f rest

/-- Fold each item into the accumulator of its key. -/
def groupFold (key : β → κ) (step : α → β → α) (init : α) (l : List β) : List (κ × α) :=
  l.foldl (fun g b => upsert init (key b) (fun a => step a b) g) []

theorem mem_upsert_of_ne {init : α} {k i : κ} {f : α → α} {a : α} (h : i ≠ k) :
    ∀ {g : List (κ × α)}, (i, a) ∈ upsert init k f g ↔ (i, a) ∈ g
  | [] => by simp [upsert, h]
  | (j, b) :: rest => by
    by_cases hj : j = k
    · subst hj
      simp [upsert, h]
    · simp [upsert, hj, mem_upsert_of_ne h (g := rest)]

theorem keys_upsert {init : α} {k : κ} {f : α → α} :
    ∀ {g : List (κ × α)} {i : κ}, i ∈ (upsert init k f g).map Prod.fst ↔ i = k ∨ i ∈ g.map Prod.fst
  | [], i => by simp [upsert]
  | (j, b) :: rest, i => by
    by_cases hj : j = k
    · subst hj
      simp [upsert]
    · simp only [upsert, hj, if_false, List.map_cons, List.mem_cons, keys_upsert (g := rest)]
      tauto

theorem nodup_keys_upsert {init : α} {k : κ} {f : α → α} :
    ∀ {g : List (κ × α)}, (g.map Prod.fst).Nodup → ((upsert init k f g).map Prod.fst).Nodup
  | [], _ => by simp [upsert]
  | (j, b) :: rest, h => by
    obtain ⟨h1, h2⟩ := List.nodup_cons.mp h
    by_cases hj : j = k
    · subst hj
      simpa [upsert] using ⟨by simpa using h1, h2⟩
    · simp only [upsert, hj, if_false, List.map_cons, List.nodup_cons]
      refine ⟨fun hm => ?_, nodup_keys_upsert h2⟩
      rcases keys_upsert.mp hm with rfl | hm
      · exact hj rfl
      · exact h1 hm

/-- The accumulator of the key written to: the old one with `f` applied, or a new one. -/
theorem mem_upsert_self {init : α} {k : κ} {f : α → α} {a : α} :
    ∀ {g : List (κ × α)}, (g.map Prod.fst).Nodup →
      ((k, a) ∈ upsert init k f g ↔
        (∃ b, (k, b) ∈ g ∧ a = f b) ∨ (k ∉ g.map Prod.fst ∧ a = f init))
  | [], _ => by simp [upsert]
  | (j, b) :: rest, h => by
    obtain ⟨h1, h2⟩ := List.nodup_cons.mp h
    by_cases hj : j = k
    · subst hj
      have hr : ∀ c, (j, c) ∉ rest := fun c hc => h1 (List.mem_map.mpr ⟨_, hc, rfl⟩)
      simp [upsert, hr]
    · have hj' : ¬ k = j := fun e => hj e.symm
      simp [upsert, hj, hj', mem_upsert_self h2]

theorem nodup_keys_groupFold (key : β → κ) (step : α → β → α) (init : α) (l : List β) :
    ((groupFold key step init l).map Prod.fst).Nodup := by
  suffices h : ∀ g : List (κ × α), (g.map Prod.fst).Nodup →
      ((l.foldl (fun g b => upsert init (key b) (fun a => step a b) g) g).map Prod.fst).Nodup from
    h [] List.nodup_nil
  induction l with
  | nil => exact fun g hg => hg
  | cons b l ih => exact fun g hg => ih _ (nodup_keys_upsert hg)

/-- One entry for each key, holding the fold of the items with that key. -/
theorem mem_groupFold {key : β → κ} {step : α → β → α} {init : α} {l : List β} {k : κ} {a : α} :
    (k, a) ∈ groupFold key step init l ↔
      k ∈ l.map key ∧ a = (l.filter fun b => key b = k).foldl step init := by
  -- the accumulators grow at the end of the list, so the induction is from the right
  induction l using List.reverseRecOn generalizing a with
  | nil => simp [groupFold]
  | append_singleton l b ih =>
    have hg : groupFold key step init (l ++ [b]) =
        upsert init (key b) (fun a => step a b) (groupFold key step init l) := by
      simp [groupFold]
    rw [hg]
    by_cases hk : key b = k
    · subst hk
      have hkeys : key b ∈ (groupFold key step init l).map Prod.fst ↔ key b ∈ l.map key := by
        rw [List.mem_map]
        constructor
        · rintro ⟨⟨i, c⟩, hm, rfl⟩
          exact (ih.mp hm).1
        · exact fun hm => ⟨(key b, _), ih.mpr ⟨hm, rfl⟩, rfl⟩
      rw [mem_upsert_self (nodup_keys_groupFold ..), hkeys]
      simp only [ih, List.filter_append, List.foldl_append, List.map_append, List.mem_append]
      constructor
      · rintro (⟨c, ⟨hm, rfl⟩, rfl⟩ | ⟨hn, rfl⟩)
        · simp
        · have : l.filter (fun c => key c = key b) = [] := by
            rw [List.filter_eq_nil_iff]
            exact fun c hc he => hn (List.mem_map.mpr ⟨c, hc, by simpa using he⟩)
          simp [this]
      · rintro ⟨-, rfl⟩
        by_cases hm : key b ∈ l.map key
        · exact .inl ⟨_, ⟨hm, rfl⟩, by simp⟩
        · have : l.filter (fun c => key c = key b) = [] := by
            rw [List.filter_eq_nil_iff]
            exact fun c hc he => hm (List.mem_map.mpr ⟨c, hc, by simpa using he⟩)
          exact .inr ⟨hm, by simp [this]⟩
    · rw [mem_upsert_of_ne (Ne.symm hk), ih]
      simp [hk, Ne.symm hk]

/-- The accumulator of a key in the result of `groupFold`. -/
def groupOf (groups : List (κ × α)) (k : κ) : Option α := (groups.find? fun g => g.1 = k).map Prod.snd

/-- A key of the list has the fold of its items; another key has nothing. -/
theorem groupOf_groupFold (key : β → κ) (step : α → β → α) (init : α) (l : List β) (k : κ) :
    groupOf (groupFold key step init l) k =
      if k ∈ l.map key then some ((l.filter fun b => key b = k).foldl step init) else none := by
  rw [groupOf]
  cases hf : (groupFold key step init l).find? fun g => g.1 = k with
  | none =>
    rw [if_neg, Option.map_none]
    intro hk
    exact absurd (mem_groupFold.mpr ⟨hk, rfl⟩) fun hm => List.find?_eq_none.mp hf _ hm (decide_eq_true rfl)
  | some g =>
    obtain ⟨k', a⟩ := g
    have hkey := List.find?_some hf
    rw [decide_eq_true_eq] at hkey
    subst hkey
    obtain ⟨hk, rfl⟩ := mem_groupFold.mp (List.mem_of_find?_eq_some hf)
    rw [if_pos hk, Option.map_some]

/-! ### Accepting and counting -/

section Accepting

variable {σ γ : Type*}

/-- What no step changes, the loop does not change. -/
theorem foldl_unchanged {step : σ → β → σ} {f : σ → γ} (h : ∀ s b, f (step s b) = f s) (l : List β) (s : σ) :
    f (l.foldl step s) = f s := by
  induction l generalizing s with
  | nil => rfl
  | cons b l ih => exact (ih (step s b)).trans (h s b)

/-- What only some of the items write, these alone decide. -/
theorem foldl_written {q : β → Bool} {step : σ → β → σ} {f : σ → γ} (g : γ → β → γ)
    (h : ∀ s b, f (step s b) = if q b then g (f s) b else f s) (l : List β) (s : σ) :
    f (l.foldl step s) = (l.filter q).foldl g (f s) := by
  rw [List.foldl_filter]
  exact (List.foldl_hom f fun s b => (h s b).symm).symm

/-- The accepted items are collected in order, and the others counted. -/
theorem foldl_accept {step : σ → β × ℕ → σ} {f : σ → List γ} {g : σ → ℕ} {accept : β → Option γ}
    (hf : ∀ s b, f (step s b) = f s ++ (accept b.1).toList)
    (hg : ∀ s b, g (step s b) + (accept b.1).toList.length = g s + 1) (l : List β) (k : ℕ) (s : σ) :
    f ((l.zipIdx k).foldl step s) = f s ++ l.filterMap accept ∧
      g ((l.zipIdx k).foldl step s) + (l.filterMap accept).length = g s + l.length := by
  induction l generalizing k s with
  | nil => simp
  | cons b l ih =>
    rw [List.zipIdx_cons, List.foldl_cons]
    obtain ⟨h1, h2⟩ := ih (k + 1) (step s (b, k))
    have hb := hg s (b, k)
    have hcons : (b :: l).filterMap accept = (accept b).toList ++ l.filterMap accept := by
      cases h : accept b <;> simp [h]
    rw [h1, hf, hcons]
    refine ⟨List.append_assoc _ _ _, ?_⟩
    simp only [List.length_append, List.length_cons] at hb ⊢
    omega

end Accepting

/-! ### Items in any order -/

/-- What is left of a list when at most one item is left, whatever the order. -/
theorem filter_eq_of_perm {q : β → Bool} {l l' : List β} (h : l.Perm l') (h1 : (l'.filter q).length ≤ 1) :
    l.filter q = l'.filter q := by
  have hp := h.filter q
  match hf : l'.filter q with
  | [] => rw [hf] at hp; exact List.perm_nil.mp hp
  | [b] => rw [hf] at hp; exact List.perm_singleton.mp hp
  | _ :: _ :: _ => rw [hf] at h1; simp at h1

omit [DecidableEq κ] in
/-- If the items have different keys, at most one of those with the same key is left. -/
theorem length_filter_le_one {key : β → κ} {q : β → Bool} {l : List β} (h : (l.map key).Nodup)
    (hq : ∀ b c, q b = true → q c = true → key b = key c) : (l.filter q).length ≤ 1 := by
  have hnd : ((l.filter q).map key).Nodup := h.sublist (List.filter_sublist.map key)
  have hmem : ∀ b ∈ l.filter q, q b = true := fun b hb => (List.mem_filter.mp hb).2
  match hf : l.filter q with
  | [] => simp
  | [b] => simp
  | b :: c :: rest =>
    rw [hf] at hnd hmem
    have hbc : key b = key c := hq b c (hmem b (by simp)) (hmem c (by simp))
    simp [hbc] at hnd

/-- The items of each key, key by key, are the items. -/
theorem perm_flatMap_filter {key : β → κ} {keys : List κ} (hn : keys.Nodup) {l : List β} (h : ∀ b ∈ l, key b ∈ keys) :
    (keys.flatMap fun k => l.filter fun b => key b = k).Perm l := by
  induction keys generalizing l with
  | nil =>
    have hl : l = [] := List.eq_nil_iff_forall_not_mem.mpr fun b hb => List.not_mem_nil (h b hb)
    rw [hl]
    exact List.Perm.refl _
  | cons k keys ih =>
    obtain ⟨hk, hn⟩ := List.nodup_cons.mp hn
    -- the other keys see only the items that do not have this one
    have hrest : (keys.flatMap fun i => l.filter fun b => key b = i) =
        keys.flatMap fun i => (l.filter fun b => !decide (key b = k)).filter fun b => key b = i := by
      refine List.flatMap_congr fun i hi => ?_
      rw [List.filter_filter]
      refine List.filter_congr fun b _ => ?_
      by_cases hb : key b = i
      · have hne : key b ≠ k := fun he => hk (by rw [← he, hb]; exact hi)
        simp [hb, hb ▸ hne]
      · simp [hb]
    have hstep := ih hn (l := l.filter fun b => !decide (key b = k)) fun b hb => by
      rw [List.mem_filter, Bool.not_eq_true', decide_eq_false_iff_not] at hb
      exact (List.mem_cons.mp (h b hb.1)).resolve_left hb.2
    rw [List.flatMap_cons, hrest]
    exact (hstep.append_left _).trans (List.filter_append_perm _ l)

/-! ### Keeping the best -/

section Best

variable (better : β → β → Prop) [DecidableRel better]

theorem foldl_best_mem (l : List β) (m : β) : l.foldl (fun m x => if better x m then x else m) m ∈ m :: l := by
  induction l generalizing m with
  | nil => exact List.mem_singleton_self m
  | cons x l ih =>
    rw [List.foldl_cons]
    split_ifs
    · exact List.mem_cons_of_mem _ (ih x)
    · rcases List.mem_cons.mp (ih m) with h | h
      · rw [h]
        exact List.mem_cons_self
      · exact List.mem_cons_of_mem _ (List.mem_cons_of_mem _ h)

theorem not_better_foldl_best (hasymm : ∀ a b, better a b → ¬ better b a)
    (htrans : ∀ a b c, ¬ better b a → ¬ better c b → ¬ better c a) (l : List β) (m : β) :
    ∀ x ∈ m :: l, ¬ better x (l.foldl (fun m x => if better x m then x else m) m) := by
  induction l generalizing m with
  | nil =>
    intro x hx
    rw [List.mem_singleton.mp hx]
    exact fun h => hasymm m m h h
  | cons y l ih =>
    rw [List.foldl_cons]
    split_ifs with hy
    · have hyl := List.forall_mem_cons.mp (ih y)
      exact List.forall_mem_cons.mpr ⟨htrans _ _ _ hyl.1 (hasymm y m hy), List.forall_mem_cons.mpr hyl⟩
    · have hml := List.forall_mem_cons.mp (ih m)
      exact List.forall_mem_cons.mpr ⟨hml.1, List.forall_mem_cons.mpr ⟨htrans _ _ _ hml.1 hy, hml.2⟩⟩

end Best

end ForecastIQ.Foundations
