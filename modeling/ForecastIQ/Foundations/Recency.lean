import Mathlib.Data.List.Basic
import Mathlib.Data.List.Infix
import Mathlib.Data.List.Nodup

/-!
# Recency lists

A bounded list of items with distinct keys, the most recently used first. Looking an item up moves
it to the front, unless it fails a test (it is too old), and then it is removed. Storing an item
puts it at the front, in the place of the item with its key if there is one, and drops what is
over the bound.

What the list holds is told by its history, the log of what was stored, found and evicted
(`History`): an item in the list is the last one stored with its key, and its key was not evicted
since; the list is ordered by the last use of the keys; and what was stored and not evicted
since is in the list, or it has failed the test. Each operation keeps this
(`History.hit`, `History.expire`, `History.store`).
-/

namespace ForecastIQ.Foundations.Recency

variable {α κ : Type*} [DecidableEq κ] (key : α → κ)

/-- The items with another key. -/
def without (k : κ) (l : List α) : List α := l.filter fun a => key a ≠ k

/-- Look up the item of a key, which goes to the front if it passes the test and is removed otherwise. -/
def lookup (live : α → Bool) (k : κ) (l : List α) : Option α × List α :=
  match l.find? fun a => key a = k with
  | none => (none, l)
  | some a => if live a then (some a, a :: without key k l) else (none, without key k l)

/-- Store an item at the front, and keep at most `cap` items. -/
def store (cap : ℕ) (a : α) (l : List α) : List α := (a :: without key (key a) l).take cap

/-- The keys of the items over the bound, the last item first. -/
def overBound (cap : ℕ) (a : α) (l : List α) : List κ := ((a :: without key (key a) l).drop cap).reverse.map key

/-! ### The log -/

/-- What happens to a recency list. -/
inductive Event (α κ : Type*) where
  | stored (a : α)
  | hit (k : κ)
  | evicted (k : κ)

/-- The key that is used: stored, or found. -/
def Event.use : Event α κ → Option κ
  | stored a => some (key a)
  | hit k => some k
  | evicted _ => none

/-- The keys used, the last one at the end. -/
def uses (log : List (Event α κ)) : List κ := log.filterMap (Event.use key)

/-- The item, if the event stores one with the key. -/
def Event.storedFor (k : κ) : Event α κ → Option α
  | stored a => if key a = k then some a else none
  | _ => none

/-- The last item stored with the key. -/
def lastStored (k : κ) (log : List (Event α κ)) : Option α := (log.filterMap (Event.storedFor key k)).getLast?

/-- The key was evicted and not stored again. -/
def EvictedSince (k : κ) (log : List (Event α κ)) : Prop :=
  ∃ before after, log = before ++ .evicted k :: after ∧ ∀ a, Event.stored a ∈ after → key a ≠ k

/-- The last use of the first key is older than the last use of the second one. -/
def UsedBefore (used : List κ) (k k' : κ) : Prop := ∃ after, after <:+ used ∧ k' ∈ after ∧ k ∉ after

variable {key}

theorem mem_without {k : κ} {l : List α} {a : α} : a ∈ without key k l ↔ a ∈ l ∧ key a ≠ k := by
  simp [without]

theorem without_sublist (k : κ) (l : List α) : (without key k l).Sublist l := List.filter_sublist

theorem without_eq_self {k : κ} {l : List α} (h : k ∉ l.map key) : without key k l = l := by
  refine List.filter_eq_self.mpr fun a ha => ?_
  have hne : key a ≠ k := fun he => h (he ▸ List.mem_map_of_mem ha)
  simpa using hne

/-- What storing an item takes out of the list are the items over the bound. -/
theorem filter_notMem_store {l : List α} (hl : (l.map key).Nodup) {cap : ℕ} (hcap : 0 < cap) (a : α) :
    ((l.map key).filter fun k => k ∉ (store key cap a l).map key).reverse = overBound key cap a l := by
  obtain ⟨cap, rfl⟩ := Nat.exists_eq_succ_of_ne_zero hcap.ne'
  have hstore : (store key (cap + 1) a l).map key = key a :: ((without key (key a) l).take cap).map key := rfl
  have hrest : ((without key (key a) l).map key).Nodup := hl.sublist ((without_sublist (key a) l).map key)
  have hsplit := List.take_append_drop cap (without key (key a) l)
  generalize (without key (key a) l).take cap = kept at hstore hsplit
  rw [overBound, Nat.succ_eq_add_one, List.drop_succ_cons, List.map_reverse, hstore]
  congr 1
  generalize (without key (key a) l).drop cap = dropped at hsplit ⊢
  have hdrop : (l.map key).filter (fun k => k ∉ key a :: kept.map key) =
      ((without key (key a) l).map key).filter fun k => k ∉ kept.map key := by
    rw [without, List.filter_map, List.filter_map, List.filter_filter]
    refine congrArg (List.map key) (List.filter_congr fun b _ => ?_)
    simp only [Function.comp, List.mem_cons, not_or, Bool.decide_and, ne_eq]
    exact Bool.and_comm _ _
  rw [← hsplit, List.map_append, List.nodup_append] at hrest
  rw [hdrop, ← hsplit, List.map_append, List.filter_append]
  have hnone : (kept.map key).filter (fun k => k ∉ kept.map key) = [] :=
    List.filter_eq_nil_iff.mpr fun k hk => by simpa using hk
  have hall : (dropped.map key).filter (fun k => k ∉ kept.map key) = dropped.map key :=
    List.filter_eq_self.mpr fun k hk => decide_eq_true fun hk' => hrest.2.2 k hk' k hk rfl
  rw [hnone, hall, List.nil_append]

omit [DecidableEq κ] in
theorem UsedBefore.append {used : List κ} {k k' k'' : κ} (h : UsedBefore used k k') (hne : k ≠ k'') :
    UsedBefore (used ++ [k'']) k k' := by
  obtain ⟨after, hsuffix, hmem, hnot⟩ := h
  refine ⟨after ++ [k''], ?_, List.mem_append_left _ hmem, by simp [hnot, hne]⟩
  obtain ⟨before, rfl⟩ := hsuffix
  exact ⟨before, by rw [List.append_assoc]⟩

omit [DecidableEq κ] in
theorem usedBefore_last (used : List κ) {k k' : κ} (hne : k ≠ k') : UsedBefore (used ++ [k']) k k' :=
  ⟨[k'], List.suffix_append used [k'], List.mem_singleton_self k', by simpa using hne⟩

theorem lastStored_append (k : κ) (log : List (Event α κ)) (e : Event α κ) :
    lastStored key k (log ++ [e]) = (e.storedFor key k).or (lastStored key k log) := by
  rw [lastStored, List.filterMap_append]
  cases h : e.storedFor key k <;> simp [h, lastStored]

omit [DecidableEq κ] in
/-- One more event: the key is evicted by it, or was and is not stored by it. -/
theorem evictedSince_append {k : κ} {log : List (Event α κ)} {e : Event α κ} :
    EvictedSince key k (log ++ [e]) ↔
      e = .evicted k ∨ EvictedSince key k log ∧ ∀ a, e = .stored a → key a ≠ k := by
  constructor
  · rintro ⟨before, after, heq, hnot⟩
    rcases List.eq_nil_or_concat' after with rfl | ⟨after, e', rfl⟩
    · exact .inl (by simpa using (List.append_inj' heq rfl).2)
    · rw [← List.cons_append, ← List.append_assoc] at heq
      obtain ⟨hlog, he⟩ := List.append_inj' heq rfl
      obtain rfl : e = e' := by simpa using he
      refine .inr ⟨⟨before, after, hlog, fun a ha => hnot a (List.mem_append_left _ ha)⟩, ?_⟩
      rintro a rfl
      exact hnot a (by simp)
  · rintro (rfl | ⟨⟨before, after, rfl, hnot⟩, hlast⟩)
    · exact ⟨log, [], rfl, fun a ha => absurd ha List.not_mem_nil⟩
    · refine ⟨before, after ++ [e], by simp, fun a ha => ?_⟩
      rcases List.mem_append.mp ha with ha | ha
      · exact hnot a ha
      · exact hlast a (List.mem_singleton.mp ha).symm

theorem key_of_lastStored {k : κ} {log : List (Event α κ)} {a : α} (h : lastStored key k log = some a) : key a = k := by
  obtain ⟨e, -, he⟩ := List.mem_filterMap.mp (List.mem_of_getLast? h)
  cases e with
  | stored b =>
    rw [Event.storedFor] at he
    split_ifs at he with hb
    cases he
    exact hb
  | hit k' => cases he
  | evicted k' => cases he

/-! ### The history of a list -/

variable (key) in
/-- What the log says of the list. An item that is not there although it was stored and not evicted since is gone, by
failing the test. -/
structure History (gone : α → Prop) (log : List (Event α κ)) (l : List α) : Prop where
  nodup : (l.map key).Nodup
  last : ∀ a ∈ l, lastStored key (key a) log = some a
  kept : ∀ a ∈ l, ¬ EvictedSince key (key a) log
  held : ∀ k a, lastStored key k log = some a → ¬ EvictedSince key k log → a ∈ l ∨ gone a
  order : l.Pairwise fun a b => UsedBefore (uses key log) (key b) (key a)

namespace History

variable {gone : α → Prop} {log : List (Event α κ)} {l : List α}

theorem nil (gone : α → Prop) : History key gone [] [] where
  nodup := List.nodup_nil
  last := fun a ha => absurd ha List.not_mem_nil
  kept := fun a ha => absurd ha List.not_mem_nil
  held := fun k a h => by cases h
  order := List.Pairwise.nil

theorem mono {gone' : α → Prop} (h : History key gone log l) (hg : ∀ a, gone a → gone' a) :
    History key gone' log l :=
  { h with held := fun k a hlast hkept => (h.held k a hlast hkept).imp_right (hg a) }

/-- The item of a key is the only one. -/
theorem eq_of_key (h : History key gone log l) {a b : α} (ha : a ∈ l) (hb : b ∈ l) (hkey : key a = key b) : a = b :=
  List.inj_on_of_nodup_map h.nodup ha hb hkey

theorem nodup_cons_without (h : History key gone log l) (a : α) :
    ((a :: without key (key a) l).map key).Nodup := by
  rw [List.map_cons, List.nodup_cons]
  refine ⟨fun hmem => ?_, h.nodup.sublist ((without_sublist _ l).map key)⟩
  obtain ⟨b, hb, hkey⟩ := List.mem_map.mp hmem
  exact (mem_without.mp hb).2 hkey

/-- A key that is used goes to the front. -/
theorem order_cons_without (h : History key gone log l) (a : α) :
    (a :: without key (key a) l).Pairwise fun b c => UsedBefore (uses key log ++ [key a]) (key c) (key b) := by
  refine List.pairwise_cons.mpr ⟨fun b hb => usedBefore_last _ (mem_without.mp hb).2, ?_⟩
  refine (h.order.sublist (without_sublist (key a) l)).imp_of_mem fun hb hc hbc => ?_
  exact hbc.append (mem_without.mp hc).2

/-- An item is found. -/
theorem hit (h : History key gone log l) {a : α} (ha : a ∈ l) :
    History key gone (log ++ [.hit (key a)]) (a :: without key (key a) l) := by
  have hmem : ∀ b ∈ a :: without key (key a) l, b ∈ l := by
    intro b hb
    rcases List.mem_cons.mp hb with rfl | hb
    · exact ha
    · exact (mem_without.mp hb).1
  refine ⟨h.nodup_cons_without a, fun b hb => ?_, fun b hb => ?_, fun k b hlast hkept => ?_, ?_⟩
  · rw [lastStored_append]
    exact h.last b (hmem b hb)
  · rw [evictedSince_append]
    rintro (hno | ⟨hevicted, -⟩)
    · cases hno
    · exact h.kept b (hmem b hb) hevicted
  · rw [lastStored_append] at hlast
    rw [evictedSince_append, not_or] at hkept
    refine (h.held k b hlast fun hevicted => hkept.2 ⟨hevicted, fun _ hno => by cases hno⟩).imp_left fun hb => ?_
    by_cases hkey : key b = key a
    · rw [h.eq_of_key hb ha hkey]
      exact List.mem_cons_self
    · exact List.mem_cons_of_mem _ (mem_without.mpr ⟨hb, hkey⟩)
  · rw [uses, List.filterMap_append]
    exact h.order_cons_without a

/-- An item that fails the test is removed. -/
theorem expire (h : History key gone log l) {k : κ} (hgone : ∀ a ∈ l, key a = k → gone a) :
    History key gone log (without key k l) where
  nodup := h.nodup.sublist ((without_sublist k l).map key)
  last := fun a ha => h.last a (mem_without.mp ha).1
  kept := fun a ha => h.kept a (mem_without.mp ha).1
  held := fun k' a hlast hkept => by
    rcases h.held k' a hlast hkept with ha | ha
    · by_cases hkey : key a = k
      · exact .inr (hgone a ha hkey)
      · exact .inl (mem_without.mpr ⟨ha, hkey⟩)
    · exact .inr ha
  order := h.order.sublist (without_sublist k l)

/-- An item is stored at the front. -/
theorem push (h : History key gone log l) (a : α) :
    History key gone (log ++ [.stored a]) (a :: without key (key a) l) := by
  refine ⟨h.nodup_cons_without a, fun b hb => ?_, fun b hb => ?_, fun k b hlast hkept => ?_, ?_⟩
  · rw [lastStored_append]
    rcases List.mem_cons.mp hb with rfl | hb
    · simp [Event.storedFor]
    · obtain ⟨hb, hkey⟩ := mem_without.mp hb
      simp [Event.storedFor, hkey.symm, h.last b hb]
  · rw [evictedSince_append]
    rintro (hno | ⟨hevicted, hne⟩)
    · cases hno
    · rcases List.mem_cons.mp hb with rfl | hb
      · exact hne b rfl rfl
      · exact h.kept b (mem_without.mp hb).1 hevicted
  · rw [lastStored_append] at hlast
    by_cases hk : key a = k
    · simp only [Event.storedFor, if_pos hk, Option.some_or, Option.some.injEq] at hlast
      subst hlast
      exact .inl List.mem_cons_self
    · simp only [Event.storedFor, if_neg hk, Option.none_or] at hlast
      rw [evictedSince_append, not_or] at hkept
      have hkept' : ¬ EvictedSince key k log := fun hevicted =>
        hkept.2 ⟨hevicted, fun b hb => by cases hb; exact hk⟩
      refine (h.held k b hlast hkept').imp_left fun hb => List.mem_cons_of_mem _ (mem_without.mpr ⟨hb, ?_⟩)
      rw [key_of_lastStored hlast]
      exact Ne.symm hk
  · rw [uses, List.filterMap_append]
    exact h.order_cons_without a

/-- The last item is dropped. -/
theorem evictLast {b : α} (h : History key gone log (l ++ [b])) : History key gone (log ++ [.evicted (key b)]) l := by
  have hnodup := h.nodup
  rw [List.map_append, List.nodup_append] at hnodup
  have hne : ∀ a ∈ l, key a ≠ key b := fun a ha =>
    hnodup.2.2 (key a) (List.mem_map_of_mem ha) (key b) (by simp)
  refine ⟨hnodup.1, fun a ha => ?_, fun a ha => ?_, fun k a hlast hkept => ?_, ?_⟩
  · rw [lastStored_append]
    exact h.last a (List.mem_append_left _ ha)
  · rw [evictedSince_append]
    rintro (hno | ⟨hevicted, -⟩)
    · exact hne a ha (Event.evicted.inj hno).symm
    · exact h.kept a (List.mem_append_left _ ha) hevicted
  · rw [lastStored_append] at hlast
    rw [evictedSince_append, not_or] at hkept
    refine (h.held k a hlast fun hevicted => hkept.2 ⟨hevicted, fun _ hno => by cases hno⟩).imp_left fun ha => ?_
    rcases List.mem_append.mp ha with ha | ha
    · exact ha
    · cases List.mem_singleton.mp ha
      exact absurd (by rw [key_of_lastStored hlast]) hkept.1
  · rw [uses, List.filterMap_append]
    exact (List.append_nil (uses key log)).symm ▸ (List.pairwise_append.mp h.order).1

/-- The items behind are dropped, the last one first. -/
theorem evict {dropped : List α} (h : History key gone log (l ++ dropped)) :
    History key gone (log ++ (dropped.reverse.map key).map .evicted) l := by
  induction dropped using List.reverseRecOn generalizing log with
  | nil => simpa using h
  | append_singleton dropped b ih =>
    rw [← List.append_assoc] at h
    have hrest := ih h.evictLast
    rw [List.append_assoc] at hrest
    simpa using hrest

/-- Storing an item evicts the keys over the bound. -/
theorem store (h : History key gone log l) (cap : ℕ) (a : α) :
    History key gone (log ++ [.stored a] ++ (overBound key cap a l).map .evicted) (Recency.store key cap a l) := by
  refine History.evict ?_
  rw [Recency.store, List.take_append_drop]
  exact h.push a

/-- **What a lookup answers**: the last item stored with the key, exactly when the key was not evicted
since and the item passes the test. -/
theorem lookup_iff (h : History key gone log l) {live : α → Bool} (hgone : ∀ a, gone a → live a = false)
    {k : κ} {a : α} :
    (lookup key live k l).1 = some a ↔
      lastStored key k log = some a ∧ ¬ EvictedSince key k log ∧ live a = true := by
  constructor
  · intro hfound
    rw [lookup] at hfound
    split at hfound
    · cases hfound
    · rename_i b hb
      split_ifs at hfound with hlive
      cases hfound
      have hkey : key a = k := by simpa using List.find?_some hb
      have ha := List.mem_of_find?_eq_some hb
      exact ⟨hkey ▸ h.last a ha, hkey ▸ h.kept a ha, hlive⟩
  · rintro ⟨hlast, hkept, hlive⟩
    have hkey := key_of_lastStored hlast
    have ha : a ∈ l := (h.held k a hlast hkept).resolve_right fun hg => by
      rw [hgone a hg] at hlive
      cases hlive
    have hfind : l.find? (fun b => key b = k) = some a := by
      obtain ⟨b, hb⟩ := Option.isSome_iff_exists.mp
        (List.find?_isSome.mpr ⟨a, ha, by simpa using hkey⟩ : (l.find? fun b => key b = k).isSome)
      have hbkey : key b = k := by simpa using List.find?_some hb
      rw [hb, h.eq_of_key (List.mem_of_find?_eq_some hb) ha (hbkey.trans hkey.symm)]
    rw [lookup, hfind]
    simp only [hlive, if_true]

/-- The last item is the one whose key was not used for the longest time. -/
theorem oldest {b : α} (h : History key gone log (l ++ [b])) : ∀ a ∈ l, UsedBefore (uses key log) (key b) (key a) :=
  fun a ha => (List.pairwise_append.mp h.order).2.2 a ha b (List.mem_singleton_self b)

end History

end ForecastIQ.Foundations.Recency
