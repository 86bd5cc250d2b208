import ForecastIQ.Api.ResponseCache
import ForecastIQ.Foundations.Recency

/-!
# The response cache is a bounded recency list

`ResponseCache` under any sequence of lookups and stores. Its entries, in the order of its linked
list, are those of a recency list that is asked and written alongside (`get_lookup`,
`entries_put_eq`, and `entries_run` for whole runs). So its history is that of a recency list: it
answers with the last entry stored for a key, until the key is evicted or the entry expires, and
what it evicts is the key that was not used for the longest time.

An expired entry is removed when it is looked up. That the entry is then not found at any later
lookup needs a clock that does not go back.
-/

namespace ForecastIQ.Api

open ForecastIQ.Foundations ForecastIQ.Foundations.Recency

/-- A lookup or a store, with the time at which it happens. -/
inductive CacheOp where
  | get (key : Bytes) (now : ℤ)
  | put (e : CacheEntry) (now : ℤ)

/-- When the operation happens. -/
def CacheOp.time : CacheOp → ℤ
  | get _ now => now
  | put _ now => now

/-- The entry has not expired. -/
def CacheEntry.live (now : ℤ) (e : CacheEntry) : Bool := now ≤ e.expiresAt

/-- The operation on a recency list. -/
def CacheOp.onList (cap : ℕ) (l : List CacheEntry) : CacheOp → List CacheEntry
  | get key now => (Recency.lookup CacheEntry.key (CacheEntry.live now) key l).2
  | put e _ => store CacheEntry.key cap e l

namespace ResponseCache

/-- The keys in the list. -/
def keys (c : ResponseCache) : List Bytes := c.entries.map CacheEntry.key

/-- The keys that storing an entry takes out of the cache, the last one first. -/
def evicts (c : ResponseCache) (e : CacheEntry) : List Bytes :=
  (c.keys.filter fun key => key ∉ (c.put e).keys).reverse

/-- The cache after an operation. -/
def apply (c : ResponseCache) : CacheOp → ResponseCache
  | .get key now => (c.get key now).2
  | .put e _ => c.put e

/-- What an operation does to the cache. -/
def events (c : ResponseCache) : CacheOp → List (Event CacheEntry Bytes)
  | .get key now => if (c.get key now).1.isSome then [.hit key] else []
  | .put e _ => [.stored e] ++ (c.evicts e).map .evicted

/-- The cache after operations in order. -/
def run (c : ResponseCache) (ops : List CacheOp) : ResponseCache := ops.foldl apply c

/-- What operations in order do to the cache. -/
def history (c : ResponseCache) : List CacheOp → List (Event CacheEntry Bytes)
  | [] => []
  | op :: ops => c.events op ++ (c.apply op).history ops

/-! ### The cache and the list -/

variable {c : ResponseCache}

theorem Consistent.find?_ll (h : c.Consistent) (key : Bytes) :
    (c.ll.find? fun el => (c.value el).key = key) = c.items key := by
  cases hf : c.ll.find? fun el => (c.value el).key = key with
  | some el =>
    have hkey : (c.value el).key = key := by simpa using List.find?_some hf
    exact ((h.items_iff key el).mpr ⟨List.mem_of_find?_eq_some hf, hkey⟩).symm
  | none =>
    cases hit : c.items key with
    | none => rfl
    | some el =>
      obtain ⟨hel, hkey⟩ := (h.items_iff key el).mp hit
      exact absurd (by simpa using hkey) (List.find?_eq_none.mp hf el hel)

/-- The map finds what a search of the entries finds. -/
theorem Consistent.find?_entries (h : c.Consistent) (key : Bytes) :
    (c.entries.find? fun e => e.key = key) = (c.items key).map c.value := by
  rw [entries, List.find?_map, ← h.find?_ll key]
  rfl

/-- Taking an element out of the list takes the entries with its key out. -/
theorem Consistent.map_value_erase (h : c.Consistent) {key : Bytes} {el : Element} (hit : c.items key = some el) :
    (c.ll.erase el).map c.value = without CacheEntry.key key c.entries := by
  rw [without, entries, List.filter_map, h.nodup.erase_eq_filter]
  refine congrArg (List.map c.value) (List.filter_congr fun el' hel' => ?_)
  have hiff : el' = el ↔ (c.value el').key = key := by
    constructor
    · rintro rfl
      exact ((h.items_iff key el').mp hit).2
    · intro hkey
      exact Option.some.inj (((h.items_iff key el').mpr ⟨hel', hkey⟩).symm.trans hit)
  rw [Bool.eq_iff_iff]
  simp [hiff]

/-- **A lookup of the cache is a lookup of the list.** -/
theorem get_lookup (h : c.Consistent) (key : Bytes) (now : ℤ) :
    ((c.get key now).1, (c.get key now).2.entries) =
      Recency.lookup CacheEntry.key (CacheEntry.live now) key c.entries := by
  rw [Recency.lookup, h.find?_entries key, ResponseCache.get]
  cases hit : c.items key with
  | none => rfl
  | some el =>
    simp only [Option.map_some, CacheEntry.live, decide_eq_true_eq]
    by_cases hlive : now ≤ (c.value el).expiresAt
    · rw [if_neg (not_lt.mpr hlive), if_pos hlive, ← h.map_value_erase hit]
      rfl
    · rw [if_pos (not_le.mp hlive), if_neg hlive, ← h.map_value_erase hit]
      rfl

/-- Eviction cuts the list at the capacity. -/
theorem entries_evict (h : c.Consistent) : c.evict.entries = c.entries.take c.cap := by
  fun_induction evict c with
  | case1 c hlt hlast =>
    rw [List.getLast?_eq_none_iff] at hlast
    simp [entries, hlast]
  | case2 c hlt oldest hlast ih =>
    have hold : oldest ∈ c.ll := List.mem_of_getLast? hlast
    rw [ih (h.remove ((h.items_iff _ _).mpr ⟨hold, rfl⟩))]
    -- the last element is not elsewhere in the list
    have herase : c.ll.erase oldest = c.ll.dropLast := by
      obtain ⟨init, hinit⟩ := List.getLast?_eq_some_iff.mp hlast
      have hnd := h.nodup
      rw [hinit, List.nodup_append] at hnd
      have hnot : oldest ∉ init := fun hm => hnd.2.2 oldest hm oldest (by simp) rfl
      rw [hinit, List.erase_append_right _ hnot, List.dropLast_concat]
      simp
    have hcut : (c.remove oldest (c.value oldest).key).entries = c.entries.dropLast := by
      rw [entries, entries, ← List.map_dropLast, ← herase]
      rfl
    have hcap : (c.remove oldest (c.value oldest).key).cap = c.cap := rfl
    rw [hcut, hcap, List.dropLast_eq_take, List.take_take, Nat.min_eq_left]
    rw [entries, List.length_map]
    omega
  | case3 c hle =>
    rw [List.take_of_length_le]
    rw [entries, List.length_map]
    omega

/-- **A store in the cache is a store in the list.** -/
theorem entries_put_eq (h : c.Valid) (e : CacheEntry) :
    (c.put e).entries = store CacheEntry.key c.cap e c.entries := by
  rw [put, store]
  cases hit : c.items e.key with
  | some el =>
    have hel := ((h.items_iff _ _).mp hit).1
    have hnot : el ∉ c.ll.erase el := h.nodup.not_mem_erase
    have hothers : (c.ll.erase el).map (Function.update c.value el e) = (c.ll.erase el).map c.value := by
      refine List.map_congr_left fun el' hel' => Function.update_of_ne ?_ _ _
      rintro rfl
      exact hnot hel'
    have hlength : (e :: without CacheEntry.key e.key c.entries).length ≤ c.cap := by
      rw [← h.map_value_erase hit, List.length_cons, List.length_map, List.length_erase_of_mem hel]
      have := List.length_pos_of_mem hel
      have := h.length_le
      omega
    rw [List.take_of_length_le hlength, ← h.map_value_erase hit, ← hothers]
    simp [entries, moveToFront]
  | none =>
    have hnew : e.key ∉ c.entries.map CacheEntry.key := by
      rw [entries, List.map_map]
      intro hmem
      obtain ⟨el, hel, hkey⟩ := List.mem_map.mp hmem
      rw [(h.items_iff e.key el).mpr ⟨hel, hkey⟩] at hit
      cases hit
    have hfresh : ∀ el ∈ c.ll, el ≠ c.next := fun el hel => Nat.ne_of_lt (h.fresh el hel)
    have hpush : (c.pushFront e).entries = e :: c.entries := by
      simp only [entries, pushFront, List.map_cons, Function.update_self]
      rw [List.map_congr_left fun el hel => Function.update_of_ne (hfresh el hel) _ _]
    rw [entries_evict (h.toConsistent.pushFront hit), hpush, without_eq_self hnew]
    rfl

/-! ### Runs -/

theorem Valid.apply (h : c.Valid) (op : CacheOp) : (c.apply op).Valid := by
  cases op with
  | get key now => exact h.get key now
  | put e now => exact h.put e

theorem cap_evict (c : ResponseCache) : c.evict.cap = c.cap := by
  fun_induction evict c with
  | case1 c => rfl
  | case2 c hlt oldest hlast ih => exact ih
  | case3 c => rfl

theorem cap_apply (c : ResponseCache) (op : CacheOp) : (c.apply op).cap = c.cap := by
  cases op with
  | get key now =>
    simp only [apply, ResponseCache.get]
    split
    · rfl
    · split <;> rfl
  | put e now =>
    simp only [apply, put]
    split
    · rfl
    · exact cap_evict _

theorem entries_apply (h : c.Valid) (op : CacheOp) : (c.apply op).entries = op.onList c.cap c.entries := by
  cases op with
  | get key now => exact congrArg Prod.snd (get_lookup h.toConsistent key now)
  | put e now => exact entries_put_eq h e

theorem Valid.run (h : c.Valid) (ops : List CacheOp) : (c.run ops).Valid := by
  induction ops generalizing c with
  | nil => exact h
  | cons op ops ih => exact ih (h.apply op)

theorem cap_run (c : ResponseCache) (ops : List CacheOp) : (c.run ops).cap = c.cap := by
  induction ops generalizing c with
  | nil => rfl
  | cons op ops ih => exact (ih (c.apply op)).trans (c.cap_apply op)

/-- The entries are those of the recency list. -/
theorem entries_run (h : c.Valid) (ops : List CacheOp) :
    (c.run ops).entries = ops.foldl (CacheOp.onList c.cap) c.entries := by
  induction ops generalizing c with
  | nil => rfl
  | cons op ops ih =>
    rw [run, List.foldl_cons, List.foldl_cons, ← entries_apply h op, ← c.cap_apply op]
    exact ih (h.apply op)

/-! ### The history of the cache -/

/-- What a store takes out are the entries over the capacity. -/
theorem evicts_eq (h : c.Valid) (hnodup : (c.entries.map CacheEntry.key).Nodup) (e : CacheEntry) :
    c.evicts e = overBound CacheEntry.key c.cap e c.entries := by
  rw [evicts, keys, keys, entries_put_eq h e]
  convert filter_notMem_store hnodup h.cap_pos e

/-- Every operation keeps the history. -/
theorem History.apply {gone : CacheEntry → Prop} {log : List (Event CacheEntry Bytes)} (hv : c.Valid)
    (h : History CacheEntry.key gone log c.entries) {op : CacheOp} (hgone : ∀ e, e.expiresAt < op.time → gone e) :
    History CacheEntry.key gone (log ++ c.events op) (c.apply op).entries := by
  rw [entries_apply hv op]
  cases op with
  | put e now =>
    rw [events, evicts_eq hv h.nodup, ← List.append_assoc]
    exact h.store c.cap e
  | get key now =>
    have hfst : (c.get key now).1 = (Recency.lookup CacheEntry.key (CacheEntry.live now) key c.entries).1 :=
      congrArg Prod.fst (get_lookup hv.toConsistent key now)
    rw [events, hfst, CacheOp.onList, Recency.lookup]
    cases hf : c.entries.find? fun e => e.key = key with
    | none => simpa using h
    | some e =>
      have he := List.mem_of_find?_eq_some hf
      have hkey : e.key = key := by simpa using List.find?_some hf
      by_cases hlive : e.live now = true
      · simp only [hlive, if_true, Option.isSome_some, ← hkey]
        exact h.hit he
      · simp only [hlive, Bool.false_eq_true, if_false, Option.isSome_none, List.append_nil]
        refine h.expire fun e' he' hkey' => hgone e' ?_
        rw [h.eq_of_key he' he (hkey'.trans hkey.symm)]
        have hpassed : ¬ now ≤ e.expiresAt := by simpa [CacheEntry.live] using hlive
        exact not_le.mp hpassed

theorem history_append (c : ResponseCache) (ops : List CacheOp) (op : CacheOp) :
    c.history (ops ++ [op]) = c.history ops ++ (c.run ops).events op := by
  induction ops generalizing c with
  | nil => simp [history, run]
  | cons o ops ih =>
    rw [List.cons_append, history, ih, history, List.append_assoc]
    rfl

/-- The history of a cache that starts empty; what is gone expired before the last operation. -/
theorem history_run (capacity : ℤ) (ops : List CacheOp) :
    History CacheEntry.key (fun e => ∃ op ∈ ops, e.expiresAt < op.time) ((new capacity).history ops)
      ((new capacity).run ops).entries := by
  induction ops using List.reverseRecOn with
  | nil => exact History.nil _
  | append_singleton ops op ih =>
    have hrun : (new capacity).run (ops ++ [op]) = ((new capacity).run ops).apply op := List.foldl_concat ..
    rw [hrun, history_append]
    refine ResponseCache.History.apply ((Valid.new capacity).run ops) (Recency.History.mono ih ?_) ?_
    · rintro e ⟨o, ho, hlt⟩
      exact ⟨o, List.mem_append_left _ ho, hlt⟩
    · exact fun e hlt => ⟨op, by simp, hlt⟩

/-- The map holds the keys of the list. -/
theorem Consistent.isSome_items_iff (h : c.Consistent) (key : Bytes) : (c.items key).isSome = true ↔ key ∈ c.keys := by
  rw [keys, entries, List.map_map, List.mem_map, Option.isSome_iff_exists]
  exact exists_congr fun el => h.items_iff key el

/-- At capacity, a new key evicts the last entry of the list. -/
theorem evicts_of_full (h : c.Valid) {gone : CacheEntry → Prop} {log : List (Event CacheEntry Bytes)}
    (hh : History CacheEntry.key gone log c.entries) {e : CacheEntry} (hnew : e.key ∉ c.keys)
    (hfull : c.keys.length = c.cap) :
    ∃ key, c.evicts e = [key] ∧ ∀ key' ∈ c.keys, key' ≠ key → UsedBefore (uses CacheEntry.key log) key key' := by
  rw [evicts_eq h hh.nodup, overBound, without_eq_self hnew]
  rw [keys, List.length_map] at hfull
  rcases List.eq_nil_or_concat' c.entries with hnil | ⟨init, last, hconcat⟩
  · rw [hnil] at hfull
    exact absurd hfull (Nat.ne_of_lt h.cap_pos)
  · rw [hconcat] at hh hfull ⊢
    rw [List.length_append, List.length_singleton] at hfull
    refine ⟨last.key, ?_, fun key' hkey' hne => ?_⟩
    · rw [← hfull, List.drop_succ_cons, List.drop_left]
      rfl
    · rw [keys, hconcat] at hkey'
      obtain ⟨e', he', rfl⟩ := List.mem_map.mp hkey'
      rcases List.mem_append.mp he' with he' | he'
      · exact hh.oldest e' he'
      · exact absurd (by rw [List.mem_singleton.mp he']) hne

end ResponseCache

open ResponseCache

/-- **The response cache is a bounded recency list.** After any operations with a clock that does not
go back: its entries are those of the recency list; the map has the keys of the list, each once and
at most as many as the capacity; a lookup answers with the last entry stored for the key, exactly
when the key was not evicted since and the entry has not expired; and at capacity, a new key evicts
exactly the key whose last store or successful lookup is the oldest. -/
theorem responseCache_recency {capacity : ℤ} (hcap : 1 ≤ capacity) (ops : List CacheOp) {now : ℤ}
    (hclock : (ops.map CacheOp.time ++ [now]).Pairwise (· ≤ ·)) {c : ResponseCache}
    {log : List (Event CacheEntry Bytes)} (hc : (ResponseCache.new capacity).run ops = c)
    (hlog : (ResponseCache.new capacity).history ops = log) :
    c.entries = ops.foldl (CacheOp.onList capacity.toNat) [] ∧
      ((∀ key, (c.items key).isSome = true ↔ key ∈ c.keys) ∧ c.keys.Nodup ∧ (c.keys.length : ℤ) ≤ capacity) ∧
      (∀ key e, (c.get key now).1 = some e ↔
        lastStored CacheEntry.key key log = some e ∧ ¬ EvictedSince CacheEntry.key key log ∧ now ≤ e.expiresAt) ∧
      ∀ e, e.key ∉ c.keys → (c.keys.length : ℤ) = capacity →
        ∃ key, c.evicts e = [key] ∧
          ∀ key' ∈ c.keys, key' ≠ key → UsedBefore (uses CacheEntry.key log) key key' := by
  subst hc hlog
  have hvalid := (Valid.new capacity).run ops
  have hcapacity : ((ResponseCache.new capacity).run ops).cap = capacity.toNat := by
    rw [cap_run, ResponseCache.new]
    exact if_neg (by omega)
  have hhistory := history_run capacity ops
  have hentries := entries_run (Valid.new capacity) ops
  rw [← cap_run (ResponseCache.new capacity) ops, hcapacity] at hentries
  have hlength := hvalid.length_le
  rw [hcapacity] at hlength
  refine ⟨hentries, ⟨hvalid.toConsistent.isSome_items_iff, hhistory.nodup, ?_⟩, fun key e => ?_, fun e hnew hfull => ?_⟩
  · rw [keys, entries, List.length_map, List.length_map]
    omega
  · -- what has expired before, has expired now
    have hgone : ∀ e : CacheEntry, (∃ op ∈ ops, e.expiresAt < op.time) → e.live now = false := by
      rintro e ⟨op, hop, hlt⟩
      have hle : op.time ≤ now :=
        (List.pairwise_append.mp hclock).2.2 op.time (List.mem_map_of_mem hop) now (List.mem_singleton_self now)
      exact decide_eq_false (by omega)
    rw [congrArg Prod.fst (get_lookup hvalid.toConsistent key now), hhistory.lookup_iff hgone, CacheEntry.live,
      decide_eq_true_eq]
  · exact evicts_of_full hvalid hhistory hnew (by omega)

/-- An entry of one byte that expires at `5`. -/
def shortEntry (b : UInt8) : CacheEntry := ⟨[b], [b], [], [], 5⟩

/-- With room for two, the entry that was found last stays when a third one is stored. -/
theorem responseCache_recency_three :
    (((ResponseCache.new 2).run [.put (shortEntry 1) 0, .put (shortEntry 2) 1, .get [1] 2]).put (shortEntry 3)).keys =
        [[3], [1]] ∧
      ∃ key, ((ResponseCache.new 2).run [.put (shortEntry 1) 0, .put (shortEntry 2) 1, .get [1] 2]).evicts
        (shortEntry 3) = [key] := by
  refine ⟨by decide +kernel, ?_⟩
  obtain ⟨-, -, -, hevicts⟩ := responseCache_recency (show (1 : ℤ) ≤ 2 by decide)
    [.put (shortEntry 1) 0, .put (shortEntry 2) 1, .get [1] 2]
    (show _ by decide : List.Pairwise (· ≤ ·) [0, 1, 2, (3 : ℤ)]) rfl rfl
  obtain ⟨key, hkey, -⟩ := hevicts (shortEntry 3) (by decide +kernel) (by decide +kernel)
  exact ⟨key, hkey⟩

end ForecastIQ.Api
