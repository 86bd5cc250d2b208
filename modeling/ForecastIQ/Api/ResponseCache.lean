import ForecastIQ.Foundations.FormEncoding
import Mathlib.Logic.Function.Basic

/-!
# The response cache

`ResponseCache` keeps serialized responses in a linked list, the most recently used at the
front, and finds them through a map from keys to list elements. An expired entry is removed
when it is looked up; storing a new key removes elements from the back until the list fits
the capacity.

List elements are pointers in the source, shared by the list and the map, and an entry is
replaced by writing through the pointer. Here an element is a reference into `value`, so
that the list and the map can in principle disagree; `Valid` says that they do not, and
every operation keeps it. What the rest of the development uses of the cache is that a
lookup answers with an entry of the key looked up (`key_of_get`), and that an entry just
stored is found until it expires (`get_put`).
-/

namespace ForecastIQ.Api

open ForecastIQ.Foundations

/-- `LRUCapacity`. -/
def lruCapacity : ℕ := 256

/-- `cacheEntry`: a stored response. -/
structure CacheEntry where
  key : Bytes
  body : Bytes
  etag : Bytes
  contentType : Bytes
  expiresAt : ℤ
  deriving DecidableEq, Inhabited

/-- A list element: a pointer to its entry. -/
abbrev Element := ℕ

/-- `ResponseCache`, with the memory its elements point into. -/
structure ResponseCache where
  cap : ℕ
  /-- The elements, the most recently used first. -/
  ll : List Element
  items : Bytes → Option Element
  /-- The entry each element points to. -/
  value : Element → CacheEntry
  /-- The next element to be allocated. -/
  next : Element

namespace ResponseCache

/-- `NewResponseCache`. -/
def new (capacity : ℤ) : ResponseCache :=
  { cap := if capacity ≤ 0 then lruCapacity else capacity.toNat
    ll := [], items := fun _ => none, value := fun _ => default, next := 0 }

/-- `ll.Remove(el)` and `delete(items, key)`. -/
def remove (c : ResponseCache) (el : Element) (key : Bytes) : ResponseCache :=
  { c with ll := c.ll.erase el, items := Function.update c.items key none }

/-- `ll.MoveToFront(el)`. -/
def moveToFront (c : ResponseCache) (el : Element) : ResponseCache := { c with ll := el :: c.ll.erase el }

/-- `get`: a live entry, promoted to the front; an expired one is removed. -/
def get (c : ResponseCache) (key : Bytes) (now : ℤ) : Option CacheEntry × ResponseCache :=
  match c.items key with
  | none => (none, c)
  | some el =>
    if (c.value el).expiresAt < now then (none, c.remove el key)
    else (some (c.value el), c.moveToFront el)

/-- The loop of `put` that removes the oldest elements. -/
def evict (c : ResponseCache) : ResponseCache :=
  if c.cap < c.ll.length then
    match _hlast : c.ll.getLast? with
    | none => c
    | some oldest => evict (c.remove oldest (c.value oldest).key)
  else c
termination_by c.ll.length
decreasing_by
  have hm : oldest ∈ c.ll := List.mem_of_getLast? _hlast
  have hpos := List.length_pos_of_mem hm
  simp only [remove, List.length_erase_of_mem hm]
  omega

/-- `items[e.key] = ll.PushFront(e)`. -/
def pushFront (c : ResponseCache) (e : CacheEntry) : ResponseCache :=
  { c with
    ll := c.next :: c.ll
    items := Function.update c.items e.key (some c.next)
    value := Function.update c.value c.next e
    next := c.next + 1 }

/-- `put`: replace the entry of a known key, or add one and evict. -/
def put (c : ResponseCache) (e : CacheEntry) : ResponseCache :=
  match c.items e.key with
  | some el => moveToFront { c with value := Function.update c.value el e } el
  | none => evict (c.pushFront e)

/-! ### The map and the list agree -/

/-- The map points each key to the list element that holds it, and to nothing else. -/
structure Consistent (c : ResponseCache) : Prop where
  nodup : c.ll.Nodup
  items_iff : ∀ key el, c.items key = some el ↔ el ∈ c.ll ∧ (c.value el).key = key
  fresh : ∀ el ∈ c.ll, el < c.next

/-- A consistent cache within its capacity. -/
structure Valid (c : ResponseCache) : Prop extends Consistent c where
  cap_pos : 0 < c.cap
  length_le : c.ll.length ≤ c.cap

theorem Valid.new (capacity : ℤ) : (new capacity).Valid where
  nodup := List.nodup_nil
  items_iff key el := by simp [ResponseCache.new]
  fresh el h := absurd h List.not_mem_nil
  cap_pos := by
    simp only [ResponseCache.new, lruCapacity]
    split <;> omega
  length_le := Nat.zero_le _

theorem Consistent.remove {c : ResponseCache} (h : c.Consistent) {el : Element} {key : Bytes}
    (hkey : c.items key = some el) : (c.remove el key).Consistent := by
  obtain ⟨hel, hval⟩ := (h.items_iff key el).mp hkey
  refine ⟨h.nodup.erase el, fun k el' => ?_, fun el' hel' => h.fresh el' (List.mem_of_mem_erase hel')⟩
  simp only [ResponseCache.remove, Function.update_apply, h.nodup.mem_erase_iff]
  by_cases hk : k = key
  · -- the key removed: its only element has left the list
    subst hk
    simp only [if_true, reduceCtorEq, false_iff]
    rintro ⟨⟨hne, hmem⟩, hk'⟩
    have := (h.items_iff k el').mpr ⟨hmem, hk'⟩
    exact hne (Option.some.inj (this.symm.trans hkey))
  · rw [if_neg hk, h.items_iff]
    constructor
    · rintro ⟨hmem, hk'⟩
      refine ⟨⟨?_, hmem⟩, hk'⟩
      rintro rfl
      exact hk (hk'.symm.trans hval)
    · rintro ⟨⟨-, hmem⟩, hk'⟩
      exact ⟨hmem, hk'⟩

theorem Consistent.moveToFront {c : ResponseCache} (h : c.Consistent) {el : Element} (hel : el ∈ c.ll) :
    (c.moveToFront el).Consistent := by
  have hperm : c.ll.Perm (c.moveToFront el).ll := List.perm_cons_erase hel
  exact ⟨hperm.nodup_iff.mp h.nodup, fun key el' => by rw [← hperm.mem_iff]; exact h.items_iff key el',
    fun el' hel' => h.fresh el' (hperm.mem_iff.mpr hel')⟩

/-- Writing an entry of the same key through its element. -/
theorem Consistent.setValue {c : ResponseCache} (h : c.Consistent) {el : Element} {e : CacheEntry}
    (hkey : (c.value el).key = e.key) :
    Consistent { c with value := Function.update c.value el e } := by
  refine ⟨h.nodup, fun key el' => ?_, h.fresh⟩
  have hsame : (Function.update c.value el e el').key = (c.value el').key := by
    simp only [Function.update_apply]
    split
    · next heq => rw [heq, hkey]
    · rfl
  simp only [hsame]
  exact h.items_iff key el'

theorem Consistent.pushFront {c : ResponseCache} (h : c.Consistent) {e : CacheEntry}
    (hnew : c.items e.key = none) : (c.pushFront e).Consistent := by
  have hnext : c.next ∉ c.ll := fun hm => Nat.lt_irrefl _ (h.fresh _ hm)
  refine ⟨List.nodup_cons.mpr ⟨hnext, h.nodup⟩, fun key el => ?_, fun el hel => ?_⟩
  · simp only [ResponseCache.pushFront, Function.update_apply, List.mem_cons]
    by_cases hel : el = c.next
    · subst hel
      have hno : c.items key ≠ some c.next := fun hs => hnext ((h.items_iff _ _).mp hs).1
      by_cases hk : key = e.key <;> simp [hk, hno, eq_comm]
    · by_cases hk : key = e.key
      · -- no older element holds the new key
        have hno : ¬(el ∈ c.ll ∧ (c.value el).key = key) := by
          rw [← h.items_iff, hk, hnew]
          exact nofun
        simp only [hk, if_true, hel, if_false, false_or, Option.some.injEq]
        rw [hk] at hno
        exact ⟨fun he => absurd he.symm hel, fun he => absurd he hno⟩
      · simp [hk, hel, h.items_iff]
  · rcases List.mem_cons.mp hel with rfl | hel
    · exact Nat.lt_succ_self _
    · exact Nat.lt_succ_of_lt (h.fresh el hel)

/-! ### Eviction -/

/-- Eviction keeps the cache consistent, brings it within its capacity, and spares the front. -/
theorem evict_spec {c : ResponseCache} (h : c.Consistent) (hcap : 0 < c.cap) {el : Element}
    (hfront : c.ll.head? = some el) :
    c.evict.Valid ∧ c.evict.ll.head? = some el ∧ c.evict.value = c.value := by
  -- one round of the loop removes the last element, which is not the front
  fun_induction evict c with
  | case1 c hlt hlast =>
    rw [List.getLast?_eq_none_iff] at hlast
    simp [hlast] at hfront
  | case2 c hlt oldest hlast ih =>
    have hold : oldest ∈ c.ll := List.mem_of_getLast? hlast
    have hcons := h.remove ((h.items_iff _ _).mpr ⟨hold, rfl⟩)
    have hfront' : (c.remove oldest (c.value oldest).key).ll.head? = some el := by
      obtain ⟨rest, hll⟩ := List.head?_eq_some_iff.mp hfront
      have hne : el ≠ oldest := by
        rintro rfl
        cases rest with
        | nil =>
          rw [hll] at hlt
          simp at hlt
          omega
        | cons a rest =>
          rw [hll, List.getLast?_cons_cons] at hlast
          have hnd := h.nodup
          rw [hll] at hnd
          exact (List.nodup_cons.mp hnd).1 (List.mem_of_getLast? hlast)
      simp [ResponseCache.remove, hll, hne]
    exact ih hcons hcap hfront'
  | case3 c hle => exact ⟨⟨h, hcap, Nat.le_of_not_lt hle⟩, hfront, rfl⟩

/-! ### Lookup and store -/

/-- What a lookup answers: the entry of the element that the map has for the key. -/
theorem get_eq_some {c : ResponseCache} (h : c.Consistent) {key : Bytes} {now : ℤ} {e : CacheEntry}
    (hget : (c.get key now).1 = some e) : ∃ el ∈ c.ll, c.value el = e ∧ e.key = key := by
  unfold get at hget
  cases hit : c.items key with
  | none => simp [hit] at hget
  | some el =>
    simp only [hit] at hget
    split at hget
    · cases hget
    · cases hget
      obtain ⟨hel, hkey⟩ := (h.items_iff key el).mp hit
      exact ⟨el, hel, rfl, hkey⟩

/-- A lookup answers with an entry of the key. -/
theorem key_of_get {c : ResponseCache} (h : c.Consistent) {key : Bytes} {now : ℤ} {e : CacheEntry}
    (hget : (c.get key now).1 = some e) : e.key = key := by
  obtain ⟨_, -, -, hkey⟩ := get_eq_some h hget
  exact hkey

theorem Valid.get {c : ResponseCache} (h : c.Valid) (key : Bytes) (now : ℤ) : (c.get key now).2.Valid := by
  unfold ResponseCache.get
  cases hit : c.items key with
  | none => exact h
  | some el =>
    have hel := ((h.items_iff key el).mp hit).1
    dsimp only
    split
    · exact ⟨h.toConsistent.remove hit, h.cap_pos, List.length_erase_le.trans h.length_le⟩
    · refine ⟨h.toConsistent.moveToFront hel, h.cap_pos, ?_⟩
      exact (List.perm_cons_erase hel).length_eq.symm.trans_le h.length_le

/-- Storing keeps the cache valid and leaves the entry at the front. -/
theorem put_spec {c : ResponseCache} (h : c.Valid) (e : CacheEntry) :
    (c.put e).Valid ∧ ∃ el, (c.put e).ll.head? = some el ∧ (c.put e).value el = e := by
  unfold put
  cases hit : c.items e.key with
  | some el =>
    obtain ⟨hel, hkey⟩ := (h.items_iff _ _).mp hit
    have hcons := (h.toConsistent.setValue hkey).moveToFront hel
    refine ⟨⟨hcons, h.cap_pos, ?_⟩, el, rfl, by simp [moveToFront]⟩
    exact (List.perm_cons_erase hel).length_eq.symm.trans_le h.length_le
  | none =>
    have hpush : (c.pushFront e).ll.head? = some c.next := rfl
    obtain ⟨hvalid, hfront, hvalue⟩ := evict_spec (h.toConsistent.pushFront hit) h.cap_pos hpush
    refine ⟨hvalid, c.next, hfront, ?_⟩
    rw [hvalue]
    exact Function.update_self ..

theorem Valid.put {c : ResponseCache} (h : c.Valid) (e : CacheEntry) : (c.put e).Valid := (put_spec h e).1

/-- An entry just stored is found until it expires. -/
theorem get_put {c : ResponseCache} (h : c.Valid) {e : CacheEntry} {now : ℤ} (hnow : now ≤ e.expiresAt) :
    ((c.put e).get e.key now).1 = some e := by
  obtain ⟨hvalid, el, hfront, hvalue⟩ := put_spec h e
  have hit : (c.put e).items e.key = some el :=
    (hvalid.items_iff _ _).mpr ⟨List.mem_of_mem_head? hfront, by rw [hvalue]⟩
  simp only [ResponseCache.get, hit, hvalue]
  rw [if_neg (not_lt.mpr hnow)]

/-! ### The entries held -/

/-- The entries in the list. -/
def entries (c : ResponseCache) : List CacheEntry := c.ll.map c.value

theorem mem_entries_of_get {c : ResponseCache} (h : c.Consistent) {key : Bytes} {now : ℤ} {e : CacheEntry}
    (hget : (c.get key now).1 = some e) : e ∈ c.entries := by
  obtain ⟨el, hel, hvalue, -⟩ := get_eq_some h hget
  exact List.mem_map.mpr ⟨el, hel, hvalue⟩

/-- A lookup adds no entry. -/
theorem entries_get {c : ResponseCache} (h : c.Consistent) (key : Bytes) (now : ℤ) :
    (c.get key now).2.entries ⊆ c.entries := by
  unfold get
  cases hit : c.items key with
  | none => exact List.Subset.refl _
  | some el =>
    have hel := ((h.items_iff key el).mp hit).1
    dsimp only
    split
    · exact List.map_subset _ List.erase_subset
    · exact List.map_subset _ (List.perm_cons_erase hel).symm.subset

theorem evict_subset (c : ResponseCache) : c.evict.ll ⊆ c.ll ∧ c.evict.value = c.value := by
  fun_induction evict c with
  | case1 c => exact ⟨List.Subset.refl _, rfl⟩
  | case2 c hlt oldest hlast ih => exact ⟨List.Subset.trans ih.1 List.erase_subset, ih.2⟩
  | case3 c => exact ⟨List.Subset.refl _, rfl⟩

/-- Storing adds no entry but the one stored. -/
theorem entries_put (c : ResponseCache) (e : CacheEntry) :
    (c.put e).entries ⊆ e :: c.entries := by
  -- writing at one element changes only what that element points to
  have hupdate : ∀ (el : Element) (l : List Element), (∀ el' ∈ l, el' = el ∨ el' ∈ c.ll) →
      l.map (Function.update c.value el e) ⊆ e :: c.entries := by
    intro el l hl e' he'
    obtain ⟨el', hel', rfl⟩ := List.mem_map.mp he'
    rw [Function.update_apply]
    split
    · exact List.mem_cons_self
    · next hne => exact List.mem_cons_of_mem _ (List.mem_map_of_mem ((hl el' hel').resolve_left hne))
  unfold put
  cases hit : c.items e.key with
  | some el =>
    refine hupdate el (el :: c.ll.erase el) fun el' hel' => ?_
    rcases List.mem_cons.mp hel' with rfl | hel'
    · exact .inl rfl
    · exact .inr (List.mem_of_mem_erase hel')
  | none =>
    obtain ⟨hsub, hvalue⟩ := (c.pushFront e).evict_subset
    dsimp only
    rw [entries, hvalue]
    exact hupdate c.next _ fun el' hel' => List.mem_cons.mp (hsub hel')

end ResponseCache

end ForecastIQ.Api
