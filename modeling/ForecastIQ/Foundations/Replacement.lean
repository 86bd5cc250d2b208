import Mathlib.Data.List.Basic
import Mathlib.Data.List.Pairwise

/-!
# Replacing by key

A batch of values takes the place of those that have its keys (`replaceBy`). Batches with keys of
their own can be put in one after another or all at once (`foldl_replaceBy`), and putting the same
batch in again changes nothing (`replaceBy_self`).
-/

namespace ForecastIQ.Foundations

variable {α κ : Type*} [DecidableEq κ] (key : α → κ)

/-- The values whose keys the batch does not have, and the batch. -/
def replaceBy (values batch : List α) : List α := (values.filter fun a => key a ∉ batch.map key) ++ batch

variable {key}

theorem filter_notMem_keys_self (batch : List α) : (batch.filter fun a => key a ∉ batch.map key) = [] :=
  List.filter_eq_nil_iff.mpr fun _ ha h => of_decide_eq_true h (List.mem_map_of_mem ha)

theorem filter_notMem_keys {b c : List α} (h : ∀ a ∈ b, key a ∉ c.map key) :
    (b.filter fun a => key a ∉ c.map key) = b :=
  List.filter_eq_self.mpr fun a ha => decide_eq_true (h a ha)

theorem replaceBy_self (values batch : List α) :
    replaceBy key (replaceBy key values batch) batch = replaceBy key values batch := by
  rw [replaceBy, replaceBy, List.filter_append, filter_notMem_keys_self, List.append_nil, List.filter_filter]
  simp only [Bool.and_self]

/-- Two batches with different keys, one after the other. -/
theorem replaceBy_append {b c : List α} (h : ∀ a ∈ b, key a ∉ c.map key) (values : List α) :
    replaceBy key (replaceBy key values b) c = replaceBy key values (b ++ c) := by
  rw [replaceBy, replaceBy, replaceBy, List.filter_append, filter_notMem_keys h, List.filter_filter, List.append_assoc]
  congr 1
  refine List.filter_congr fun a _ => ?_
  rw [List.map_append]
  simp only [List.mem_append, not_or, Bool.decide_and, Bool.and_comm]

/-- Any number of batches, no two of which share a key. -/
theorem foldl_replaceBy {batches : List (List α)} (h : batches.Pairwise fun b c => ∀ a ∈ b, key a ∉ c.map key)
    (values : List α) : batches.foldl (replaceBy key) values = replaceBy key values batches.flatten := by
  induction batches generalizing values with
  | nil => simp [replaceBy]
  | cons b batches ih =>
    obtain ⟨hb, hrest⟩ := List.pairwise_cons.mp h
    have hkeys : ∀ a ∈ b, key a ∉ batches.flatten.map key := by
      intro a ha hmem
      obtain ⟨d, hd, he⟩ := List.mem_map.mp hmem
      obtain ⟨c, hc, hdc⟩ := List.mem_flatten.mp hd
      exact hb c hc a ha (List.mem_map.mpr ⟨d, hdc, he⟩)
    rw [List.foldl_cons, ih hrest, List.flatten_cons, replaceBy_append hkeys]

/-- What is read off the values, where it still tells the key. -/
theorem filterMap_replaceBy {β : Type*} {f : α → Option β} {keyOf : β → κ}
    (h : ∀ a b, f a = some b → keyOf b = key a) (values batch : List α) :
    (replaceBy key values batch).filterMap f =
      ((values.filterMap f).filter fun b => keyOf b ∉ batch.map key) ++ batch.filterMap f := by
  rw [replaceBy, List.filterMap_append, List.filter_filterMap, List.filterMap_filter]
  congr 2
  funext a
  cases hf : f a with
  | none => simp
  | some b => rw [Option.filter_some, h a b hf]

end ForecastIQ.Foundations
