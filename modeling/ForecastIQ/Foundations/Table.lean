import Mathlib.Data.List.Nodup
import Mathlib.Data.List.Basic

/-!
# Tables with a unique index

A table is the list of its rows, oldest first. A unique index gives a row a key, or
leaves the row out of the index (a partial index). `INSERT … ON CONFLICT DO NOTHING`
keeps the table as it is when an indexed row already has the key of the new row, and
appends the new row otherwise.
-/

namespace ForecastIQ.Foundations

variable {α κ : Type*} [DecidableEq κ]

/-- The new row has the key of a row of the table. -/
def conflicts (index : α → Option κ) (table : List α) (row : α) : Bool :=
  (index row).isSome && table.any fun r => index r = index row

/-- Insert one row, or do nothing on conflict. -/
def insertNew (index : α → Option κ) (table : List α) (row : α) : List α :=
  if conflicts index table row then table else table ++ [row]

/-- Insert the rows one after another, each against the table that the earlier ones left. -/
def insertAll (index : α → Option κ) (table rows : List α) : List α := rows.foldl (insertNew index) table

/-- The keys of the indexed rows. -/
def keys (index : α → Option κ) (table : List α) : List κ := table.filterMap index

theorem conflicts_iff {index : α → Option κ} {table : List α} {row : α} :
    conflicts index table row = true ↔ ∃ k, index row = some k ∧ k ∈ keys index table := by
  simp only [conflicts, Bool.and_eq_true, List.any_eq_true, decide_eq_true_eq, keys, List.mem_filterMap,
    Option.isSome_iff_exists]
  constructor
  · rintro ⟨⟨k, hk⟩, r, hr, he⟩
    exact ⟨k, hk, r, hr, he.trans hk⟩
  · rintro ⟨k, hk, r, hr, he⟩
    exact ⟨⟨k, hk⟩, r, hr, he.trans hk.symm⟩

omit [DecidableEq κ] in
theorem keys_concat (index : α → Option κ) (table : List α) (row : α) :
    keys index (table ++ [row]) = keys index table ++ (index row).toList := by
  rw [keys, List.filterMap_append, ← keys]
  cases h : index row <;> simp [h]

omit [DecidableEq κ] in
/-- A row with a new key keeps the index unique. -/
theorem nodup_keys_concat {index : α → Option κ} {table : List α} (h : (keys index table).Nodup) {row : α}
    (hnew : ∀ k, index row = some k → k ∉ keys index table) : (keys index (table ++ [row])).Nodup := by
  rw [keys_concat]
  cases hk : index row with
  | none => simpa using h
  | some k =>
    rw [Option.toList_some, ← List.concat_eq_append]
    exact h.concat (hnew k hk)

/-- The inserted rows come after the rows of the table, and are among the new ones. -/
theorem insertAll_eq_append (index : α → Option κ) (table rows : List α) :
    ∃ added, insertAll index table rows = table ++ added ∧ added.Sublist rows := by
  induction rows generalizing table with
  | nil => exact ⟨[], by simp [insertAll], List.nil_sublist _⟩
  | cons r rows ih =>
    obtain ⟨added, he, hs⟩ := ih (insertNew index table r)
    rw [insertAll, List.foldl_cons, ← insertAll, he, insertNew]
    split_ifs
    · exact ⟨added, rfl, hs.cons r⟩
    · exact ⟨r :: added, by simp, hs.cons_cons r⟩

theorem mem_insertAll_of_mem {index : α → Option κ} {table rows : List α} {r : α} (h : r ∈ table) :
    r ∈ insertAll index table rows := by
  obtain ⟨added, he, -⟩ := insertAll_eq_append index table rows
  rw [he]
  exact List.mem_append_left _ h

theorem mem_of_mem_insertAll {index : α → Option κ} {table rows : List α} {r : α}
    (h : r ∈ insertAll index table rows) : r ∈ table ∨ r ∈ rows := by
  obtain ⟨added, he, hs⟩ := insertAll_eq_append index table rows
  rw [he, List.mem_append] at h
  exact h.imp_right fun hr => hs.subset hr

/-- Inserting adds the keys that were not there, and no others. -/
theorem mem_keys_insertAll {index : α → Option κ} {table rows : List α} {k : κ} :
    k ∈ keys index (insertAll index table rows) ↔ k ∈ keys index table ∨ k ∈ keys index rows := by
  induction rows generalizing table with
  | nil => simp [insertAll, keys]
  | cons r rows ih =>
    rw [insertAll, List.foldl_cons, ← insertAll, ih, insertNew]
    split_ifs with hc
    · obtain ⟨k', hk', hmem⟩ := conflicts_iff.mp hc
      simp only [keys, List.filterMap_cons, hk', List.mem_cons]
      constructor
      · rintro (h | h)
        · exact .inl h
        · exact .inr (.inr h)
      · rintro (h | rfl | h)
        · exact .inl h
        · exact .inl hmem
        · exact .inr h
    · simp only [keys, List.filterMap_append, List.mem_append, List.filterMap_cons, List.filterMap_nil]
      cases index r <;> simp [or_assoc]

/-- The index stays unique. -/
theorem nodup_keys_insertAll {index : α → Option κ} {table : List α} (h : (keys index table).Nodup) (rows : List α) :
    (keys index (insertAll index table rows)).Nodup := by
  induction rows generalizing table with
  | nil => exact h
  | cons r rows ih =>
    rw [insertAll, List.foldl_cons, ← insertAll]
    refine ih ?_
    rw [insertNew]
    split_ifs with hc
    · exact h
    · rw [conflicts_iff, not_exists] at hc
      exact nodup_keys_concat h fun k hk hmem => hc k ⟨hk, hmem⟩

omit [DecidableEq κ] in
/-- A key is of one row. -/
theorem eq_of_nodup_keys {index : α → Option κ} {table : List α} (h : (keys index table).Nodup) {a b : α}
    (ha : a ∈ table) (hb : b ∈ table) {k : κ} (hka : index a = some k) (hkb : index b = some k) : a = b := by
  induction table with
  | nil => cases ha
  | cons r table ih =>
    have hmem : ∀ c ∈ table, index c = some k → k ∈ keys index table := fun c hc hk =>
      List.mem_filterMap.mpr ⟨c, hc, hk⟩
    rcases List.mem_cons.mp ha with rfl | ha' <;> rcases List.mem_cons.mp hb with rfl | hb'
    · rfl
    · rw [keys, List.filterMap_cons_some hka, List.nodup_cons] at h
      exact absurd (hmem b hb' hkb) h.1
    · rw [keys, List.filterMap_cons_some hkb, List.nodup_cons] at h
      exact absurd (hmem a ha' hka) h.1
    · refine ih ?_ ha' hb'
      rw [keys, List.filterMap_cons] at h
      cases hk : index r with
      | none => rwa [hk] at h
      | some k' =>
        rw [hk] at h
        exact (List.nodup_cons.mp h).2

/-- Rows whose keys are all there change nothing. -/
theorem insertAll_eq_self {index : α → Option κ} {table rows : List α}
    (h : ∀ r ∈ rows, ∃ k, index r = some k ∧ k ∈ keys index table) : insertAll index table rows = table := by
  induction rows with
  | nil => rfl
  | cons r rows ih =>
    rw [insertAll, List.foldl_cons, ← insertAll, insertNew, if_pos (conflicts_iff.mpr (h r List.mem_cons_self))]
    exact ih fun r' hr' => h r' (List.mem_cons_of_mem _ hr')

/-- Rows with new and different keys are all inserted. -/
theorem insertAll_eq_of_disjoint {index : α → Option κ} {table rows : List α} (hn : (keys index rows).Nodup)
    (hd : ∀ k ∈ keys index rows, k ∉ keys index table) : insertAll index table rows = table ++ rows := by
  induction rows generalizing table with
  | nil => simp [insertAll]
  | cons r rows ih =>
    have hc : conflicts index table r = false := by
      rw [← Bool.not_eq_true, conflicts_iff]
      rintro ⟨k, hk, hmem⟩
      exact hd k (List.mem_filterMap.mpr ⟨r, List.mem_cons_self, hk⟩) hmem
    rw [insertAll, List.foldl_cons, ← insertAll, insertNew, hc, if_neg (by simp), ih]
    · simp
    · simp only [keys, List.filterMap_cons] at hn ⊢
      cases hk : index r with
      | none => simpa [hk] using hn
      | some k => rw [hk] at hn; exact (List.nodup_cons.mp hn).2
    · intro k hk hmem
      simp only [keys, List.filterMap_append, List.mem_append] at hmem
      rcases hmem with hmem | hmem
      · refine hd k ?_ hmem
        obtain ⟨r', hr', he⟩ := List.mem_filterMap.mp hk
        exact List.mem_filterMap.mpr ⟨r', List.mem_cons_of_mem _ hr', he⟩
      · obtain ⟨r', hr', he⟩ := List.mem_filterMap.mp hmem
        rw [List.mem_singleton] at hr'
        subst hr'
        simp only [keys, List.filterMap_cons, he] at hn
        exact (List.nodup_cons.mp hn).1 hk

end ForecastIQ.Foundations
