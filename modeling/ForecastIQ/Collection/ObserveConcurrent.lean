import ForecastIQ.Collection.Chains
import ForecastIQ.Foundations.Runs
import Mathlib.Logic.Function.Basic

/-!
# Concurrent observation runs

`Observe` is one transaction under READ COMMITTED: it reads the live rows of its window,
supersedes the rows it corrects one statement at a time, and inserts its rows. Here any
number of such transactions run at once, statement by statement, and the rows of an
insert one by one:

* a superseding statement waits for the transaction that has superseded its row, and then
  tests the row again; when the row is not live any more it fails the transaction;
* an insert waits for a transaction that has inserted a row with its key, and for one that
  has superseded a row with its key, since the index still holds that row; then it is
  passed over when a live row has its key;
* marks and inserted rows become visible on commit, all at once.

A transaction sees the committed table with its own marks, and its own rows. A rollback
can come at any time.

A transaction that runs alone does what `observe` says (`Reachable.observe`).
-/

namespace ForecastIQ.Collection

open ForecastIQ.Foundations

/-! ### Transactions -/

/-- How far a transaction is. -/
inductive Progress where
  /-- The rows were fetched, and nothing was read. -/
  | fetched (rows : List Observation)
  /-- The decisions are made; the corrections and rows that are left. -/
  | decided (corrections : List Correction) (toInsert : List Observation)

/-- A transaction that has begun and not ended: its request, what is left to do, and what it has
written. -/
structure ObserveTx where
  source : String
  locationID : ℕ
  windowStart : ℤ
  windowEnd : ℤ
  progress : Progress
  marks : List Correction
  inserted : List Observation

/-- The rows that are not inserted yet. -/
def ObserveTx.rowsLeft (t : ObserveTx) : List Observation :=
  match t.progress with
  | .fetched rows => rows
  | .decided _ toInsert => toInsert

/-- The corrections that are not made yet. -/
def ObserveTx.correctionsLeft (t : ObserveTx) : List Correction :=
  match t.progress with
  | .fetched _ => []
  | .decided corrections _ => corrections

/-- What the transaction sees of the committed table. -/
def ObserveTx.view (t : ObserveTx) (table : List Observation) : List Observation :=
  table.map (markAll t.marks) ++ t.inserted

/-- The committed table, the running transactions, their number so far and the next identifier. -/
structure ObserveState where
  table : List Observation
  txs : ℕ → Option ObserveTx
  count : ℕ
  nextID : ℕ

/-- The empty table, with no transaction. -/
def ObserveState.empty : ObserveState := ⟨[], fun _ => none, 0, 0⟩

/-- Replace a running transaction, or end it. -/
def ObserveState.set (s : ObserveState) (i : ℕ) (t : Option ObserveTx) : ObserveState :=
  { s with txs := Function.update s.txs i t }

/-- Some other running transaction satisfies the condition. -/
def ObserveState.anyOther (s : ObserveState) (i : ℕ) (p : ObserveTx → Bool) : Bool :=
  (List.range s.count).any fun j => j ≠ i && (s.txs j).any p

/-- The transaction has superseded the row. -/
def ObserveTx.marked (t : ObserveTx) (id : ℕ) : Bool := t.marks.any fun c => c.oldID = id

/-- The transaction has written to the index under the key. -/
def ObserveTx.holds (t : ObserveTx) (table : List Observation) (k : String × ℕ × ℤ) : Bool :=
  (t.inserted.any fun o => o.hourKey = k) || table.any fun o => o.hourKey = k && t.marked o.id

/-- One statement of a transaction, or its end. -/
inductive ObserveAct where
  /-- A fetch has succeeded, and its transaction begins. -/
  | beginTx (source : String) (locationID : ℕ) (windowStart windowEnd : ℤ) (readings : List Reading)
  /-- `ListCurrentByWindow`, and the decisions. -/
  | read (i : ℕ)
  /-- The next `Supersede`. -/
  | supersede (i : ℕ)
  /-- The next row of `InsertBatch`. -/
  | insert (i : ℕ)
  | commit (i : ℕ)
  | abort (i : ℕ)

/-- The transaction after its read. -/
def ObserveTx.decide (t : ObserveTx) (table : List Observation) (rows : List Observation) : ObserveTx :=
  let existing := (ObservationStore.mk table 0).listCurrentByWindow t.source t.locationID t.windowStart t.windowEnd
  let decisions := rows.map (decision existing)
  { t with progress := .decided (decisions.filterMap Decision.correction?) (decisions.filterMap Decision.row?) }

/-- The transaction after it has superseded a row. -/
def ObserveTx.supersede (t : ObserveTx) (c : Correction) (corrections : List Correction) (toInsert : List Observation) :
    ObserveTx :=
  { t with progress := .decided corrections toInsert, marks := t.marks ++ [c] }

/-- The transaction after it has inserted a row, or passed over it. -/
def ObserveTx.insert (t : ObserveTx) (table : List Observation) (o : Observation) (toInsert : List Observation) :
    ObserveTx :=
  { t with
    progress := .decided [] toInsert
    inserted := if conflicts Observation.dedupKey (t.view table) o.storedRow then t.inserted
      else t.inserted ++ [o.storedRow] }

/-- One act; `none` when the transaction cannot take it now. -/
def ObserveState.step (s : ObserveState) : ObserveAct → Option ObserveState
  | .beginTx source locationID windowStart windowEnd readings =>
    let t : ObserveTx := ⟨source, locationID, windowStart, windowEnd,
      .fetched (fetchedRows s.nextID locationID source readings), [], []⟩
    some { s.set s.count (some t) with count := s.count + 1, nextID := s.nextID + readings.length }
  | .read i => do
    let t ← s.txs i
    match t.progress with
    | .fetched rows => some (s.set i (some (t.decide s.table rows)))
    | .decided _ _ => none
  | .supersede i => do
    let t ← s.txs i
    match t.progress with
    | .decided (c :: corrections) toInsert =>
      if s.anyOther i fun u => u.marked c.oldID then none
      else if (t.view s.table).any fun o => o.id = c.oldID ∧ o.observedAt = c.oldObservedAt ∧ o.live = true then
        some (s.set i (some (t.supersede c corrections toInsert)))
      else some (s.set i none)
    | _ => none
  | .insert i => do
    let t ← s.txs i
    match t.progress with
    | .decided [] (o :: toInsert) =>
      if s.anyOther i fun u => u.holds s.table o.indexKey then none
      else if o.accepted then some (s.set i (some (t.insert s.table o toInsert)))
      else some (s.set i none)
    | _ => none
  | .commit i => do
    let t ← s.txs i
    match t.progress with
    | .decided [] [] => some { s.set i none with table := t.view s.table }
    | _ => none
  | .abort i => do
    let _ ← s.txs i
    some (s.set i none)

/-- The states that any interleaving reaches. -/
inductive ObserveState.Reachable : ObserveState → Prop where
  | init : Reachable .empty
  | step {s s' : ObserveState} {a : ObserveAct} : Reachable s → s.step a = some s' → Reachable s'

/-! ### What an act does -/

/-- Everything an act can do, with its guards. -/
inductive ObserveState.Stepped (s : ObserveState) : ObserveAct → ObserveState → Prop where
  | beginTx (source : String) (locationID : ℕ) (windowStart windowEnd : ℤ) (readings : List Reading) :
      Stepped s (.beginTx source locationID windowStart windowEnd readings)
        { s.set s.count (some ⟨source, locationID, windowStart, windowEnd,
            .fetched (fetchedRows s.nextID locationID source readings), [], []⟩) with
          count := s.count + 1, nextID := s.nextID + readings.length }
  | read {i : ℕ} {t : ObserveTx} {rows : List Observation} : s.txs i = some t → t.progress = .fetched rows →
      Stepped s (.read i) (s.set i (some (t.decide s.table rows)))
  | supersede {i : ℕ} {t : ObserveTx} {c : Correction} {corrections : List Correction} {toInsert : List Observation} :
      s.txs i = some t → t.progress = .decided (c :: corrections) toInsert →
      s.anyOther i (fun u => u.marked c.oldID) = false →
      (∃ o ∈ t.view s.table, o.id = c.oldID ∧ o.observedAt = c.oldObservedAt ∧ o.live = true) →
      Stepped s (.supersede i) (s.set i (some (t.supersede c corrections toInsert)))
  | insert {i : ℕ} {t : ObserveTx} {o : Observation} {toInsert : List Observation} : s.txs i = some t →
      t.progress = .decided [] (o :: toInsert) → s.anyOther i (fun u => u.holds s.table o.indexKey) = false →
      Stepped s (.insert i) (s.set i (some (t.insert s.table o toInsert)))
  | commit {i : ℕ} {t : ObserveTx} : s.txs i = some t → t.progress = .decided [] [] →
      Stepped s (.commit i) { s.set i none with table := t.view s.table }
  /-- A statement failed, or the transaction was rolled back. -/
  | ended {a : ObserveAct} {i : ℕ} {t : ObserveTx} : s.txs i = some t → Stepped s a (s.set i none)

theorem ObserveState.stepped_of_step {s s' : ObserveState} {a : ObserveAct} (h : s.step a = some s') :
    s.Stepped a s' := by
  cases a with
  | beginTx source locationID windowStart windowEnd readings =>
    cases h
    exact .beginTx source locationID windowStart windowEnd readings
  | read i =>
    obtain ⟨t, ht, h⟩ := Option.bind_eq_some_iff.mp h
    split at h
    · rename_i hp
      cases h
      exact .read ht hp
    · cases h
  | supersede i =>
    obtain ⟨t, ht, h⟩ := Option.bind_eq_some_iff.mp h
    split at h
    · rename_i hp
      split at h
      · cases h
      · rename_i hwait
        split at h
        · rename_i hany
          cases h
          refine .supersede ht hp (Bool.eq_false_iff.mpr hwait) ?_
          simpa using hany
        · cases h
          exact .ended ht
    · cases h
  | insert i =>
    obtain ⟨t, ht, h⟩ := Option.bind_eq_some_iff.mp h
    split at h
    · rename_i hp
      split at h
      · cases h
      · rename_i hwait
        split at h
        · cases h
          exact .insert ht hp (Bool.eq_false_iff.mpr hwait)
        · cases h
          exact .ended ht
    · cases h
  | commit i =>
    obtain ⟨t, ht, h⟩ := Option.bind_eq_some_iff.mp h
    split at h
    · rename_i hp
      cases h
      exact .commit ht hp
    · cases h
  | abort i =>
    obtain ⟨t, ht, h⟩ := Option.bind_eq_some_iff.mp h
    cases h
    exact .ended ht

/-- The acts one after another. -/
def ObserveState.run (s : ObserveState) (acts : List ObserveAct) : Option ObserveState := acts.foldlM step s

theorem ObserveState.Reachable.run {s s' : ObserveState} (h : s.Reachable) {acts : List ObserveAct}
    (hrun : s.run acts = some s') : s'.Reachable :=
  foldlM_invariant (fun _ _ _ => .step) h hrun

/-! ### A transaction that runs alone -/

section Alone

variable {s : ObserveState} {i : ℕ} {t : ObserveTx}

@[simp] theorem ObserveState.set_set (s : ObserveState) (i : ℕ) (t t' : Option ObserveTx) :
    (s.set i t).set i t' = s.set i t' := by
  simp [set]

@[simp] theorem ObserveState.txs_set_self (s : ObserveState) (i : ℕ) (t : Option ObserveTx) : (s.set i t).txs i = t :=
  Function.update_self ..

@[simp] theorem ObserveState.table_set (s : ObserveState) (i : ℕ) (t : Option ObserveTx) :
    (s.set i t).table = s.table := rfl

theorem ObserveState.anyOther_of_alone (h : ∀ j, j ≠ i → s.txs j = none) (t : Option ObserveTx)
    (p : ObserveTx → Bool) : (s.set i t).anyOther i p = false := by
  simp only [anyOther, List.any_eq_false, Bool.and_eq_true, decide_eq_true_eq, not_and]
  intro j _ hj
  have hnone : (s.set i t).txs j = none := (Function.update_of_ne hj _ _).trans (h j hj)
  simp [hnone]

/-- All its superseding statements do what `supersede` does to what it sees. -/
theorem ObserveState.Reachable.supersedeAll {corrections : List Correction} {toInsert rows' : List Observation}
    (h : (s.set i (some t)).Reachable) (halone : ∀ j, j ≠ i → s.txs j = none)
    (hp : t.progress = .decided corrections toInsert) (hins : t.inserted = [])
    (hfold : corrections.foldlM Collection.supersede (t.view s.table) = some rows') :
    ∃ t', (s.set i (some t')).Reachable ∧ t'.progress = .decided [] toInsert ∧ t'.view s.table = rows' := by
  induction corrections generalizing t with
  | nil =>
    cases hfold
    exact ⟨t, h, hp, rfl⟩
  | cons c corrections ih =>
    rw [List.foldlM_cons] at hfold
    obtain ⟨mid, hmid, hfold⟩ := Option.bind_eq_some_iff.mp hfold
    rw [Collection.supersede] at hmid
    split_ifs at hmid with hany
    cases hmid
    have hview : (t.supersede c corrections toInsert).view s.table = (t.view s.table).map c.mark := by
      simp [ObserveTx.view, ObserveTx.supersede, hins, markAll, Function.comp_def]
    have hstep : (s.set i (some t)).step (.supersede i) =
        some (s.set i (some (t.supersede c corrections toInsert))) := by
      simp only [ObserveState.step, txs_set_self, Option.bind_eq_bind, Option.bind_some, hp, table_set,
        anyOther_of_alone halone, Bool.false_eq_true, if_false, hany, if_true, set_set]
    exact ih (h.step hstep) rfl hins (by rw [hview]; exact hfold)

theorem ObserveTx.view_insert (t : ObserveTx) (table : List Observation) (o : Observation)
    (toInsert : List Observation) :
    (t.insert table o toInsert).view table = insertNew Observation.dedupKey (t.view table) o.storedRow := by
  have hview : (t.insert table o toInsert).view table = table.map (markAll t.marks) ++
      if conflicts Observation.dedupKey (t.view table) o.storedRow then t.inserted
      else t.inserted ++ [o.storedRow] := rfl
  rw [hview, insertNew]
  split_ifs
  · rfl
  · rw [← List.append_assoc]
    rfl

/-- Its inserts do what `insertAll` does to what it sees. -/
theorem ObserveState.Reachable.insertRows {toInsert : List Observation} (h : (s.set i (some t)).Reachable)
    (halone : ∀ j, j ≠ i → s.txs j = none) (hp : t.progress = .decided [] toInsert)
    (haccepted : ∀ o ∈ toInsert, o.accepted = true) :
    ∃ t', (s.set i (some t')).Reachable ∧ t'.progress = .decided [] [] ∧
      t'.view s.table = insertAll Observation.dedupKey (t.view s.table) (toInsert.map Observation.storedRow) := by
  induction toInsert generalizing t with
  | nil => exact ⟨t, h, hp, rfl⟩
  | cons o toInsert ih =>
    have hstep : (s.set i (some t)).step (.insert i) = some (s.set i (some (t.insert s.table o toInsert))) := by
      simp only [ObserveState.step, txs_set_self, Option.bind_eq_bind, Option.bind_some, hp, table_set,
        anyOther_of_alone halone, Bool.false_eq_true, if_false, haccepted o List.mem_cons_self, if_true, set_set]
    obtain ⟨t', hr, hp', hv⟩ := ih (h.step hstep) rfl fun o ho => haccepted o (List.mem_cons_of_mem _ ho)
    refine ⟨t', hr, hp', ?_⟩
    rw [hv, ObserveTx.view_insert]
    rfl

/-- **A run of `observe` is a transaction that runs alone.** -/
theorem ObserveState.Reachable.observe (h : s.Reachable) (halone : ∀ j, s.txs j = none) {active : Bool}
    {source : String} {locationID : ℕ} {windowStart windowEnd : ℤ} {fetched : Option (List Reading)} {n : ℕ}
    {st : ObservationStore}
    (hobs : Collection.observe active source locationID windowStart windowEnd fetched ⟨s.table, s.nextID⟩ =
      .ok (n, st)) :
    ∃ s' : ObserveState, s'.Reachable ∧ (∀ j, s'.txs j = none) ∧ s'.table = st.rows ∧ s'.nextID = st.nextID := by
  obtain ⟨-, readings, -, rows, rfl, rfl, hsup, hacc, rfl, -⟩ := observe_eq_ok.mp hobs
  -- the transaction begins and reads
  set rows0 := fetchedRows s.nextID locationID source readings with hrows0
  set t0 : ObserveTx := ⟨source, locationID, windowStart, windowEnd, .fetched rows0, [], []⟩ with ht0
  set s1 : ObserveState := { s with count := s.count + 1, nextID := s.nextID + readings.length } with hs1
  have halone1 : ∀ j, j ≠ s.count → s1.txs j = none := fun j _ => halone j
  have hbegin : (s1.set s.count (some t0)).Reachable :=
    ObserveState.Reachable.step (a := .beginTx source locationID windowStart windowEnd readings) h rfl
  have hread : (s1.set s.count (some (t0.decide s1.table rows0))).Reachable := by
    refine ObserveState.Reachable.step (a := .read s.count) hbegin ?_
    simp only [ObserveState.step, txs_set_self, Option.bind_eq_bind, Option.bind_some, table_set, set_set, ht0]
  have hview : (t0.decide s1.table rows0).view s1.table = s.table := (List.append_nil _).trans (List.map_id _)
  -- it supersedes, inserts and commits
  obtain ⟨t1, hr1, hp1, hv1⟩ := hread.supersedeAll halone1 rfl rfl (by rw [hview]; exact hsup)
  obtain ⟨t2, hr2, hp2, hv2⟩ := hr1.insertRows halone1 hp1 hacc
  refine ⟨_, ObserveState.Reachable.step (a := .commit s.count) hr2 (by
    simp only [ObserveState.step, txs_set_self, Option.bind_eq_bind, Option.bind_some, hp2, table_set, set_set]
    rfl), fun j => ?_, ?_, rfl⟩
  · by_cases hj : j = s.count
    · rw [hj]
      exact txs_set_self ..
    · exact (Function.update_of_ne hj _ _).trans (halone1 j hj)
  · change t2.view s1.table = _
    rw [hv2, hv1]
    rfl

end Alone

end ForecastIQ.Collection
