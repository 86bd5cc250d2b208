import ForecastIQ.Foundations.Runs
import Mathlib.Data.List.Nodup
import Mathlib.Logic.Function.Basic
import Mathlib.Logic.Relation

/-!
# Publishing by insertion and supersession, under READ COMMITTED

A table keeps every row that was ever published; a row that was replaced points to the
row that superseded it, and the others are *live*. A transaction publishes a batch: one
statement inserts all rows of the batch, and then one statement for each of them marks
the other live rows with its key.

Transactions run one statement at a time, interleaved in any way. Under READ COMMITTED
such a marking statement

* takes its candidates when it starts, from the rows committed by then and the
  transaction's own rows;
* waits, at each candidate, for the transaction that has marked it;
* tests the latest version of the candidate again, and marks it or passes over it.

Marks and inserted rows become visible to the others on commit, and are lost on abort.

Two rows with one key can both be live after their transactions have committed: neither
statement sees the other row. They cannot when no marking statement starts while another
transaction holds an inserted row with its key (`Reaches.inv`).

For a transaction that runs alone there is a simpler description, `publish`, in which each
marking statement is one pass over the table.
-/

namespace ForecastIQ.Foundations.Supersession

/-- A row identifier: the transaction that inserts the row, and the place in its batch. -/
structure RowID where
  tx : ℕ
  index : ℕ
  deriving DecidableEq, Repr

/-- A row of the table. -/
structure Row (α : Type*) where
  id : RowID
  value : α
  supersededBy : Option RowID
  deriving DecidableEq, Repr

variable {α κ : Type*}

/-- No row has superseded the row. -/
def Row.live (r : Row α) : Bool := r.supersededBy.isNone

/-- The marks of a transaction: marked row, superseding row. -/
abbrev Marks := List (RowID × RowID)

/-- The version of a row that a transaction with these marks sees. -/
def Row.overlay (marks : Marks) (r : Row α) : Row α :=
  { r with supersededBy := (marks.lookup r.id).or r.supersededBy }

/-- A marking statement that has started: its row, and the candidates it has not reached yet. -/
structure Statement (α : Type*) where
  row : Row α
  candidates : List RowID

/-- A transaction that has begun and not ended. -/
structure Tx (α : Type*) where
  /-- The batch has been inserted. -/
  inserted : Bool
  /-- The rows whose marking statement has ended. -/
  done : List (Row α)
  current : Option (Statement α)
  /-- The rows whose marking statement has not started. -/
  todo : List (Row α)
  marks : Marks

/-- Transaction `i`, before its first statement. -/
def Tx.new (i : ℕ) (batch : List α) : Tx α :=
  ⟨false, [], none, batch.zipIdx.map fun p => ⟨⟨i, p.2⟩, p.1, none⟩, []⟩

/-- The rows whose marking statement has started. -/
def Tx.started (t : Tx α) : List (Row α) := t.done ++ (t.current.map Statement.row).toList

/-- The rows of the batch. -/
def Tx.rows (t : Tx α) : List (Row α) := t.started ++ t.todo

/-- What the transaction sees of a committed table. -/
def Tx.view (t : Tx α) (table : List (Row α)) : List (Row α) :=
  (table ++ if t.inserted then t.rows else []).map (Row.overlay t.marks)

/-- The committed table, the transactions that are running, and the number of those begun. -/
structure State (α : Type*) where
  table : List (Row α)
  txs : ℕ → Option (Tx α)
  count : ℕ

/-- The empty table, with no transaction. -/
def State.empty : State α := ⟨[], fun _ => none, 0⟩

/-- Replace a running transaction. -/
def State.set (s : State α) (i : ℕ) (t : Tx α) : State α := { s with txs := Function.update s.txs i (some t) }

/-- Another transaction has marked the row. -/
def State.lockedByOther (s : State α) (i : ℕ) (id : RowID) : Bool :=
  (List.range s.count).any fun j => j ≠ i && (s.txs j).any fun u => u.marks.any fun m => m.1 = id

/-- One action of the database, for a transaction. -/
inductive Act (α : Type*) where
  /-- A transaction begins; its batch is known. -/
  | beginTx (batch : List α)
  /-- The statement that inserts the batch. -/
  | insert (i : ℕ)
  /-- The next marking statement starts. -/
  | start (i : ℕ)
  /-- The marking statement treats its next candidate. -/
  | lock (i : ℕ)
  /-- The marking statement ends. -/
  | finish (i : ℕ)
  | commit (i : ℕ)
  /-- A rollback, for any reason. -/
  | abort (i : ℕ)

variable [DecidableEq κ] (key : α → κ)

/-- The condition of the marking statement of `r`. -/
def Row.supersedes (r v : Row α) : Bool := key v.value = key r.value && v.live && v.id ≠ r.id

/-- One action; `none` when the transaction cannot take it now. -/
def step (s : State α) : Act α → Option (State α)
  | .beginTx batch =>
    some { s with txs := Function.update s.txs s.count (some (.new s.count batch)), count := s.count + 1 }
  | .insert i => do
    let t ← s.txs i
    if t.inserted then none else some (s.set i { t with inserted := true })
  | .start i => do
    let t ← s.txs i
    match t.inserted, t.current, t.todo with
    | true, none, r :: rest =>
      let candidates := ((t.view s.table).filter (r.supersedes key)).map Row.id
      some (s.set i { t with current := some ⟨r, candidates⟩, todo := rest })
    | _, _, _ => none
  | .lock i => do
    let t ← s.txs i
    match t.current with
    | some ⟨r, c :: rest⟩ =>
      if s.lockedByOther i c then none
      else
        -- the latest version of the candidate is tested again
        let marks := if (t.view s.table).any fun v => v.id = c && r.supersedes key v then t.marks ++ [(c, r.id)]
          else t.marks
        some (s.set i { t with current := some ⟨r, rest⟩, marks := marks })
    | _ => none
  | .finish i => do
    let t ← s.txs i
    match t.current with
    | some ⟨r, []⟩ => some (s.set i { t with done := t.done ++ [r], current := none })
    | _ => none
  | .commit i => do
    let t ← s.txs i
    match t.inserted, t.current, t.todo with
    | true, none, [] => some { s with table := t.view s.table, txs := Function.update s.txs i none }
    | _, _, _ => none
  | .abort i => do
    let _ ← s.txs i
    some { s with txs := Function.update s.txs i none }

/-- The actions one after another, as long as the guard lets each of them through. -/
def runWhere (guard : State α → Act α → Bool) (s : State α) (acts : List (Act α)) : Option (State α) :=
  acts.foldlM (fun s a => if guard s a then step key s a else none) s

/-- The live rows with a key. -/
def liveRows (table : List (Row α)) (k : κ) : List (Row α) := table.filter fun r => key r.value = k && r.live

/-- The states that are reached by actions that are allowed where they are taken. -/
inductive Reaches (allowed : State α → Act α → Prop) : State α → Prop where
  | init : Reaches allowed .empty
  | step {s s' : State α} {a : Act α} : Reaches allowed s → allowed s a → step key s a = some s' → Reaches allowed s'

variable {key} in
/-- What a guarded run reaches is reached. -/
theorem Reaches.runWhere {allowed : State α → Act α → Prop} {guard : State α → Act α → Bool} {acts : List (Act α)}
    (hguard : ∀ a ∈ acts, ∀ s, guard s a = true → allowed s a) {s s' : State α} (h : Reaches key allowed s)
    (hs : Supersession.runWhere key guard s acts = some s') : Reaches key allowed s' := by
  rw [Supersession.runWhere, foldlM_eq_runFrom] at hs
  refine runFrom_invariant_of_along (fun s a t h hallowed ht => ?_) h (along_of_forall_mem hguard _) hs
  split_ifs at ht with hg
  exact h.step (hallowed s hg) ht

/-- The keys of a list of rows. -/
def keysOf (rows : List (Row α)) : List κ := rows.map fun r => key r.value

/-- A marking statement may start: no other transaction holds an inserted row with its key. -/
def State.sole (s : State α) : Act α → Bool
  | .start i => (s.txs i).all fun t => t.todo.head?.all fun r => (List.range s.count).all fun j =>
      j = i || (s.txs j).all fun u => !(u.inserted && decide (key r.value ∈ keysOf key u.rows))
  | _ => true

/-! ### What one action does -/

/-- Everything an action can do, with its guards. -/
inductive Stepped (s : State α) : Act α → State α → Prop where
  | beginTx (batch : List α) : Stepped s (.beginTx batch)
      { s with txs := Function.update s.txs s.count (some (.new s.count batch)), count := s.count + 1 }
  | insert {i : ℕ} {t : Tx α} : s.txs i = some t → Stepped s (.insert i) (s.set i { t with inserted := true })
  | start {i : ℕ} {t : Tx α} {r : Row α} {rest : List (Row α)} : s.txs i = some t → t.inserted = true →
      t.current = none → t.todo = r :: rest →
      Stepped s (.start i) (s.set i { t with
        current := some ⟨r, ((t.view s.table).filter (r.supersedes key)).map Row.id⟩, todo := rest })
  | lock {i : ℕ} {t : Tx α} {r : Row α} {c : RowID} {rest : List RowID} : s.txs i = some t →
      t.current = some ⟨r, c :: rest⟩ → s.lockedByOther i c = false →
      Stepped s (.lock i) (s.set i { t with
        current := some ⟨r, rest⟩
        marks := if (t.view s.table).any fun v => v.id = c && r.supersedes key v then t.marks ++ [(c, r.id)]
          else t.marks })
  | finish {i : ℕ} {t : Tx α} {r : Row α} : s.txs i = some t → t.current = some ⟨r, []⟩ →
      Stepped s (.finish i) (s.set i { t with done := t.done ++ [r], current := none })
  | commit {i : ℕ} {t : Tx α} : s.txs i = some t → t.inserted = true → t.current = none → t.todo = [] →
      Stepped s (.commit i) { s with table := t.view s.table, txs := Function.update s.txs i none }
  | abort {i : ℕ} {t : Tx α} : s.txs i = some t → Stepped s (.abort i) { s with txs := Function.update s.txs i none }

theorem stepped_of_step {s s' : State α} {a : Act α} (h : step key s a = some s') : Stepped key s a s' := by
  cases a with
  | beginTx batch =>
    cases h
    exact .beginTx batch
  | insert i =>
    obtain ⟨t, ht, h⟩ := Option.bind_eq_some_iff.mp h
    split_ifs at h
    cases h
    exact .insert ht
  | start i =>
    obtain ⟨t, ht, h⟩ := Option.bind_eq_some_iff.mp h
    split at h
    · rename_i h1 h2 h3
      cases h
      exact .start ht h1 h2 h3
    · cases h
  | lock i =>
    obtain ⟨t, ht, h⟩ := Option.bind_eq_some_iff.mp h
    split at h
    · rename_i h1
      split at h
      · cases h
      · rename_i h2
        cases h
        exact .lock ht h1 (Bool.eq_false_iff.mpr h2)
    · cases h
  | finish i =>
    obtain ⟨t, ht, h⟩ := Option.bind_eq_some_iff.mp h
    split at h
    · rename_i h1
      cases h
      exact .finish ht h1
    · cases h
  | commit i =>
    obtain ⟨t, ht, h⟩ := Option.bind_eq_some_iff.mp h
    split at h
    · rename_i h1 h2 h3
      cases h
      exact .commit ht h1 h2 h3
    · cases h
  | abort i =>
    obtain ⟨t, ht, h⟩ := Option.bind_eq_some_iff.mp h
    cases h
    exact .abort ht

omit [DecidableEq κ] in
theorem Row.live_overlay {marks : Marks} {r : Row α} :
    (r.overlay marks).live = true ↔ r.live = true ∧ r.id ∉ marks.map Prod.fst := by
  rw [Row.overlay, Row.live, Row.live, Option.isNone_or, Bool.and_eq_true, and_comm, Option.isNone_iff_eq_none,
    Option.isNone_iff_eq_none, List.lookup_eq_none_iff]
  simp only [bne_iff_ne, ne_eq, List.mem_map, not_exists, not_and]
  exact and_congr_right fun _ => forall₂_congr fun m _ => not_congr eq_comm

/-- The rows of a view are the committed rows and the transaction's own, with its marks. -/
theorem Tx.mem_view {t : Tx α} {table : List (Row α)} {v : Row α} (h : v ∈ t.view table) :
    ∃ r, v = r.overlay t.marks ∧ (r ∈ table ∨ r ∈ t.rows) := by
  obtain ⟨r, hr, rfl⟩ := List.mem_map.mp h
  refine ⟨r, rfl, (List.mem_append.mp hr).imp_right fun hr => ?_⟩
  split_ifs at hr
  · exact hr
  · simp at hr

theorem State.sole_start {s : State α} {i : ℕ} (h : s.sole key (.start i) = true) {t : Tx α} (ht : s.txs i = some t)
    {r : Row α} {rest : List (Row α)} (htodo : t.todo = r :: rest) {j : ℕ} {u : Tx α} (hu : s.txs j = some u)
    (hj : j < s.count) (hne : j ≠ i) (hins : u.inserted = true) : key r.value ∉ keysOf key u.rows := by
  simp only [sole, ht, htodo, Option.all_some, List.head?_cons, List.all_eq_true, List.mem_range] at h
  simpa [hne, hu, hins] using h j hj

/-! ### The invariant -/

/-- The transaction has marked the row, or its current statement, for the key of the row, still has
the row among its candidates. -/
def Tx.Covers (t : Tx α) (r : Row α) : Prop :=
  r.id ∈ t.marks.map Prod.fst ∨
    ∃ st, t.current = some st ∧ key st.row.value = key r.value ∧ r.id ∈ st.candidates

/-- What holds of transaction `i` over the committed table. -/
structure Tx.OK (table : List (Row α)) (i : ℕ) (t : Tx α) : Prop where
  own : ∀ r ∈ t.rows, r.id.tx = i
  nodup : (keysOf key t.rows).Nodup
  idle : t.inserted = false → t.started = []
  /-- The transaction will have marked every live row with a key it has started on. -/
  covered : ∀ r ∈ table, r.live = true → key r.value ∈ keysOf key t.started → t.Covers key r

/-- What holds in every reached state when marking statements start only where they may. -/
structure Inv (s : State α) : Prop where
  fresh : ∀ i, s.count ≤ i → s.txs i = none
  ok : ∀ i t, s.txs i = some t → t.OK key s.table i
  /-- At most one running transaction has started on a key. -/
  exclusive : ∀ i j t u, s.txs i = some t → s.txs j = some u →
    ∀ k ∈ keysOf key t.started, k ∈ keysOf key u.started → i = j
  ended : ∀ r ∈ s.table, s.txs r.id.tx = none ∧ r.id.tx < s.count
  unique : ∀ k, (liveRows key s.table k).length ≤ 1

theorem Inv.empty : Inv key (.empty : State α) where
  fresh := by simp [State.empty]
  ok := by simp [State.empty]
  exclusive := by simp [State.empty]
  ended := by simp [State.empty]
  unique := by simp [State.empty, liveRows]

variable {key} {s : State α} {i : ℕ} {t : Tx α}

theorem Inv.lt_count (h : Inv key s) (ht : s.txs i = some t) : i < s.count := by
  by_contra hi
  rw [h.fresh i (Nat.le_of_not_lt hi)] at ht
  cases ht

/-- The rows of a running transaction are not in the table. -/
theorem Inv.not_ended (h : Inv key s) (ht : s.txs i = some t) : ∀ r ∈ s.table, r.id.tx ≠ i := by
  rintro r hr rfl
  rw [(h.ended r hr).1] at ht
  cases ht

/-- An action that leaves the table alone and changes one transaction keeps the invariant, if the
new transaction is in order and has started on no key that another one has started on. -/
theorem Inv.update (h : Inv key s) {n : ℕ} {o : Option (Tx α)} (hi : i < n) (hn : s.count ≤ n)
    (hrows : ∀ r ∈ s.table, r.id.tx ≠ i)
    (hok : ∀ t, o = some t → t.OK key s.table i)
    (hex : ∀ t, o = some t → ∀ j u, j ≠ i → s.txs j = some u →
      ∀ k ∈ keysOf key t.started, k ∉ keysOf key u.started) :
    Inv key ⟨s.table, Function.update s.txs i o, n⟩ := by
  refine ⟨?_, ?_, ?_, ?_, h.unique⟩
  · intro j hj
    change n ≤ j at hj
    simp only [Function.update_apply]
    rw [if_neg (by omega)]
    exact h.fresh j (by omega)
  · intro j t ht
    simp only [Function.update_apply] at ht
    split_ifs at ht with hj
    · rw [hj]
      exact hok t ht
    · exact h.ok j t ht
  · intro j j' t u ht hu k hk hk'
    simp only [Function.update_apply] at ht hu
    split_ifs at ht with hj
    · split_ifs at hu with hj'
      · rw [hj, hj']
      · exact absurd hk' (hex t ht j' u hj' hu k hk)
    · split_ifs at hu with hj'
      · exact absurd hk (hex u hu j t hj ht k hk')
      · exact h.exclusive j j' t u ht hu k hk hk'
  · intro r hr
    simp only [Function.update_apply]
    rw [if_neg (hrows r hr)]
    exact ⟨(h.ended r hr).1, Nat.lt_of_lt_of_le (h.ended r hr).2 hn⟩

/-- The same for an action of a running transaction that starts on no key. -/
theorem Inv.set (h : Inv key s) (ht : s.txs i = some t) {t' : Tx α} (hok : t'.OK key s.table i)
    (hstarted : t'.started = t.started) : Inv key (s.set i t') := by
  refine h.update (h.lt_count ht) (Nat.le_refl _) (h.not_ended ht) ?_ ?_
  · rintro _ ⟨⟩
    exact hok
  · rintro _ ⟨⟩ j u hj hu k hk hk'
    rw [hstarted] at hk
    exact hj (h.exclusive j i u t hu ht k hk' hk)

theorem Inv.beginTx (h : Inv key s) {batch : List α} (hbatch : (batch.map key).Nodup) :
    Inv key { s with txs := Function.update s.txs s.count (some (.new s.count batch)), count := s.count + 1 } := by
  have hrows : (Tx.new s.count batch).rows = batch.zipIdx.map fun p => ⟨⟨s.count, p.2⟩, p.1, none⟩ := rfl
  have hkeys : keysOf key (Tx.new s.count batch).rows = batch.map key := by
    rw [hrows, keysOf, List.map_map]
    change batch.zipIdx.map (key ∘ Prod.fst) = batch.map key
    rw [← List.map_map, List.zipIdx_map_fst]
  refine h.update (Nat.lt_succ_self _) (Nat.le_succ _) (fun r hr => ?_) ?_ ?_
  · exact Nat.ne_of_lt (h.ended r hr).2
  · rintro _ ⟨⟩
    refine ⟨?_, by rw [hkeys]; exact hbatch, fun _ => rfl, ?_⟩
    · intro r hr
      rw [hrows] at hr
      obtain ⟨p, -, rfl⟩ := List.mem_map.mp hr
      rfl
    · intro r _ _ hk
      cases hk
  · rintro _ ⟨⟩ j u _ _ k hk
    cases hk

theorem Inv.insert (h : Inv key s) (ht : s.txs i = some t) : Inv key (s.set i { t with inserted := true }) := by
  obtain ⟨h1, h2, -, h4⟩ := h.ok i t ht
  refine h.set ht ⟨h1, h2, ?_, h4⟩ rfl
  intro hins
  cases hins

/-- Every live row with the key is a candidate when the statement starts. -/
theorem Inv.start (h : Inv key s) (ht : s.txs i = some t) (hins : t.inserted = true) (hcur : t.current = none)
    {r : Row α} {rest : List (Row α)} (htodo : t.todo = r :: rest) (hsole : s.sole key (.start i) = true) :
    Inv key (s.set i { t with
      current := some ⟨r, ((t.view s.table).filter (r.supersedes key)).map Row.id⟩, todo := rest }) := by
  set t' : Tx α := { t with
    current := some ⟨r, ((t.view s.table).filter (r.supersedes key)).map Row.id⟩, todo := rest } with ht'
  have hstarted : t'.started = t.started ++ [r] := by simp [ht', Tx.started, hcur]
  have hrows : t'.rows = t.rows := by
    rw [Tx.rows, hstarted, Tx.rows, htodo, List.append_assoc]
    rfl
  obtain ⟨h1, h2, -, h4⟩ := h.ok i t ht
  refine h.update (h.lt_count ht) (Nat.le_refl _) (h.not_ended ht) ?_ ?_
  · rintro _ ⟨⟩
    refine ⟨by rw [hrows]; exact h1, by rw [hrows]; exact h2, fun hno => ?_, ?_⟩
    · change t.inserted = false at hno
      rw [hins] at hno
      cases hno
    · intro v hv hlive hk
      rw [hstarted, keysOf, List.map_append, List.mem_append] at hk
      rcases hk with hk | hk
      · refine (h4 v hv hlive hk).imp_right ?_
        rintro ⟨st, hst, -⟩
        rw [hcur] at hst
        cases hst
      · by_cases hmark : v.id ∈ t.marks.map Prod.fst
        · exact .inl hmark
        · have hkey : key v.value = key r.value := by simpa using hk
          refine .inr ⟨_, rfl, hkey.symm, ?_⟩
          have hview : v.overlay t.marks ∈ t.view s.table :=
            List.mem_map.mpr ⟨v, List.mem_append_left _ hv, rfl⟩
          have hne : v.id ≠ r.id := by
            intro he
            refine h.not_ended ht v hv ?_
            rw [he]
            exact h1 r (by simp [Tx.rows, htodo])
          refine List.mem_map.mpr ⟨v.overlay t.marks, List.mem_filter.mpr ⟨hview, ?_⟩, rfl⟩
          have hl := Row.live_overlay.mpr ⟨hlive, hmark⟩
          simp only [Row.supersedes, hl, Bool.and_true, Bool.and_eq_true, decide_eq_true_eq]
          exact ⟨hkey, hne⟩
  · rintro _ ⟨⟩ j u hj hu k hk hk'
    rw [hstarted, keysOf, List.map_append, List.mem_append] at hk
    rcases hk with hk | hk
    · exact hj (h.exclusive j i u t hu ht k hk' hk)
    · -- the other transaction has started on the key, so it has inserted its row
      have hk : k = key r.value := by simpa using hk
      have huins : u.inserted = true := by
        by_contra hno
        rw [(h.ok j u hu).idle (by simpa using hno)] at hk'
        cases hk'
      refine State.sole_start key hsole ht htodo hu (h.lt_count hu) hj huins ?_
      rw [← hk, keysOf, Tx.rows, List.map_append]
      exact List.mem_append_left _ hk'

/-- A candidate that is passed over is no longer live, or the transaction's own mark is on it. -/
theorem Inv.lock (h : Inv key s) (ht : s.txs i = some t) {r : Row α} {c : RowID} {rest : List RowID}
    (hcur : t.current = some ⟨r, c :: rest⟩) :
    Inv key (s.set i { t with
      current := some ⟨r, rest⟩
      marks := if (t.view s.table).any fun v => v.id = c && r.supersedes key v then t.marks ++ [(c, r.id)]
        else t.marks }) := by
  have hrow : r ∈ t.rows := by simp [Tx.rows, Tx.started, hcur]
  have hstarted : t.started = t.done ++ [r] := by simp [Tx.started, hcur]
  obtain ⟨h1, h2, h3, h4⟩ := h.ok i t ht
  generalize hmarks : (if (t.view s.table).any fun v => v.id = c && r.supersedes key v then t.marks ++ [(c, r.id)]
    else t.marks) = marks
  have hsub : ∀ id ∈ t.marks.map Prod.fst, id ∈ marks.map Prod.fst := by
    intro id hid
    rw [← hmarks]
    split_ifs
    · rw [List.map_append]
      exact List.mem_append_left _ hid
    · exact hid
  set t' : Tx α := { t with current := some ⟨r, rest⟩, marks := marks } with ht'
  have hstarted' : t'.started = t.started := by
    rw [hstarted]
    rfl
  have hrows : t'.rows = t.rows := by
    rw [Tx.rows, hstarted']
    rfl
  refine h.set ht ⟨by rw [hrows]; exact h1, by rw [hrows]; exact h2, by rw [hstarted']; exact h3, ?_⟩ hstarted'
  intro v hv hlive hk
  rw [hstarted'] at hk
  rcases h4 v hv hlive hk with hmark | ⟨st, hst, hkey, hmem⟩
  · exact .inl (hsub _ hmark)
  rw [hcur, Option.some.injEq] at hst
  subst hst
  rcases List.mem_cons.mp hmem with hc | hmem
  · by_cases hmark : v.id ∈ t.marks.map Prod.fst
    · exact .inl (hsub _ hmark)
    have hany : ((t.view s.table).any fun v => v.id = c && r.supersedes key v) = true := by
      refine List.any_eq_true.mpr ⟨v.overlay t.marks, List.mem_map.mpr ⟨v, List.mem_append_left _ hv, rfl⟩, ?_⟩
      have hl := Row.live_overlay.mpr ⟨hlive, hmark⟩
      have hne : v.id ≠ r.id := by
        intro he
        refine h.not_ended ht v hv ?_
        rw [he]
        exact h1 r hrow
      simp only [Row.supersedes, hl, Bool.and_true, Bool.and_eq_true, decide_eq_true_eq]
      exact ⟨hc, hkey.symm, hne⟩
    rw [if_pos hany] at hmarks
    refine .inl ?_
    change v.id ∈ marks.map Prod.fst
    rw [← hmarks, hc]
    simp
  · exact .inr ⟨_, rfl, hkey, hmem⟩

theorem Inv.finish (h : Inv key s) (ht : s.txs i = some t) {r : Row α} (hcur : t.current = some ⟨r, []⟩) :
    Inv key (s.set i { t with done := t.done ++ [r], current := none }) := by
  set t' : Tx α := { t with done := t.done ++ [r], current := none } with ht'
  have hstarted : t'.started = t.started := by simp [ht', Tx.started, hcur]
  have hrows : t'.rows = t.rows := by
    rw [Tx.rows, hstarted]
    rfl
  obtain ⟨h1, h2, h3, h4⟩ := h.ok i t ht
  refine h.set ht ⟨by rw [hrows]; exact h1, by rw [hrows]; exact h2, by rw [hstarted]; exact h3, ?_⟩ hstarted
  intro v hv hlive hk
  rw [hstarted] at hk
  rcases h4 v hv hlive hk with hmark | ⟨st, hst, -, hmem⟩
  · exact .inl hmark
  · rw [hcur, Option.some.injEq] at hst
    subst hst
    cases hmem

/-- Committing leaves at most one live row with each key: the transaction has marked all the others
with the keys of its batch. -/
theorem Inv.unique_view (h : Inv key s) (ht : s.txs i = some t) (hins : t.inserted = true) (hcur : t.current = none)
    (htodo : t.todo = []) (k : κ) : (liveRows key (t.view s.table) k).length ≤ 1 := by
  have hstarted : t.started = t.rows := by rw [Tx.rows, htodo, List.append_nil]
  have hsplit : (liveRows key (t.view s.table) k).length =
      s.table.countP (fun r => key r.value = k && (r.overlay t.marks).live) +
        t.rows.countP (fun r => key r.value = k && (r.overlay t.marks).live) := by
    rw [liveRows, Tx.view, if_pos hins, ← List.countP_eq_length_filter, List.countP_map, List.countP_append]
    rfl
  rw [hsplit]
  by_cases hk : k ∈ keysOf key t.rows
  · have hzero : s.table.countP (fun r => key r.value = k && (r.overlay t.marks).live) = 0 := by
      rw [List.countP_eq_zero]
      intro r hr hr'
      rw [Bool.and_eq_true, decide_eq_true_eq, Row.live_overlay] at hr'
      obtain ⟨hkey, hlive, hno⟩ := hr'
      rcases (h.ok i t ht).covered r hr hlive (by rw [hstarted, hkey]; exact hk) with hmark | ⟨st, hst, -⟩
      · exact hno hmark
      · rw [hcur] at hst
        cases hst
    have hone : (keysOf key t.rows).count k ≤ 1 := List.nodup_iff_count_le_one.mp (h.ok i t ht).nodup k
    rw [keysOf, List.count, List.countP_map] at hone
    rw [hzero, Nat.zero_add]
    refine Nat.le_trans (List.countP_mono_left fun r _ hr => ?_) hone
    rw [Bool.and_eq_true, decide_eq_true_eq] at hr
    exact beq_iff_eq.mpr hr.1
  · have hzero : t.rows.countP (fun r => key r.value = k && (r.overlay t.marks).live) = 0 := by
      rw [List.countP_eq_zero]
      intro r hr hr'
      rw [Bool.and_eq_true, decide_eq_true_eq] at hr'
      exact hk (List.mem_map.mpr ⟨r, hr, hr'.1⟩)
    rw [hzero, Nat.add_zero]
    refine Nat.le_trans (List.countP_mono_left fun r _ hr => ?_) (List.countP_eq_length_filter ▸ h.unique k)
    rw [Bool.and_eq_true, Row.live_overlay] at hr
    rw [Bool.and_eq_true]
    exact ⟨hr.1, hr.2.1⟩

theorem Inv.commit (h : Inv key s) (ht : s.txs i = some t) (hins : t.inserted = true) (hcur : t.current = none)
    (htodo : t.todo = []) : Inv key { s with table := t.view s.table, txs := Function.update s.txs i none } := by
  have hstarted : t.started = t.rows := by rw [Tx.rows, htodo, List.append_nil]
  have hother : ∀ j u, Function.update s.txs i none j = some u → j ≠ i ∧ s.txs j = some u := by
    intro j u hu
    rw [Function.update_apply] at hu
    split_ifs at hu with hj
    exact ⟨hj, hu⟩
  refine ⟨?_, ?_, ?_, ?_, h.unique_view ht hins hcur htodo⟩
  · intro j hj
    simp only [Function.update_apply]
    split_ifs
    · rfl
    · exact h.fresh j hj
  · intro j u hu
    obtain ⟨hj, hu⟩ := hother j u hu
    obtain ⟨h1, h2, h3, h4⟩ := h.ok j u hu
    refine ⟨h1, h2, h3, ?_⟩
    intro v hv hlive hk
    obtain ⟨r, rfl, hr | hr⟩ := Tx.mem_view hv
    · exact h4 r hr (Row.live_overlay.mp hlive).1 hk
    · refine absurd (h.exclusive j i u t hu ht _ hk ?_) hj
      rw [hstarted]
      exact List.mem_map.mpr ⟨r, hr, rfl⟩
  · intro j j' u u' hu hu' k hk hk'
    exact h.exclusive j j' u u' (hother j u hu).2 (hother j' u' hu').2 k hk hk'
  · intro v hv
    simp only [Function.update_apply]
    obtain ⟨r, rfl, hr | hr⟩ := Tx.mem_view hv
    · obtain ⟨hnone, hlt⟩ := h.ended r hr
      refine ⟨?_, hlt⟩
      split_ifs
      · rfl
      · exact hnone
    · have hid : (r.overlay t.marks).id.tx = i := (h.ok i t ht).own r hr
      rw [hid, if_pos rfl]
      exact ⟨rfl, h.lt_count ht⟩

theorem Inv.abort (h : Inv key s) (ht : s.txs i = some t) : Inv key { s with txs := Function.update s.txs i none } := by
  refine h.update (h.lt_count ht) (Nat.le_refl _) (h.not_ended ht) ?_ ?_
  · rintro _ ⟨⟩
  · rintro _ ⟨⟩

/-- The batch of a transaction that begins has one row for each key. -/
def Act.Distinct (key : α → κ) : Act α → Prop
  | .beginTx batch => (batch.map key).Nodup
  | _ => True

/-- One action keeps the invariant, when a marking statement starts only where it may. -/
theorem Inv.step (h : Inv key s) {s' : State α} {a : Act α} (hd : a.Distinct key) (hsole : s.sole key a = true)
    (hs : Supersession.step key s a = some s') : Inv key s' := by
  cases stepped_of_step key hs with
  | beginTx batch => exact h.beginTx hd
  | insert ht => exact h.insert ht
  | start ht hins hcur htodo => exact h.start ht hins hcur htodo hsole
  | lock ht hcur _ => exact h.lock ht hcur
  | finish ht hcur => exact h.finish ht hcur
  | commit ht hins hcur htodo => exact h.commit ht hins hcur htodo
  | abort ht => exact h.abort ht

/-- **Every reached state satisfies the invariant**, so it has at most one live row for each key, when
every marking statement started with no other transaction holding an inserted row with its key. -/
theorem Reaches.inv {allowed : State α → Act α → Prop} (hd : ∀ s a, allowed s a → a.Distinct key)
    (hsole : ∀ s a, allowed s a → s.sole key a = true) (h : Reaches key allowed s) : Inv key s := by
  induction h with
  | init => exact Inv.empty key
  | step _ ha hs ih => exact ih.step (hd _ _ ha) (hsole _ _ ha) hs

/-! ### One publication after another -/

/-- The marking statement of `r`, run alone. -/
def supersedeAll (key : α → κ) (table : List (Row α)) (r : Row α) : List (Row α) :=
  table.map fun v => if r.supersedes key v then { v with supersededBy := some r.id } else v

/-- Transaction `i`, run alone: insert the batch, then mark for each of its rows in turn. -/
def publish (key : α → κ) (i : ℕ) (batch : List α) (table : List (Row α)) : List (Row α) :=
  (Tx.new i batch).rows.foldl (supersedeAll key) (table ++ (Tx.new i batch).rows)

theorem filter_live_supersedeAll (table : List (Row α)) (r : Row α) :
    (supersedeAll key table r).filter Row.live = (table.filter Row.live).filter fun v => !r.supersedes key v := by
  induction table with
  | nil => rfl
  | cons v table ih =>
    rw [supersedeAll] at ih ⊢
    have hmarked : ({ v with supersededBy := some r.id } : Row α).live = false := rfl
    rw [List.map_cons, List.filter_cons, ih, List.filter_cons]
    cases hs : r.supersedes key v <;> cases hlive : v.live <;> simp [hs, hlive, hmarked]

theorem filter_live_foldl_supersedeAll (rows table : List (Row α)) :
    (rows.foldl (supersedeAll key) table).filter Row.live =
      (table.filter Row.live).filter fun v => rows.all fun r => !r.supersedes key v := by
  induction rows generalizing table with
  | nil => simp
  | cons r rows ih =>
    rw [List.foldl_cons, ih, filter_live_supersedeAll, List.filter_filter]
    simp [Bool.and_comm]

omit [DecidableEq κ] in
theorem Tx.mem_rows_new {i : ℕ} {batch : List α} {r : Row α} (h : r ∈ (Tx.new i batch).rows) :
    r.id.tx = i ∧ r.live = true ∧ r.value ∈ batch := by
  change r ∈ batch.zipIdx.map _ at h
  obtain ⟨p, hp, rfl⟩ := List.mem_map.mp h
  exact ⟨rfl, rfl, List.fst_mem_of_mem_zipIdx hp⟩

omit [DecidableEq κ] in
theorem Tx.map_value_rows_new (i : ℕ) (batch : List α) : (Tx.new i batch).rows.map Row.value = batch := by
  change (batch.zipIdx.map _).map Row.value = batch
  rw [List.map_map]
  exact List.zipIdx_map_fst 0 batch

/-- Marking keeps the identifiers and values. -/
theorem map_id_value_foldl_supersedeAll (rows table : List (Row α)) :
    (rows.foldl (supersedeAll key) table).map (fun v => (v.id, v.value)) = table.map fun v => (v.id, v.value) := by
  induction rows generalizing table with
  | nil => rfl
  | cons r rows ih =>
    rw [List.foldl_cons, ih, supersedeAll, List.map_map]
    refine List.map_congr_left fun v _ => ?_
    rw [Function.comp_apply]
    split <;> rfl

/-- A publication keeps the identifiers and values, and adds those of its batch. -/
theorem exists_mem_publish {i : ℕ} {batch : List α} {table : List (Row α)} {P : RowID → α → Prop} :
    (∃ v ∈ publish key i batch table, P v.id v.value) ↔
      (∃ v ∈ table, P v.id v.value) ∨ ∃ v ∈ (Tx.new i batch).rows, P v.id v.value := by
  have hmap : ∀ l : List (Row α), (∃ v ∈ l, P v.id v.value) ↔ ∃ p ∈ l.map fun v => (v.id, v.value), P p.1 p.2 := by
    intro l
    simp only [List.mem_map, exists_exists_and_eq_and]
  rw [hmap, publish, map_id_value_foldl_supersedeAll, ← hmap]
  simp only [List.mem_append, or_and_right, exists_or]

/-- **The live rows after a publication** are those that were live before with a key that the batch
does not have, and the rows of the batch. -/
theorem filter_live_publish {i : ℕ} {batch : List α} {table : List (Row α)} (hbatch : (batch.map key).Nodup)
    (hfresh : ∀ v ∈ table, v.id.tx < i) :
    (publish key i batch table).filter Row.live =
      ((table.filter Row.live).filter fun v => key v.value ∉ batch.map key) ++ (Tx.new i batch).rows := by
  have hkeys : (Tx.new i batch).rows.map (fun r => key r.value) = batch.map key :=
    (List.map_map ..).symm.trans (congrArg (List.map key) (Tx.map_value_rows_new i batch))
  rw [publish, filter_live_foldl_supersedeAll, List.filter_append, List.filter_append]
  congr 1
  · refine List.filter_congr fun v hv => ?_
    obtain ⟨hmem, hlive⟩ := List.mem_filter.mp hv
    rw [Bool.eq_iff_iff, List.all_eq_true, decide_eq_true_eq, ← hkeys]
    constructor
    · intro hno hk
      obtain ⟨r, hr, he⟩ := List.mem_map.mp hk
      have hne : v.id ≠ r.id := fun hid => by
        have := hfresh v hmem
        rw [hid, (Tx.mem_rows_new hr).1] at this
        exact Nat.lt_irrefl _ this
      simpa [Row.supersedes, he, hlive, hne] using hno r hr
    · intro hk r hr
      have hne : key v.value ≠ key r.value := fun he => hk (he ▸ List.mem_map_of_mem hr)
      simp [Row.supersedes, hne]
  · rw [List.filter_eq_self.mpr fun v hv => (Tx.mem_rows_new hv).2.1, List.filter_eq_self]
    intro v hv
    rw [List.all_eq_true]
    intro r hr
    -- two rows of the batch with one key are one row
    by_cases he : key v.value = key r.value
    · simp [Row.supersedes, List.inj_on_of_nodup_map (hkeys ▸ hbatch) hv hr he]
    · simp [Row.supersedes, he]

/-- The live values after a publication. -/
theorem map_value_filter_live_publish {i : ℕ} {batch : List α} {table : List (Row α)} (hbatch : (batch.map key).Nodup)
    (hfresh : ∀ v ∈ table, v.id.tx < i) :
    ((publish key i batch table).filter Row.live).map Row.value =
      (((table.filter Row.live).map Row.value).filter fun a => key a ∉ batch.map key) ++ batch := by
  rw [filter_live_publish hbatch hfresh, List.map_append, Tx.map_value_rows_new, List.filter_map]
  rfl

end ForecastIQ.Foundations.Supersession
