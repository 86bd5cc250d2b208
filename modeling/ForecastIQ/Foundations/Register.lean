import ForecastIQ.Foundations.Runs
import Mathlib.Data.List.Induction
import Mathlib.Logic.Function.Basic

/-!
# One row that is read and written back without a lock

A transaction under READ COMMITTED reads a row, computes a value from what it has read and
may write that value back, over whatever the row holds by then. A write waits for another
transaction that has written and not ended, and becomes visible on commit.

The log lists the committed transactions, each with the value it has read and the number of
commits before its read. The row is determined by the log (`stateAt`), and so is what every
transaction has read (`IsLog`): nothing ties the value that a transaction writes to the row
that it replaces.

The row passes through the values of the prefixes of the log (`forall_run_iff`).
-/

namespace ForecastIQ.Foundations.Register

/-- What the transactions on a row do: the value that an operation computes from what it has read, and
whether it writes that value. -/
structure Program (α τ : Type*) where
  init : α
  apply : α → τ → α
  writes : α → τ → Bool

/-- A transaction that has begun and not ended. -/
inductive Tx (α τ : Type*) where
  | begun (op : τ)
  /-- It has read the row, after that many commits. -/
  | read (op : τ) (value : α) (readAt : ℕ)
  /-- It has also written the row. -/
  | wrote (op : τ) (value : α) (readAt : ℕ)

/-- A committed transaction: its operation, the value it has read after `readAt` commits, and
whether it has written. -/
structure Commit (α τ : Type*) where
  op : τ
  value : α
  readAt : ℕ
  wrote : Bool
  deriving DecidableEq

/-- The committed row, the running transactions, their number so far, and the log. -/
structure State (α τ : Type*) where
  value : α
  txs : ℕ → Option (Tx α τ)
  count : ℕ
  log : List (Commit α τ)

/-- One statement of a transaction, or its end. -/
inductive Act (τ : Type*) where
  | beginTx (op : τ)
  | read (i : ℕ)
  | write (i : ℕ)
  | commit (i : ℕ)
  /-- A rollback, for any reason. -/
  | abort (i : ℕ)

variable {α τ : Type*}

/-- Replace a running transaction, or end it. -/
def State.set (s : State α τ) (i : ℕ) (t : Option (Tx α τ)) : State α τ :=
  { s with txs := Function.update s.txs i t }

@[simp] theorem State.txs_set_self (s : State α τ) (i : ℕ) (t : Option (Tx α τ)) : (s.set i t).txs i = t :=
  Function.update_self ..

theorem State.txs_set_of_ne (s : State α τ) {i j : ℕ} (h : j ≠ i) (t : Option (Tx α τ)) :
    (s.set i t).txs j = s.txs j :=
  Function.update_of_ne h ..

/-- The transaction has written the row. -/
def Tx.hasWritten : Tx α τ → Bool
  | .wrote _ _ _ => true
  | _ => false

/-- Another transaction has written the row and not ended. -/
def State.lockedByOther (s : State α τ) (i : ℕ) : Bool :=
  (List.range s.count).any fun j => j ≠ i && (s.txs j).any Tx.hasWritten

/-- Each commit of the log has the relation to the log before it. -/
def EachCommit (R : List (Commit α τ) → Commit α τ → Prop) (log : List (Commit α τ)) : Prop :=
  ∀ pre c post, log = pre ++ c :: post → R pre c

@[simp] theorem eachCommit_nil (R : List (Commit α τ) → Commit α τ → Prop) : EachCommit R [] := by
  intro pre c post h
  simp at h

@[simp] theorem eachCommit_concat (R : List (Commit α τ) → Commit α τ → Prop) (log : List (Commit α τ))
    (c : Commit α τ) : EachCommit R (log ++ [c]) ↔ EachCommit R log ∧ R log c := by
  constructor
  · intro h
    exact ⟨fun pre d post hlog => h pre d (post ++ [c]) (by simp [hlog]), h log c [] rfl⟩
  · rintro ⟨h, hc⟩ pre d post hlog
    induction post using List.reverseRecOn with
    | nil =>
      obtain ⟨rfl, hd⟩ := List.append_inj' hlog rfl
      obtain rfl := List.singleton_inj.mp hd
      exact hc
    | append_singleton post e _ =>
      rw [← List.cons_append, ← List.append_assoc] at hlog
      exact h pre d post (List.append_inj' hlog rfl).1

variable (P : Program α τ)

/-- The initial row, with no transaction. -/
def State.empty : State α τ := ⟨P.init, fun _ => none, 0, []⟩

/-- One act; `none` when the transaction cannot take it now. -/
def State.step (s : State α τ) : Act τ → Option (State α τ)
  | .beginTx op => some { s.set s.count (some (.begun op)) with count := s.count + 1 }
  | .read i =>
    match s.txs i with
    | some (.begun op) => some (s.set i (some (.read op s.value s.log.length)))
    | _ => none
  | .write i =>
    match s.txs i with
    | some (.read op value readAt) =>
      if P.writes value op && !s.lockedByOther i then some (s.set i (some (.wrote op value readAt))) else none
    | _ => none
  | .commit i =>
    match s.txs i with
    | some (.read op value readAt) =>
      if P.writes value op then none
      else some { s.set i none with log := s.log ++ [⟨op, value, readAt, false⟩] }
    | some (.wrote op value readAt) =>
      some { s.set i none with value := P.apply value op, log := s.log ++ [⟨op, value, readAt, true⟩] }
    | _ => none
  | .abort i =>
    match s.txs i with
    | some _ => some (s.set i none)
    | none => none

/-- The acts one after another. -/
def State.run (s : State α τ) (acts : List (Act τ)) : Option (State α τ) := acts.foldlM (step P) s

/-- The states that any interleaving reaches. -/
def State.Reachable (s : State α τ) : Prop := ∃ acts, (empty P).run P acts = some s

/-! ### The log -/

/-- The row after the committed transactions. -/
def stateAt (log : List (Commit α τ)) : α :=
  log.foldl (fun v c => if c.wrote then P.apply c.value c.op else v) P.init

@[simp] theorem stateAt_concat (log : List (Commit α τ)) (c : Commit α τ) :
    stateAt P (log ++ [c]) = if c.wrote then P.apply c.value c.op else stateAt P log := by
  rw [stateAt, List.foldl_append]
  rfl

/-- The value was read after that many of the commits. -/
def ReadFrom (log : List (Commit α τ)) (value : α) (readAt : ℕ) : Prop :=
  readAt ≤ log.length ∧ value = stateAt P (log.take readAt)

variable {P} in
theorem ReadFrom.concat {log : List (Commit α τ)} {value : α} {readAt : ℕ} (h : ReadFrom P log value readAt)
    (c : Commit α τ) : ReadFrom P (log ++ [c]) value readAt := by
  refine ⟨Nat.le_trans h.1 (by simp), ?_⟩
  rw [List.take_append_of_le_length h.1]
  exact h.2

/-- The lists of commits that can occur: each has read the row as it was at some time before. -/
inductive IsLog : List (Commit α τ) → Prop where
  | nil : IsLog []
  | concat {log : List (Commit α τ)} {c : Commit α τ} : IsLog log → ReadFrom P log c.value c.readAt →
      c.wrote = P.writes c.value c.op → IsLog (log ++ [c])

variable {P}

/-- The last commit of a log, and the log before it. -/
theorem IsLog.of_concat {log : List (Commit α τ)} {c : Commit α τ} (h : IsLog P (log ++ [c])) :
    IsLog P log ∧ ReadFrom P log c.value c.readAt ∧ c.wrote = P.writes c.value c.op := by
  generalize hl : log ++ [c] = l at h
  cases h with
  | nil => simp at hl
  | concat hlog hread hwrote =>
    obtain ⟨rfl, hc⟩ := List.append_inj' hl rfl
    obtain rfl := List.singleton_inj.mp hc
    exact ⟨hlog, hread, hwrote⟩

theorem IsLog.of_append {log more : List (Commit α τ)} (h : IsLog P (log ++ more)) : IsLog P log := by
  induction more using List.reverseRecOn with
  | nil => simpa using h
  | append_singleton more c ih =>
    rw [← List.append_assoc] at h
    exact ih h.of_concat.1

/-- A commit of a log has read the row as it was at some time before. -/
theorem IsLog.commit {log more : List (Commit α τ)} {c : Commit α τ} (h : IsLog P (log ++ c :: more)) :
    ReadFrom P log c.value c.readAt ∧ c.wrote = P.writes c.value c.op := by
  rw [List.append_cons] at h
  exact h.of_append.of_concat.2

/-! ### Invariants -/

/-- What a running transaction holds. -/
def Tx.OK (P : Program α τ) (log : List (Commit α τ)) : Tx α τ → Prop
  | .begun _ => True
  | .read _ value readAt => ReadFrom P log value readAt
  | .wrote op value readAt => ReadFrom P log value readAt ∧ P.writes value op = true

theorem Tx.OK.concat {log : List (Commit α τ)} {t : Tx α τ} (h : t.OK P log) (c : Commit α τ) :
    t.OK P (log ++ [c]) := by
  cases t with
  | begun op => exact trivial
  | read op value readAt => exact ReadFrom.concat h c
  | wrote op value readAt => exact ⟨ReadFrom.concat h.1 c, h.2⟩

/-- The row is that of the log, and so is what the running transactions have read. -/
structure State.Inv (P : Program α τ) (s : State α τ) : Prop where
  log : IsLog P s.log
  value : s.value = stateAt P s.log
  txs : ∀ i t, s.txs i = some t → t.OK P s.log

/-- Putting a transaction in its place keeps the invariant. -/
theorem State.Inv.set {s : State α τ} (h : s.Inv P) (i : ℕ) {t : Option (Tx α τ)}
    (ht : ∀ u, t = some u → u.OK P s.log) : (s.set i t).Inv P := by
  refine ⟨h.log, h.value, fun j u hu => ?_⟩
  by_cases hj : j = i
  · subst hj
    exact ht u ((s.txs_set_self j t).symm.trans hu)
  · exact h.txs j u ((s.txs_set_of_ne hj t).symm.trans hu)

/-- Ending a transaction with a commit keeps the invariant. -/
theorem State.Inv.commit {s : State α τ} (h : s.Inv P) (i : ℕ) {c : Commit α τ}
    (hread : ReadFrom P s.log c.value c.readAt) (hwrote : c.wrote = P.writes c.value c.op) {v : α}
    (hv : v = stateAt P (s.log ++ [c])) : { s.set i none with value := v, log := s.log ++ [c] }.Inv P := by
  refine ⟨h.log.concat hread hwrote, hv, fun j u hu => Tx.OK.concat ?_ c⟩
  exact (h.set i (fun u hu => by cases hu)).txs j u hu

/-- Everything an act can do to the log and the row. -/
theorem State.Inv.step {s s' : State α τ} {a : Act τ} (h : s.Inv P) (hstep : s.step P a = some s') :
    s'.Inv P ∧ (s'.log = s.log ∨ ∃ c, s'.log = s.log ++ [c]) := by
  cases a with
  | beginTx op =>
    cases hstep
    have hset := h.set s.count (t := some (.begun op)) (fun u hu => by cases hu; exact trivial)
    exact ⟨⟨hset.log, hset.value, hset.txs⟩, .inl rfl⟩
  | read i =>
    simp only [State.step] at hstep
    split at hstep
    · cases hstep
      refine ⟨h.set i fun u hu => ?_, .inl rfl⟩
      cases hu
      exact ⟨Nat.le_refl _, by rw [List.take_length]; exact h.value⟩
    · cases hstep
  | write i =>
    simp only [State.step] at hstep
    split at hstep
    · rename_i op value readAt htx
      split_ifs at hstep with hw
      cases hstep
      refine ⟨h.set i fun u hu => ?_, .inl rfl⟩
      cases hu
      exact ⟨h.txs i _ htx, (Bool.and_eq_true_iff.mp hw).1⟩
    · cases hstep
  | commit i =>
    simp only [State.step] at hstep
    split at hstep
    · rename_i op value readAt htx
      split_ifs at hstep with hw
      cases hstep
      have hread : ReadFrom P s.log value readAt := h.txs i _ htx
      refine ⟨h.commit i (c := ⟨op, value, readAt, false⟩) hread (Bool.eq_false_iff.mpr hw).symm ?_, .inr ⟨_, rfl⟩⟩
      rw [stateAt_concat]
      exact h.value
    · rename_i op value readAt htx
      cases hstep
      obtain ⟨hread, hw⟩ := h.txs i _ htx
      refine ⟨h.commit i (c := ⟨op, value, readAt, true⟩) hread hw.symm ?_, .inr ⟨_, rfl⟩⟩
      rw [stateAt_concat]
      rfl
    · cases hstep
  | abort i =>
    simp only [State.step] at hstep
    split at hstep
    · cases hstep
      exact ⟨h.set i (fun u hu => by cases hu), .inl rfl⟩
    · cases hstep

theorem State.Inv.empty : (State.empty P).Inv P := ⟨.nil, rfl, fun _ _ h => by cases h⟩

theorem State.run_concat {s : State α τ} (acts : List (Act τ)) (a : Act τ) :
    s.run P (acts ++ [a]) = (s.run P acts).bind fun s' => s'.step P a := by
  rw [State.run, List.foldlM_append, ← State.run]
  cases s.run P acts with
  | none => rfl
  | some s' => simp

theorem State.inv_of_run {acts : List (Act τ)} {s : State α τ} (h : (empty P).run P acts = some s) : s.Inv P :=
  foldlM_invariant (fun _ _ _ hs hstep => (hs.step hstep).1) State.Inv.empty h

theorem State.Reachable.inv {s : State α τ} (h : s.Reachable P) : s.Inv P := by
  obtain ⟨acts, hacts⟩ := h
  exact State.inv_of_run hacts

/-- **The logs along a run are the prefixes of its log**, so that a property of the log holds throughout
when it holds of each prefix. -/
theorem State.forall_run_iff {acts : List (Act τ)} {s : State α τ} (h : (empty P).run P acts = some s)
    (Q : List (Commit α τ) → Prop) :
    (∀ acts' s', acts' <+: acts → (empty P).run P acts' = some s' → Q s'.log) ↔ ∀ log, log <+: s.log → Q log := by
  induction acts using List.reverseRecOn generalizing s with
  | nil =>
    cases h
    constructor
    · intro hQ log hlog
      rw [List.prefix_nil.mp hlog]
      exact hQ [] (State.empty P) (List.prefix_refl _) rfl
    · intro hQ acts' s' hacts hs'
      rw [List.prefix_nil.mp hacts] at hs'
      cases hs'
      exact hQ [] (List.prefix_refl _)
  | append_singleton acts a ih =>
    have hrun := h
    rw [State.run_concat] at h
    obtain ⟨s1, hs1, hstep⟩ := Option.bind_eq_some_iff.mp h
    have hlog := ((State.inv_of_run hs1).step hstep).2
    have hsplit : (∀ acts' s', acts' <+: acts ++ [a] → (empty P).run P acts' = some s' → Q s'.log) ↔
        (∀ acts' s', acts' <+: acts → (empty P).run P acts' = some s' → Q s'.log) ∧ Q s.log := by
      constructor
      · intro hQ
        exact ⟨fun acts' s' hp => hQ acts' s' (hp.trans (List.prefix_append _ _)), hQ _ s (List.prefix_refl _) hrun⟩
      · rintro ⟨hQ, hlast⟩ acts' s' hp hs'
        rcases List.prefix_concat_iff.mp hp with rfl | hp
        · rw [hrun] at hs'
          cases hs'
          exact hlast
        · exact hQ acts' s' hp hs'
    rw [hsplit, ih hs1]
    rcases hlog with hlog | ⟨c, hlog⟩
    · rw [hlog]
      exact ⟨fun hQ => hQ.1, fun hQ => ⟨hQ, hQ _ (List.prefix_refl _)⟩⟩
    · rw [hlog]
      constructor
      · rintro ⟨hQ, hlast⟩ log hp
        rcases List.prefix_concat_iff.mp hp with rfl | hp
        · exact hlast
        · exact hQ log hp
      · intro hQ
        exact ⟨fun log hp => hQ log (hp.trans (List.prefix_append _ _)), hQ _ (List.prefix_refl _)⟩

end ForecastIQ.Foundations.Register
