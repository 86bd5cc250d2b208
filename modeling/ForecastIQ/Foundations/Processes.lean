import ForecastIQ.Foundations.Runs

/-!
# Processes side by side

Any number of processes that take turns, as the list of their states: a process is known by
its place in the list, keeps it, and a new one comes last. A property of every process is kept
by a turn if the process that takes it keeps it (`forall_mem_set`), and a relation between any
two of them if it holds between that process and the others (`ForAllPairs.set`). A process can
also take all its turns with none of another in between (`exists_runFrom_solo`).
-/

namespace ForecastIQ.Foundations

variable {α : Type*}

/-- Some process other than `i` satisfies the condition. -/
def existsOther (l : List α) (i : ℕ) (p : α → Bool) : Bool := l.zipIdx.any fun q => q.2 ≠ i && p q.1

theorem existsOther_eq_false_iff {l : List α} {i : ℕ} {p : α → Bool} :
    existsOther l i p = false ↔ ∀ j a, j ≠ i → l[j]? = some a → p a = false := by
  simp only [existsOther, List.any_eq_false, Bool.and_eq_true, decide_eq_true_eq, not_and, Bool.not_eq_true,
    Prod.forall, List.mem_zipIdx_iff_getElem?]
  exact ⟨fun h j a hj ha => h a j ha hj, fun h a j ha hj => h j a hj ha⟩

/-- After a turn of process `i`, a process is that one or as it was. -/
theorem getElem?_set_cases {l : List α} {i j : ℕ} {a b : α} (h : (l.set i a)[j]? = some b) :
    (j = i ∧ b = a) ∨ (j ≠ i ∧ l[j]? = some b) := by
  rw [List.getElem?_set] at h
  split_ifs at h with hij hlt
  · cases h
    exact .inl ⟨hij.symm, rfl⟩
  · exact .inr ⟨Ne.symm hij, h⟩

/-- With new processes, a process is one of them or as it was. -/
theorem getElem?_append_cases {l l' : List α} {j : ℕ} {b : α} (h : (l ++ l')[j]? = some b) :
    (l.length ≤ j ∧ l'[j - l.length]? = some b) ∨ l[j]? = some b := by
  rcases Nat.lt_or_ge j l.length with hj | hj
  · rw [List.getElem?_append_left hj] at h
    exact .inr h
  · rw [List.getElem?_append_right hj] at h
    exact .inl ⟨hj, h⟩

/-- Process `i` takes a turn, if it can: it leaves its next state and what the processes share,
from which `mk` makes the next state of the whole. -/
def takeTurn {β σ : Type*} (mk : β → List α → σ) (l : List α) (i : ℕ) (f : α → Option (β × α)) : Option σ :=
  match l[i]? with
  | none => none
  | some a => (f a).map fun p => mk p.1 (l.set i p.2)

theorem takeTurn_some_iff {β σ : Type*} {mk : β → List α → σ} {l : List α} {i : ℕ} {f : α → Option (β × α)} {t : σ} :
    takeTurn mk l i f = some t ↔ ∃ a b a', l[i]? = some a ∧ f a = some (b, a') ∧ t = mk b (l.set i a') := by
  unfold takeTurn
  cases l[i]? with
  | none => simp
  | some a =>
    simp only [Option.map_eq_some_iff]
    constructor
    · rintro ⟨⟨b, a'⟩, hf, rfl⟩
      exact ⟨a, b, a', rfl, hf, rfl⟩
    · rintro ⟨_, b, a', ⟨⟩, hf, rfl⟩
      exact ⟨(b, a'), hf, rfl⟩

/-- One process takes those of its turns that it can, in their order. -/
def solo {β : Type*} (turns : List (β → α → Option (β × α))) (p : β × α) : β × α :=
  turns.foldl (fun p f => (f p.1 p.2).getD p) p

/-- Process `i` runs by itself. -/
theorem exists_runFrom_solo {β γ σ : Type*} (step : σ → γ → Option σ) (mk : β → List α → σ) (i : ℕ)
    (turns : List (γ × (β → α → Option (β × α))))
    (hstep : ∀ t ∈ turns, ∀ b l, step (mk b l) t.1 = takeTurn mk l i (t.2 b)) {l : List α} (p : β × α)
    (h : l[i]? = some p.2) :
    ∃ acts, runFrom step (mk p.1 l) acts =
      some (mk (solo (turns.map Prod.snd) p).1 (l.set i (solo (turns.map Prod.snd) p).2)) := by
  induction turns generalizing l p with
  | nil =>
    obtain ⟨hi, ha⟩ := List.getElem?_eq_some_iff.mp h
    refine ⟨[], ?_⟩
    rw [List.map_nil, solo, List.foldl_nil, ← ha, List.set_getElem_self]
    rfl
  | cons t turns ih =>
    have hstep' := fun u hu => hstep u (List.mem_cons_of_mem t hu)
    rw [List.map_cons, solo, List.foldl_cons]
    cases hf : t.2 p.1 p.2 with
    | none => exact ih hstep' p h
    | some q =>
      have hturn : step (mk p.1 l) t.1 = some (mk q.1 (l.set i q.2)) := by
        rw [hstep t List.mem_cons_self, takeTurn_some_iff]
        exact ⟨p.2, q.1, q.2, h, hf, rfl⟩
      obtain ⟨acts, hacts⟩ := ih hstep' (l := l.set i q.2) q
        (List.getElem?_set_self (List.getElem?_eq_some_iff.mp h).1)
      rw [List.set_set] at hacts
      exact ⟨t.1 :: acts, runFrom_cons_iff.mpr ⟨_, hturn, hacts⟩⟩

/-- A property of every process, after a turn. -/
theorem forall_mem_set {p : α → Prop} {l : List α} (h : ∀ a ∈ l, p a) {i : ℕ} {a : α} (ha : p a) :
    ∀ b ∈ l.set i a, p b := by
  intro b hb
  rcases List.mem_or_eq_of_mem_set hb with hb | rfl
  · exact h b hb
  · exact ha

/-- A turn of one process leaves the others. -/
theorem mem_set_of_ne {l : List α} {i : ℕ} {a b c : α} (hb : b ∈ l) (ha : l[i]? = some a) (hne : b ≠ a) :
    b ∈ l.set i c := by
  obtain ⟨j, hj⟩ := List.mem_iff_getElem?.mp hb
  have hij : i ≠ j := by
    rintro rfl
    rw [ha, Option.some.injEq] at hj
    exact hne hj.symm
  refine List.mem_of_getElem? (i := j) ?_
  rw [List.getElem?_set_ne hij]
  exact hj

/-- What a turn of one process keeps of it, it keeps of all. -/
theorem map_set_of_eq {β : Type*} {l : List α} {i : ℕ} {a b : α} (h : l[i]? = some a) {f : α → β} (hf : f b = f a) :
    (l.set i b).map f = l.map f := by
  obtain ⟨hi, rfl⟩ := List.getElem?_eq_some_iff.mp h
  rw [List.map_set, hf]
  refine List.ext_getElem (by simp) fun j hj hj' => ?_
  rw [List.getElem_set]
  split_ifs with hij
  · subst hij
    simp
  · rfl

/-- Any two different processes are related. -/
def ForAllPairs (r : α → α → Prop) (l : List α) : Prop :=
  ∀ (i j : ℕ) (a b : α), i ≠ j → l[i]? = some a → l[j]? = some b → r a b

theorem ForAllPairs.nil {r : α → α → Prop} : ForAllPairs r [] := by
  intro i j a b _ ha
  simp at ha

theorem ForAllPairs.set {r : α → α → Prop} (hsymm : ∀ a b, r a b → r b a) {l : List α} (h : ForAllPairs r l) {i : ℕ}
    {a : α} (ha : ∀ j b, j ≠ i → l[j]? = some b → r a b) : ForAllPairs r (l.set i a) := by
  intro j k b c hjk hb hc
  rcases getElem?_set_cases hb with ⟨rfl, rfl⟩ | ⟨hj, hb'⟩
  · rcases getElem?_set_cases hc with ⟨rfl, rfl⟩ | ⟨hk, hc'⟩
    · exact absurd rfl hjk
    · exact ha k c hk hc'
  · rcases getElem?_set_cases hc with ⟨rfl, rfl⟩ | ⟨hk, hc'⟩
    · exact hsymm _ _ (ha j b hj hb')
    · exact h j k b c hjk hb' hc'

theorem ForAllPairs.of_pairwise {r : α → α → Prop} (hsymm : ∀ a b, r a b → r b a) {l : List α} (h : l.Pairwise r) :
    ForAllPairs r l := by
  rw [List.pairwise_iff_getElem] at h
  intro i j a b hij ha hb
  obtain ⟨hi, rfl⟩ := List.getElem?_eq_some_iff.mp ha
  obtain ⟨hj, rfl⟩ := List.getElem?_eq_some_iff.mp hb
  rcases Nat.lt_or_gt_of_ne hij with hlt | hlt
  · exact h i j hi hj hlt
  · exact hsymm _ _ (h j i hj hi hlt)

theorem ForAllPairs.append {r : α → α → Prop} (hsymm : ∀ a b, r a b → r b a) {l l' : List α} (h : ForAllPairs r l)
    (h' : ForAllPairs r l') (hx : ∀ a ∈ l, ∀ b ∈ l', r b a) : ForAllPairs r (l ++ l') := by
  intro j k b c hjk hb hc
  rcases getElem?_append_cases hb with ⟨hj, hb'⟩ | hb'
  · rcases getElem?_append_cases hc with ⟨hk, hc'⟩ | hc'
    · exact h' _ _ b c (by omega) hb' hc'
    · exact hx c (List.mem_of_getElem? hc') b (List.mem_of_getElem? hb')
  · rcases getElem?_append_cases hc with ⟨hk, hc'⟩ | hc'
    · exact hsymm _ _ (hx b (List.mem_of_getElem? hb') c (List.mem_of_getElem? hc'))
    · exact h j k b c hjk hb' hc'

theorem ForAllPairs.concat {r : α → α → Prop} (hsymm : ∀ a b, r a b → r b a) {l : List α} (h : ForAllPairs r l) {a : α}
    (ha : ∀ b ∈ l, r a b) : ForAllPairs r (l ++ [a]) := by
  refine h.append hsymm (.of_pairwise hsymm (List.pairwise_singleton r a)) fun b hb c hc => ?_
  rw [List.mem_singleton.mp hc]
  exact ha b hb

/-! ### Counting processes -/

/-- A turn of one process changes the count by that process. -/
theorem countP_set_add {l : List α} {i : ℕ} {a : α} (h : l[i]? = some a) (p : α → Bool) (b : α) :
    (l.set i b).countP p + (p a).toNat = l.countP p + (p b).toNat := by
  obtain ⟨hi, rfl⟩ := List.getElem?_eq_some_iff.mp h
  rw [List.countP_set hi]
  have hb : (if p b = true then 1 else 0) = (p b).toNat := by cases p b <;> rfl
  rw [hb]
  cases hp : p l[i] with
  | false => rfl
  | true =>
    have hpos : 1 ≤ l.countP p := List.countP_pos_iff.mpr ⟨l[i], List.getElem_mem hi, hp⟩
    rw [if_pos rfl, Nat.add_right_comm, Bool.toNat_true, Nat.sub_add_cancel hpos]

/-- A count is covered by two others. -/
theorem countP_le_add {p q r : α → Bool} {l : List α} (h : ∀ a ∈ l, p a = true → q a = true ∨ r a = true) :
    l.countP p ≤ l.countP q + l.countP r := by
  induction l with
  | nil => simp
  | cons a l ih =>
    have htail := ih fun b hb => h b (List.mem_cons_of_mem _ hb)
    simp only [List.countP_cons]
    by_cases hp : p a = true
    · rcases h a List.mem_cons_self hp with hq | hr
      · rw [if_pos hp, if_pos hq]
        omega
      · rw [if_pos hp, if_pos hr]
        omega
    · rw [if_neg hp]
      omega

/-- If of related elements not both satisfy a condition, at most one does. -/
theorem countP_le_one_of_pairwise {r : α → α → Prop} {p : α → Bool} {l : List α} (h : l.Pairwise r)
    (hp : ∀ a b, r a b → p a = true → ¬ p b = true) : l.countP p ≤ 1 := by
  induction h with
  | nil => simp
  | @cons a l ha _ ih =>
    rw [List.countP_cons]
    split_ifs with hpa
    · have hnone : l.countP p = 0 := List.countP_eq_zero.mpr fun b hb => hp a b (ha b hb) hpa
      omega
    · exact ih

/-- If no two processes satisfy a condition, at most one does. -/
theorem ForAllPairs.countP_le_one {p : α → Bool} {l : List α}
    (h : ForAllPairs (fun a b => p a = true → ¬ p b = true) l) : l.countP p ≤ 1 := by
  refine countP_le_one_of_pairwise (r := fun a b => p a = true → ¬ p b = true) ?_ fun _ _ hr => hr
  rw [List.pairwise_iff_getElem]
  intro i j hi hj hij
  exact h i j _ _ (by omega) (List.getElem?_eq_getElem hi) (List.getElem?_eq_getElem hj)

end ForecastIQ.Foundations
