import Mathlib.Algebra.Group.Nat.Defs
import Mathlib.Data.List.DropRight

/-!
# Text of a script

A string of a script is a list of UTF-16 code units; a surrogate may stand alone. The operations here
are those of the language: `trim`, replacing runs of characters, and joining, which is
`List.intercalate`.

The lines of a text are its pieces between line breaks. All of them begin with one mark exactly when
the text does and each of its line breaks is followed by the mark (`forall_splitOn_head`). A piece
begins with a character exactly when the text does or when the character follows a break
(`exists_splitOn_head`). That a character follows another is `[a, b] <:+: s`, and the lemmas on pairs
say where they come from in texts that are joined, replaced and trimmed.
-/

namespace ForecastIQ.Foundations

/-- A string of a script. -/
abbrev ScriptText := List UInt16

namespace ScriptText

/-- The code unit of a character of the basic plane. -/
def codeUnit (c : Char) : UInt16 := UInt16.ofNat c.toNat

/-- A literal without characters beyond the basic plane. -/
def units (s : String) : ScriptText := s.toList.map codeUnit

def tab : UInt16 := 0x09

def lineFeed : UInt16 := 0x0A

def carriageReturn : UInt16 := 0x0D

/-- White space and line terminators. -/
def whitespace (c : UInt16) : Bool :=
  (0x09 ≤ c && c ≤ 0x0D) || c = 0x20 || c = 0xA0 || c = 0x1680 || (0x2000 ≤ c && c ≤ 0x200A) || c = 0x2028 ||
    c = 0x2029 || c = 0x202F || c = 0x205F || c = 0x3000 || c = 0xFEFF

/-- `trim`. -/
def trim (s : ScriptText) : ScriptText := (s.dropWhile whitespace).rdropWhile whitespace

theorem isInfix_trim (s : ScriptText) : trim s <:+: s :=
  (List.rdropWhile_prefix whitespace _).isInfix.trans (List.dropWhile_suffix whitespace).isInfix

end ScriptText

/-! ### Pairs of characters -/

section Pairs

variable {α : Type*} {a b : α}

theorem pair_infix_cons {c : α} {s : List α} :
    [a, b] <:+: c :: s ↔ (a = c ∧ s.head? = some b) ∨ [a, b] <:+: s := by
  have hhead : [b] <+: s ↔ s.head? = some b := by
    cases s with
    | nil => simp
    | cons d s => rw [List.cons_prefix_cons, List.head?_cons, Option.some_inj, eq_comm, and_iff_left List.nil_prefix]
  rw [List.infix_cons_iff, List.cons_prefix_cons, hhead]

/-- What comes before has no `a`. -/
theorem pair_infix_append_right {s t : List α} (h : a ∉ s) : [a, b] <:+: s ++ t ↔ [a, b] <:+: t := by
  induction s with
  | nil => rfl
  | cons c s ih =>
    rw [List.mem_cons, not_or] at h
    rw [List.cons_append, pair_infix_cons, ih h.2, or_iff_right fun hc => h.1 hc.1]

theorem head?_append_iff {s t : List α} (h : t.head? ≠ some b) : (s ++ t).head? = some b ↔ s.head? = some b := by
  cases s with
  | nil => simp [h]
  | cons d s => rfl

/-- What comes after does not begin with `b`. -/
theorem pair_infix_append {s t : List α} (h : t.head? ≠ some b) :
    [a, b] <:+: s ++ t ↔ [a, b] <:+: s ∨ [a, b] <:+: t := by
  induction s with
  | nil => simp
  | cons c s ih =>
    rw [List.cons_append, pair_infix_cons, pair_infix_cons, ih, head?_append_iff h, or_assoc]

/-- In joined texts: in one of them. -/
theorem pair_infix_joined {x : α} (ha : a ≠ x) (hb : b ≠ x) (ls : List (List α)) :
    [a, b] <:+: [x].intercalate ls ↔ ∃ l ∈ ls, [a, b] <:+: l := by
  induction ls with
  | nil => simp
  | cons l ls ih =>
    cases ls with
    | nil => simp
    | cons l' ls =>
      rw [List.intercalate_cons_cons, List.append_assoc, pair_infix_append (by simpa using Ne.symm hb),
        pair_infix_append_right (by simpa using ha), ih, List.exists_mem_cons_iff _ l]

end Pairs

/-! ### Runs of characters -/

section Runs

variable {α : Type*} (p : α → Bool) (r : α)

/-- The rest of a text, each run of the characters replaced by `r`; inside a run, it is replaced already. -/
@[simp] def replaceRunsFrom : Bool → List α → List α
  | _, [] => []
  | inRun, c :: s =>
    if p c then if inRun then replaceRunsFrom true s else r :: replaceRunsFrom true s
    else c :: replaceRunsFrom false s

/-- Each run of the characters replaced by `r`. -/
def replaceRuns (s : List α) : List α := replaceRunsFrom p r false s

variable {p r}

theorem not_of_mem_replaceRunsFrom {inRun : Bool} {s : List α} {c : α} (h : c ∈ replaceRunsFrom p r inRun s)
    (hr : c ≠ r) : p c = false := by
  induction s generalizing inRun with
  | nil => cases h
  | cons b s ih =>
    simp only [replaceRunsFrom] at h
    split_ifs at h with hb hrun
    · exact ih h
    · exact ih ((List.mem_cons.mp h).resolve_left hr)
    · rcases List.mem_cons.mp h with rfl | h
      · exact Bool.eq_false_iff.mpr hb
      · exact ih h

/-- What is left besides the replacement is none of the characters. -/
theorem not_of_mem_replaceRuns {s : List α} {c : α} (h : c ∈ replaceRuns p r s) (hr : c ≠ r) : p c = false :=
  not_of_mem_replaceRunsFrom h hr

variable {a b : α}

theorem head?_replaceRunsFrom (hb : p b = false) (hbr : b ≠ r) (s : List α) :
    (replaceRunsFrom p r false s).head? = some b ↔ s.head? = some b := by
  cases s with
  | nil => rfl
  | cons c s =>
    rw [replaceRunsFrom]
    by_cases hc : p c = true
    · have hcb : c ≠ b := fun h => by rw [h, hb] at hc; cases hc
      simp [hc, hcb, Ne.symm hbr]
    · simp [hc]

theorem pair_infix_replaceRunsFrom (ha : p a = false) (hb : p b = false) (har : a ≠ r) (hbr : b ≠ r) (inRun : Bool)
    (s : List α) : ([a, b] <:+: replaceRunsFrom p r inRun s) ↔ [a, b] <:+: s := by
  induction s generalizing inRun with
  | nil => rfl
  | cons c s ih =>
    have hac : p c = true → ¬ (a = c ∧ s.head? = some b) := fun hc h => by rw [← h.1, ha] at hc; cases hc
    rw [replaceRunsFrom, pair_infix_cons]
    split_ifs with hc hrun
    · rw [or_iff_right (hac hc)]
      exact ih true
    · rw [pair_infix_cons, or_iff_right fun h => har h.1, or_iff_right (hac hc)]
      exact ih true
    · rw [pair_infix_cons, head?_replaceRunsFrom hb hbr]
      exact or_congr_right (ih false)

/-- Replacing leaves the pairs of other characters. -/
theorem pair_infix_replaceRuns (ha : p a = false) (hb : p b = false) (har : a ≠ r) (hbr : b ≠ r) (s : List α) :
    [a, b] <:+: replaceRuns p r s ↔ [a, b] <:+: s := pair_infix_replaceRunsFrom ha hb har hbr false s

variable {w : α → Bool}

theorem dropWhile_replaceRunsFrom (hp : ∀ c, p c = true → w c = true) (hr : w r = true) (inRun : Bool) (s : List α) :
    (replaceRunsFrom p r inRun s).dropWhile w = replaceRuns p r (s.dropWhile w) := by
  induction s generalizing inRun with
  | nil => rfl
  | cons c s ih =>
    rw [replaceRunsFrom]
    by_cases hc : w c = true
    · rw [List.dropWhile_cons_of_pos hc]
      split_ifs
      · exact ih true
      · rw [List.dropWhile_cons_of_pos hr, ih]
      · rw [List.dropWhile_cons_of_pos hc, ih]
    · have hpc : p c = false := Bool.eq_false_iff.mpr fun h => hc (hp c h)
      rw [List.dropWhile_cons_of_neg hc, hpc, if_neg Bool.false_ne_true, List.dropWhile_cons_of_neg hc, replaceRuns,
        replaceRunsFrom, hpc, if_neg Bool.false_ne_true]

theorem mem_replaceRunsFrom {c : α} (hc : p c = false) {s : List α} (h : c ∈ s) (inRun : Bool) :
    c ∈ replaceRunsFrom p r inRun s := by
  induction s generalizing inRun with
  | nil => cases h
  | cons d s ih =>
    rw [replaceRunsFrom]
    rcases List.mem_cons.mp h with rfl | h
    · rw [hc, if_neg Bool.false_ne_true]
      exact List.mem_cons_self
    · split_ifs
      · exact ih h true
      · exact List.mem_cons_of_mem _ (ih h true)
      · exact List.mem_cons_of_mem _ (ih h false)

theorem rdropWhile_cons (c : α) (s : List α) :
    (c :: s).rdropWhile w = if s.rdropWhile w = [] then if w c then [] else [c] else c :: s.rdropWhile w := by
  simp only [List.rdropWhile, List.reverse_cons, List.dropWhile_append, List.isEmpty_iff, List.reverse_eq_nil_iff]
  by_cases hc : w c = true <;> split_ifs <;> simp_all

theorem rdropWhile_replaceRunsFrom (hp : ∀ c, p c = true → w c = true) (hr : w r = true) (inRun : Bool) (s : List α) :
    (replaceRunsFrom p r inRun s).rdropWhile w = replaceRunsFrom p r inRun (s.rdropWhile w) := by
  induction s generalizing inRun with
  | nil => rfl
  | cons c s ih =>
    by_cases hs : s.rdropWhile w = []
    · have hrest : ∀ b, (replaceRunsFrom p r b s).rdropWhile w = [] := fun b => by rw [ih, hs]; rfl
      rw [rdropWhile_cons, if_pos hs, replaceRunsFrom]
      by_cases hpc : p c = true
      · cases inRun <;> simp [hpc, hp c hpc, hr, rdropWhile_cons, hrest, replaceRunsFrom]
      · by_cases hc : w c = true <;> simp [hpc, hc, rdropWhile_cons, hrest, replaceRunsFrom]
    · -- something is left, so its replacement is not empty
      have hlast := List.rdropWhile_last_not w s hs
      have hrest : ∀ b, (replaceRunsFrom p r b s).rdropWhile w ≠ [] := fun b => by
        rw [ih]
        exact List.ne_nil_of_mem (mem_replaceRunsFrom (Bool.eq_false_iff.mpr fun hl => hlast (hp _ hl))
          (List.getLast_mem hs) b)
      rw [rdropWhile_cons, if_neg hs, replaceRunsFrom, replaceRunsFrom]
      split_ifs
      · exact ih true
      · rw [rdropWhile_cons, if_neg (hrest true), ih]
      · rw [rdropWhile_cons, if_neg (hrest false), ih]

end Runs

/-- Runs of white space can be replaced after trimming. -/
theorem ScriptText.trim_replaceRuns {p : UInt16 → Bool} {r : UInt16} (hp : ∀ c, p c = true → whitespace c = true)
    (hr : whitespace r = true) (s : ScriptText) : trim (replaceRuns p r s) = replaceRuns p r (trim s) := by
  rw [trim, replaceRuns, dropWhile_replaceRunsFrom hp hr, replaceRuns, rdropWhile_replaceRunsFrom hp hr]
  rfl

/-! ### Lines -/

section Lines

variable {α : Type*} [DecidableEq α]

/-- Each `x` of the text is followed by the mark. -/
@[simp] def eachFollowedBy (x mark : α) : List α → Bool
  | [] => true
  | c :: s => (c ≠ x || s.head? = some mark) && eachFollowedBy x mark s

theorem eachFollowedBy_of_notMem {x mark : α} {s : List α} (h : x ∉ s) : eachFollowedBy x mark s = true := by
  induction s with
  | nil => rfl
  | cons c s ih =>
    rw [List.mem_cons, not_or] at h
    rw [eachFollowedBy, ih h.2]
    simp [Ne.symm h.1]

/-- What comes before has none of them. -/
theorem eachFollowedBy_append {x mark : α} {s : List α} (h : x ∉ s) (t : List α) :
    eachFollowedBy x mark (s ++ t) = eachFollowedBy x mark t := by
  induction s with
  | nil => rfl
  | cons c s ih =>
    rw [List.mem_cons, not_or] at h
    rw [List.cons_append, eachFollowedBy, ih h.2]
    simp [Ne.symm h.1]

/-- What comes after does not begin with the mark. -/
theorem eachFollowedBy_append_of_head {x mark : α} {t : List α} (h : t.head? ≠ some mark) (s : List α) :
    eachFollowedBy x mark (s ++ t) = (eachFollowedBy x mark s && eachFollowedBy x mark t) := by
  induction s with
  | nil => rfl
  | cons c s ih =>
    have hhead : decide ((s ++ t).head? = some mark) = decide (s.head? = some mark) :=
      decide_eq_decide.mpr (head?_append_iff h)
    rw [List.cons_append, eachFollowedBy, eachFollowedBy, ih, hhead, Bool.and_assoc]

/-- A piece between two `x` has characters of the text, but no `x`. -/
theorem mem_of_mem_splitOn {x c : α} {s l : List α} (hl : l ∈ s.splitOn x) (hc : c ∈ l) : c ∈ s ∧ c ≠ x := by
  induction s generalizing l with
  | nil =>
    rw [List.splitOn_nil, List.mem_singleton] at hl
    rw [hl] at hc
    cases hc
  | cons d s ih =>
    have hrest : ∀ l ∈ s.splitOn x, c ∈ l → c ∈ d :: s ∧ c ≠ x := fun l hl hc =>
      ⟨List.mem_cons_of_mem d (ih hl hc).1, (ih hl hc).2⟩
    obtain ⟨first, rest, hsplit⟩ := List.exists_cons_of_ne_nil (List.splitOn_ne_nil x s)
    rw [hsplit] at hrest
    rw [List.splitOn] at hl hsplit
    rw [List.splitOnP_cons_eq_if_modifyHead, hsplit] at hl
    by_cases hd : d = x
    · rw [if_pos (beq_iff_eq.mpr hd)] at hl
      rcases List.mem_cons.mp hl with rfl | hl
      · cases hc
      · exact hrest l hl hc
    · rw [if_neg (by simpa using hd)] at hl
      rcases List.mem_cons.mp hl with rfl | hl
      · rcases List.mem_cons.mp hc with rfl | hc
        · exact ⟨List.mem_cons_self, hd⟩
        · exact hrest first List.mem_cons_self hc
      · exact hrest l (List.mem_cons_of_mem _ hl) hc

/-- The first line, and the others: they begin with the mark when every break is followed by it. -/
theorem splitOn_cases {x mark : α} (hx : mark ≠ x) (s : List α) :
    ∃ first rest, s.splitOn x = first :: rest ∧ (first.head? = some mark ↔ s.head? = some mark) ∧
      ((∀ l ∈ rest, l.head? = some mark) ↔ eachFollowedBy x mark s = true) := by
  induction s with
  | nil => exact ⟨[], [], List.splitOn_nil x, Iff.rfl, by simp [eachFollowedBy]⟩
  | cons c s ih =>
    obtain ⟨first, rest, hsplit, hfirst, hrest⟩ := ih
    rw [List.splitOn] at hsplit ⊢
    rw [List.splitOnP_cons_eq_if_modifyHead, hsplit]
    by_cases hc : c = x
    · refine ⟨[], first :: rest, by rw [if_pos (beq_iff_eq.mpr hc)], ?_, ?_⟩
      · simp [hc, Ne.symm hx]
      · simp only [List.forall_mem_cons, hfirst, hrest, eachFollowedBy, hc, Bool.and_eq_true]
        simp
    · refine ⟨c :: first, rest, ?_, by simp, ?_⟩
      · rw [if_neg (by simpa using hc)]
        rfl
      · rw [hrest, eachFollowedBy]
        simp [hc]

/-- **All lines begin with the mark** when the text does and each line break is followed by it. -/
theorem forall_splitOn_head {x mark : α} (hx : mark ≠ x) (s : List α) :
    (∀ l ∈ s.splitOn x, l.head? = some mark) ↔ s.head? = some mark ∧ eachFollowedBy x mark s = true := by
  obtain ⟨first, rest, hsplit, hfirst, hrest⟩ := splitOn_cases hx s
  rw [hsplit, List.forall_mem_cons, hfirst, hrest]

/-- A piece between two `x` begins with `c` when the text does or when `c` follows an `x`. -/
theorem exists_splitOn_head {x c : α} (hc : c ≠ x) (s : List α) :
    (∃ l ∈ s.splitOn x, l.head? = some c) ↔ s.head? = some c ∨ [x, c] <:+: s := by
  -- the first piece begins as the text does, so the induction is on the first piece and the others
  have hsplit : ∃ first rest, s.splitOn x = first :: rest ∧ (first.head? = some c ↔ s.head? = some c) ∧
      ((∃ l ∈ rest, l.head? = some c) ↔ [x, c] <:+: s) := by
    induction s with
    | nil => exact ⟨[], [], List.splitOn_nil x, Iff.rfl, by simp⟩
    | cons d s ih =>
      obtain ⟨first, rest, hsplit, hfirst, hrest⟩ := ih
      rw [List.splitOn] at hsplit ⊢
      rw [List.splitOnP_cons_eq_if_modifyHead, hsplit, pair_infix_cons]
      by_cases hd : d = x
      · refine ⟨[], first :: rest, by rw [if_pos (beq_iff_eq.mpr hd)], ?_, ?_⟩
        · simp [hd, Ne.symm hc]
        · rw [List.exists_mem_cons_iff, hfirst, hrest]
          simp [hd]
      · refine ⟨d :: first, rest, by rw [if_neg (by simpa using hd)]; rfl, by simp, ?_⟩
        rw [hrest, or_iff_right fun h => hd h.1.symm]
  obtain ⟨first, rest, hsplit, hfirst, hrest⟩ := hsplit
  rw [hsplit, List.exists_mem_cons_iff, hfirst, hrest]

/-- The lines of joined texts are those of each. -/
theorem splitOn_joined (x : α) {ls : List (List α)} (h : ls ≠ []) :
    ([x].intercalate ls).splitOn x = ls.flatMap fun l => l.splitOn x := by
  induction ls with
  | nil => exact absurd rfl h
  | cons l ls ih =>
    cases ls with
    | nil => simp
    | cons l' ls =>
      have hsplit : ∀ u, (l ++ x :: u).splitOn x = l.splitOn x ++ u.splitOn x :=
        fun u => List.splitOnP_append_cons l u (beq_self_eq_true x)
      rw [List.intercalate_cons_cons, List.append_assoc, List.singleton_append, hsplit, ih (List.cons_ne_nil _ _)]
      exact List.flatMap_cons.symm

omit [DecidableEq α] in
/-- Joining two lists of texts. -/
theorem intercalate_append (sep : List α) {ls ls' : List (List α)} (h : ls ≠ []) (h' : ls' ≠ []) :
    sep.intercalate (ls ++ ls') = sep.intercalate ls ++ sep ++ sep.intercalate ls' := by
  induction ls with
  | nil => exact absurd rfl h
  | cons l ls ih =>
    cases ls with
    | nil =>
      obtain ⟨l', ls', rfl⟩ := List.exists_cons_of_ne_nil h'
      rw [List.singleton_append, List.intercalate_cons_cons, List.intercalate_singleton]
    | cons l₂ ls =>
      rw [List.cons_append, List.cons_append, List.intercalate_cons_cons, ← List.cons_append,
        ih (List.cons_ne_nil _ _), List.intercalate_cons_cons]
      simp only [List.append_assoc]

end Lines

end ForecastIQ.Foundations
