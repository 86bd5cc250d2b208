import Mathlib.Data.List.Basic

/-!
# Comma-separated values

Text over any alphabet that has a comma, a quote and a newline. Records are separated by newlines and
cells by commas. A cell that starts with a quote goes on to the next single quote, whatever is in
between, and two quotes stand for one.

The reader takes any text: behind a closing quote, or when a quote comes later in a cell, the
characters are taken as they are. It goes through the text once with a state, so that a text that
does not end inside quotes is read by itself (`parse_append_newline`).

A cell can be written in two ways (`Encodes`). Lines of cells that are so written are read back as
they were (`parse_lines`).
-/

namespace ForecastIQ.Foundations.Csv

variable {α : Type*}

/-- The characters that separate cells, quote them and separate records. -/
structure Dialect (α : Type*) where
  comma : α
  quote : α
  newline : α
  comma_ne_quote : comma ≠ quote
  newline_ne_quote : newline ≠ quote
  newline_ne_comma : newline ≠ comma

/-- Where the reader is: before the first character of a cell, in a cell without quotes, in quotes,
or behind a quote that closes the cell unless another one follows. -/
inductive Mode where
  | start | plain | quoted | closing
  deriving DecidableEq, Repr

/-- The records read so far, the cells of the current one, and the current cell. -/
structure Reader (α : Type*) where
  records : List (List (List α))
  record : List (List α)
  cell : List α
  mode : Mode

/-- Before the text. -/
def Reader.init : Reader α := ⟨[], [], [], .start⟩

/-- All records, with the current one. -/
def Reader.finish (s : Reader α) : List (List (List α)) := s.records ++ [s.record ++ [s.cell]]

section Reading

variable [DecidableEq α] (d : Dialect α)

/-- A character outside of quotes. -/
def Reader.plainStep (s : Reader α) (c : α) : Reader α :=
  if c = d.comma then ⟨s.records, s.record ++ [s.cell], [], .start⟩
  else if c = d.newline then ⟨s.records ++ [s.record ++ [s.cell]], [], [], .start⟩
  else ⟨s.records, s.record, s.cell ++ [c], .plain⟩

/-- One character. -/
def Reader.step (s : Reader α) (c : α) : Reader α :=
  match s.mode with
  | .start => if c = d.quote then { s with mode := .quoted } else s.plainStep d c
  | .plain => s.plainStep d c
  | .quoted => if c = d.quote then { s with mode := .closing } else { s with cell := s.cell ++ [c] }
  | .closing => if c = d.quote then { s with cell := s.cell ++ [c], mode := .quoted } else s.plainStep d c

/-- A text. -/
def Reader.run (s : Reader α) (text : List α) : Reader α := text.foldl (step d) s

/-- The records of a text. -/
def parse (text : List α) : List (List (List α)) := (Reader.init.run d text).finish

/-- The text ends inside quotes. -/
def leavesOpen (text : List α) : Bool := (Reader.init.run d text).mode = .quoted

end Reading

section Lemmas

variable [DecidableEq α] {d : Dialect α}

theorem Reader.run_append (s : Reader α) (t u : List α) : s.run d (t ++ u) = (s.run d t).run d u := List.foldl_append

theorem Reader.run_cons (s : Reader α) (c : α) (t : List α) : s.run d (c :: t) = (s.step d c).run d t := rfl

/-- Outside of quotes a comma ends the cell. -/
theorem Reader.step_comma {s : Reader α} (h : s.mode ≠ .quoted) :
    s.step d d.comma = ⟨s.records, s.record ++ [s.cell], [], .start⟩ := by
  unfold step
  split
  · rw [if_neg d.comma_ne_quote, plainStep, if_pos rfl]
  · rw [plainStep, if_pos rfl]
  · exact absurd ‹s.mode = _› h
  · rw [if_neg d.comma_ne_quote, plainStep, if_pos rfl]

/-- Outside of quotes a newline ends the record. -/
theorem Reader.step_newline {s : Reader α} (h : s.mode ≠ .quoted) :
    s.step d d.newline = ⟨s.finish, [], [], .start⟩ := by
  have hplain : s.plainStep d d.newline = ⟨s.finish, [], [], .start⟩ := by
    rw [plainStep, if_neg d.newline_ne_comma, if_pos rfl]
    rfl
  unfold step
  split
  · rw [if_neg d.newline_ne_quote, hplain]
  · exact hplain
  · exact absurd ‹s.mode = _› h
  · rw [if_neg d.newline_ne_quote, hplain]

/-- Earlier records stay. -/
theorem Reader.step_records (rs : List (List (List α))) (s : Reader α) (c : α) :
    (⟨rs ++ s.records, s.record, s.cell, s.mode⟩ : Reader α).step d c =
      ⟨rs ++ (s.step d c).records, (s.step d c).record, (s.step d c).cell, (s.step d c).mode⟩ := by
  obtain ⟨records, record, cell, mode⟩ := s
  cases mode <;> simp only [step, plainStep] <;> split_ifs <;> simp

theorem Reader.run_records (rs : List (List (List α))) (s : Reader α) (t : List α) :
    (⟨rs ++ s.records, s.record, s.cell, s.mode⟩ : Reader α).run d t =
      ⟨rs ++ (s.run d t).records, (s.run d t).record, (s.run d t).cell, (s.run d t).mode⟩ := by
  induction t generalizing s with
  | nil => rfl
  | cons c t ih => rw [run_cons, step_records, ih, ← run_cons]

/-- From the start of a record the rest is read as a text of its own. -/
theorem Reader.finish_run (rs : List (List (List α))) (t : List α) :
    ((⟨rs, [], [], .start⟩ : Reader α).run d t).finish = rs ++ parse d t := by
  have h := run_records (d := d) rs init t
  rw [init, List.append_nil] at h
  rw [h, finish, List.append_assoc]
  rfl

/-- **A text that does not end inside quotes is read by itself.** -/
theorem parse_append_newline {t : List α} (h : leavesOpen d t = false) (u : List α) :
    parse d (t ++ d.newline :: u) = parse d t ++ parse d u := by
  rw [parse, Reader.run_append, Reader.run_cons, Reader.step_newline (of_decide_eq_false h), Reader.finish_run]
  rfl

/-! ### Writing cells -/

/-- The cell in quotes, with its quotes doubled. -/
def quoted (d : Dialect α) (s : List α) : List α :=
  d.quote :: (s.flatMap fun c => if c = d.quote then [d.quote, d.quote] else [c]) ++ [d.quote]

/-- The text is a way to write the cell: in quotes, or as it is when nothing in it ends it and no quote opens it. -/
def Encodes (d : Dialect α) (text s : List α) : Prop :=
  text = quoted d s ∨ text = s ∧ d.comma ∉ s ∧ s.head? ≠ some d.quote ∧ d.newline ∉ s

theorem run_plain {t : List α} (hc : d.comma ∉ t) (hn : d.newline ∉ t) (rs : List (List (List α)))
    (r : List (List α)) (cell : List α) :
    (⟨rs, r, cell, .plain⟩ : Reader α).run d t = ⟨rs, r, cell ++ t, .plain⟩ := by
  induction t generalizing cell with
  | nil => rw [List.append_nil]; rfl
  | cons c t ih =>
    rw [List.mem_cons, not_or] at hc hn
    rw [Reader.run_cons, Reader.step, Reader.plainStep, if_neg (Ne.symm hc.1), if_neg (Ne.symm hn.1), ih hc.2 hn.2,
      List.append_assoc, List.singleton_append]

theorem run_doubled (s : List α) (rs : List (List (List α))) (r : List (List α)) (cell : List α) :
    (⟨rs, r, cell, .quoted⟩ : Reader α).run d (s.flatMap fun c => if c = d.quote then [d.quote, d.quote] else [c]) =
      ⟨rs, r, cell ++ s, .quoted⟩ := by
  induction s generalizing cell with
  | nil => rw [List.append_nil]; rfl
  | cons c s ih =>
    have hc : (⟨rs, r, cell, .quoted⟩ : Reader α).run d (if c = d.quote then [d.quote, d.quote] else [c]) =
        ⟨rs, r, cell ++ [c], .quoted⟩ := by
      split_ifs with h
      · simp [Reader.run, Reader.step, h]
      · simp [Reader.run, Reader.step, h]
    rw [List.flatMap_cons, Reader.run_append, hc, ih, List.append_assoc, List.singleton_append]

/-- A written cell is read, and the reader is then outside of quotes. -/
theorem run_encodes {t s : List α} (h : Encodes d t s) (rs : List (List (List α))) (r : List (List α)) :
    ∃ m, m ≠ .quoted ∧ (⟨rs, r, [], .start⟩ : Reader α).run d t = ⟨rs, r, s, m⟩ := by
  rcases h with rfl | ⟨rfl, hc, hq, hn⟩
  · refine ⟨.closing, by decide, ?_⟩
    rw [quoted, List.cons_append, Reader.run_cons, Reader.step, if_pos rfl, Reader.run_append, run_doubled]
    simp [Reader.run, Reader.step]
  · cases t with
    | nil => exact ⟨.start, by decide, rfl⟩
    | cons c t =>
      rw [List.mem_cons, not_or] at hc hn
      refine ⟨.plain, by decide, ?_⟩
      rw [Reader.run_cons, Reader.step, if_neg fun h => hq (congrArg some h), Reader.plainStep, if_neg (Ne.symm hc.1),
        if_neg (Ne.symm hn.1), run_plain hc.2 hn.2]
      rfl

/-- The cells of a line; an empty line is one empty cell. -/
def cellsOfLine (ss : List (List α)) : List (List α) := if ss = [] then [[]] else ss

omit [DecidableEq α] in
theorem map_cellsOfLine {rows : List (List (List α))} (h : ∀ ss ∈ rows, ss ≠ []) : rows.map cellsOfLine = rows := by
  have hid : ∀ ss ∈ rows, cellsOfLine ss = id ss := fun ss hss => if_neg (h ss hss)
  rw [List.map_congr_left hid, List.map_id]

/-- A line of written cells, behind the cells `r` of its record. -/
theorem run_line {ts ss : List (List α)} (h : List.Forall₂ (Encodes d) ts ss) (rs : List (List (List α)))
    (r : List (List α)) :
    ∃ r' c m, m ≠ .quoted ∧
      (⟨rs, r, [], .start⟩ : Reader α).run d ([d.comma].intercalate ts) = ⟨rs, r', c, m⟩ ∧
        r' ++ [c] = r ++ cellsOfLine ss := by
  induction h generalizing r with
  | nil => exact ⟨r, [], .start, by decide, rfl, rfl⟩
  | @cons t s ts ss hts hrest ih =>
    obtain ⟨m, hm, hrun⟩ := run_encodes hts rs r
    cases hrest with
    | nil =>
      rw [List.intercalate_singleton]
      exact ⟨r, s, m, hm, hrun, rfl⟩
    | @cons t' s' ts ss hts' hrest' =>
      obtain ⟨r', c, m', hm', hrun', hcells⟩ := ih (r ++ [s])
      refine ⟨r', c, m', hm', ?_, ?_⟩
      · rw [List.intercalate_cons_cons, List.append_assoc, Reader.run_append, hrun, List.singleton_append,
          Reader.run_cons, Reader.step_comma hm, hrun']
      · rw [hcells, List.append_assoc]
        rfl

/-- A line is one record, and does not end inside quotes. -/
theorem parse_line {ts ss : List (List α)} (h : List.Forall₂ (Encodes d) ts ss) :
    parse d ([d.comma].intercalate ts) = [cellsOfLine ss] ∧ leavesOpen d ([d.comma].intercalate ts) = false := by
  obtain ⟨r', c, m, hm, hrun, hcells⟩ := run_line h [] []
  rw [parse, leavesOpen, Reader.init, hrun, Reader.finish]
  exact ⟨by rw [hcells]; rfl, decide_eq_false hm⟩

/-- **Lines of written cells are read back.** -/
theorem parse_lines {lines rows : List (List (List α))} (h : List.Forall₂ (List.Forall₂ (Encodes d)) lines rows)
    (hne : rows ≠ []) :
    parse d ([d.newline].intercalate (lines.map fun ts => [d.comma].intercalate ts)) = rows.map cellsOfLine := by
  induction h with
  | nil => exact absurd rfl hne
  | @cons ts ss lines rows hts hrest ih =>
    obtain ⟨hread, hclosed⟩ := parse_line hts
    cases hrest with
    | nil =>
      rw [List.map_singleton, List.intercalate_singleton, hread]
      rfl
    | @cons ts' ss' lines rows hts' hrest' =>
      rw [List.map_cons, List.map_cons, List.intercalate_cons_cons, ← List.map_cons, List.append_assoc,
        List.singleton_append, parse_append_newline hclosed, hread, ih (List.cons_ne_nil _ _)]
      rfl

end Lemmas

end ForecastIQ.Foundations.Csv
