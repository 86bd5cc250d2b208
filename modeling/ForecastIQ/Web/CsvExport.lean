import ForecastIQ.Foundations.Csv
import ForecastIQ.Foundations.ScriptText
import Mathlib.Data.Bool.AllAny
import Mathlib.Data.List.Forall2

/-!
# Exporting a view as CSV

`web/lib/csv/export.ts`: the file is a block of metadata lines that begin with `#`, a blank line, the
column names, and the rows. `csvCell` keeps a cell from being taken for a formula and quotes it where
it must; the header and the rows are read back as they were (`table_reads_back`).

The metadata lines are not written with `csvCell`. `commentValue` takes line breaks out of most of the
values, but not out of the time of the export and the attribution, and nothing takes out commas and
quotes. A spreadsheet reads these lines as cells too. So unless a value has a quote behind a comma,
which opens a quoted cell, the file is safe exactly when line breaks in those two values are followed
by `#` and no value has a character that begins a formula behind a comma (`export_safe_iff`).

A number is printed by the script; how is a parameter, and so is the current time, which stands in
for a missing time of the export.
-/

namespace ForecastIQ.Web

open ForecastIQ.Foundations ForecastIQ.Foundations.Csv ForecastIQ.Foundations.ScriptText

def hash : UInt16 := 0x23

def apostrophe : UInt16 := 0x27

def comma : UInt16 := 0x2C

def quote : UInt16 := 0x22

theorem comma_ne_quote : comma ≠ quote := by decide

theorem lineFeed_ne_quote : lineFeed ≠ quote := by decide

theorem lineFeed_ne_comma : lineFeed ≠ comma := by decide

/-- Cells between commas, records between line feeds. -/
def csv : Dialect UInt16 := ⟨comma, quote, lineFeed, comma_ne_quote, lineFeed_ne_quote, lineFeed_ne_comma⟩

/-! ### Cells -/

/-- `FORMULA_LEAD`. -/
def formulaLead (s : ScriptText) : Bool := s.head?.any fun c => c ∈ units "=+-@\t\r"

theorem formulaLead_eq_false_iff {s : ScriptText} :
    formulaLead s = false ↔ ∀ c ∈ units "=+-@\t\r", s.head? ≠ some c := by
  cases s with
  | nil => simp [formulaLead]
  | cons d s =>
    simp only [formulaLead, List.head?_cons, Option.any_some, decide_eq_false_iff_not, ne_eq, Option.some_inj]
    exact ⟨fun h c hc hd => h (hd ▸ hc), fun h hd => h d hd rfl⟩

/-- A value of a table. -/
inductive CellValue (ν : Type*) where
  | text (s : ScriptText)
  | number (n : ν)
  | null
  | undefined

/-- The text with an apostrophe before it when it could be taken for a formula. -/
def neutralize (s : ScriptText) : ScriptText := if formulaLead s then apostrophe :: s else s

/-- The text in quotes when it has a quote, a comma or a line break. -/
def quoteIfNeeded (s : ScriptText) : ScriptText := if s.any fun c => c ∈ units "\",\n\r" then quoted csv s else s

section Export

variable {ν : Type*} (print : ν → ScriptText)

/-- The text of a value, empty when there is none. -/
def CellValue.toText : CellValue ν → ScriptText
  | text s => s
  | number n => print n
  | null => []
  | undefined => []

/-- `csvCell`. -/
def csvCell : CellValue ν → ScriptText
  | .null => []
  | .undefined => []
  | .text s => quoteIfNeeded (neutralize s)
  | .number n => quoteIfNeeded (neutralize (print n))

/-! ### The file -/

/-- `commentValue`. -/
def commentValue (value : ScriptText) : ScriptText :=
  trim (replaceRuns (fun c => c = carriageReturn || c = lineFeed) 0x20 value)

/-- An entry of the attribution. -/
structure Attribution where
  provider : ScriptText
  url : ScriptText
  deriving DecidableEq, Repr

/-- `CsvExportInput`. -/
structure CsvExportInput (ν : Type*) where
  screen : ScriptText
  methodologyVersion : Option ScriptText
  weightsVersion : Option ScriptText
  period : Option ScriptText
  location : Option ScriptText
  horizon : Option ScriptText
  variableName : Option ScriptText
  observationProvenance : Option ScriptText
  attribution : Option (List Attribution)
  columns : List ScriptText
  rows : List (List (CellValue ν))
  generatedAt : Option ScriptText

def disclaimer : String := "ForecastIQ measures forecast accuracy. We don't deliver weather forecasts."

/-- The line of a value that may be missing or empty. -/
def optionalLine (label : String) : Option ScriptText → List ScriptText
  | none => []
  | some value => if value = [] then [] else [units label ++ commentValue value]

/-- The entries of the attribution in one text. -/
def attributionText (attribution : Option (List Attribution)) : ScriptText :=
  (units "; ").intercalate ((attribution.getD []).map fun a => a.provider ++ units " — " ++ a.url)

/-- The line of the attribution, if there is an entry. -/
def attributionLine (attribution : Option (List Attribution)) : List ScriptText :=
  if attribution.getD [] = [] then [] else [units "# Attribution: " ++ attributionText attribution]

/-- The values that may be missing, with their labels. -/
def labelled (x : CsvExportInput ν) : List (String × Option ScriptText) :=
  [("# Methodology: ", x.methodologyVersion), ("# Weights: ", x.weightsVersion), ("# Period: ", x.period),
    ("# Location: ", x.location), ("# Horizon: ", x.horizon), ("# Variable: ", x.variableName),
    ("# Observation provenance: ", x.observationProvenance)]

/-- The lines that `buildCsv` pushes before the blank one. -/
def metadataLines (now : ScriptText) (x : CsvExportInput ν) : List ScriptText :=
  [units "# ForecastIQ Export", units "# Generated: " ++ x.generatedAt.getD now,
    units "# Screen: " ++ commentValue x.screen] ++
    ((labelled x).flatMap fun p => optionalLine p.1 p.2) ++ attributionLine x.attribution ++
    [units "# Disclaimer: " ++ units disclaimer]

/-- The text before the blank line. -/
def metadata (now : ScriptText) (x : CsvExportInput ν) : ScriptText := [lineFeed].intercalate (metadataLines now x)

/-- The lines of the column names and of the rows. -/
def tableLines (x : CsvExportInput ν) : List ScriptText :=
  [comma].intercalate (x.columns.map fun name => csvCell print (.text name)) ::
    x.rows.map fun row => [comma].intercalate (row.map (csvCell print))

/-- `buildCsv`. -/
def buildCsv (now : ScriptText) (x : CsvExportInput ν) : ScriptText :=
  [lineFeed].intercalate (metadataLines now x ++ [[]] ++ tableLines print x)

/-! ### Reading the table back -/

/-- What `csvCell` writes is a way to write the neutralized text. -/
theorem quoteIfNeeded_encodes (s : ScriptText) : Encodes csv (quoteIfNeeded s) s := by
  unfold quoteIfNeeded
  split_ifs with h
  · exact .inl rfl
  · simp only [List.any_eq_true, decide_eq_true_eq, not_exists, not_and] at h
    exact .inr ⟨rfl, fun hc => h _ hc (by decide), fun hq => h _ (List.mem_of_mem_head? hq) (by decide),
      fun hn => h _ hn (by decide)⟩

theorem csvCell_encodes (v : CellValue ν) : Encodes csv (csvCell print v) (neutralize (v.toText print)) := by
  cases v with
  | text s => exact quoteIfNeeded_encodes _
  | number n => exact quoteIfNeeded_encodes _
  | null => exact quoteIfNeeded_encodes []
  | undefined => exact quoteIfNeeded_encodes []

/-- The cells of the table: the column names, and the rows. -/
def tableCells (x : CsvExportInput ν) : List (List ScriptText) :=
  x.columns.map neutralize :: x.rows.map fun row => row.map fun v => neutralize (v.toText print)

/-- Each text of the table is a way to write its cell. -/
theorem tableLines_encodes (x : CsvExportInput ν) :
    List.Forall₂ (List.Forall₂ (Encodes csv))
      ((x.columns.map fun name => csvCell print (.text name)) :: x.rows.map fun row => row.map (csvCell print))
      (tableCells print x) := by
  refine .cons ?_ ?_
  · rw [List.forall₂_map_left_iff, List.forall₂_map_right_iff, List.forall₂_same]
    exact fun name _ => csvCell_encodes print (.text name)
  · rw [List.forall₂_map_left_iff, List.forall₂_map_right_iff, List.forall₂_same]
    intro row _
    rw [List.forall₂_map_left_iff, List.forall₂_map_right_iff, List.forall₂_same]
    exact fun v _ => csvCell_encodes print v

theorem parse_csv {lines rows : List (List ScriptText)} (h : List.Forall₂ (List.Forall₂ (Encodes csv)) lines rows)
    (hne : rows ≠ []) :
    parse csv ([lineFeed].intercalate (lines.map fun cells => [comma].intercalate cells)) = rows.map cellsOfLine :=
  parse_lines h hne

theorem tableLines_eq (x : CsvExportInput ν) :
    tableLines print x = ((x.columns.map fun name => csvCell print (.text name)) ::
      x.rows.map fun row => row.map (csvCell print)).map fun cells => [comma].intercalate cells := by
  rw [tableLines, List.map_cons, List.map_map]
  rfl

/-- **The table is read back**, with an apostrophe before the texts that begin like a formula. -/
theorem table_reads_back (now : ScriptText) (x : CsvExportInput ν) (hcolumns : x.columns ≠ [])
    (hrows : ∀ row ∈ x.rows, row.length = x.columns.length) :
    ∃ table, buildCsv print now x = [lineFeed].intercalate (metadataLines now x ++ [[]]) ++ lineFeed :: table ∧
      parse csv table = x.columns.map neutralize ::
        x.rows.map fun row => row.map fun v => neutralize (v.toText print) := by
  refine ⟨[lineFeed].intercalate (tableLines print x), ?_, ?_⟩
  · rw [buildCsv, intercalate_append _ (by simp) (by simp [tableLines]), List.append_assoc, List.singleton_append]
  · have hne : ∀ cells ∈ tableCells print x, cells ≠ [] := by
      refine List.forall_mem_cons.mpr ⟨by simpa using hcolumns, fun cells hcells => ?_⟩
      obtain ⟨row, hrow, rfl⟩ := List.mem_map.mp hcells
      refine List.ne_nil_of_length_pos ?_
      rw [List.length_map, hrows row hrow]
      exact List.length_pos_of_ne_nil hcolumns
    have hread := parse_csv (tableLines_encodes print x) (List.cons_ne_nil _ _)
    rw [← tableLines_eq, map_cellsOfLine hne] at hread
    exact hread

/-! ### The whole file -/

/-- No field brings in a line or a formula: the lines before the blank one begin with `#`, and no cell of the file
begins like a formula. -/
def Safe (now : ScriptText) (x : CsvExportInput ν) : Prop :=
  (∀ line ∈ (metadata now x).splitOn lineFeed, line.head? = some hash) ∧
    ∀ record ∈ parse csv (buildCsv print now x), ∀ cell ∈ record, formulaLead cell = false

/-- The values that are written as they are. -/
def plainValues (now : ScriptText) (x : CsvExportInput ν) : List ScriptText :=
  x.generatedAt.getD now :: (x.attribution.getD []).flatMap fun a => [a.provider, a.url]

/-- The values that are written with `commentValue`. -/
def commentValues (x : CsvExportInput ν) : List ScriptText := x.screen :: (labelled x).filterMap Prod.snd

/-- Line breaks are replaced in the trimmed value. -/
theorem commentValue_eq (value : ScriptText) :
    commentValue value = replaceRuns (fun c => c = carriageReturn || c = lineFeed) 0x20 (trim value) := by
  refine trim_replaceRuns (fun c hc => ?_) (by decide) value
  rcases (Bool.or_eq_true _ _).mp hc with h | h
  · rw [of_decide_eq_true h]
    decide
  · rw [of_decide_eq_true h]
    decide

theorem lineFeed_notMem_commentValue (value : ScriptText) : lineFeed ∉ commentValue value := by
  intro h
  rw [commentValue_eq] at h
  exact absurd (not_of_mem_replaceRuns h (by decide)) (by decide)

/-- What is behind a comma in a value, besides a space or a line break, is there in the trimmed value. -/
theorem pair_infix_commentValue {c : UInt16} (hspace : c ≠ 0x20) (hcr : c ≠ carriageReturn) (hlf : c ≠ lineFeed)
    (value : ScriptText) : [comma, c] <:+: commentValue value ↔ [comma, c] <:+: trim value := by
  rw [commentValue_eq]
  exact pair_infix_replaceRuns (by decide) (by simp [hcr, hlf]) (by decide) hspace _

/-- A carriage return is not in a value any more. -/
theorem not_pair_infix_commentValue (value : ScriptText) : ¬ [comma, carriageReturn] <:+: commentValue value := by
  intro h
  rw [commentValue_eq] at h
  have hmem : carriageReturn ∈ [comma, carriageReturn] := by simp
  exact absurd (not_of_mem_replaceRuns (h.subset hmem) (by decide)) (by decide)

section Metadata

-- a property of texts that only depends on the values in them
variable {Q : ScriptText → Prop}

/-- The attribution has it when each of its values has it. -/
theorem attributionText_iff (hnil : Q [])
    (happend : ∀ s t, t.head? = some 0x20 ∨ t.head? = some 0x3B → (Q (s ++ t) ↔ Q s ∧ Q t))
    (hsep : ∀ v, (Q (units " — " ++ v) ↔ Q v) ∧ (Q (units "; " ++ v) ↔ Q v)) (attribution : Option (List Attribution)) :
    Q (attributionText attribution) ↔ ∀ a ∈ attribution.getD [], Q a.provider ∧ Q a.url := by
  unfold attributionText
  have hentry : ∀ a : Attribution, Q (a.provider ++ units " — " ++ a.url) ↔ Q a.provider ∧ Q a.url := fun a => by
    rw [List.append_assoc, happend _ _ (.inl rfl), (hsep _).1]
  induction attribution.getD [] with
  | nil => exact iff_of_true hnil fun _ h => absurd h List.not_mem_nil
  | cons a as ih =>
    cases as with
    | nil => rw [List.map_singleton, List.intercalate_singleton, hentry, List.forall_mem_singleton]
    | cons a' as =>
      rw [List.map_cons] at ih ⊢
      rw [List.map_cons, List.intercalate_cons_cons, List.append_assoc, happend _ _ (.inr rfl), hentry, (hsep _).2,
        List.forall_mem_cons (a := a)]
      exact and_congr_right fun _ => ih

/-- A property of the metadata lines that a label does not change. -/
theorem forall_metadataLines {P : ScriptText → Prop} (hnil : Q []) (hend : Q (units disclaimer))
    (hlabel : ∀ label : String, (units label).head? = some hash → lineFeed ∉ units label → comma ∉ units label →
      ∀ v, P (units label ++ v) ↔ Q v) (now : ScriptText) (x : CsvExportInput ν) :
    (∀ text ∈ metadataLines now x, P text) ↔
      Q (x.generatedAt.getD now) ∧ (∀ value ∈ commentValues x, Q (commentValue value)) ∧
        Q (attributionText x.attribution) := by
  have htitle : P (units "# ForecastIQ Export") := by
    have h := (hlabel "# ForecastIQ Export" (by decide) (by decide) (by decide) []).mpr hnil
    rwa [List.append_nil] at h
  have hlabels : ∀ p ∈ labelled x, (units p.1).head? = some hash ∧ lineFeed ∉ units p.1 ∧ comma ∉ units p.1 := by
    simp only [labelled, List.forall_mem_cons]
    decide
  have hoptional : (∀ text ∈ (labelled x).flatMap fun p => optionalLine p.1 p.2, P text) ↔
      ∀ value ∈ (labelled x).filterMap Prod.snd, Q (commentValue value) := by
    rw [List.forall_mem_flatMap, List.forall_mem_filterMap]
    refine forall₂_congr fun p hp => ?_
    obtain ⟨hhash, hlf, hcomma⟩ := hlabels p hp
    cases hv : p.2 with
    | none => simp [optionalLine]
    | some value =>
      rw [optionalLine]
      split_ifs with hempty
      · have hvalue : Q (commentValue value) := by rw [hempty]; exact hnil
        simpa using hvalue
      · simp [hlabel p.1 hhash hlf hcomma]
  have hattribution : (∀ text ∈ attributionLine x.attribution, P text) ↔ Q (attributionText x.attribution) := by
    unfold attributionLine
    split_ifs with h
    · rw [attributionText, h]
      exact iff_of_true (fun _ hm => absurd hm List.not_mem_nil) hnil
    · rw [List.forall_mem_singleton]
      exact hlabel _ (by decide) (by decide) (by decide) _
  rw [metadataLines, List.forall_mem_append, List.forall_mem_append, List.forall_mem_append, List.forall_mem_singleton,
    List.forall_mem_cons, List.forall_mem_cons, List.forall_mem_singleton, hoptional, hattribution,
    hlabel _ (by decide) (by decide) (by decide), hlabel _ (by decide) (by decide) (by decide),
    hlabel _ (by decide) (by decide) (by decide), commentValues, List.forall_mem_cons]
  tauto

end Metadata

/-- The metadata lines begin with `#` when the values that are written as they are do not break them. -/
theorem forall_lines_metadata (now : ScriptText) (x : CsvExportInput ν) :
    (∀ line ∈ (metadata now x).splitOn lineFeed, line.head? = some hash) ↔
      ∀ value ∈ plainValues now x, eachFollowedBy lineFeed hash value = true := by
  have hne : metadataLines now x ≠ [] := by simp [metadataLines]
  have hlabel : ∀ label : String, (units label).head? = some hash → lineFeed ∉ units label → comma ∉ units label →
      ∀ v, (∀ line ∈ (units label ++ v).splitOn lineFeed, line.head? = some hash) ↔
        eachFollowedBy lineFeed hash v = true := by
    intro label hhead hlf _ v
    rw [forall_splitOn_head (by decide), eachFollowedBy_append hlf, List.head?_append, hhead]
    exact and_iff_right rfl
  rw [metadata, splitOn_joined lineFeed hne, List.forall_mem_flatMap,
    forall_metadataLines (Q := fun v => eachFollowedBy lineFeed hash v = true) rfl (by decide) hlabel,
    attributionText_iff (Q := fun v => eachFollowedBy lineFeed hash v = true) rfl ?_ ?_, plainValues,
    List.forall_mem_cons, List.forall_mem_flatMap]
  · have hcomment : ∀ value ∈ commentValues x, eachFollowedBy lineFeed hash (commentValue value) = true :=
      fun value _ => eachFollowedBy_of_notMem (lineFeed_notMem_commentValue value)
    rw [and_iff_right hcomment]
    simp
  · rintro s t (h | h)
    · rw [eachFollowedBy_append_of_head (by rw [h]; decide), Bool.and_eq_true]
    · rw [eachFollowedBy_append_of_head (by rw [h]; decide), Bool.and_eq_true]
  · intro v
    rw [eachFollowedBy_append (by decide), eachFollowedBy_append (by decide)]
    exact ⟨Iff.rfl, Iff.rfl⟩

/-- What is behind a comma in the metadata is behind a comma in one of the values. -/
theorem pair_infix_metadata {c : UInt16} (hc : c ≠ lineFeed ∧ c ≠ 0x20 ∧ c ≠ 0x3B) (now : ScriptText)
    (x : CsvExportInput ν) :
    (¬ [comma, c] <:+: metadata now x) ↔ (∀ value ∈ plainValues now x, ¬ [comma, c] <:+: value) ∧
      ∀ value ∈ commentValues x, ¬ [comma, c] <:+: commentValue value := by
  have hend : ¬ [comma, c] <:+: units disclaimer := fun h => absurd (h.subset List.mem_cons_self) (by decide)
  rw [metadata, pair_infix_joined (by decide) hc.1, not_exists]
  simp only [not_and]
  rw [forall_metadataLines (Q := fun v => ¬ [comma, c] <:+: v) (by simp) hend fun label _ _ hcomma v =>
      not_congr (pair_infix_append_right hcomma),
    attributionText_iff (Q := fun v => ¬ [comma, c] <:+: v) (by simp) ?_ ?_, plainValues, List.forall_mem_cons,
    List.forall_mem_flatMap]
  · simp only [List.forall_mem_cons, List.not_mem_nil, false_imp_iff, implies_true, and_true]
    tauto
  · rintro s t (h | h)
    · rw [pair_infix_append (by rw [h]; simpa using hc.2.1.symm), not_or]
    · rw [pair_infix_append (by rw [h]; simpa using hc.2.2.symm), not_or]
  · exact fun v => ⟨not_congr (pair_infix_append_right (by decide)), not_congr (pair_infix_append_right (by decide))⟩

theorem formulaLead_neutralize (s : ScriptText) : formulaLead (neutralize s) = false := by
  unfold neutralize
  split_ifs with h
  · rfl
  · exact Bool.eq_false_iff.mpr h

/-- No cell of the table begins like a formula. -/
theorem formulaLead_tableCells (x : CsvExportInput ν) :
    ∀ record ∈ (tableCells print x).map cellsOfLine, ∀ cell ∈ record, formulaLead cell = false := by
  have hcells : ∀ record ∈ tableCells print x, ∀ cell ∈ record, formulaLead cell = false := by
    refine List.forall_mem_cons.mpr ⟨?_, ?_⟩
    · exact List.forall_mem_map.mpr fun name _ => formulaLead_neutralize name
    · refine List.forall_mem_map.mpr fun row _ => ?_
      exact List.forall_mem_map.mpr fun v _ => formulaLead_neutralize _
  refine List.forall_mem_map.mpr fun record hrecord => ?_
  unfold cellsOfLine
  split_ifs
  · exact List.forall_mem_singleton.mpr rfl
  · exact hcells record hrecord

/-- What is behind a comma in the metadata is behind a comma in one of its lines. -/
theorem pair_infix_lines {c : UInt16} (hc : c ≠ lineFeed) (text : ScriptText) :
    [comma, c] <:+: text ↔ ∃ line ∈ text.splitOn lineFeed, [comma, c] <:+: line := by
  rw [← pair_infix_joined (by decide) hc, List.intercalate_splitOn]

/-- The lines of the metadata, the blank line, and those of the table. -/
theorem buildCsv_eq (now : ScriptText) (x : CsvExportInput ν) :
    buildCsv print now x = [lineFeed].intercalate ((metadata now x).splitOn lineFeed ++ [] :: tableLines print x) := by
  have hne : metadataLines now x ≠ [] := by simp [metadataLines]
  rw [buildCsv, List.append_assoc, List.singleton_append, intercalate_append _ hne (by simp),
    intercalate_append _ (List.splitOn_ne_nil _ _) (by simp), List.intercalate_splitOn, metadata]

/-- When no quote opens a cell of the metadata, its cells are between the commas of its lines. -/
theorem parse_buildCsv {now : ScriptText} {x : CsvExportInput ν}
    (hhash : ∀ line ∈ (metadata now x).splitOn lineFeed, line.head? = some hash)
    (hquote : ¬ [comma, quote] <:+: metadata now x) :
    parse csv (buildCsv print now x) = ((metadata now x).splitOn lineFeed).map (List.splitOn comma) ++
      [[]] :: (tableCells print x).map cellsOfLine := by
  have hcells : ∀ line ∈ (metadata now x).splitOn lineFeed, ∀ cell ∈ line.splitOn comma, Encodes csv cell cell := by
    intro line hline cell hcell
    refine .inr ⟨rfl, fun h => (mem_of_mem_splitOn hcell h).2 rfl, fun hhead => ?_, fun h => ?_⟩
    · rcases (exists_splitOn_head (by decide) line).mp ⟨cell, hcell, hhead⟩ with h | h
      · exact absurd ((hhash line hline).symm.trans h) (by decide)
      · exact hquote ((pair_infix_lines (by decide) _).mpr ⟨line, hline, h⟩)
    · exact (mem_of_mem_splitOn hline (mem_of_mem_splitOn hcell h).1).2 rfl
  have hmetadata : List.Forall₂ (List.Forall₂ (Encodes csv))
      (((metadata now x).splitOn lineFeed).map (List.splitOn comma))
      (((metadata now x).splitOn lineFeed).map (List.splitOn comma)) := by
    refine List.forall₂_same.mpr (List.forall_mem_map.mpr fun line hline => ?_)
    exact List.forall₂_same.mpr (hcells line hline)
  have hlines : (metadata now x).splitOn lineFeed ++ [] :: tableLines print x =
      (((metadata now x).splitOn lineFeed).map (List.splitOn comma) ++ [] ::
        ((x.columns.map fun name => csvCell print (.text name)) :: x.rows.map fun row => row.map (csvCell print))).map
          fun cells => [comma].intercalate cells := by
    rw [List.map_append, List.map_cons, ← tableLines_eq, List.map_map]
    refine congrArg (· ++ _) ?_
    conv_lhs => rw [← List.map_id ((metadata now x).splitOn lineFeed)]
    exact List.map_congr_left fun line _ => (List.intercalate_splitOn comma).symm
  rw [buildCsv_eq, hlines, parse_csv (List.rel_append hmetadata (.cons .nil (tableLines_encodes print x))) (by simp),
    List.map_append, map_cellsOfLine (List.forall_mem_map.mpr fun line _ => List.splitOn_ne_nil comma line)]
  rfl

/-- A cell of a metadata line begins like a formula when a comma is before such a character. -/
theorem formulaLead_metadata {now : ScriptText} {x : CsvExportInput ν}
    (hhash : ∀ line ∈ (metadata now x).splitOn lineFeed, line.head? = some hash) :
    (∀ line ∈ (metadata now x).splitOn lineFeed, ∀ cell ∈ line.splitOn comma, formulaLead cell = false) ↔
      ∀ c ∈ units "=+-@\t\r", ¬ [comma, c] <:+: metadata now x := by
  have hline : ∀ c ∈ units "=+-@\t\r", ∀ line ∈ (metadata now x).splitOn lineFeed,
      (∃ cell ∈ line.splitOn comma, cell.head? = some c) ↔ [comma, c] <:+: line := by
    intro c hc line hline
    have hne : ∀ c ∈ units "=+-@\t\r", c ≠ comma ∧ c ≠ hash := List.all_iff_forall_prop.mp (by decide)
    rw [exists_splitOn_head (hne c hc).1, hhash line hline, or_iff_right]
    simpa using (hne c hc).2.symm
  have hlf : ∀ c ∈ units "=+-@\t\r", c ≠ lineFeed := List.all_iff_forall_prop.mp (by decide)
  simp only [formulaLead_eq_false_iff]
  constructor
  · intro h c hc hpair
    obtain ⟨line, hl, hpair⟩ := (pair_infix_lines (hlf c hc) _).mp hpair
    obtain ⟨cell, hcell, hhead⟩ := (hline c hc line hl).mpr hpair
    exact h line hl cell hcell c hc hhead
  · intro h line hl cell hcell c hc hhead
    exact h c hc ((pair_infix_lines (hlf c hc) _).mpr ⟨line, hl, (hline c hc line hl).mp ⟨cell, hcell, hhead⟩⟩)

/-- No character that begins a formula is behind a comma in the metadata when none is in the values. -/
theorem pairs_metadata_iff (now : ScriptText) (x : CsvExportInput ν) :
    (∀ c ∈ units "=+-@\t\r", ¬ [comma, c] <:+: metadata now x) ↔
      (∀ value ∈ plainValues now x, ∀ c ∈ units "=+-@\t\r", ¬ [comma, c] <:+: value) ∧
        ∀ value ∈ commentValues x, ∀ c ∈ units "=+-@\t", ¬ [comma, c] <:+: trim value := by
  have hsix : ∀ c ∈ units "=+-@\t\r", c ≠ lineFeed ∧ c ≠ 0x20 ∧ c ≠ 0x3B := List.all_iff_forall_prop.mp (by decide)
  have hfive : ∀ c ∈ units "=+-@\t", c ∈ units "=+-@\t\r" ∧ c ≠ carriageReturn :=
    List.all_iff_forall_prop.mp (by decide)
  have hcr : ∀ c ∈ units "=+-@\t\r", c = carriageReturn ∨ c ∈ units "=+-@\t" := List.all_iff_forall_prop.mp (by decide)
  have hvalue : ∀ c ∈ units "=+-@\t", ∀ value, [comma, c] <:+: commentValue value ↔ [comma, c] <:+: trim value :=
    fun c hc => pair_infix_commentValue (hsix c (hfive c hc).1).2.1 (hfive c hc).2 (hsix c (hfive c hc).1).1
  constructor
  · intro h
    refine ⟨fun v hv c hc => ((pair_infix_metadata (hsix c hc) now x).mp (h c hc)).1 v hv, fun v hv c hc => ?_⟩
    rw [← hvalue c hc]
    exact ((pair_infix_metadata (hsix c (hfive c hc).1) now x).mp (h c (hfive c hc).1)).2 v hv
  · rintro ⟨hplain, hcomment⟩ c hc
    refine (pair_infix_metadata (hsix c hc) now x).mpr ⟨fun v hv => hplain v hv c hc, fun v hv => ?_⟩
    rcases hcr c hc with rfl | hc
    · exact not_pair_infix_commentValue v
    · rw [hvalue c hc]
      exact hcomment v hv c hc

/-- **The file is safe** exactly when each line break in a value that is written as it is has `#` behind it, and no
value has a comma before a character that begins a formula; a carriage return and white space at the end of a value
matter only where the value is written as it is. -/
theorem export_safe_iff (now : ScriptText) (x : CsvExportInput ν)
    (hquote : ∀ value ∈ plainValues now x ++ commentValues x, ¬ [comma, quote] <:+: value) :
    Safe print now x ↔
      (∀ value ∈ plainValues now x, eachFollowedBy lineFeed hash value = true ∧
        ∀ c ∈ units "=+-@\t\r", ¬ [comma, c] <:+: value) ∧
      ∀ value ∈ commentValues x, ∀ c ∈ units "=+-@\t", ¬ [comma, c] <:+: trim value := by
  have hopen : ¬ [comma, quote] <:+: metadata now x := by
    refine (pair_infix_metadata (by decide) now x).mpr ⟨fun v hv => hquote v (List.mem_append_left _ hv), ?_⟩
    intro v hv hpair
    rw [pair_infix_commentValue (by decide) (by decide) (by decide)] at hpair
    exact hquote v (List.mem_append_right _ hv) (hpair.trans (isInfix_trim v))
  rw [forall₂_and, and_assoc, ← forall_lines_metadata, ← pairs_metadata_iff, Safe]
  refine and_congr_right fun hhash => ?_
  rw [← formulaLead_metadata hhash, parse_buildCsv print hhash hopen, List.forall_mem_append, List.forall_mem_cons,
    List.forall_mem_map]
  exact and_iff_left ⟨List.forall_mem_singleton.mpr rfl, formulaLead_tableCells print x⟩

end Export

/-- A view of one provider; every number is printed as `-1.5`. -/
def sampleExport : CsvExportInput Unit where
  screen := units "Trends (S-04)"
  methodologyVersion := some (units "2026.1")
  weightsVersion := none
  period := none
  location := some (units "")
  horizon := none
  variableName := none
  observationProvenance := none
  attribution := some [⟨units "Open-Meteo", units "https://open-meteo.com"⟩]
  columns := [units "provider", units "=bias"]
  rows := [[.text (units "A \"B\", C"), .number ()], [.text (units "Gap"), .null]]
  generatedAt := some (units "2026-07-22T10:00:00Z")

/-- Its table, read back. -/
theorem table_reads_back_sample :
    ∃ table, buildCsv (fun _ => units "-1.5") [] sampleExport =
        [lineFeed].intercalate (metadataLines [] sampleExport ++ [[]]) ++ lineFeed :: table ∧
      parse csv table = [[units "provider", units "'=bias"], [units "A \"B\", C", units "'-1.5"],
        [units "Gap", units ""]] := by
  obtain ⟨table, hfile, hread⟩ := table_reads_back (fun _ => units "-1.5") [] sampleExport (by decide) (by decide)
  exact ⟨table, hfile, hread.trans (by decide)⟩

/-- It is safe, as its values are. -/
theorem export_safe_sample : Safe (fun _ => units "-1.5") [] sampleExport := by
  refine (export_safe_iff (fun _ => units "-1.5") [] sampleExport (by decide +kernel)).mpr
    ⟨fun value hv => ⟨?_, List.all_iff_forall_prop.mp ?_⟩, fun value hv => List.all_iff_forall_prop.mp ?_⟩
  all_goals
    revert value
    decide +kernel

/-- A comma in the name of the screen starts a cell, and a line break in the attribution a line. -/
theorem export_unsafe :
    ¬ Safe (fun _ => units "-1.5") [] { sampleExport with screen := units "Trends,=1+1" } ∧
    ¬ Safe (fun _ => units "-1.5") []
      { sampleExport with attribution := some [⟨units "Open-Meteo\nFake,0", units "https://open-meteo.com"⟩] } := by
  constructor
  · rintro ⟨-, hcells⟩
    have hlead := hcells [units "# Screen: Trends", units "=1+1"] (by decide +kernel) (units "=1+1") (by decide)
    exact absurd hlead (by decide)
  · rintro ⟨hlines, -⟩
    have hhash := hlines (units "Fake,0 — https://open-meteo.com") (by decide +kernel)
    exact absurd hhash (by decide)

end ForecastIQ.Web
