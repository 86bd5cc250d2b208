import ForecastIQ.Collection.Chains
import ForecastIQ.Collection.Historical

/-!
# What a run of `Observe` stores

`observe` on a store that keeps its unique keys, said exactly: which runs fail, and what the
table is after one that does not. A run reads the live rows of its window only, and looks for
the row of the very instant of a reading. So a reading of an hour outside the window counts as
new, and so does one with a fraction below the microsecond, which no row has; each is dropped
on conflict when the hour it is stored under has a live row. Two readings of one hour are both
compared with the row before the run.

When nothing of this occurs, a second run with the same readings finds nothing to do: a row that
was stored differs from its reading by the rounding of its columns, and a row that was kept by
no more than the tolerances.
-/

namespace ForecastIQ.Collection

open ForecastIQ.Foundations
open ForecastIQ.Analysis (ObservationType QualityFlag)

/-! ### Stores with unique keys -/

/-- The primary key and the partial unique index of the table, and the precision of its times. -/
structure ObservationStore.Keyed (s : ObservationStore) : Prop where
  id_lt : ∀ o ∈ s.rows, o.id < s.nextID
  nodup : (s.rows.map Observation.id).Nodup
  index : (keys Observation.dedupKey s.rows).Nodup
  instants : ∀ o ∈ s.rows, storedTime o.observedAt = o.observedAt

theorem ObservationStore.Keyed.empty : ObservationStore.empty.Keyed where
  id_lt := by simp [ObservationStore.empty]
  nodup := List.nodup_nil
  index := List.nodup_nil
  instants := by simp [ObservationStore.empty]

/-- The index holds the keys of the live rows. -/
theorem mem_keys_dedupKey {rows : List Observation} {key : String × ℕ × ℤ} :
    key ∈ keys Observation.dedupKey rows ↔ ∃ o ∈ rows, o.hourKey = key ∧ o.live = true := by
  rw [keys, List.mem_filterMap]
  refine exists_congr fun o => and_congr_right fun _ => ⟨fun h => ?_, fun h => ?_⟩
  · have hlive : o.live = true := by
      by_contra hno
      rw [Observation.dedupKey, if_neg hno] at h
      cases h
    rw [Observation.dedupKey_of_live hlive, Option.some.injEq] at h
    exact ⟨h, hlive⟩
  · rw [Observation.dedupKey_of_live h.2, h.1]

/-- A linked table has its keys. -/
theorem Linked.keyed {rows : List Observation} {nextID : ℕ} (h : Linked rows) (hid : ∀ o ∈ rows, o.id < nextID) :
    (⟨rows, nextID⟩ : ObservationStore).Keyed where
  id_lt := hid
  nodup := h.nodup
  index := by
    rw [keys, List.Nodup, List.pairwise_filterMap]
    refine (List.Nodup.of_map _ h.nodup).imp_of_mem fun {o o'} ho ho' hne k hk k' hk' he => hne ?_
    rw [← he] at hk'
    obtain ⟨v, hv, hkey, hlive⟩ := mem_keys_dedupKey.mp (List.mem_filterMap.mpr ⟨o, List.mem_singleton_self o, hk⟩)
    obtain ⟨v', hv', hkey', hlive'⟩ :=
      mem_keys_dedupKey.mp (List.mem_filterMap.mpr ⟨o', List.mem_singleton_self o', hk'⟩)
    rw [List.mem_singleton] at hv hv'
    subst hv hv'
    exact List.inj_on_of_nodup_map h.nodup ho ho' (h.oneLive v ho v' ho' hlive hlive' (hkey.trans hkey'.symm))
  instants := h.instants

/-- The live rows of a source, location and hour. -/
def ObservationStore.liveAt (s : ObservationStore) (key : String × ℕ × ℤ) : List Observation :=
  s.rows.filter fun o => o.hourKey = key ∧ o.live = true

theorem ObservationStore.mem_liveAt {s : ObservationStore} {key : String × ℕ × ℤ} {o : Observation} :
    o ∈ s.liveAt key ↔ o ∈ s.rows ∧ o.hourKey = key ∧ o.live = true := by
  simp [liveAt]

/-- There is at most one. -/
theorem ObservationStore.Keyed.eq_of_liveAt {s : ObservationStore} (h : s.Keyed) {key : String × ℕ × ℤ}
    {o o' : Observation} (ho : o ∈ s.liveAt key) (ho' : o' ∈ s.liveAt key) : o = o' := by
  rw [ObservationStore.mem_liveAt] at ho ho'
  refine eq_of_nodup_keys h.index ho.1 ho'.1 (Observation.dedupKey_of_live ho.2.2) ?_
  rw [Observation.dedupKey_of_live ho'.2.2, ho.2.1, ho'.2.1]

theorem ObservationStore.Keyed.liveAt_eq {s : ObservationStore} (h : s.Keyed) {key : String × ℕ × ℤ}
    {o : Observation} (ho : o ∈ s.liveAt key) : s.liveAt key = [o] := by
  have hnodup : (s.liveAt key).Nodup := List.Nodup.filter _ (List.Nodup.of_map _ h.nodup)
  refine List.perm_singleton.mp ((List.perm_ext_iff_of_nodup hnodup (List.nodup_singleton o)).mpr fun o' => ?_)
  rw [List.mem_singleton]
  exact ⟨fun ho' => h.eq_of_liveAt ho' ho, fun he => he ▸ ho⟩

/-! ### The corrections of a run -/

/-- Marking a row with one correction. -/
theorem Correction.live_mark {c : Correction} {o : Observation} :
    (c.mark o).live = true ↔ o.live = true ∧ ¬ c.Names o := by
  rw [show c.mark o = markAll [c] o from rfl, live_markAll, List.forall_mem_singleton]

theorem Correction.names_mark {c c' : Correction} {o : Observation} : c'.Names (c.mark o) ↔ c'.Names o := by
  have hid : (c.mark o).id = o.id := markAll_id [c] o
  have hread : (c.mark o).toReading = o.toReading := markAll_toReading [c] o
  rw [Correction.Names, Correction.Names, hid, hread]

/-- The corrections that are left after the first one still find their rows exactly when none of
them is for the row that the first one superseded. -/
theorem exists_names_mark_iff {c : Correction} {cs : List Correction} {rows : List Observation}
    (hn : (rows.map Observation.id).Nodup) (hc : ∃ o ∈ rows, o.live = true ∧ c.Names o) :
    (∀ c' ∈ cs, ∃ o ∈ rows.map c.mark, o.live = true ∧ c'.Names o) ↔
      (∀ c' ∈ cs, ∃ o ∈ rows, o.live = true ∧ c'.Names o) ∧ c.oldID ∉ cs.map Correction.oldID := by
  simp only [List.mem_map, exists_exists_and_eq_and, Correction.live_mark, Correction.names_mark, not_exists, not_and]
  obtain ⟨o₀, ho₀, -, hname₀⟩ := hc
  constructor
  · refine fun h => ⟨fun c' hc' => ?_, fun c' hc' he => ?_⟩
    · obtain ⟨o, ho, ⟨hlive, -⟩, hname⟩ := h c' hc'
      exact ⟨o, ho, hlive, hname⟩
    · obtain ⟨o, ho, ⟨-, hnot⟩, hname⟩ := h c' hc'
      obtain rfl : o = o₀ := List.inj_on_of_nodup_map hn ho ho₀ (by rw [hname.1, hname₀.1, he])
      exact hnot hname₀
  · rintro ⟨h, hold⟩ c' hc'
    obtain ⟨o, ho, hlive, hname⟩ := h c' hc'
    exact ⟨o, ho, ⟨hlive, fun hnot => hold c' hc' (hname.1.symm.trans hnot.1)⟩, hname⟩

/-- The corrections all go through when each finds a live row and no two are for the same one. -/
theorem foldlM_supersede_iff {cs : List Correction} {rows rows' : List Observation}
    (hn : (rows.map Observation.id).Nodup) :
    cs.foldlM supersede rows = some rows' ↔
      rows' = rows.map (markAll cs) ∧ (∀ c ∈ cs, ∃ o ∈ rows, o.live = true ∧ c.Names o) ∧
        (cs.map Correction.oldID).Nodup := by
  induction cs generalizing rows with
  | nil =>
    have hmap : rows.map (markAll []) = rows := List.map_id rows
    rw [hmap, List.foldlM_nil]
    refine ⟨fun h => ⟨(Option.some.inj h).symm, fun c hc => absurd hc List.not_mem_nil, List.nodup_nil⟩, fun h => ?_⟩
    rw [h.1]
    rfl
  | cons c cs ih =>
    have hids : ((rows.map c.mark).map Observation.id).Nodup := by
      have hsame : (rows.map c.mark).map Observation.id = rows.map Observation.id := by
        rw [List.map_map]
        exact List.map_congr_left fun o _ => markAll_id [c] o
      rwa [hsame]
    have hmap : (rows.map c.mark).map (markAll cs) = rows.map (markAll (c :: cs)) := List.map_map
    by_cases hc : ∃ o ∈ rows, o.live = true ∧ c.Names o
    · have hstep : supersede rows c = some (rows.map c.mark) := by
        obtain ⟨o, ho, hlive, hname⟩ := hc
        rw [supersede, if_pos]
        exact List.any_eq_true.mpr ⟨o, ho, decide_eq_true ⟨hname.1, hname.2, hlive⟩⟩
      rw [List.foldlM_cons, hstep, Option.bind_eq_bind, Option.bind_some, ih hids, hmap, exists_names_mark_iff hn hc,
        List.map_cons, List.nodup_cons, List.forall_mem_cons]
      tauto
    · have hstep : supersede rows c = none := by
        rw [supersede, if_neg]
        intro hany
        obtain ⟨o, ho, hcond⟩ := List.any_eq_true.mp hany
        obtain ⟨h1, h2, h3⟩ := of_decide_eq_true hcond
        exact hc ⟨o, ho, h3, h1, h2⟩
      rw [List.foldlM_cons, hstep]
      constructor
      · intro h
        cases h
      · intro h
        exact absurd (h.2.1 c List.mem_cons_self) hc

/-! ### The decisions of a run -/

/-- The hour that a reading is stored under. -/
def Reading.storedAt (r : Reading) : ℤ := storedTime r.observedAt

/-- What a run is for: a source, a location and a closed window of hours. -/
structure LocationWindow where
  source : String
  locationID : ℕ
  start : ℤ
  stop : ℤ

/-- The index key of an hour. -/
def LocationWindow.key (w : LocationWindow) (hour : ℤ) : String × ℕ × ℤ := (w.source, w.locationID, hour)

theorem LocationWindow.key_inj (w : LocationWindow) {a b : ℤ} (h : w.key a = w.key b) : a = b :=
  congrArg (fun k => k.2.2) h

/-- The hour is in the window, as the query compares them. -/
def LocationWindow.Covers (w : LocationWindow) (hour : ℤ) : Prop :=
  storedTime w.start ≤ hour ∧ hour ≤ storedTime w.stop

instance (w : LocationWindow) (hour : ℤ) : Decidable (w.Covers hour) := inferInstanceAs (Decidable (_ ∧ _))

/-- The run looks for the row of the hour that the reading is stored under. -/
def LocationWindow.Sees (w : LocationWindow) (r : Reading) : Prop := w.Covers r.storedAt ∧ r.observedAt = r.storedAt

instance (w : LocationWindow) (r : Reading) : Decidable (w.Sees r) := inferInstanceAs (Decidable (_ ∧ _))

namespace ObservationStore

/-- The rows that a run reads. -/
def current (s : ObservationStore) (w : LocationWindow) : List Observation :=
  s.listCurrentByWindow w.source w.locationID w.start w.stop

/-- The fetched rows. -/
def fetched (s : ObservationStore) (w : LocationWindow) (readings : List Reading) : List Observation :=
  fetchedRows s.nextID w.locationID w.source readings

/-- The rows that the run decides to insert. -/
def toInsert (s : ObservationStore) (w : LocationWindow) (readings : List Reading) : List Observation :=
  (s.fetched w readings).filterMap (Decision.row? ∘ decision (s.current w))

/-- The corrections that the run decides to make. -/
def corrections (s : ObservationStore) (w : LocationWindow) (readings : List Reading) : List Correction :=
  (s.fetched w readings).filterMap (Decision.correction? ∘ decision (s.current w))

/-- The reading is for a new hour, or differs from the live row of its hour, as far as the run sees. -/
def Wanted (s : ObservationStore) (w : LocationWindow) (r : Reading) : Prop :=
  w.Covers r.observedAt → ∀ o ∈ s.liveAt (w.key r.observedAt), r.differsFrom o.toReading = true

instance (s : ObservationStore) (w : LocationWindow) (r : Reading) : Decidable (s.Wanted w r) :=
  inferInstanceAs (Decidable (_ → _))

/-- The row in the table that the run compares a reading of the hour with. -/
theorem lastOfHour_current (s : ObservationStore) (w : LocationWindow) (hour : ℤ) :
    lastOfHour (s.current w) hour = if w.Covers hour then (s.liveAt (w.key hour)).getLast? else none := by
  have hfilter : (s.current w).filter (fun e => e.observedAt = hour) =
      s.rows.filter fun o => w.Covers hour ∧ o.hourKey = w.key hour ∧ o.live = true := by
    rw [current, listCurrentByWindow, List.filter_filter]
    refine List.filter_congr fun o _ => ?_
    rw [← Bool.decide_and, decide_eq_decide]
    simp only [LocationWindow.key, Observation.hourKey, Prod.mk.injEq, LocationWindow.Covers]
    constructor
    · rintro ⟨rfl, h1, h2, h3, h4, h5⟩
      exact ⟨⟨h3, h4⟩, ⟨h1, h2, rfl⟩, h5⟩
    · rintro ⟨⟨h3, h4⟩, ⟨h1, h2, rfl⟩, h5⟩
      exact ⟨rfl, h1, h2, h3, h4, h5⟩
  rw [lastOfHour, hfilter]
  split_ifs with hin
  · simp only [hin, true_and]
    rfl
  · simp [hin]

variable {s : ObservationStore} {w : LocationWindow}

/-- The row to insert: a correction is flagged. -/
def landing (s : ObservationStore) (w : LocationWindow) (o : Observation) : Observation :=
  if w.Covers o.observedAt ∧ s.liveAt (w.key o.observedAt) ≠ [] then { o with qualityFlag := .corrected } else o

theorem Keyed.lastOfHour_eq (h : s.Keyed) {hour : ℤ} (hin : w.Covers hour) {prev : Observation}
    (hprev : prev ∈ s.liveAt (w.key hour)) : lastOfHour (s.current w) hour = some prev := by
  rw [lastOfHour_current, if_pos hin, h.liveAt_eq hprev]
  rfl

/-- A run decides by the live row of the hour, if that is in its window. -/
theorem Keyed.decision_cases (h : s.Keyed) (w : LocationWindow) (o : Observation) :
    (∃ prev ∈ s.liveAt (w.key o.observedAt), w.Covers o.observedAt ∧
        decision (s.current w) o =
          if o.differsFrom prev.toReading then .correct prev { o with qualityFlag := .corrected } else .drop) ∨
      (¬ (w.Covers o.observedAt ∧ s.liveAt (w.key o.observedAt) ≠ []) ∧ decision (s.current w) o = .insert o) := by
  by_cases hin : w.Covers o.observedAt ∧ s.liveAt (w.key o.observedAt) ≠ []
  · obtain ⟨prev, hprev⟩ := List.exists_mem_of_ne_nil _ hin.2
    refine .inl ⟨prev, hprev, hin.1, ?_⟩
    have hlast := h.lastOfHour_eq hin.1 hprev
    rcases Collection.decision_cases (s.current w) o with ⟨hnone, -⟩ | ⟨prev', hlast', ⟨hd, he⟩ | ⟨hd, he⟩⟩
    · rw [hlast] at hnone
      cases hnone
    · rw [hlast] at hlast'
      cases hlast'
      rw [he, if_pos hd]
    · rw [hlast] at hlast'
      cases hlast'
      rw [he, hd]
      rfl
  · refine .inr ⟨hin, ?_⟩
    have hlast : lastOfHour (s.current w) o.observedAt = none := by
      rw [lastOfHour_current]
      split_ifs with hcovers
      · rw [not_and, not_not] at hin
        rw [hin hcovers]
        rfl
      · rfl
    rcases Collection.decision_cases (s.current w) o with ⟨-, he⟩ | ⟨prev, hprev, -⟩
    · exact he
    · rw [hlast] at hprev
      cases hprev

/-- The rows to insert are those of the wanted readings. -/
theorem Keyed.row_decision (h : s.Keyed) (w : LocationWindow) (o : Observation) :
    (decision (s.current w) o).row? = if s.Wanted w o.toReading then some (s.landing w o) else none := by
  rcases h.decision_cases w o with ⟨prev, hprev, hin, he⟩ | ⟨hnot, he⟩
  · have hwanted : s.Wanted w o.toReading ↔ o.differsFrom prev.toReading = true := by
      refine ⟨fun hw => hw hin prev hprev, fun hd _ o' ho' => ?_⟩
      rwa [h.eq_of_liveAt ho' hprev]
    have hland : s.landing w o = { o with qualityFlag := .corrected } := if_pos ⟨hin, List.ne_nil_of_mem hprev⟩
    by_cases hd : o.differsFrom prev.toReading = true
    · rw [he, if_pos hd, if_pos (hwanted.mpr hd), hland]
      rfl
    · rw [he, if_neg hd, if_neg fun hw => hd (hwanted.mp hw)]
      rfl
  · have hwanted : s.Wanted w o.toReading := fun hin o' ho' => absurd ⟨hin, List.ne_nil_of_mem ho'⟩ hnot
    have hland : s.landing w o = o := if_neg hnot
    rw [he, if_pos hwanted, hland]
    rfl

theorem Keyed.toInsert_eq (h : s.Keyed) (w : LocationWindow) (readings : List Reading) :
    s.toInsert w readings =
      ((s.fetched w readings).filter fun o => s.Wanted w o.toReading).map (s.landing w) := by
  rw [toInsert]
  induction s.fetched w readings with
  | nil => rfl
  | cons o l ih =>
    rw [List.filterMap_cons, List.filter_cons, Function.comp_apply, h.row_decision w o]
    split_ifs <;> simp_all

/-- A run corrects the live row of an hour of its window when it differs. -/
theorem Keyed.correction_decision (h : s.Keyed) {o : Observation} {c : Correction} :
    (decision (s.current w) o).correction? = some c ↔ w.Covers o.observedAt ∧
      ∃ prev ∈ s.liveAt (w.key o.observedAt), o.differsFrom prev.toReading = true ∧
        c = ⟨prev.id, prev.observedAt, o.id⟩ := by
  rcases h.decision_cases w o with ⟨prev, hprev, hin, he⟩ | ⟨hnot, he⟩
  · rw [he]
    constructor
    · intro hc
      split_ifs at hc with hd
      · cases hc
        exact ⟨hin, prev, hprev, hd, rfl⟩
      · cases hc
    · rintro ⟨-, prev', hprev', hd, rfl⟩
      obtain rfl := h.eq_of_liveAt hprev' hprev
      rw [if_pos hd]
      rfl
  · rw [he]
    exact ⟨(fun hc => nomatch hc), fun hc => absurd ⟨hc.1, hc.2.elim fun prev hp => List.ne_nil_of_mem hp.1⟩ hnot⟩

theorem Keyed.mem_corrections (h : s.Keyed) {readings : List Reading} {c : Correction} :
    c ∈ s.corrections w readings ↔ ∃ o ∈ s.fetched w readings, w.Covers o.observedAt ∧
      ∃ prev ∈ s.liveAt (w.key o.observedAt), o.differsFrom prev.toReading = true ∧
        c = ⟨prev.id, prev.observedAt, o.id⟩ := by
  rw [corrections, List.mem_filterMap]
  exact exists_congr fun o => and_congr_right fun _ => h.correction_decision

/-- Every correction is of a live row of the table. -/
theorem Keyed.exists_names (h : s.Keyed) {readings : List Reading} {c : Correction}
    (hc : c ∈ s.corrections w readings) : ∃ o ∈ s.rows, o.live = true ∧ c.Names o := by
  obtain ⟨o, -, -, prev, hprev, -, rfl⟩ := h.mem_corrections.mp hc
  rw [mem_liveAt] at hprev
  exact ⟨prev, hprev.1, hprev.2.2, rfl, rfl⟩

/-- The table after the corrections and the inserts of a run. -/
def observed (s : ObservationStore) (w : LocationWindow) (readings : List Reading) : ObservationStore where
  rows := insertAll Observation.dedupKey (s.rows.map (markAll (s.corrections w readings)))
    ((s.toInsert w readings).map Observation.storedRow)
  nextID := s.nextID + readings.length

/-- **A run succeeds when no row is corrected twice and every row to insert is accepted**, and what it
leaves then. -/
theorem Keyed.observe_eq_ok_iff (h : s.Keyed) {readings : List Reading} {n : ℕ} {s' : ObservationStore} :
    observe true w.source w.locationID w.start w.stop (some readings) s = .ok (n, s') ↔
      ((s.corrections w readings).map Correction.oldID).Nodup ∧ (∀ o ∈ s.toInsert w readings, o.accepted = true) ∧
        s' = s.observed w readings ∧ n = s'.rows.length - s.rows.length := by
  have hc : ((s.fetched w readings).map (decision (s.current w))).filterMap Decision.correction? =
      s.corrections w readings := List.filterMap_map
  have hr : ((s.fetched w readings).map (decision (s.current w))).filterMap Decision.row? = s.toInsert w readings :=
    List.filterMap_map
  rw [fetched, current] at hc hr
  constructor
  · intro hobs
    obtain ⟨-, readings', -, rows, he, rfl, hsup, hacc, hs', hn⟩ := observe_eq_ok.mp hobs
    cases he
    rw [hc, foldlM_supersede_iff h.nodup] at hsup
    obtain ⟨rfl, -, hnodup⟩ := hsup
    rw [hr] at hacc hs'
    rw [List.length_map] at hn
    exact ⟨hnodup, hacc, hs', hn⟩
  · rintro ⟨hnodup, hacc, hs', hn⟩
    refine observe_eq_ok.mpr ⟨rfl, readings, _, _, rfl, rfl, ?_, by rwa [hr], by rwa [hr], by rwa [List.length_map]⟩
    rw [hc]
    exact (foldlM_supersede_iff h.nodup).mpr ⟨rfl, fun c hc => h.exists_names hc, hnodup⟩

/-! ### The table after a run -/

theorem map_toReading_fetched (s : ObservationStore) (w : LocationWindow) (readings : List Reading) :
    (s.fetched w readings).map Observation.toReading = readings := by
  rw [fetched, fetchedRows, List.map_map]
  exact List.zipIdx_map_fst ..

theorem mem_fetched_iff {readings : List Reading} {r : Reading} :
    r ∈ readings ↔ ∃ f ∈ s.fetched w readings, f.toReading = r := by
  rw [← List.mem_map, map_toReading_fetched]

theorem indexKey_of_fetched {readings : List Reading} {f : Observation} (hf : f ∈ s.fetched w readings) :
    f.indexKey = w.key f.storedAt ∧ f.live = true := by
  obtain ⟨-, hs, hl, hn⟩ := mem_fetchedRows hf
  rw [Observation.indexKey, hs, hl, Observation.live, hn]
  exact ⟨rfl, rfl⟩

theorem landing_cases (s : ObservationStore) (w : LocationWindow) (o : Observation) :
    ∃ flag, s.landing w o = { o with qualityFlag := flag } := by
  rw [landing]
  split_ifs
  · exact ⟨_, rfl⟩
  · exact ⟨o.qualityFlag, rfl⟩

/-- The row that a fetched one becomes. -/
theorem landed (s : ObservationStore) (w : LocationWindow) (o : Observation) :
    (s.landing w o).storedRow.id = o.id ∧ (s.landing w o).storedRow.hourKey = o.indexKey ∧
      (s.landing w o).storedRow.live = o.live := by
  obtain ⟨flag, he⟩ := s.landing_cases w o
  rw [he]
  exact ⟨rfl, rfl, rfl⟩

theorem markAll_of_live {marks : List Correction} {o : Observation} (h : (markAll marks o).live = true) :
    markAll marks o = o := by
  rcases markAll_cases marks o with ⟨he, -⟩ | ⟨-, c, -, -, he⟩
  · exact he
  · rw [he] at h
    cases h

/-- Corrections only take keys out of the index. -/
theorem sublist_keys_markAll (marks : List Correction) (rows : List Observation) :
    (keys Observation.dedupKey (rows.map (markAll marks))).Sublist (keys Observation.dedupKey rows) := by
  induction rows with
  | nil => exact List.Sublist.refl _
  | cons o rows ih =>
    rw [List.map_cons, keys, keys, List.filterMap_cons, List.filterMap_cons]
    by_cases hlive : (markAll marks o).live = true
    · rw [markAll_of_live hlive]
      rw [markAll_of_live hlive] at hlive
      rw [Observation.dedupKey_of_live hlive]
      exact ih.cons_cons _
    · rw [Observation.dedupKey, if_neg hlive]
      cases o.dedupKey with
      | none => exact ih
      | some k => exact ih.cons k

theorem Keyed.observed (h : s.Keyed) (w : LocationWindow) (readings : List Reading) :
    (s.observed w readings).Keyed := by
  obtain ⟨added, hrows, hsub⟩ := insertAll_eq_append Observation.dedupKey
    (s.rows.map (markAll (s.corrections w readings))) ((s.toInsert w readings).map Observation.storedRow)
  have hids : (added.map Observation.id).Sublist (List.range' s.nextID readings.length) := by
    have hfetched : (s.fetched w readings).map Observation.id = List.range' s.nextID readings.length :=
      map_id_fetchedRows ..
    rw [← hfetched]
    refine (hsub.map _).trans ?_
    rw [h.toInsert_eq, List.map_map, List.map_map]
    have hid : (Observation.id ∘ Observation.storedRow) ∘ s.landing w = Observation.id :=
      funext fun o => (s.landed w o).1
    rw [hid]
    exact List.filter_sublist.map _
  have hold : (s.rows.map (markAll (s.corrections w readings))).map Observation.id = s.rows.map Observation.id := by
    rw [List.map_map]
    exact List.map_congr_left fun o _ => markAll_id _ o
  have hmap : (s.observed w readings).rows.map Observation.id =
      s.rows.map Observation.id ++ added.map Observation.id := by
    rw [ObservationStore.observed, hrows, List.map_append, hold]
  have hnew : ∀ i ∈ added.map Observation.id, s.nextID ≤ i ∧ i < s.nextID + readings.length := fun i hi =>
    List.mem_range'_1.mp (hids.subset hi)
  refine ⟨fun o ho => ?_, ?_, ?_, fun o ho => ?_⟩
  · have hid : o.id ∈ (s.observed w readings).rows.map Observation.id := List.mem_map_of_mem ho
    rw [hmap] at hid
    rcases List.mem_append.mp hid with hid | hid
    · obtain ⟨o', ho', he⟩ := List.mem_map.mp hid
      rw [← he]
      exact Nat.lt_of_lt_of_le (h.id_lt o' ho') (Nat.le_add_right _ _)
    · exact (hnew _ hid).2
  · rw [hmap, List.nodup_append]
    refine ⟨h.nodup, hids.nodup (List.nodup_range' ..), fun a ha b hb hab => ?_⟩
    obtain ⟨o, ho, rfl⟩ := List.mem_map.mp ha
    have hlt := h.id_lt o ho
    have hge := (hnew b hb).1
    omega
  · exact nodup_keys_insertAll ((sublist_keys_markAll _ _).nodup h.index) _
  · rcases mem_of_mem_insertAll ho with ho | ho
    · obtain ⟨p, hp, rfl⟩ := List.mem_map.mp ho
      rw [markAll_toReading]
      exact h.instants p hp
    · obtain ⟨p, -, rfl⟩ := List.mem_map.mp ho
      exact storedTime_storedTime _

/-- A live row after a run was there before and was not corrected, or is of a wanted reading. -/
theorem Keyed.mem_liveAt_observed (h : s.Keyed) {readings : List Reading} {key : String × ℕ × ℤ} {o : Observation}
    (ho : o ∈ (s.observed w readings).liveAt key) :
    (o ∈ s.liveAt key ∧ ∀ c ∈ s.corrections w readings, ¬ c.Names o) ∨
      ∃ f ∈ s.fetched w readings, s.Wanted w f.toReading ∧ w.key f.storedAt = key ∧
        o = (s.landing w f).storedRow := by
  rw [mem_liveAt] at ho
  rcases mem_of_mem_insertAll ho.1 with hmem | hmem
  · obtain ⟨o', ho', rfl⟩ := List.mem_map.mp hmem
    have hnot := (live_markAll.mp ho.2.2).2
    have hsame := markAll_of_live ho.2.2
    rw [hsame] at ho ⊢
    exact .inl ⟨mem_liveAt.mpr ⟨ho', ho.2.1, ho.2.2⟩, hnot⟩
  · rw [h.toInsert_eq, List.map_map] at hmem
    obtain ⟨f, hf, rfl⟩ := List.mem_map.mp hmem
    rw [List.mem_filter, decide_eq_true_eq] at hf
    refine .inr ⟨f, hf.1, hf.2, ?_, rfl⟩
    rw [← ho.2.1, ← (indexKey_of_fetched hf.1).1]
    exact (s.landed w f).2.1.symm

/-- A live row that is not corrected stays. -/
theorem mem_liveAt_observed_of_not_names {readings : List Reading} {key : String × ℕ × ℤ} {o : Observation}
    (ho : o ∈ s.liveAt key) (hnot : ∀ c ∈ s.corrections w readings, ¬ c.Names o) :
    o ∈ (s.observed w readings).liveAt key := by
  rw [mem_liveAt] at ho ⊢
  refine ⟨mem_insertAll_of_mem (List.mem_map.mpr ⟨o, ho.1, ?_⟩), ho.2⟩
  exact markAll_of_live (live_markAll.mpr ⟨ho.2.2, hnot⟩)

/-- A wanted reading leaves a live row of its hour, though that need not be its own. -/
theorem Keyed.exists_liveAt_of_wanted (h : s.Keyed) {readings : List Reading} {f : Observation}
    (hf : f ∈ s.fetched w readings) (hw : s.Wanted w f.toReading) :
    ∃ o, o ∈ (s.observed w readings).liveAt (w.key f.storedAt) := by
  obtain ⟨hkey, hlive⟩ := indexKey_of_fetched hf
  obtain ⟨-, hk, hl⟩ := s.landed w f
  have hmem : (s.landing w f).storedRow ∈ (s.toInsert w readings).map Observation.storedRow := by
    rw [h.toInsert_eq, List.map_map]
    exact List.mem_map_of_mem (List.mem_filter.mpr ⟨hf, decide_eq_true hw⟩)
  have hin : w.key f.storedAt ∈ keys Observation.dedupKey (s.observed w readings).rows :=
    mem_keys_insertAll.mpr (.inr (mem_keys_dedupKey.mpr ⟨_, hmem, hk.trans hkey, hl.trans hlive⟩))
  obtain ⟨o, ho⟩ := mem_keys_dedupKey.mp hin
  exact ⟨o, mem_liveAt.mpr ho⟩

/-- A live row is of an hour of the column's precision. -/
theorem Keyed.storedTime_of_liveAt (h : s.Keyed) {hour : ℤ} {o : Observation} (ho : o ∈ s.liveAt (w.key hour)) :
    o.observedAt = hour ∧ storedTime hour = hour := by
  obtain ⟨hmem, hkey, -⟩ := mem_liveAt.mp ho
  have hat : o.observedAt = hour := congrArg (fun k => k.2.2) hkey
  exact ⟨hat, hat ▸ h.instants o hmem⟩

/-- A correction is of the row of an hour that the run sees a reading of. -/
theorem Keyed.sees_of_names (h : s.Keyed) {readings : List Reading} {hour : ℤ} {o : Observation}
    (ho : o ∈ s.liveAt (w.key hour)) {c : Correction} (hc : c ∈ s.corrections w readings) (hname : c.Names o) :
    ∃ r ∈ readings, r.storedAt = hour ∧ w.Sees r := by
  obtain ⟨f, hf, hin, prev, hprev, -, rfl⟩ := h.mem_corrections.mp hc
  obtain ⟨hat, hexact⟩ := h.storedTime_of_liveAt hprev
  obtain rfl : o = prev :=
    List.inj_on_of_nodup_map h.nodup (mem_liveAt.mp ho).1 (mem_liveAt.mp hprev).1 hname.1
  have hstored : f.storedAt = f.observedAt := hexact
  refine ⟨f.toReading, mem_fetched_iff.mpr ⟨f, hf, rfl⟩, ?_, by rwa [hstored], hstored.symm⟩
  rw [hstored, ← hat]
  exact (h.storedTime_of_liveAt ho).1

/-- A live row of an hour that the run sees no reading of stays. -/
theorem Keyed.mem_liveAt_observed_of_unseen (h : s.Keyed) {readings : List Reading} {hour : ℤ}
    (hunseen : ∀ r ∈ readings, r.storedAt = hour → ¬ w.Sees r) {o : Observation} (ho : o ∈ s.liveAt (w.key hour)) :
    o ∈ (s.observed w readings).liveAt (w.key hour) := by
  refine mem_liveAt_observed_of_not_names ho fun c hc hname => ?_
  obtain ⟨r, hr, he, hsees⟩ := h.sees_of_names ho hc hname
  exact hunseen r hr he hsees

end ObservationStore

/-! ### The tolerances -/

/-- Two values that differ by less than the tolerance, with room for the errors of rounding to doubles. -/
theorem floatDiffers_eq_false {a b eps : ℚ} (ha : |a| ≤ 2 ^ 17) (hb : |b| ≤ 2 ^ 17) (heps : eps ≤ 1)
    (h : |a - b| + 1 / 10 ^ 9 ≤ eps) : floatDiffers (some a) (some b) eps = false := by
  have h1 := abs_le.mp (abs_round64_sub_le ha)
  have h2 := abs_le.mp (abs_round64_sub_le hb)
  have h3 := abs_le.mp (le_refl |a - b|)
  have hsmall : |round64 a - round64 b| ≤ 2 ^ 0 := by
    rw [abs_le]
    constructor <;> linarith
  have h4 := abs_le.mp (abs_round64_sub_le hsmall)
  have hpos := abs_nonneg (a - b)
  have h5 : |round64 eps - eps| ≤ 2 ^ 0 / 2 ^ 53 := abs_round64_sub_le (abs_le.mpr ⟨by linarith, by linarith⟩)
  rw [abs_le] at h5
  simp only [floatDiffers, decide_eq_false_iff_not, not_lt]
  split_ifs <;> linarith

/-- Rounding to the scale of a column stays within its tolerance. -/
theorem floatDiffers_roundScale {scale digits : ℕ} {eps : ℚ} (hdigits : digits ≤ 5) (heps : eps ≤ 1)
    (h : 1 / 2 / 10 ^ scale + 1 / 10 ^ 9 ≤ eps) {v : Option ℚ}
    (hfits : ∀ y ∈ v.map (roundScale scale), fitsDigits digits y = true) :
    floatDiffers v (v.map (roundScale scale)) eps = false := by
  cases v with
  | none => rfl
  | some x =>
    have hround := abs_roundScale_sub_le scale x
    have hpow : (10 : ℚ) ^ digits ≤ 10 ^ 5 := pow_le_pow_right₀ (by norm_num) hdigits
    have hbound := hfits _ rfl
    rw [fitsDigits, Bool.and_eq_true, decide_eq_true_eq, decide_eq_true_eq] at hbound
    have hy : |roundScale scale x| ≤ 10 ^ 5 := abs_le.mpr ⟨by linarith, by linarith⟩
    have hx : |x| ≤ |roundScale scale x| + |roundScale scale x - x| := by
      rw [abs_sub_comm, add_comm]
      simpa using abs_add_le (x - roundScale scale x) (roundScale scale x)
    refine floatDiffers_eq_false ?_ ?_ heps ?_
    · linarith
    · linarith
    · rw [abs_sub_comm]
      linarith

/-- A reading that the columns accept agrees with the row it is stored as. -/
theorem Reading.differsFrom_stored {r : Reading} (h : r.accepted = true) (flag : QualityFlag) :
    r.differsFrom { r.stored with qualityFlag := flag } = false := by
  simp only [accepted, Bool.and_eq_true, Option.all_eq_true] at h
  obtain ⟨⟨⟨⟨⟨h1, h2⟩, h3⟩, h4⟩, h5⟩, h6⟩ := h
  simp only [differsFrom, stored, Bool.or_eq_false_iff]
  refine ⟨⟨⟨⟨⟨floatDiffers_roundScale (by decide) (by norm_num) (by norm_num) h1,
    floatDiffers_roundScale (by decide) (by norm_num) (by norm_num) fun y hy => (h6 y hy).1⟩,
    floatDiffers_roundScale (by decide) (by norm_num) (by norm_num) fun y hy => (h2 y hy).1.1⟩,
    floatDiffers_roundScale (by decide) (by norm_num) (by norm_num) fun y hy => (h3 y hy).1⟩,
    floatDiffers_roundScale (by decide) (by norm_num) (by norm_num) fun y hy => (h4 y hy).1.1⟩,
    floatDiffers_roundScale (by decide) (by norm_num) (by norm_num) h5⟩

namespace ObservationStore

variable {s : ObservationStore} {w : LocationWindow} {readings : List Reading}

theorem accepted_landing (s : ObservationStore) (w : LocationWindow) (f : Observation) :
    (s.landing w f).accepted = f.accepted := by
  obtain ⟨flag, he⟩ := s.landing_cases w f
  rw [he]
  rfl

theorem Keyed.mem_toInsert (h : s.Keyed) {o : Observation} :
    o ∈ s.toInsert w readings ↔ ∃ f ∈ s.fetched w readings, s.Wanted w f.toReading ∧ s.landing w f = o := by
  rw [h.toInsert_eq, List.mem_map]
  simp only [List.mem_filter, decide_eq_true_eq, and_assoc]

theorem Keyed.accepted_toInsert_iff (h : s.Keyed) :
    (∀ o ∈ s.toInsert w readings, o.accepted = true) ↔ ∀ r ∈ readings, s.Wanted w r → r.accepted = true := by
  constructor
  · intro hall r hr hw
    obtain ⟨f, hf, rfl⟩ := mem_fetched_iff.mp hr
    rw [← s.accepted_landing w f]
    exact hall _ (h.mem_toInsert.mpr ⟨f, hf, hw, rfl⟩)
  · intro hall o ho
    obtain ⟨f, hf, hw, rfl⟩ := h.mem_toInsert.mp ho
    rw [s.accepted_landing w f]
    exact hall _ (mem_fetched_iff.mpr ⟨f, hf, rfl⟩) hw

theorem differsFrom_landed (s : ObservationStore) (w : LocationWindow) {f : Observation} (h : f.accepted = true) :
    f.differsFrom (s.landing w f).storedRow.toReading = false := by
  obtain ⟨flag, he⟩ := s.landing_cases w f
  rw [he]
  exact Reading.differsFrom_stored h flag

/-- Some reading of the hour agrees with the row. -/
def Confirmed (readings : List Reading) (hour : ℤ) (o : Observation) : Prop :=
  ∃ r ∈ readings, r.storedAt = hour ∧ r.differsFrom o.toReading = false

instance (readings : List Reading) (hour : ℤ) (o : Observation) : Decidable (Confirmed readings hour o) :=
  inferInstanceAs (Decidable (∃ r ∈ readings, _))

/-- After a run every hour that was fetched has a live row. -/
theorem Keyed.exists_liveAt_observed (h : s.Keyed) {r : Reading} (hr : r ∈ readings) :
    ∃ o, o ∈ (s.observed w readings).liveAt (w.key r.storedAt) := by
  obtain ⟨f, hf, rfl⟩ := mem_fetched_iff.mp hr
  by_cases hw : s.Wanted w f.toReading
  · exact h.exists_liveAt_of_wanted hf hw
  · simp only [Wanted, not_forall] at hw
    obtain ⟨-, prev, hprev, -⟩ := hw
    obtain ⟨hat, hexact⟩ := h.storedTime_of_liveAt hprev
    have hstored : f.storedAt = f.observedAt := hexact
    rw [hstored]
    by_cases hnot : ∀ c ∈ s.corrections w readings, ¬ c.Names prev
    · exact ⟨prev, mem_liveAt_observed_of_not_names hprev hnot⟩
    · -- another reading of the hour corrected the row
      simp only [not_forall, not_not] at hnot
      obtain ⟨c, hc, hname⟩ := hnot
      obtain ⟨g, hg, -, prev', hprev', hd, rfl⟩ := h.mem_corrections.mp hc
      obtain rfl : prev = prev' := List.inj_on_of_nodup_map h.nodup (mem_liveAt.mp hprev).1 (mem_liveAt.mp hprev').1
        hname.1
      have hhour : g.storedAt = f.observedAt := (h.storedTime_of_liveAt hprev').2.trans
        ((h.storedTime_of_liveAt hprev').1.symm.trans hat)
      rw [← hhour]
      exact h.exists_liveAt_of_wanted hg fun _ o ho => by rwa [h.eq_of_liveAt ho hprev']

/-- A live row of a fetched hour agrees with a reading of it, unless the run saw no reading of the hour. -/
theorem Keyed.confirmed_of_liveAt (h : s.Keyed) (hacc : ∀ o ∈ s.toInsert w readings, o.accepted = true) {hour : ℤ}
    {o : Observation} (ho : o ∈ (s.observed w readings).liveAt (w.key hour)) :
    Confirmed readings hour o ∨ (∀ r ∈ readings, r.storedAt = hour → ¬ w.Sees r) ∧ o ∈ s.liveAt (w.key hour) := by
  rcases h.mem_liveAt_observed ho with ⟨hold, hnot⟩ | ⟨f, hf, hw, hkey, rfl⟩
  · by_cases hseen : ∃ r ∈ readings, r.storedAt = hour ∧ w.Sees r
    · obtain ⟨r, hr, rfl, hin, hexact⟩ := hseen
      refine .inl ⟨r, hr, rfl, ?_⟩
      by_contra hd
      obtain ⟨f, hf, rfl⟩ := mem_fetched_iff.mp hr
      rw [← hexact] at hin hold
      exact hnot _ (h.mem_corrections.mpr ⟨f, hf, hin, o, hold, Bool.of_not_eq_false hd, rfl⟩) ⟨rfl, rfl⟩
    · exact .inr ⟨fun r hr he hsees => hseen ⟨r, hr, he, hsees⟩, hold⟩
  · have hr := mem_fetched_iff.mpr ⟨f, hf, rfl⟩
    exact .inl ⟨f.toReading, hr, w.key_inj hkey,
      s.differsFrom_landed w (h.accepted_toInsert_iff.mp hacc _ hr hw)⟩

end ObservationStore

open ObservationStore

/-- An answer with the temperature and the humidity of some hours. -/
def answerOf (rows : List (ℤ × ℚ × ℚ)) (_ : List UInt8) : Except String Historical.HistoricalResponse :=
  .ok ⟨some ⟨rows.map fun r => OpenMeteo.timestamp r.1, rows.map fun r => some r.2.1, rows.map fun r => some r.2.2,
    [], [], [], [], []⟩⟩

/-- What the adapter makes of it. -/
def fetchOf (windowEnd : ℤ) (rows : List (ℤ × ℚ × ℚ)) : Historical.ObservationResult :=
  Historical.fetchObservations .reanalysis (answerOf rows) windowEnd (.ok [])

/-- The valid reading of an hour with these values. -/
def hourOf (observedAt : ℤ) (temperatureC humidityPct : ℚ) : Reading :=
  ⟨.reanalysis, observedAt, some temperatureC, some humidityPct, none, none, none, none, none, .valid⟩

/-- **After a run without an error, each fetched hour has exactly one live row and a fetched row that
agrees with it, exactly when each fetched hour that the run saw no reading of, and that had a live
row, was fetched with values that agree with it.** -/
theorem observe_one_live_row_iff {active : Bool} {w : LocationWindow} {readings : List Reading}
    {s s' : ObservationStore} {n : ℕ} (hs : s.Keyed)
    (h : observe active w.source w.locationID w.start w.stop (some readings) s = .ok (n, s')) :
    (∀ r ∈ readings, ∃ o, s'.liveAt (w.key r.storedAt) = [o] ∧ Confirmed readings r.storedAt o) ↔
      ∀ r ∈ readings, (∀ r' ∈ readings, r'.storedAt = r.storedAt → ¬ w.Sees r') →
        ∀ o ∈ s.liveAt (w.key r.storedAt), Confirmed readings r.storedAt o := by
  obtain ⟨rfl, -⟩ := observe_eq_ok.mp h
  obtain ⟨-, hacc, rfl, -⟩ := hs.observe_eq_ok_iff.mp h
  constructor
  · intro hall r hr hunseen o ho
    obtain ⟨o', he, hconf⟩ := hall r hr
    have hmem := hs.mem_liveAt_observed_of_unseen hunseen ho
    rw [he, List.mem_singleton] at hmem
    rwa [hmem]
  · intro hout r hr
    obtain ⟨o, ho⟩ := hs.exists_liveAt_observed (w := w) hr
    refine ⟨o, (hs.observed w readings).liveAt_eq ho, ?_⟩
    rcases hs.confirmed_of_liveAt hacc ho with hconf | ⟨hunseen, hold⟩
    · exact hconf
    · exact hout r hr hunseen o hold

/-- Two hours are stored, and each is its own live row. -/
theorem twoHours_live :
    ∃ s', observe true Historical.source 1 0 hour (some [hourOf 0 20 50, hourOf hour 21 50]) .empty = .ok (2, s') ∧
      ∀ r ∈ [hourOf 0 20 50, hourOf hour 21 50], ∃ o, s'.liveAt (Historical.source, 1, r.storedAt) = [o] ∧
        Confirmed [hourOf 0 20 50, hourOf hour 21 50] r.storedAt o := by
  have hrun : observe true Historical.source 1 0 hour (some [hourOf 0 20 50, hourOf hour 21 50]) .empty =
      .ok (2, ⟨[⟨hourOf 0 20 50, 0, 1, Historical.source, none⟩,
        ⟨hourOf hour 21 50, 1, 1, Historical.source, none⟩], 2⟩) := by
    decide +kernel
  exact ⟨_, hrun, (observe_one_live_row_iff (w := ⟨Historical.source, 1, 0, hour⟩) Keyed.empty hrun).mpr
    (by decide +kernel)⟩

/-- An hour before the window was stored with 20 degrees. The source returns it again with 25: the run
takes it for a new hour, drops it on conflict, and the row stays. -/
theorem earlierHour_kept :
    observe true Historical.source 1 0 0 (fetchOf 0 [(0, 20, 50)]).fetched .empty =
        .ok (1, ⟨[⟨hourOf 0 20 50, 0, 1, Historical.source, none⟩], 1⟩) ∧
      (fetchOf (2 * hour) [(0, 25, 50), (hour, 21, 50)]).fetched = some [hourOf 0 25 50, hourOf hour 21 50] ∧
      ∃ s', observe true Historical.source 1 hour (2 * hour) (fetchOf (2 * hour) [(0, 25, 50), (hour, 21, 50)]).fetched
          ⟨[⟨hourOf 0 20 50, 0, 1, Historical.source, none⟩], 1⟩ = .ok (1, s') ∧
        s'.liveAt (Historical.source, 1, 0) = [⟨hourOf 0 20 50, 0, 1, Historical.source, none⟩] ∧
        ¬ Confirmed [hourOf 0 25 50, hourOf hour 21 50] 0 ⟨hourOf 0 20 50, 0, 1, Historical.source, none⟩ := by
  refine ⟨by decide +kernel, by decide +kernel,
    ⟨[⟨hourOf 0 20 50, 0, 1, Historical.source, none⟩, ⟨hourOf hour 21 50, 2, 1, Historical.source, none⟩], 3⟩,
    by decide +kernel, by decide +kernel, by decide +kernel⟩

/-! ### Storing what was decided -/

namespace ObservationStore

variable {s : ObservationStore} {w : LocationWindow} {readings : List Reading}

/-- The hours of the rows to insert. -/
theorem map_storedAt_wanted (s : ObservationStore) (w : LocationWindow) (readings : List Reading) :
    ((s.fetched w readings).filter fun f => s.Wanted w f.toReading).map (fun f => f.storedAt) =
      (readings.filter fun r => s.Wanted w r).map Reading.storedAt := by
  nth_rewrite 2 [← s.map_toReading_fetched w readings]
  rw [List.filter_map, List.map_map]
  rfl

theorem nodup_fetched (s : ObservationStore) (w : LocationWindow) (readings : List Reading) :
    ((s.fetched w readings).map Observation.id).Nodup := by
  rw [fetched, show (fetchedRows s.nextID w.locationID w.source readings).map Observation.id = _ from
    map_id_fetchedRows ..]
  exact List.nodup_range' ..

/-- No row is corrected twice when the readings to insert are of different hours. -/
theorem Keyed.nodup_corrections (h : s.Keyed)
    (hhours : ((readings.filter fun r => s.Wanted w r).map Reading.storedAt).Nodup) :
    ((s.corrections w readings).map Correction.oldID).Nodup := by
  rw [← map_storedAt_wanted, List.Nodup, List.pairwise_map, List.pairwise_filter] at hhours
  rw [corrections, List.Nodup, List.pairwise_map, List.pairwise_filterMap]
  refine hhours.imp fun {f g} hne c hc c' hc' he => ?_
  obtain ⟨-, prev, hprev, hd, rfl⟩ := h.correction_decision.mp hc
  obtain ⟨-, prev', hprev', hd', rfl⟩ := h.correction_decision.mp hc'
  have hwf : s.Wanted w f.toReading := fun _ o ho => by rwa [h.eq_of_liveAt ho hprev]
  have hwg : s.Wanted w g.toReading := fun _ o ho => by rwa [h.eq_of_liveAt ho hprev']
  refine hne (decide_eq_true hwf) (decide_eq_true hwg) ?_
  rw [mem_liveAt] at hprev hprev'
  obtain rfl : prev = prev' := List.inj_on_of_nodup_map h.nodup hprev.1 hprev'.1 he
  exact congrArg storedTime (w.key_inj (hprev.2.1.symm.trans hprev'.2.1))

theorem landed_mem_liveAt {f : Observation} (hf : f ∈ s.fetched w readings)
    (hmem : (s.landing w f).storedRow ∈ (s.observed w readings).rows) :
    (s.landing w f).storedRow ∈ (s.observed w readings).liveAt (w.key f.storedAt) := by
  obtain ⟨-, hk, hl⟩ := s.landed w f
  obtain ⟨hkey, hlive⟩ := indexKey_of_fetched hf
  exact mem_liveAt.mpr ⟨hmem, hk.trans hkey, hl.trans hlive⟩

/-- Rows that are all stored are of different hours. -/
theorem Keyed.nodup_of_stored (h : s.Keyed)
    (hall : ∀ o ∈ s.toInsert w readings, o.storedRow ∈ (s.observed w readings).rows) :
    ((readings.filter fun r => s.Wanted w r).map Reading.storedAt).Nodup := by
  rw [← map_storedAt_wanted]
  have hids := s.nodup_fetched w readings
  refine List.Nodup.map_on (fun f hf g hg he => ?_) ((List.Nodup.of_map _ hids).filter _)
  rw [List.mem_filter, decide_eq_true_eq] at hf hg
  have hf' := landed_mem_liveAt hf.1 (hall _ (h.mem_toInsert.mpr ⟨f, hf.1, hf.2, rfl⟩))
  have hg' := landed_mem_liveAt hg.1 (hall _ (h.mem_toInsert.mpr ⟨g, hg.1, hg.2, rfl⟩))
  rw [he] at hf'
  have hsame := congrArg Observation.id ((h.observed w readings).eq_of_liveAt hf' hg')
  rw [(s.landed w f).1, (s.landed w g).1] at hsame
  exact List.inj_on_of_nodup_map hids hf.1 hg.1 hsame

/-- When the wanted readings are of different hours, the live row of the hour of one that the run does
not see stays. -/
theorem Keyed.unseen_of_wanted (h : s.Keyed)
    (hhours : ((readings.filter fun r => s.Wanted w r).map Reading.storedAt).Nodup) {r : Reading} (hr : r ∈ readings)
    (hw : s.Wanted w r) (hout : ¬ w.Sees r) {o : Observation} (ho : o ∈ s.liveAt (w.key r.storedAt)) :
    o ∈ (s.observed w readings).liveAt (w.key r.storedAt) := by
  refine mem_liveAt_observed_of_not_names ho fun c hc hname => ?_
  obtain ⟨f, hf, hin, prev, hprev, hd, rfl⟩ := h.mem_corrections.mp hc
  obtain rfl : o = prev := List.inj_on_of_nodup_map h.nodup (mem_liveAt.mp ho).1 (mem_liveAt.mp hprev).1 hname.1
  obtain ⟨hat, hexact⟩ := h.storedTime_of_liveAt hprev
  have hstored : f.storedAt = f.observedAt := hexact
  -- the reading that corrects the row is of the same hour, so it would be the same reading
  have hwf : s.Wanted w f.toReading := fun _ o' ho' => by rwa [h.eq_of_liveAt ho' hprev]
  have hmem : ∀ {x}, x ∈ readings → s.Wanted w x → x ∈ readings.filter fun r => s.Wanted w r := fun hx hwx =>
    List.mem_filter.mpr ⟨hx, decide_eq_true hwx⟩
  have hsame : f.toReading = r := by
    refine List.inj_on_of_nodup_map hhours (hmem (mem_fetched_iff.mpr ⟨f, hf, rfl⟩) hwf) (hmem hr hw) ?_
    rw [hstored, ← hat]
    exact (h.storedTime_of_liveAt ho).1
  rw [← hsame] at hout
  exact hout ⟨by rwa [hstored], hstored.symm⟩

/-- A reading that is stored though the run does not see it is of an hour without a live row. -/
theorem Keyed.liveAt_eq_nil_of_stored (h : s.Keyed)
    (hhours : ((readings.filter fun r => s.Wanted w r).map Reading.storedAt).Nodup) {f : Observation}
    (hf : f ∈ s.fetched w readings) (hw : s.Wanted w f.toReading) (hout : ¬ w.Sees f.toReading)
    (hmem : (s.landing w f).storedRow ∈ (s.observed w readings).rows) : s.liveAt (w.key f.storedAt) = [] := by
  rw [List.eq_nil_iff_forall_not_mem]
  intro o ho
  have hstays := h.unseen_of_wanted hhours (mem_fetched_iff.mpr ⟨f, hf, rfl⟩) hw hout ho
  have hsame := congrArg Observation.id ((h.observed w readings).eq_of_liveAt hstays (landed_mem_liveAt hf hmem))
  rw [(s.landed w f).1] at hsame
  have hlt := h.id_lt o (mem_liveAt.mp ho).1
  have hge := (mem_fetchedRows hf).1.1
  omega

/-- The keys of the rows to insert. -/
theorem Keyed.keys_toInsert (h : s.Keyed) :
    keys Observation.dedupKey ((s.toInsert w readings).map Observation.storedRow) =
      ((readings.filter fun r => s.Wanted w r).map Reading.storedAt).map w.key := by
  rw [← map_storedAt_wanted, h.toInsert_eq, keys, List.map_map, List.map_map, List.filterMap_map]
  rw [← List.filterMap_eq_map]
  refine List.filterMap_congr fun f hf => ?_
  obtain ⟨hkey, hlive⟩ := indexKey_of_fetched (List.mem_filter.mp hf).1
  obtain ⟨-, hk, hl⟩ := s.landed w f
  simp only [Function.comp_apply]
  rw [Observation.dedupKey_of_live (hl.trans hlive), hk, hkey]

/-- After the corrections no live row is in the way of a wanted reading that the run sees. -/
theorem Keyed.not_mem_keys_of_wanted (h : s.Keyed) {r : Reading} (hr : r ∈ readings) (hw : s.Wanted w r)
    (hout : ¬ w.Sees r → s.liveAt (w.key r.storedAt) = []) :
    w.key r.storedAt ∉ keys Observation.dedupKey (s.rows.map (markAll (s.corrections w readings))) := by
  intro hkey
  obtain ⟨_, hmem, hk, hlive⟩ := mem_keys_dedupKey.mp hkey
  obtain ⟨o, ho, rfl⟩ := List.mem_map.mp hmem
  have hnot := (live_markAll.mp hlive).2
  rw [markAll_of_live hlive] at hk
  have holive : o ∈ s.liveAt (w.key r.storedAt) := mem_liveAt.mpr ⟨ho, hk, (live_markAll.mp hlive).1⟩
  by_cases hsees : w.Sees r
  · obtain ⟨hin, hexact⟩ := hsees
    obtain ⟨f, hf, rfl⟩ := mem_fetched_iff.mp hr
    rw [← hexact] at hin holive
    exact hnot _ (h.mem_corrections.mpr ⟨f, hf, hin, o, holive, hw hin o holive, rfl⟩) ⟨rfl, rfl⟩
  · rw [hout hsees] at holive
    exact absurd holive List.not_mem_nil

/-- **The rows to insert are all stored exactly when they are of different hours and none that the run
does not see is of an hour that has a live row.** -/
theorem Keyed.stored_iff (h : s.Keyed) :
    (∀ o ∈ s.toInsert w readings, o.storedRow ∈ (s.observed w readings).rows) ↔
      ((readings.filter fun r => s.Wanted w r).map Reading.storedAt).Nodup ∧
        ∀ r ∈ readings, s.Wanted w r → ¬ w.Sees r → s.liveAt (w.key r.storedAt) = [] := by
  constructor
  · intro hall
    have hhours := h.nodup_of_stored hall
    refine ⟨hhours, fun r hr hw hout => ?_⟩
    obtain ⟨f, hf, rfl⟩ := mem_fetched_iff.mp hr
    exact h.liveAt_eq_nil_of_stored hhours hf hw hout (hall _ (h.mem_toInsert.mpr ⟨f, hf, hw, rfl⟩))
  · rintro ⟨hhours, hout⟩ o ho
    have hrows : (s.observed w readings).rows = s.rows.map (markAll (s.corrections w readings)) ++
        (s.toInsert w readings).map Observation.storedRow := by
      refine insertAll_eq_of_disjoint ?_ fun k hk => ?_
      · rw [h.keys_toInsert]
        exact hhours.map fun _ _ => w.key_inj
      · rw [h.keys_toInsert] at hk
        obtain ⟨_, hhour, rfl⟩ := List.mem_map.mp hk
        obtain ⟨r, hr, rfl⟩ := List.mem_map.mp hhour
        rw [List.mem_filter, decide_eq_true_eq] at hr
        exact h.not_mem_keys_of_wanted hr.1 hr.2 (hout r hr.1 hr.2)
    rw [hrows]
    exact List.mem_append_right _ (List.mem_map_of_mem ho)

/-- A run succeeds and stores all that it decided to insert. -/
def StoresAll (s : ObservationStore) (w : LocationWindow) (fetched : Option (List Reading)) : Prop :=
  ∃ n s', observe true w.source w.locationID w.start w.stop fetched s = .ok (n, s') ∧
    ∀ readings, fetched = some readings → ∀ o ∈ s.toInsert w readings, o.storedRow ∈ s'.rows

theorem Keyed.storesAll_iff (h : s.Keyed) :
    s.StoresAll w (some readings) ↔
      (∀ r ∈ readings, s.Wanted w r → r.accepted = true) ∧
      ((readings.filter fun r => s.Wanted w r).map Reading.storedAt).Nodup ∧
      ∀ r ∈ readings, s.Wanted w r → ¬ w.Sees r → s.liveAt (w.key r.storedAt) = [] := by
  constructor
  · rintro ⟨n, s', hok, hall⟩
    obtain ⟨-, hacc, rfl, -⟩ := h.observe_eq_ok_iff.mp hok
    exact ⟨h.accepted_toInsert_iff.mp hacc, h.stored_iff.mp (hall readings rfl)⟩
  · rintro ⟨hacc, hhours, hout⟩
    refine ⟨_, _, h.observe_eq_ok_iff.mpr ⟨h.nodup_corrections hhours, h.accepted_toInsert_iff.mpr hacc, rfl, rfl⟩, ?_⟩
    intro readings' he
    cases he
    exact h.stored_iff.mpr ⟨hhours, hout⟩

end ObservationStore

/-- **A run on a batch that the adapter returned as a success stores every row it decided to insert
exactly when the columns accept all of these, they are of different hours, and none that the run does
not see (outside the window, or not at a whole microsecond) is of an hour that has a live row.** -/
theorem observe_stores_decided_iff {defaultType : ObservationType}
    {unmarshal : List UInt8 → Except String Historical.HistoricalResponse} {answer : Except ProviderError (List UInt8)}
    {w : LocationWindow} {s : ObservationStore} (hs : s.Keyed) {readings : List Reading}
    (hfetched : (Historical.fetchObservations defaultType unmarshal w.stop answer).fetched = some readings) :
    s.StoresAll w (Historical.fetchObservations defaultType unmarshal w.stop answer).fetched ↔
      (∀ r ∈ readings, s.Wanted w r → r.accepted = true) ∧
      ((readings.filter fun r => s.Wanted w r).map Reading.storedAt).Nodup ∧
      ∀ r ∈ readings, s.Wanted w r → ¬ w.Sees r → s.liveAt (w.key r.storedAt) = [] := by
  rw [hfetched]
  exact hs.storesAll_iff

/-- A suspect temperature is stored beside the hour before it. -/
theorem hotHour_stored :
    ObservationStore.empty.StoresAll ⟨Historical.source, 1, 0, hour⟩
      (fetchOf hour [(0, 20, 50), (hour, 70, 50)]).fetched := by
  have hfetched : (Historical.fetchObservations .reanalysis (answerOf [(0, 20, 50), (hour, 70, 50)]) hour
      (.ok [])).fetched = some [hourOf 0 20 50, { hourOf hour 70 50 with qualityFlag := .suspect }] := by
    decide +kernel
  exact (observe_stores_decided_iff (w := ⟨Historical.source, 1, 0, hour⟩) Keyed.empty hfetched).mpr
    ⟨by decide +kernel, by decide +kernel, by decide +kernel⟩

/-- A humidity of 101 percent fails the transaction, and the hour before it is lost. -/
theorem humidHour_lost :
    (fetchOf hour [(0, 20, 50), (hour, 21, 101)]).outcome = .success ∧
      (fetchOf hour [(0, 20, 50), (hour, 21, 101)]).observations =
        [hourOf 0 20 50, { hourOf hour 21 101 with qualityFlag := .suspect }] ∧
      ⟨hourOf 0 20 50, 0, 1, Historical.source, none⟩ ∈ ObservationStore.empty.toInsert ⟨Historical.source, 1, 0, hour⟩
        (fetchOf hour [(0, 20, 50), (hour, 21, 101)]).observations ∧
      observe true Historical.source 1 0 hour (fetchOf hour [(0, 20, 50), (hour, 21, 101)]).fetched .empty =
        .error .persist := by
  decide +kernel

/-! ### Observing again -/

namespace ObservationStore

variable {s : ObservationStore} {w : LocationWindow} {readings : List Reading}

/-- The store with other identifiers to come. -/
theorem Keyed.renumber (h : s.Keyed) {next : ℕ} (hnext : s.nextID ≤ next) :
    (⟨s.rows, next⟩ : ObservationStore).Keyed where
  id_lt o ho := Nat.lt_of_lt_of_le (h.id_lt o ho) hnext
  nodup := h.nodup
  index := h.index
  instants := h.instants

/-- After a run on different hours, a reading that the run sees agrees with the live row of its hour:
with its own row, which was rounded, or with the one that was kept. -/
theorem Keyed.agrees_of_liveAt (h : s.Keyed) (hacc : ∀ o ∈ s.toInsert w readings, o.accepted = true)
    (hhours : (readings.map Reading.storedAt).Nodup) {r : Reading} (hr : r ∈ readings) (hsees : w.Sees r)
    {o : Observation} (ho : o ∈ (s.observed w readings).liveAt (w.key r.storedAt)) :
    r.differsFrom o.toReading = false := by
  rcases h.confirmed_of_liveAt hacc ho with ⟨r', hr', he, hd⟩ | ⟨hunseen, -⟩
  · obtain rfl : r' = r := List.inj_on_of_nodup_map hhours hr' hr he
    exact hd
  · exact absurd hsees (hunseen r hr rfl)

/-- After such a run no reading is wanted any more that the run sees. -/
theorem Keyed.not_sees_of_wanted (h : s.Keyed) (hacc : ∀ o ∈ s.toInsert w readings, o.accepted = true)
    (hhours : (readings.map Reading.storedAt).Nodup) {r : Reading} (hr : r ∈ readings)
    (hw : (s.observed w readings).Wanted w r) : ¬ w.Sees r := by
  intro hsees
  obtain ⟨o, ho⟩ := h.exists_liveAt_observed (w := w) hr
  have hagrees := h.agrees_of_liveAt hacc hhours hr hsees ho
  obtain ⟨hin, hexact⟩ := hsees
  rw [← hexact] at hin ho
  rw [hw hin o ho] at hagrees
  cases hagrees

/-- A run whose wanted readings it does not see, and whose hours have live rows, leaves the table. -/
theorem Keyed.observe_of_unseen (h : s.Keyed) (hunseen : ∀ r ∈ readings, s.Wanted w r → ¬ w.Sees r)
    (hacc : ∀ r ∈ readings, s.Wanted w r → r.accepted = true)
    (hlive : ∀ r ∈ readings, ∃ o, o ∈ s.liveAt (w.key r.storedAt)) :
    observe true w.source w.locationID w.start w.stop (some readings) s =
        .ok (0, ⟨s.rows, s.nextID + readings.length⟩) ∧ s.corrections w readings = [] := by
  have hcor : s.corrections w readings = [] := by
    rw [List.eq_nil_iff_forall_not_mem]
    intro c hc
    obtain ⟨f, hf, hin, prev, hprev, hd, -⟩ := h.mem_corrections.mp hc
    have hstored : f.storedAt = f.observedAt := (h.storedTime_of_liveAt hprev).2
    exact hunseen _ (mem_fetched_iff.mpr ⟨f, hf, rfl⟩) (fun _ o ho => by rwa [h.eq_of_liveAt ho hprev])
      ⟨by rwa [hstored], hstored.symm⟩
  have hobs : s.observed w readings = ⟨s.rows, s.nextID + readings.length⟩ := by
    have hmark : s.rows.map (markAll []) = s.rows := List.map_id _
    rw [ObservationStore.observed, hcor, hmark, insertAll_eq_self]
    intro o ho
    obtain ⟨_, hmem, rfl⟩ := List.mem_map.mp ho
    obtain ⟨f, hf, -, rfl⟩ := h.mem_toInsert.mp hmem
    obtain ⟨hkey, hflive⟩ := indexKey_of_fetched hf
    obtain ⟨-, hk, hl⟩ := s.landed w f
    refine ⟨w.key f.storedAt, ?_, ?_⟩
    · rw [Observation.dedupKey_of_live (hl.trans hflive), hk, hkey]
    · obtain ⟨o, ho⟩ := hlive _ (mem_fetched_iff.mpr ⟨f, hf, rfl⟩)
      exact mem_keys_dedupKey.mpr ⟨o, mem_liveAt.mp ho⟩
  refine ⟨h.observe_eq_ok_iff.mpr ⟨by rw [hcor]; exact List.nodup_nil, h.accepted_toInsert_iff.mpr hacc, hobs.symm, ?_⟩,
    hcor⟩
  exact (Nat.sub_self _).symm

end ObservationStore

/-- **A run that succeeded on different hours of the window is repeated without effect**: with the same
readings under any fresh identifiers there is nothing to correct and nothing is stored, and the table
stays, though the values in it were rounded in between. What the second run still decides to insert has
a time that the column does not hold, and is passed over. -/
theorem observe_again {active : Bool} {w : LocationWindow} {readings : List Reading} {s s' : ObservationStore} {n : ℕ}
    (hs : s.Keyed) (hhours : (readings.map Reading.storedAt).Nodup) (hin : ∀ r ∈ readings, w.Covers r.storedAt)
    (h : observe active w.source w.locationID w.start w.stop (some readings) s = .ok (n, s')) {next : ℕ}
    (hnext : s'.nextID ≤ next) :
    observe active w.source w.locationID w.start w.stop (some readings) ⟨s'.rows, next⟩ =
        .ok (0, ⟨s'.rows, next + readings.length⟩) ∧
      (∀ o ∈ ObservationStore.toInsert ⟨s'.rows, next⟩ w readings, o.observedAt ≠ storedTime o.observedAt) ∧
      ObservationStore.corrections ⟨s'.rows, next⟩ w readings = [] := by
  obtain ⟨rfl, -⟩ := observe_eq_ok.mp h
  obtain ⟨-, hacc, rfl, -⟩ := hs.observe_eq_ok_iff.mp h
  have hs' := (hs.observed w readings).renumber hnext
  have hunseen : ∀ r ∈ readings, (⟨(s.observed w readings).rows, next⟩ : ObservationStore).Wanted w r → ¬ w.Sees r :=
    fun r hr hw => hs.not_sees_of_wanted hacc hhours hr hw
  have hfraction : ∀ r ∈ readings, (⟨(s.observed w readings).rows, next⟩ : ObservationStore).Wanted w r →
      r.observedAt ≠ r.storedAt := fun r hr hw hexact => hunseen r hr hw ⟨hin r hr, hexact⟩
  -- such a reading was wanted the first time too: no row has its instant
  have hfirst : ∀ r ∈ readings, (⟨(s.observed w readings).rows, next⟩ : ObservationStore).Wanted w r →
      r.accepted = true := fun r hr hw => by
    refine hs.accepted_toInsert_iff.mp hacc r hr fun _ o ho => ?_
    exact absurd (hs.storedTime_of_liveAt ho).2.symm (hfraction r hr hw)
  obtain ⟨hrun, hcor⟩ := hs'.observe_of_unseen hunseen hfirst fun r hr => hs.exists_liveAt_observed hr
  refine ⟨hrun, fun o ho => ?_, hcor⟩
  obtain ⟨f, hf, hw, rfl⟩ := hs'.mem_toInsert.mp ho
  have hread : (ObservationStore.landing ⟨(s.observed w readings).rows, next⟩ w f).observedAt = f.observedAt := by
    obtain ⟨flag, he⟩ := ObservationStore.landing_cases ⟨(s.observed w readings).rows, next⟩ w f
    rw [he]
  rw [hread]
  exact hfraction _ (mem_fetched_iff.mpr ⟨f, hf, rfl⟩) hw

/-- An hour was stored with 20 degrees. A run fetches it with 20.004, which agrees, and two more hours;
of these 21.004 is stored as 21 and the second hour corrects its row. Fetched again, nothing is stored. -/
theorem observe_again_three :
    ∃ s', observe true Historical.source 1 0 (2 * hour)
        (some [hourOf 0 (20004 / 1000) 50, hourOf hour (21004 / 1000) 50, hourOf (2 * hour) (22006 / 1000) 50])
        ⟨[⟨hourOf 0 20 50, 0, 1, Historical.source, none⟩, ⟨hourOf hour 25 50, 1, 1, Historical.source, none⟩], 2⟩ =
          .ok (2, s') ∧
      observe true Historical.source 1 0 (2 * hour)
        (some [hourOf 0 (20004 / 1000) 50, hourOf hour (21004 / 1000) 50, hourOf (2 * hour) (22006 / 1000) 50])
        ⟨s'.rows, 9⟩ = .ok (0, ⟨s'.rows, 12⟩) := by
  have hs : (⟨[⟨hourOf 0 20 50, 0, 1, Historical.source, none⟩,
      ⟨hourOf hour 25 50, 1, 1, Historical.source, none⟩], 2⟩ : ObservationStore).Keyed :=
    ⟨by decide +kernel, by decide +kernel, by decide +kernel, by decide +kernel⟩
  have hrun : observe true Historical.source 1 0 (2 * hour)
      (some [hourOf 0 (20004 / 1000) 50, hourOf hour (21004 / 1000) 50, hourOf (2 * hour) (22006 / 1000) 50])
      ⟨[⟨hourOf 0 20 50, 0, 1, Historical.source, none⟩, ⟨hourOf hour 25 50, 1, 1, Historical.source, none⟩], 2⟩ =
      .ok (2, ⟨[⟨hourOf 0 20 50, 0, 1, Historical.source, none⟩, ⟨hourOf hour 25 50, 1, 1, Historical.source, some 3⟩,
        ⟨{ hourOf hour 21 50 with qualityFlag := .corrected }, 3, 1, Historical.source, none⟩,
        ⟨hourOf (2 * hour) (2201 / 100) 50, 4, 1, Historical.source, none⟩], 5⟩) := by
    decide +kernel
  exact ⟨_, hrun, (observe_again (w := ⟨Historical.source, 1, 0, 2 * hour⟩) hs (by decide +kernel) (by decide +kernel)
    hrun (show 5 ≤ 9 by decide)).1⟩

end ForecastIQ.Collection
