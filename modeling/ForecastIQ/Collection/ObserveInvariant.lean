import ForecastIQ.Collection.ObserveConcurrent
import ForecastIQ.Collection.ObserveExact

/-!
# What holds in every interleaving

The invariant of concurrent observation runs. Of a running transaction (`ObserveTx.OK`):
each of its corrections is for a committed row, of the hour that its own row is stored under;
the rows it has superseded are still live in the committed table; and it has superseded every
committed live row with the key of a row it has inserted. Of two running transactions
(`ObserveTx.Apart`): they write different rows. So a commit leaves the table linked.

Whether the row of a correction is inserted at all depends on the times of the batch. A
reading with a fraction below the microsecond counts as new, and takes the key of a reading
at the whole microsecond that comes after it and has corrected the live row: that reading is
passed over, and the row it superseded points to nothing (`crossedMicrosecond_dangles`). In a
batch with no such two readings (`InOrder`) all rows of an hour correct the same row
(`ObserveTx.Lands`), and the row of a correction is never passed over
(`ObserveTx.OK.not_conflicts`).
-/

namespace ForecastIQ.Collection

open ForecastIQ.Foundations

/-! ### The invariant -/

/-- The rows of a transaction. -/
def ObserveTx.own (t : ObserveTx) : List Observation := t.inserted ++ t.rowsLeft

/-- The corrections of a transaction. -/
def ObserveTx.corrections (t : ObserveTx) : List Correction := t.marks ++ t.correctionsLeft

/-- The identifiers of the rows and pointers of a transaction. -/
def ObserveTx.ids (t : ObserveTx) : List ℕ := t.own.map Observation.id ++ t.corrections.map Correction.newID

/-- The identifiers of the rows and pointers of a table. -/
def tableIDs (table : List Observation) : List ℕ :=
  table.map Observation.id ++ table.filterMap Observation.supersededObservationID

theorem mem_tableIDs_of_row {table : List Observation} {o : Observation} (h : o ∈ table) : o.id ∈ tableIDs table :=
  List.mem_append_left _ (List.mem_map_of_mem h)

theorem mem_tableIDs_of_pointer {table : List Observation} {o : Observation} (h : o ∈ table) {b : ℕ}
    (hb : o.supersededObservationID = some b) : b ∈ tableIDs table :=
  List.mem_append_right _ (List.mem_filterMap.mpr ⟨o, h, hb⟩)

theorem ObserveTx.mem_ids_of_row {t : ObserveTx} {n : Observation} (h : n ∈ t.own) : n.id ∈ t.ids :=
  List.mem_append_left _ (List.mem_map_of_mem h)

theorem ObserveTx.mem_ids_of_correction {t : ObserveTx} {c : Correction} (h : c ∈ t.corrections) : c.newID ∈ t.ids :=
  List.mem_append_right _ (List.mem_map_of_mem h)

/-- What holds of a running transaction over the committed table. -/
structure ObserveTx.OK (table : List Observation) (t : ObserveTx) : Prop where
  fetched : ∀ rows, t.progress = .fetched rows → t.marks = [] ∧ t.inserted = []
  request : ∀ o ∈ t.own, o.source = t.source ∧ o.locationID = t.locationID ∧ o.live = true
  stored : ∀ n ∈ t.inserted, storedTime n.observedAt = n.observedAt
  nodup : (t.own.map Observation.id).Nodup
  news : (t.corrections.map Correction.newID).Nodup
  olds : (t.marks.map Correction.oldID).Nodup
  /-- A correction is for a committed row, of the hour that its own row is stored under. -/
  target : ∀ c ∈ t.corrections, ∃ o ∈ table, c.Names o ∧ ∀ n ∈ t.own, n.id = c.newID → o.hourKey = n.indexKey
  live : ∀ c ∈ t.marks, ∀ o ∈ table, o.id = c.oldID → o.live = true
  /-- The transaction has marked every live row with the key of a row it has inserted. -/
  covered : ∀ n ∈ t.inserted, ∀ o ∈ table, o.live = true → o.hourKey = n.hourKey → o.id ∈ t.marks.map Correction.oldID
  keys : (t.inserted.map Observation.hourKey).Nodup

/-- Two running transactions write different rows, to different rows and under different keys. -/
structure ObserveTx.Apart (t u : ObserveTx) : Prop where
  ids : ∀ a ∈ t.ids, a ∉ u.ids
  marks : ∀ c ∈ t.marks, ∀ d ∈ u.marks, c.oldID ≠ d.oldID
  keys : ∀ n ∈ t.inserted, ∀ m ∈ u.inserted, n.hourKey ≠ m.hourKey

theorem ObserveTx.Apart.symm {t u : ObserveTx} (h : t.Apart u) : u.Apart t where
  ids a ha ha' := h.ids a ha' ha
  marks d hd c hc := (h.marks c hc d hd).symm
  keys m hm n hn := (h.keys n hn m hm).symm

/-- What holds in every reached state. -/
structure ObserveState.Inv (s : ObserveState) : Prop where
  linked : Linked s.table
  id_lt : ∀ a ∈ tableIDs s.table, a < s.nextID
  fresh : ∀ i, s.count ≤ i → s.txs i = none
  ok : ∀ i t, s.txs i = some t → t.OK s.table
  ids_lt : ∀ i t, s.txs i = some t → ∀ a ∈ t.ids, a < s.nextID
  ids_new : ∀ i t, s.txs i = some t → ∀ a ∈ t.ids, a ∉ tableIDs s.table
  apart : ∀ i j t u, s.txs i = some t → s.txs j = some u → i ≠ j → t.Apart u

theorem ObserveState.Inv.empty : ObserveState.empty.Inv where
  linked := .empty
  id_lt := by simp [ObserveState.empty, tableIDs]
  fresh := by simp [ObserveState.empty]
  ok := by simp [ObserveState.empty]
  ids_lt := by simp [ObserveState.empty]
  ids_new := by simp [ObserveState.empty]
  apart := by simp [ObserveState.empty]

theorem ObserveState.txs_set {s : ObserveState} {i j : ℕ} {t : Option ObserveTx} {u : ObserveTx}
    (h : (s.set i t).txs j = some u) : (j = i ∧ t = some u) ∨ (j ≠ i ∧ s.txs j = some u) := by
  change Function.update s.txs i t j = some u at h
  by_cases hj : j = i
  · subst hj
    rw [Function.update_self] at h
    exact .inl ⟨rfl, h⟩
  · rw [Function.update_of_ne hj] at h
    exact .inr ⟨hj, h⟩

theorem ObserveState.Inv.lt_count {s : ObserveState} (h : s.Inv) {i : ℕ} {t : ObserveTx} (ht : s.txs i = some t) :
    i < s.count := by
  by_contra hge
  rw [h.fresh i (Nat.le_of_not_lt hge)] at ht
  cases ht

theorem ObserveState.Inv.of_anyOther {s : ObserveState} (h : s.Inv) {i : ℕ} {p : ObserveTx → Bool}
    (hany : s.anyOther i p = false) {j : ℕ} {u : ObserveTx} (hj : j ≠ i) (hu : s.txs j = some u) : p u = false := by
  simp only [anyOther, List.any_eq_false, List.mem_range] at hany
  simpa [hj, hu] using hany j (h.lt_count hu)

/-! ### Acts keep the invariant -/

section Preserved

variable {s : ObserveState} {i : ℕ} {t : ObserveTx}

/-- Ending a transaction without a commit. -/
theorem ObserveState.Inv.ended (h : s.Inv) (i : ℕ) : (s.set i none).Inv := by
  have hsub : ∀ {j u}, (s.set i none).txs j = some u → s.txs j = some u := by
    intro j u hu
    rcases txs_set hu with ⟨-, hno⟩ | ⟨-, hu⟩
    · cases hno
    · exact hu
  refine ⟨h.linked, h.id_lt, fun j hj => ?_, fun j u hu => h.ok j u (hsub hu), fun j u hu => h.ids_lt j u (hsub hu),
    fun j u hu => h.ids_new j u (hsub hu), fun j k u v hu hv => h.apart j k u v (hsub hu) (hsub hv)⟩
  cases hu : (s.set i none).txs j with
  | none => rfl
  | some u => exact absurd (h.lt_count (hsub hu)) (Nat.not_lt.mpr hj)

theorem ObserveState.Inv.others (h : s.Inv) (ht : s.txs i = some t) {j : ℕ} {u : ObserveTx} (hj : j ≠ i)
    (hu : s.txs j = some u) : t.Apart u :=
  h.apart i j t u ht hu hj.symm

/-- One transaction is put in place, over the same table; identifiers may have been given out. -/
theorem ObserveState.Inv.put (h : s.Inv) {count nextID : ℕ} {t' : ObserveTx} (hi : i < count)
    (hcount : s.count ≤ count) (hnext : s.nextID ≤ nextID) (hok : t'.OK s.table) (hlt : ∀ a ∈ t'.ids, a < nextID)
    (hnew : ∀ a ∈ t'.ids, a ∉ tableIDs s.table)
    (hapart : ∀ j u, j ≠ i → s.txs j = some u → t'.Apart u) :
    { s.set i (some t') with count := count, nextID := nextID : ObserveState }.Inv := by
  refine ⟨h.linked, fun a ha => (h.id_lt a ha).trans_le hnext, fun j hj => ?_, fun j u hu => ?_, fun j u hu => ?_,
    fun j u hu => ?_, fun j k u v hu hv hjk => ?_⟩
  · change Function.update s.txs i (some t') j = none
    rw [Function.update_of_ne (hi.trans_le hj).ne']
    exact h.fresh j (hcount.trans hj)
  · rcases txs_set hu with ⟨-, he⟩ | ⟨-, hu⟩
    · cases he
      exact hok
    · exact h.ok j u hu
  · rcases txs_set hu with ⟨-, he⟩ | ⟨-, hu⟩
    · cases he
      exact hlt
    · exact fun a ha => (h.ids_lt j u hu a ha).trans_le hnext
  · rcases txs_set hu with ⟨-, he⟩ | ⟨-, hu⟩
    · cases he
      exact hnew
    · exact h.ids_new j u hu
  · rcases txs_set hu with ⟨hj, he⟩ | ⟨hj, hu⟩ <;> rcases txs_set hv with ⟨hk, he'⟩ | ⟨hk, hv⟩
    · exact absurd (hj.trans hk.symm) hjk
    · cases he
      exact hapart k v hk hv
    · cases he'
      exact (hapart j u hj hu).symm
    · exact h.apart j k u v hu hv hjk

/-- A transaction goes on: it has no new identifier, and what it has written is apart from what the
others have written. -/
theorem ObserveState.Inv.set (h : s.Inv) (ht : s.txs i = some t) {t' : ObserveTx} (hok : t'.OK s.table)
    (hids : t'.ids ⊆ t.ids)
    (hmarks : ∀ j u, j ≠ i → s.txs j = some u → ∀ c ∈ t'.marks, ∀ d ∈ u.marks, c.oldID ≠ d.oldID)
    (hkeys : ∀ j u, j ≠ i → s.txs j = some u → ∀ n ∈ t'.inserted, ∀ m ∈ u.inserted, n.hourKey ≠ m.hourKey) :
    (s.set i (some t')).Inv :=
  h.put (h.lt_count ht) le_rfl le_rfl hok (fun a ha => h.ids_lt i t ht a (hids ha))
    (fun a ha => h.ids_new i t ht a (hids ha))
    fun j u hj hu => ⟨fun a ha => (h.others ht hj hu).ids a (hids ha), hmarks j u hj hu, hkeys j u hj hu⟩

/-- A transaction that has read nothing yet. -/
theorem ObserveTx.OK.begun {table rows : List Observation} {source : String} {locationID : ℕ}
    {windowStart windowEnd : ℤ} (hnodup : (rows.map Observation.id).Nodup)
    (hreq : ∀ o ∈ rows, o.source = source ∧ o.locationID = locationID ∧ o.live = true) :
    (⟨source, locationID, windowStart, windowEnd, .fetched rows, [], []⟩ : ObserveTx).OK table where
  fetched _ _ := ⟨rfl, rfl⟩
  request := hreq
  stored _ hn := absurd hn List.not_mem_nil
  nodup := hnodup
  news := List.nodup_nil
  olds := List.nodup_nil
  target _ hc := absurd hc List.not_mem_nil
  live _ hc := absurd hc List.not_mem_nil
  covered _ hn := absurd hn List.not_mem_nil
  keys := List.nodup_nil

/-- A transaction begins with rows whose identifiers are new. -/
theorem ObserveState.Inv.beginTx (h : s.Inv) (source : String) (locationID : ℕ) (windowStart windowEnd : ℤ)
    (readings : List Reading) :
    { s.set s.count (some ⟨source, locationID, windowStart, windowEnd,
        .fetched (fetchedRows s.nextID locationID source readings), [], []⟩) with
      count := s.count + 1, nextID := s.nextID + readings.length : ObserveState }.Inv := by
  have hmem : ∀ n ∈ fetchedRows s.nextID locationID source readings, _ := fun n hn => mem_fetchedRows hn
  have hnodup : ((fetchedRows s.nextID locationID source readings).map Observation.id).Nodup := by
    rw [show Observation.id = fun o : Observation => o.id from rfl, map_id_fetchedRows]
    exact List.nodup_range' ..
  generalize fetchedRows s.nextID locationID source readings = rows at hmem hnodup
  have hids : ∀ a ∈ ObserveTx.ids ⟨source, locationID, windowStart, windowEnd, .fetched rows, [], []⟩,
      s.nextID ≤ a ∧ a < s.nextID + readings.length := by
    intro a ha
    rw [ObserveTx.ids, show ObserveTx.corrections _ = [] from rfl, List.map_nil, List.append_nil] at ha
    obtain ⟨n, hn, rfl⟩ := List.mem_map.mp ha
    exact (hmem n hn).1
  refine h.put (Nat.lt_succ_self _) (Nat.le_succ _) (Nat.le_add_right _ _) (.begun hnodup fun o ho => ?_)
    (fun a ha => (hids a ha).2) (fun a ha hin => ?_) fun k v _ hv => ⟨fun a ha hin => ?_, by simp, by simp⟩
  · obtain ⟨-, hs, hl, hnone⟩ := hmem o ho
    exact ⟨hs, hl, by rw [Observation.live, hnone]; rfl⟩
  · exact absurd (h.id_lt a hin) (Nat.not_lt.mpr (hids a ha).1)
  · exact absurd (h.ids_lt k v hv a hin) (Nat.not_lt.mpr (hids a ha).1)

/-! ### The read -/

theorem ObserveTx.OK.own_of_fetched {table rows : List Observation} (h : t.OK table)
    (hp : t.progress = .fetched rows) : t.own = rows := by
  simp [own, rowsLeft, (h.fetched rows hp).2, hp]

/-- The rows that the read has found. -/
theorem mem_listCurrentByWindow {table : List Observation} {source : String} {locationID n : ℕ} {a b : ℤ}
    {e : Observation} (he : e ∈ (ObservationStore.mk table n).listCurrentByWindow source locationID a b) :
    e ∈ table ∧ e.source = source ∧ e.locationID = locationID := by
  rw [ObservationStore.listCurrentByWindow, List.mem_filter, decide_eq_true_eq] at he
  exact ⟨he.1, he.2.1, he.2.2.1⟩

/-- The rows and corrections that come of a read. -/
theorem ObserveTx.OK.decided {table rows : List Observation} (h : t.OK table) (hp : t.progress = .fetched rows) :
    ∃ existing : List Observation,
      (∀ e ∈ existing, e ∈ table ∧ e.source = t.source ∧ e.locationID = t.locationID) ∧
      (t.decide table rows).own = rows.filterMap (Decision.row? ∘ decision existing) ∧
      (t.decide table rows).corrections = rows.filterMap (Decision.correction? ∘ decision existing) := by
  obtain ⟨hmarks, hinserted⟩ := h.fetched rows hp
  refine ⟨(ObservationStore.mk table 0).listCurrentByWindow t.source t.locationID t.windowStart t.windowEnd,
    fun e he => mem_listCurrentByWindow he, ?_, ?_⟩
  · simp only [ObserveTx.decide, own, rowsLeft, hinserted, List.nil_append, List.filterMap_map]
  · simp only [ObserveTx.decide, corrections, correctionsLeft, hmarks, List.nil_append, List.filterMap_map]

/-- A row that is compared with a row of the table is of the column's precision. -/
theorem Linked.indexKey_of_lastOfHour {table existing : List Observation} (hl : Linked table) {source : String}
    {locationID : ℕ} (hexisting : ∀ e ∈ existing, e ∈ table ∧ e.source = source ∧ e.locationID = locationID)
    {src prev : Observation} (hsource : src.source = source) (hlocation : src.locationID = locationID)
    (hprev : lastOfHour existing src.observedAt = some prev) :
    prev ∈ table ∧ storedTime src.observedAt = src.observedAt ∧ prev.hourKey = src.indexKey := by
  obtain ⟨hmem, hhour⟩ := mem_of_lastOfHour hprev
  obtain ⟨htable, hs, hloc⟩ := hexisting prev hmem
  have hexact : storedTime src.observedAt = src.observedAt := hhour ▸ hl.instants prev htable
  exact ⟨htable, hexact,
    by simp only [Observation.hourKey, Observation.indexKey, hs, hloc, hhour, hsource, hlocation, hexact]⟩

/-- The read turns the fetched rows into decisions about the rows that are live now. -/
theorem ObserveTx.OK.decide {table : List Observation} (h : t.OK table) (hl : Linked table) {rows : List Observation}
    (hp : t.progress = .fetched rows) : (t.decide table rows).OK table := by
  obtain ⟨hmarks, hinserted⟩ := h.fetched rows hp
  obtain ⟨existing, hexisting, howned, hcorr⟩ := h.decided hp
  have hreq := h.request
  have hnodup := h.nodup
  rw [h.own_of_fetched hp] at hreq hnodup
  have hmarks' : (t.decide table rows).marks = [] := hmarks
  have hinserted' : (t.decide table rows).inserted = [] := hinserted
  refine ⟨(fun _ hp' => nomatch hp'), ?_, by simp [hinserted'], ?_, ?_, by simp [hmarks'], ?_, by simp [hmarks'],
    by simp [hinserted'], by simp [hinserted']⟩
  · rw [howned]
    intro o ho
    obtain ⟨src, hsrc, hrow⟩ := List.mem_filterMap.mp ho
    obtain ⟨flag, rfl⟩ := decision_row hrow
    exact hreq src hsrc
  · rw [howned]
    exact (sublist_decided existing rows).nodup hnodup
  · rw [hcorr]
    refine (sublist_map_filterMap (fun src c hc => ?_) rows).nodup hnodup
    obtain ⟨prev, -, rfl, -⟩ := decision_correction hc
    rfl
  · rw [hcorr, howned]
    intro c hc
    obtain ⟨src, hsrc, hc⟩ := List.mem_filterMap.mp hc
    obtain ⟨prev, hprev, rfl, -⟩ := decision_correction hc
    obtain ⟨h1, h2, -⟩ := hreq src hsrc
    obtain ⟨htable, -, hkey⟩ := hl.indexKey_of_lastOfHour hexisting h1 h2 hprev
    refine ⟨prev, htable, ⟨rfl, rfl⟩, fun n hn hid => ?_⟩
    obtain ⟨src', hsrc', hrow⟩ := List.mem_filterMap.mp hn
    obtain ⟨flag, rfl⟩ := decision_row hrow
    obtain rfl : src' = src := List.inj_on_of_nodup_map hnodup hsrc' hsrc hid
    exact hkey

theorem ObserveTx.OK.ids_decide {table : List Observation} (h : t.OK table) {rows : List Observation}
    (hp : t.progress = .fetched rows) : (t.decide table rows).ids ⊆ t.ids := by
  obtain ⟨existing, -, howned, hcorr⟩ := h.decided hp
  have hrows : ∀ {src}, src ∈ rows → src.id ∈ t.ids := fun hsrc =>
    ObserveTx.mem_ids_of_row (by rwa [h.own_of_fetched hp])
  intro a ha
  rcases List.mem_append.mp ha with ha | ha
  · rw [howned] at ha
    obtain ⟨src, hsrc, rfl⟩ := List.mem_map.mp ((sublist_decided existing rows).subset ha)
    exact hrows hsrc
  · rw [hcorr] at ha
    obtain ⟨c, hc, rfl⟩ := List.mem_map.mp ha
    obtain ⟨src, hsrc, hc⟩ := List.mem_filterMap.mp hc
    obtain ⟨prev, -, rfl, -⟩ := decision_correction hc
    exact hrows hsrc

theorem ObserveState.Inv.read (h : s.Inv) (ht : s.txs i = some t) {rows : List Observation}
    (hp : t.progress = .fetched rows) : (s.set i (some (t.decide s.table rows))).Inv := by
  have hok := h.ok i t ht
  exact h.set ht (hok.decide h.linked hp) (hok.ids_decide hp) (fun _ _ hj hu => (h.others ht hj hu).marks)
    fun _ _ hj hu => (h.others ht hj hu).keys

/-! ### The writes -/

theorem ObserveTx.own_of_decided {cs : List Correction} {rows : List Observation} (hp : t.progress = .decided cs rows) :
    t.own = t.inserted ++ rows := by
  simp [own, rowsLeft, hp]

theorem ObserveTx.corrections_of_decided {cs : List Correction} {rows : List Observation}
    (hp : t.progress = .decided cs rows) : t.corrections = t.marks ++ cs := by
  simp [corrections, correctionsLeft, hp]

/-- What the invariant reads of a row of a transaction. -/
def Observation.role (o : Observation) : ℕ × (String × ℕ × ℤ) × Bool := (o.id, o.indexKey, o.live)

theorem Observation.role_storedRow (o : Observation) : o.storedRow.role = o.role := by
  rw [role, role, indexKey_storedRow]
  rfl

/-- A write keeps what holds of a transaction when it adds no row and keeps what the marks and the
inserted rows have to satisfy. -/
theorem ObserveTx.OK.write {table : List Observation} (h : t.OK table) {t' : ObserveTx} {cs : List Correction}
    {rows : List Observation} (hp : t'.progress = .decided cs rows) (hsource : t'.source = t.source)
    (hlocation : t'.locationID = t.locationID) (hcorr : t'.corrections = t.corrections)
    (hsub : (t'.own.map Observation.role).Sublist (t.own.map Observation.role))
    (hstored : ∀ n ∈ t'.inserted, storedTime n.observedAt = n.observedAt)
    (holds : (t'.marks.map Correction.oldID).Nodup)
    (hlive : ∀ c ∈ t'.marks, ∀ o ∈ table, o.id = c.oldID → o.live = true)
    (hcovered : ∀ n ∈ t'.inserted, ∀ o ∈ table, o.live = true → o.hourKey = n.hourKey →
      o.id ∈ t'.marks.map Correction.oldID)
    (hkeys : (t'.inserted.map Observation.hourKey).Nodup) : t'.OK table := by
  have hback : ∀ n' ∈ t'.own, ∃ n ∈ t.own, n.role = n'.role := fun n' hn' =>
    List.mem_map.mp (hsub.subset (List.mem_map_of_mem hn'))
  refine ⟨fun _ hp' => ?_, fun n' hn' => ?_, hstored, ?_, by rw [hcorr]; exact h.news, holds, ?_, hlive, hcovered,
    hkeys⟩
  · rw [hp] at hp'
    cases hp'
  · obtain ⟨n, hn, hrole⟩ := hback n' hn'
    simp only [Observation.role, Observation.indexKey, Prod.mk.injEq] at hrole
    obtain ⟨-, ⟨h1, h2, -⟩, h3⟩ := hrole
    rw [← h1, ← h2, ← h3, hsource, hlocation]
    exact h.request n hn
  · have hids := hsub.map Prod.fst
    simp only [List.map_map] at hids
    exact hids.nodup h.nodup
  · rw [hcorr]
    intro c hc
    obtain ⟨o, ho, hnames, hkey⟩ := h.target c hc
    refine ⟨o, ho, hnames, fun n' hn' hid => ?_⟩
    obtain ⟨n, hn, hrole⟩ := hback n' hn'
    simp only [Observation.role, Prod.mk.injEq] at hrole
    rw [← hrole.2.1]
    exact hkey n hn (hrole.1.trans hid)

/-- Such a write has no new identifiers. -/
theorem ObserveTx.ids_write {t' : ObserveTx} (hcorr : t'.corrections = t.corrections)
    (hsub : (t'.own.map Observation.role).Sublist (t.own.map Observation.role)) : t'.ids ⊆ t.ids := by
  have hids := hsub.map Prod.fst
  simp only [List.map_map] at hids
  intro a ha
  rw [ids, hcorr] at ha
  exact List.mem_append.mpr ((List.mem_append.mp ha).imp_left fun ha => hids.subset ha)

/-- A correction names the row it is for. -/
theorem ObserveTx.OK.names {table : List Observation} (h : t.OK table) (hn : (table.map Observation.id).Nodup)
    {c : Correction} (hc : c ∈ t.corrections) {o : Observation} (ho : o ∈ table) (hid : o.id = c.oldID) :
    c.Names o := by
  obtain ⟨o', ho', hnames, -⟩ := h.target c hc
  rwa [List.inj_on_of_nodup_map hn ho ho' (hid.trans hnames.1.symm)]

/-- A row is live for the transaction when it is live and the transaction has not superseded it. -/
theorem ObserveTx.OK.live_markAll {table : List Observation} (h : t.OK table) (hn : (table.map Observation.id).Nodup)
    {o : Observation} (ho : o ∈ table) :
    (markAll t.marks o).live = true ↔ o.live = true ∧ o.id ∉ t.marks.map Correction.oldID := by
  rw [Collection.live_markAll]
  refine and_congr_right fun _ => ⟨fun hno hmem => ?_, fun hno c hc hnames => hno ?_⟩
  · obtain ⟨c, hc, hid⟩ := List.mem_map.mp hmem
    exact hno c hc (h.names hn (List.mem_append_left _ hc) ho hid.symm)
  · exact List.mem_map.mpr ⟨c, hc, hnames.1.symm⟩

theorem ObserveTx.mem_view {table : List Observation} {v : Observation} (h : v ∈ t.view table) :
    (∃ o ∈ table, v = markAll t.marks o) ∨ v ∈ t.inserted := by
  refine (List.mem_append.mp h).imp_left fun hv => ?_
  obtain ⟨o, ho, rfl⟩ := List.mem_map.mp hv
  exact ⟨o, ho, rfl⟩

/-- The row that a correction finds is committed, live, and not superseded by the transaction. -/
theorem ObserveTx.OK.found {table : List Observation} (h : t.OK table) (hn : (table.map Observation.id).Nodup)
    (hnew : ∀ a ∈ t.ids, a ∉ tableIDs table) {c : Correction} (hc : c ∈ t.corrections) {v : Observation}
    (hv : v ∈ t.view table) (hid : v.id = c.oldID) (hlive : v.live = true) :
    ∃ o ∈ table, o.id = c.oldID ∧ o.live = true ∧ c.oldID ∉ t.marks.map Correction.oldID := by
  rcases mem_view hv with ⟨o, ho, rfl⟩ | hv
  · obtain ⟨h1, h2⟩ := (h.live_markAll hn ho).mp hlive
    rw [markAll_id] at hid
    exact ⟨o, ho, hid, h1, hid ▸ h2⟩
  · obtain ⟨o, ho, hnames, -⟩ := h.target c hc
    refine absurd (mem_tableIDs_of_row ho) (hnew o.id ?_)
    rw [hnames.1, ← hid]
    exact ObserveTx.mem_ids_of_row (List.mem_append_left _ hv)

/-- A superseding statement changes neither the rows nor the corrections of its transaction. -/
theorem ObserveTx.supersede_same {c : Correction} {corrections : List Correction} {toInsert : List Observation}
    (hp : t.progress = .decided (c :: corrections) toInsert) :
    (t.supersede c corrections toInsert).corrections = t.corrections ∧
      (t.supersede c corrections toInsert).own = t.own := by
  have hp' : (t.supersede c corrections toInsert).progress = .decided corrections toInsert := rfl
  refine ⟨?_, (own_of_decided hp').trans (own_of_decided hp).symm⟩
  rw [corrections_of_decided hp', corrections_of_decided hp,
    show (t.supersede c corrections toInsert).marks = t.marks ++ [c] from rfl, List.append_assoc]
  rfl

theorem ObserveTx.OK.supersede {table : List Observation} (h : t.OK table) (hn : (table.map Observation.id).Nodup)
    {c : Correction} {corrections : List Correction} {toInsert : List Observation}
    (hp : t.progress = .decided (c :: corrections) toInsert) {o : Observation} (ho : o ∈ table) (hid : o.id = c.oldID)
    (hlive : o.live = true) (hnot : c.oldID ∉ t.marks.map Correction.oldID) :
    (t.supersede c corrections toInsert).OK table := by
  have hmarks : (t.supersede c corrections toInsert).marks = t.marks ++ [c] := rfl
  obtain ⟨hcorr, hown⟩ := supersede_same hp
  refine h.write rfl rfl rfl hcorr (by rw [hown]) h.stored ?_ ?_ ?_ h.keys
  · rw [hmarks, List.map_append, List.map_singleton, ← List.concat_eq_append]
    exact .concat hnot h.olds
  · intro d hd o' ho' hid'
    rcases List.mem_append.mp hd with hd | hd
    · exact h.live d hd o' ho' hid'
    · rw [List.mem_singleton.mp hd] at hid'
      rw [List.inj_on_of_nodup_map hn ho' ho (hid'.trans hid.symm)]
      exact hlive
  · intro n hn' o' ho' hlive' hkey
    rw [hmarks, List.map_append]
    exact List.mem_append_left _ (h.covered n hn' o' ho' hlive' hkey)

theorem ObserveState.Inv.supersede (h : s.Inv) (ht : s.txs i = some t) {c : Correction} {corrections : List Correction}
    {toInsert : List Observation} (hp : t.progress = .decided (c :: corrections) toInsert)
    (hwait : s.anyOther i (fun u => u.marked c.oldID) = false)
    (hfound : ∃ o ∈ t.view s.table, o.id = c.oldID ∧ o.observedAt = c.oldObservedAt ∧ o.live = true) :
    (s.set i (some (t.supersede c corrections toInsert))).Inv := by
  have hok := h.ok i t ht
  have hc : c ∈ t.corrections := by simp [ObserveTx.corrections_of_decided hp]
  obtain ⟨v, hv, hvid, -, hvlive⟩ := hfound
  obtain ⟨o, ho, hid, hlive, hnot⟩ := hok.found h.linked.nodup (h.ids_new i t ht) hc hv hvid hvlive
  obtain ⟨hcorr, hown⟩ := ObserveTx.supersede_same hp
  refine h.set ht (hok.supersede h.linked.nodup hp ho hid hlive hnot) (ObserveTx.ids_write hcorr (by rw [hown]))
    (fun j u hj hu d hd e he => ?_) fun _ _ hj hu => (h.others ht hj hu).keys
  · rcases List.mem_append.mp hd with hd | hd
    · exact (h.others ht hj hu).marks d hd e he
    · rw [List.mem_singleton.mp hd]
      have hnot := h.of_anyOther hwait hj hu
      simp only [ObserveTx.marked, List.any_eq_false, decide_eq_true_eq] at hnot
      exact fun heq => hnot e he heq.symm

section Insert

variable {table : List Observation} {o : Observation} {toInsert : List Observation}

/-- The transaction after an insert that is passed over. -/
theorem ObserveTx.skip_same (hp : t.progress = .decided [] (o :: toInsert)) :
    ({ t with progress := .decided [] toInsert } : ObserveTx).corrections = t.corrections ∧
      (({ t with progress := .decided [] toInsert } : ObserveTx).own.map Observation.role).Sublist
        (t.own.map Observation.role) := by
  refine ⟨(corrections_of_decided hp).symm, ?_⟩
  rw [own_of_decided hp]
  exact ((List.Sublist.refl t.inserted).append (List.sublist_cons_self o toInsert)).map _

theorem ObserveState.Inv.skip (h : s.Inv) (ht : s.txs i = some t) (hp : t.progress = .decided [] (o :: toInsert)) :
    (s.set i (some { t with progress := .decided [] toInsert })).Inv := by
  have hok := h.ok i t ht
  obtain ⟨hcorr, hsub⟩ := ObserveTx.skip_same hp
  exact h.set ht (hok.write rfl rfl rfl hcorr hsub hok.stored hok.olds hok.live hok.covered hok.keys)
    (ObserveTx.ids_write hcorr hsub) (fun _ _ hj hu => (h.others ht hj hu).marks)
    fun _ _ hj hu => (h.others ht hj hu).keys

/-- The inserted row stands for the row it stores: only the time and the values are cut. -/
theorem ObserveTx.insertRow_same (hp : t.progress = .decided [] (o :: toInsert)) :
    ({ t with progress := .decided [] toInsert, inserted := t.inserted ++ [o.storedRow] } : ObserveTx).corrections =
        t.corrections ∧
      ({ t with progress := .decided [] toInsert, inserted := t.inserted ++ [o.storedRow] } : ObserveTx).own.map
        Observation.role = t.own.map Observation.role := by
  refine ⟨(corrections_of_decided hp).symm, ?_⟩
  rw [own_of_decided hp]
  simp [own, rowsLeft, Observation.role_storedRow]

/-- A row that is not passed over: no live row that the transaction sees has its key. -/
theorem ObserveTx.OK.hourKey_ne (h : t.OK table) (hp : t.progress = .decided [] (o :: toInsert))
    (hc : conflicts Observation.dedupKey (t.view table) o.storedRow = false) {v : Observation} (hv : v ∈ t.view table)
    (hlive : v.live = true) : v.hourKey ≠ o.indexKey := by
  intro hkey
  have ho : o.storedRow.live = true := (h.request o (by simp [own_of_decided hp])).2.2
  rw [(conflicts_dedupKey_iff ho).mpr ⟨v, hv, hlive, hkey⟩] at hc
  cases hc

theorem ObserveTx.OK.insertRow (h : t.OK table) (hl : Linked table) (hp : t.progress = .decided [] (o :: toInsert))
    (hc : conflicts Observation.dedupKey (t.view table) o.storedRow = false) :
    ({ t with progress := .decided [] toInsert, inserted := t.inserted ++ [o.storedRow] } : ObserveTx).OK table := by
  obtain ⟨hcorr, hroles⟩ := insertRow_same hp
  refine h.write rfl rfl rfl hcorr (by rw [hroles]) (fun n hn => ?_) h.olds h.live
    (fun n hn o' ho' hlive hkey => ?_) ?_
  · rcases List.mem_append.mp hn with hn | hn
    · exact h.stored n hn
    · rw [List.mem_singleton.mp hn]
      exact storedTime_storedTime _
  · rcases List.mem_append.mp hn with hn | hn
    · exact h.covered n hn o' ho' hlive hkey
    · rw [List.mem_singleton.mp hn] at hkey
      by_contra hno
      refine h.hourKey_ne hp hc (v := markAll t.marks o') (List.mem_append_left _ (List.mem_map_of_mem ho')) ?_ ?_
      · exact (h.live_markAll hl.nodup ho').mpr ⟨hlive, hno⟩
      · rw [markAll_hourKey]
        exact hkey
  · rw [List.map_append, List.map_singleton, ← List.concat_eq_append]
    refine .concat (fun hmem => ?_) h.keys
    obtain ⟨n, hn, hkey⟩ := List.mem_map.mp hmem
    exact h.hourKey_ne hp hc (List.mem_append_right _ hn) (h.request n (List.mem_append_left _ hn)).2.2 hkey

/-- An insert that is not passed over: no committed row and no row of another transaction has its key. -/
theorem ObserveState.Inv.insertRow (h : s.Inv) (ht : s.txs i = some t) (hp : t.progress = .decided [] (o :: toInsert))
    (hwait : s.anyOther i (fun u => u.holds s.table o.indexKey) = false)
    (hc : conflicts Observation.dedupKey (t.view s.table) o.storedRow = false) :
    (s.set i (some { t with progress := .decided [] toInsert, inserted := t.inserted ++ [o.storedRow] })).Inv := by
  obtain ⟨hcorr, hroles⟩ := ObserveTx.insertRow_same hp
  refine h.set ht ((h.ok i t ht).insertRow h.linked hp hc) (ObserveTx.ids_write hcorr (by rw [hroles]))
    (fun _ _ hj hu => (h.others ht hj hu).marks) fun j u hj hu n hn m hm => ?_
  · rcases List.mem_append.mp hn with hn | hn
    · exact (h.others ht hj hu).keys n hn m hm
    · rw [List.mem_singleton.mp hn]
      intro hkey
      have hnot := h.of_anyOther hwait hj hu
      simp only [ObserveTx.holds, Bool.or_eq_false_iff, List.any_eq_false, decide_eq_true_eq] at hnot
      exact hnot.1 m hm hkey.symm

end Insert

section Commit

variable {table : List Observation}

theorem ObserveTx.own_of_done (hp : t.progress = .decided [] []) : t.own = t.inserted := by
  rw [own_of_decided hp, List.append_nil]

theorem ObserveTx.OK.pointer_none (h : t.OK table) {n : Observation} (hn : n ∈ t.inserted) :
    n.supersededObservationID = none :=
  Option.isNone_iff_eq_none.mp (h.request n (List.mem_append_left _ hn)).2.2

/-- A pointer after the commit is one from before, or that of a correction for the row. -/
theorem pointer_markAll {marks : List Correction} {o : Observation} {b : ℕ}
    (hb : (markAll marks o).supersededObservationID = some b) :
    o.supersededObservationID = some b ∨ ∃ c ∈ marks, c.Names o ∧ c.newID = b := by
  rcases markAll_cases marks o with ⟨he, -⟩ | ⟨-, c, hc, hnames, he⟩
  · rw [he] at hb
    exact .inl hb
  · rw [he] at hb
    exact .inr ⟨c, hc, hnames, Option.some.inj hb⟩

theorem ObserveTx.mem_ids_of_inserted {n : Observation} (hn : n ∈ t.inserted) : n.id ∈ t.ids :=
  mem_ids_of_row (List.mem_append_left _ hn)

theorem ObserveTx.mem_ids_of_mark {c : Correction} (hc : c ∈ t.marks) : c.newID ∈ t.ids :=
  mem_ids_of_correction (List.mem_append_left _ hc)

theorem ObserveTx.OK.nodup_view (h : t.OK table) (hl : Linked table) (hp : t.progress = .decided [] [])
    (hnew : ∀ a ∈ t.ids, a ∉ tableIDs table) : ((t.view table).map Observation.id).Nodup := by
  have hsame : (Observation.id ∘ markAll t.marks) = Observation.id := funext fun o => markAll_id _ o
  rw [view, List.map_append, List.map_map, List.nodup_append, hsame]
  refine ⟨hl.nodup, by rw [← own_of_done hp]; exact h.nodup, fun a ha b hb hab => ?_⟩
  obtain ⟨n, hn, rfl⟩ := List.mem_map.mp hb
  exact hnew _ (mem_ids_of_inserted hn) (List.mem_append_left _ (hab ▸ ha))

theorem ObserveTx.OK.sameHour_view (h : t.OK table) (hl : Linked table) (hnew : ∀ a ∈ t.ids, a ∉ tableIDs table)
    {v w : Observation} (hv : v ∈ t.view table) (hw : w ∈ t.view table) (hb : v.supersededObservationID = some w.id) :
    w.hourKey = v.hourKey := by
  rcases mem_view hv with ⟨o, ho, rfl⟩ | hv
  · rw [markAll_hourKey]
    rcases pointer_markAll hb with hb | ⟨c, hc, hnames, hid⟩ <;> rcases mem_view hw with ⟨r, hr, rfl⟩ | hw
    · rw [markAll_id] at hb
      rw [markAll_hourKey]
      exact hl.sameHour o ho r hr hb
    · exact absurd (mem_tableIDs_of_pointer ho hb) (hnew _ (mem_ids_of_inserted hw))
    · rw [markAll_id] at hid
      exact absurd (mem_tableIDs_of_row hr) (hid ▸ hnew _ (mem_ids_of_mark hc))
    · obtain ⟨o', ho', hnames', hkey⟩ := h.target c (List.mem_append_left _ hc)
      obtain rfl : o' = o := List.inj_on_of_nodup_map hl.nodup ho' ho (hnames'.1.trans hnames.1.symm)
      rw [hkey w (List.mem_append_left _ hw) hid.symm, Observation.indexKey, h.stored w hw]
      rfl
  · rw [h.pointer_none hv] at hb
    cases hb

theorem ObserveTx.OK.correctsOne_view (h : t.OK table) (hl : Linked table) (hnew : ∀ a ∈ t.ids, a ∉ tableIDs table)
    {v w : Observation} (hv : v ∈ t.view table) (hw : w ∈ t.view table) {b : ℕ}
    (hvb : v.supersededObservationID = some b) (hwb : w.supersededObservationID = some b) : v.id = w.id := by
  rcases mem_view hv with ⟨o, ho, rfl⟩ | hv
  · rcases mem_view hw with ⟨r, hr, rfl⟩ | hw
    · rw [markAll_id, markAll_id]
      rcases pointer_markAll hvb with hb | ⟨c, hc, hnames, hid⟩ <;>
        rcases pointer_markAll hwb with hb' | ⟨c', hc', hnames', hid'⟩
      · exact hl.correctsOne o ho r hr b hb hb'
      · exact absurd (mem_tableIDs_of_pointer ho hb) (hid' ▸ hnew _ (mem_ids_of_mark hc'))
      · exact absurd (mem_tableIDs_of_pointer hr hb') (hid ▸ hnew _ (mem_ids_of_mark hc))
      · obtain rfl : c = c' := List.inj_on_of_nodup_map h.news (List.mem_append_left _ hc) (List.mem_append_left _ hc')
          (hid.trans hid'.symm)
        rw [hnames.1, hnames'.1]
    · rw [h.pointer_none hw] at hwb
      cases hwb
  · rw [h.pointer_none hv] at hvb
    cases hvb

theorem ObserveTx.OK.oneLive_view (h : t.OK table) (hl : Linked table) {v w : Observation} (hv : v ∈ t.view table)
    (hw : w ∈ t.view table) (hvlive : v.live = true) (hwlive : w.live = true) (hkey : v.hourKey = w.hourKey) :
    v.id = w.id := by
  -- a row of the table that is still live has no key of an inserted row
  have hcov : ∀ o ∈ table, (markAll t.marks o).live = true → ∀ n ∈ t.inserted, o.hourKey ≠ n.hourKey := by
    intro o ho hlive n hn hkey
    obtain ⟨h1, h2⟩ := (h.live_markAll hl.nodup ho).mp hlive
    exact h2 (h.covered n hn o ho h1 hkey)
  rcases mem_view hv with ⟨o, ho, rfl⟩ | hv <;> rcases mem_view hw with ⟨r, hr, rfl⟩ | hw
  · rw [markAll_id, markAll_id]
    rw [markAll_hourKey, markAll_hourKey] at hkey
    exact hl.oneLive o ho r hr ((h.live_markAll hl.nodup ho).mp hvlive).1 ((h.live_markAll hl.nodup hr).mp hwlive).1
      hkey
  · rw [markAll_hourKey] at hkey
    exact absurd hkey (hcov o ho hvlive w hw)
  · rw [markAll_hourKey] at hkey
    exact absurd hkey.symm (hcov r hr hwlive v hv)
  · rw [List.inj_on_of_nodup_map h.keys hv hw hkey]

/-- The table after a commit. -/
theorem ObserveTx.OK.linked_view (h : t.OK table) (hl : Linked table) (hp : t.progress = .decided [] [])
    (hnew : ∀ a ∈ t.ids, a ∉ tableIDs table) : Linked (t.view table) where
  nodup := h.nodup_view hl hp hnew
  instants v hv := by
    rcases mem_view hv with ⟨o, ho, rfl⟩ | hv
    · rw [markAll_toReading]
      exact hl.instants o ho
    · exact h.stored v hv
  forward := by
    refine hl.forward.append_of_map (fun n hn => h.pointer_none hn) (fun o _ => markAll_id _ o) fun o ho b hb => ?_
    refine (pointer_markAll hb).imp_right ?_
    rintro ⟨c, hc, -, rfl⟩ hmem
    exact hnew _ (mem_ids_of_mark hc) (List.mem_append_left _ hmem)
  sameHour _ hv _ hw := h.sameHour_view hl hnew hv hw
  correctsOne _ hv _ hw _ := h.correctsOne_view hl hnew hv hw
  oneLive _ hv _ hw := h.oneLive_view hl hv hw

/-- The identifiers after a commit are those from before and those of the transaction. -/
theorem ObserveTx.OK.tableIDs_view (h : t.OK table) {a : ℕ} (ha : a ∈ tableIDs (t.view table)) :
    a ∈ tableIDs table ∨ a ∈ t.ids := by
  rcases List.mem_append.mp ha with ha | ha
  · obtain ⟨v, hv, rfl⟩ := List.mem_map.mp ha
    rcases mem_view hv with ⟨o, ho, rfl⟩ | hv
    · rw [markAll_id]
      exact .inl (mem_tableIDs_of_row ho)
    · exact .inr (mem_ids_of_inserted hv)
  · obtain ⟨v, hv, hb⟩ := List.mem_filterMap.mp ha
    rcases mem_view hv with ⟨o, ho, rfl⟩ | hv
    · rcases pointer_markAll hb with hb | ⟨c, hc, -, rfl⟩
      · exact .inl (mem_tableIDs_of_pointer ho hb)
      · exact .inr (mem_ids_of_mark hc)
    · rw [h.pointer_none hv] at hb
      cases hb

/-- Another transaction is as it was over the table after a commit. -/
theorem ObserveTx.OK.transfer {u : ObserveTx} (hu : u.OK table) (h : t.OK table) (hl : Linked table)
    (hnew : ∀ a ∈ t.ids, a ∉ tableIDs table) (hapart : u.Apart t) : u.OK (t.view table) := by
  refine ⟨hu.fetched, hu.request, hu.stored, hu.nodup, hu.news, hu.olds, fun c hc => ?_, fun c hc v hv hid => ?_,
    fun n hn v hv hlive hkey => ?_, hu.keys⟩
  · obtain ⟨o, ho, hnames, hkey⟩ := hu.target c hc
    refine ⟨markAll t.marks o, List.mem_append_left _ (List.mem_map_of_mem ho), ⟨?_, ?_⟩, fun n hn hid => ?_⟩
    · rw [markAll_id]
      exact hnames.1
    · rw [markAll_toReading]
      exact hnames.2
    · rw [markAll_hourKey]
      exact hkey n hn hid
  · rcases mem_view hv with ⟨o, ho, rfl⟩ | hv
    · rw [markAll_id] at hid
      refine (h.live_markAll hl.nodup ho).mpr ⟨hu.live c hc o ho hid, fun hmem => ?_⟩
      obtain ⟨d, hd, he⟩ := List.mem_map.mp hmem
      exact hapart.marks c hc d hd (hid.symm.trans he.symm)
    · obtain ⟨o, ho, hnames, -⟩ := hu.target c (List.mem_append_left _ hc)
      refine absurd (mem_tableIDs_of_row ho) ?_
      rw [hnames.1, ← hid]
      exact hnew _ (mem_ids_of_inserted hv)
  · rcases mem_view hv with ⟨o, ho, rfl⟩ | hv
    · rw [markAll_hourKey] at hkey
      rw [markAll_id]
      exact hu.covered n hn o ho ((h.live_markAll hl.nodup ho).mp hlive).1 hkey
    · exact absurd hkey.symm (hapart.keys n hn v hv)

theorem ObserveState.Inv.commit (h : s.Inv) (ht : s.txs i = some t) (hp : t.progress = .decided [] []) :
    { s.set i none with table := t.view s.table : ObserveState }.Inv := by
  have hok := h.ok i t ht
  have hend := h.ended i
  have hnew := h.ids_new i t ht
  have hother : ∀ {j u}, (s.set i none).txs j = some u → u.Apart t ∧ s.txs j = some u := by
    intro j u hu
    rcases txs_set hu with ⟨-, hno⟩ | ⟨hj, hu⟩
    · cases hno
    · exact ⟨h.apart j i u t hu ht hj, hu⟩
  refine ⟨hok.linked_view h.linked hp hnew, fun a ha => ?_, hend.fresh, fun j u hu => ?_, hend.ids_lt,
    fun j u hu a ha hmem => ?_, hend.apart⟩
  · exact (hok.tableIDs_view ha).elim (h.id_lt a) (h.ids_lt i t ht a)
  · obtain ⟨hapart, hu⟩ := hother hu
    exact (h.ok j u hu).transfer hok h.linked hnew hapart
  · obtain ⟨hapart, hu⟩ := hother hu
    exact (hok.tableIDs_view hmem).elim (h.ids_new j u hu a ha) (hapart.ids a ha)

end Commit

/-- Every act keeps the invariant. -/
theorem ObserveState.Inv.step (h : s.Inv) {a : ObserveAct} {s' : ObserveState} (hs : s.step a = some s') : s'.Inv := by
  cases stepped_of_step hs with
  | beginTx source locationID windowStart windowEnd readings =>
    exact h.beginTx source locationID windowStart windowEnd readings
  | read ht hp => exact h.read ht hp
  | supersede ht hp hwait hfound => exact h.supersede ht hp hwait hfound
  | @insert i t o toInsert ht hp hwait =>
    cases hc : conflicts Observation.dedupKey (t.view s.table) o.storedRow with
    | true =>
      simp only [ObserveTx.insert, hc, if_true]
      exact h.skip ht hp
    | false =>
      simp only [ObserveTx.insert, hc, Bool.false_eq_true, if_false]
      exact h.insertRow ht hp hwait hc
  | commit ht hp => exact h.commit ht hp
  | ended ht => exact h.ended _

end Preserved

/-- The invariant holds in every reached state. -/
theorem ObserveState.Reachable.inv {s : ObserveState} (h : s.Reachable) : s.Inv := by
  induction h with
  | init => exact .empty
  | step _ hs ih => exact ih.step hs

/-- What is committed stays. -/
theorem ObserveState.extends_step {s s' : ObserveState} {a : ObserveAct} (hs : s.step a = some s') :
    Extends s.table s'.table := by
  cases stepped_of_step hs with
  | @commit i t ht hp =>
    intro o ho
    refine ⟨markAll t.marks o, List.mem_append_left _ (List.mem_map_of_mem ho), markAll_id _ o, markAll_hourKey _ o,
      fun n hn => ?_⟩
    rw [markAll_of_not_live (by rw [Observation.live, hn]; rfl)]
    exact hn
  | beginTx => exact .refl _
  | read => exact .refl _
  | supersede => exact .refl _
  | insert => exact .refl _
  | ended => exact .refl _

/-- Every committed table has its keys, so `observe` on it is as `Keyed.observe_eq_ok_iff` says. -/
theorem ObserveState.Reachable.keyed {s : ObserveState} (h : s.Reachable) :
    (⟨s.table, s.nextID⟩ : ObservationStore).Keyed :=
  h.inv.linked.keyed fun _ ho => h.inv.id_lt _ (mem_tableIDs_of_row ho)

/-! ### Batches in order -/

/-- No reading at a whole microsecond comes after one with a fraction of the same microsecond. -/
def InOrder (readings : List Reading) : Prop :=
  readings.Pairwise fun r r' => storedTime r.observedAt = r'.observedAt → r.observedAt = r'.observedAt

instance (readings : List Reading) : Decidable (InOrder readings) := inferInstanceAs (Decidable (List.Pairwise _ _))

/-- The batch of the act, if it has one, is in order. -/
def ObserveAct.InOrder : ObserveAct → Prop
  | .beginTx _ _ _ _ readings => Collection.InOrder readings
  | _ => True

/-- What holds of a transaction whose batch is in order: every correction has its row, and a row before
it that is stored under the same key corrects the same row. -/
structure ObserveTx.Lands (t : ObserveTx) : Prop where
  batch : ∀ rows, t.progress = .fetched rows → Collection.InOrder (rows.map Observation.toReading)
  lands : ∀ c ∈ t.corrections, c.newID ∈ t.own.map Observation.id
  hour : t.own.Pairwise fun v n => ∀ c ∈ t.corrections, n.id = c.newID → v.indexKey = n.indexKey →
    ∃ c' ∈ t.corrections, c'.newID = v.id ∧ c'.oldID = c.oldID

section Lands

variable {s : ObserveState} {i : ℕ} {t : ObserveTx} {table : List Observation} {o : Observation}
  {toInsert : List Observation}

/-- Where two rows are stored under one key and the later one makes a correction, they are of one instant. -/
theorem ObserveTx.Lands.decide (h : t.Lands) (hok : t.OK table) (hl : Linked table) {rows : List Observation}
    (hp : t.progress = .fetched rows) : (t.decide table rows).Lands := by
  obtain ⟨existing, hexisting, howned, hcorr⟩ := hok.decided hp
  have hreq := hok.request
  have hnodup := hok.nodup
  rw [hok.own_of_fetched hp] at hreq hnodup
  have horder := h.batch rows hp
  rw [Collection.InOrder, List.pairwise_map] at horder
  refine ⟨(fun _ hp' => nomatch hp'), fun c hc => ?_, ?_⟩
  · rw [hcorr] at hc
    obtain ⟨src, hsrc, hc⟩ := List.mem_filterMap.mp hc
    obtain ⟨prev, -, rfl, hrow⟩ := decision_correction hc
    rw [howned]
    exact List.mem_map.mpr ⟨_, List.mem_filterMap.mpr ⟨src, hsrc, hrow⟩, rfl⟩
  · rw [howned, hcorr, List.pairwise_filterMap]
    refine horder.imp_of_mem fun {src1 src2} hsrc1 hsrc2 hinstant v hv n hn c hc hid hkey => ?_
    obtain ⟨src, hsrc, hc⟩ := List.mem_filterMap.mp hc
    obtain ⟨prev, hprev, rfl, -⟩ := decision_correction hc
    obtain ⟨flag1, rfl⟩ := decision_row hv
    obtain ⟨flag2, rfl⟩ := decision_row hn
    obtain rfl : src2 = src := List.inj_on_of_nodup_map hnodup hsrc2 hsrc hid
    obtain ⟨h1, h2, -⟩ := hreq src2 hsrc2
    obtain ⟨-, hexact, -⟩ := hl.indexKey_of_lastOfHour hexisting h1 h2 hprev
    have hstored : storedTime src1.observedAt = storedTime src2.observedAt := congrArg (fun k => k.2.2) hkey
    rw [← hinstant (hstored.trans hexact)] at hprev
    exact ⟨_, List.mem_filterMap.mpr ⟨src1, hsrc1, correction_of_row hprev hv⟩, rfl, rfl⟩

/-- A write that keeps the corrections and the rows of corrections, and adds no row. -/
theorem ObserveTx.Lands.write (h : t.Lands) {t' : ObserveTx} {cs : List Correction} {rows : List Observation}
    (hp : t'.progress = .decided cs rows) (hcorr : t'.corrections = t.corrections)
    (hsub : (t'.own.map Observation.role).Sublist (t.own.map Observation.role))
    (hforth : ∀ c ∈ t.corrections, ∀ n ∈ t.own, n.id = c.newID → n.role ∈ t'.own.map Observation.role) : t'.Lands := by
  refine ⟨fun _ hp' => ?_, fun c hc => ?_, ?_⟩
  · rw [hp] at hp'
    cases hp'
  · rw [hcorr] at hc
    obtain ⟨n, hn, hid⟩ := List.mem_map.mp (h.lands c hc)
    obtain ⟨n', hn', hrole⟩ := List.mem_map.mp (hforth c hc n hn hid)
    exact List.mem_map.mpr ⟨n', hn', (congrArg Prod.fst hrole).trans hid⟩
  · -- the relation of two rows reads their roles only
    let R : (ℕ × (String × ℕ × ℤ) × Bool) → (ℕ × (String × ℕ × ℤ) × Bool) → Prop := fun v n =>
      ∀ c ∈ t.corrections, n.1 = c.newID → v.2.1 = n.2.1 → ∃ c' ∈ t.corrections, c'.newID = v.1 ∧ c'.oldID = c.oldID
    have hroles : (t.own.map Observation.role).Pairwise R := List.pairwise_map.mpr h.hour
    rw [hcorr]
    exact List.pairwise_map.mp (hroles.sublist hsub)

/-- The row of a correction is never passed over. -/
theorem ObserveTx.OK.not_conflicts (h : t.OK table) (hl : Linked table) (hlands : t.Lands)
    (hp : t.progress = .decided [] (o :: toInsert)) {c : Correction} (hc : c ∈ t.corrections) (hid : o.id = c.newID) :
    conflicts Observation.dedupKey (t.view table) o.storedRow = false := by
  have hown : t.own = t.inserted ++ o :: toInsert := own_of_decided hp
  have hcorr : t.corrections = t.marks := by rw [corrections_of_decided hp, List.append_nil]
  have ho : o ∈ t.own := by simp [hown]
  obtain ⟨o1, ho1, hnames, hkey⟩ := h.target c hc
  have hmark : c ∈ t.marks := by rwa [← hcorr]
  rw [← Bool.not_eq_true, conflicts_dedupKey_iff (show o.storedRow.live = true from (h.request o ho).2.2)]
  rintro ⟨v, hv, hlive, hvkey⟩
  rw [Observation.hourKey_storedRow] at hvkey
  rcases mem_view hv with ⟨o2, ho2, rfl⟩ | hv
  · -- a committed row: the only live one of the hour is the one that is corrected
    obtain ⟨hlive2, hnot⟩ := (h.live_markAll hl.nodup ho2).mp hlive
    rw [markAll_hourKey] at hvkey
    have heq := hl.oneLive o2 ho2 o1 ho1 hlive2 (h.live c hmark o1 ho1 hnames.1) (hvkey.trans (hkey o ho hid).symm)
    exact hnot (List.mem_map.mpr ⟨c, hmark, (heq.trans hnames.1).symm⟩)
  · -- an own row: it would correct the same row
    have hbefore := hlands.hour
    rw [hown, List.pairwise_append] at hbefore
    have hvindex : v.indexKey = o.indexKey := by
      rw [← hvkey, Observation.indexKey, h.stored v hv]
      rfl
    obtain ⟨c', hc', hnew, hold⟩ := hbefore.2.2 v hv o List.mem_cons_self c hc hid hvindex
    rw [hcorr] at hc'
    obtain rfl : c' = c := List.inj_on_of_nodup_map h.olds hc' hmark hold
    have hne := h.nodup
    rw [hown, List.map_append, List.nodup_append] at hne
    exact hne.2.2 v.id (List.mem_map_of_mem hv) o.id (by simp) (hnew.symm.trans hid.symm)

/-- An insert that is passed over: its row is not the row of a correction. -/
theorem ObserveTx.Lands.skip (h : t.Lands) (hok : t.OK table) (hl : Linked table)
    (hp : t.progress = .decided [] (o :: toInsert))
    (hc : conflicts Observation.dedupKey (t.view table) o.storedRow = true) :
    ({ t with progress := .decided [] toInsert } : ObserveTx).Lands := by
  obtain ⟨hcorr, hsub⟩ := skip_same hp
  refine h.write rfl hcorr hsub fun c hcm n hn hid => List.mem_map_of_mem ?_
  rw [own_of_decided hp] at hn
  rcases List.mem_append.mp hn with hn | hn
  · exact List.mem_append_left _ hn
  · rcases List.mem_cons.mp hn with rfl | hn
    · rw [hok.not_conflicts hl h hp hcm hid] at hc
      cases hc
    · exact List.mem_append_right _ hn

/-- Every pointer names a row, and all running transactions have batches in order. -/
structure ObserveState.Complete (s : ObserveState) : Prop where
  named : Chain.Named Observation.id Observation.supersededObservationID s.table
  lands : ∀ i t, s.txs i = some t → t.Lands

theorem ObserveState.Complete.set (h : s.Complete) {t' : Option ObserveTx} (ht' : ∀ t, t' = some t → t.Lands) :
    (s.set i t').Complete where
  named := h.named
  lands j u hu := by
    rcases txs_set hu with ⟨-, he⟩ | ⟨-, hu⟩
    · exact ht' u he
    · exact h.lands j u hu

/-- A commit leaves every pointer with its row. -/
theorem ObserveTx.Lands.named_view (h : t.Lands) (hok : t.OK table) (hp : t.progress = .decided [] [])
    (hnamed : Chain.Named Observation.id Observation.supersededObservationID table) :
    Chain.Named Observation.id Observation.supersededObservationID (t.view table) := by
  intro v hv b hb
  rw [view, List.map_append, List.mem_append]
  rcases mem_view hv with ⟨o, ho, rfl⟩ | hv
  · rcases pointer_markAll hb with hb | ⟨c, hc, -, rfl⟩
    · obtain ⟨r, hr, rfl⟩ := List.mem_map.mp (hnamed o ho b hb)
      exact .inl (List.mem_map.mpr ⟨_, List.mem_map_of_mem hr, markAll_id _ r⟩)
    · have hland := h.lands c (List.mem_append_left _ hc)
      rw [own_of_done hp] at hland
      exact .inr hland
  · rw [hok.pointer_none hv] at hb
    cases hb

/-- Every act with a batch in order keeps the pointers named. -/
theorem ObserveState.Complete.step (h : s.Complete) (hinv : s.Inv) {a : ObserveAct} (ha : a.InOrder)
    {s' : ObserveState} (hs : s.step a = some s') : s'.Complete := by
  cases stepped_of_step hs with
  | beginTx source locationID windowStart windowEnd readings =>
    have hrows : (fetchedRows s.nextID locationID source readings).map Observation.toReading = readings :=
      ObservationStore.map_toReading_fetched ⟨s.table, s.nextID⟩ ⟨source, locationID, windowStart, windowEnd⟩ readings
    refine ⟨h.named, fun j u hu => ?_⟩
    rcases txs_set hu with ⟨-, he⟩ | ⟨-, hu⟩
    · cases he
      refine ⟨fun rows hp => ?_, fun c hc => absurd hc List.not_mem_nil, ?_⟩
      · cases hp
        rw [hrows]
        exact ha
      · exact List.pairwise_of_forall fun _ _ c hc => absurd hc List.not_mem_nil
    · exact h.lands j u hu
  | read ht hp =>
    exact h.set fun t' ht' => by
      cases ht'
      exact (h.lands _ _ ht).decide (hinv.ok _ _ ht) hinv.linked hp
  | supersede ht hp =>
    obtain ⟨hcorr, hown⟩ := ObserveTx.supersede_same hp
    exact h.set fun t' ht' => by
      cases ht'
      exact (h.lands _ _ ht).write rfl hcorr (by rw [hown]) fun c _ n hn _ => by
        rw [hown]
        exact List.mem_map_of_mem hn
  | @insert i t o toInsert ht hp hwait =>
    refine h.set fun t' ht' => ?_
    cases ht'
    cases hc : conflicts Observation.dedupKey (t.view s.table) o.storedRow with
    | true =>
      simp only [ObserveTx.insert, hc, if_true]
      exact (h.lands i t ht).skip (hinv.ok i t ht) hinv.linked hp hc
    | false =>
      obtain ⟨hcorr, hroles⟩ := ObserveTx.insertRow_same hp
      simp only [ObserveTx.insert, hc, Bool.false_eq_true, if_false]
      exact (h.lands i t ht).write rfl hcorr (by rw [hroles]) fun c _ n hn _ => by
        rw [hroles]
        exact List.mem_map_of_mem hn
  | @commit i t ht hp =>
    have hended : (s.set i none).Complete := h.set fun _ ht' => by cases ht'
    exact ⟨(h.lands i t ht).named_view (hinv.ok i t ht) hp h.named, hended.lands⟩
  | ended ht => exact h.set fun _ ht' => by cases ht'

end Lands

theorem ObserveState.complete_run {acts : List ObserveAct} {s : ObserveState} (h : ObserveState.empty.run acts = some s)
    (horder : ∀ a ∈ acts, a.InOrder) : s.Complete := by
  have hempty : ObserveState.empty.Complete := ⟨by simp [Chain.Named, ObserveState.empty], by simp [ObserveState.empty]⟩
  rw [ObserveState.run, foldlM_eq_runFrom] at h
  refine (runFrom_invariant_of_along (P := fun s => s.Inv ∧ s.Complete) (C := fun _ a => a.InOrder)
    (fun s a t hs ha ht => ?_) ⟨.empty, hempty⟩ (along_of_forall_mem horder _) h).2
  exact ⟨hs.1.step ht, hs.2.step hs.1 ha ht⟩

/-- **Whatever the interleaving, the committed table has one live row at most for each source,
location and hour, and its pointers never form a cycle. When every batch is in order, a row that was
superseded names a row of the same source, location and hour, and following the pointers ends in a
live row.** -/
theorem committed_observations_linked {acts : List ObserveAct} {s : ObserveState}
    (h : ObserveState.empty.run acts = some s) :
    (∀ o ∈ s.table, ∀ o' ∈ s.table, o.live = true → o'.live = true → o.source = o'.source →
        o.locationID = o'.locationID → o.observedAt = o'.observedAt → o = o') ∧
      (∀ a, ¬ Relation.TransGen (SupersededBy s.table) a a) ∧
      ((∀ a ∈ acts, a.InOrder) →
        (∀ o ∈ s.table, ∀ n, o.supersededObservationID = some n →
          ∃ o' ∈ s.table, o'.id = n ∧ o'.source = o.source ∧ o'.locationID = o.locationID ∧
            o'.observedAt = o.observedAt) ∧
        ∀ o ∈ s.table, ∃ e ∈ s.table, e.live = true ∧ Relation.ReflTransGen (SupersededBy s.table) o.id e.id) := by
  have hl := (ObserveState.Reachable.init.run h).inv.linked
  refine ⟨fun o ho o' ho' hlive hlive' h1 h2 h3 => ?_, hl.forward.acyclic, fun horder => ?_⟩
  · have hkey : o.hourKey = o'.hourKey := by simp only [Observation.hourKey, h1, h2, h3]
    exact List.inj_on_of_nodup_map hl.nodup ho ho' (hl.oneLive o ho o' ho' hlive hlive' hkey)
  have hnamed := (ObserveState.complete_run h horder).named
  refine ⟨fun o ho n hn => ?_, fun o ho => ?_⟩
  · obtain ⟨o', ho', rfl⟩ := List.mem_map.mp (hnamed o ho n hn)
    have hkey := hl.sameHour o ho o' ho' hn
    simp only [Observation.hourKey, Prod.mk.injEq] at hkey
    exact ⟨o', ho', rfl, hkey⟩
  · obtain ⟨e, he, hend, hreach⟩ := hl.forward.exists_end hnamed ho
    exact ⟨e, he, by rw [Observation.live, hend]; rfl, hreach⟩

/-- A reading of the hour `0`. -/
def readingOf (temperatureC : ℚ) : Reading :=
  ⟨.reanalysis, 0, some temperatureC, none, none, none, none, none, none, .valid⟩

/-- A row is stored; then two transactions correct it at once. The second one waits for the first
one, finds the row superseded, and fails. -/
def twoCorrections : List ObserveAct :=
  [.beginTx "openmeteo_historical" 1 0 hour [readingOf 20], .read 0, .insert 0, .commit 0,
    .beginTx "openmeteo_historical" 1 0 hour [readingOf 21], .beginTx "openmeteo_historical" 1 0 hour [readingOf 22],
    .read 1, .read 2, .supersede 1, .insert 1, .commit 1, .supersede 2]

theorem twoCorrections_linked :
    ∃ s : ObserveState, ObserveState.empty.run twoCorrections = some s ∧
      s.table.map (fun o => (o.id, o.supersededObservationID)) = [(0, some 1), (1, none)] ∧
      (∀ a, ¬ Relation.TransGen (SupersededBy s.table) a a) ∧
      ∀ o ∈ s.table, ∃ e ∈ s.table, e.live = true ∧ Relation.ReflTransGen (SupersededBy s.table) o.id e.id := by
  have hrun : (ObserveState.empty.run twoCorrections).map
      (fun s => s.table.map fun o => (o.id, o.supersededObservationID)) = some [(0, some 1), (1, none)] := by
    decide +kernel
  obtain ⟨s, hs, htable⟩ := Option.map_eq_some_iff.mp hrun
  have horder : ∀ a ∈ twoCorrections, a.InOrder := by
    simp [twoCorrections, ObserveAct.InOrder, InOrder]
  obtain ⟨-, hacyclic, hlinks⟩ := committed_observations_linked hs
  exact ⟨s, hs, htable, hacyclic, (hlinks horder).2⟩

/-- An answer with two texts for one hour, of which the first has a fraction below the microsecond. -/
def crossedAnswer (_ : List UInt8) : Except String Historical.HistoricalResponse :=
  .ok ⟨some ⟨["1970-01-01T00:00:00.0000004Z", "1970-01-01T00:00"], [some 25, some 22], [], [], [], [], [], []⟩⟩

/-- What the adapter makes of it. -/
def crossedReadings : List Reading := [{ readingOf 25 with observedAt := 400 }, readingOf 22]

/-- A row is stored for the hour; then the two readings are fetched for it. -/
def crossedMicrosecond : List ObserveAct :=
  [.beginTx "openmeteo_historical" 1 0 hour [readingOf 20], .read 0, .insert 0, .commit 0,
    .beginTx "openmeteo_historical" 1 0 hour crossedReadings, .read 1, .supersede 1, .insert 1, .insert 1, .commit 1]

/-- The second reading corrects the row, the first one takes its place, and the row points to the
second one, which is not stored. -/
theorem crossedMicrosecond_dangles :
    (Historical.fetchObservations .reanalysis crossedAnswer hour (.ok [])).fetched = some crossedReadings ∧
      ∃ s : ObserveState, ObserveState.empty.run crossedMicrosecond = some s ∧
        s.table.map (fun o => (o.id, o.observedAt, o.temperatureC, o.supersededObservationID)) =
          [(0, 0, some 20, some 2), (1, 0, some 25, none)] := by
  have hrun : (ObserveState.empty.run crossedMicrosecond).map
      (fun s => s.table.map fun o => (o.id, o.observedAt, o.temperatureC, o.supersededObservationID)) =
        some [(0, 0, some 20, some 2), (1, 0, some 25, none)] := by
    decide +kernel
  obtain ⟨s, hs, htable⟩ := Option.map_eq_some_iff.mp hrun
  exact ⟨by decide +kernel, s, hs, htable⟩

end ForecastIQ.Collection
