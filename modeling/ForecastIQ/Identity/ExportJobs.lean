import ForecastIQ.Foundations.Table
import ForecastIQ.Foundations.UnitOfWork
import ForecastIQ.Identity.ExportDocument

/-!
# Export jobs

`RequestExport` inserts a pending job, assembles the document, writes it to the file store and marks
the job completed; a failure on the way marks it failed. The partial unique index lets a user have one
pending job, so a request during another one is refused.

Every call of `RequestExport` to the database or the file store is an `ExportStep`, and `Faults` says
which of them fail, by themselves or because the context of the request is cancelled. The cleanup runs
in that same context. `requestExport_spec` gives the job that a request leaves behind for all faults;
`left_settled_iff` reads off when an error leaves it pending, and `pending_blocks` what that means for
the user: no later request is served.

Jobs that completed can be downloaded for a day, whatever is requested after them
(`download_exported`). Identifiers are drawn anew for each request (`Fresh`). Requests are modelled one
after another, and the deletion of users is left out.
-/

namespace ForecastIQ.Identity

open ForecastIQ.Foundations ForecastIQ.Foundations.FormEncoding ForecastIQ.Api

/-! ### Jobs -/

/-- `export_jobs.status`. -/
inductive ExportStatus where
  | pending | completed | failed
  deriving DecidableEq

/-- `ExportJob`; no object key is the empty one. -/
structure ExportJob where
  id : ℕ
  workspaceID : ℕ
  requestedBy : ℕ
  targetUserID : Option ℕ
  status : ExportStatus
  objectKey : Bytes
  expiresAt : Option ℤ
  completedAt : Option ℤ
  errorMessage : String
  createdAt : ℤ
  deriving DecidableEq

/-- `Expired`. -/
def ExportJob.expired (j : ExportJob) (now : ℤ) : Bool := j.expiresAt.any fun at' => !(now < at')

/-- The row of a job. -/
def ExportJob.stored (j : ExportJob) : ExportJob :=
  { j with
    expiresAt := j.expiresAt.map storedTime, completedAt := j.completedAt.map storedTime,
    createdAt := storedTime j.createdAt }

/-- `export_jobs_one_active_per_user`. -/
def ExportJob.activeIndex (j : ExportJob) : Option ℕ := if j.status = .pending then j.targetUserID else none

/-- `exportTTL`. -/
def exportTTL : ℤ := 24 * hour

/-- `exportKeyFor`. -/
def exportKeyFor (targetID jobID : ℕ) : Bytes :=
  ascii "file://exports/" ++ UUID.text targetID ++ ascii "/" ++ UUID.text jobID ++ ascii ".json.gz"

/-- The calls of `RequestExport`. -/
inductive ExportStep where
  | getUser
  | beginInsert | insertJob | recordRequested | commitInsert
  | listKeys | listEvents | marshal | writeFile
  | beginComplete | completeJob | recordCompleted | commitComplete
  | beginFail | failJob | commitFail
  deriving DecidableEq

/-- The calls in the order they are made; the encoder and the file store do not look at the context. -/
def exportOrder : CallOrder ExportStep where
  position
    | .getUser => 0
    | .beginInsert => 1
    | .insertJob => 2
    | .recordRequested => 3
    | .commitInsert => 4
    | .listKeys => 5
    | .listEvents => 6
    | .marshal => 7
    | .writeFile => 8
    | .beginComplete => 9
    | .completeJob => 10
    | .recordCompleted => 11
    | .commitComplete => 12
    | .beginFail => 13
    | .failJob => 14
    | .commitFail => 15
  heeds
    | .marshal | .writeFile => false
    | _ => true

/-- The calls of the generation: assembly, file and completion. -/
def ExportStep.generates : ExportStep → Bool
  | .listKeys | .listEvents | .marshal | .writeFile => true
  | .beginComplete | .completeJob | .recordCompleted | .commitComplete => true
  | _ => false

/-- What requests and downloads fail with. -/
inductive ExportError where
  | userNotFound | exportInProgress | exportNotFound | exportExpired | fileNotFound
  /-- The call failed. -/
  | failed (call : ExportStep)
  /-- `generate export: …`. -/
  | generation (cause : ExportError)
  deriving DecidableEq

/-! ### The database -/

/-- The tables of an export. -/
structure ExportDB where
  users : List UserRow
  keys : List APIKeyRow
  events : List RecordedEvent
  jobs : List ExportJob
  deriving DecidableEq

namespace ExportDB

variable (db : ExportDB)

/-- `GetByID` of the users. -/
def getUser (id : ℕ) : Option UserRow := db.users.find? fun u => u.id = id

/-- `GetByID` of the jobs. -/
def getJob (id : ℕ) : Option ExportJob := db.jobs.find? fun j => j.id = id

/-- `Insert`: every unique violation is an export in progress; the users must exist. -/
def insertJob (j : ExportJob) : Except ExportError ExportDB :=
  if conflicts (fun j => some j.id) db.jobs j || conflicts ExportJob.activeIndex db.jobs j then
    .error .exportInProgress
  else if (db.getUser j.requestedBy).isSome && j.targetUserID.all fun id => (db.getUser id).isSome then
    .ok { db with jobs := db.jobs ++ [j.stored] }
  else .error (.failed .insertJob)

/-- A statement on the job with the identifier. -/
def updateJob (id : ℕ) (f : ExportJob → ExportJob) : ExportDB :=
  { db with jobs := db.jobs.map fun j => if j.id = id then f j else j }

/-- `Complete`. -/
def completeJob (id : ℕ) (objectKey : Bytes) (expiresAt completedAt : ℤ) : ExportDB :=
  db.updateJob id fun j => { j with
    status := .completed, objectKey := objectKey, expiresAt := some (storedTime expiresAt),
    completedAt := some (storedTime completedAt) }

/-- `Fail`. -/
def failJob (id : ℕ) (msg : String) : ExportDB :=
  db.updateJob id fun j => { j with status := .failed, errorMessage := msg }

/-- `Record`: the identifier must be new and the user must exist. -/
def record (e : RecordedEvent) (call : ExportStep) : Except ExportError ExportDB :=
  if (db.events.any fun o => o.id = e.id) || !(e.userID.all fun id => (db.getUser id).isSome) then
    .error (.failed call)
  else .ok { db with events := db.events ++ [e.stored] }

theorem record_of_new {e : RecordedEvent} (hnew : ∀ o ∈ db.events, o.id ≠ e.id)
    (huser : e.userID.all (fun id => (db.getUser id).isSome) = true) (call : ExportStep) :
    db.record e call = .ok { db with events := db.events ++ [e.stored] } := by
  have hany : (db.events.any fun o => o.id = e.id) = false := by simpa using hnew
  rw [record, hany, huser]
  rfl

variable {db} in
/-- A statement on the last job of the table. -/
theorem updateJob_concat {jobs : List ExportJob} {j : ExportJob} (hdb : db.jobs = jobs ++ [j])
    (hnew : ∀ k ∈ jobs, k.id ≠ j.id) (f : ExportJob → ExportJob) : (db.updateJob j.id f).jobs = jobs ++ [f j] := by
  have hold : (jobs.map fun k => if k.id = j.id then f k else k) = jobs := by
    calc (jobs.map fun k => if k.id = j.id then f k else k)
      _ = jobs.map id := List.map_congr_left fun k hk => if_neg (hnew k hk)
      _ = jobs := List.map_id jobs
  simp only [updateJob, hdb, List.map_append, hold, List.map_cons, List.map_nil, if_true]

variable {db} in
theorem getJob_concat {jobs : List ExportJob} {j : ExportJob} (hdb : db.jobs = jobs ++ [j])
    (hnew : ∀ k ∈ jobs, k.id ≠ j.id) : db.getJob j.id = some j := by
  have hold : jobs.find? (fun k => k.id = j.id) = none := by simpa using hnew
  rw [getJob, hdb, List.find?_append, hold]
  simp

variable {db} in
/-- A job that is there stays the one with its identifier. -/
theorem getJob_append {db' : ExportDB} {added : List ExportJob} (hdb : db'.jobs = db.jobs ++ added) {id : ℕ}
    {j : ExportJob} (h : db.getJob id = some j) : db'.getJob id = some j := by
  rw [getJob, hdb, List.find?_append, ← getJob, h]
  rfl

end ExportDB

/-! ### Requests -/

/-- A call of `RequestExport`, with the identifiers it draws, the times it reads and the faults it meets. -/
structure ExportRequest where
  actor : Principal
  targetID : ℕ
  ip : String
  jobID : ℕ
  requestedEventID : ℕ
  completedEventID : ℕ
  now : ℤ
  exportedAt : ℤ
  completedAt : ℤ
  faults : Faults ExportStep

/-- The database and the files, the last written first. -/
structure ExportState where
  db : ExportDB
  files : List (Bytes × ExportDoc)

namespace ExportRequest

variable (workspaceID : ℕ) (r : ExportRequest)

/-- How the call ends. -/
def outcome (call : ExportStep) : CallOutcome := r.faults.outcome exportOrder call

/-- The job that is inserted. -/
def job : ExportJob :=
  ⟨r.jobID, workspaceID, r.actor.userID, some r.targetID, .pending, [], none, none, "", r.now⟩

def objectKey : Bytes := exportKeyFor r.targetID r.jobID

/-- The job that is returned. -/
def completedJob : ExportJob :=
  { r.job workspaceID with
    status := .completed, objectKey := r.objectKey, expiresAt := some (r.completedAt + exportTTL),
    completedAt := some r.completedAt }

/-- The details of the audit events, as the text of the object. -/
def details : String :=
  "\x7b\"target_user_id\":\"" ++ String.ofList ((UUID.text r.targetID).map fun b => Char.ofNat b.toNat) ++ "\"\x7d"

/-- The event of the request. -/
def requestedEvent : RecordedEvent :=
  ⟨r.requestedEventID, some r.actor.userID,
    if r.targetID = r.actor.userID then ascii "user.export_requested" else ascii "admin.export_requested",
    ascii "export_job", some r.jobID, r.details, r.ip, r.now⟩

/-- The event of the completion. -/
def completedEvent : RecordedEvent :=
  ⟨r.completedEventID, some r.actor.userID, ascii "user.export_completed", ascii "export_job", some r.jobID,
    r.details, r.ip, r.completedAt⟩

/-- The first transaction. -/
def insertUnit (db : ExportDB) : Except ExportError ExportDB :=
  match attempt (r.outcome .insertJob) (.failed .insertJob) (db.insertJob (r.job workspaceID)) with
  | .error e => .error e
  | .ok db =>
    attempt (r.outcome .recordRequested) (.failed .recordRequested) (db.record r.requestedEvent .recordRequested)

/-- The transaction of the completion. -/
def completeUnit (db : ExportDB) : Except ExportError ExportDB :=
  match attempt (r.outcome .completeJob) (.failed .completeJob)
      (.ok (db.completeJob r.jobID r.objectKey (r.completedAt + exportTTL) r.completedAt)) with
  | .error e => .error e
  | .ok db =>
    attempt (r.outcome .recordCompleted) (.failed .recordCompleted) (db.record r.completedEvent .recordCompleted)

/-- The transaction of the cleanup. -/
def failUnit (db : ExportDB) : Except ExportError ExportDB :=
  attempt (r.outcome .failJob) (.failed .failJob) (.ok (db.failJob r.jobID "export generation failed"))

/-- `assemble`, with its calls. -/
def assembled (db : ExportDB) (target : UserRow) : Except ExportError ExportDoc :=
  attempt (r.outcome .listKeys) (.failed .listKeys) <|
    attempt (r.outcome .listEvents) (.failed .listEvents) <|
      attempt (r.outcome .marshal) (.failed .marshal) (.ok (assemble db.keys db.events r.exportedAt target))

/-- The file store: a file is written as a whole or not at all. -/
def writeFile (files : List (Bytes × ExportDoc)) (doc : ExportDoc) :
    List (Bytes × ExportDoc) × Except ExportError Unit :=
  match r.outcome .writeFile with
  | .done => ((r.objectKey, doc) :: files, .ok ())
  | .refused => (files, .error (.failed .writeFile))
  | .unanswered => ((r.objectKey, doc) :: files, .error (.failed .writeFile))

/-- The generation, from the inserted job on. -/
def generate (target : UserRow) (s : ExportState) : ExportState × Except ExportError ExportJob :=
  match r.assembled s.db target with
  | .error e => (s, .error e)
  | .ok doc =>
    let written := r.writeFile s.files doc
    match written.2 with
    | .error e => (⟨s.db, written.1⟩, .error e)
    | .ok () =>
      let completed := unitOfWork (r.outcome .beginComplete) (r.outcome .commitComplete) (.failed .beginComplete)
        (.failed .commitComplete) r.completeUnit s.db
      (⟨completed.1, written.1⟩, completed.2.map fun _ => r.completedJob workspaceID)

end ExportRequest

/-- `RequestExport`. -/
def requestExport (workspaceID : ℕ) (r : ExportRequest) (s : ExportState) :
    ExportState × Except ExportError ExportJob :=
  match attempt (r.outcome .getUser) (.failed .getUser)
      (match s.db.getUser r.targetID with
        | none => .error .userNotFound
        | some target => .ok target) with
  | .error e => (s, .error e)
  | .ok target =>
    let inserted := unitOfWork (r.outcome .beginInsert) (r.outcome .commitInsert) (.failed .beginInsert)
      (.failed .commitInsert) (r.insertUnit workspaceID) s.db
    match inserted.2 with
    | .error e => ({ s with db := inserted.1 }, .error e)
    | .ok () =>
      let generated := r.generate workspaceID target { s with db := inserted.1 }
      match generated.2 with
      | .ok job => (generated.1, .ok job)
      | .error e =>
        let failed := unitOfWork (r.outcome .beginFail) (r.outcome .commitFail) (.failed .beginFail)
          (.failed .commitFail) r.failUnit generated.1.db
        ({ generated.1 with db := failed.1 }, .error (.generation e))

/-- `DownloadExport`. -/
def downloadExport (actor : Principal) (jobID : ℕ) (now : ℤ) (s : ExportState) : Except ExportError ExportDoc :=
  match s.db.getJob jobID with
  | none => .error .exportNotFound
  | some job =>
    if !(job.requestedBy = actor.userID || job.targetUserID = some actor.userID || actor.role = .admin) then
      .error .exportNotFound
    else if job.status ≠ .completed ∨ job.objectKey = [] then .error .exportNotFound
    else if job.expired now then .error .exportExpired
    else
      match s.files.lookup job.objectKey with
      | none => .error .fileNotFound
      | some doc => .ok doc

/-! ### What a request leaves behind -/

namespace ExportRequest

variable (workspaceID : ℕ) (r : ExportRequest)

/-- The generation goes well up to the last commit. -/
def Generates : Prop := ∀ call : ExportStep, call.generates = true → call ≠ .commitComplete → r.outcome call = .done

/-- The commit of the cleanup takes effect. -/
def CleansUp : Prop := r.outcome .beginFail = .done ∧ r.outcome .failJob = .done ∧ r.outcome .commitFail ≠ .refused

/-- Identifiers that no row has. -/
structure Fresh (db : ExportDB) : Prop where
  job : ∀ j ∈ db.jobs, j.id ≠ r.jobID
  requested : ∀ e ∈ db.events, e.id ≠ r.requestedEventID
  completed : ∀ e ∈ db.events, e.id ≠ r.completedEventID
  ne : r.requestedEventID ≠ r.completedEventID
  lt : r.jobID < 2 ^ 128

theorem generates_iff :
    r.Generates ↔ r.outcome .listKeys = .done ∧ r.outcome .listEvents = .done ∧ r.outcome .marshal = .done ∧
      r.outcome .writeFile = .done ∧ r.outcome .beginComplete = .done ∧ r.outcome .completeJob = .done ∧
      r.outcome .recordCompleted = .done := by
  constructor
  · intro h
    exact ⟨h _ rfl nofun, h _ rfl nofun, h _ rfl nofun, h _ rfl nofun, h _ rfl nofun, h _ rfl nofun, h _ rfl nofun⟩
  · rintro ⟨hkeys, hevents, hmarshal, hwrite, hbegin, hcomplete, hrecord⟩ call hcall hne
    cases call <;> first | assumption | exact absurd rfl hne | cases hcall

instance : Decidable r.Generates := decidable_of_iff _ (generates_iff r).symm

instance : Decidable r.CleansUp := inferInstanceAs (Decidable (_ ∧ _))

instance (db : ExportDB) : Decidable (r.Fresh db) :=
  decidable_of_iff ((∀ j ∈ db.jobs, j.id ≠ r.jobID) ∧ (∀ e ∈ db.events, e.id ≠ r.requestedEventID) ∧
      (∀ e ∈ db.events, e.id ≠ r.completedEventID) ∧ r.requestedEventID ≠ r.completedEventID ∧ r.jobID < 2 ^ 128)
    ⟨fun ⟨hj, hr, hc, hne, hlt⟩ => ⟨hj, hr, hc, hne, hlt⟩, fun ⟨hj, hr, hc, hne, hlt⟩ => ⟨hj, hr, hc, hne, hlt⟩⟩

/-- The status of the job, once it is in the table. -/
def leaves : ExportStatus :=
  if r.outcome .commitInsert ≠ .done then .pending
  else if r.Generates ∧ r.outcome .commitComplete = .done then .completed
  else if r.CleansUp then .failed
  else if r.Generates ∧ r.outcome .commitComplete = .unanswered then .completed
  else .pending

/-- The status when the generation has not gone well. -/
theorem leaves_of_not (hcommit : r.outcome .commitInsert = .done)
    (hnot : ¬ (r.Generates ∧ r.outcome .commitComplete = .done)) :
    r.leaves = if r.CleansUp then .failed
      else if r.Generates ∧ r.outcome .commitComplete = .unanswered then .completed
      else .pending := by
  rw [leaves, if_neg (not_not.mpr hcommit), if_neg hnot]

variable {workspaceID r} {db t : ExportDB}

/-- What the first transaction does when it goes well. -/
structure Inserted (workspaceID : ℕ) (r : ExportRequest) (db t : ExportDB) : Prop where
  eq : t = { db with jobs := db.jobs ++ [(r.job workspaceID).stored], events := db.events ++ [r.requestedEvent.stored] }
  free : conflicts ExportJob.activeIndex db.jobs (r.job workspaceID) = false
  actor : (db.getUser r.actor.userID).isSome = true

theorem inserted_of_insertUnit (h : r.insertUnit workspaceID db = .ok t) : Inserted workspaceID r db t := by
  unfold insertUnit at h
  split at h
  · cases h
  · rename_i db' hinsert
    obtain ⟨-, hjob⟩ := attempt_eq_ok_iff.mp hinsert
    obtain ⟨-, hevent⟩ := attempt_eq_ok_iff.mp h
    unfold ExportDB.insertJob at hjob
    split_ifs at hjob with hconflict husers
    cases hjob
    unfold ExportDB.record at hevent
    split_ifs at hevent
    cases hevent
    simp only [Bool.or_eq_true, not_or, Bool.not_eq_true] at hconflict
    rw [Bool.and_eq_true] at husers
    exact ⟨rfl, hconflict.2, husers.1⟩

/-- The completion goes well when its calls do. -/
theorem completeUnit_eq_ok_iff (hactor : (db.getUser r.actor.userID).isSome = true)
    (hnew : ∀ e ∈ db.events, e.id ≠ r.completedEventID) :
    r.completeUnit db = .ok t ↔ r.outcome .completeJob = .done ∧ r.outcome .recordCompleted = .done ∧
      t = { db.completeJob r.jobID r.objectKey (r.completedAt + exportTTL) r.completedAt with
        events := db.events ++ [r.completedEvent.stored] } := by
  have hrecord := (db.completeJob r.jobID r.objectKey (r.completedAt + exportTTL) r.completedAt).record_of_new
    (e := r.completedEvent) hnew hactor .recordCompleted
  unfold completeUnit attempt
  by_cases hcomplete : r.outcome .completeJob = .done
  · simp only [hcomplete, if_true, true_and, hrecord]
    by_cases hdone : r.outcome .recordCompleted = .done
    · simp only [hdone, if_true, true_and, Except.ok.injEq]
      exact eq_comm
    · simp [hdone]
  · simp [hcomplete]

/-- What the generation leaves of the job behind the others: it completes the job, completes it without
knowing, or leaves it as it is. -/
inductive Generated (workspaceID : ℕ) (r : ExportRequest) (jobs : List ExportJob)
    (written : List (Bytes × ExportDoc)) : ExportState → Except ExportError ExportJob → Prop where
  | completed {t : ExportDB} (hgen : r.Generates) (hcommit : r.outcome .commitComplete = .done)
      (hjobs : t.jobs = jobs ++ [(r.completedJob workspaceID).stored]) :
      Generated workspaceID r jobs written ⟨t, written⟩ (.ok (r.completedJob workspaceID))
  | lost {s : ExportState} {e : ExportError} (hgen : r.Generates) (hcommit : r.outcome .commitComplete = .unanswered)
      (hjobs : s.db.jobs = jobs ++ [(r.completedJob workspaceID).stored]) :
      Generated workspaceID r jobs written s (.error e)
  | broken {s : ExportState} {e : ExportError} (h : ¬ (r.Generates ∧ r.outcome .commitComplete ≠ .refused))
      (hjobs : s.db.jobs = jobs ++ [(r.job workspaceID).stored]) : Generated workspaceID r jobs written s (.error e)

theorem generated_generate {jobs : List ExportJob} (hjobs : db.jobs = jobs ++ [(r.job workspaceID).stored])
    (hnew : ∀ k ∈ jobs, k.id ≠ r.jobID) (hactor : (db.getUser r.actor.userID).isSome = true)
    (hevents : ∀ e ∈ db.events, e.id ≠ r.completedEventID) (target : UserRow) (files : List (Bytes × ExportDoc)) :
    Generated workspaceID r jobs ((r.objectKey, assemble db.keys db.events r.exportedAt target) :: files)
      (r.generate workspaceID target ⟨db, files⟩).1 (r.generate workspaceID target ⟨db, files⟩).2 := by
  have hgen := generates_iff r
  have hcompleted : (db.completeJob r.jobID r.objectKey (r.completedAt + exportTTL) r.completedAt).jobs =
      jobs ++ [(r.completedJob workspaceID).stored] := ExportDB.updateJob_concat hjobs hnew _
  unfold generate assembled attempt
  by_cases hassemble : r.outcome .listKeys = .done ∧ r.outcome .listEvents = .done ∧ r.outcome .marshal = .done
  · simp only [hassemble.1, hassemble.2.1, hassemble.2.2, if_true]
    unfold writeFile
    cases hwrite : r.outcome .writeFile with
    | done =>
      simp only
      rcases unitOfWork_cases (r.outcome .beginComplete) (r.outcome .commitComplete)
          (ExportError.failed .beginComplete) (.failed .commitComplete) r.completeUnit db with
        ⟨⟨e, hunit⟩, hnot⟩ | ⟨t, hbegin, hbody, hcommit⟩
      · simp only [hunit]
        refine .broken (fun h => hnot ?_) hjobs
        obtain ⟨-, -, -, -, hbegin, hcomplete, hrecord⟩ := hgen.mp h.1
        exact ⟨hbegin, ⟨_, (completeUnit_eq_ok_iff hactor hevents).mpr ⟨hcomplete, hrecord, rfl⟩⟩, h.2⟩
      · obtain ⟨hcomplete, hrecord, rfl⟩ := (completeUnit_eq_ok_iff hactor hevents).mp hbody
        have hall : r.Generates :=
          hgen.mpr ⟨hassemble.1, hassemble.2.1, hassemble.2.2, hwrite, hbegin, hcomplete, hrecord⟩
        rcases hcommit with ⟨hcommit, hunit⟩ | ⟨hcommit, hunit⟩ <;> simp only [hunit]
        · exact .completed hall hcommit hcompleted
        · exact .lost hall hcommit hcompleted
    | refused => exact .broken (fun h => by simpa [hwrite] using (hgen.mp h.1).2.2.2.1) hjobs
    | unanswered => exact .broken (fun h => by simpa [hwrite] using (hgen.mp h.1).2.2.2.1) hjobs
  · have hbroken : ¬ (r.Generates ∧ r.outcome .commitComplete ≠ .refused) := fun h =>
      hassemble ⟨(hgen.mp h.1).1, (hgen.mp h.1).2.1, (hgen.mp h.1).2.2.1⟩
    split_ifs
    · exact absurd ⟨‹_›, ‹_›, ‹_›⟩ hassemble
    · exact .broken hbroken hjobs
    · exact .broken hbroken hjobs
    · exact .broken hbroken hjobs

/-- The cleanup. -/
theorem cleanup_jobs {jobs : List ExportJob} {j : ExportJob} (hjobs : db.jobs = jobs ++ [j]) (hid : j.id = r.jobID)
    (hnew : ∀ k ∈ jobs, k.id ≠ r.jobID) :
    (unitOfWork (r.outcome .beginFail) (r.outcome .commitFail) (ExportError.failed .beginFail) (.failed .commitFail)
        r.failUnit db).1.jobs =
      jobs ++ [if r.CleansUp then { j with status := .failed, errorMessage := "export generation failed" } else j] := by
  have hfail : (db.failJob r.jobID "export generation failed").jobs =
      jobs ++ [{ j with status := .failed, errorMessage := "export generation failed" }] := by
    rw [← hid] at hnew ⊢
    exact ExportDB.updateJob_concat hjobs hnew _
  rcases unitOfWork_cases (r.outcome .beginFail) (r.outcome .commitFail) (ExportError.failed .beginFail)
      (.failed .commitFail) r.failUnit db with ⟨⟨e, hunit⟩, hnot⟩ | ⟨t, hbegin, hbody, hcommit⟩
  · have hcleans : ¬ r.CleansUp := fun ⟨hbegin, hstatement, hcommit⟩ =>
      hnot ⟨hbegin, ⟨_, attempt_eq_ok_iff.mpr ⟨hstatement, rfl⟩⟩, hcommit⟩
    rw [hunit, if_neg hcleans]
    exact hjobs
  · obtain ⟨hstatement, ht⟩ := attempt_eq_ok_iff.mp hbody
    cases ht
    rcases hcommit with ⟨hcommit, hunit⟩ | ⟨hcommit, hunit⟩
    · rw [hunit, if_pos ⟨hbegin, hstatement, by simp [hcommit]⟩]
      exact hfail
    · rw [hunit, if_pos ⟨hbegin, hstatement, by simp [hcommit]⟩]
      exact hfail

end ExportRequest

/-- How a request ends: before its job is inserted; with the insertion, which went through unnoticed; with
the completed job; or with what the generation and the cleanup have made of it. -/
inductive Requested (workspaceID : ℕ) (r : ExportRequest) (s : ExportState) :
    ExportState → Except ExportError ExportJob → Prop where
  | refused {e : ExportError} : Requested workspaceID r s s (.error e)
  | unnoticed {t : ExportDB} {e : ExportError} (hinserted : r.Inserted workspaceID s.db t)
      (hcommit : r.outcome .commitInsert = .unanswered) : Requested workspaceID r s ⟨t, s.files⟩ (.error e)
  | completed {t u : ExportDB} {target : UserRow} (hinserted : r.Inserted workspaceID s.db t)
      (htarget : s.db.getUser r.targetID = some target) (hcommit : r.outcome .commitInsert = .done)
      (hgen : r.Generates) (hcompleted : r.outcome .commitComplete = .done)
      (hjobs : u.jobs = s.db.jobs ++ [(r.completedJob workspaceID).stored]) :
      Requested workspaceID r s ⟨u, (r.objectKey, assemble t.keys t.events r.exportedAt target) :: s.files⟩
        (.ok (r.completedJob workspaceID))
  | failed {t : ExportDB} {u : ExportState} {e : ExportError} {j : ExportJob}
      (hinserted : r.Inserted workspaceID s.db t) (hcommit : r.outcome .commitInsert = .done)
      (hnot : ¬ (r.Generates ∧ r.outcome .commitComplete = .done))
      (hj : j = if r.Generates ∧ r.outcome .commitComplete = .unanswered then (r.completedJob workspaceID).stored
        else (r.job workspaceID).stored)
      (hjobs : u.db.jobs = s.db.jobs ++
        [if r.CleansUp then { j with status := .failed, errorMessage := "export generation failed" } else j]) :
      Requested workspaceID r s u (.error e)

section Spec

variable {workspaceID : ℕ} {r : ExportRequest} {s : ExportState}

variable (workspaceID) in
theorem requested_requestExport (hfresh : r.Fresh s.db) :
    Requested workspaceID r s (requestExport workspaceID r s).1 (requestExport workspaceID r s).2 := by
  unfold requestExport
  split
  · exact .refused
  · rename_i target hget
    have htarget : s.db.getUser r.targetID = some target := by
      have hfound := (attempt_eq_ok_iff.mp hget).2
      split at hfound
      · cases hfound
      · cases hfound
        assumption
    rcases unitOfWork_cases (r.outcome .beginInsert) (r.outcome .commitInsert) (ExportError.failed .beginInsert)
        (.failed .commitInsert) (r.insertUnit workspaceID) s.db with
      ⟨⟨e, hunit⟩, -⟩ | ⟨t, -, hbody, ⟨hcommit, hunit⟩ | ⟨hcommit, hunit⟩⟩
    · simp only [hunit]
      exact .refused
    · have hinserted := ExportRequest.inserted_of_insertUnit hbody
      have hjobs : t.jobs = s.db.jobs ++ [(r.job workspaceID).stored] := by rw [hinserted.eq]
      have hactor : (t.getUser r.actor.userID).isSome = true := by
        rw [hinserted.eq]
        exact hinserted.actor
      have hevents : ∀ e ∈ t.events, e.id ≠ r.completedEventID := by
        rw [hinserted.eq]
        simp only [List.mem_append, List.mem_singleton]
        rintro e (he | rfl)
        · exact hfresh.completed e he
        · exact hfresh.ne
      have hgenerated := ExportRequest.generated_generate hjobs hfresh.job hactor hevents target s.files
      simp only [hunit]
      generalize r.generate workspaceID target ⟨t, s.files⟩ = g at hgenerated ⊢
      obtain ⟨g, result⟩ := g
      cases hgenerated with
      | completed hgen hcompleted hdone => exact .completed hinserted htarget hcommit hgen hcompleted hdone
      | lost hgen hlost hdone =>
        exact .failed (j := (r.completedJob workspaceID).stored) hinserted hcommit (fun h => by simp [hlost] at h)
          (if_pos ⟨hgen, hlost⟩).symm (ExportRequest.cleanup_jobs hdone rfl hfresh.job)
      | broken hbroken hdone =>
        exact .failed (j := (r.job workspaceID).stored) hinserted hcommit (fun h => hbroken ⟨h.1, by simp [h.2]⟩)
          (if_neg fun h => hbroken ⟨h.1, by simp [h.2]⟩).symm (ExportRequest.cleanup_jobs hdone rfl hfresh.job)
    · simp only [hunit]
      exact .unnoticed (ExportRequest.inserted_of_insertUnit hbody) hcommit

variable (workspaceID) in
/-- **What a request leaves behind.** Either no job, and an error; or one job behind the others, in the
status that the faults decide, and the job is the answer exactly when everything went well. -/
theorem requestExport_spec (hfresh : r.Fresh s.db) :
    ((requestExport workspaceID r s).1 = s ∧ ∃ e, (requestExport workspaceID r s).2 = .error e) ∨
      ∃ job : ExportJob, (requestExport workspaceID r s).1.db.jobs = s.db.jobs ++ [job] ∧ job.id = r.jobID ∧
        job.targetUserID = some r.targetID ∧ job.status = r.leaves ∧
        conflicts ExportJob.activeIndex s.db.jobs (r.job workspaceID) = false ∧
        ((∃ answer, (requestExport workspaceID r s).2 = .ok answer ∧ answer.stored = job) ∨
          (∃ e, (requestExport workspaceID r s).2 = .error e) ∧ ¬ (r.outcome .commitInsert = .done ∧ r.Generates ∧
            r.outcome .commitComplete = .done)) := by
  have hrequested := requested_requestExport workspaceID hfresh
  generalize requestExport workspaceID r s = p at hrequested ⊢
  obtain ⟨u, result⟩ := p
  cases hrequested with
  | refused => exact .inl ⟨rfl, _, rfl⟩
  | unnoticed hinserted hcommit =>
    refine .inr ⟨(r.job workspaceID).stored, by rw [hinserted.eq], rfl, rfl, ?_, hinserted.free, .inr ⟨⟨_, rfl⟩, ?_⟩⟩
    · rw [ExportRequest.leaves, if_pos (by simp [hcommit])]
      rfl
    · simp [hcommit]
  | completed hinserted htarget hcommit hgen hcompleted hjobs =>
    refine .inr ⟨(r.completedJob workspaceID).stored, hjobs, rfl, rfl, ?_, hinserted.free, .inl ⟨_, rfl, rfl⟩⟩
    rw [ExportRequest.leaves, if_neg (by simp [hcommit]), if_pos ⟨hgen, hcompleted⟩]
    rfl
  | failed hinserted hcommit hnot hj hjobs =>
    have hleaves := r.leaves_of_not hcommit hnot
    refine .inr ⟨_, hjobs, ?_, ?_, ?_, hinserted.free, .inr ⟨⟨_, rfl⟩, fun h => hnot h.2⟩⟩
    · rw [hj]
      split_ifs <;> rfl
    · rw [hj]
      split_ifs <;> rfl
    · rw [hleaves, hj]
      split_ifs <;> rfl

end Spec

/-! ### Errors -/

section Errors

variable {workspaceID : ℕ} {r : ExportRequest} {s : ExportState}

/-- With a database that does its part, the job of a request that has not gone well is settled when the
cleanup commits, or when only the answer of the completion was lost. -/
theorem leaves_ne_pending_iff (hdb : ∀ call : ExportStep, call.generates = false → r.faults.own call = .done)
    (hnot : ¬ (r.outcome .commitInsert = .done ∧ r.Generates ∧ r.outcome .commitComplete = .done)) :
    r.leaves ≠ .pending ↔
      r.outcome .commitFail ≠ .refused ∨ r.Generates ∧ r.outcome .commitComplete = .unanswered := by
  by_cases hcommit : r.outcome .commitInsert = .done
  · rw [r.leaves_of_not hcommit fun h => hnot ⟨hcommit, h⟩]
    have hcleans : r.CleansUp ↔ r.outcome .commitFail ≠ .refused := by
      refine ⟨fun h => h.2.2, fun h => ⟨?_, ?_, h⟩⟩
      · exact (Faults.outcome_eq_own rfl (by decide) h).trans (hdb .beginFail rfl)
      · exact (Faults.outcome_eq_own rfl (by decide) h).trans (hdb .failJob rfl)
    rw [← hcleans]
    split_ifs with hc hl
    · exact ⟨fun _ => .inl hc, fun _ => nofun⟩
    · exact ⟨fun _ => .inr hl, fun _ => nofun⟩
    · exact ⟨fun h => absurd rfl h, fun h => absurd h (not_or.mpr ⟨hc, hl⟩)⟩
  · -- The context was cancelled under the first commit, so nothing after it gets through.
    have hown : r.faults.outcome exportOrder .commitInsert ≠ r.faults.own .commitInsert := by
      rw [hdb .commitInsert rfl]
      exact hcommit
    have hfail : r.outcome .commitFail = .refused := Faults.refused_of_lt rfl (by decide) hown
    have hcomplete : r.outcome .commitComplete = .refused := Faults.refused_of_lt rfl (by decide) hown
    simp [ExportRequest.leaves, hcommit, hfail, hcomplete]

/-- **A request that fails after inserting its job leaves it pending exactly when the context is cancelled
before the cleanup commits**, unless the generation went well and only the answer to its last commit was
lost. -/
theorem left_settled_iff (hfresh : r.Fresh s.db)
    (hdb : ∀ call : ExportStep, call.generates = false → r.faults.own call = .done) {e : ExportError}
    (herror : (requestExport workspaceID r s).2 = .error e) {job : ExportJob}
    (hjob : (requestExport workspaceID r s).1.db.getJob r.jobID = some job) :
    job.status ≠ .pending ↔
      r.outcome .commitFail ≠ .refused ∨ r.Generates ∧ r.outcome .commitComplete = .unanswered := by
  rcases requestExport_spec workspaceID hfresh with ⟨hs, -⟩ | ⟨job', hjobs, hid, -, hstatus, -, ⟨_, hok, -⟩ | ⟨-, hnot⟩⟩
  · rw [hs] at hjob
    exact absurd (by simpa using List.find?_some hjob) (hfresh.job job (List.mem_of_find?_eq_some hjob))
  · rw [hok] at herror
    cases herror
  · have hget := ExportDB.getJob_concat hjobs fun k hk => hid ▸ hfresh.job k hk
    rw [hid, hjob, Option.some.injEq] at hget
    rw [hget, hstatus]
    exact leaves_ne_pending_iff hdb hnot

/-- No faults. -/
def noFaults : Faults ExportStep := ⟨fun _ => .done, none, false⟩

/-- A request of a user for their own export. -/
def ownExport (jobID : ℕ) (faults : Faults ExportStep) : ExportRequest :=
  ⟨⟨7, .user, .jwt, []⟩, 7, "", jobID, 2 * jobID, 2 * jobID + 1, 0, 0, 0, faults⟩

/-- That user, and nothing else. -/
def oneUser : ExportState := ⟨⟨[userRowOf 7], [], [], []⟩, []⟩

/-- The file store refuses the file, and the job is marked failed. -/
theorem left_settled_unwritten :
    ∃ job, (requestExport 1 (ownExport 1 ⟨fun call => if call = .writeFile then .refused else .done, none, false⟩)
        oneUser).1.db.getJob 1 = some job ∧ job.status ≠ .pending := by
  obtain ⟨job, hjob⟩ : ∃ job, (requestExport 1 (ownExport 1
      ⟨fun call => if call = .writeFile then .refused else .done, none, false⟩) oneUser).1.db.getJob 1 = some job :=
    ⟨_, rfl⟩
  refine ⟨job, hjob, (left_settled_iff (by decide) (fun call hcall => ?_) rfl hjob).mpr (.inl (by decide))⟩
  cases call <;> first | rfl | cases hcall

/-- The context is cancelled when the job is inserted: the job stays pending, and the next request is refused. -/
theorem left_pending :
    (ownExport 1 { noFaults with cancelledAt := some 5 }).Fresh oneUser.db ∧
      (requestExport 1 (ownExport 1 { noFaults with cancelledAt := some 5 }) oneUser).2 =
        .error (.generation (.failed .listKeys)) ∧
      ((requestExport 1 (ownExport 1 { noFaults with cancelledAt := some 5 }) oneUser).1.db.getJob 1).map (·.status) =
        some .pending ∧
      (requestExport 1 (ownExport 2 noFaults)
        (requestExport 1 (ownExport 1 { noFaults with cancelledAt := some 5 }) oneUser).1).2 =
        .error .exportInProgress :=
  ⟨by decide, rfl, rfl, rfl⟩

end Errors

/-! ### One request after another -/

namespace ExportState

variable (workspaceID : ℕ)

/-- A request, with identifiers that are new. -/
def step (s : ExportState) (r : ExportRequest) : Option ExportState :=
  if r.Fresh s.db then some (requestExport workspaceID r s).1 else none

variable {workspaceID}

theorem step_some_iff {s t : ExportState} {r : ExportRequest} :
    s.step workspaceID r = some t ↔ r.Fresh s.db ∧ (requestExport workspaceID r s).1 = t := by
  unfold step
  split_ifs with h <;> simp [h]

/-- Jobs are only added. -/
theorem jobs_step {s t : ExportState} {r : ExportRequest} (h : s.step workspaceID r = some t) :
    ∃ added, t.db.jobs = s.db.jobs ++ added := by
  obtain ⟨hfresh, rfl⟩ := step_some_iff.mp h
  rcases requestExport_spec workspaceID hfresh with ⟨hs, -⟩ | ⟨job, hjobs, -⟩
  · exact ⟨[], by rw [hs, List.append_nil]⟩
  · exact ⟨[job], hjobs⟩

/-- **A job that is left pending stays so, and none of the user's later requests is served.** -/
theorem pending_blocks {s t : ExportState} {acts : List ExportRequest} (h : runFrom (step workspaceID) s acts = some t)
    {job : ExportJob} (hjob : job ∈ s.db.jobs) (hpending : job.status = .pending) :
    job ∈ t.db.jobs ∧ ∀ r : ExportRequest, r.Fresh t.db → job.targetUserID = some r.targetID →
      (requestExport workspaceID r t).1 = t ∧ ∃ e, (requestExport workspaceID r t).2 = .error e := by
  have hstays : job ∈ t.db.jobs := by
    refine runFrom_invariant (P := fun s => job ∈ s.db.jobs) (fun s r t hmem hstep => ?_) hjob h
    obtain ⟨added, hadded⟩ := jobs_step hstep
    rw [hadded]
    exact List.mem_append_left added hmem
  refine ⟨hstays, fun r hfresh htarget => ?_⟩
  rcases requestExport_spec workspaceID hfresh with hrefused | ⟨-, -, -, -, -, hfree, -⟩
  · exact hrefused
  · have hindex : job.activeIndex = some r.targetID := (if_pos hpending).trans htarget
    have hmem : r.targetID ∈ keys ExportJob.activeIndex t.db.jobs := List.mem_filterMap.mpr ⟨job, hstays, hindex⟩
    have hnew : (r.job workspaceID).activeIndex = some r.targetID := rfl
    rw [conflicts_iff.mpr ⟨r.targetID, hnew, hmem⟩] at hfree
    cases hfree

/-- A cancelled request leaves its job pending. The next one of the user fails, and so does the one after it. -/
theorem pending_blocks_cancelled :
    ∃ t, runFrom (step 1) oneUser [ownExport 1 { noFaults with cancelledAt := some 5 }, ownExport 2 noFaults] = some t ∧
      (requestExport 1 (ownExport 3 noFaults) t).1 = t ∧
      ∃ e, (requestExport 1 (ownExport 3 noFaults) t).2 = .error e := by
  let s := (requestExport 1 (ownExport 1 { noFaults with cancelledAt := some 5 }) oneUser).1
  have hrun : runFrom (step 1) s [ownExport 2 noFaults] = some s := rfl
  have hjob : ((ownExport 1 noFaults).job 1).stored ∈ s.db.jobs := List.mem_cons_self
  exact ⟨s, rfl, (pending_blocks hrun hjob rfl).2 (ownExport 3 noFaults) (by decide) rfl⟩

/-! ### Downloads -/

theorem exportKeyFor_inj {a b i j : ℕ} (hi : i < 2 ^ 128) (hj : j < 2 ^ 128) (h : exportKeyFor a i = exportKeyFor b j) :
    i = j := by
  unfold exportKeyFor at h
  refine UUID.text_inj hi hj (List.append_inj_right (List.append_cancel_right h) ?_)
  simp only [List.length_append, UUID.length_text]

theorem exportKeyFor_ne_nil (targetID jobID : ℕ) : exportKeyFor targetID jobID ≠ [] := by
  unfold exportKeyFor
  exact List.append_ne_nil_of_right_ne_nil _ (by decide)

/-- A request writes no file but its own. -/
theorem lookup_requestExport (r : ExportRequest) (s : ExportState) {key : Bytes} (hkey : key ≠ r.objectKey) :
    (requestExport workspaceID r s).1.files.lookup key = s.files.lookup key := by
  have hcons : ∀ (doc : ExportDoc) files, ((r.objectKey, doc) :: files).lookup key = files.lookup key := by
    intro doc files
    rw [List.lookup_cons, beq_false_of_ne hkey]
  have hwrite : ∀ files doc, (r.writeFile files doc).1.lookup key = files.lookup key := by
    intro files doc
    unfold ExportRequest.writeFile
    split
    · exact hcons doc files
    · rfl
    · exact hcons doc files
  have hgenerate : ∀ target u, (r.generate workspaceID target u).1.files.lookup key = u.files.lookup key := by
    intro target u
    unfold ExportRequest.generate
    split
    · rfl
    · dsimp only
      split
      · exact hwrite _ _
      · exact hwrite _ _
  unfold requestExport
  split
  · rfl
  · dsimp only
    split
    · rfl
    · split
      · exact hgenerate _ _
      · exact hgenerate _ _

/-- The completed job of the request and its document. -/
def Exported (workspaceID : ℕ) (r : ExportRequest) (doc : ExportDoc) (s : ExportState) : Prop :=
  s.db.getJob r.jobID = some (r.completedJob workspaceID).stored ∧ s.files.lookup r.objectKey = some doc

/-- Other requests leave them alone. -/
theorem Exported.step {r : ExportRequest} (hlt : r.jobID < 2 ^ 128) {doc : ExportDoc} {s t : ExportState}
    {r' : ExportRequest} (h : Exported workspaceID r doc s) (hstep : s.step workspaceID r' = some t) :
    Exported workspaceID r doc t := by
  obtain ⟨added, hadded⟩ := jobs_step hstep
  obtain ⟨hfresh, rfl⟩ := step_some_iff.mp hstep
  refine ⟨ExportDB.getJob_append hadded h.1, ?_⟩
  have hne : r.jobID ≠ r'.jobID := hfresh.job _ (List.mem_of_find?_eq_some h.1)
  have hkey : r.objectKey ≠ r'.objectKey := fun he => hne (exportKeyFor_inj hlt hfresh.lt he)
  rw [lookup_requestExport r' s hkey]
  exact h.2

theorem Exported.download {r : ExportRequest} {doc : ExportDoc} {s : ExportState} (h : Exported workspaceID r doc s)
    {actor : Principal} (hmay : r.actor.userID = actor.userID ∨ r.targetID = actor.userID ∨ actor.role = .admin)
    (now : ℤ) :
    downloadExport actor r.jobID now s =
      if now < storedTime (r.completedAt + exportTTL) then .ok doc else .error .exportExpired := by
  set job := (r.completedJob workspaceID).stored with hjob
  have hactor :
      (job.requestedBy = actor.userID || job.targetUserID = some actor.userID || actor.role = .admin) = true := by
    change (r.actor.userID = actor.userID || some r.targetID = some actor.userID || actor.role = .admin) = true
    simpa [or_assoc] using hmay
  have hstatus : ¬ (job.status ≠ .completed ∨ job.objectKey = []) :=
    not_or.mpr ⟨not_not.mpr rfl, exportKeyFor_ne_nil _ _⟩
  have hexpired : job.expired now = !decide (now < storedTime (r.completedAt + exportTTL)) := rfl
  have hlookup : s.files.lookup job.objectKey = some doc := h.2
  unfold downloadExport
  simp only [h.1, ← hjob, hactor, hstatus, hexpired, Bool.not_true, Bool.false_eq_true, if_false]
  by_cases hnow : now < storedTime (r.completedAt + exportTTL)
  · simp [hnow, hlookup]
  · simp [hnow]

/-- **A completed export can be downloaded for a day**, by the requester, the user or an admin, whatever
is requested after it. -/
theorem download_exported {r : ExportRequest} {s t : ExportState} {acts : List ExportRequest} {job : ExportJob}
    (hfresh : r.Fresh s.db) (hok : (requestExport workspaceID r s).2 = .ok job)
    (hrun : runFrom (step workspaceID) (requestExport workspaceID r s).1 acts = some t) {actor : Principal}
    (hmay : r.actor.userID = actor.userID ∨ r.targetID = actor.userID ∨ actor.role = .admin) (now : ℤ) :
    ∃ target, s.db.getUser r.targetID = some target ∧
      downloadExport actor r.jobID now t =
        if now < storedTime (r.completedAt + exportTTL) then
          .ok (assemble s.db.keys (s.db.events ++ [r.requestedEvent.stored]) r.exportedAt target)
        else .error .exportExpired := by
  have hrequested := requested_requestExport workspaceID hfresh
  rw [hok] at hrequested
  generalize (requestExport workspaceID r s).1 = u at hrequested hrun
  cases hrequested with
  | completed hinserted htarget _ _ _ hjobs =>
    rw [hinserted.eq] at hrun
    have hexported := runFrom_invariant (fun _ _ _ h hstep => Exported.step hfresh.lt h hstep)
      ⟨ExportDB.getJob_concat hjobs hfresh.job, List.lookup_cons_self⟩ hrun
    exact ⟨_, htarget, hexported.download hmay now⟩

/-- An hour after their export, and after another request, the user downloads it; on the next day it has expired. -/
theorem download_exported_own :
    ∃ t, runFrom (step 1) oneUser [ownExport 1 noFaults, ownExport 2 noFaults] = some t ∧
      (∃ doc, downloadExport (ownExport 1 noFaults).actor 1 hour t = .ok doc) ∧
      downloadExport (ownExport 1 noFaults).actor 1 (25 * hour) t = .error .exportExpired := by
  let r := ownExport 1 noFaults
  obtain ⟨t, hrun⟩ : ∃ t, runFrom (step 1) (requestExport 1 r oneUser).1 [ownExport 2 noFaults] = some t := ⟨_, rfl⟩
  have hmay : r.actor.userID = r.actor.userID ∨ r.targetID = r.actor.userID ∨ r.actor.role = .admin := .inl rfl
  have hfresh : r.Fresh oneUser.db := by decide
  refine ⟨t, runFrom_cons_iff.mpr ⟨_, rfl, hrun⟩, ?_, ?_⟩
  · obtain ⟨target, -, hearly⟩ := download_exported hfresh rfl hrun hmay hour
    exact ⟨_, hearly.trans (if_pos (by decide))⟩
  · obtain ⟨target, -, hlate⟩ := download_exported hfresh rfl hrun hmay (25 * hour)
    exact hlate.trans (if_neg (by decide))

end ExportState

end ForecastIQ.Identity
