import ControlPlane.Job.Item
import ControlPlane.Lib.Simulation

/-!
# `JobClientProvider`: putting and updating jobs

`PutJob` stores a new job with status `JOB_STATUS_CREATED`, retry count zero,
and the current time as its creation and update time. `UpdateJobBody` and
`UpdateJobStatus` read the job, refuse a request whose most recent update time
is older than the job's, and upsert a partly filled `job_for_update`.
`UpdateJobStatus` first checks the move with `ValidateJobStatus`, and raises
the retry count for `JOB_STATUS_PROCESSING` before falling through to the
upsert.

The two update paths reach the store only by reading the job of a job id and
by upserting a job for update, so they are written once over a `JobStore`.
The NoSQL store of rows is one instance; the job a row represents is another,
where an upsert is `Job.upsert`. Rows simulate the jobs they represent, call
by call and over whole sessions of calls.
-/

namespace ControlPlane.JobClient

open Record Simulation JobClientUtils

structure PutJobRequest where
  jobId : String
  jobBody : String
  deriving DecidableEq, Repr

structure UpdateJobBodyRequest where
  jobId : String
  jobBody : String
  mostRecentUpdatedTime : Nat
  deriving DecidableEq, Repr

structure UpdateJobBodyResponse where
  updatedTime : Nat
  deriving DecidableEq, Repr

/-- `UpdateJobStatusRequest`; an unset `receipt_info` reads as empty. -/
structure UpdateJobStatusRequest where
  jobId : String
  jobStatus : JobStatus
  mostRecentUpdatedTime : Nat
  receiptInfo : String
  deriving DecidableEq, Repr

structure UpdateJobStatusResponse where
  jobStatus : JobStatus
  updatedTime : Nat
  retryCount : Int
  deriving DecidableEq, Repr

/-- What the update paths need of the jobs table: the job stored under a job
id, and the store after the upsert built from a job for update. -/
structure JobStore (σ : Type) where
  readJob : σ → String → Except ErrorCode Job
  upsertJob : σ → Job → σ

/-- A call that updates a stored job, with the time its handler reads. -/
inductive JobUpdate
  | updateJobBody (request : UpdateJobBodyRequest) (currentTime : Nat)
  | updateJobStatus (request : UpdateJobStatusRequest) (currentTime : Nat)
  deriving DecidableEq, Repr

namespace JobClientProvider

def kDefaultRetryCount : Int := 0

/-- The `job_for_update` of `OnGetJobItemForUpdateJobBodyCallback`. -/
def jobForBodyUpdate (request : UpdateJobBodyRequest) (updateTime : Nat) : Job :=
  { jobId := request.jobId, jobBody := request.jobBody, updatedTime := updateTime }

/-- The `job_for_update` of `UpsertUpdatedJobStatusJobItem`. -/
def jobForStatusUpdate (request : UpdateJobStatusRequest) (retryCount : Int)
    (updateTime : Nat) : Job :=
  { jobId := request.jobId
    updatedTime := updateTime
    jobStatus := request.jobStatus
    retryCount := retryCount
    processingStartedTime :=
      if request.jobStatus = .jobStatusProcessing then updateTime else kDefaultTimestampValue }

section Store

variable {σ : Type} (store : JobStore σ)

/-- `UpdateJobBody` with `OnGetJobItemForUpdateJobBodyCallback`; the upsert's
callback answers with the update time. -/
def updateJobBody (state : σ) (request : UpdateJobBodyRequest) (currentTime : Nat) :
    Except ErrorCode (UpdateJobBodyResponse × σ) :=
  if request.jobId.isEmpty then .error .scJobClientProviderMissingJobId
  else do
    let job ← store.readJob state request.jobId
    if job.updatedTime > request.mostRecentUpdatedTime then
      .error .scJobClientProviderUpdationConflict
    else
      pure (⟨currentTime⟩, store.upsertJob state (jobForBodyUpdate request currentTime))

/-- `UpsertUpdatedJobStatusJobItem` and the callbacks after it, which answer
with the requested status, the update time and the retry count. -/
def upsertUpdatedJobStatusJobItem (state : σ) (request : UpdateJobStatusRequest)
    (retryCount : Int) (currentTime : Nat) : UpdateJobStatusResponse × σ :=
  (⟨request.jobStatus, currentTime, retryCount⟩,
    store.upsertJob state (jobForStatusUpdate request retryCount currentTime))

/-- `UpdateJobStatus` with `OnGetJobItemForUpdateJobStatusCallback`. -/
def updateJobStatus (state : σ) (request : UpdateJobStatusRequest) (currentTime : Nat) :
    Except ErrorCode (UpdateJobStatusResponse × σ) :=
  if request.jobId.isEmpty then .error .scJobClientProviderMissingJobId
  else if request.receiptInfo.isEmpty &&
      (request.jobStatus == .jobStatusSuccess || request.jobStatus == .jobStatusFailure) then
    .error .scJobClientProviderInvalidReceiptInfo
  else do
    let job ← store.readJob state request.jobId
    if job.updatedTime > request.mostRecentUpdatedTime then
      .error .scJobClientProviderUpdationConflict
    else do
      validateJobStatus job.jobStatus request.jobStatus
      -- `JOB_STATUS_PROCESSING` raises the count and falls through to the upsert
      match request.jobStatus with
      | .jobStatusProcessing =>
          pure (upsertUpdatedJobStatusJobItem store state request (job.retryCount + 1)
            currentTime)
      | .jobStatusFailure | .jobStatusSuccess =>
          pure (upsertUpdatedJobStatusJobItem store state request job.retryCount currentTime)
      | _ => .error .scJobClientProviderInvalidJobStatus

/-- One call of a session on the store; the session keeps the store and drops
the response. -/
def applyJobUpdate (state : σ) : JobUpdate → Except ErrorCode σ
  | .updateJobBody request currentTime =>
      (updateJobBody store state request currentTime).map Prod.snd
  | .updateJobStatus request currentTime =>
      (updateJobStatus store state request currentTime).map Prod.snd

end Store

section Nosql

variable (base64 : Codec ErrorCode String String) (timeUtil : Codec Unit Nat String)

/-- `PutJob` once the job message is enqueued: the job that
`OnEnqueueMessageCallback` builds with the message's server job id, and the row
`CreateDatabaseItem` stores for it. -/
def putJob (request : PutJobRequest) (serverJobId : String) (currentTime : Nat) :
    Except ErrorCode (Job × Row) :=
  if request.jobId.isEmpty then .error .scJobClientProviderMissingJobId
  else
    let job := createJob request.jobId serverJobId request.jobBody .jobStatusCreated
      currentTime currentTime kDefaultTimestampValue kDefaultRetryCount
    .ok (job, createDatabaseItem (createPutJobRequest base64 timeUtil job))

/-- The jobs table of the NoSQL store: `GetDatabaseItem` with
`ConvertDatabaseItemToJob`, and `CreateUpsertJobRequest` with
`UpsertDatabaseItem`. -/
def nosqlJobStore : JobStore Row where
  readJob row jobId := convertDatabaseItemToJob base64 timeUtil (getDatabaseItem jobId row)
  upsertJob row job := upsertDatabaseItem row (createUpsertJobRequest base64 timeUtil job)

end Nosql

end JobClientProvider

/-- The store seen as the job it holds: a read gives the job under the
requested id, and an upsert is `Job.upsert`. -/
def jobSpecStore : JobStore Job where
  readJob job jobId := .ok { job with jobId := jobId }
  upsertJob job update := job.upsert update

/-! ## Refinement -/

/-- `store₁` refines `store₂` through `R`: related states read the same job,
and upserts keep them related. -/
structure JobStore.Refines {σ τ : Type} (store₁ : JobStore σ) (store₂ : JobStore τ)
    (R : σ → τ → Prop) : Prop where
  readJob_eq : ∀ s t jobId, R s t → store₁.readJob s jobId = store₂.readJob t jobId
  upsertJob_rel : ∀ s t update, R s t → R (store₁.upsertJob s update) (store₂.upsertJob t update)

namespace JobClientProvider

section Refinement

variable {σ τ : Type} {store₁ : JobStore σ} {store₂ : JobStore τ} {R : σ → τ → Prop}

theorem updateJobBody_refines (h : store₁.Refines store₂ R) {s : σ} {t : τ} (hst : R s t)
    (request : UpdateJobBodyRequest) (currentTime : Nat) :
    ExceptRel (fun a b => a.1 = b.1 ∧ R a.2 b.2) (updateJobBody store₁ s request currentTime)
      (updateJobBody store₂ t request currentTime) := by
  unfold updateJobBody
  rw [h.readJob_eq s t request.jobId hst]
  split
  · exact .error _
  · cases store₂.readJob t request.jobId with
    | error e => exact .error e
    | ok job =>
        simp only [ok_bind]
        split
        · exact .error _
        · exact .ok ⟨rfl, h.upsertJob_rel s t _ hst⟩

theorem updateJobStatus_refines (h : store₁.Refines store₂ R) {s : σ} {t : τ} (hst : R s t)
    (request : UpdateJobStatusRequest) (currentTime : Nat) :
    ExceptRel (fun a b => a.1 = b.1 ∧ R a.2 b.2) (updateJobStatus store₁ s request currentTime)
      (updateJobStatus store₂ t request currentTime) := by
  unfold updateJobStatus
  rw [h.readJob_eq s t request.jobId hst]
  split
  · exact .error _
  split
  · exact .error _
  cases store₂.readJob t request.jobId with
  | error e => exact .error e
  | ok job =>
      simp only [ok_bind]
      split
      · exact .error _
      cases validateJobStatus job.jobStatus request.jobStatus with
      | error e => exact .error e
      | ok u =>
          simp only [ok_bind]
          split
          · exact .ok ⟨rfl, h.upsertJob_rel s t _ hst⟩
          · exact .ok ⟨rfl, h.upsertJob_rel s t _ hst⟩
          · exact .ok ⟨rfl, h.upsertJob_rel s t _ hst⟩
          · exact .error _

/-- A refinement of stores is a simulation of the calls on them. -/
theorem applyJobUpdate_simulates (h : store₁.Refines store₂ R) :
    Simulates R (applyJobUpdate store₁) (applyJobUpdate store₂) := by
  intro s t u hst
  cases u with
  | updateJobBody request currentTime =>
      exact (updateJobBody_refines h hst request currentTime).map fun _ _ hab => hab.2
  | updateJobStatus request currentTime =>
      exact (updateJobStatus_refines h hst request currentTime).map fun _ _ hab => hab.2

end Refinement

variable (base64 : Codec ErrorCode String String) (timeUtil : Codec Unit Nat String)

/-- The rows of the NoSQL store refine the jobs they represent. -/
theorem nosqlJobStore_refines :
    (nosqlJobStore base64 timeUtil).Refines jobSpecStore (Represents base64 timeUtil) where
  readJob_eq _ _ jobId hrow := convertDatabaseItemToJob_getDatabaseItem base64 timeUtil hrow jobId
  upsertJob_rel _ _ update hrow := represents_upsertDatabaseItem base64 timeUtil hrow update

/-- `PutJob` stores a row that represents the job it answers with. -/
theorem putJob_represents {request : PutJobRequest} {serverJobId : String} {currentTime : Nat}
    {job : Job} {row : Row} (h : putJob base64 timeUtil request serverJobId currentTime = .ok (job, row)) :
    Represents base64 timeUtil row job := by
  unfold putJob at h
  split at h
  · cases h
  · rw [Except.ok.injEq, Prod.mk.injEq] at h
    obtain ⟨rfl, rfl⟩ := h
    intro name
    rfl

/-- A session of calls on a row that represents `job` succeeds exactly when the
same session on `job` does, and leaves a row that represents the job it
leaves. -/
theorem runAll_nosqlJobStore {row : Row} {job : Job} (h : Represents base64 timeUtil row job)
    (updates : List JobUpdate) :
    ExceptRel (Represents base64 timeUtil)
      (runAll (applyJobUpdate (nosqlJobStore base64 timeUtil)) row updates)
      (runAll (applyJobUpdate jobSpecStore) job updates) :=
  runAll_simulates (applyJobUpdate_simulates (nosqlJobStore_refines base64 timeUtil)) updates h

end JobClientProvider

end ControlPlane.JobClient
