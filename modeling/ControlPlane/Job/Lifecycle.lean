import ControlPlane.Job.Provider

/-!
# The life of a stored job

What the calls of `JobClientProvider` do to a stored job is read off the job
level, where an upsert is `Job.upsert`, and carried to the rows of the NoSQL
store by the simulation of `Provider.lean`.

Every successful call keeps the job's id, server job id and creation time,
and moves its status along `CREATED → PROCESSING* → {SUCCESS | FAILURE}`; a
job that has ended stays as it ended. `UpdateJobStatus` changes nothing but
the status, the update time, the retry count and, for `JOB_STATUS_PROCESSING`,
the processing start time.

`UpdateJobBody` is different: its `job_for_update` leaves `retry_count` at its
default, and `CreateUpsertJobRequest` writes `RetryCount` whatever its value,
so every successful `UpdateJobBody` sets the stored retry count back to zero.
The retry count therefore does not count the `JOB_STATUS_PROCESSING` updates
of a job whose body was updated after them.
-/

namespace ControlPlane.JobClient

open Record Simulation JobClientUtils JobClientProvider

/-- `SUCCESS` and `FAILURE`, the statuses a job ends in. -/
def Terminal (status : JobStatus) : Prop :=
  status = .jobStatusSuccess ∨ status = .jobStatusFailure

/-- The moves of a job's status, `CREATED → PROCESSING* → {SUCCESS | FAILURE}`:
none, into `PROCESSING` from `CREATED` or `PROCESSING`, or from either of them
into an end. -/
inductive LifecycleMove : JobStatus → JobStatus → Prop
  | stay (status : JobStatus) : LifecycleMove status status
  | process {status : JobStatus}
      (h : status = .jobStatusCreated ∨ status = .jobStatusProcessing) :
      LifecycleMove status .jobStatusProcessing
  | finish {status status' : JobStatus}
      (h : status = .jobStatusCreated ∨ status = .jobStatusProcessing) (h' : Terminal status') :
      LifecycleMove status status'

theorem allowedStatusToUpdate_eq_some {status : JobStatus} {statuses : List JobStatus}
    (h : allowedStatusToUpdate status = some statuses) :
    (status = .jobStatusCreated ∨ status = .jobStatusProcessing) ∧
      statuses = [.jobStatusProcessing, .jobStatusSuccess, .jobStatusFailure] := by
  cases status <;> simp only [allowedStatusToUpdate, reduceCtorEq, Option.some.injEq] at h <;>
    simp [h]

/-- `ValidateJobStatus` lets a job move only from `CREATED` or `PROCESSING`,
and only into `PROCESSING` or an end. -/
theorem validateJobStatus_eq_ok {status status' : JobStatus}
    (h : validateJobStatus status status' = .ok ()) :
    (status = .jobStatusCreated ∨ status = .jobStatusProcessing) ∧
      (status' = .jobStatusProcessing ∨ Terminal status') := by
  unfold validateJobStatus at h
  split at h
  · cases h
  · rename_i statuses hstatuses
    obtain ⟨hs, rfl⟩ := allowedStatusToUpdate_eq_some hstatuses
    split at h
    · rename_i hmem
      simp only [List.mem_cons, List.not_mem_nil, or_false] at hmem
      refine ⟨hs, ?_⟩
      unfold Terminal
      tauto
    · cases h

/-- Every move `ValidateJobStatus` lets through is a move of the lifecycle. -/
theorem LifecycleMove.of_validateJobStatus {status status' : JobStatus}
    (h : validateJobStatus status status' = .ok ()) : LifecycleMove status status' := by
  obtain ⟨hs, rfl | ht⟩ := validateJobStatus_eq_ok h
  · exact .process hs
  · exact .finish hs ht

theorem LifecycleMove.eq_of_terminal {status status' : JobStatus}
    (h : LifecycleMove status status') (hs : Terminal status) : status' = status := by
  cases h with
  | stay => rfl
  | process h => rcases hs with rfl | rfl <;> simp at h
  | finish h _ => rcases hs with rfl | rfl <;> simp at h

/-- A job that has ended stays as it ended. -/
theorem lifecycle_eq_of_terminal {status status' : JobStatus}
    (h : Relation.ReflTransGen LifecycleMove status status') (hs : Terminal status) :
    status' = status := by
  induction h with
  | refl => rfl
  | tail _ hmove ih =>
      subst ih
      exact hmove.eq_of_terminal hs

/-! ## One call on the job -/

namespace JobClientProvider

/-- A successful `UpdateJobBody` passed the update-time check and upserts its
`job_for_update`. -/
theorem applyJobUpdate_updateJobBody {job job' : Job} {request : UpdateJobBodyRequest}
    {currentTime : Nat}
    (h : applyJobUpdate jobSpecStore job (.updateJobBody request currentTime) = .ok job') :
    job.updatedTime ≤ request.mostRecentUpdatedTime ∧
      job' = job.upsert (jobForBodyUpdate request currentTime) := by
  simp only [applyJobUpdate, updateJobBody, jobSpecStore] at h
  split at h
  · cases h
  · simp only [ok_bind] at h
    split at h
    · cases h
    · rename_i hle
      simp only [pure, Except.pure, Except.map, Except.ok.injEq] at h
      exact ⟨Nat.le_of_not_lt hle, h.symm⟩

/-- A successful `UpdateJobStatus` passed the update-time check and
`ValidateJobStatus`, and upserts its `job_for_update` with the retry count one
higher for `JOB_STATUS_PROCESSING`. -/
theorem applyJobUpdate_updateJobStatus {job job' : Job} {request : UpdateJobStatusRequest}
    {currentTime : Nat}
    (h : applyJobUpdate jobSpecStore job (.updateJobStatus request currentTime) = .ok job') :
    job.updatedTime ≤ request.mostRecentUpdatedTime ∧
      validateJobStatus job.jobStatus request.jobStatus = .ok () ∧
      job' = job.upsert (jobForStatusUpdate request
        (if request.jobStatus = .jobStatusProcessing then job.retryCount + 1 else job.retryCount)
        currentTime) := by
  simp only [applyJobUpdate, updateJobStatus, jobSpecStore] at h
  split at h
  · cases h
  split at h
  · cases h
  simp only [ok_bind] at h
  split at h
  · cases h
  rename_i hle
  cases hv : validateJobStatus job.jobStatus request.jobStatus with
  | error e =>
      rw [hv, error_bind] at h
      cases h
  | ok u =>
      rw [hv, ok_bind] at h
      refine ⟨Nat.le_of_not_lt hle, rfl, ?_⟩
      simp only [upsertUpdatedJobStatusJobItem, pure, Except.pure] at h
      split at h
      · rename_i hp
        simp only [Except.map, Except.ok.injEq] at h
        rw [← h, if_pos hp]
      · rename_i hp
        simp only [Except.map, Except.ok.injEq] at h
        rw [← h, if_neg (by simp [hp])]
      · rename_i hp
        simp only [Except.map, Except.ok.injEq] at h
        rw [← h, if_neg (by simp [hp])]
      · cases h

/-- A successful `UpdateJobBody` sets the retry count to zero, and keeps the
status and the processing start time. -/
theorem applyJobUpdate_updateJobBody_fields {job job' : Job}
    {request : UpdateJobBodyRequest} {currentTime : Nat}
    (h : applyJobUpdate jobSpecStore job (.updateJobBody request currentTime) = .ok job') :
    job'.retryCount = 0 ∧ job'.jobStatus = job.jobStatus ∧
      job'.processingStartedTime = job.processingStartedTime := by
  obtain ⟨-, rfl⟩ := applyJobUpdate_updateJobBody h
  exact ⟨rfl, rfl, rfl⟩

/-- A successful `UpdateJobStatus` changes only the status, the update time, the
retry count and, for `JOB_STATUS_PROCESSING`, the processing start time. -/
theorem applyJobUpdate_updateJobStatus_fields {job job' : Job}
    {request : UpdateJobStatusRequest} {currentTime : Nat}
    (h : applyJobUpdate jobSpecStore job (.updateJobStatus request currentTime) = .ok job') :
    job'.jobBody = job.jobBody ∧ job'.jobStatus = request.jobStatus ∧
      job'.retryCount =
        (if request.jobStatus = .jobStatusProcessing then job.retryCount + 1
          else job.retryCount) ∧
      (request.jobStatus ≠ .jobStatusProcessing →
        job'.processingStartedTime = job.processingStartedTime) := by
  obtain ⟨-, hv, rfl⟩ := applyJobUpdate_updateJobStatus h
  have hknown : request.jobStatus ≠ .jobStatusUnknown := by
    rcases (validateJobStatus_eq_ok hv).2 with h | h | h <;> simp [h]
  refine ⟨rfl, if_neg hknown, rfl, fun hp => ?_⟩
  simp [Job.upsert, jobForStatusUpdate, hp]

/-- What every successful call keeps of a job, and how it moves its status. -/
structure Keeps (job job' : Job) : Prop where
  jobId_eq : job'.jobId = job.jobId
  serverJobId_eq : job'.serverJobId = job.serverJobId
  createdTime_eq : job'.createdTime = job.createdTime
  lifecycle : LifecycleMove job.jobStatus job'.jobStatus

/-- The step lemma: neither job for update names a server job id or a creation
time, and a status update passed `ValidateJobStatus`. -/
theorem applyJobUpdate_keeps {job job' : Job} {update : JobUpdate}
    (h : applyJobUpdate jobSpecStore job update = .ok job') : Keeps job job' := by
  cases update with
  | updateJobBody request currentTime =>
      obtain ⟨-, rfl⟩ := applyJobUpdate_updateJobBody h
      exact ⟨rfl, rfl, rfl, .stay _⟩
  | updateJobStatus request currentTime =>
      have hstatus := (applyJobUpdate_updateJobStatus_fields h).2.1
      obtain ⟨-, hv, rfl⟩ := applyJobUpdate_updateJobStatus h
      refine ⟨rfl, rfl, rfl, ?_⟩
      rw [hstatus]
      exact LifecycleMove.of_validateJobStatus hv

/-- The run lemma: a successful session keeps the job's id, server job id and
creation time, and its status follows the lifecycle. -/
theorem runAll_jobSpecStore_keeps {job job' : Job} {updates : List JobUpdate}
    (h : runAll (applyJobUpdate jobSpecStore) job updates = .ok job') :
    job'.jobId = job.jobId ∧ job'.serverJobId = job.serverJobId ∧
      job'.createdTime = job.createdTime ∧
      Relation.ReflTransGen LifecycleMove job.jobStatus job'.jobStatus := by
  have hkeeps := runAll_reflTransGen Keeps (fun _ _ _ => applyJobUpdate_keeps) h
  clear h
  induction hkeeps with
  | refl => exact ⟨rfl, rfl, rfl, .refl⟩
  | tail _ hstep ih =>
      obtain ⟨hid, hserver, hcreated, hlife⟩ := ih
      exact ⟨hstep.jobId_eq.trans hid, hstep.serverJobId_eq.trans hserver,
        hstep.createdTime_eq.trans hcreated, hlife.tail hstep.lifecycle⟩

/-! ## Sessions on the stored row -/

section Rows

variable (base64 : Codec ErrorCode String String) (timeUtil : Codec Unit Nat String)

theorem putJob_eq_ok {request : PutJobRequest} {serverJobId : String} {currentTime : Nat}
    {job : Job} {row : Row}
    (h : putJob base64 timeUtil request serverJobId currentTime = .ok (job, row)) :
    job = createJob request.jobId serverJobId request.jobBody .jobStatusCreated currentTime
      currentTime kDefaultTimestampValue kDefaultRetryCount := by
  unfold putJob at h
  split at h
  · cases h
  · rw [Except.ok.injEq, Prod.mk.injEq] at h
    exact h.1.symm

/-- A successful session on a row that represents `job` leaves a row that
represents the job the same session leaves of `job`. -/
theorem runAll_nosqlJobStore_eq_ok {row row' : Row} {job : Job} {updates : List JobUpdate}
    (hrep : Represents base64 timeUtil row job)
    (h : runAll (applyJobUpdate (nosqlJobStore base64 timeUtil)) row updates = .ok row') :
    ∃ job', runAll (applyJobUpdate jobSpecStore) job updates = .ok job' ∧
      Represents base64 timeUtil row' job' := by
  have hrel := runAll_nosqlJobStore base64 timeUtil hrep updates
  rw [h] at hrel
  exact hrel.exists_of_ok_left

/-- After `PutJob` and a successful session of updates, the stored row decodes
to a job with the server job id and the creation time `PutJob` gave it, whose
status the lifecycle reaches from `JOB_STATUS_CREATED`. -/
theorem putJob_session {request : PutJobRequest} {serverJobId : String} {currentTime : Nat}
    {job : Job} {row row' : Row} {updates : List JobUpdate}
    (hput : putJob base64 timeUtil request serverJobId currentTime = .ok (job, row))
    (hrun : runAll (applyJobUpdate (nosqlJobStore base64 timeUtil)) row updates = .ok row') :
    ∃ job', convertDatabaseItemToJob base64 timeUtil (getDatabaseItem request.jobId row') =
        .ok job' ∧
      job'.serverJobId = serverJobId ∧ job'.createdTime = currentTime ∧
      Relation.ReflTransGen LifecycleMove .jobStatusCreated job'.jobStatus := by
  obtain ⟨job', hspec, hrep'⟩ :=
    runAll_nosqlJobStore_eq_ok base64 timeUtil (putJob_represents base64 timeUtil hput) hrun
  obtain ⟨-, hserver, hcreated, hlife⟩ := runAll_jobSpecStore_keeps hspec
  have hjob := putJob_eq_ok base64 timeUtil hput
  subst hjob
  exact ⟨_, convertDatabaseItemToJob_getDatabaseItem base64 timeUtil hrep' request.jobId,
    hserver, hcreated, hlife⟩

/-- Along a successful session, a stored job that has ended stays as it
ended: the rows before and after the later calls decode to the same end
status. -/
theorem session_terminal_stays {row row₁ row₂ : Row} {job job₁ job₂ : Job}
    {updates₁ updates₂ : List JobUpdate} (jobId : String)
    (hrep : Represents base64 timeUtil row job)
    (h₁ : runAll (applyJobUpdate (nosqlJobStore base64 timeUtil)) row updates₁ = .ok row₁)
    (h₂ : runAll (applyJobUpdate (nosqlJobStore base64 timeUtil)) row₁ updates₂ = .ok row₂)
    (hdec₁ : convertDatabaseItemToJob base64 timeUtil (getDatabaseItem jobId row₁) = .ok job₁)
    (hdec₂ : convertDatabaseItemToJob base64 timeUtil (getDatabaseItem jobId row₂) = .ok job₂)
    (hterm : Terminal job₁.jobStatus) : job₂.jobStatus = job₁.jobStatus := by
  obtain ⟨spec₁, -, hrep₁⟩ := runAll_nosqlJobStore_eq_ok base64 timeUtil hrep h₁
  obtain ⟨spec₂, hspec₂, hrep₂⟩ := runAll_nosqlJobStore_eq_ok base64 timeUtil hrep₁ h₂
  rw [convertDatabaseItemToJob_getDatabaseItem base64 timeUtil hrep₁, Except.ok.injEq] at hdec₁
  rw [convertDatabaseItemToJob_getDatabaseItem base64 timeUtil hrep₂, Except.ok.injEq] at hdec₂
  subst hdec₁ hdec₂
  exact lifecycle_eq_of_terminal (runAll_jobSpecStore_keeps hspec₂).2.2.2 hterm

/-! ## The retry count -/

/-- The number of `UpdateJobStatus(JOB_STATUS_PROCESSING)` calls of a session. -/
def processingCount : List JobUpdate → Nat
  | [] => 0
  | .updateJobBody _ _ :: updates => processingCount updates
  | .updateJobStatus request _ :: updates =>
      (if request.jobStatus = .jobStatusProcessing then 1 else 0) + processingCount updates

/-- After `PutJob` and any successful session of updates, the stored job decodes
with a retry count equal to the number of `JOB_STATUS_PROCESSING` updates of the
session. -/
def RetryCountCountsProcessing : Prop :=
  ∀ (request : PutJobRequest) (serverJobId : String) (currentTime : Nat) (job : Job) (row : Row)
    (updates : List JobUpdate) (row' : Row) (job' : Job),
    putJob base64 timeUtil request serverJobId currentTime = .ok (job, row) →
    runAll (applyJobUpdate (nosqlJobStore base64 timeUtil)) row updates = .ok row' →
    convertDatabaseItemToJob base64 timeUtil (getDatabaseItem request.jobId row') = .ok job' →
    job'.retryCount = processingCount updates

/-- A job put at time 1 under the id `job`, moved to `JOB_STATUS_PROCESSING` at
time 2, and given a new body at time 3; each call names the update time of
the call before. -/
def processingThenBodyUpdate : List JobUpdate :=
  [.updateJobStatus ⟨"job", .jobStatusProcessing, 1, ""⟩ 2,
    .updateJobBody ⟨"job", "body2", 2⟩ 3]

end Rows

end JobClientProvider

end ControlPlane.JobClient
