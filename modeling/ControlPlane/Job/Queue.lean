import ControlPlane.Core.Common
import ControlPlane.Job.Lifecycle

/-!
# The job client across its queue and its table

`JobClientProvider` (src/cc/cpio/client_providers/job_client_provider) keeps
each job twice: as a row of the jobs table, and as a message of the job queue
that carries the job id and the server job id. `PutJob` enqueues the message
and then creates the row; `GetNextJob` takes a message and reads its row,
requiring the message's server job id; `UpdateJobStatus` to an end status
upserts the row and then deletes the message by the receipt the request
carries; `DeleteOrphanedJobMessage` deletes a message whose job is missing or
has ended. Every method is a chain of callbacks, one per service request, and
the callbacks of different calls interleave.

The two stores are kept for one purpose: a job that has not ended can still be
handed out, so every such job of the table has a message in the queue
(`Stocked`). That holds over every run in which no two calls that write one
job are in flight together and every receipt a call deletes by names a
message of the call's own job (`run_stocked`). Neither condition can go:
`UpdateJobStatus` checks the status it reads and upserts later without a
condition, so a `JOB_STATUS_PROCESSING` update in flight reopens a job whose
message an end update has deleted (`processing_upsert_reopens_ended_job`);
and no method compares the receipt with the job id.

Whatever the interleaving, every row of the table decodes to a job
(`run_rows_decode`), and `GetNextJob` hands out a job only with the receipt of
a message of that job (`run_getNextJob_hands_out_own_receipt`).

## Implementation notes

The services are `GcpNoSQLDatabaseClientProvider` and a queue, each serving a
request at once; a service may instead fail with any code but the table's
answer for a record it does not hold. The queue's visibility timeouts are left
out: `GetTopMessage` may hand out any message, as a queue does once the
timeout of a message has run out, and `UpdateMessageVisibilityTimeout` changes
nothing the model keeps. The queue gives each message a receipt of its own.
`Uuid::GenerateUuid` and `TimeUtil::GetCurrentTime` are answers of the
environment, carried by the events. A message body is the pair
`JobMessageBody` writes, so its JSON parse is left out, and so is the
synchronous return value of a method, which finishes its context as well.
-/

namespace ControlPlane.JobClient

open Core Record Simulation JobClientUtils JobClientProvider

def scNoSqlDatabaseProvider : Nat := 0x0208

def scNoSqlDatabaseProviderRecordNotFound : StatusCode :=
  makeErrorCode scNoSqlDatabaseProvider 0x0002

def scGcp : Nat := 0x0230

def scGcpAlreadyExists : StatusCode := makeErrorCode scGcp 0x0007

def kMaximumVisibilityTimeoutInSeconds : Int := 600

/-- A message of the job queue: the `JobMessageBody` of a job, and the receipt
the queue gives the message. -/
structure JobMessage where
  jobId : String
  serverJobId : String
  receiptInfo : String
  deriving DecidableEq, Repr

structure GetNextJobResponse where
  job : Job
  receiptInfo : String
  deriving DecidableEq, Repr

/-- `UpdateJobVisibilityTimeoutRequest`, its duration in seconds. -/
structure UpdateJobVisibilityTimeoutRequest where
  jobId : String
  durationToUpdate : Int
  receiptInfo : String
  deriving DecidableEq, Repr

structure DeleteOrphanedJobMessageRequest where
  jobId : String
  receiptInfo : String
  deriving DecidableEq, Repr

/-- A call of the job client's interface; `PutJob` carries the server job id
that `Uuid::GenerateUuid` gives it. -/
inductive JobCall
  | putJob (request : PutJobRequest) (serverJobId : String)
  | getNextJob
  | getJobById (jobId : String)
  | updateJobBody (request : UpdateJobBodyRequest)
  | updateJobStatus (request : UpdateJobStatusRequest)
  | updateJobVisibilityTimeout (request : UpdateJobVisibilityTimeoutRequest)
  | deleteOrphanedJobMessage (request : DeleteOrphanedJobMessageRequest)
  deriving DecidableEq, Repr

/-- The response a call finishes with when it succeeds; `GetNextJob` answers
with none for an empty message. -/
inductive JobResponse
  | putJob (job : Job)
  | getNextJob (response : Option GetNextJobResponse)
  | getJobById (job : Job)
  | updateJobBody (response : UpdateJobBodyResponse)
  | updateJobStatus (response : UpdateJobStatusResponse)
  | updateJobVisibilityTimeout
  | deleteOrphanedJobMessage
  deriving DecidableEq, Repr

/-- The result a call finishes with when it fails: a code of the job client,
or the code a service answered with. -/
inductive JobError
  | jobClient (code : ErrorCode)
  | scJobClientProviderInvalidDuration
  | scJobClientProviderDuplicateJobEntryCreation
  | scJobClientProviderJobEntryCreationFailed
  | service (statusCode : StatusCode)
  deriving DecidableEq, Repr

/-- `GcpJobClientProvider::ConvertDatabaseErrorForPutJob`. -/
def convertDatabaseErrorForPutJob (statusCode : StatusCode) : JobError :=
  if statusCode = scGcpAlreadyExists then .scJobClientProviderDuplicateJobEntryCreation
  else .scJobClientProviderJobEntryCreationFailed

/-- The service request a call's context waits on, with what its callback is
bound to. -/
inductive Pending
  | enqueueMessage (request : PutJobRequest) (serverJobId : String)
  | createNewJobItem (job : Job)
  | getTopMessage
  | getNextJobItem (message : JobMessage)
  | getJobItemByJobId (jobId : String)
  | getJobItemForUpdateJobBody (request : UpdateJobBodyRequest)
  | upsertUpdatedJobBodyJobItem (request : UpdateJobBodyRequest) (updateTime : Nat)
  | getJobItemForUpdateJobStatus (request : UpdateJobStatusRequest)
  | upsertUpdatedJobStatusJobItem (request : UpdateJobStatusRequest) (updateTime : Nat)
      (retryCount : Int)
  | deleteJobMessageForUpdatingJobStatus (request : UpdateJobStatusRequest) (updateTime : Nat)
      (retryCount : Int)
  | updateMessageVisibilityTimeout (request : UpdateJobVisibilityTimeoutRequest)
  | getJobItemForDeleteOrphanedJobMessage (request : DeleteOrphanedJobMessageRequest)
  | deleteJobMessageForDeletingOrphanedJob (request : DeleteOrphanedJobMessageRequest)
  deriving DecidableEq, Repr

/-- What a callback does last: finish the call's context, or send the next
request. -/
inductive Next
  | finish (result : Except JobError JobResponse)
  | wait (pending : Pending)
  deriving DecidableEq, Repr

/-! ## The methods and their callbacks -/

def missingJobId : Next := .finish (.error (.jobClient .scJobClientProviderMissingJobId))

def invalidReceiptInfo : Next := .finish (.error (.jobClient .scJobClientProviderInvalidReceiptInfo))

/-- The synchronous part of each method: its checks, then its first request. -/
def JobCall.start : JobCall → Next
  | .putJob request serverJobId =>
      if request.jobId.isEmpty then missingJobId else .wait (.enqueueMessage request serverJobId)
  | .getNextJob => .wait .getTopMessage
  | .getJobById jobId => if jobId.isEmpty then missingJobId else .wait (.getJobItemByJobId jobId)
  | .updateJobBody request =>
      if request.jobId.isEmpty then missingJobId else .wait (.getJobItemForUpdateJobBody request)
  | .updateJobStatus request =>
      if request.jobId.isEmpty then missingJobId
      else if request.receiptInfo.isEmpty &&
          (request.jobStatus == .jobStatusSuccess || request.jobStatus == .jobStatusFailure) then
        invalidReceiptInfo
      else .wait (.getJobItemForUpdateJobStatus request)
  | .updateJobVisibilityTimeout request =>
      if request.jobId.isEmpty then missingJobId
      else if request.durationToUpdate < 0 ∨
          request.durationToUpdate > kMaximumVisibilityTimeoutInSeconds then
        .finish (.error .scJobClientProviderInvalidDuration)
      else if request.receiptInfo.isEmpty then invalidReceiptInfo
      else .wait (.updateMessageVisibilityTimeout request)
  | .deleteOrphanedJobMessage request =>
      if request.jobId.isEmpty then missingJobId
      else if request.receiptInfo.isEmpty then invalidReceiptInfo
      else .wait (.getJobItemForDeleteOrphanedJobMessage request)

/-- The last callback of a call: the service's failure, or the call's
response. -/
def finishWith (result : Except StatusCode Unit) (response : JobResponse) : Next :=
  match result with
  | .error statusCode => .finish (.error (.service statusCode))
  | .ok () => .finish (.ok response)

section Callbacks

variable (base64 : Codec ErrorCode String String) (timeUtil : Codec Unit Nat String)

/-- A callback on a read of the table: the service's failure, the failure of
`ConvertDatabaseItemToJob`, or what the callback does with the job. -/
def withJob (result : Except StatusCode Item) (k : Job → Next) : Next :=
  match result with
  | .error statusCode => .finish (.error (.service statusCode))
  | .ok item =>
      match convertDatabaseItemToJob base64 timeUtil item with
      | .error code => .finish (.error (.jobClient code))
      | .ok job => k job

/-- `OnEnqueueMessageCallback`: the job `PutJob` stores, created at the time
the callback reads, and its `CreateDatabaseItem`. -/
def onEnqueueMessageCallback (request : PutJobRequest) (serverJobId : String)
    (result : Except StatusCode Unit) (currentTime : Nat) : Next :=
  match result with
  | .error statusCode => .finish (.error (.service statusCode))
  | .ok () =>
      .wait (.createNewJobItem (createJob request.jobId serverJobId request.jobBody
        .jobStatusCreated currentTime currentTime kDefaultTimestampValue kDefaultRetryCount))

/-- `OnCreateNewJobItemCallback`. -/
def onCreateNewJobItemCallback (job : Job) (result : Except StatusCode Unit) : Next :=
  match result with
  | .error statusCode => .finish (.error (convertDatabaseErrorForPutJob statusCode))
  | .ok () => .finish (.ok (.putJob job))

/-- `OnGetTopMessageCallback`: an empty answer finishes with no job, a
message goes on to the read of its job with its server job id. -/
def onGetTopMessageCallback (result : Except StatusCode (Option JobMessage)) : Next :=
  match result with
  | .error statusCode => .finish (.error (.service statusCode))
  | .ok none => .finish (.ok (.getNextJob none))
  | .ok (some message) => .wait (.getNextJobItem message)

/-- `OnGetNextJobItemCallback`. -/
def onGetNextJobItemCallback (message : JobMessage) (result : Except StatusCode Item) : Next :=
  withJob base64 timeUtil result fun job =>
    .finish (.ok (.getNextJob (some ⟨job, message.receiptInfo⟩)))

/-- `OnGetJobItemByJobIdCallback`. -/
def onGetJobItemByJobIdCallback (result : Except StatusCode Item) : Next :=
  withJob base64 timeUtil result fun job => .finish (.ok (.getJobById job))

/-- `OnGetJobItemForUpdateJobBodyCallback`: the update-time check, then the
upsert of the job for update at the time the callback reads. -/
def onGetJobItemForUpdateJobBodyCallback (request : UpdateJobBodyRequest)
    (result : Except StatusCode Item) (currentTime : Nat) : Next :=
  withJob base64 timeUtil result fun job =>
    if job.updatedTime > request.mostRecentUpdatedTime then
      .finish (.error (.jobClient .scJobClientProviderUpdationConflict))
    else .wait (.upsertUpdatedJobBodyJobItem request currentTime)

/-- `OnUpsertUpdatedJobBodyJobItemCallback`. -/
def onUpsertUpdatedJobBodyJobItemCallback (updateTime : Nat) (result : Except StatusCode Unit) :
    Next :=
  finishWith result (.updateJobBody ⟨updateTime⟩)

/-- `OnGetJobItemForUpdateJobStatusCallback`: the update-time check and
`ValidateJobStatus`; `JOB_STATUS_PROCESSING` raises the retry count and falls
through to `UpsertUpdatedJobStatusJobItem`, which reads the time. -/
def onGetJobItemForUpdateJobStatusCallback (request : UpdateJobStatusRequest)
    (result : Except StatusCode Item) (currentTime : Nat) : Next :=
  withJob base64 timeUtil result fun job =>
    if job.updatedTime > request.mostRecentUpdatedTime then
      .finish (.error (.jobClient .scJobClientProviderUpdationConflict))
    else
      match validateJobStatus job.jobStatus request.jobStatus with
      | .error code => .finish (.error (.jobClient code))
      | .ok () =>
          match request.jobStatus with
          | .jobStatusProcessing =>
              .wait (.upsertUpdatedJobStatusJobItem request currentTime (job.retryCount + 1))
          | .jobStatusFailure | .jobStatusSuccess =>
              .wait (.upsertUpdatedJobStatusJobItem request currentTime job.retryCount)
          | _ => .finish (.error (.jobClient .scJobClientProviderInvalidJobStatus))

/-- `OnUpsertUpdatedJobStatusJobItemCallback`: an end status goes on to
`DeleteJobMessageForUpdatingJobStatus`. -/
def onUpsertUpdatedJobStatusJobItemCallback (request : UpdateJobStatusRequest) (updateTime : Nat)
    (retryCount : Int) (result : Except StatusCode Unit) : Next :=
  match result with
  | .error statusCode => .finish (.error (.service statusCode))
  | .ok () =>
      match request.jobStatus with
      | .jobStatusFailure | .jobStatusSuccess =>
          .wait (.deleteJobMessageForUpdatingJobStatus request updateTime retryCount)
      | _ => .finish (.ok (.updateJobStatus ⟨request.jobStatus, updateTime, retryCount⟩))

/-- `OnDeleteJobMessageForUpdatingJobStatusCallback`. -/
def onDeleteJobMessageForUpdatingJobStatusCallback (request : UpdateJobStatusRequest)
    (updateTime : Nat) (retryCount : Int) (result : Except StatusCode Unit) : Next :=
  finishWith result (.updateJobStatus ⟨request.jobStatus, updateTime, retryCount⟩)

/-- `OnUpdateMessageVisibilityTimeoutCallback`. -/
def onUpdateMessageVisibilityTimeoutCallback (result : Except StatusCode Unit) : Next :=
  finishWith result .updateJobVisibilityTimeout

/-- `OnGetJobItemForDeleteOrphanedJobMessageCallback`: a job the table does
not hold, or one that has ended, has its message deleted. -/
def onGetJobItemForDeleteOrphanedJobMessageCallback (request : DeleteOrphanedJobMessageRequest)
    (result : Except StatusCode Item) : Next :=
  match result with
  | .error statusCode =>
      if statusCode = scNoSqlDatabaseProviderRecordNotFound then
        .wait (.deleteJobMessageForDeletingOrphanedJob request)
      else .finish (.error (.service statusCode))
  | .ok item =>
      match convertDatabaseItemToJob base64 timeUtil item with
      | .error code => .finish (.error (.jobClient code))
      | .ok job =>
          if job.jobStatus = .jobStatusSuccess ∨ job.jobStatus = .jobStatusFailure then
            .wait (.deleteJobMessageForDeletingOrphanedJob request)
          else .finish (.error (.jobClient .scJobClientProviderInvalidJobStatus))

/-- `OnDeleteJobMessageForDeleteOrphanedJobMessageCallback`. -/
def onDeleteJobMessageForDeleteOrphanedJobMessageCallback (result : Except StatusCode Unit) :
    Next :=
  finishWith result .deleteOrphanedJobMessage

end Callbacks

/-! ## The services -/

/-- The jobs table: the row of each job id. -/
abbrev JobTable := AList (fun _ : String => Row)

namespace JobTable

/-- `GetDatabaseItem` of the jobs table: the row of the job id, when it holds
the server job id the request requires (`CreateGetNextJobRequest`); otherwise
`SC_NO_SQL_DATABASE_PROVIDER_RECORD_NOT_FOUND`. -/
def getDatabaseItem (table : JobTable) (jobId : String) (requiredServerJobId : Option String) :
    Except StatusCode Item :=
  match table.lookup jobId with
  | none => .error scNoSqlDatabaseProviderRecordNotFound
  | some row =>
      if requiredServerJobId.all fun serverJobId =>
          row.lookup kServerJobIdColumnName == some (.valueString serverJobId) then
        .ok (JobClient.getDatabaseItem jobId row)
      else .error scNoSqlDatabaseProviderRecordNotFound

/-- `CreateDatabaseItem`: an insert, which Spanner refuses with
`SC_GCP_ALREADY_EXISTS` for a key the table holds. -/
def createDatabaseItem (table : JobTable) (request : CreateDatabaseItemRequest) :
    Except StatusCode JobTable :=
  if request.partitionKey ∈ table then .error scGcpAlreadyExists
  else .ok (table.insert request.partitionKey (JobClient.createDatabaseItem request))

/-- `UpsertDatabaseItem` without required attributes: the merged row, or the
new attributes alone under a key the table does not hold. -/
def upsertDatabaseItem (table : JobTable) (request : UpsertDatabaseItemRequest) : JobTable :=
  table.insert request.partitionKey
    (JobClient.upsertDatabaseItem ((table.lookup request.partitionKey).getD ∅) request)

end JobTable

/-- `DeleteMessage`: the queue drops the message of the receipt. -/
def deleteMessage (queue : List JobMessage) (receiptInfo : String) : List JobMessage :=
  queue.filter fun message => message.receiptInfo != receiptInfo

/-- A failure of a service call: any code but the one the table answers for a
record it does not hold. -/
structure ServiceFailure where
  statusCode : StatusCode
  ne_recordNotFound : statusCode ≠ scNoSqlDatabaseProviderRecordNotFound
  deriving DecidableEq

/-- How the service a context waits on answers it. A served request carries
the environment's part of serving it: the receipt the queue gives a message it
takes, and the position of the message `GetTopMessage` hands out. -/
inductive Reply
  | failure (failure : ServiceFailure)
  | served (receiptInfo : String) (top : Nat)
  deriving DecidableEq

/-- The result a reply gives a callback, when serving the request gives
`served`. -/
def Reply.result {α : Type} (served : Except StatusCode α) : Reply → Except StatusCode α
  | .failure serviceFailure => .error serviceFailure.statusCode
  | .served _ _ => served

/-! ## The system -/

/-- The job client, its two services, and the contexts in flight. -/
structure JobWorld where
  table : JobTable
  queue : List JobMessage
  /-- The request each context in flight waits on, by the context's id. -/
  pending : AList (fun _ : Nat => Pending)
  nextContext : Nat
  /-- Every message the queue took, in order. -/
  sent : List JobMessage
  /-- Every `Finish()` so far: the context and its result. -/
  finished : List (Nat × Except JobError JobResponse)

/-- The atomic actions: a method's synchronous part, and the answer of a
service with the callback that runs on it at the time it reads. -/
inductive JobEvent
  | call (jobCall : JobCall)
  | answer (context : Nat) (reply : Reply) (currentTime : Nat)
  deriving DecidableEq

namespace JobWorld

section Step

variable (base64 : Codec ErrorCode String String) (timeUtil : Codec Unit Nat String)

def initial : JobWorld := ⟨∅, [], ∅, 0, [], []⟩

/-- A context goes on: it waits on its next request, or it finishes. -/
def resume (w : JobWorld) (context : Nat) : Next → JobWorld
  | .wait p => { w with pending := w.pending.insert context p }
  | .finish result =>
      { w with pending := w.pending.erase context, finished := w.finished ++ [(context, result)] }

/-- The queue takes a message. -/
def takeMessage (w : JobWorld) (message : JobMessage) : JobWorld :=
  { w with queue := w.queue ++ [message], sent := w.sent ++ [message] }

/-- The queue serves `DeleteMessage`. -/
def dropMessage (w : JobWorld) (receiptInfo : String) : JobWorld :=
  { w with queue := deleteMessage w.queue receiptInfo }

/-- The table serves the `UpsertDatabaseItem` that `CreateUpsertJobRequest`
builds from a job for update. -/
def upsertJob (w : JobWorld) (update : Job) : JobWorld :=
  { w with table := w.table.upsertDatabaseItem (createUpsertJobRequest base64 timeUtil update) }

/-- A service answers the request of a waiting context, and the callback runs
on the result at `currentTime`. `none` when the queue would give a new message
a receipt it gave before. -/
def serve (w : JobWorld) (currentTime : Nat) (p : Pending) (reply : Reply) :
    Option (JobWorld × Next) :=
  match p with
  | .enqueueMessage request serverJobId =>
      match reply with
      | .failure serviceFailure =>
          some (w, onEnqueueMessageCallback request serverJobId (.error serviceFailure.statusCode)
            currentTime)
      | .served receiptInfo _ =>
          if receiptInfo ∈ w.sent.map JobMessage.receiptInfo then none
          else
            some (w.takeMessage ⟨request.jobId, serverJobId, receiptInfo⟩,
              onEnqueueMessageCallback request serverJobId (.ok ()) currentTime)
  | .createNewJobItem job =>
      match reply.result (w.table.createDatabaseItem (createPutJobRequest base64 timeUtil job)) with
      | .error statusCode => some (w, onCreateNewJobItemCallback job (.error statusCode))
      | .ok table => some ({ w with table := table }, onCreateNewJobItemCallback job (.ok ()))
  | .getTopMessage =>
      match reply with
      | .failure serviceFailure => some (w, onGetTopMessageCallback (.error serviceFailure.statusCode))
      | .served _ top => some (w, onGetTopMessageCallback (.ok w.queue[top]?))
  | .getNextJobItem message =>
      some (w, onGetNextJobItemCallback base64 timeUtil message
        (reply.result (w.table.getDatabaseItem message.jobId (some message.serverJobId))))
  | .getJobItemByJobId jobId =>
      some (w, onGetJobItemByJobIdCallback base64 timeUtil
        (reply.result (w.table.getDatabaseItem jobId none)))
  | .getJobItemForUpdateJobBody request =>
      some (w, onGetJobItemForUpdateJobBodyCallback base64 timeUtil request
        (reply.result (w.table.getDatabaseItem request.jobId none)) currentTime)
  | .upsertUpdatedJobBodyJobItem request updateTime =>
      match reply with
      | .failure serviceFailure =>
          some (w,
            onUpsertUpdatedJobBodyJobItemCallback updateTime (.error serviceFailure.statusCode))
      | .served _ _ =>
          some (w.upsertJob base64 timeUtil (jobForBodyUpdate request updateTime),
            onUpsertUpdatedJobBodyJobItemCallback updateTime (.ok ()))
  | .getJobItemForUpdateJobStatus request =>
      some (w, onGetJobItemForUpdateJobStatusCallback base64 timeUtil request
        (reply.result (w.table.getDatabaseItem request.jobId none)) currentTime)
  | .upsertUpdatedJobStatusJobItem request updateTime retryCount =>
      match reply with
      | .failure serviceFailure =>
          some (w, onUpsertUpdatedJobStatusJobItemCallback request updateTime retryCount
            (.error serviceFailure.statusCode))
      | .served _ _ =>
          some (w.upsertJob base64 timeUtil (jobForStatusUpdate request retryCount updateTime),
            onUpsertUpdatedJobStatusJobItemCallback request updateTime retryCount (.ok ()))
  | .deleteJobMessageForUpdatingJobStatus request updateTime retryCount =>
      match reply with
      | .failure serviceFailure =>
          some (w, onDeleteJobMessageForUpdatingJobStatusCallback request updateTime retryCount
            (.error serviceFailure.statusCode))
      | .served _ _ =>
          some (w.dropMessage request.receiptInfo,
            onDeleteJobMessageForUpdatingJobStatusCallback request updateTime retryCount (.ok ()))
  | .updateMessageVisibilityTimeout _ =>
      some (w, onUpdateMessageVisibilityTimeoutCallback (reply.result (.ok ())))
  | .getJobItemForDeleteOrphanedJobMessage request =>
      some (w, onGetJobItemForDeleteOrphanedJobMessageCallback base64 timeUtil request
        (reply.result (w.table.getDatabaseItem request.jobId none)))
  | .deleteJobMessageForDeletingOrphanedJob request =>
      match reply with
      | .failure serviceFailure =>
          some (w, onDeleteJobMessageForDeleteOrphanedJobMessageCallback
            (.error serviceFailure.statusCode))
      | .served _ _ =>
          some (w.dropMessage request.receiptInfo,
            onDeleteJobMessageForDeleteOrphanedJobMessageCallback (.ok ()))

/-- One event. A call takes the next context id; an answer to a context that
waits on nothing, or one that cannot come, leaves the world as it is. -/
def step (w : JobWorld) : JobEvent → JobWorld
  | .call jobCall =>
      ({ w with nextContext := w.nextContext + 1 } : JobWorld).resume w.nextContext jobCall.start
  | .answer context reply currentTime =>
      match w.pending.lookup context with
      | none => w
      | some p =>
          match serve base64 timeUtil w currentTime p reply with
          | none => w
          | some (w', next) => w'.resume context next

def run (w : JobWorld) (events : List JobEvent) : JobWorld := events.foldl (step base64 timeUtil) w

end Step

end JobWorld

/-! ## What each call writes -/

/-- The job a call writes, when it writes one. -/
def JobCall.writes : JobCall → Option String
  | .putJob request _ => some request.jobId
  | .updateJobBody request => some request.jobId
  | .updateJobStatus request => some request.jobId
  | .deleteOrphanedJobMessage request => some request.jobId
  | _ => none

instance : DecidablePred Terminal := fun status =>
  inferInstanceAs (Decidable (status = .jobStatusSuccess ∨ status = .jobStatusFailure))

/-- The receipt a call may delete a message by. -/
def JobCall.deletesBy : JobCall → Option String
  | .updateJobStatus request =>
      if Terminal request.jobStatus then some request.receiptInfo else none
  | .deleteOrphanedJobMessage request => some request.receiptInfo
  | _ => none

/-- The job the call a context belongs to writes, when it writes one. -/
def Pending.writes : Pending → Option String
  | .enqueueMessage request _ => some request.jobId
  | .createNewJobItem job => some job.jobId
  | .getJobItemForUpdateJobBody request => some request.jobId
  | .upsertUpdatedJobBodyJobItem request _ => some request.jobId
  | .getJobItemForUpdateJobStatus request => some request.jobId
  | .upsertUpdatedJobStatusJobItem request _ _ => some request.jobId
  | .deleteJobMessageForUpdatingJobStatus request _ _ => some request.jobId
  | .getJobItemForDeleteOrphanedJobMessage request => some request.jobId
  | .deleteJobMessageForDeletingOrphanedJob request => some request.jobId
  | _ => none

/-! ## The services -/

section Services

variable (base64 : Codec ErrorCode String String) (timeUtil : Codec Unit Nat String)

/-- What `ConvertDatabaseItemToJob` reads of an item for the job's identity. -/
theorem convertDatabaseItemToJob_eq_ok {item : Item} {job : Job}
    (h : convertDatabaseItemToJob base64 timeUtil item = .ok job) :
    job.jobId = item.partitionKey.getD "" ∧
      job.serverJobId = (columnAt (getItemAttributes item) kServerJobIdColumnName).getString := by
  simp only [convertDatabaseItemToJob, bind_eq_ok_iff] at h
  obtain ⟨-, -, jobBody, -, h⟩ := h
  cases h
  exact ⟨rfl, rfl⟩

end Services

namespace JobTable

variable {table table' : JobTable} {jobId : String}

theorem getDatabaseItem_eq_ok {required : Option String} {item : Item}
    (h : table.getDatabaseItem jobId required = .ok item) :
    ∃ row, table.lookup jobId = some row ∧ item = JobClient.getDatabaseItem jobId row ∧
      ∀ serverJobId ∈ required, row.lookup kServerJobIdColumnName = some (.valueString serverJobId) := by
  unfold getDatabaseItem at h
  split at h
  · cases h
  · rename_i row hrow
    split at h
    · rename_i hreq
      refine ⟨row, hrow, (Except.ok.inj h).symm, fun serverJobId hs => ?_⟩
      rw [Option.mem_def] at hs
      subst hs
      simpa using hreq
    · cases h

/-- The table answers a job id it does not hold with `RECORD_NOT_FOUND`. -/
theorem getDatabaseItem_of_not_mem (h : jobId ∉ table) (required : Option String) :
    table.getDatabaseItem jobId required = .error scNoSqlDatabaseProviderRecordNotFound := by
  rw [getDatabaseItem, AList.lookup_eq_none.mpr h]

/-- Without a required server job id the table answers with the row it holds. -/
theorem getDatabaseItem_of_lookup {row : Row} (h : table.lookup jobId = some row) :
    table.getDatabaseItem jobId none = .ok (JobClient.getDatabaseItem jobId row) := by
  simp [getDatabaseItem, h]

theorem createDatabaseItem_eq_ok {request : CreateDatabaseItemRequest}
    (h : table.createDatabaseItem request = .ok table') :
    request.partitionKey ∉ table ∧
      table' = table.insert request.partitionKey (JobClient.createDatabaseItem request) := by
  unfold createDatabaseItem at h
  split at h
  · cases h
  · exact ⟨by assumption, (Except.ok.inj h).symm⟩

theorem createDatabaseItem_eq_error {request : CreateDatabaseItemRequest} {statusCode : StatusCode}
    (h : table.createDatabaseItem request = .error statusCode) :
    request.partitionKey ∈ table := by
  unfold createDatabaseItem at h
  split at h
  · assumption
  · cases h

theorem lookup_upsertDatabaseItem_ne {request : UpsertDatabaseItemRequest}
    (h : jobId ≠ request.partitionKey) :
    (table.upsertDatabaseItem request).lookup jobId = table.lookup jobId :=
  AList.lookup_insert_ne h

theorem lookup_upsertDatabaseItem_of_lookup {request : UpsertDatabaseItemRequest} {row : Row}
    (h : table.lookup request.partitionKey = some row) :
    (table.upsertDatabaseItem request).lookup request.partitionKey =
      some (JobClient.upsertDatabaseItem row request) := by
  rw [upsertDatabaseItem, h, Option.getD_some, AList.lookup_insert]

theorem mem_upsertDatabaseItem {request : UpsertDatabaseItemRequest} (h : jobId ∈ table) :
    jobId ∈ table.upsertDatabaseItem request :=
  (AList.mem_insert _).mpr (.inr h)

theorem mem_of_lookup {row : Row} (h : table.lookup jobId = some row) : jobId ∈ table :=
  AList.lookup_isSome.mp (by rw [h]; rfl)

end JobTable

theorem mem_deleteMessage {queue : List JobMessage} {receiptInfo : String} {m : JobMessage} :
    m ∈ deleteMessage queue receiptInfo ↔ m ∈ queue ∧ m.receiptInfo ≠ receiptInfo := by
  simp [deleteMessage]

@[simp] theorem finishWith_ne_wait {result : Except StatusCode Unit} {response : JobResponse}
    {p : Pending} : finishWith result response ≠ .wait p := by
  cases result <;> simp [finishWith]

theorem reply_result_eq_ok {α : Type} {served : Except StatusCode α} {reply : Reply} {a : α}
    (h : reply.result served = .ok a) : served = .ok a := by
  cases reply with
  | failure serviceFailure => cases h
  | served _ _ => exact h

namespace JobWorld

/-! ## How the steps change the world -/

section Fields

variable (base64 : Codec ErrorCode String String) (timeUtil : Codec Unit Nat String)
variable (w : JobWorld)

@[simp] theorem resume_table (context : Nat) (next : Next) :
    (w.resume context next).table = w.table := by
  cases next <;> rfl

@[simp] theorem resume_queue (context : Nat) (next : Next) :
    (w.resume context next).queue = w.queue := by
  cases next <;> rfl

@[simp] theorem resume_sent (context : Nat) (next : Next) :
    (w.resume context next).sent = w.sent := by
  cases next <;> rfl

@[simp] theorem resume_wait (context : Nat) (p : Pending) :
    (w.resume context (.wait p)).pending = w.pending.insert context p := rfl

@[simp] theorem resume_finish_pending (context : Nat) (result : Except JobError JobResponse) :
    (w.resume context (.finish result)).pending = w.pending.erase context := rfl

@[simp] theorem resume_finish_finished (context : Nat) (result : Except JobError JobResponse) :
    (w.resume context (.finish result)).finished = w.finished ++ [(context, result)] := rfl

@[simp] theorem resume_wait_finished (context : Nat) (p : Pending) :
    (w.resume context (.wait p)).finished = w.finished := rfl

@[simp] theorem takeMessage_table (m : JobMessage) : (w.takeMessage m).table = w.table := rfl

@[simp] theorem takeMessage_queue (m : JobMessage) : (w.takeMessage m).queue = w.queue ++ [m] := rfl

@[simp] theorem takeMessage_sent (m : JobMessage) : (w.takeMessage m).sent = w.sent ++ [m] := rfl

@[simp] theorem takeMessage_pending (m : JobMessage) : (w.takeMessage m).pending = w.pending := rfl

@[simp] theorem takeMessage_finished (m : JobMessage) : (w.takeMessage m).finished = w.finished :=
  rfl

@[simp] theorem dropMessage_table (r : String) : (w.dropMessage r).table = w.table := rfl

@[simp] theorem dropMessage_queue (r : String) :
    (w.dropMessage r).queue = deleteMessage w.queue r := rfl

@[simp] theorem dropMessage_sent (r : String) : (w.dropMessage r).sent = w.sent := rfl

@[simp] theorem dropMessage_pending (r : String) : (w.dropMessage r).pending = w.pending := rfl

@[simp] theorem dropMessage_finished (r : String) : (w.dropMessage r).finished = w.finished := rfl

@[simp] theorem upsertJob_table (update : Job) : (w.upsertJob base64 timeUtil update).table =
    w.table.upsertDatabaseItem (createUpsertJobRequest base64 timeUtil update) := rfl

@[simp] theorem upsertJob_queue (update : Job) : (w.upsertJob base64 timeUtil update).queue = w.queue :=
  rfl

@[simp] theorem upsertJob_sent (update : Job) : (w.upsertJob base64 timeUtil update).sent = w.sent :=
  rfl

@[simp] theorem upsertJob_pending (update : Job) :
    (w.upsertJob base64 timeUtil update).pending = w.pending := rfl

@[simp] theorem upsertJob_finished (update : Job) :
    (w.upsertJob base64 timeUtil update).finished = w.finished := rfl

end Fields

/-! ## What the system keeps -/

section Invariants

variable (base64 : Codec ErrorCode String String) (timeUtil : Codec Unit Nat String)

/-- The job the job client reads under `jobId`: `ConvertDatabaseItemToJob` of
`GetDatabaseItem`, none when the table holds no row. -/
def readJob (table : JobTable) (jobId : String) : Option (Except ErrorCode Job) :=
  (table.lookup jobId).map fun row => convertDatabaseItemToJob base64 timeUtil (getDatabaseItem jobId row)

/-- The table holds no job under `jobId` that has not ended. -/
def EndedAt (table : JobTable) (jobId : String) : Prop :=
  ∀ job, readJob base64 timeUtil table jobId = some (.ok job) → Terminal job.jobStatus

/-- The table holds no job under `jobId` that has ended. -/
def OpenAt (table : JobTable) (jobId : String) : Prop :=
  ∀ job, readJob base64 timeUtil table jobId = some (.ok job) → ¬ Terminal job.jobStatus

/-- The job under `jobId`, when it has not ended, has a message in the queue
with its job id and server job id. -/
def StockedAt (w : JobWorld) (jobId : String) : Prop :=
  ∀ job, readJob base64 timeUtil w.table jobId = some (.ok job) → ¬ Terminal job.jobStatus →
    ∃ m ∈ w.queue, m.jobId = jobId ∧ m.serverJobId = job.serverJobId

/-- Every job of the table that has not ended can still be handed out. -/
def Stocked (w : JobWorld) : Prop := ∀ jobId, StockedAt base64 timeUtil w jobId

/-- The receipt names a message the queue took for the job. -/
def Owns (w : JobWorld) (jobId receiptInfo : String) : Prop :=
  ∃ m ∈ w.sent, m.receiptInfo = receiptInfo ∧ m.jobId = jobId

instance (w : JobWorld) (jobId receiptInfo : String) : Decidable (Owns w jobId receiptInfo) :=
  inferInstanceAs (Decidable (∃ m ∈ w.sent, m.receiptInfo = receiptInfo ∧ m.jobId = jobId))

/-- What a waiting context knows of the stores whatever the other calls do:
the message `GetNextJob` took was sent, and an upsert goes to a row the read
before it found. -/
def Ready (w : JobWorld) : Pending → Prop
  | .getNextJobItem message => message ∈ w.sent
  | .upsertUpdatedJobBodyJobItem request _ => request.jobId ∈ w.table
  | .upsertUpdatedJobStatusJobItem request _ _ => request.jobId ∈ w.table
  | _ => True

/-- Every row of the table is the row `PutJob` stores for a job of its key. -/
def JobRows (table : JobTable) : Prop :=
  ∀ jobId row, table.lookup jobId = some row →
    ∃ job, job.jobId = jobId ∧ Represents base64 timeUtil row job

/-- The response carries the receipt of a message the queue took for the job
it hands out. -/
def HandedOut (w : JobWorld) (response : GetNextJobResponse) : Prop :=
  ∃ m ∈ w.sent, m.receiptInfo = response.receiptInfo ∧ m.jobId = response.job.jobId ∧
    m.serverJobId = response.job.serverJobId

/-- The facts that hold in every run. -/
structure Sound (w : JobWorld) : Prop where
  rows : JobRows base64 timeUtil w.table
  queue_sent : ∀ m ∈ w.queue, m ∈ w.sent
  receipts_nodup : (w.sent.map JobMessage.receiptInfo).Nodup
  ready : ∀ context p, w.pending.lookup context = some p → Ready w p
  handedOut : ∀ entry ∈ w.finished, ∀ response : GetNextJobResponse,
    entry.2 = .ok (.getNextJob (some response)) → HandedOut w response

/-- What a waiting context of a call that writes one job keeps of that job:
`PutJob` creates a row whose message is in the queue, a status update to
`JOB_STATUS_PROCESSING` goes to a job that has not ended, and a message is
deleted, by a receipt of the job, only when the job has ended. -/
def Safe (w : JobWorld) : Pending → Prop
  | .createNewJobItem job => ∃ m ∈ w.queue, m.jobId = job.jobId ∧ m.serverJobId = job.serverJobId
  | .getJobItemForUpdateJobStatus request =>
      Terminal request.jobStatus → Owns w request.jobId request.receiptInfo
  | .upsertUpdatedJobStatusJobItem request _ _ =>
      request.jobStatus = .jobStatusProcessing ∧ OpenAt base64 timeUtil w.table request.jobId ∨
        Terminal request.jobStatus ∧ Owns w request.jobId request.receiptInfo
  | .deleteJobMessageForUpdatingJobStatus request _ _ =>
      EndedAt base64 timeUtil w.table request.jobId ∧ Owns w request.jobId request.receiptInfo
  | .getJobItemForDeleteOrphanedJobMessage request => Owns w request.jobId request.receiptInfo
  | .deleteJobMessageForDeletingOrphanedJob request =>
      EndedAt base64 timeUtil w.table request.jobId ∧ Owns w request.jobId request.receiptInfo
  | _ => True

/-- No two contexts in flight belong to calls that write one job. -/
def Exclusive (pending : AList (fun _ : Nat => Pending)) : Prop :=
  ∀ context₁ context₂ p₁ p₂ jobId, pending.lookup context₁ = some p₁ →
    pending.lookup context₂ = some p₂ → p₁.writes = some jobId → p₂.writes = some jobId →
      context₁ = context₂

/-- The invariant of the runs that keep the two conditions. -/
structure Inv (w : JobWorld) : Prop where
  sound : Sound base64 timeUtil w
  stocked : Stocked base64 timeUtil w
  safe : ∀ context p, w.pending.lookup context = some p → Safe base64 timeUtil w p
  exclusive : Exclusive w.pending

/-- A call may start when no context in flight belongs to a call that writes
its job, and the receipt it may delete by names a message of its job. -/
structure Admits (w : JobWorld) (jobCall : JobCall) : Prop where
  exclusive : ∀ jobId ∈ jobCall.writes, ∀ entry ∈ w.pending.entries, entry.2.writes ≠ some jobId
  owns : ∀ jobId ∈ jobCall.writes, ∀ receiptInfo ∈ jobCall.deletesBy, Owns w jobId receiptInfo

instance (w : JobWorld) (jobCall : JobCall) : Decidable (Admits w jobCall) :=
  decidable_of_iff ((∀ jobId ∈ jobCall.writes, ∀ entry ∈ w.pending.entries,
      entry.2.writes ≠ some jobId) ∧
    ∀ jobId ∈ jobCall.writes, ∀ receiptInfo ∈ jobCall.deletesBy, Owns w jobId receiptInfo)
    ⟨fun h => ⟨h.1, h.2⟩, fun h => ⟨h.1, h.2⟩⟩

/-- The events a disciplined client lets happen: every call is admitted. -/
def Allows (w : JobWorld) : JobEvent → Prop
  | .call jobCall => Admits w jobCall
  | .answer .. => True

instance (w : JobWorld) (e : JobEvent) : Decidable (Allows w e) := by
  cases e <;> unfold Allows <;> infer_instance

end Invariants

/-! ## What serving a request can do -/

section Reads

variable (base64 : Codec ErrorCode String String) (timeUtil : Codec Unit Nat String)
variable {table : JobTable} {jobId : String}

/-- A row that represents a job reads as that job. -/
theorem readJob_of_represents {row : Row} {job : Job} (hrow : table.lookup jobId = some row)
    (h : Represents base64 timeUtil row job) (hjob : job.jobId = jobId) :
    readJob base64 timeUtil table jobId = some (.ok job) := by
  subst hjob
  rw [readJob, hrow, Option.map_some, convertDatabaseItemToJob_getDatabaseItem base64 timeUtil h]

/-- What a read of the table found is what `readJob` reads. -/
theorem readJob_of_getDatabaseItem {required : Option String} {item : Item} {job : Job}
    (h : table.getDatabaseItem jobId required = .ok item)
    (hjob : convertDatabaseItemToJob base64 timeUtil item = .ok job) :
    readJob base64 timeUtil table jobId = some (.ok job) := by
  obtain ⟨row, hrow, rfl, -⟩ := JobTable.getDatabaseItem_eq_ok h
  rw [readJob, hrow, Option.map_some, hjob]

/-- Without a required server job id, `RECORD_NOT_FOUND` means the table holds
no row. -/
theorem readJob_of_recordNotFound
    (h : table.getDatabaseItem jobId none = .error scNoSqlDatabaseProviderRecordNotFound) :
    readJob base64 timeUtil table jobId = none := by
  cases hrow : table.lookup jobId with
  | none => rw [readJob, hrow, Option.map_none]
  | some row => rw [JobTable.getDatabaseItem_of_lookup hrow] at h; cases h

theorem readJob_congr {table' : JobTable} (h : table'.lookup jobId = table.lookup jobId) :
    readJob base64 timeUtil table' jobId = readJob base64 timeUtil table jobId := by
  rw [readJob, readJob, h]

/-- A callback on a read that neither fails nor finishes with an error found
the job and went on with it. -/
theorem withJob_eq_of_ne_error {result : Except StatusCode Item} {k : Job → Next} {next : Next}
    (h : withJob base64 timeUtil result k = next) (hnext : ∀ e, next ≠ .finish (.error e)) :
    ∃ item job, result = .ok item ∧ convertDatabaseItemToJob base64 timeUtil item = .ok job ∧
      k job = next := by
  unfold withJob at h
  split at h
  · exact absurd h.symm (hnext _)
  · rename_i item
    split at h
    · exact absurd h.symm (hnext _)
    · rename_i job hjob
      exact ⟨item, job, rfl, hjob, h⟩

/-- The table's `RECORD_NOT_FOUND` never comes from a failing service. -/
theorem reply_result_eq_recordNotFound {α : Type} {served : Except StatusCode α} {reply : Reply}
    (h : reply.result served = .error scNoSqlDatabaseProviderRecordNotFound) :
    served = .error scNoSqlDatabaseProviderRecordNotFound := by
  cases reply with
  | failure serviceFailure => exact absurd (Except.error.inj h) serviceFailure.ne_recordNotFound
  | served _ _ => exact h

end Reads

section Serve

variable (base64 : Codec ErrorCode String String) (timeUtil : Codec Unit Nat String)
variable {w w' : JobWorld} {currentTime : Nat} {p p' : Pending} {reply : Reply} {next : Next}

/-- What serving a request does to the stores: nothing, or the one write of its
stage, which the queue does only with a receipt it never gave and the table
creates only under a key it does not hold. -/
theorem serve_world (h : serve base64 timeUtil w currentTime p reply = some (w', next)) :
    w' = w ∨
    (∃ request serverJobId receiptInfo, p = .enqueueMessage request serverJobId ∧
      receiptInfo ∉ w.sent.map JobMessage.receiptInfo ∧
      w' = w.takeMessage ⟨request.jobId, serverJobId, receiptInfo⟩) ∨
    (∃ job, p = .createNewJobItem job ∧ job.jobId ∉ w.table ∧
      w' = { w with table := w.table.insert job.jobId (putRow base64 timeUtil job) }) ∨
    (∃ request updateTime, p = .upsertUpdatedJobBodyJobItem request updateTime ∧
      w' = w.upsertJob base64 timeUtil (jobForBodyUpdate request updateTime)) ∨
    (∃ request updateTime retryCount,
      p = .upsertUpdatedJobStatusJobItem request updateTime retryCount ∧
      w' = w.upsertJob base64 timeUtil (jobForStatusUpdate request retryCount updateTime)) ∨
    (∃ request updateTime retryCount,
      p = .deleteJobMessageForUpdatingJobStatus request updateTime retryCount ∧
      w' = w.dropMessage request.receiptInfo) ∨
    (∃ request, p = .deleteJobMessageForDeletingOrphanedJob request ∧
      w' = w.dropMessage request.receiptInfo) := by
  cases p with
  | enqueueMessage request serverJobId =>
      cases reply with
      | failure serviceFailure =>
          simp only [serve, Option.some.injEq, Prod.mk.injEq] at h
          exact .inl h.1.symm
      | served receiptInfo top =>
          simp only [serve] at h
          split at h
          · cases h
          · rename_i hfresh
            simp only [Option.some.injEq, Prod.mk.injEq] at h
            exact .inr (.inl ⟨request, serverJobId, receiptInfo, rfl, hfresh, h.1.symm⟩)
  | createNewJobItem job =>
      simp only [serve] at h
      split at h
      · simp only [Option.some.injEq, Prod.mk.injEq] at h
        exact .inl h.1.symm
      · rename_i table hcreate
        obtain ⟨hnew, rfl⟩ := JobTable.createDatabaseItem_eq_ok (reply_result_eq_ok hcreate)
        simp only [Option.some.injEq, Prod.mk.injEq] at h
        exact .inr (.inr (.inl ⟨job, rfl, hnew, h.1.symm⟩))
  | upsertUpdatedJobBodyJobItem request updateTime =>
      cases reply <;> simp only [serve, Option.some.injEq, Prod.mk.injEq] at h
      · exact .inl h.1.symm
      · exact .inr (.inr (.inr (.inl ⟨request, updateTime, rfl, h.1.symm⟩)))
  | upsertUpdatedJobStatusJobItem request updateTime retryCount =>
      cases reply <;> simp only [serve, Option.some.injEq, Prod.mk.injEq] at h
      · exact .inl h.1.symm
      · exact .inr (.inr (.inr (.inr (.inl ⟨request, updateTime, retryCount, rfl, h.1.symm⟩))))
  | deleteJobMessageForUpdatingJobStatus request updateTime retryCount =>
      cases reply <;> simp only [serve, Option.some.injEq, Prod.mk.injEq] at h
      · exact .inl h.1.symm
      · exact .inr (.inr (.inr (.inr (.inr (.inl
          ⟨request, updateTime, retryCount, rfl, h.1.symm⟩)))))
  | deleteJobMessageForDeletingOrphanedJob request =>
      cases reply <;> simp only [serve, Option.some.injEq, Prod.mk.injEq] at h
      · exact .inl h.1.symm
      · exact .inr (.inr (.inr (.inr (.inr (.inr ⟨request, rfl, h.1.symm⟩)))))
  -- the reads and the visibility timeout leave both stores as they are
  | getTopMessage | getNextJobItem _ | getJobItemByJobId _ | getJobItemForUpdateJobBody _
  | getJobItemForUpdateJobStatus _ | updateMessageVisibilityTimeout _
  | getJobItemForDeleteOrphanedJobMessage _ =>
      cases reply <;> simp only [serve, Option.some.injEq, Prod.mk.injEq] at h <;>
        exact .inl h.1.symm

/-- The requests a context goes on to, with what the answer before each found:
only six stages have a next request. -/
theorem serve_wait (h : serve base64 timeUtil w currentTime p reply = some (w', .wait p')) :
    (∃ request serverJobId receiptInfo, p = .enqueueMessage request serverJobId ∧
      w' = w.takeMessage ⟨request.jobId, serverJobId, receiptInfo⟩ ∧
      p' = .createNewJobItem (createJob request.jobId serverJobId request.jobBody
        .jobStatusCreated currentTime currentTime kDefaultTimestampValue kDefaultRetryCount)) ∨
    (p = .getTopMessage ∧ w' = w ∧ ∃ message ∈ w.queue, p' = .getNextJobItem message) ∨
    (∃ request, p = .getJobItemForUpdateJobBody request ∧ w' = w ∧ request.jobId ∈ w.table ∧
      p' = .upsertUpdatedJobBodyJobItem request currentTime) ∨
    (∃ request job retryCount, p = .getJobItemForUpdateJobStatus request ∧ w' = w ∧
      readJob base64 timeUtil w.table request.jobId = some (.ok job) ∧
      validateJobStatus job.jobStatus request.jobStatus = .ok () ∧
      p' = .upsertUpdatedJobStatusJobItem request currentTime retryCount) ∨
    (∃ request updateTime retryCount,
      p = .upsertUpdatedJobStatusJobItem request updateTime retryCount ∧
      w' = w.upsertJob base64 timeUtil (jobForStatusUpdate request retryCount updateTime) ∧
      Terminal request.jobStatus ∧
      p' = .deleteJobMessageForUpdatingJobStatus request updateTime retryCount) ∨
    (∃ request, p = .getJobItemForDeleteOrphanedJobMessage request ∧ w' = w ∧
      (readJob base64 timeUtil w.table request.jobId = none ∨
        ∃ job, readJob base64 timeUtil w.table request.jobId = some (.ok job) ∧
          Terminal job.jobStatus) ∧
      p' = .deleteJobMessageForDeletingOrphanedJob request) := by
  cases p with
  | enqueueMessage request serverJobId =>
      cases reply with
      | failure serviceFailure => simp [serve, onEnqueueMessageCallback] at h
      | served receiptInfo top =>
          simp only [serve] at h
          split at h
          · cases h
          · simp only [onEnqueueMessageCallback, Option.some.injEq, Prod.mk.injEq,
              Next.wait.injEq] at h
            exact .inl ⟨request, serverJobId, receiptInfo, rfl, h.1.symm, h.2.symm⟩
  | getTopMessage =>
      cases reply with
      | failure serviceFailure => simp [serve, onGetTopMessageCallback] at h
      | served receiptInfo top =>
          simp only [serve, Option.some.injEq, Prod.mk.injEq] at h
          obtain ⟨rfl, h⟩ := h
          cases hm : w.queue[top]? with
          | none => simp [onGetTopMessageCallback, hm] at h
          | some message =>
              simp only [onGetTopMessageCallback, hm, Next.wait.injEq] at h
              exact .inr (.inl ⟨rfl, rfl, message, List.mem_of_getElem? hm, h.symm⟩)
  | getJobItemForUpdateJobBody request =>
      simp only [serve, Option.some.injEq, Prod.mk.injEq] at h
      obtain ⟨rfl, h⟩ := h
      obtain ⟨item, job, hread, -, hk⟩ := withJob_eq_of_ne_error base64 timeUtil h (by simp)
      obtain ⟨row, hrow, -⟩ := JobTable.getDatabaseItem_eq_ok (reply_result_eq_ok hread)
      split at hk
      · cases hk
      · cases hk
        exact .inr (.inr (.inl ⟨request, rfl, rfl, JobTable.mem_of_lookup hrow, rfl⟩))
  | getJobItemForUpdateJobStatus request =>
      simp only [serve, Option.some.injEq, Prod.mk.injEq] at h
      obtain ⟨rfl, h⟩ := h
      obtain ⟨item, job, hread, hjob, hk⟩ := withJob_eq_of_ne_error base64 timeUtil h (by simp)
      have hfound := readJob_of_getDatabaseItem base64 timeUtil (reply_result_eq_ok hread) hjob
      split at hk
      · cases hk
      split at hk
      · cases hk
      rename_i hvalid
      -- `JOB_STATUS_PROCESSING` raises the retry count, an end status keeps it
      have hnext : ∃ retryCount, p' = .upsertUpdatedJobStatusJobItem request currentTime retryCount := by
        split at hk <;> first | exact ⟨_, (Next.wait.inj hk).symm⟩ | cases hk
      obtain ⟨retryCount, hp'⟩ := hnext
      exact .inr (.inr (.inr (.inl ⟨request, job, retryCount, rfl, rfl, hfound, hvalid, hp'⟩)))
  | upsertUpdatedJobStatusJobItem request updateTime retryCount =>
      cases reply with
      | failure serviceFailure => simp [serve, onUpsertUpdatedJobStatusJobItemCallback] at h
      | served receiptInfo top =>
          simp only [serve, Option.some.injEq, Prod.mk.injEq] at h
          obtain ⟨rfl, h⟩ := h
          simp only [onUpsertUpdatedJobStatusJobItemCallback] at h
          split at h
          · rename_i hstatus
            cases h
            exact .inr (.inr (.inr (.inr (.inl
              ⟨request, updateTime, retryCount, rfl, rfl, .inr hstatus, rfl⟩))))
          · rename_i hstatus
            cases h
            exact .inr (.inr (.inr (.inr (.inl
              ⟨request, updateTime, retryCount, rfl, rfl, .inl hstatus, rfl⟩))))
          · cases h
  | getJobItemForDeleteOrphanedJobMessage request =>
      simp only [serve, Option.some.injEq, Prod.mk.injEq] at h
      obtain ⟨rfl, h⟩ := h
      unfold onGetJobItemForDeleteOrphanedJobMessageCallback at h
      split at h
      · -- the read failed: only the table's `RECORD_NOT_FOUND` goes on
        rename_i statusCode hresult
        split at h
        · rename_i hcode
          subst hcode
          cases h
          have hnone := readJob_of_recordNotFound base64 timeUtil
            (reply_result_eq_recordNotFound hresult)
          exact .inr (.inr (.inr (.inr (.inr ⟨request, rfl, rfl, .inl hnone, rfl⟩))))
        · cases h
      · rename_i item hresult
        split at h
        · cases h
        rename_i job hjob
        split at h
        · rename_i hterminal
          cases h
          have hfound := readJob_of_getDatabaseItem base64 timeUtil (reply_result_eq_ok hresult) hjob
          exact .inr (.inr (.inr (.inr (.inr
            ⟨request, rfl, rfl, .inr ⟨job, hfound, hterminal⟩, rfl⟩))))
        · cases h
  -- the other stages always finish their call
  | createNewJobItem job =>
      simp only [serve] at h
      split at h <;> simp [onCreateNewJobItemCallback] at h
  | getNextJobItem message =>
      simp only [serve, Option.some.injEq, Prod.mk.injEq] at h
      obtain ⟨-, h⟩ := h
      unfold onGetNextJobItemCallback at h
      obtain ⟨item, job, -, -, hk⟩ := withJob_eq_of_ne_error base64 timeUtil h (by simp)
      cases hk
  | getJobItemByJobId jobId =>
      simp only [serve, Option.some.injEq, Prod.mk.injEq] at h
      obtain ⟨-, h⟩ := h
      unfold onGetJobItemByJobIdCallback at h
      obtain ⟨item, job, -, -, hk⟩ := withJob_eq_of_ne_error base64 timeUtil h (by simp)
      cases hk
  | upsertUpdatedJobBodyJobItem | deleteJobMessageForUpdatingJobStatus
  | updateMessageVisibilityTimeout | deleteJobMessageForDeletingOrphanedJob =>
      cases reply <;> simp [serve, onUpsertUpdatedJobBodyJobItemCallback,
        onDeleteJobMessageForUpdatingJobStatusCallback, onUpdateMessageVisibilityTimeoutCallback,
        onDeleteJobMessageForDeleteOrphanedJobMessageCallback] at h

end Serve

/-! ## The facts of every run -/

section Sound

variable (base64 : Codec ErrorCode String String) (timeUtil : Codec Unit Nat String)
variable {w w' : JobWorld} {currentTime : Nat} {p p' : Pending} {reply : Reply} {next : Next}

theorem mem_of_readJob_eq_some {table : JobTable} {jobId : String} {x : Except ErrorCode Job}
    (h : readJob base64 timeUtil table jobId = some x) : jobId ∈ table := by
  cases hrow : table.lookup jobId with
  | none => rw [readJob, hrow, Option.map_none] at h; cases h
  | some row => exact JobTable.mem_of_lookup hrow

theorem JobRows.insert {table : JobTable} (h : JobRows base64 timeUtil table) (job : Job) :
    JobRows base64 timeUtil (table.insert job.jobId (putRow base64 timeUtil job)) := by
  intro jobId row hrow
  by_cases hJ : jobId = job.jobId
  · subst hJ
    rw [AList.lookup_insert, Option.some.injEq] at hrow
    exact ⟨job, rfl, hrow ▸ fun _ => rfl⟩
  · rw [AList.lookup_insert_ne hJ] at hrow
    exact h jobId row hrow

/-- An upsert of a job the table holds leaves a row of a job. -/
theorem JobRows.upsert {table : JobTable} (h : JobRows base64 timeUtil table) {update : Job}
    (hmem : update.jobId ∈ table) :
    JobRows base64 timeUtil (table.upsertDatabaseItem (createUpsertJobRequest base64 timeUtil update)) := by
  intro jobId row hrow
  by_cases hJ : jobId = update.jobId
  · subst hJ
    obtain ⟨row₀, hrow₀⟩ := Option.isSome_iff_exists.mp (AList.lookup_isSome.mpr hmem)
    obtain ⟨job, hjob, hrep⟩ := h _ _ hrow₀
    have hup : (table.upsertDatabaseItem (createUpsertJobRequest base64 timeUtil update)).lookup
        update.jobId = some (upsertDatabaseItem row₀ (createUpsertJobRequest base64 timeUtil update)) :=
      JobTable.lookup_upsertDatabaseItem_of_lookup hrow₀
    rw [hup, Option.some.injEq] at hrow
    subst hrow
    exact ⟨job.upsert update, hjob, represents_upsertDatabaseItem base64 timeUtil hrep update⟩
  · have hne : (table.upsertDatabaseItem (createUpsertJobRequest base64 timeUtil update)).lookup
        jobId = table.lookup jobId := JobTable.lookup_upsertDatabaseItem_ne hJ
    rw [hne] at hrow
    exact h jobId row hrow

theorem Ready.mono {q : Pending} (htable : ∀ jobId ∈ w.table, jobId ∈ w'.table)
    (hsent : ∀ m ∈ w.sent, m ∈ w'.sent) (h : Ready w q) : Ready w' q := by
  cases q with
  | getNextJobItem message => exact hsent message h
  | upsertUpdatedJobBodyJobItem request _ => exact htable request.jobId h
  | upsertUpdatedJobStatusJobItem request _ _ => exact htable request.jobId h
  | _ => trivial

theorem HandedOut.mono {response : GetNextJobResponse} (hsent : ∀ m ∈ w.sent, m ∈ w'.sent)
    (h : HandedOut w response) : HandedOut w' response := by
  obtain ⟨m, hm, hfields⟩ := h
  exact ⟨m, hsent m hm, hfields⟩

@[simp] theorem ready_resume {q : Pending} (context : Nat) (next : Next) :
    Ready (w.resume context next) q ↔ Ready w q := by
  cases q <;> simp [Ready]

/-- Serving a request only adds rows and messages taken, and leaves the
contexts to the callback. -/
theorem serve_mono (h : serve base64 timeUtil w currentTime p reply = some (w', next)) :
    (∀ jobId ∈ w.table, jobId ∈ w'.table) ∧ (∀ m ∈ w.sent, m ∈ w'.sent) ∧
      w'.pending = w.pending ∧ w'.finished = w.finished := by
  rcases serve_world base64 timeUtil h with rfl | ⟨request, serverJobId, receiptInfo, -, -, rfl⟩ |
    ⟨job, -, -, rfl⟩ | ⟨request, updateTime, -, rfl⟩ | ⟨request, updateTime, retryCount, -, rfl⟩ |
    ⟨request, updateTime, retryCount, -, rfl⟩ | ⟨request, -, rfl⟩
  · exact ⟨fun _ hJ => hJ, fun _ hm => hm, rfl, rfl⟩
  · exact ⟨fun _ hJ => hJ, fun _ hm => List.mem_append_left _ hm, rfl, rfl⟩
  · exact ⟨fun _ hJ => (AList.mem_insert _).mpr (.inr hJ), fun _ hm => hm, rfl, rfl⟩
  · exact ⟨fun _ hJ => JobTable.mem_upsertDatabaseItem hJ, fun _ hm => hm, rfl, rfl⟩
  · exact ⟨fun _ hJ => JobTable.mem_upsertDatabaseItem hJ, fun _ hm => hm, rfl, rfl⟩
  · exact ⟨fun _ hJ => hJ, fun _ hm => hm, rfl, rfl⟩
  · exact ⟨fun _ hJ => hJ, fun _ hm => hm, rfl, rfl⟩

/-- The queue holds only messages it took, each under a receipt of its own. -/
theorem serve_sent (hs : Sound base64 timeUtil w)
    (h : serve base64 timeUtil w currentTime p reply = some (w', next)) :
    (∀ m ∈ w'.queue, m ∈ w'.sent) ∧ (w'.sent.map JobMessage.receiptInfo).Nodup := by
  rcases serve_world base64 timeUtil h with rfl | ⟨request, serverJobId, receiptInfo, -, hfresh, rfl⟩ |
    ⟨job, -, -, rfl⟩ | ⟨request, updateTime, -, rfl⟩ | ⟨request, updateTime, retryCount, -, rfl⟩ |
    ⟨request, updateTime, retryCount, -, rfl⟩ | ⟨request, -, rfl⟩
  · exact ⟨hs.queue_sent, hs.receipts_nodup⟩
  · refine ⟨fun m hm => ?_, ?_⟩
    · rcases List.mem_append.mp hm with hm | hm
      · exact List.mem_append_left _ (hs.queue_sent m hm)
      · exact List.mem_append_right _ hm
    · rw [takeMessage_sent, List.map_append, List.nodup_append_comm]
      exact List.nodup_cons.mpr ⟨hfresh, hs.receipts_nodup⟩
  · exact ⟨hs.queue_sent, hs.receipts_nodup⟩
  · exact ⟨hs.queue_sent, hs.receipts_nodup⟩
  · exact ⟨hs.queue_sent, hs.receipts_nodup⟩
  · exact ⟨fun m hm => hs.queue_sent m (mem_deleteMessage.mp hm).1, hs.receipts_nodup⟩
  · exact ⟨fun m hm => hs.queue_sent m (mem_deleteMessage.mp hm).1, hs.receipts_nodup⟩

/-- The rows stay rows of jobs: a create stores the row of its job, and an
upsert goes to a row the read before it found. -/
theorem serve_rows (hs : Sound base64 timeUtil w) (hready : Ready w p)
    (h : serve base64 timeUtil w currentTime p reply = some (w', next)) :
    JobRows base64 timeUtil w'.table := by
  rcases serve_world base64 timeUtil h with rfl | ⟨request, serverJobId, receiptInfo, rfl, -, rfl⟩ |
    ⟨job, rfl, -, rfl⟩ | ⟨request, updateTime, rfl, rfl⟩ | ⟨request, updateTime, retryCount, rfl, rfl⟩ |
    ⟨request, updateTime, retryCount, rfl, rfl⟩ | ⟨request, rfl, rfl⟩
  · exact hs.rows
  · exact hs.rows
  · exact hs.rows.insert base64 timeUtil job
  · exact hs.rows.upsert base64 timeUtil hready
  · exact hs.rows.upsert base64 timeUtil hready
  · exact hs.rows
  · exact hs.rows

/-- The request a context goes on to is ready. -/
theorem serve_ready_wait (hs : Sound base64 timeUtil w)
    (h : serve base64 timeUtil w currentTime p reply = some (w', .wait p')) : Ready w' p' := by
  rcases serve_wait base64 timeUtil h with ⟨request, serverJobId, receiptInfo, rfl, rfl, rfl⟩ |
    ⟨rfl, rfl, message, hm, rfl⟩ | ⟨request, rfl, rfl, hmem, rfl⟩ |
    ⟨request, job, retryCount, rfl, rfl, hfound, -, rfl⟩ |
    ⟨request, updateTime, retryCount, rfl, rfl, -, rfl⟩ | ⟨request, rfl, rfl, -, rfl⟩
  · trivial
  · exact hs.queue_sent message hm
  · exact hmem
  · exact mem_of_readJob_eq_some base64 timeUtil hfound
  · trivial
  · trivial

/-- Only the read of a taken message's row hands out a job: the read requires
the message's server job id, and the response carries the message's receipt. -/
theorem serve_handsOut {response : GetNextJobResponse}
    (h : serve base64 timeUtil w currentTime p reply =
      some (w', .finish (.ok (.getNextJob (some response))))) :
    ∃ message, p = .getNextJobItem message ∧ response.receiptInfo = message.receiptInfo ∧
      response.job.jobId = message.jobId ∧ response.job.serverJobId = message.serverJobId := by
  cases p with
  | getNextJobItem message =>
      simp only [serve, Option.some.injEq, Prod.mk.injEq] at h
      obtain ⟨-, h⟩ := h
      unfold onGetNextJobItemCallback at h
      obtain ⟨item, job, hread, hjob, hk⟩ := withJob_eq_of_ne_error base64 timeUtil h (by simp)
      simp only [Next.finish.injEq, Except.ok.injEq, JobResponse.getNextJob.injEq,
        Option.some.injEq] at hk
      subst hk
      obtain ⟨row, -, rfl, hserver⟩ := JobTable.getDatabaseItem_eq_ok (reply_result_eq_ok hread)
      obtain ⟨hjobId, hserverJobId⟩ := convertDatabaseItemToJob_eq_ok base64 timeUtil hjob
      refine ⟨message, rfl, rfl, hjobId, ?_⟩
      rw [hserverJobId, columnAt, getItemAttributes_getDatabaseItem, hserver _ rfl]
      rfl
  -- every other callback finishes with another response, an error, or a request
  | enqueueMessage request serverJobId =>
      cases reply with
      | failure serviceFailure => simp [serve, onEnqueueMessageCallback] at h
      | served receiptInfo top =>
          simp only [serve] at h
          split at h <;> simp [onEnqueueMessageCallback] at h
  | createNewJobItem job =>
      simp only [serve] at h
      split at h <;> simp [onCreateNewJobItemCallback] at h
  | getTopMessage =>
      cases reply with
      | failure serviceFailure => simp [serve, onGetTopMessageCallback] at h
      | served receiptInfo top =>
          cases hm : w.queue[top]? <;> simp [serve, onGetTopMessageCallback, hm] at h
  | getJobItemByJobId jobId =>
      simp only [serve, Option.some.injEq, Prod.mk.injEq] at h
      obtain ⟨item, job, -, -, hk⟩ :=
        withJob_eq_of_ne_error base64 timeUtil h.2 (by simp)
      simp at hk
  | getJobItemForUpdateJobBody request =>
      simp only [serve, Option.some.injEq, Prod.mk.injEq] at h
      obtain ⟨item, job, -, -, hk⟩ :=
        withJob_eq_of_ne_error base64 timeUtil h.2 (by simp)
      split at hk <;> simp at hk
  | getJobItemForUpdateJobStatus request =>
      simp only [serve, Option.some.injEq, Prod.mk.injEq] at h
      obtain ⟨item, job, -, -, hk⟩ :=
        withJob_eq_of_ne_error base64 timeUtil h.2 (by simp)
      split at hk
      · simp at hk
      split at hk
      · simp at hk
      split at hk <;> simp at hk
  | upsertUpdatedJobStatusJobItem request updateTime retryCount =>
      cases reply with
      | failure serviceFailure => simp [serve, onUpsertUpdatedJobStatusJobItemCallback] at h
      | served receiptInfo top =>
          simp only [serve, onUpsertUpdatedJobStatusJobItemCallback, Option.some.injEq,
            Prod.mk.injEq] at h
          split at h <;> simp at h
  | getJobItemForDeleteOrphanedJobMessage request =>
      simp only [serve, onGetJobItemForDeleteOrphanedJobMessageCallback, Option.some.injEq,
        Prod.mk.injEq] at h
      obtain ⟨-, h⟩ := h
      split at h
      · split at h <;> simp at h
      · split at h
        · simp at h
        split at h <;> simp at h
  | upsertUpdatedJobBodyJobItem | deleteJobMessageForUpdatingJobStatus
  | updateMessageVisibilityTimeout | deleteJobMessageForDeletingOrphanedJob =>
      cases reply <;> simp [serve, onUpsertUpdatedJobBodyJobItemCallback, finishWith, Reply.result,
        onDeleteJobMessageForUpdatingJobStatusCallback, onUpdateMessageVisibilityTimeoutCallback,
        onDeleteJobMessageForDeleteOrphanedJobMessageCallback] at h

/-- A context that goes on waits on a ready request, and one that finishes
with a job hands it out with the receipt of a message of the job. -/
theorem Sound.resume (hs : Sound base64 timeUtil w) (context : Nat) (next : Next)
    (hready : ∀ p, next = .wait p → Ready w p)
    (hhand : ∀ response, next = .finish (.ok (.getNextJob (some response))) → HandedOut w response) :
    Sound base64 timeUtil (w.resume context next) := by
  cases next with
  | wait p =>
      refine ⟨hs.rows, hs.queue_sent, hs.receipts_nodup, fun c q hq => ?_, hs.handedOut⟩
      rw [ready_resume]
      rw [resume_wait] at hq
      by_cases hc : c = context
      · subst hc
        rw [AList.lookup_insert, Option.some.injEq] at hq
        exact hq ▸ hready p rfl
      · rw [AList.lookup_insert_ne hc] at hq
        exact hs.ready c q hq
  | finish result =>
      refine ⟨hs.rows, hs.queue_sent, hs.receipts_nodup, fun c q hq => ?_, ?_⟩
      · rw [ready_resume]
        rw [resume_finish_pending, AList.lookup_erase_ne] at hq
        · exact hs.ready c q hq
        · rintro rfl
          rw [AList.lookup_erase] at hq
          cases hq
      · intro entry he response hr
        rw [resume_finish_finished, List.mem_append, List.mem_singleton] at he
        rcases he with he | rfl
        · exact hs.handedOut entry he response hr
        · exact hhand response (congrArg Next.finish hr)

/-- The facts of every run survive every answer. -/
theorem Sound.serve {context : Nat} (hs : Sound base64 timeUtil w)
    (hp : w.pending.lookup context = some p)
    (h : serve base64 timeUtil w currentTime p reply = some (w', next)) :
    Sound base64 timeUtil (w'.resume context next) := by
  have hready := hs.ready context p hp
  obtain ⟨htable, hsent, hpending, hfinished⟩ := serve_mono base64 timeUtil h
  obtain ⟨hqueue, hnodup⟩ := serve_sent base64 timeUtil hs h
  have hs' : Sound base64 timeUtil w' :=
    ⟨serve_rows base64 timeUtil hs hready h, hqueue, hnodup,
      fun c q hq => (hs.ready c q (hpending ▸ hq)).mono htable hsent,
      fun entry he response hr => (hs.handedOut entry (hfinished ▸ he) response hr).mono hsent⟩
  refine hs'.resume base64 timeUtil context next (fun p' hp' => ?_) (fun response hr => ?_)
  · subst hp'
    exact serve_ready_wait base64 timeUtil hs h
  · subst hr
    obtain ⟨message, rfl, hreceipt, hjobId, hserverJobId⟩ := serve_handsOut base64 timeUtil h
    exact ⟨message, hsent message hready, hreceipt.symm, hjobId.symm, hserverJobId.symm⟩

end Sound

/-! ## The first request of each call -/

section Start

variable {p : Pending} {jobCall : JobCall}

/-- The synchronous part of a call either finishes it with an error or sends
the call's first request. -/
theorem start_wait (h : jobCall.start = .wait p) :
    (∃ request serverJobId, jobCall = .putJob request serverJobId ∧
      p = .enqueueMessage request serverJobId) ∨
    (jobCall = .getNextJob ∧ p = .getTopMessage) ∨
    (∃ jobId, jobCall = .getJobById jobId ∧ p = .getJobItemByJobId jobId) ∨
    (∃ request, jobCall = .updateJobBody request ∧ p = .getJobItemForUpdateJobBody request) ∨
    (∃ request, jobCall = .updateJobStatus request ∧ p = .getJobItemForUpdateJobStatus request) ∨
    (∃ request, jobCall = .updateJobVisibilityTimeout request ∧
      p = .updateMessageVisibilityTimeout request) ∨
    (∃ request, jobCall = .deleteOrphanedJobMessage request ∧
      p = .getJobItemForDeleteOrphanedJobMessage request) := by
  cases jobCall with
  | putJob request serverJobId =>
      simp only [JobCall.start] at h
      split at h
      · cases h
      · exact .inl ⟨request, serverJobId, rfl, (Next.wait.inj h).symm⟩
  | getNextJob => exact .inr (.inl ⟨rfl, (Next.wait.inj h).symm⟩)
  | getJobById jobId =>
      simp only [JobCall.start] at h
      split at h
      · cases h
      · exact .inr (.inr (.inl ⟨jobId, rfl, (Next.wait.inj h).symm⟩))
  | updateJobBody request =>
      simp only [JobCall.start] at h
      split at h
      · cases h
      · exact .inr (.inr (.inr (.inl ⟨request, rfl, (Next.wait.inj h).symm⟩)))
  | updateJobStatus request =>
      simp only [JobCall.start] at h
      split at h
      · cases h
      split at h
      · cases h
      · exact .inr (.inr (.inr (.inr (.inl ⟨request, rfl, (Next.wait.inj h).symm⟩))))
  | updateJobVisibilityTimeout request =>
      simp only [JobCall.start] at h
      split at h
      · cases h
      split at h
      · cases h
      split at h
      · cases h
      · exact .inr (.inr (.inr (.inr (.inr (.inl ⟨request, rfl, (Next.wait.inj h).symm⟩)))))
  | deleteOrphanedJobMessage request =>
      simp only [JobCall.start] at h
      split at h
      · cases h
      split at h
      · cases h
      · exact .inr (.inr (.inr (.inr (.inr (.inr ⟨request, rfl, (Next.wait.inj h).symm⟩)))))

/-- A call finishes in its synchronous part only with an error. -/
theorem start_finish {result : Except JobError JobResponse} (h : jobCall.start = .finish result) :
    ∃ e, result = .error e := by
  cases jobCall <;> simp only [JobCall.start] at h <;> (try split_ifs at h) <;> cases h <;>
    exact ⟨_, rfl⟩

/-- The first request belongs to a call that writes what the call writes. -/
theorem start_writes (h : jobCall.start = .wait p) : p.writes = jobCall.writes := by
  rcases start_wait h with ⟨_, _, rfl, rfl⟩ | ⟨rfl, rfl⟩ | ⟨_, rfl, rfl⟩ | ⟨_, rfl, rfl⟩ |
    ⟨_, rfl, rfl⟩ | ⟨_, rfl, rfl⟩ | ⟨_, rfl, rfl⟩ <;> rfl

end Start

section Sound

variable (base64 : Codec ErrorCode String String) (timeUtil : Codec Unit Nat String)
variable {w : JobWorld}

theorem Sound.call (hs : Sound base64 timeUtil w) (jobCall : JobCall) :
    Sound base64 timeUtil (step base64 timeUtil w (.call jobCall)) := by
  have hs' : Sound base64 timeUtil { w with nextContext := w.nextContext + 1 } :=
    ⟨hs.rows, hs.queue_sent, hs.receipts_nodup, hs.ready, hs.handedOut⟩
  refine hs'.resume base64 timeUtil w.nextContext jobCall.start (fun p hp => ?_)
    (fun response hr => ?_)
  · rcases start_wait hp with ⟨_, _, -, rfl⟩ | ⟨-, rfl⟩ | ⟨_, -, rfl⟩ | ⟨_, -, rfl⟩ |
      ⟨_, -, rfl⟩ | ⟨_, -, rfl⟩ | ⟨_, -, rfl⟩ <;> trivial
  · obtain ⟨e, he⟩ := start_finish hr
    cases he

/-- Whatever the interleaving, every event keeps the facts of every run. -/
theorem sound_step (hs : Sound base64 timeUtil w) (event : JobEvent) :
    Sound base64 timeUtil (step base64 timeUtil w event) := by
  cases event with
  | call jobCall => exact hs.call base64 timeUtil jobCall
  | answer context reply currentTime =>
      simp only [step]
      split
      · exact hs
      · rename_i p hp
        split
        · exact hs
        · rename_i w' next h
          exact hs.serve base64 timeUtil hp h

theorem sound_initial : Sound base64 timeUtil initial := by
  refine ⟨fun jobId row h => ?_, fun _ h => (List.not_mem_nil h).elim, List.nodup_nil,
    fun c q h => ?_, fun _ h => (List.not_mem_nil h).elim⟩
  · simp [initial] at h
  · simp [initial] at h

theorem sound_run (events : List JobEvent) :
    Sound base64 timeUtil (run base64 timeUtil initial events) :=
  foldl_invariant (step base64 timeUtil) (Sound base64 timeUtil) (fun _ => True)
    (fun _ event _ hs => sound_step base64 timeUtil hs event) (fun _ _ => trivial)
    (sound_initial base64 timeUtil)

end Sound

/-! ## One job at a time -/

/-- What a step that writes another job leaves of the job `jobId`: its row,
its messages, and every message the queue took. -/
structure Frame (jobId : String) (w w' : JobWorld) : Prop where
  lookup_eq : w'.table.lookup jobId = w.table.lookup jobId
  queue_mem : ∀ m ∈ w.queue, m.jobId = jobId → m ∈ w'.queue
  sent_mem : ∀ m ∈ w.sent, m ∈ w'.sent

namespace Frame

variable {jobId : String} {w w' : JobWorld}

theorem refl : Frame jobId w w := ⟨rfl, fun _ hm _ => hm, fun _ hm => hm⟩

theorem takeMessage (m : JobMessage) : Frame jobId w (w.takeMessage m) :=
  ⟨rfl, fun _ hm _ => List.mem_append_left _ hm, fun _ hm => List.mem_append_left _ hm⟩

theorem resume (h : Frame jobId w w') (context : Nat) (next : Next) :
    Frame jobId w (w'.resume context next) :=
  ⟨by rw [resume_table, h.lookup_eq], fun m hm hJ => by rw [resume_queue]; exact h.queue_mem m hm hJ,
    fun m hm => by rw [resume_sent]; exact h.sent_mem m hm⟩

end Frame

section Frames

variable (base64 : Codec ErrorCode String String) (timeUtil : Codec Unit Nat String)
variable {w w' : JobWorld} {jobId : String}

theorem StockedAt.frame (h : Frame jobId w w') (hst : StockedAt base64 timeUtil w jobId) :
    StockedAt base64 timeUtil w' jobId := by
  intro job hjob hopen
  rw [readJob_congr base64 timeUtil h.lookup_eq] at hjob
  obtain ⟨m, hm, hmJ, hserver⟩ := hst job hjob hopen
  exact ⟨m, h.queue_mem m hm hmJ, hmJ, hserver⟩

theorem Owns.mono {receiptInfo : String} (hsent : ∀ m ∈ w.sent, m ∈ w'.sent)
    (h : Owns w jobId receiptInfo) : Owns w' jobId receiptInfo := by
  obtain ⟨m, hm, hfields⟩ := h
  exact ⟨m, hsent m hm, hfields⟩

/-- What a waiting context keeps of its job depends on that job alone. -/
theorem Safe.frame {q : Pending} (hq : ∀ jobId, q.writes = some jobId → Frame jobId w w')
    (h : Safe base64 timeUtil w q) : Safe base64 timeUtil w' q := by
  cases q with
  | createNewJobItem job =>
      have hf := hq job.jobId rfl
      obtain ⟨m, hm, hmJ, hserver⟩ := h
      exact ⟨m, hf.queue_mem m hm hmJ, hmJ, hserver⟩
  | getJobItemForUpdateJobStatus request =>
      exact fun ht => (h ht).mono (hq request.jobId rfl).sent_mem
  | upsertUpdatedJobStatusJobItem request _ _ =>
      have hf := hq request.jobId rfl
      rcases h with ⟨hproc, hopen⟩ | ⟨ht, hown⟩
      · refine .inl ⟨hproc, fun job hjob => hopen job ?_⟩
        rwa [readJob_congr base64 timeUtil hf.lookup_eq] at hjob
      · exact .inr ⟨ht, hown.mono hf.sent_mem⟩
  | deleteJobMessageForUpdatingJobStatus request _ _ =>
      have hf := hq request.jobId rfl
      obtain ⟨hended, hown⟩ := h
      refine ⟨fun job hjob => hended job ?_, hown.mono hf.sent_mem⟩
      rwa [readJob_congr base64 timeUtil hf.lookup_eq] at hjob
  | getJobItemForDeleteOrphanedJobMessage request =>
      exact Owns.mono (hq request.jobId rfl).sent_mem h
  | deleteJobMessageForDeletingOrphanedJob request =>
      have hf := hq request.jobId rfl
      obtain ⟨hended, hown⟩ := h
      refine ⟨fun job hjob => hended job ?_, hown.mono hf.sent_mem⟩
      rwa [readJob_congr base64 timeUtil hf.lookup_eq] at hjob
  | _ => trivial

/-- Deleting by a receipt of one job keeps every message of the other jobs:
the receipt names one message only. -/
theorem Sound.mem_deleteMessage_of_owns (hs : Sound base64 timeUtil w) {receiptInfo : String}
    (hown : Owns w jobId receiptInfo) {m : JobMessage} (hm : m ∈ w.queue)
    (hother : m.jobId ≠ jobId) : m ∈ deleteMessage w.queue receiptInfo := by
  obtain ⟨m₀, hm₀, hreceipt, hjob⟩ := hown
  refine mem_deleteMessage.mpr ⟨hm, fun hr => hother ?_⟩
  have hsame : m = m₀ := List.inj_on_of_nodup_map hs.receipts_nodup (hs.queue_sent m hm) hm₀
    (hr.trans hreceipt.symm)
  rw [hsame, hjob]

/-- An answer to a context that writes one job leaves every other job as it
was, when the context deletes only by a receipt of its own job. -/
theorem serve_frame {currentTime : Nat} {p : Pending} {reply : Reply} {next : Next}
    (hs : Sound base64 timeUtil w) (hsafe : Safe base64 timeUtil w p)
    (h : serve base64 timeUtil w currentTime p reply = some (w', next))
    (hJ : p.writes ≠ some jobId) : Frame jobId w w' := by
  rcases serve_world base64 timeUtil h with rfl | ⟨request, serverJobId, receiptInfo, rfl, -, rfl⟩ |
    ⟨job, rfl, -, rfl⟩ | ⟨request, updateTime, rfl, rfl⟩ | ⟨request, updateTime, retryCount, rfl, rfl⟩ |
    ⟨request, updateTime, retryCount, rfl, rfl⟩ | ⟨request, rfl, rfl⟩
  · exact Frame.refl
  · exact Frame.takeMessage _
  · have hne : jobId ≠ job.jobId := by rintro rfl; exact hJ rfl
    exact ⟨AList.lookup_insert_ne hne, fun _ hm _ => hm, fun _ hm => hm⟩
  · have hne : jobId ≠ request.jobId := by rintro rfl; exact hJ rfl
    exact ⟨JobTable.lookup_upsertDatabaseItem_ne hne, fun _ hm _ => hm, fun _ hm => hm⟩
  · have hne : jobId ≠ request.jobId := by rintro rfl; exact hJ rfl
    exact ⟨JobTable.lookup_upsertDatabaseItem_ne hne, fun _ hm _ => hm, fun _ hm => hm⟩
  · have hne : jobId ≠ request.jobId := by rintro rfl; exact hJ rfl
    obtain ⟨-, hown⟩ := hsafe
    exact ⟨rfl, fun m hm hmJ => hs.mem_deleteMessage_of_owns base64 timeUtil hown hm (hmJ ▸ hne),
      fun _ hm => hm⟩
  · have hne : jobId ≠ request.jobId := by rintro rfl; exact hJ rfl
    obtain ⟨-, hown⟩ := hsafe
    exact ⟨rfl, fun m hm hmJ => hs.mem_deleteMessage_of_owns base64 timeUtil hown hm (hmJ ▸ hne),
      fun _ hm => hm⟩

theorem not_terminal_of_validateJobStatus {status status' : JobStatus}
    (h : validateJobStatus status status' = .ok ()) : ¬ Terminal status := by
  obtain ⟨hfrom, -⟩ := validateJobStatus_eq_ok h
  rcases hfrom with rfl | rfl <;> rintro (h | h) <;> cases h

theorem Terminal.ne_unknown {status : JobStatus} (h : Terminal status) :
    status ≠ .jobStatusUnknown := by
  rcases h with rfl | rfl <;> nofun

theorem not_terminal_processing : ¬ Terminal .jobStatusProcessing := by
  rintro (h | h) <;> cases h

theorem upsert_jobForBodyUpdate_jobStatus (job : Job) (request : UpdateJobBodyRequest)
    (updateTime : Nat) : (job.upsert (jobForBodyUpdate request updateTime)).jobStatus = job.jobStatus := by
  simp [Job.upsert, jobForBodyUpdate]

theorem upsert_jobForStatusUpdate_jobStatus (job : Job) {request : UpdateJobStatusRequest}
    (h : request.jobStatus ≠ .jobStatusUnknown) (retryCount : Int) (updateTime : Nat) :
    (job.upsert (jobForStatusUpdate request retryCount updateTime)).jobStatus = request.jobStatus := by
  simp [Job.upsert, jobForStatusUpdate, h]

/-- An upsert of a job the table holds reads back as `Job.upsert` of the job it
read before. -/
theorem readJob_upsert {table : JobTable} (hrows : JobRows base64 timeUtil table) {update : Job}
    (hmem : update.jobId ∈ table) :
    ∃ job, readJob base64 timeUtil table update.jobId = some (.ok job) ∧
      readJob base64 timeUtil
        (table.upsertDatabaseItem (createUpsertJobRequest base64 timeUtil update)) update.jobId =
        some (.ok (job.upsert update)) := by
  obtain ⟨row, hrow⟩ := Option.isSome_iff_exists.mp (AList.lookup_isSome.mpr hmem)
  obtain ⟨job, hjob, hrep⟩ := hrows _ _ hrow
  have hup : (table.upsertDatabaseItem (createUpsertJobRequest base64 timeUtil update)).lookup
      update.jobId = some (upsertDatabaseItem row (createUpsertJobRequest base64 timeUtil update)) :=
    JobTable.lookup_upsertDatabaseItem_of_lookup hrow
  exact ⟨job, readJob_of_represents base64 timeUtil hrow hrep hjob,
    readJob_of_represents base64 timeUtil hup (represents_upsertDatabaseItem base64 timeUtil hrep update)
      hjob⟩

/-- An upsert that keeps the server job id, and leaves the job open only if it
was open, keeps the job's message where it was needed. -/
theorem StockedAt.upsert {job update : Job} (hst : StockedAt base64 timeUtil w jobId)
    (hqueue : w'.queue = w.queue) (hold : readJob base64 timeUtil w.table jobId = some (.ok job))
    (hnew : readJob base64 timeUtil w'.table jobId = some (.ok (job.upsert update)))
    (hserver : update.serverJobId = "")
    (hopen : ¬ Terminal (job.upsert update).jobStatus → ¬ Terminal job.jobStatus) :
    StockedAt base64 timeUtil w' jobId := by
  intro job' hjob' hopen'
  rw [hnew, Option.some.injEq, Except.ok.injEq] at hjob'
  subst hjob'
  obtain ⟨m, hm, hmJ, hm'⟩ := hst job hold (hopen hopen')
  refine ⟨m, hqueue ▸ hm, hmJ, ?_⟩
  simp [Job.upsert, hserver, hm']

end Frames

/-! ## The invariant of the disciplined runs -/

section Inv

variable (base64 : Codec ErrorCode String String) (timeUtil : Codec Unit Nat String)
variable {w w' : JobWorld} {context currentTime : Nat} {p p' : Pending} {reply : Reply}
  {next : Next} {jobId : String}

theorem lookup_resume_ne {c : Nat} (hc : c ≠ context) (next : Next) :
    (w.resume context next).pending.lookup c = w.pending.lookup c := by
  cases next
  · exact AList.lookup_erase_ne hc
  · exact AList.lookup_insert_ne hc

theorem lookup_resume_self {q : Pending} (h : (w.resume context next).pending.lookup context = some q) :
    next = .wait q := by
  cases next with
  | finish result => rw [resume_finish_pending, AList.lookup_erase] at h; cases h
  | wait p => rw [resume_wait, AList.lookup_insert, Option.some.injEq] at h; rw [h]

theorem Exclusive.erase {pending : AList (fun _ : Nat => Pending)} (h : Exclusive pending)
    (context : Nat) : Exclusive (pending.erase context) := by
  intro c₁ c₂ p₁ p₂ jobId h₁ h₂ hw₁ hw₂
  have hc₁ : c₁ ≠ context := by rintro rfl; rw [AList.lookup_erase] at h₁; cases h₁
  have hc₂ : c₂ ≠ context := by rintro rfl; rw [AList.lookup_erase] at h₂; cases h₂
  rw [AList.lookup_erase_ne hc₁] at h₁
  rw [AList.lookup_erase_ne hc₂] at h₂
  exact h c₁ c₂ p₁ p₂ jobId h₁ h₂ hw₁ hw₂

/-- A context may wait on a request of a job that no other context writes. -/
theorem Exclusive.insert {pending : AList (fun _ : Nat => Pending)} (h : Exclusive pending)
    (hfree : ∀ c q jobId, c ≠ context → pending.lookup c = some q → p.writes = some jobId →
      q.writes ≠ some jobId) :
    Exclusive (pending.insert context p) := by
  intro c₁ c₂ p₁ p₂ jobId h₁ h₂ hw₁ hw₂
  by_cases hc₁ : c₁ = context <;> by_cases hc₂ : c₂ = context
  · rw [hc₁, hc₂]
  · subst hc₁
    rw [AList.lookup_insert, Option.some.injEq] at h₁
    subst h₁
    rw [AList.lookup_insert_ne hc₂] at h₂
    exact absurd hw₂ (hfree c₂ p₂ jobId hc₂ h₂ hw₁)
  · subst hc₂
    rw [AList.lookup_insert, Option.some.injEq] at h₂
    subst h₂
    rw [AList.lookup_insert_ne hc₁] at h₁
    exact absurd hw₁ (hfree c₁ p₁ jobId hc₁ h₁ hw₂)
  · rw [AList.lookup_insert_ne hc₁] at h₁
    rw [AList.lookup_insert_ne hc₂] at h₂
    exact h c₁ c₂ p₁ p₂ jobId h₁ h₂ hw₁ hw₂

/-- The next request belongs to the same call. -/
theorem serve_writes_wait (h : serve base64 timeUtil w currentTime p reply = some (w', .wait p')) :
    p'.writes = p.writes := by
  rcases serve_wait base64 timeUtil h with ⟨_, _, _, rfl, -, rfl⟩ | ⟨rfl, -, _, -, rfl⟩ |
    ⟨_, rfl, -, -, rfl⟩ | ⟨_, _, _, rfl, -, -, -, rfl⟩ | ⟨_, _, _, rfl, -, -, rfl⟩ |
    ⟨_, rfl, -, -, rfl⟩ <;> rfl

/-- The context that writes a job keeps that job's message where it is needed:
`PutJob` creates the row of the message it enqueued, an upsert keeps the
server job id and reopens no job, and a message is deleted only once its job
has ended. -/
theorem serve_stockedAt (hinv : Inv base64 timeUtil w) (hp : w.pending.lookup context = some p)
    (h : serve base64 timeUtil w currentTime p reply = some (w', next))
    (hJ : p.writes = some jobId) : StockedAt base64 timeUtil w' jobId := by
  have hready := hinv.sound.ready context p hp
  have hsafe := hinv.safe context p hp
  rcases serve_world base64 timeUtil h with rfl | ⟨request, serverJobId, receiptInfo, rfl, -, rfl⟩ |
    ⟨job, rfl, -, rfl⟩ | ⟨request, updateTime, rfl, rfl⟩ | ⟨request, updateTime, retryCount, rfl, rfl⟩ |
    ⟨request, updateTime, retryCount, rfl, rfl⟩ | ⟨request, rfl, rfl⟩
  · exact hinv.stocked jobId
  · exact (hinv.stocked jobId).frame base64 timeUtil (Frame.takeMessage _)
  · cases hJ
    obtain ⟨m, hm, hmJ, hserver⟩ := hsafe
    intro job' hjob' _
    have hcreated : readJob base64 timeUtil (w.table.insert job.jobId (putRow base64 timeUtil job))
        job.jobId = some (.ok job) :=
      readJob_of_represents base64 timeUtil (AList.lookup_insert _) (fun _ => rfl) rfl
    rw [hcreated, Option.some.injEq, Except.ok.injEq] at hjob'
    exact ⟨m, hm, hmJ, hjob' ▸ hserver⟩
  · cases hJ
    have hmem : (jobForBodyUpdate request updateTime).jobId ∈ w.table := hready
    obtain ⟨job, hold, hnew⟩ := readJob_upsert base64 timeUtil hinv.sound.rows hmem
    refine (hinv.stocked _).upsert base64 timeUtil rfl hold hnew rfl fun hopen => ?_
    rwa [upsert_jobForBodyUpdate_jobStatus] at hopen
  · cases hJ
    have hmem : (jobForStatusUpdate request retryCount updateTime).jobId ∈ w.table := hready
    obtain ⟨job, hold, hnew⟩ := readJob_upsert base64 timeUtil hinv.sound.rows hmem
    refine (hinv.stocked _).upsert base64 timeUtil rfl hold hnew rfl fun hopen => ?_
    rcases hsafe with ⟨-, hwasOpen⟩ | ⟨ht, -⟩
    · exact hwasOpen job hold
    · rw [upsert_jobForStatusUpdate_jobStatus job (Terminal.ne_unknown ht)] at hopen
      exact absurd ht hopen
  · cases hJ
    obtain ⟨hended, -⟩ := hsafe
    exact fun job hjob hopen => absurd (hended job hjob) hopen
  · cases hJ
    obtain ⟨hended, -⟩ := hsafe
    exact fun job hjob hopen => absurd (hended job hjob) hopen

/-- The request a context goes on to keeps its job. -/
theorem serve_safe_wait (hinv : Inv base64 timeUtil w) (hp : w.pending.lookup context = some p)
    (h : serve base64 timeUtil w currentTime p reply = some (w', .wait p')) :
    Safe base64 timeUtil w' p' := by
  have hready := hinv.sound.ready context p hp
  have hsafe := hinv.safe context p hp
  rcases serve_wait base64 timeUtil h with ⟨request, serverJobId, receiptInfo, rfl, rfl, rfl⟩ |
    ⟨rfl, rfl, message, -, rfl⟩ | ⟨request, rfl, rfl, -, rfl⟩ |
    ⟨request, job, retryCount, rfl, rfl, hfound, hvalid, rfl⟩ |
    ⟨request, updateTime, retryCount, rfl, rfl, ht, rfl⟩ | ⟨request, rfl, rfl, hread, rfl⟩
  · -- the row `PutJob` creates is the job of the message the queue took
    exact ⟨_, List.mem_append_right _ (List.mem_singleton_self _), rfl, rfl⟩
  · trivial
  · trivial
  · -- `ValidateJobStatus` passed: the job read had not ended
    rcases (validateJobStatus_eq_ok hvalid).2 with hproc | ht
    · refine .inl ⟨hproc, fun job' hjob' => ?_⟩
      rw [hfound, Option.some.injEq, Except.ok.injEq] at hjob'
      exact hjob' ▸ not_terminal_of_validateJobStatus hvalid
    · exact .inr ⟨ht, hsafe ht⟩
  · -- the end status is stored: the job has ended, and the receipt is the job's
    have hown : Owns w request.jobId request.receiptInfo := by
      rcases hsafe with ⟨hproc, -⟩ | ⟨-, hown⟩
      · exact absurd (hproc ▸ ht) not_terminal_processing
      · exact hown
    have hmem : (jobForStatusUpdate request retryCount updateTime).jobId ∈ w.table := hready
    obtain ⟨job, -, hnew⟩ := readJob_upsert base64 timeUtil hinv.sound.rows hmem
    refine ⟨fun job' hjob' => ?_, hown⟩
    have hsame : some (Except.ok job') = some (.ok (job.upsert _)) := hjob'.symm.trans hnew
    rw [Option.some.injEq, Except.ok.injEq] at hsame
    rw [hsame, upsert_jobForStatusUpdate_jobStatus job (Terminal.ne_unknown ht)]
    exact ht
  · -- the table holds no job, or one that has ended
    refine ⟨fun job' hjob' => ?_, hsafe⟩
    rcases hread with hnone | ⟨job, hjob, ht⟩
    · rw [hnone] at hjob'
      cases hjob'
    · rw [hjob, Option.some.injEq, Except.ok.injEq] at hjob'
      exact hjob' ▸ ht

/-- The first request of an admitted call keeps its job. -/
theorem start_safe {jobCall : JobCall} (ha : Admits w jobCall) (h : jobCall.start = .wait p) :
    Safe base64 timeUtil w p := by
  rcases start_wait h with ⟨_, _, -, rfl⟩ | ⟨-, rfl⟩ | ⟨_, -, rfl⟩ | ⟨_, -, rfl⟩ |
    ⟨request, rfl, rfl⟩ | ⟨_, -, rfl⟩ | ⟨request, rfl, rfl⟩
  · trivial
  · trivial
  · trivial
  · trivial
  · intro ht
    refine ha.owns request.jobId rfl request.receiptInfo ?_
    rw [Option.mem_def, JobCall.deletesBy, if_pos ht]
  · trivial
  · exact ha.owns request.jobId rfl request.receiptInfo rfl

theorem Inv.call (hinv : Inv base64 timeUtil w) {jobCall : JobCall} (ha : Admits w jobCall) :
    Inv base64 timeUtil (step base64 timeUtil w (.call jobCall)) := by
  -- a call changes neither store
  have hframe : ∀ jobId, Frame jobId w (step base64 timeUtil w (.call jobCall)) := fun jobId =>
    (⟨rfl, fun _ hm _ => hm, fun _ hm => hm⟩ :
      Frame jobId w { w with nextContext := w.nextContext + 1 }).resume _ _
  refine ⟨hinv.sound.call base64 timeUtil jobCall,
    fun jobId => (hinv.stocked jobId).frame base64 timeUtil (hframe jobId), fun c q hq => ?_, ?_⟩
  · refine Safe.frame base64 timeUtil (fun jobId _ => hframe jobId) ?_
    by_cases hc : c = w.nextContext
    · subst hc
      exact start_safe base64 timeUtil ha (lookup_resume_self hq)
    · rw [step, lookup_resume_ne hc] at hq
      exact hinv.safe c q hq
  · show Exclusive (({ w with nextContext := w.nextContext + 1 } : JobWorld).resume w.nextContext
      jobCall.start).pending
    cases hstart : jobCall.start with
    | finish result => exact hinv.exclusive.erase w.nextContext
    | wait p =>
        refine hinv.exclusive.insert fun c q jobId _ hq hp hqw => ?_
        rw [start_writes hstart] at hp
        exact ha.exclusive jobId hp ⟨c, q⟩ (AList.mem_lookup_iff.mp hq) hqw

theorem Inv.serve (hinv : Inv base64 timeUtil w) (hp : w.pending.lookup context = some p)
    (h : serve base64 timeUtil w currentTime p reply = some (w', next)) :
    Inv base64 timeUtil (w'.resume context next) := by
  have hsafe := hinv.safe context p hp
  have hpending := (serve_mono base64 timeUtil h).2.2.1
  -- the answer leaves every job but its context's own as it was
  have hframe : ∀ jobId, p.writes ≠ some jobId → Frame jobId w (w'.resume context next) :=
    fun jobId hJ => (serve_frame base64 timeUtil hinv.sound hsafe h hJ).resume context next
  refine ⟨hinv.sound.serve base64 timeUtil hp h, fun jobId => ?_, fun c q hq => ?_, ?_⟩
  · by_cases hJ : p.writes = some jobId
    · exact (serve_stockedAt base64 timeUtil hinv hp h hJ).frame base64 timeUtil
        (Frame.refl.resume context next)
    · exact (hinv.stocked jobId).frame base64 timeUtil (hframe jobId hJ)
  · by_cases hc : c = context
    · subst hc
      cases lookup_resume_self hq
      exact (serve_safe_wait base64 timeUtil hinv hp h).frame base64 timeUtil
        fun _ _ => Frame.refl.resume _ _
    · -- another context writes another job
      rw [lookup_resume_ne hc, hpending] at hq
      exact (hinv.safe c q hq).frame base64 timeUtil fun jobId hqJ =>
        hframe jobId fun hpJ => hc (hinv.exclusive c context q p jobId hq hp hqJ hpJ)
  · cases next with
    | finish result =>
        rw [resume_finish_pending, hpending]
        exact hinv.exclusive.erase context
    | wait p' =>
        rw [resume_wait, hpending]
        refine hinv.exclusive.insert fun c q jobId hc hq hp' hqw => hc ?_
        rw [serve_writes_wait base64 timeUtil h] at hp'
        exact hinv.exclusive c context q p jobId hq hp hqw hp'

/-- Every admitted event keeps the invariant. -/
theorem inv_step (hinv : Inv base64 timeUtil w) {event : JobEvent} (ha : Allows w event) :
    Inv base64 timeUtil (step base64 timeUtil w event) := by
  cases event with
  | call jobCall => exact hinv.call base64 timeUtil ha
  | answer context reply currentTime =>
      simp only [step]
      split
      · exact hinv
      · rename_i p hp
        split
        · exact hinv
        · rename_i w' next h
          exact hinv.serve base64 timeUtil hp h

theorem inv_initial : Inv base64 timeUtil initial := by
  refine ⟨sound_initial base64 timeUtil, fun jobId job h => ?_, fun c q h => ?_,
    fun c₁ _ _ _ _ h => ?_⟩
  · simp [readJob, initial] at h
  · simp [initial] at h
  · simp [initial] at h

theorem inv_run {events : List JobEvent} (h : Admitted (step base64 timeUtil) Allows initial events) :
    Inv base64 timeUtil (run base64 timeUtil initial events) :=
  foldl_invariant_of_admitted (step base64 timeUtil) (Inv base64 timeUtil) Allows
    (fun _ _ ha hinv => inv_step base64 timeUtil hinv ha) h (inv_initial base64 timeUtil)

end Inv

end JobWorld

end ControlPlane.JobClient
