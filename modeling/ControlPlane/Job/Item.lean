import ControlPlane.Lib.Record

/-!
# Jobs as items of the jobs table

`JobClientUtils` turns a `Job` into the attributes of a NoSQL item and back.
`CreatePutJobRequest` writes all seven columns. `CreateUpsertJobRequest` writes
a column only when the job's field is away from its default, except
`RetryCount`, which it writes in every case. The store applies an upsert as
`GcpNoSQLDatabaseClientProvider::GetMergedJson` does: the request's attributes,
and every existing attribute whose name they do not hold.

Above the item model stands the job a row represents: a row represents `job`
when it reads, name by name, like the row `PutJob` would store for `job`. Two
facts connect the layers: a row that represents a job decodes to it, and an
upsert built from `update` turns it into a row that represents
`job.upsert update`, where `Job.upsert` says field by field what the upsert
keeps.

The body column holds the Base64 encoding of the body and the time columns
the text of a timestamp; both encodings are taken as codecs that decode what
they encode, and every result holds for all of them.
-/

namespace ControlPlane.JobClient

open Record

/-- `JobStatus` of `job_service.proto`. -/
inductive JobStatus
  | jobStatusUnknown
  | jobStatusCreated
  | jobStatusProcessing
  | jobStatusFailure
  | jobStatusSuccess
  deriving DecidableEq, Repr

namespace JobStatus

/-- The wire value of a status. -/
def toInt : JobStatus → Int
  | .jobStatusUnknown => 0
  | .jobStatusCreated => 1
  | .jobStatusProcessing => 2
  | .jobStatusFailure => 3
  | .jobStatusSuccess => 4

/-- `static_cast<JobStatus>` of a stored value. A value that no status has
reads as `JOB_STATUS_UNKNOWN`, which every check refuses as it refuses the
value itself. -/
def ofInt (value : Int) : JobStatus :=
  if value = 1 then .jobStatusCreated
  else if value = 2 then .jobStatusProcessing
  else if value = 3 then .jobStatusFailure
  else if value = 4 then .jobStatusSuccess
  else .jobStatusUnknown

@[simp] theorem ofInt_toInt (status : JobStatus) : ofInt status.toInt = status := by
  cases status <;> rfl

end JobStatus

/-- The status codes of the job client's paths (`error_codes.h`), and the two
that `Base64Decode` returns. -/
inductive ErrorCode
  | scJobClientProviderInvalidJobItem
  | scJobClientProviderMissingJobId
  | scJobClientProviderInvalidJobStatus
  | scJobClientProviderInvalidReceiptInfo
  | scJobClientProviderUpdationConflict
  | scCoreUtilsInvalidBase64EncodingLength
  | scCoreUtilsInvalidInput
  deriving DecidableEq, Repr

/-- `kDefaultTimestampValue`, that is `TimeUtil::SecondsToTimestamp(0)`;
timestamps are counted in nanoseconds. -/
def kDefaultTimestampValue : Nat := 0

/-- `Job` of `job_service.proto`, with the defaults of its fields. -/
structure Job where
  jobId : String := ""
  serverJobId : String := ""
  jobBody : String := ""
  jobStatus : JobStatus := .jobStatusUnknown
  createdTime : Nat := kDefaultTimestampValue
  updatedTime : Nat := kDefaultTimestampValue
  retryCount : Int := 0
  processingStartedTime : Nat := kDefaultTimestampValue
  deriving DecidableEq, Repr

/-! ## Items -/

/-- The value of an `ItemAttribute`: the `value_int` or the `value_string` of
its oneof. -/
inductive AttributeValue
  | valueInt (value : Int)
  | valueString (value : String)
  deriving DecidableEq, Repr

namespace AttributeValue

/-- `value_int()`: zero on an attribute that holds a string. -/
def getInt : AttributeValue → Int
  | .valueInt value => value
  | .valueString _ => 0

/-- `value_string()`: empty on an attribute that holds an integer. -/
def getString : AttributeValue → String
  | .valueString value => value
  | .valueInt _ => ""

end AttributeValue

/-- `ItemAttribute`. -/
structure ItemAttribute where
  name : String
  value : AttributeValue
  deriving DecidableEq, Repr

/-- `Item`: the value of its partition key, when it has a key with a partition
key, and its attributes. -/
structure Item where
  partitionKey : Option String
  attributes : List ItemAttribute
  deriving DecidableEq, Repr

/-- `CreateDatabaseItemRequest` for the jobs table. -/
structure CreateDatabaseItemRequest where
  partitionKey : String
  attributes : List ItemAttribute
  deriving DecidableEq, Repr

/-- `UpsertDatabaseItemRequest` for the jobs table, without required
attributes. -/
structure UpsertDatabaseItemRequest where
  partitionKey : String
  newAttributes : List ItemAttribute
  deriving DecidableEq, Repr

def kServerJobIdColumnName : String := "ServerJobId"
def kJobBodyColumnName : String := "JobBody"
def kJobStatusColumnName : String := "JobStatus"
def kCreatedTimeColumnName : String := "CreatedTime"
def kUpdatedTimeColumnName : String := "UpdatedTime"
def kRetryCountColumnName : String := "RetryCount"
def kProcessingStartedTimeColumnName : String := "ProcessingStartedTime"

/-- `kJobsTableRequiredColumns`. -/
def kJobsTableRequiredColumns : List String :=
  [kServerJobIdColumnName, kJobBodyColumnName, kJobStatusColumnName,
    kCreatedTimeColumnName, kUpdatedTimeColumnName, kRetryCountColumnName,
    kProcessingStartedTimeColumnName]

/-! ## `JobClientUtils` -/

namespace JobClientUtils

def makeStringAttribute (name value : String) : ItemAttribute := ⟨name, .valueString value⟩

def makeIntAttribute (name : String) (value : Int) : ItemAttribute := ⟨name, .valueInt value⟩

def createJob (jobId serverJobId jobBody : String) (jobStatus : JobStatus)
    (createdTime updatedTime processingStartedTime : Nat) (retryCount : Int) : Job where
  jobId := jobId
  serverJobId := serverJobId
  jobBody := jobBody
  jobStatus := jobStatus
  createdTime := createdTime
  updatedTime := updatedTime
  retryCount := retryCount
  processingStartedTime := processingStartedTime

/-- `ValidateJobItem`: a key with a partition key, seven attributes, and an
attribute for each required column. -/
def validateJobItem (item : Item) : Except ErrorCode Unit :=
  if item.partitionKey.isNone ||
      item.attributes.length != kJobsTableRequiredColumns.length then
    .error .scJobClientProviderInvalidJobItem
  else if kJobsTableRequiredColumns.any fun column =>
      item.attributes.all fun attr => attr.name != column then
    .error .scJobClientProviderInvalidJobItem
  else .ok ()

/-- `GetItemAttributes`: the first attribute of each name, as `map::insert`
keeps it. -/
def getItemAttributes (item : Item) (name : String) : Option AttributeValue :=
  (item.attributes.find? fun attr => attr.name == name).map ItemAttribute.value

/-- `map::at` on a column that `ValidateJobItem` has found. -/
def columnAt (attributes : String → Option AttributeValue) (column : String) :
    AttributeValue :=
  (attributes column).getD (.valueString "")

section Codecs

variable (base64 : Codec ErrorCode String String) (timeUtil : Codec Unit Nat String)

/-- `TimeUtil::FromString` into a default timestamp: a text it cannot parse
leaves the default. -/
def timeFromString (value : String) : Nat :=
  match timeUtil.decode value with
  | .ok time => time
  | .error _ => kDefaultTimestampValue

/-- `ConvertDatabaseItemToJob`. -/
def convertDatabaseItemToJob (item : Item) : Except ErrorCode Job := do
  validateJobItem item
  let jobId := item.partitionKey.getD ""
  let jobAttributesMap := getItemAttributes item
  let serverJobId := (columnAt jobAttributesMap kServerJobIdColumnName).getString
  let jobBody ← base64.decode (columnAt jobAttributesMap kJobBodyColumnName).getString
  let jobStatus := JobStatus.ofInt (columnAt jobAttributesMap kJobStatusColumnName).getInt
  let createdTime :=
    timeFromString timeUtil (columnAt jobAttributesMap kCreatedTimeColumnName).getString
  let updatedTime :=
    timeFromString timeUtil (columnAt jobAttributesMap kUpdatedTimeColumnName).getString
  let retryCount := (columnAt jobAttributesMap kRetryCountColumnName).getInt
  let processingStartedTime := timeFromString timeUtil
    (columnAt jobAttributesMap kProcessingStartedTimeColumnName).getString
  pure (createJob jobId serverJobId jobBody jobStatus createdTime updatedTime
    processingStartedTime retryCount)

/-- `CreatePutJobRequest`: all seven columns. -/
def createPutJobRequest (job : Job) : CreateDatabaseItemRequest where
  partitionKey := job.jobId
  attributes :=
    [makeStringAttribute kServerJobIdColumnName job.serverJobId,
      makeStringAttribute kJobBodyColumnName (base64.encode job.jobBody),
      makeIntAttribute kJobStatusColumnName job.jobStatus.toInt,
      makeStringAttribute kCreatedTimeColumnName (timeUtil.encode job.createdTime),
      makeStringAttribute kUpdatedTimeColumnName (timeUtil.encode job.updatedTime),
      makeIntAttribute kRetryCountColumnName job.retryCount,
      makeStringAttribute kProcessingStartedTimeColumnName
        (timeUtil.encode job.processingStartedTime)]

/-- `CreateUpsertJobRequest`: the columns whose fields are away from their
defaults, and `RetryCount` in every case. -/
def createUpsertJobRequest (job : Job) : UpsertDatabaseItemRequest where
  partitionKey := job.jobId
  newAttributes :=
    (if !job.serverJobId.isEmpty then
      [makeStringAttribute kServerJobIdColumnName job.serverJobId] else []) ++
    (if !job.jobBody.isEmpty then
      [makeStringAttribute kJobBodyColumnName (base64.encode job.jobBody)] else []) ++
    (if job.jobStatus ≠ .jobStatusUnknown then
      [makeIntAttribute kJobStatusColumnName job.jobStatus.toInt] else []) ++
    (if job.createdTime ≠ kDefaultTimestampValue then
      [makeStringAttribute kCreatedTimeColumnName (timeUtil.encode job.createdTime)]
      else []) ++
    (if job.updatedTime ≠ kDefaultTimestampValue then
      [makeStringAttribute kUpdatedTimeColumnName (timeUtil.encode job.updatedTime)]
      else []) ++
    [makeIntAttribute kRetryCountColumnName job.retryCount] ++
    (if job.processingStartedTime ≠ kDefaultTimestampValue then
      [makeStringAttribute kProcessingStartedTimeColumnName
        (timeUtil.encode job.processingStartedTime)] else [])

end Codecs

/-- `allowed_status_to_update`: the statuses a job of each status may move to;
a status without an entry may move nowhere. -/
def allowedStatusToUpdate : JobStatus → Option (List JobStatus)
  | .jobStatusCreated =>
      some [.jobStatusProcessing, .jobStatusSuccess, .jobStatusFailure]
  | .jobStatusProcessing =>
      some [.jobStatusProcessing, .jobStatusSuccess, .jobStatusFailure]
  | _ => none

/-- `ValidateJobStatus`. -/
def validateJobStatus (currentStatus updateStatus : JobStatus) : Except ErrorCode Unit :=
  match allowedStatusToUpdate currentStatus with
  | none => .error .scJobClientProviderInvalidJobStatus
  | some currentStatusSet =>
      if updateStatus ∈ currentStatusSet then .ok ()
      else .error .scJobClientProviderInvalidJobStatus

end JobClientUtils

/-! ## The store -/

/-- The value column of a stored item: the JSON object of its attributes. -/
abbrev Row := AList (fun _ : String => AttributeValue)

/-- The JSON object of a list of attributes, set member by member. -/
def attributesToJson (attributes : List ItemAttribute) : Row :=
  insertAll (attributes.map fun attr => (attr.name, attr.value)) ∅

/-- `GetMergedJson` on an existing row: the new attributes, and every existing
member whose name they do not hold. -/
def getMergedJson (existing newAttributes : Row) : Row := newAttributes ∪ existing

/-- `CreateDatabaseItem` of a new item. -/
def createDatabaseItem (request : CreateDatabaseItemRequest) : Row :=
  attributesToJson request.attributes

/-- `UpsertDatabaseItem` on an existing item. -/
def upsertDatabaseItem (row : Row) (request : UpsertDatabaseItemRequest) : Row :=
  getMergedJson row (attributesToJson request.newAttributes)

/-- `GetDatabaseItem`: the requested key, and one attribute for each member of
the row. -/
def getDatabaseItem (jobId : String) (row : Row) : Item where
  partitionKey := some jobId
  attributes := row.entries.map fun entry => ⟨entry.1, entry.2⟩

/-! ## The job a row represents -/

section Represents

open JobClientUtils

variable (base64 : Codec ErrorCode String String) (timeUtil : Codec Unit Nat String)

/-- The row `PutJob` stores for `job`. -/
def putRow (job : Job) : Row := createDatabaseItem (createPutJobRequest base64 timeUtil job)

/-- The row reads, name by name, like the row `PutJob` stores for `job`. -/
def Represents (row : Row) (job : Job) : Prop :=
  ∀ name, row.lookup name = (putRow base64 timeUtil job).lookup name

/-- Whether `CreateUpsertJobRequest` writes the column `name` of `update`: the
column of a field away from its default, and `RetryCount` in every case. -/
def Job.writes (update : Job) (name : String) : Bool :=
  if name = kServerJobIdColumnName then !update.serverJobId.isEmpty
  else if name = kJobBodyColumnName then !update.jobBody.isEmpty
  else if name = kJobStatusColumnName then update.jobStatus ≠ .jobStatusUnknown
  else if name = kCreatedTimeColumnName then update.createdTime ≠ kDefaultTimestampValue
  else if name = kUpdatedTimeColumnName then update.updatedTime ≠ kDefaultTimestampValue
  else if name = kProcessingStartedTimeColumnName then
    update.processingStartedTime ≠ kDefaultTimestampValue
  else true

/-- The job that an upsert built by `CreateUpsertJobRequest` from `update`
leaves of `job`: each field of `update` away from its default, the retry count
of `update` in every case, and the rest of `job`. -/
def Job.upsert (job update : Job) : Job where
  jobId := job.jobId
  serverJobId := if update.serverJobId.isEmpty then job.serverJobId else update.serverJobId
  jobBody := if update.jobBody.isEmpty then job.jobBody else update.jobBody
  jobStatus :=
    if update.jobStatus = .jobStatusUnknown then job.jobStatus else update.jobStatus
  createdTime :=
    if update.createdTime = kDefaultTimestampValue then job.createdTime else update.createdTime
  updatedTime :=
    if update.updatedTime = kDefaultTimestampValue then job.updatedTime else update.updatedTime
  retryCount := update.retryCount
  processingStartedTime :=
    if update.processingStartedTime = kDefaultTimestampValue then job.processingStartedTime
    else update.processingStartedTime

theorem kJobsTableRequiredColumns_nodup : kJobsTableRequiredColumns.Nodup := by
  decide

/-- A name is one of the seven columns or none of them. -/
theorem column_cases (name : String) :
    name = kServerJobIdColumnName ∨ name = kJobBodyColumnName ∨
      name = kJobStatusColumnName ∨ name = kCreatedTimeColumnName ∨
      name = kUpdatedTimeColumnName ∨ name = kRetryCountColumnName ∨
      name = kProcessingStartedTimeColumnName ∨ name ∉ kJobsTableRequiredColumns := by
  by_cases h : name ∈ kJobsTableRequiredColumns
  · simp only [kJobsTableRequiredColumns, List.mem_cons, List.not_mem_nil, or_false] at h
    tauto
  · tauto

theorem putRow_eq (job : Job) :
    putRow base64 timeUtil job = insertAll
      ((createPutJobRequest base64 timeUtil job).attributes.map fun attr =>
        (attr.name, attr.value)) ∅ := rfl

theorem createPutJobRequest_names (job : Job) :
    ((createPutJobRequest base64 timeUtil job).attributes.map fun attr =>
      (attr.name, attr.value)).map Prod.fst = kJobsTableRequiredColumns := rfl

theorem mem_putRow {job : Job} {name : String} :
    name ∈ putRow base64 timeUtil job ↔ name ∈ kJobsTableRequiredColumns := by
  rw [putRow_eq, mem_insertAll, createPutJobRequest_names]
  simp [AList.notMem_empty]

theorem lookup_putRow_eq_none {job : Job} {name : String} :
    (putRow base64 timeUtil job).lookup name = none ↔ name ∉ kJobsTableRequiredColumns := by
  rw [AList.lookup_eq_none, mem_putRow]

/-- `CreateUpsertJobRequest` writes what `CreatePutJobRequest` writes, less the
columns it leaves out. -/
theorem createUpsertJobRequest_newAttributes (update : Job) :
    (createUpsertJobRequest base64 timeUtil update).newAttributes =
      (createPutJobRequest base64 timeUtil update).attributes.filter
        fun attr => update.writes attr.name := by
  have ite_nil_append : ∀ (c : Prop) [Decidable c] (x : ItemAttribute) (l : List ItemAttribute),
      (if c then [] else [x]) ++ l = if c then l else x :: l := by
    intro c _ x l
    split <;> rfl
  simp only [createUpsertJobRequest, List.append_assoc]
  simp [createPutJobRequest, List.filter_cons, Job.writes, makeStringAttribute,
    makeIntAttribute, kServerJobIdColumnName, kJobBodyColumnName, kJobStatusColumnName,
    kCreatedTimeColumnName, kUpdatedTimeColumnName, kRetryCountColumnName,
    kProcessingStartedTimeColumnName, ite_nil_append]

/-- The new attributes of an upsert read as the written columns of `update`'s
row. -/
theorem lookup_upsertAttributes (update : Job) (name : String) :
    (attributesToJson (createUpsertJobRequest base64 timeUtil update).newAttributes).lookup
        name =
      if update.writes name then (putRow base64 timeUtil update).lookup name else none := by
  have hswap : ((createPutJobRequest base64 timeUtil update).attributes.filter
      fun attr => update.writes attr.name).map (fun attr => (attr.name, attr.value)) =
      ((createPutJobRequest base64 timeUtil update).attributes.map
        fun attr => (attr.name, attr.value)).filter fun p => update.writes p.1 := by
    rw [List.filter_map]
    rfl
  rw [attributesToJson, createUpsertJobRequest_newAttributes, hswap, lookup_insertAll_filter,
    AList.lookup_empty, putRow_eq]

/-- The job an upsert leaves reads, column by column, as `update` where the
upsert writes and as `job` elsewhere. -/
theorem lookup_putRow_upsert (job update : Job) (name : String) :
    (putRow base64 timeUtil (job.upsert update)).lookup name =
      if update.writes name then (putRow base64 timeUtil update).lookup name
      else (putRow base64 timeUtil job).lookup name := by
  rcases column_cases name with rfl | rfl | rfl | rfl | rfl | rfl | rfl | h
  rotate_left 7
  · simp only [(lookup_putRow_eq_none base64 timeUtil).mpr h, ite_self]
  all_goals
    simp [putRow_eq, createPutJobRequest, Job.upsert, Job.writes, makeStringAttribute,
      makeIntAttribute, kServerJobIdColumnName, kJobBodyColumnName, kJobStatusColumnName,
      kCreatedTimeColumnName, kUpdatedTimeColumnName, kRetryCountColumnName,
      kProcessingStartedTimeColumnName, AList.lookup_insert_ne, -AList.insert_empty,
      AList.lookup_insert]
  all_goals split_ifs <;> rfl

/-- An upsert built from `update` turns a row that represents `job` into a row
that represents `job.upsert update`. -/
theorem represents_upsertDatabaseItem {row : Row} {job : Job}
    (h : Represents base64 timeUtil row job) (update : Job) :
    Represents base64 timeUtil
      (upsertDatabaseItem row (createUpsertJobRequest base64 timeUtil update))
      (job.upsert update) := by
  intro name
  rw [upsertDatabaseItem, getMergedJson, lookup_union, lookup_upsertAttributes,
    lookup_putRow_upsert, h name]
  split_ifs with hw
  · cases hu : (putRow base64 timeUtil update).lookup name with
    | some v => rfl
    | none =>
        have hcol := (lookup_putRow_eq_none base64 timeUtil).mp hu
        rw [Option.none_or, (lookup_putRow_eq_none base64 timeUtil).mpr hcol]
  · exact Option.none_or

/-- A row that represents a job holds exactly the seven columns. -/
theorem mem_of_represents {row : Row} {job : Job} (h : Represents base64 timeUtil row job)
    {name : String} : name ∈ row ↔ name ∈ kJobsTableRequiredColumns := by
  rw [← AList.lookup_isSome, h name, AList.lookup_isSome, mem_putRow]

/-- `GetItemAttributes` of a fetched row reads the row. -/
theorem getItemAttributes_getDatabaseItem (jobId : String) (row : Row) (name : String) :
    getItemAttributes (getDatabaseItem jobId row) name = row.lookup name := by
  simp only [getItemAttributes, getDatabaseItem, AList.lookup]
  generalize row.entries = l
  induction l with
  | nil => rfl
  | cons e l ih =>
      obtain ⟨k, v⟩ := e
      by_cases hk : k = name
      · subst hk
        simp
      · rw [List.dlookup_cons_ne l ⟨k, v⟩ (Ne.symm hk), ← ih]
        simp [hk]

/-- A fetched row that represents a job passes `ValidateJobItem`. -/
theorem validateJobItem_getDatabaseItem {row : Row} {job : Job}
    (h : Represents base64 timeUtil row job) (jobId : String) :
    validateJobItem (getDatabaseItem jobId row) = .ok () := by
  have hperm : row.keys.Perm kJobsTableRequiredColumns :=
    (List.perm_ext_iff_of_nodup row.keys_nodup kJobsTableRequiredColumns_nodup).mpr
      fun a => by rw [← AList.mem_keys]; exact mem_of_represents base64 timeUtil h
  have hlen : row.entries.length = kJobsTableRequiredColumns.length := by
    simpa [AList.keys, List.keys] using hperm.length_eq
  have hcol : ∀ column ∈ kJobsTableRequiredColumns,
      ∃ attr ∈ (getDatabaseItem jobId row).attributes, attr.name = column := by
    intro column hc
    have hmem : column ∈ row.keys := AList.mem_keys.mp ((mem_of_represents base64 timeUtil h).mpr hc)
    obtain ⟨e, he, rfl⟩ := List.mem_map.mp hmem
    exact ⟨⟨e.1, e.2⟩, List.mem_map_of_mem he, rfl⟩
  rw [validateJobItem, if_neg, if_neg]
  · simp only [List.any_eq_true, List.all_eq_true, bne_iff_ne, ne_eq, not_exists, not_and, not_forall, not_not]
    intro column hc
    obtain ⟨attr, ha, hname⟩ := hcol column hc
    exact ⟨attr, ha, hname⟩
  · simp [getDatabaseItem, hlen]

/-- A fetched row that represents `job` decodes to `job`, under the job id of
the request. -/
theorem convertDatabaseItemToJob_getDatabaseItem {row : Row} {job : Job}
    (h : Represents base64 timeUtil row job) (jobId : String) :
    convertDatabaseItemToJob base64 timeUtil (getDatabaseItem jobId row) =
      .ok { job with jobId := jobId } := by
  have hattr : getItemAttributes (getDatabaseItem jobId row) =
      (putRow base64 timeUtil job).lookup := by
    funext name
    rw [getItemAttributes_getDatabaseItem, h name]
  simp only [convertDatabaseItemToJob, validateJobItem_getDatabaseItem base64 timeUtil h, hattr]
  simp [columnAt, putRow_eq, createPutJobRequest, makeStringAttribute,
      makeIntAttribute, kServerJobIdColumnName, kJobBodyColumnName, kJobStatusColumnName,
      kCreatedTimeColumnName, kUpdatedTimeColumnName, kRetryCountColumnName,
      kProcessingStartedTimeColumnName, AList.lookup_insert_ne, -AList.insert_empty,
      AList.lookup_insert, timeFromString, AttributeValue.getString, AttributeValue.getInt, getDatabaseItem, createJob]

end Represents

end ControlPlane.JobClient
