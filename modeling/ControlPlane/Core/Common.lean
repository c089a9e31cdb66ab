import Mathlib.Data.List.AList

/-!
# `ExecutionResult` and `ConcurrentMap`

Every call of the SCP core answers with an `ExecutionResult`: a status and a
64-bit status code. A result is successful when it is exactly the success
result; a failure carries the code that `MakeErrorCode` builds from a
component code and an error number.

`ConcurrentMap` keeps at most one value per key: an insert of a key that is
present fails with `SC_CONCURRENT_MAP_ENTRY_ALREADY_EXISTS` and leaves the
map, and a find of an absent key fails. The callers read a failed find as
"no value", so it is an `Option` here.
-/

namespace ControlPlane.Core

inductive ExecutionStatus
  | success
  | failure
  | retry
  deriving DecidableEq, Repr

/-- `StatusCode`, a `uint64_t`; the codes in use are far below `2 ^ 64`. -/
abbrev StatusCode := Nat

def scOk : StatusCode := 0

def scUnknown : StatusCode := 1

/-- `ExecutionResult`; a default-constructed result is an unknown failure. -/
structure ExecutionResult where
  status : ExecutionStatus := .failure
  statusCode : StatusCode := scUnknown
  deriving DecidableEq, Repr

def successExecutionResult : ExecutionResult := ⟨.success, scOk⟩

def failureExecutionResult (statusCode : StatusCode) : ExecutionResult := ⟨.failure, statusCode⟩

def retryExecutionResult (statusCode : StatusCode) : ExecutionResult := ⟨.retry, statusCode⟩

/-- `ExecutionResult::Successful`: equal to the success result. -/
def ExecutionResult.successful (r : ExecutionResult) : Bool := r == successExecutionResult

@[simp] theorem ExecutionResult.successful_iff {r : ExecutionResult} :
    r.successful = true ↔ r = successExecutionResult := by
  simp [ExecutionResult.successful]

@[simp] theorem ExecutionResult.successful_eq_false {r : ExecutionResult} :
    r.successful = false ↔ r ≠ successExecutionResult := by
  simp [ExecutionResult.successful]

@[simp] theorem successExecutionResult_successful : successExecutionResult.successful = true := by
  decide

@[simp] theorem failureExecutionResult_successful (statusCode : StatusCode) :
    (failureExecutionResult statusCode).successful = false := by
  simp [ExecutionResult.successful, failureExecutionResult, successExecutionResult]

@[simp] theorem retryExecutionResult_successful (statusCode : StatusCode) :
    (retryExecutionResult statusCode).successful = false := by
  simp [ExecutionResult.successful, retryExecutionResult, successExecutionResult]

@[simp] theorem failureExecutionResult_ne_success (statusCode : StatusCode) :
    failureExecutionResult statusCode ≠ successExecutionResult := by
  simp [failureExecutionResult, successExecutionResult]

/-- `ExecutionResultOr<T>`: a variant of a result and a value. Built from a
result, it holds no value even when that result is a success. -/
inductive ExecutionResultOr (α : Type) where
  | result (r : ExecutionResult)
  | value (v : α)
  deriving DecidableEq, Repr

namespace ExecutionResultOr

variable {α : Type}

/-- `ExecutionResultOr::result`: the held result, or success for a value. -/
def toResult : ExecutionResultOr α → ExecutionResult
  | .result r => r
  | .value _ => successExecutionResult

/-- `ExecutionResultOr::Successful`. -/
def successful (r : ExecutionResultOr α) : Bool := r.toResult.successful

/-- `ExecutionResultOr::has_value`. -/
def hasValue : ExecutionResultOr α → Bool
  | .result _ => false
  | .value _ => true

/-- Holding a value is successful; a success without one is the other way to
be successful. -/
theorem successful_iff {r : ExecutionResultOr α} :
    r.successful = true ↔ r.hasValue = true ∨ r = .result successExecutionResult := by
  cases r <;> simp [successful, toResult, hasValue]

end ExecutionResultOr

/-- `errors::MakeErrorCode`: the failure bit, the component code and the error
number. -/
def makeErrorCode (component error : Nat) : StatusCode :=
  (1 <<< 31) ||| (component <<< 16) ||| error

def scCoreUtils : Nat := 0x0014

def scCoreUtilsInvalidInput : StatusCode := makeErrorCode scCoreUtils 0x0001

def scConcurrentMap : Nat := 0x0004

def scConcurrentMapEntryAlreadyExists : StatusCode := makeErrorCode scConcurrentMap 0x0001

def scConcurrentMapEntryDoesNotExist : StatusCode := makeErrorCode scConcurrentMap 0x0002

/-- `ConcurrentMap<TKey, TValue>`: one value per key. -/
abbrev ConcurrentMap (κ ν : Type) [DecidableEq κ] := AList (fun _ : κ => ν)

namespace ConcurrentMap

variable {κ ν : Type} [DecidableEq κ]

/-- `ConcurrentMap::Insert`: the first value of a key stays. -/
def insert (m : ConcurrentMap κ ν) (key : κ) (value : ν) :
    Except ExecutionResult (ConcurrentMap κ ν) :=
  if key ∈ m then .error (failureExecutionResult scConcurrentMapEntryAlreadyExists)
  else .ok (AList.insert key value m)

/-- `ConcurrentMap::Find`; `none` is its `SC_CONCURRENT_MAP_ENTRY_DOES_NOT_EXIST`. -/
def find (m : ConcurrentMap κ ν) (key : κ) : Option ν := m.lookup key

/-- `ConcurrentMap::Erase`: whatever value the key holds goes. -/
def erase (m : ConcurrentMap κ ν) (key : κ) : Except ExecutionResult (ConcurrentMap κ ν) :=
  if key ∈ m then .ok (AList.erase key m)
  else .error (failureExecutionResult scConcurrentMapEntryDoesNotExist)

theorem insert_eq_ok {m m' : ConcurrentMap κ ν} {key : κ} {value : ν}
    (h : insert m key value = .ok m') : key ∉ m ∧ m' = AList.insert key value m := by
  unfold insert at h
  split at h
  · cases h
  · exact ⟨by assumption, (Except.ok.inj h).symm⟩

/-- An insert fails only on a key that is present, with the map's own code. -/
theorem insert_eq_error {m : ConcurrentMap κ ν} {key : κ} {value : ν} {r : ExecutionResult}
    (h : insert m key value = .error r) :
    key ∈ m ∧ r = failureExecutionResult scConcurrentMapEntryAlreadyExists := by
  unfold insert at h
  split at h
  · exact ⟨by assumption, (Except.error.inj h).symm⟩
  · cases h

theorem erase_eq_ok {m m' : ConcurrentMap κ ν} {key : κ} (h : erase m key = .ok m') :
    key ∈ m ∧ m' = AList.erase key m := by
  unfold erase at h
  split at h
  · exact ⟨by assumption, (Except.ok.inj h).symm⟩
  · cases h

/-- An erase fails only on a key that is absent, with the map's own code. -/
theorem erase_eq_error {m : ConcurrentMap κ ν} {key : κ} {r : ExecutionResult}
    (h : erase m key = .error r) :
    key ∉ m ∧ r = failureExecutionResult scConcurrentMapEntryDoesNotExist := by
  unfold erase at h
  split at h
  · cases h
  · exact ⟨by assumption, (Except.error.inj h).symm⟩

theorem insert_of_not_mem {m : ConcurrentMap κ ν} {key : κ} (value : ν) (h : key ∉ m) :
    insert m key value = .ok (AList.insert key value m) := by
  simp [insert, h]

theorem erase_of_mem {m : ConcurrentMap κ ν} {key : κ} (h : key ∈ m) :
    erase m key = .ok (AList.erase key m) := by
  simp [erase, h]

theorem find_isSome_iff {m : ConcurrentMap κ ν} {key : κ} : (find m key).isSome ↔ key ∈ m :=
  AList.lookup_isSome

/-- An erase undoes an insert that succeeded. -/
theorem erase_of_insert_ok {m m' : ConcurrentMap κ ν} {key : κ} {value : ν}
    (h : insert m key value = .ok m') : AList.erase key m' = m := by
  obtain ⟨hkey, rfl⟩ := insert_eq_ok h
  apply AList.ext
  rw [AList.insert_of_notMem hkey]
  exact List.kerase_cons_eq rfl

theorem find_insert_of_ok {m m' : ConcurrentMap κ ν} {key : κ} {value : ν}
    (h : insert m key value = .ok m') (key' : κ) :
    find m' key' = if key' = key then some value else find m key' := by
  obtain ⟨-, rfl⟩ := insert_eq_ok h
  by_cases hk : key' = key
  · subst hk
    simp [find]
  · simp [find, hk, AList.lookup_insert_ne hk]

end ConcurrentMap

end ControlPlane.Core
