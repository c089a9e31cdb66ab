import Mathlib.Data.List.Basic

/-!
# The SOCKS5 handshake state machine

`Socks5State` (src/cc/aws/proxy/src/socks5_state.cc) parses the client's
RFC 1928 greeting and request out of a byte buffer, one transition per
`Proceed`, and finishes the handshake in `ConnectionSucceed` once the
application's connect or accept has completed.

The callbacks are arguments: each call of `Proceed` or `ConnectionSucceed`
takes its own `Callbacks`, so a run may answer every callback call
differently. Every callback call is recorded with its arguments and the
status it returned.

## Implementation notes

`Buffer` is modelled by the bytes it holds, oldest first, and `CopyOut` takes
from the front. All four callbacks are set, as `ProxyBridge` sets them
before its first `Proceed`; the branches for an unset callback are left out.
-/

namespace ControlPlane.Proxy

/-- `Socks5State::HandshakeState`. -/
inductive HandshakeState
  | kGreetingHeader
  | kGreetingMethods
  | kRequestHeader
  | kRequestAddrV4
  | kRequestAddrV6
  | kRequestBind
  | kWaitConnect
  | kWaitAccept
  | kResponse
  | kSuccess
  | kFail
  deriving DecidableEq, Repr

/-- `Socks5State::CallbackStatus`. -/
inductive CallbackStatus
  | kStatusOK
  | kStatusInProgress
  | kStatusFail
  deriving DecidableEq, Repr

/-- A `sockaddr_in` or `sockaddr_in6`: address and port in network byte order. -/
inductive SockAddr
  | v4 (addr port : List UInt8)
  | v6 (addr port : List UInt8)
  deriving DecidableEq, Repr

/-- The callbacks as one call of `Proceed` or `ConnectionSucceed` sees them. -/
structure Callbacks where
  responseCallback : List UInt8 → CallbackStatus
  connectCallback : SockAddr → CallbackStatus
  /-- Given `remote`, the status and the address written back. -/
  destAddressCallback : Bool → CallbackStatus × SockAddr
  /-- Given the requested port, the status and the port bound. -/
  bindCallback : UInt16 → CallbackStatus × UInt16

/-- One callback call, with its arguments and the status it returned. -/
inductive CallbackCall
  | response (data : List UInt8) (ret : CallbackStatus)
  | connect (addr : SockAddr) (ret : CallbackStatus)
  | destAddress (remote : Bool) (ret : CallbackStatus)
  | bind (port : UInt16) (ret : CallbackStatus)
  deriving DecidableEq, Repr

/-- `Socks5State`: the handshake state and `required_size_`, the bytes the
current state needs before it can move. -/
structure Socks5State where
  state : HandshakeState := .kGreetingHeader
  requiredSize : Nat := 2
  deriving DecidableEq, Repr

namespace Socks5State

def insufficientBuffer (s : Socks5State) (buffer : List UInt8) : Bool :=
  buffer.length < s.requiredSize

/-- `Socks5State::Failed`: outside `kGreetingHeader ..= kSuccess`. -/
def failed (s : Socks5State) : Bool := s.state == .kFail

end Socks5State

/-- What one `Proceed` leaves: the state, the buffer, the value it returns,
and the callbacks it called. -/
structure ProceedResult where
  state : Socks5State
  buffer : List UInt8
  proceeded : Bool
  calls : List CallbackCall

/-- A case of the switch that ends in `break`: `Proceed` returns
`state_ != kFail`. -/
def ProceedResult.afterBreak (s : Socks5State) (buffer : List UInt8)
    (calls : List CallbackCall) : ProceedResult :=
  ⟨s, buffer, s.state != .kFail, calls⟩

def kATYPv4 : UInt8 := 0x01

def kATYPv6 : UInt8 := 0x04

/-- `FillAddrPort`: ATYP, then the address and the port as they are stored. -/
def fillAddrPort : SockAddr → List UInt8
  | .v4 addr port => kATYPv4 :: (addr ++ port)
  | .v6 addr port => kATYPv6 :: (addr ++ port)

/-- `Socks5State::CreateResp`: the final reply and the dest-address call it
makes. A failed call gives the error reply, REP = 0x01 and a zero address. -/
def createResp (callbacks : Callbacks) (isBind : Bool) : List UInt8 × CallbackCall :=
  let addr := callbacks.destAddressCallback isBind
  if addr.1 = .kStatusOK then
    ([0x05, 0x00, 0x00] ++ fillAddrPort addr.2, .destAddress isBind addr.1)
  else
    ([0x05, 0x01, 0x00, 0x01, 0x00, 0x00, 0x00, 0x00, 0x00, 0x00], .destAddress isBind addr.1)

def kGreetingResp : List UInt8 := [0x05, 0x00]

/-- A port in network byte order, as `ntohs` reads it. -/
def ntohs (bytes : List UInt8) : UInt16 :=
  ((bytes.getD 0 0).toUInt16 <<< 8) ||| (bytes.getD 1 0).toUInt16

/-- A port in network byte order, as `htons` writes it. -/
def htons (port : UInt16) : List UInt8 := [(port >>> 8).toUInt8, port.toUInt8]

section Cases

variable (callbacks : Callbacks) (s : Socks5State) (buffer : List UInt8)

/-- The `kGreetingHeader` case: VER must be 5 and NMETHODS positive. -/
def greetingHeader : ProceedResult :=
  let greeting := buffer.take 2
  let buffer := buffer.drop 2
  if greeting.getD 0 0 != 0x05 || greeting.getD 1 0 == 0 then
    .afterBreak { s with state := .kFail } buffer []
  else .afterBreak ⟨.kGreetingMethods, (greeting.getD 1 0).toNat⟩ buffer []

/-- The `kGreetingMethods` case: "no auth" must be offered, and the reply is
sent at once. -/
def greetingMethods : ProceedResult :=
  let nMethods := s.requiredSize
  let methods := buffer.take nMethods
  let buffer := buffer.drop nMethods
  if 0x00 ∉ methods then .afterBreak { s with state := .kFail } buffer []
  else
    let ret := callbacks.responseCallback kGreetingResp
    if ret != .kStatusOK then
      .afterBreak { s with state := .kFail } buffer [.response kGreetingResp ret]
    else .afterBreak ⟨.kRequestHeader, 4⟩ buffer [.response kGreetingResp ret]

/-- The `kRequestHeader` case: VER, CMD, RSV and ATYP select how many address
bytes follow. A domain name (ATYP 3) is refused. -/
def requestHeader : ProceedResult :=
  let header := buffer.take 4
  let buffer := buffer.drop 4
  let fail := ProceedResult.afterBreak { s with state := .kFail } buffer []
  if header.getD 0 0 != 0x05 || header.getD 2 0 != 0x00 then fail
  else
    let atyp := header.getD 3 0
    if header.getD 1 0 == 0x01 then
      if atyp == 0x01 then .afterBreak ⟨.kRequestAddrV4, 6⟩ buffer []
      else if atyp == 0x03 then fail
      else if atyp == 0x04 then .afterBreak ⟨.kRequestAddrV6, 16 + 2⟩ buffer []
      else fail
    else if header.getD 1 0 == 0x02 then
      if atyp == 0x01 then .afterBreak ⟨.kRequestBind, 6⟩ buffer []
      else if atyp == 0x03 then fail
      else if atyp == 0x04 then .afterBreak ⟨.kRequestBind, 16 + 2⟩ buffer []
      else fail
    else fail

/-- The `kRequestAddrV4` and `kRequestAddrV6` cases, which differ only in the
address family and its length: copy the address and the port, and connect. -/
def requestAddr (family : List UInt8 → List UInt8 → SockAddr) (addrSize : Nat) :
    ProceedResult :=
  let addr := family (buffer.take addrSize) ((buffer.drop addrSize).take 2)
  let buffer := buffer.drop (addrSize + 2)
  -- no more data is required from the client, whatever the connect returns
  let s := { s with requiredSize := 0 }
  let ret := callbacks.connectCallback addr
  match ret with
  | .kStatusOK => .afterBreak { s with state := .kResponse } buffer [.connect addr ret]
  | .kStatusInProgress => ⟨{ s with state := .kWaitConnect }, buffer, false, [.connect addr ret]⟩
  | .kStatusFail => .afterBreak { s with state := .kFail } buffer [.connect addr ret]

/-- The `kRequestBind` case: the address is discarded, the port is bound, and
the bind reply carries the bound port. Only `kStatusFail` fails either call. -/
def requestBind : ProceedResult :=
  let buffer := buffer.drop (s.requiredSize - 2)
  let requested := ntohs (buffer.take 2)
  let buffer := buffer.drop 2
  let s := { s with requiredSize := 0 }
  let bound := callbacks.bindCallback requested
  if bound.1 == .kStatusFail then
    .afterBreak { s with state := .kFail } buffer [.bind requested bound.1]
  else
    let bindResp : List UInt8 := [0x05, 0x00, 0x00, 0x01, 0x00, 0x00, 0x00, 0x00] ++ htons bound.2
    let ret := callbacks.responseCallback bindResp
    if ret == .kStatusFail then
      .afterBreak { s with state := .kFail } buffer [.bind requested bound.1, .response bindResp ret]
    else ⟨{ s with state := .kWaitAccept }, buffer, false,
      [.bind requested bound.1, .response bindResp ret]⟩

/-- The `kResponse` case: send the final reply of a connect. -/
def response : ProceedResult :=
  let resp := createResp callbacks false
  let ret := callbacks.responseCallback resp.1
  if ret != .kStatusOK then
    .afterBreak { s with state := .kFail } buffer [resp.2, .response resp.1 ret]
  else .afterBreak ⟨.kSuccess, 1⟩ buffer [resp.2, .response resp.1 ret]

end Cases

/-- `Socks5State::Proceed`: one transition, once the buffer holds
`required_size_` bytes. -/
def proceed (callbacks : Callbacks) (s : Socks5State) (buffer : List UInt8) : ProceedResult :=
  if s.insufficientBuffer buffer then ⟨s, buffer, false, []⟩
  else
    match s.state with
    | .kGreetingHeader => greetingHeader s buffer
    | .kGreetingMethods => greetingMethods callbacks s buffer
    | .kRequestHeader => requestHeader s buffer
    | .kRequestAddrV4 => requestAddr callbacks s buffer .v4 4
    | .kRequestAddrV6 => requestAddr callbacks s buffer .v6 16
    | .kRequestBind => requestBind callbacks s buffer
    -- the application is expected to call `ConnectionSucceed`
    | .kWaitConnect | .kWaitAccept => ⟨s, buffer, false, []⟩
    | .kResponse => response callbacks s buffer
    | .kSuccess => ⟨s, buffer, false, []⟩
    | .kFail => ⟨{ s with requiredSize := 0 }, buffer, false, []⟩

/-- `Socks5State::ConnectionSucceed`: the final reply of a connect or a bind.
The source sets `kFail` when the reply is not sent and then sets `kSuccess`
unconditionally; both assignments are kept. -/
def connectionSucceed (callbacks : Callbacks) (s : Socks5State) :
    Socks5State × Bool × List CallbackCall :=
  match s.state with
  | .kWaitConnect | .kWaitAccept =>
      let resp := createResp callbacks (s.state == .kWaitAccept)
      let ret := callbacks.responseCallback resp.1
      let s := if ret != .kStatusOK then { s with state := .kFail } else s
      let s := { s with state := .kSuccess }
      (s, s.state == .kSuccess, [resp.2, .response resp.1 ret])
  | _ => ({ s with state := .kFail }, false, [])

/-! ## What a transition can do -/

/-- The states `Proceed` can move to from each state. -/
def successors : HandshakeState → List HandshakeState
  | .kGreetingHeader => [.kGreetingMethods, .kFail]
  | .kGreetingMethods => [.kRequestHeader, .kFail]
  | .kRequestHeader => [.kRequestAddrV4, .kRequestAddrV6, .kRequestBind, .kFail]
  | .kRequestAddrV4 | .kRequestAddrV6 => [.kResponse, .kWaitConnect, .kFail]
  | .kRequestBind => [.kWaitAccept, .kFail]
  | .kResponse => [.kSuccess, .kFail]
  | .kWaitConnect | .kWaitAccept | .kSuccess | .kFail => []

/-- How many more transitions can return true: every transition moves to a
state of a lower stage, and the states `Proceed` never leaves have stage 0. -/
def HandshakeState.stage : HandshakeState → Nat
  | .kGreetingHeader => 5
  | .kGreetingMethods => 4
  | .kRequestHeader => 3
  | .kRequestAddrV4 | .kRequestAddrV6 | .kRequestBind => 2
  | .kResponse => 1
  | .kWaitConnect | .kWaitAccept | .kSuccess | .kFail => 0

theorem stage_lt_of_mem_successors {x y : HandshakeState} (h : y ∈ successors x) :
    y.stage < x.stage := by
  have hall : ∀ y ∈ successors x, y.stage < x.stage := by cases x <;> decide
  exact hall y h

theorem successors_eq_nil_of_stage {x : HandshakeState} (h : x.stage = 0) : successors x = [] := by
  cases x <;> simp_all [HandshakeState.stage, successors]

/-- A transition out of `x`: to one of its successors, and when it returns
false, to a state that `Proceed` never leaves. -/
structure Moves (x : HandshakeState) (p : ProceedResult) : Prop where
  mem_successors : p.state.state ∈ successors x
  stage_of_stuck : p.proceeded = false → p.state.state.stage = 0

section Moves

variable (callbacks : Callbacks) (s : Socks5State) (buffer : List UInt8)

theorem afterBreak_moves {x : HandshakeState} {t : Socks5State} {buffer : List UInt8}
    {calls : List CallbackCall} (h : t.state ∈ successors x) :
    Moves x (.afterBreak t buffer calls) := by
  refine ⟨h, fun hp => ?_⟩
  simp only [ProceedResult.afterBreak, bne_eq_false_iff_eq] at hp
  simp [ProceedResult.afterBreak, hp, HandshakeState.stage]

theorem greetingHeader_moves : Moves .kGreetingHeader (greetingHeader s buffer) := by
  unfold greetingHeader
  dsimp only
  split <;> exact afterBreak_moves (by simp [successors])

theorem greetingMethods_moves : Moves .kGreetingMethods (greetingMethods callbacks s buffer) := by
  unfold greetingMethods
  dsimp only
  split_ifs <;> exact afterBreak_moves (by simp [successors])

theorem requestHeader_moves : Moves .kRequestHeader (requestHeader s buffer) := by
  unfold requestHeader
  dsimp only
  split_ifs <;> exact afterBreak_moves (by simp [successors])

theorem requestAddr_moves (family : List UInt8 → List UInt8 → SockAddr) (addrSize : Nat)
    {x : HandshakeState} (hx : successors x = [.kResponse, .kWaitConnect, .kFail]) :
    Moves x (requestAddr callbacks s buffer family addrSize) := by
  unfold requestAddr
  dsimp only
  split
  · exact afterBreak_moves (by simp [hx])
  · exact ⟨by simp [hx], fun _ => rfl⟩
  · exact afterBreak_moves (by simp [hx])

theorem requestBind_moves : Moves .kRequestBind (requestBind callbacks s buffer) := by
  unfold requestBind
  dsimp only
  split_ifs
  · exact afterBreak_moves (by simp [successors])
  · exact afterBreak_moves (by simp [successors])
  · exact ⟨by simp [successors], fun _ => rfl⟩

theorem response_moves : Moves .kResponse (response callbacks s buffer) := by
  unfold response
  dsimp only
  split <;> exact afterBreak_moves (by simp [successors])

/-- The kResponse case reaches kSuccess only when the reply was sent. -/
theorem response_eq_kSuccess (h : (response callbacks s buffer).state.state = .kSuccess) :
    ∃ resp call, (response callbacks s buffer).calls = [call, .response resp .kStatusOK] := by
  unfold response at h ⊢
  dsimp only at h ⊢
  by_cases hret : callbacks.responseCallback (createResp callbacks false).1 = .kStatusOK
  · exact ⟨(createResp callbacks false).1, (createResp callbacks false).2,
      by simp [hret, ProceedResult.afterBreak]⟩
  · simp [hret, ProceedResult.afterBreak] at h

end Moves

/-- Every call of `Proceed` waits for more bytes, sits in a state of stage 0,
or makes one of the transitions of `successors`. -/
theorem proceed_moves (callbacks : Callbacks) (s : Socks5State) (buffer : List UInt8) :
    s.insufficientBuffer buffer = true ∨ s.state.stage = 0 ∨
      Moves s.state (proceed callbacks s buffer) := by
  unfold proceed
  cases hins : s.insufficientBuffer buffer
  case true => exact .inl rfl
  case false =>
    refine .inr ?_
    simp only [Bool.false_eq_true, ite_false]
    cases hs : s.state
    case kGreetingHeader => exact .inr (greetingHeader_moves s buffer)
    case kGreetingMethods => exact .inr (greetingMethods_moves callbacks s buffer)
    case kRequestHeader => exact .inr (requestHeader_moves s buffer)
    case kRequestAddrV4 => exact .inr (requestAddr_moves callbacks s buffer _ _ rfl)
    case kRequestAddrV6 => exact .inr (requestAddr_moves callbacks s buffer _ _ rfl)
    case kRequestBind => exact .inr (requestBind_moves callbacks s buffer)
    case kResponse => exact .inr (response_moves callbacks s buffer)
    all_goals exact .inl rfl

section Proceed

variable {callbacks : Callbacks} {s : Socks5State} {buffer : List UInt8}

theorem proceed_of_insufficientBuffer (h : s.insufficientBuffer buffer = true) :
    proceed callbacks s buffer = ⟨s, buffer, false, []⟩ := by
  simp [proceed, h]

theorem proceed_of_kResponse (hs : s.state = .kResponse)
    (h : s.insufficientBuffer buffer = false) :
    proceed callbacks s buffer = response callbacks s buffer := by
  simp [proceed, h, hs]

/-- `Proceed` never leaves a state of stage 0 (kWaitConnect, kWaitAccept,
kSuccess, kFail), reads nothing there and calls nothing. -/
theorem proceed_of_stage_eq_zero (h : s.state.stage = 0) :
    (proceed callbacks s buffer).state.state = s.state ∧
      (proceed callbacks s buffer).buffer = buffer ∧
      (proceed callbacks s buffer).calls = [] ∧
      (proceed callbacks s buffer).proceeded = false := by
  unfold proceed
  split
  · simp
  · cases hs : s.state <;> simp_all [HandshakeState.stage]

/-- A call of `Proceed` that returns false either lacked bytes or ended in a
state of stage 0. -/
theorem proceed_stuck (h : (proceed callbacks s buffer).proceeded = false) :
    s.insufficientBuffer buffer = true ∨ (proceed callbacks s buffer).state.state.stage = 0 := by
  rcases proceed_moves callbacks s buffer with hins | hstage | hmoves
  · exact .inl hins
  · exact .inr ((proceed_of_stage_eq_zero hstage).1.symm ▸ hstage)
  · exact .inr (hmoves.stage_of_stuck h)

/-- A call of `Proceed` that returns true moves to a lower stage. -/
theorem proceed_stage_lt (h : (proceed callbacks s buffer).proceeded = true) :
    (proceed callbacks s buffer).state.state.stage < s.state.stage := by
  rcases proceed_moves callbacks s buffer with hins | hstage | hmoves
  · simp [proceed_of_insufficientBuffer hins] at h
  · simp [(proceed_of_stage_eq_zero hstage).2.2.2] at h
  · exact stage_lt_of_mem_successors hmoves.mem_successors

/-- `Proceed` reaches kSuccess only from kResponse, by a reply that was sent. -/
theorem proceed_eq_kSuccess (h : (proceed callbacks s buffer).state.state = .kSuccess) :
    s.state = .kSuccess ∨
      ∃ resp call, (proceed callbacks s buffer).calls = [call, .response resp .kStatusOK] := by
  rcases proceed_moves callbacks s buffer with hins | hstage | hmoves
  · rw [proceed_of_insufficientBuffer hins] at h
    exact .inl h
  · exact .inl ((proceed_of_stage_eq_zero hstage).1 ▸ h)
  · have hmem := hmoves.mem_successors
    rw [h] at hmem
    -- kResponse is the only state with kSuccess among its successors
    have hs : s.state = .kResponse := by
      cases hs : s.state <;> simp_all [successors]
    cases hins : s.insufficientBuffer buffer
    · rw [proceed_of_kResponse hs hins] at h ⊢
      exact .inr (response_eq_kSuccess callbacks s buffer h)
    · rw [proceed_of_insufficientBuffer hins] at h
      exact .inl h

end Proceed

/-- From a waiting state `ConnectionSucceed` ends in kSuccess and returns true,
whatever the reply send returned. -/
theorem connectionSucceed_of_waiting (callbacks : Callbacks) {s : Socks5State}
    (h : s.state = .kWaitConnect ∨ s.state = .kWaitAccept) :
    (connectionSucceed callbacks s).1.state = .kSuccess ∧
      (connectionSucceed callbacks s).2.1 = true := by
  rcases h with h | h <;> simp [connectionSucceed, h]

theorem connectionSucceed_of_not_waiting (callbacks : Callbacks) {s : Socks5State}
    (h : s.state ≠ .kWaitConnect ∧ s.state ≠ .kWaitAccept) :
    connectionSucceed callbacks s = ({ s with state := .kFail }, false, []) := by
  unfold connectionSucceed
  split
  · next hs => exact absurd hs h.1
  · next hs => exact absurd hs h.2
  · rfl

/-! ## Runs -/

/-- What can happen to a handshake: bytes arrive in the buffer, or the
application calls `Proceed` or `ConnectionSucceed`. -/
inductive Event
  | receive (bytes : List UInt8)
  | proceed (callbacks : Callbacks)
  | connectionSucceed (callbacks : Callbacks)

/-- A handshake in progress: the state machine, its buffer, and every callback
call so far, oldest first. -/
structure Session where
  socks5 : Socks5State := {}
  buffer : List UInt8 := []
  calls : List CallbackCall := []

namespace Session

def step (r : Session) : Event → Session
  | .receive bytes => { r with buffer := r.buffer ++ bytes }
  | .proceed callbacks =>
      let p := proceed callbacks r.socks5 r.buffer
      ⟨p.state, p.buffer, r.calls ++ p.calls⟩
  | .connectionSucceed callbacks =>
      let c := connectionSucceed callbacks r.socks5
      { r with socks5 := c.1, calls := r.calls ++ c.2.2 }

def run (r : Session) (events : List Event) : Session := events.foldl step r

@[simp] theorem run_nil (r : Session) : r.run [] = r := rfl

@[simp] theorem run_cons (r : Session) (e : Event) (events : List Event) :
    r.run (e :: events) = (r.step e).run events := rfl

theorem run_append (r : Session) (events events' : List Event) :
    r.run (events ++ events') = (r.run events).run events' :=
  List.foldl_append

/-- Neither entry point leaves kFail. -/
theorem step_failed {r : Session} (h : r.socks5.failed = true) (e : Event) :
    (r.step e).socks5.failed = true := by
  simp only [Socks5State.failed, beq_iff_eq] at h ⊢
  cases e with
  | receive bytes => exact h
  | proceed callbacks =>
      have hstage : r.socks5.state.stage = 0 := by rw [h]; rfl
      exact (proceed_of_stage_eq_zero hstage).1.trans h
  | connectionSucceed callbacks =>
      have hnot : r.socks5.state ≠ .kWaitConnect ∧ r.socks5.state ≠ .kWaitAccept := by
        simp [h]
      simp [step, connectionSucceed_of_not_waiting callbacks hnot]

/-- Once failed, a handshake stays failed for the rest of the run. -/
theorem run_failed {r : Session} (h : r.socks5.failed = true) (events : List Event) :
    (r.run events).socks5.failed = true := by
  induction events generalizing r with
  | nil => exact h
  | cons e events ih => exact ih (step_failed h e)

end Session

/-- A client offering "no auth" that asks to CONNECT to 10.0.0.1:80. -/
def connectRequest : List UInt8 :=
  [0x05, 0x01, 0x00] ++ [0x05, 0x01, 0x00, 0x01, 10, 0, 0, 1, 0, 80]

/-- Callbacks that accept every call, with the connect still in progress. -/
def pendingConnect : Callbacks where
  responseCallback _ := .kStatusOK
  connectCallback _ := .kStatusInProgress
  destAddressCallback _ := (.kStatusOK, .v4 [10, 0, 0, 2] [0x1F, 0x90])
  bindCallback port := (.kStatusOK, port)

/-- The same callbacks, with the client gone: no reply can be sent. -/
def failedSend : Callbacks := { pendingConnect with responseCallback := fun _ => .kStatusFail }

/-- The greeting and the request arrive, and four `Proceed` calls answer them
with a connect still in progress. -/
def pendingSession : Session :=
  ({} : Session).run [.receive connectRequest, .proceed pendingConnect,
    .proceed pendingConnect, .proceed pendingConnect, .proceed pendingConnect]

/-- The handshake reaches kWaitConnect, the client goes away, and
`ConnectionSucceed` reports success with kSuccess although its reply was not
sent. -/
theorem connectionSucceed_reports_failed_send :
    pendingSession.socks5.state = .kWaitConnect ∧
      connectionSucceed failedSend pendingSession.socks5 =
        (⟨.kSuccess, 0⟩, true, [.destAddress false .kStatusOK,
          .response [0x05, 0x00, 0x00, 0x01, 10, 0, 0, 2, 0x1F, 0x90] .kStatusFail]) := by
  decide

end ControlPlane.Proxy
