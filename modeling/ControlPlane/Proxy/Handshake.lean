import ControlPlane.Proxy.Socks5

/-!
# The handshake over chunks of input

`ProxyBridge::Socks5HandshakeHandler` (src/cc/aws/proxy/src/proxy_bridge.cc)
commits each chunk the client sends into the upstream buffer and calls
`Proceed` while the state is not kSuccess and `Proceed` returns true; it asks
for the next chunk only while `InsufficientBuffer` holds.

Each state reads at most `required_size_` bytes from the front of the buffer
(`Socks5State.Consistent`), so a transition made on a buffer is made the same
way on every longer buffer (`proceed_append`). The loop over a buffer then
splits at any point (`handshakeLoop_append`), and the handler's run over
chunks makes the transitions and callback calls of one run over their
concatenation (`socks5HandshakeHandler_obs`).

## Implementation notes

A loop result records the states entered by transitions that changed the
state. In kFail `Proceed` only clears `required_size_`, and a run over chunks
makes more of those calls than a run over one buffer, so results are compared
by `LoopResult.obs`, which leaves `required_size_` out.
-/

namespace ControlPlane.Proxy

/-- `p` with `rest` arrived behind its buffer. -/
def ProceedResult.appendBuffer (p : ProceedResult) (rest : List UInt8) : ProceedResult :=
  { p with buffer := p.buffer ++ rest }

@[simp] theorem ProceedResult.appendBuffer_state (p : ProceedResult) rest :
    (p.appendBuffer rest).state = p.state := rfl

@[simp] theorem ProceedResult.appendBuffer_buffer (p : ProceedResult) rest :
    (p.appendBuffer rest).buffer = p.buffer ++ rest := rfl

@[simp] theorem ProceedResult.appendBuffer_proceeded (p : ProceedResult) rest :
    (p.appendBuffer rest).proceeded = p.proceeded := rfl

@[simp] theorem ProceedResult.appendBuffer_calls (p : ProceedResult) rest :
    (p.appendBuffer rest).calls = p.calls := rfl

/-- What the handshake loop leaves: the state and the buffer, with the
callback calls made and the states entered, in order. -/
structure LoopResult where
  state : Socks5State
  buffer : List UInt8
  calls : List CallbackCall
  entered : List HandshakeState

namespace LoopResult

/-- `r` preceded by the calls and the transitions of earlier steps. -/
def after (r : LoopResult) (calls : List CallbackCall) (entered : List HandshakeState) :
    LoopResult :=
  { r with calls := calls ++ r.calls, entered := entered ++ r.entered }

def appendBuffer (r : LoopResult) (rest : List UInt8) : LoopResult :=
  { r with buffer := r.buffer ++ rest }

/-- What a run shows: the handshake state, the buffer, the callback calls and
the transitions. -/
def obs (r : LoopResult) :
    HandshakeState × List UInt8 × List CallbackCall × List HandshakeState :=
  (r.state.state, r.buffer, r.calls, r.entered)

@[simp] theorem after_state (r : LoopResult) calls entered :
    (r.after calls entered).state = r.state := rfl

@[simp] theorem after_buffer (r : LoopResult) calls entered :
    (r.after calls entered).buffer = r.buffer := rfl

@[simp] theorem after_calls (r : LoopResult) calls entered :
    (r.after calls entered).calls = calls ++ r.calls := rfl

@[simp] theorem after_entered (r : LoopResult) calls entered :
    (r.after calls entered).entered = entered ++ r.entered := rfl

theorem after_after (r : LoopResult) calls entered calls' entered' :
    (r.after calls entered).after calls' entered' =
      r.after (calls' ++ calls) (entered' ++ entered) := by
  simp [after]

theorem after_appendBuffer (r : LoopResult) calls entered rest :
    (r.after calls entered).appendBuffer rest = (r.appendBuffer rest).after calls entered := rfl

theorem obs_after {r r' : LoopResult} (h : r.obs = r'.obs) calls entered :
    (r.after calls entered).obs = (r'.after calls entered).obs := by
  simp only [obs, Prod.mk.injEq] at h ⊢
  obtain ⟨h1, h2, h3, h4⟩ := h
  simp [h1, h2, h3, h4]

theorem obs_appendBuffer {r r' : LoopResult} (h : r.obs = r'.obs) rest :
    (r.appendBuffer rest).obs = (r'.appendBuffer rest).obs := by
  simp only [obs, Prod.mk.injEq] at h ⊢
  obtain ⟨h1, h2, h3, h4⟩ := h
  simp [appendBuffer, h1, h2, h3, h4]

end LoopResult

/-- The state a transition entered, if it changed the state. -/
def entered (s : Socks5State) (p : ProceedResult) : List HandshakeState :=
  if p.state.state = s.state then [] else [p.state.state]

/-- The loop of `Socks5HandshakeHandler`, with at most `fuel` calls of
`Proceed`. -/
def proceedLoop (callbacks : Callbacks) : Nat → Socks5State → List UInt8 → LoopResult
  | 0, s, buffer => ⟨s, buffer, [], []⟩
  | fuel + 1, s, buffer =>
      if s.state = .kSuccess then ⟨s, buffer, [], []⟩
      else
        let p := proceed callbacks s buffer
        if p.proceeded then (proceedLoop callbacks fuel p.state p.buffer).after p.calls (entered s p)
        else ⟨p.state, p.buffer, p.calls, entered s p⟩

/-- The loop from `s`. Each call that returns true lowers the stage, so
`stage + 1` calls finish it (`proceedLoop_eq`). -/
def handshakeLoop (callbacks : Callbacks) (s : Socks5State) (buffer : List UInt8) : LoopResult :=
  proceedLoop callbacks (s.state.stage + 1) s buffer

/-- `ProxyBridge::Socks5HandshakeHandler`, once for each chunk the client
sends: commit it, run the loop, and read the next chunk only while the state
needs more bytes. -/
def socks5HandshakeHandler (callbacks : Callbacks) (s : Socks5State) (buffer : List UInt8) :
    List (List UInt8) → LoopResult
  | [] => ⟨s, buffer, [], []⟩
  | chunk :: chunks =>
      let r := handshakeLoop callbacks s (buffer ++ chunk)
      if r.state.insufficientBuffer r.buffer then
        (socks5HandshakeHandler callbacks r.state r.buffer chunks).after r.calls r.entered
      else r

/-! ## The loop -/

section Loop

variable {callbacks : Callbacks}

/-- Any fuel above the stage runs the loop to its end. -/
theorem proceedLoop_eq {n m : Nat} {s : Socks5State} (hn : s.state.stage < n)
    (hm : s.state.stage < m) (buffer : List UInt8) :
    proceedLoop callbacks n s buffer = proceedLoop callbacks m s buffer := by
  induction n generalizing m s buffer with
  | zero => omega
  | succ n ih =>
      obtain ⟨m, rfl⟩ : ∃ m', m = m' + 1 := ⟨m - 1, by omega⟩
      simp only [proceedLoop]
      split_ifs with hsucc hp
      · rfl
      · have hlt := proceed_stage_lt hp
        congr 1
        exact ih (by omega) (by omega) _
      · rfl

theorem handshakeLoop_eq (s : Socks5State) (buffer : List UInt8) :
    handshakeLoop callbacks s buffer =
      if s.state = .kSuccess then ⟨s, buffer, [], []⟩
      else
        let p := proceed callbacks s buffer
        if p.proceeded then (handshakeLoop callbacks p.state p.buffer).after p.calls (entered s p)
        else ⟨p.state, p.buffer, p.calls, entered s p⟩ := by
  conv_lhs => rw [handshakeLoop, proceedLoop]
  dsimp only
  split_ifs with hsucc hp
  · rfl
  · rw [handshakeLoop, proceedLoop_eq (proceed_stage_lt hp) (Nat.lt_succ_self _)]
  · rfl

theorem handshakeLoop_of_kSuccess {s : Socks5State} (h : s.state = .kSuccess)
    (buffer : List UInt8) : handshakeLoop callbacks s buffer = ⟨s, buffer, [], []⟩ := by
  rw [handshakeLoop_eq, if_pos h]

theorem handshakeLoop_of_proceeded {s : Socks5State} {buffer : List UInt8}
    (h : (proceed callbacks s buffer).proceeded = true) :
    handshakeLoop callbacks s buffer =
      (handshakeLoop callbacks (proceed callbacks s buffer).state
        (proceed callbacks s buffer).buffer).after (proceed callbacks s buffer).calls
        (entered s (proceed callbacks s buffer)) := by
  have hsucc : s.state ≠ .kSuccess := by
    have := proceed_stage_lt h
    intro hs
    simp [hs, HandshakeState.stage] at this
  rw [handshakeLoop_eq, if_neg hsucc]
  simp only [h, ite_true]

theorem handshakeLoop_of_stuck {s : Socks5State} {buffer : List UInt8}
    (hsucc : s.state ≠ .kSuccess) (h : (proceed callbacks s buffer).proceeded = false) :
    handshakeLoop callbacks s buffer =
      ⟨(proceed callbacks s buffer).state, (proceed callbacks s buffer).buffer,
        (proceed callbacks s buffer).calls, entered s (proceed callbacks s buffer)⟩ := by
  rw [handshakeLoop_eq, if_neg hsucc]
  simp only [h, Bool.false_eq_true, ite_false]

/-- A state that waits for bytes, or that `Proceed` never leaves. -/
def Quiescent (s : Socks5State) (buffer : List UInt8) : Prop :=
  s.insufficientBuffer buffer = true ∨ s.state.stage = 0

/-- In a quiescent state the loop does nothing that shows. -/
theorem handshakeLoop_of_quiescent {s : Socks5State} {buffer : List UInt8}
    (h : Quiescent s buffer) :
    (handshakeLoop callbacks s buffer).obs = (⟨s, buffer, [], []⟩ : LoopResult).obs := by
  by_cases hsucc : s.state = .kSuccess
  · rw [handshakeLoop_of_kSuccess hsucc]
  rcases h with hins | hstage
  · have hp : proceed callbacks s buffer = ⟨s, buffer, false, []⟩ :=
      proceed_of_insufficientBuffer hins
    rw [handshakeLoop_of_stuck hsucc (by rw [hp])]
    simp [hp, entered, LoopResult.obs]
  · obtain ⟨hst, hbuf, hcalls, hp⟩ :
        (proceed callbacks s buffer).state.state = s.state ∧
          (proceed callbacks s buffer).buffer = buffer ∧ (proceed callbacks s buffer).calls = [] ∧
          (proceed callbacks s buffer).proceeded = false :=
      proceed_of_stage_eq_zero hstage
    rw [handshakeLoop_of_stuck hsucc hp]
    simp [hst, hbuf, hcalls, entered, LoopResult.obs]

/-- The loop stops only in a quiescent state. -/
theorem handshakeLoop_quiescent (s : Socks5State) (buffer : List UInt8) :
    Quiescent (handshakeLoop callbacks s buffer).state (handshakeLoop callbacks s buffer).buffer := by
  induction hn : s.state.stage using Nat.strongRecOn generalizing s buffer with
  | ind n ih =>
      by_cases hsucc : s.state = .kSuccess
      · rw [handshakeLoop_of_kSuccess hsucc]
        exact .inr (by simp [hsucc, HandshakeState.stage])
      cases hp : (proceed callbacks s buffer).proceeded
      case true =>
        rw [handshakeLoop_of_proceeded hp]
        exact ih _ (hn ▸ proceed_stage_lt hp) _ _ rfl
      case false =>
        rw [handshakeLoop_of_stuck hsucc hp]
        rcases proceed_stuck hp with hins | hstage
        · left
          simpa [proceed_of_insufficientBuffer hins] using hins
        · exact .inr hstage

end Loop

/-! ## Reading from the front of the buffer -/

/-- The bytes the case of each state reads from the buffer. -/
def readSize : HandshakeState → Nat → Nat
  | .kGreetingHeader, _ => 2
  | .kGreetingMethods, requiredSize => requiredSize
  | .kRequestHeader, _ => 4
  | .kRequestAddrV4, _ => 4 + 2
  | .kRequestAddrV6, _ => 16 + 2
  | .kRequestBind, requiredSize => requiredSize - 2 + 2
  | .kWaitConnect, _ | .kWaitAccept, _ | .kResponse, _ | .kSuccess, _ | .kFail, _ => 0

/-- `required_size_` covers every byte the current state reads. -/
def Socks5State.Consistent (s : Socks5State) : Prop :=
  readSize s.state s.requiredSize ≤ s.requiredSize

instance : DecidablePred Socks5State.Consistent :=
  fun s => inferInstanceAs (Decidable (readSize s.state s.requiredSize ≤ s.requiredSize))

theorem consistent_default : ({} : Socks5State).Consistent := by decide

section Cases

variable (callbacks : Callbacks) (s : Socks5State) (buffer : List UInt8)

/-- Every case sets `required_size_` to what the state it enters reads. -/
theorem greetingHeader_consistent : (greetingHeader s buffer).state.Consistent := by
  unfold greetingHeader
  dsimp only
  split <;> simp [Socks5State.Consistent, ProceedResult.afterBreak, readSize]

theorem greetingMethods_consistent : (greetingMethods callbacks s buffer).state.Consistent := by
  unfold greetingMethods
  dsimp only
  split_ifs <;> simp [Socks5State.Consistent, ProceedResult.afterBreak, readSize]

theorem requestHeader_consistent : (requestHeader s buffer).state.Consistent := by
  unfold requestHeader
  dsimp only
  split_ifs <;> simp [Socks5State.Consistent, ProceedResult.afterBreak, readSize]

theorem requestAddr_consistent (family : List UInt8 → List UInt8 → SockAddr) (addrSize : Nat) :
    (requestAddr callbacks s buffer family addrSize).state.Consistent := by
  unfold requestAddr
  dsimp only
  split <;> simp [Socks5State.Consistent, ProceedResult.afterBreak, readSize]

theorem requestBind_consistent : (requestBind callbacks s buffer).state.Consistent := by
  unfold requestBind
  dsimp only
  split_ifs <;> simp [Socks5State.Consistent, ProceedResult.afterBreak, readSize]

theorem response_consistent : (response callbacks s buffer).state.Consistent := by
  unfold response
  dsimp only
  split <;> simp [Socks5State.Consistent, ProceedResult.afterBreak, readSize]

/-- The cases read only the bytes in front: with `rest` behind them, each
makes the same move and leaves `rest` behind. -/
theorem greetingHeader_append (h : 2 ≤ buffer.length) (rest : List UInt8) :
    greetingHeader s (buffer ++ rest) = (greetingHeader s buffer).appendBuffer rest := by
  simp only [greetingHeader, List.take_append_of_le_length h, List.drop_append_of_le_length h]
  split <;> rfl

theorem greetingMethods_append (h : s.requiredSize ≤ buffer.length) (rest : List UInt8) :
    greetingMethods callbacks s (buffer ++ rest) =
      (greetingMethods callbacks s buffer).appendBuffer rest := by
  simp only [greetingMethods, List.take_append_of_le_length h, List.drop_append_of_le_length h]
  split_ifs <;> rfl

theorem requestHeader_append (h : 4 ≤ buffer.length) (rest : List UInt8) :
    requestHeader s (buffer ++ rest) = (requestHeader s buffer).appendBuffer rest := by
  simp only [requestHeader, List.take_append_of_le_length h, List.drop_append_of_le_length h]
  split_ifs <;> rfl

theorem requestAddr_append (family : List UInt8 → List UInt8 → SockAddr) {addrSize : Nat}
    (h : addrSize + 2 ≤ buffer.length) (rest : List UInt8) :
    requestAddr callbacks s (buffer ++ rest) family addrSize =
      (requestAddr callbacks s buffer family addrSize).appendBuffer rest := by
  have haddr : addrSize ≤ buffer.length := by omega
  have hport : 2 ≤ (buffer.drop addrSize).length := by simp; omega
  simp only [requestAddr, List.take_append_of_le_length haddr, List.drop_append_of_le_length haddr,
    List.take_append_of_le_length hport, List.drop_append_of_le_length h]
  split <;> rfl

theorem requestBind_append (h : s.requiredSize - 2 + 2 ≤ buffer.length) (rest : List UInt8) :
    requestBind callbacks s (buffer ++ rest) = (requestBind callbacks s buffer).appendBuffer rest := by
  have haddr : s.requiredSize - 2 ≤ buffer.length := by omega
  have hport : 2 ≤ (buffer.drop (s.requiredSize - 2)).length := by simp; omega
  simp only [requestBind, List.drop_append_of_le_length haddr, List.take_append_of_le_length hport,
    List.drop_append_of_le_length hport]
  split_ifs <;> rfl

theorem response_append (rest : List UInt8) :
    response callbacks s (buffer ++ rest) = (response callbacks s buffer).appendBuffer rest := by
  simp only [response]
  split <;> rfl

end Cases

section Proceed

variable {callbacks : Callbacks} {s : Socks5State} {buffer : List UInt8}

theorem proceed_consistent (h : s.Consistent) : (proceed callbacks s buffer).state.Consistent := by
  unfold proceed
  split
  · exact h
  · cases hs : s.state
    case kGreetingHeader => exact greetingHeader_consistent s buffer
    case kGreetingMethods => exact greetingMethods_consistent callbacks s buffer
    case kRequestHeader => exact requestHeader_consistent s buffer
    case kRequestAddrV4 => exact requestAddr_consistent callbacks s buffer _ _
    case kRequestAddrV6 => exact requestAddr_consistent callbacks s buffer _ _
    case kRequestBind => exact requestBind_consistent callbacks s buffer
    case kResponse => exact response_consistent callbacks s buffer
    all_goals simp [Socks5State.Consistent, readSize, hs]

/-- A transition made on a buffer is made the same way with more bytes behind
it. -/
theorem proceed_append (hc : s.Consistent) (h : s.insufficientBuffer buffer = false)
    (rest : List UInt8) :
    proceed callbacks s (buffer ++ rest) = (proceed callbacks s buffer).appendBuffer rest := by
  have hlen : s.requiredSize ≤ buffer.length := by
    simpa [Socks5State.insufficientBuffer] using h
  have h' : s.insufficientBuffer (buffer ++ rest) = false := by
    simp [Socks5State.insufficientBuffer]
    omega
  -- what the state reads is in `buffer`
  have hread : readSize s.state s.requiredSize ≤ buffer.length :=
    Nat.le_trans hc hlen
  simp only [proceed, h, h', Bool.false_eq_true, ite_false]
  cases hs : s.state <;> rw [hs] at hread
  case kGreetingHeader => exact greetingHeader_append s buffer hread rest
  case kGreetingMethods => exact greetingMethods_append callbacks s buffer hread rest
  case kRequestHeader => exact requestHeader_append s buffer hread rest
  case kRequestAddrV4 => exact requestAddr_append callbacks s buffer _ hread rest
  case kRequestAddrV6 => exact requestAddr_append callbacks s buffer _ hread rest
  case kRequestBind => exact requestBind_append callbacks s buffer hread rest
  case kResponse => exact response_append callbacks s buffer rest
  all_goals rfl

end Proceed

/-! ## Splitting the input -/

section Split

variable {callbacks : Callbacks}

theorem handshakeLoop_consistent {s : Socks5State} (hc : s.Consistent) (buffer : List UInt8) :
    (handshakeLoop callbacks s buffer).state.Consistent := by
  induction hn : s.state.stage using Nat.strongRecOn generalizing s buffer with
  | ind n ih =>
      by_cases hsucc : s.state = .kSuccess
      · rw [handshakeLoop_of_kSuccess hsucc]
        exact hc
      cases hp : (proceed callbacks s buffer).proceeded
      case true =>
        rw [handshakeLoop_of_proceeded hp]
        exact ih _ (hn ▸ proceed_stage_lt hp) (proceed_consistent hc) _ rfl
      case false =>
        rw [handshakeLoop_of_stuck hsucc hp]
        exact proceed_consistent hc

/-- The loop over a buffer with `rest` behind it is the loop over the buffer,
then the loop from where it stopped over what it left and `rest`. -/
theorem handshakeLoop_append (callbacks : Callbacks) {s : Socks5State} (hc : s.Consistent)
    (buffer rest : List UInt8) :
    (handshakeLoop callbacks s (buffer ++ rest)).obs =
      ((handshakeLoop callbacks (handshakeLoop callbacks s buffer).state
        ((handshakeLoop callbacks s buffer).buffer ++ rest)).after
        (handshakeLoop callbacks s buffer).calls (handshakeLoop callbacks s buffer).entered).obs := by
  induction hn : s.state.stage using Nat.strongRecOn generalizing s buffer with
  | ind n ih =>
      by_cases hsucc : s.state = .kSuccess
      · simp [handshakeLoop_of_kSuccess hsucc, LoopResult.after]
      cases hins : s.insufficientBuffer buffer
      case true =>
        -- nothing happens before `rest` arrives
        have hp : proceed callbacks s buffer = ⟨s, buffer, false, []⟩ :=
          proceed_of_insufficientBuffer hins
        have hloop : handshakeLoop callbacks s buffer = ⟨s, buffer, [], []⟩ := by
          rw [handshakeLoop_of_stuck hsucc (by rw [hp])]
          simp [hp, entered]
        simp [hloop, LoopResult.after]
      case false =>
        have happ : proceed callbacks s (buffer ++ rest) =
            (proceed callbacks s buffer).appendBuffer rest := proceed_append hc hins rest
        cases hp : (proceed callbacks s buffer).proceeded
        case true =>
          have hp' : (proceed callbacks s (buffer ++ rest)).proceeded = true := by
            rw [happ]
            exact hp
          rw [handshakeLoop_of_proceeded hp', handshakeLoop_of_proceeded hp, happ]
          have hrest := ih _ (hn ▸ proceed_stage_lt hp) (proceed_consistent hc)
            (proceed callbacks s buffer).buffer rfl
          simp only [ProceedResult.appendBuffer_state, ProceedResult.appendBuffer_buffer,
            ProceedResult.appendBuffer_calls, LoopResult.after_state, LoopResult.after_buffer,
            LoopResult.after_calls, LoopResult.after_entered]
          rw [show entered s ((proceed callbacks s buffer).appendBuffer rest) =
            entered s (proceed callbacks s buffer) from rfl]
          rw [LoopResult.obs_after hrest, LoopResult.after_after]
        case false =>
          have hp' : (proceed callbacks s (buffer ++ rest)).proceeded = false := by
            rw [happ]
            exact hp
          rw [handshakeLoop_of_stuck hsucc hp', handshakeLoop_of_stuck hsucc hp, happ]
          simp only [ProceedResult.appendBuffer_state, ProceedResult.appendBuffer_buffer,
            ProceedResult.appendBuffer_calls]
          -- the call that returned false entered a state `Proceed` never leaves
          have hstage : (proceed callbacks s buffer).state.state.stage = 0 :=
            (proceed_stuck hp).resolve_left (by simp [hins])
          rw [LoopResult.obs_after (handshakeLoop_of_quiescent (.inr hstage)),
            show entered s ((proceed callbacks s buffer).appendBuffer rest) =
              entered s (proceed callbacks s buffer) from rfl]
          simp [LoopResult.after, LoopResult.obs]

/-- The handler over chunks, followed by the chunks it never read, shows what
one loop over the whole input shows. It stops reading early only in a state
`Proceed` never leaves. -/
theorem socks5HandshakeHandler_obs (callbacks : Callbacks) {s : Socks5State}
    {buffer : List UInt8} (hc : s.Consistent) (hq : Quiescent s buffer)
    (chunks : List (List UInt8)) :
    ∃ k, ((socks5HandshakeHandler callbacks s buffer chunks).appendBuffer
          (chunks.drop k).flatten).obs =
        (handshakeLoop callbacks s (buffer ++ chunks.flatten)).obs ∧
      (k < chunks.length →
        (socks5HandshakeHandler callbacks s buffer chunks).state.state.stage = 0) := by
  induction chunks generalizing s buffer with
  | nil =>
      refine ⟨0, ?_, fun h => absurd h (Nat.not_lt_zero _)⟩
      rw [List.flatten_nil, List.append_nil, handshakeLoop_of_quiescent hq]
      simp [socks5HandshakeHandler, LoopResult.appendBuffer]
  | cons chunk chunks ih =>
      -- the one-buffer run splits where the first chunk ends
      rw [List.flatten_cons, ← List.append_assoc, handshakeLoop_append callbacks hc (buffer ++ chunk)]
      by_cases hins : (handshakeLoop callbacks s (buffer ++ chunk)).state.insufficientBuffer
          (handshakeLoop callbacks s (buffer ++ chunk)).buffer = true
      · -- the handler reads the next chunk
        obtain ⟨k, hk, hstage⟩ := ih (handshakeLoop_consistent hc _) (.inl hins)
        refine ⟨k + 1, ?_, fun hlt => ?_⟩
        · simp only [socks5HandshakeHandler, hins, ite_true, List.drop_succ_cons,
            LoopResult.after_appendBuffer]
          exact LoopResult.obs_after hk _ _
        · simp only [socks5HandshakeHandler, hins, ite_true, LoopResult.after_state]
          exact hstage (by simpa using hlt)
      · -- the handler stops reading, in a state `Proceed` never leaves
        have hstage : (handshakeLoop callbacks s (buffer ++ chunk)).state.state.stage = 0 :=
          (handshakeLoop_quiescent s (buffer ++ chunk)).resolve_left hins
        refine ⟨1, ?_, fun _ => ?_⟩
        · simp only [socks5HandshakeHandler, hins, Bool.false_eq_true, ite_false, List.drop_succ_cons,
            List.drop_zero]
          rw [LoopResult.obs_after (handshakeLoop_of_quiescent (.inr hstage))]
          simp [LoopResult.after, LoopResult.appendBuffer, LoopResult.obs]
        · simp only [socks5HandshakeHandler, hins, Bool.false_eq_true, ite_false]
          exact hstage

end Split

/-! ## What the handshake consumes -/

/-- An RFC 1928 greeting: VER 5, NMETHODS, and that many methods. -/
structure Greeting where
  methods : List UInt8
  length_pos : 0 < methods.length
  length_lt : methods.length < 256

def Greeting.bytes (g : Greeting) : List UInt8 := [0x05, g.methods.length.toUInt8] ++ g.methods

/-- Four address bytes for IPv4, sixteen for IPv6, and two port bytes. -/
def SockAddr.WellSized : SockAddr → Prop
  | .v4 addr port => addr.length = 4 ∧ port.length = 2
  | .v6 addr port => addr.length = 16 ∧ port.length = 2

/-- An RFC 1928 request: VER 5, CMD, RSV 0, then ATYP, DST.ADDR and DST.PORT
as `FillAddrPort` writes them. -/
structure Request where
  cmd : UInt8
  dst : SockAddr
  wellSized : dst.WellSized

def Request.bytes (q : Request) : List UInt8 := [0x05, q.cmd, 0x00] ++ fillAddrPort q.dst

/-- The loop ended in a state `Proceed` never leaves and, unless it failed,
read the whole buffer. -/
def Consumed (r : LoopResult) : Prop :=
  r.state.state.stage = 0 ∧ (r.state.state ≠ .kFail → r.buffer = [])

section Consumed

variable {callbacks : Callbacks} {s : Socks5State} {buffer : List UInt8}

/-- A case that ends in `break` stops the loop in kFail, or goes on from the
state it entered. -/
theorem consumed_of_afterBreak {t : Socks5State} {rest : List UInt8} {calls : List CallbackCall}
    (h : proceed callbacks s buffer = .afterBreak t rest calls) (hsucc : s.state ≠ .kSuccess)
    (hnext : t.state ≠ .kFail → Consumed (handshakeLoop callbacks t rest)) :
    Consumed (handshakeLoop callbacks s buffer) := by
  by_cases hfail : t.state = .kFail
  · have hp : (proceed callbacks s buffer).proceeded = false := by
      simp [h, ProceedResult.afterBreak, hfail]
    rw [handshakeLoop_of_stuck hsucc hp, h]
    exact ⟨by simp [ProceedResult.afterBreak, hfail, HandshakeState.stage],
      fun hne => absurd hfail hne⟩
  · have hp : (proceed callbacks s buffer).proceeded = true := by
      simp [h, ProceedResult.afterBreak, hfail]
    rw [handshakeLoop_of_proceeded hp, h]
    exact hnext hfail

/-- A case that waits for the application with nothing left to read. -/
theorem consumed_of_waiting {t : Socks5State} {calls : List CallbackCall}
    (h : proceed callbacks s buffer = ⟨t, [], false, calls⟩) (hsucc : s.state ≠ .kSuccess)
    (ht : t.state.stage = 0) : Consumed (handshakeLoop callbacks s buffer) := by
  rw [handshakeLoop_of_stuck hsucc (by rw [h]), h]
  exact ⟨ht, fun _ => rfl⟩

/-- kResponse sends the final reply and reads nothing. -/
theorem consumed_response : Consumed (handshakeLoop callbacks ⟨.kResponse, 0⟩ []) := by
  have hp : proceed callbacks ⟨.kResponse, 0⟩ [] = response callbacks ⟨.kResponse, 0⟩ [] :=
    proceed_of_kResponse rfl rfl
  unfold response at hp
  dsimp only at hp
  split at hp
  · exact consumed_of_afterBreak hp (by decide) (fun hne => absurd rfl hne)
  · refine consumed_of_afterBreak hp (by decide) (fun _ => ?_)
    rw [handshakeLoop_of_kSuccess rfl]
    exact ⟨rfl, fun _ => rfl⟩

/-- The address and port of a connect are the last bytes it reads. -/
theorem consumed_requestAddr (family : List UInt8 → List UInt8 → SockAddr) (addrSize : Nat)
    (h : proceed callbacks s buffer = requestAddr callbacks s buffer family addrSize)
    (hsucc : s.state ≠ .kSuccess) (hlen : buffer.length = addrSize + 2) :
    Consumed (handshakeLoop callbacks s buffer) := by
  have hdrop : buffer.drop (addrSize + 2) = [] := List.drop_eq_nil_of_le (by omega)
  unfold requestAddr at h
  dsimp only at h
  rw [hdrop] at h
  split at h
  · exact consumed_of_afterBreak h hsucc (fun _ => consumed_response)
  · exact consumed_of_waiting h hsucc rfl
  · exact consumed_of_afterBreak h hsucc (fun hne => absurd rfl hne)

/-- The address and port of a bind are the last bytes it reads. -/
theorem consumed_requestBind (h : proceed callbacks s buffer = requestBind callbacks s buffer)
    (hsucc : s.state ≠ .kSuccess) (hlen : buffer.length = s.requiredSize - 2 + 2) :
    Consumed (handshakeLoop callbacks s buffer) := by
  have hdrop : (buffer.drop (s.requiredSize - 2)).drop 2 = [] := by
    rw [List.drop_drop]
    exact List.drop_eq_nil_of_le (by omega)
  unfold requestBind at h
  dsimp only at h
  rw [hdrop] at h
  split_ifs at h
  · exact consumed_of_afterBreak h hsucc (fun hne => absurd rfl hne)
  · exact consumed_of_afterBreak h hsucc (fun hne => absurd rfl hne)
  · exact consumed_of_waiting h hsucc rfl

theorem consumed_requestAddrV4 (hlen : buffer.length = 4 + 2) :
    Consumed (handshakeLoop callbacks ⟨.kRequestAddrV4, 4 + 2⟩ buffer) :=
  consumed_requestAddr .v4 4 (by simp [proceed, Socks5State.insufficientBuffer, hlen]) (by decide)
    hlen

theorem consumed_requestAddrV6 (hlen : buffer.length = 16 + 2) :
    Consumed (handshakeLoop callbacks ⟨.kRequestAddrV6, 16 + 2⟩ buffer) :=
  consumed_requestAddr .v6 16 (by simp [proceed, Socks5State.insufficientBuffer, hlen]) (by decide)
    hlen

theorem consumed_requestBind' {requiredSize : Nat} (hsize : 2 ≤ requiredSize)
    (hlen : buffer.length = requiredSize) :
    Consumed (handshakeLoop callbacks ⟨.kRequestBind, requiredSize⟩ buffer) :=
  consumed_requestBind (by simp [proceed, Socks5State.insufficientBuffer, hlen]) (by simp)
    (by simp only [hlen]; omega)

/-- A request is read to its end, unless it is refused. -/
theorem consumed_request (q : Request) :
    Consumed (handshakeLoop callbacks ⟨.kRequestHeader, 4⟩ q.bytes) := by
  obtain ⟨cmd, dst, hdst⟩ := q
  have hp : proceed callbacks ⟨.kRequestHeader, 4⟩ ([0x05, cmd, 0x00] ++ fillAddrPort dst) =
      requestHeader ⟨.kRequestHeader, 4⟩ ([0x05, cmd, 0x00] ++ fillAddrPort dst) := by
    cases dst <;> simp_all [proceed, Socks5State.insufficientBuffer, fillAddrPort, SockAddr.WellSized]
  cases dst with
  | v4 addr port =>
      obtain ⟨haddr, hport⟩ := hdst
      simp [requestHeader, fillAddrPort, kATYPv4] at hp
      split_ifs at hp
      · exact consumed_of_afterBreak hp (by decide)
          (fun _ => consumed_requestAddrV4 (by simp [haddr, hport]))
      · exact consumed_of_afterBreak hp (by decide)
          (fun _ => consumed_requestBind' (by decide) (by simp [haddr, hport]))
      · exact consumed_of_afterBreak hp (by decide) (fun hne => absurd rfl hne)
  | v6 addr port =>
      obtain ⟨haddr, hport⟩ := hdst
      simp [requestHeader, fillAddrPort, kATYPv6] at hp
      split_ifs at hp
      · exact consumed_of_afterBreak hp (by decide)
          (fun _ => consumed_requestAddrV6 (by simp [haddr, hport]))
      · exact consumed_of_afterBreak hp (by decide)
          (fun _ => consumed_requestBind' (by decide) (by simp [haddr, hport]))
      · exact consumed_of_afterBreak hp (by decide) (fun hne => absurd rfl hne)

/-- The methods are read to their end, and then the request. -/
theorem consumed_greetingMethods (methods : List UInt8) (q : Request) :
    Consumed (handshakeLoop callbacks ⟨.kGreetingMethods, methods.length⟩ (methods ++ q.bytes)) := by
  have hins : (⟨.kGreetingMethods, methods.length⟩ : Socks5State).insufficientBuffer
      (methods ++ q.bytes) = false := by
    simp [Socks5State.insufficientBuffer]
  have hp : proceed callbacks ⟨.kGreetingMethods, methods.length⟩ (methods ++ q.bytes) =
      greetingMethods callbacks ⟨.kGreetingMethods, methods.length⟩ (methods ++ q.bytes) := by
    simp [proceed, hins]
  simp only [greetingMethods, List.take_left', List.drop_left'] at hp
  -- the refusals stop in kFail; the reply sent goes on to the request
  split_ifs at hp <;> first
    | exact consumed_of_afterBreak hp (by simp) (fun hne => absurd rfl hne)
    | exact consumed_of_afterBreak hp (by simp) (fun _ => consumed_request q)

/-- A greeting and a request are read to the end of the request, unless the
handshake fails. -/
theorem consumed_greeting (g : Greeting) (q : Request) :
    Consumed (handshakeLoop callbacks {} (g.bytes ++ q.bytes)) := by
  have hlt := g.length_lt
  have hpos := g.length_pos
  have hn : g.methods.length.toUInt8.toNat = g.methods.length := by
    simp [Nat.mod_eq_of_lt hlt]
  have hn0 : (g.methods.length.toUInt8 == 0) = false := by
    simp [UInt8.ext_iff]
    omega
  have hins : ({} : Socks5State).insufficientBuffer (g.bytes ++ q.bytes) = false := by
    simp [Socks5State.insufficientBuffer, Greeting.bytes]
  have hp : proceed callbacks {} (g.bytes ++ q.bytes) = greetingHeader {} (g.bytes ++ q.bytes) := by
    simp [proceed, hins]
  simp [greetingHeader, Greeting.bytes, hn0, hn] at hp
  exact consumed_of_afterBreak hp (by decide) (fun _ => consumed_greetingMethods g.methods q)

/-- Over one buffer, a greeting and a request followed by `rest` leave `rest`
in the buffer, unless the handshake fails, and never read into it. -/
theorem handshakeLoop_greeting_request (g : Greeting) (q : Request) (rest : List UInt8) :
    rest <:+ (handshakeLoop callbacks {} (g.bytes ++ q.bytes ++ rest)).buffer ∧
      ((handshakeLoop callbacks {} (g.bytes ++ q.bytes ++ rest)).state.state = .kFail ∨
        (handshakeLoop callbacks {} (g.bytes ++ q.bytes ++ rest)).buffer = rest) := by
  have hc : Consumed (handshakeLoop callbacks {} (g.bytes ++ q.bytes)) := consumed_greeting g q
  -- after the request nothing is left to do, so `rest` stays where it arrived
  have hsplit := handshakeLoop_append callbacks consistent_default (g.bytes ++ q.bytes) rest
  rw [LoopResult.obs_after (handshakeLoop_of_quiescent (.inr hc.1))] at hsplit
  simp only [LoopResult.obs, LoopResult.after, Prod.mk.injEq] at hsplit
  obtain ⟨hstate, hbuffer, -, -⟩ := hsplit
  rw [hstate, hbuffer]
  refine ⟨List.suffix_append _ _, ?_⟩
  by_cases hfail : (handshakeLoop callbacks {} (g.bytes ++ q.bytes)).state.state = .kFail
  · exact .inl hfail
  · rw [hc.2 hfail]
    exact .inr rfl

end Consumed

/-! ## The handler over chunks -/

theorem stage_eq_zero_iff {x : HandshakeState} :
    x.stage = 0 ↔ x ∈ [.kWaitConnect, .kWaitAccept, .kSuccess, .kFail] := by
  cases x <;> simp [HandshakeState.stage]

theorem socks5HandshakeHandler_singleton (callbacks : Callbacks) (s : Socks5State)
    (buffer chunk : List UInt8) :
    (socks5HandshakeHandler callbacks s buffer [chunk]).obs =
      (handshakeLoop callbacks s (buffer ++ chunk)).obs := by
  simp only [socks5HandshakeHandler]
  split
  · simp [LoopResult.after, LoopResult.obs]
  · rfl

/-- However the input is split into chunks, the handler makes the transitions
and the callback calls of one chunk holding all of it. Its buffer followed by
the chunks it never read is the buffer of one chunk, and it leaves chunks
unread only in a state `Proceed` never leaves. Over one chunk holding a
greeting, a request and `rest`, `rest` is what is left, unless the handshake
fails, and it is never read into. -/
theorem socks5HandshakeHandler_reads_like_one_chunk (callbacks : Callbacks)
    (chunks : List (List UInt8)) :
    ((socks5HandshakeHandler callbacks {} [] chunks).state.state =
        (socks5HandshakeHandler callbacks {} [] [chunks.flatten]).state.state ∧
      (socks5HandshakeHandler callbacks {} [] chunks).entered =
        (socks5HandshakeHandler callbacks {} [] [chunks.flatten]).entered ∧
      (socks5HandshakeHandler callbacks {} [] chunks).calls =
        (socks5HandshakeHandler callbacks {} [] [chunks.flatten]).calls ∧
      ∃ k, (socks5HandshakeHandler callbacks {} [] chunks).buffer ++ (chunks.drop k).flatten =
          (socks5HandshakeHandler callbacks {} [] [chunks.flatten]).buffer ∧
        (chunks.length ≤ k ∨ (socks5HandshakeHandler callbacks {} [] chunks).state.state ∈
          [.kWaitConnect, .kWaitAccept, .kSuccess, .kFail])) ∧
    ∀ (g : Greeting) (q : Request) (rest : List UInt8),
      rest <:+ (socks5HandshakeHandler callbacks {} [] [g.bytes ++ q.bytes ++ rest]).buffer ∧
        ((socks5HandshakeHandler callbacks {} [] [g.bytes ++ q.bytes ++ rest]).state.state = .kFail ∨
          (socks5HandshakeHandler callbacks {} [] [g.bytes ++ q.bytes ++ rest]).buffer = rest) := by
  refine ⟨?_, fun g q rest => ?_⟩
  · obtain ⟨k, hk, hstuck⟩ := socks5HandshakeHandler_obs callbacks consistent_default
      (show Quiescent {} [] from .inl rfl) chunks
    have hone := socks5HandshakeHandler_singleton callbacks {} [] chunks.flatten
    rw [← hone] at hk
    simp only [LoopResult.obs, LoopResult.appendBuffer, Prod.mk.injEq] at hk
    obtain ⟨hstate, hbuffer, hcalls, hentered⟩ := hk
    refine ⟨hstate, hentered, hcalls, k, hbuffer, ?_⟩
    by_cases hlt : k < chunks.length
    · exact .inr (stage_eq_zero_iff.mp (hstuck hlt))
    · exact .inl (by omega)
  · have hone := socks5HandshakeHandler_singleton callbacks {} [] (g.bytes ++ q.bytes ++ rest)
    simp only [LoopResult.obs, List.nil_append, Prod.mk.injEq] at hone
    rw [hone.1, hone.2.1]
    exact handshakeLoop_greeting_request g q rest

/-- Callbacks that accept every call. -/
def acceptingCallbacks : Callbacks where
  responseCallback _ := .kStatusOK
  connectCallback _ := .kStatusOK
  destAddressCallback _ := (.kStatusOK, .v4 [10, 0, 0, 2] [0x1F, 0x90])
  bindCallback port := (.kStatusOK, port)

/-- A connect handshake followed by two more chunks: once in kSuccess the
handler reads the first of them and no more. -/
theorem socks5HandshakeHandler_leaves_chunks_unread :
    (socks5HandshakeHandler acceptingCallbacks {} [] [connectRequest, [7], [8]]).buffer = [7] ∧
      (socks5HandshakeHandler acceptingCallbacks {} [] [connectRequest ++ [7] ++ [8]]).buffer =
        [7, 8] := by
  decide

end ControlPlane.Proxy
