import MinBFT.Core.Commit
import MinBFT.Core.PeerState
import MinBFT.Core.Validate

/-!
# The state of a replica and its critical sections

The shared state of one replica as `defaultIncomingMessageHandler` (`core/message-handling.go`)
builds it: the client states of `clientstate.NewProvider`, the peer states of
`peerstate.NewProvider`, the commitment counter, the pending requests, the timer provider, the
message log, the USIG, and the closure state of `makeViewChangeRequestor`. Each operation here is
one critical section of the source, under the lock that guards the state it touches, so it is
one atomic step of the goroutine that runs it (`Handler`).

* What the replica takes from libraries is `ReplicaParams`: `proto.Unmarshal`, and of the
  external `api.Authenticator` its verification (`VerifyMessageAuthenTag`), given the messages
  the replica validated before, the replica's signature (`GenerateMessageAuthenTag(ReplicaAuthen,
  …)`) and the replica's USIG (`GenerateMessageAuthenTag(USIGAuthen, …)`), given the number of
  UIs it created before. The authenticator keeps state of its own: the sample's
  `SGXUSIGAuthenticationScheme` pins the epoch of each USIG key at the first UI it accepts, so
  its answer depends on what it verified before. Within one message's validation the calls are
  for different signers (the Request's client, the Prepare's primary, a Commit's sender, which
  `makeCommitValidator` has checked is not the primary), so an authenticator whose state is kept
  per signer answers each of them as it would after the messages validated before; the sample's
  USIG scheme keeps its epochs per key (`Sample.verifyAuthenticationTag_local`). The
  timeouts of `api.Configer` are durations, `≤ 0` for a disabled timer.
* The view is never advanced (`AdvanceExpectedView` and `AdvanceCurrentView` have no caller), so
  `viewState` always holds view `0` as both current and expected view, and `HoldView` is a read
  lock no writer ever contends: it is not part of the state.
* `clientstate.Provider` creates a client's state on first use; here every client has one from
  the start, the fresh state of `clientstate.New`.
* The message log is the list of messages appended so far; its streams (`messagelog.Stream`) are
  modelled where they are read, as a position in the list.
* The messages handed to `makeMessageValidator` so far are `validated`, in order: the history the
  authenticator answers from.
* A panic in any goroutine stops the process: `crashed`. A call of the collector that never
  returns holds its lock for ever: `collectorHung`.
-/

namespace MinBFT.Core

open MinBFT.Messages MinBFT.Usig MinBFT.System

/-- What a timer's callback does when it fires. -/
inductive TimerCallback where
  /-- `makeRequestTimerStarter`: `handleTimeout(view)`. -/
  | requestTimeout (clientID seq view : Nat)
  /-- `makePrepareTimerStarter`: a log line only. -/
  | prepareTimeout (clientID seq view : Nat)
  deriving DecidableEq, Repr

/-- What a replica takes from outside: its identity, its configuration and timeouts, protobuf's
decoder, SHA-256, and the `api.Authenticator`: `verifyTag hist role id msg tag` is
`VerifyMessageAuthenTag(role, id, msg, tag)` after the validation of the messages `hist`. -/
structure ReplicaParams where
  id : Nat
  cfg : ReplicaConfig
  timeoutRequest : Int
  timeoutPrepare : Int
  unmarshal : Bytes → Except String PbMessage
  sha256 : Bytes → Bytes
  verifyTag : List Message → AuthenRole → Nat → Bytes → Bytes → Except String Unit
  sign : Bytes → Except String Bytes
  createUI : Nat → Bytes → Except String Bytes

/-- The shared state of a replica. -/
structure Replica where
  clients : Nat → ClientState := fun _ => {}
  peers : Nat → PeerState := fun _ => {}
  counter : CommitmentCounter := {}
  pendingReq : Nat → Option Request := fun _ => none
  timers : Timers TimerCallback := {}
  log : List Message := []
  validated : List Message := []
  usigCount : Nat := 0
  requested : Nat := 0
  crashed : Bool := false
  collectorHung : Bool := false

namespace Replica

variable (P : ReplicaParams)

/-- The collector's part of the state. -/
def commitState (s : Replica) : CommitState TimerCallback :=
  ⟨s.counter, s.clients, s.pendingReq, s.timers⟩

/-- The state after the collector left `c`. -/
def withCommitState (s : Replica) (c : CommitState TimerCallback) : Replica :=
  { s with counter := c.counter, clients := c.clients, pendingReq := c.pendingReq,
           timers := c.timers }

/-- The state with client `cid`'s state changed by `g`. -/
def updateClient (s : Replica) (cid : Nat) (g : ClientState → ClientState) : Replica :=
  { s with clients := Function.update s.clients cid (g (s.clients cid)) }

/-- The state after `makeMessageValidator` ran on `m`: the authenticator has seen it. -/
def recordValidated (s : Replica) (m : Message) : Replica :=
  { s with validated := s.validated ++ [m] }

/-- The state with peer `r`'s state set to `ps`. -/
def setPeer (s : Replica) (r : Nat) (ps : PeerState) : Replica :=
  { s with peers := Function.update s.peers r ps }

/-! ## Request sequences -/

/-- `CaptureRequestSeq(seq)` of the request's client, one attempt. -/
def captureRequestSeq (s : Replica) (req : Request) : CaptureStep Replica :=
  match (s.clients req.clientID).seq.tryCaptureRequestSeq req.sequence with
  | .wait => .wait
  | .old => .old
  | .new q => .new (s.updateClient req.clientID fun c => { c with seq := q })

/-- The release closure of `CaptureRequestSeq`. -/
def releaseRequestSeq (s : Replica) (req : Request) : Replica :=
  s.updateClient req.clientID fun c => { c with seq := c.seq.releaseRequestSeq }

/-- `makeRequestSeqPreparer`: `PrepareRequestSeq`, whose error panics. -/
def prepareSeq (s : Replica) (req : Request) : Outcome (Bool × Replica) :=
  match (s.clients req.clientID).seq.prepareRequestSeq req.sequence with
  | (.error e, _) => .panic e
  | (.ok new, q) => .ok (new, s.updateClient req.clientID fun c => { c with seq := q })

/-- `pendingReq.Add(request)`. -/
def addPending (s : Replica) (req : Request) : Replica :=
  { s with pendingReq := Function.update s.pendingReq req.clientID (some req) }

/-! ## Timers -/

/-- `makeRequestTimerStarter`: `StartRequestTimer(seq, …)` of the request's client. -/
def startReqTimer (s : Replica) (req : Request) (view : Nat) : Replica :=
  let c := s.clients req.clientID
  let (t, timers) := c.requestTimer.startTimer s.timers P.timeoutRequest req.sequence
    (.requestTimeout req.clientID req.sequence view)
  { s.updateClient req.clientID (fun c => { c with requestTimer := t }) with timers := timers }

/-- `makePrepareTimerStarter`: `StartPrepareTimer(seq, …)` of the request's client. -/
def startPrepTimer (s : Replica) (req : Request) (view : Nat) : Replica :=
  let c := s.clients req.clientID
  let (t, timers) := c.prepareTimer.startTimer s.timers P.timeoutPrepare req.sequence
    (.prepareTimeout req.clientID req.sequence view)
  { s.updateClient req.clientID (fun c => { c with prepareTimer := t }) with timers := timers }

/-- `makePrepareTimerStopper`: `StopPrepareTimer(seq)` of the request's client. -/
def stopPrepTimer (s : Replica) (req : Request) : Replica :=
  { s with timers := (s.clients req.clientID).prepareTimer.stopTimer s.timers req.sequence }

/-! ## Generated messages -/

/-- `makeGeneratedMessageHandler` on a certified message, under `uiLock`: `assignUI` takes the
USIG's next UI for the authenticated bytes (its error panics) and `consume` appends the message
to the log. -/
def generateCertified (s : Replica) (m : Message) : Outcome Replica :=
  match authenBytes P.sha256 m with
  | none => .panic nilDereference
  | some bytes =>
    match P.createUI s.usigCount bytes with
    | .error e => .panic e
    | .ok ui =>
      match m.setUIBytes ui with
      | none => .panic nilDereference
      | some m => .ok { s with usigCount := s.usigCount + 1, log := s.log ++ [m] }

/-- `makeGeneratedMessageHandler` on a signed message: `sign` (its error panics), then
`consume`: a Reply goes to its client's `AddReply`, whose error panics, anything else to the
log. -/
def generateSigned (s : Replica) (m : Message) : Outcome Replica :=
  match authenBytes P.sha256 m with
  | none => .panic nilDereference
  | some bytes =>
    match P.sign bytes with
    | .error e => .panic e
    | .ok sig =>
      match m.setSignature sig with
      | none => .panic nilDereference
      | some (.reply r) =>
        match (s.clients r.clientID).reply.addReply r with
        | (.error e, _) => .panic ("Failed to consume generated Reply: " ++ e)
        | (.ok (), q) => .ok (s.updateClient r.clientID fun c => { c with reply := q })
      | some m => .ok { s with log := s.log ++ [m] }

/-! ## UIs of peers -/

/-- `makeUICapturer`: `CaptureUI` of the message's replica, one attempt; a UI that does not
decode panics. -/
def captureUI (s : Replica) (m : Message) : Outcome (CaptureStep Replica) :=
  match parseMessageUI m with
  | none => .panic (parseMessageUIPanic m)
  | some ui =>
    .ok (match (s.peers m.replicaID).tryCaptureUI ui.counter with
      | .wait => .wait
      | .old => .old
      | .new q => .new (s.setPeer m.replicaID q))

/-- The release closure of `CaptureUI`. -/
def releaseUI (s : Replica) (m : Message) : Replica :=
  s.setPeer m.replicaID (s.peers m.replicaID).releaseUI

/-! ## Commitments -/

/-- `collectCommitment(replicaID, prepare)` on the replica's counter, client states, pending
requests and timers. -/
def collect (s : Replica) (replicaID : Nat) (prepare : Prepare) :
    Outcome (Except String Unit × Replica × Option Request) :=
  (collectCommitment P.cfg.f s.commitState replicaID prepare).bind fun (res, c, ex) =>
    .ok (res, s.withCommitState c, ex)

/-! ## Replies and view changes -/

/-- `makeViewChangeRequestor` under its lock, for `newView`: nothing when that view was requested
before or is expected already (the expected view is always `0`); otherwise the generated
ReqViewChange. -/
def requestViewChange (s : Replica) (newView : Nat) : Outcome (Bool × Replica) :=
  if newView ≤ s.requested then .ok (false, s)
  else
    let s := { s with requested := newView }
    if newView ≤ 0 then .ok (false, s)
    else (s.generateSigned P (.reqViewChange (newReqViewChange P.id newView))).bind
      fun s => .ok (true, s)

end Replica

end MinBFT.Core
