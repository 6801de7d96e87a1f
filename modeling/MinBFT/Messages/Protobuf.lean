import Mathlib.Data.List.Basic
import Mathlib.Algebra.Group.Nat.Defs

/-!
# Protocol messages: the protobuf implementation

Model of `messages/api.go` (the message interfaces) and of their only implementation,
`messages/protobuf` (`impl.go`, `request.go`, `reply.go`, `prepare.go`, `commit.go`,
`req-view-change.go`), over the generated types of `messages/protobuf/pb/messages.proto`.

* Each `pb` message is a structure with the fields of `messages.proto`. An embedded message
  (`Prepare.request`, `Commit.prepare`) is optional: protobuf leaves an absent sub-message nil.
  Identifiers (`uint32`) and counters (`uint64`) are `Nat`; bytes fields are byte lists.
* Each wrapper (`request`, `prepare`, ...) holds a pointer to its `pb` message, `none` for a nil
  pointer. `newRequestFromPb(nil)` is a valid wrapper: `Prepare.Request()` and `Commit.Prepare()`
  return one when the sub-message is absent.
* The accessors follow the wrappers' code. Those that call a generated getter (`GetClientId`,
  `GetRequest`, ...) are nil-safe and return the zero value on a nil pointer; those that read a
  field directly (`Signature`, `UIBytes`) dereference the pointer, and return `none` for the
  panic a nil pointer causes.
* `Message` is the sum of the five wrapper types: the dynamic type a type switch on a
  `messages.Message` sees. Which interfaces each type implements (`PeerMessage`,
  `CertifiedMessage`, `SignedMessage`) is `Message.isPeer`, `Message.isCertified`,
  `Message.isSigned`.
-/

namespace MinBFT.Messages

/-- A byte string (`[]byte`). -/
abbrev Bytes := List UInt8

/-- `pb.Request`. -/
structure PbRequest where
  clientId : Nat
  seq : Nat
  operation : Bytes
  signature : Bytes
  deriving DecidableEq, Repr

/-- `pb.Reply`. -/
structure PbReply where
  replicaId : Nat
  clientId : Nat
  seq : Nat
  result : Bytes
  signature : Bytes
  deriving DecidableEq, Repr

/-- `pb.Prepare`: the client's Request is an optional sub-message. -/
structure PbPrepare where
  replicaId : Nat
  view : Nat
  request : Option PbRequest
  ui : Bytes
  deriving DecidableEq, Repr

/-- `pb.Commit`: the primary's Prepare is an optional sub-message. -/
structure PbCommit where
  replicaId : Nat
  prepare : Option PbPrepare
  ui : Bytes
  deriving DecidableEq, Repr

/-- `pb.ReqViewChange`. -/
structure PbReqViewChange where
  replicaId : Nat
  newView : Nat
  signature : Bytes
  deriving DecidableEq, Repr

/-- The `request` wrapper (`request.go`); `pbMsg = none` is a nil pointer. -/
structure Request where
  pbMsg : Option PbRequest
  deriving DecidableEq, Repr

/-- The `reply` wrapper (`reply.go`). -/
structure Reply where
  pbMsg : Option PbReply
  deriving DecidableEq, Repr

/-- The `prepare` wrapper (`prepare.go`). -/
structure Prepare where
  pbMsg : Option PbPrepare
  deriving DecidableEq, Repr

/-- The `commit` wrapper (`commit.go`). -/
structure Commit where
  pbMsg : Option PbCommit
  deriving DecidableEq, Repr

/-- The `reqViewChange` wrapper (`req-view-change.go`). -/
structure ReqViewChange where
  pbMsg : Option PbReqViewChange
  deriving DecidableEq, Repr

/-- A `messages.Message`, by its dynamic type. -/
inductive Message where
  | request (m : Request)
  | reply (m : Reply)
  | prepare (m : Prepare)
  | commit (m : Commit)
  | reqViewChange (m : ReqViewChange)
  deriving DecidableEq, Repr

/-! ## Accessors -/

/-- The message of Go's panic on dereferencing a nil pointer. -/
def nilDereference : String := "runtime error: invalid memory address or nil pointer dereference"

namespace Request

/-- `ClientID()`: `GetClientId`, nil-safe. -/
def clientID (m : Request) : Nat := (m.pbMsg.map PbRequest.clientId).getD 0

/-- `Sequence()`: `GetSeq`, nil-safe. -/
def sequence (m : Request) : Nat := (m.pbMsg.map PbRequest.seq).getD 0

/-- `Operation()`: `GetOperation`, nil-safe. -/
def operation (m : Request) : Bytes := (m.pbMsg.map PbRequest.operation).getD []

/-- `Signature()`: reads `m.pbMsg.Signature`, a nil dereference when `pbMsg` is nil. -/
def signature (m : Request) : Option Bytes := m.pbMsg.map PbRequest.signature

/-- `SetSignature(signature)`. -/
def setSignature (m : Request) (sig : Bytes) : Option Request :=
  m.pbMsg.map fun pb => ⟨some { pb with signature := sig }⟩

end Request

namespace Reply

def replicaID (m : Reply) : Nat := (m.pbMsg.map PbReply.replicaId).getD 0
def clientID (m : Reply) : Nat := (m.pbMsg.map PbReply.clientId).getD 0
def sequence (m : Reply) : Nat := (m.pbMsg.map PbReply.seq).getD 0
def result (m : Reply) : Bytes := (m.pbMsg.map PbReply.result).getD []
def signature (m : Reply) : Option Bytes := m.pbMsg.map PbReply.signature

def setSignature (m : Reply) (sig : Bytes) : Option Reply :=
  m.pbMsg.map fun pb => ⟨some { pb with signature := sig }⟩

end Reply

namespace Prepare

def replicaID (m : Prepare) : Nat := (m.pbMsg.map PbPrepare.replicaId).getD 0
def view (m : Prepare) : Nat := (m.pbMsg.map PbPrepare.view).getD 0

/-- `Request()`: `newRequestFromPb(m.pbMsg.GetRequest())`, a wrapper around a nil pointer when
the Request is absent. -/
def request (m : Prepare) : Request := ⟨m.pbMsg.bind PbPrepare.request⟩

/-- `UIBytes()`: reads `m.pbMsg.Ui`. -/
def uiBytes (m : Prepare) : Option Bytes := m.pbMsg.map PbPrepare.ui

def setUIBytes (m : Prepare) (ui : Bytes) : Option Prepare :=
  m.pbMsg.map fun pb => ⟨some { pb with ui := ui }⟩

end Prepare

namespace Commit

def replicaID (m : Commit) : Nat := (m.pbMsg.map PbCommit.replicaId).getD 0

/-- `Prepare()`: `newPrepareFromPb(m.pbMsg.GetPrepare())`. -/
def prepare (m : Commit) : Prepare := ⟨m.pbMsg.bind PbCommit.prepare⟩

def uiBytes (m : Commit) : Option Bytes := m.pbMsg.map PbCommit.ui

def setUIBytes (m : Commit) (ui : Bytes) : Option Commit :=
  m.pbMsg.map fun pb => ⟨some { pb with ui := ui }⟩

end Commit

namespace ReqViewChange

def replicaID (m : ReqViewChange) : Nat := (m.pbMsg.map PbReqViewChange.replicaId).getD 0
def newView (m : ReqViewChange) : Nat := (m.pbMsg.map PbReqViewChange.newView).getD 0
def signature (m : ReqViewChange) : Option Bytes := m.pbMsg.map PbReqViewChange.signature

def setSignature (m : ReqViewChange) (sig : Bytes) : Option ReqViewChange :=
  m.pbMsg.map fun pb => ⟨some { pb with signature := sig }⟩

end ReqViewChange

/-! ## Constructors (`MessageImpl`) -/

/-- `NewRequest(clientID, sequence, operation)`. -/
def newRequest (cl seq : Nat) (op : Bytes) : Request :=
  ⟨some { clientId := cl, seq := seq, operation := op, signature := [] }⟩

/-- `NewReply(replicaID, clientID, sequence, result)`. -/
def newReply (r cl seq : Nat) (res : Bytes) : Reply :=
  ⟨some { replicaId := r, clientId := cl, seq := seq, result := res, signature := [] }⟩

/-- `NewPrepare(replicaID, view, request)`: the Request's `pb` message is embedded as it is
(`pbRequestFromAPI`). -/
def newPrepare (r v : Nat) (req : Request) : Prepare :=
  ⟨some { replicaId := r, view := v, request := req.pbMsg, ui := [] }⟩

/-- `NewCommit(replicaID, prepare)`. -/
def newCommit (r : Nat) (prep : Prepare) : Commit :=
  ⟨some { replicaId := r, prepare := prep.pbMsg, ui := [] }⟩

/-- `NewReqViewChange(replicaID, newView)`. -/
def newReqViewChange (r nv : Nat) : ReqViewChange :=
  ⟨some { replicaId := r, newView := nv, signature := [] }⟩

/-! ## The interfaces a message implements -/

namespace Message

/-- `messages.PeerMessage`: Prepare, Commit and ReqViewChange. -/
def isPeer : Message → Bool
  | .prepare _ | .commit _ | .reqViewChange _ => true
  | _ => false

/-- `messages.CertifiedMessage`: the messages with a USIG UI, Prepare and Commit. -/
def isCertified : Message → Bool
  | .prepare _ | .commit _ => true
  | _ => false

/-- `messages.ReplicaMessage`: every type but Request. -/
def isReplica : Message → Bool
  | .request _ => false
  | _ => true

/-- `messages.SignedMessage`: the messages with a signature, Request, Reply and ReqViewChange. -/
def isSigned : Message → Bool
  | .request _ | .reply _ | .reqViewChange _ => true
  | _ => false

/-- `Signature()` of a signed message; `none` also for the panic on a nil pointer. -/
def signature : Message → Option Bytes
  | .request m => m.signature
  | .reply m => m.signature
  | .reqViewChange m => m.signature
  | _ => none

/-- `ReplicaID()` of a replica message. -/
def replicaID : Message → Nat
  | .request _ => 0
  | .reply m => m.replicaID
  | .prepare m => m.replicaID
  | .commit m => m.replicaID
  | .reqViewChange m => m.replicaID

/-- `SetUIBytes(ui)` of a certified message; `none` for the panic on a nil pointer. -/
def setUIBytes : Message → Bytes → Option Message
  | .prepare m, ui => (m.setUIBytes ui).map .prepare
  | .commit m, ui => (m.setUIBytes ui).map .commit
  | m, _ => some m

/-- `SetSignature(sig)` of a signed message; `none` for the panic on a nil pointer. -/
def setSignature : Message → Bytes → Option Message
  | .request m, sig => (m.setSignature sig).map .request
  | .reply m, sig => (m.setSignature sig).map .reply
  | .reqViewChange m, sig => (m.setSignature sig).map .reqViewChange
  | m, _ => some m

/-- `UIBytes()` of a certified message. -/
def uiBytes : Message → Option Bytes
  | .prepare m => m.uiBytes
  | .commit m => m.uiBytes
  | _ => none

end Message

/-! ## Field widths -/

/-- The fields of a Request that `AuthenBytes` writes fit their protobuf types: the client is a
`uint32`, the sequence a `uint64`. -/
def Request.InRange (m : Request) : Prop := m.clientID < 2 ^ 32 ∧ m.sequence < 2 ^ 64

/-- The view of a Prepare (`uint64`) and its Request's fields fit their types. -/
def Prepare.InRange (m : Prepare) : Prop := m.view < 2 ^ 64 ∧ m.request.InRange

/-- The Requests and Prepares a message carries fit their types: what every message decoded by
`proto.Unmarshal` satisfies. -/
def Message.InRange : Message → Prop
  | .request m => m.InRange
  | .prepare m => m.InRange
  | .commit m => m.prepare.InRange
  | _ => True

/-- Setting a message's UI keeps the fields `InRange` reads. -/
theorem Message.inRange_of_setUIBytes {m m' : Message} {ui : Bytes} (h : m.setUIBytes ui = some m')
    (hm : m.InRange) : m'.InRange := by
  cases m with
  | prepare p =>
    obtain ⟨p', hp', rfl⟩ := Option.map_eq_some_iff.mp h
    obtain ⟨pb, hpb, rfl⟩ := Option.map_eq_some_iff.mp hp'
    simpa [Message.InRange, Prepare.InRange, Prepare.view, Prepare.request, hpb] using hm
  | commit c =>
    obtain ⟨c', hc', rfl⟩ := Option.map_eq_some_iff.mp h
    obtain ⟨pb, hpb, rfl⟩ := Option.map_eq_some_iff.mp hc'
    simpa [Message.InRange, Commit.prepare, hpb] using hm
  | _ =>
    cases h
    exact hm

/-- Setting a Commit's UI keeps its Prepare. -/
theorem Message.setUIBytes_commit {c : Commit} {m' : Message} {ui : Bytes}
    (h : (Message.commit c).setUIBytes ui = some m') : ∃ c', m' = .commit c' ∧ c'.prepare = c.prepare := by
  obtain ⟨c', hc', rfl⟩ := Option.map_eq_some_iff.mp h
  obtain ⟨pb, hpb, rfl⟩ := Option.map_eq_some_iff.mp hc'
  exact ⟨_, rfl, by simp [Commit.prepare, hpb]⟩

/-- Setting the UI of anything but a Commit gives no Commit. -/
theorem Message.setUIBytes_ne_commit {m m' : Message} {ui : Bytes} (h : m.setUIBytes ui = some m')
    (hm : ∀ c, m ≠ .commit c) (c' : Commit) : m' ≠ .commit c' := by
  cases m with
  | prepare p =>
    obtain ⟨p', -, rfl⟩ := Option.map_eq_some_iff.mp h
    exact Message.noConfusion
  | commit c => exact absurd rfl (hm c)
  | _ =>
    cases h
    exact hm c'

/-- Setting the UI of a certified message gives a certified message that carries that UI. -/
theorem Message.setUIBytes_certified {m m' : Message} {ui : Bytes} (h : m.setUIBytes ui = some m')
    (hm : m.isCertified = true) : m'.isCertified = true ∧ m'.uiBytes = some ui := by
  cases m with
  | prepare p =>
    obtain ⟨p', hp', rfl⟩ := Option.map_eq_some_iff.mp h
    obtain ⟨pb, -, rfl⟩ := Option.map_eq_some_iff.mp hp'
    exact ⟨rfl, rfl⟩
  | commit c =>
    obtain ⟨c', hc', rfl⟩ := Option.map_eq_some_iff.mp h
    obtain ⟨pb, -, rfl⟩ := Option.map_eq_some_iff.mp hc'
    exact ⟨rfl, rfl⟩
  | _ => cases hm

/-- Signing keeps the type of a message. -/
theorem Message.isCertified_of_setSignature {m m' : Message} {sig : Bytes}
    (h : m.setSignature sig = some m') : m'.isCertified = m.isCertified := by
  cases m with
  | request r =>
    obtain ⟨r', -, rfl⟩ := Option.map_eq_some_iff.mp h
    rfl
  | reply r =>
    obtain ⟨r', -, rfl⟩ := Option.map_eq_some_iff.mp h
    rfl
  | reqViewChange v =>
    obtain ⟨v', -, rfl⟩ := Option.map_eq_some_iff.mp h
    rfl
  | _ =>
    cases h
    rfl

/-! ## Decoding (`impl.go`) -/

/-- The oneof `typed` of `pb.Message`: which message it holds, as a pointer. -/
inductive PbTyped where
  | request (m : Option PbRequest)
  | reply (m : Option PbReply)
  | prepare (m : Option PbPrepare)
  | commit (m : Option PbCommit)
  | reqViewChange (m : Option PbReqViewChange)
  deriving DecidableEq, Repr

/-- `pb.Message`, the envelope every message travels in; `typed = none` when no case is set. -/
structure PbMessage where
  typed : Option PbTyped
  deriving DecidableEq, Repr

/-- `typedMessageFromPb(pbMsg)`: the wrapper of the case the envelope holds. -/
def typedMessageFromPb (pbMsg : PbMessage) : Except String Message :=
  match pbMsg.typed with
  | some (.request m) => .ok (.request ⟨m⟩)
  | some (.reply m) => .ok (.reply ⟨m⟩)
  | some (.prepare m) => .ok (.prepare ⟨m⟩)
  | some (.commit m) => .ok (.commit ⟨m⟩)
  | some (.reqViewChange m) => .ok (.reqViewChange ⟨m⟩)
  | none => .error "unknown message type"

/-- `NewFromBinary(data)`, over protobuf's `proto.Unmarshal`, a parameter `unmarshal`. -/
def newFromBinary (unmarshal : Bytes → Except String PbMessage) (data : Bytes) :
    Except String Message :=
  match unmarshal data with
  | .error e => .error ("failed to unmarshal message wrapper: " ++ e)
  | .ok pbMsg => typedMessageFromPb pbMsg

end MinBFT.Messages
