import MinBFT.Client.RequestBuffer
import MinBFT.System.Threads
import MinBFT.System.Cursor

/-!
# The request buffer under concurrent calls

`requestbuffer.T` of `client/internal/requestbuffer/requestbuffer.go` with every operation a
client may call on it, concurrently and any number of times, as a program of `System.Threads`:

* `AddRequest(msg)` waits until the buffer is empty (its loop on `removed`), then rejects a message
  whose sequence is not above `lastSeq`, or stores it, makes a non-blocking send on every channel
  of `rb.newAdded` and starts `supplyReplies` over the new request's Replies on the channel it
  returns. The goroutine of the call becomes that `supplyReplies` here: what the caller does with
  the channel is the environment's.
* `AddReply(msg)` reads `rb.request` under the read lock, then adds the Reply to that request's
  Replies after releasing it.
* `RemoveRequest(seq)`.
* `RequestStream(cancel)` starts `supplyRequests`, which registers a notification channel of
  capacity 1 in `rb.newAdded` and loops: it reads `rb.request`, offers its Request when its
  sequence is above the last one sent, in a `select` that also takes `<-request.removed` and
  `<-cancel`, and then waits in a `select` on its notification channel or `<-cancel`.

The receivers of the returned channels are any, and the `cancel` channel of a stream may be closed
at any time: each `select` may take any case the buffer lets it take (`BufferChoice`).

## Results

* `bufferInv_reachable`: the invariant `BufferInv` holds in every reachable configuration.
* `requestBuffer_consistent`: at most one request object is not removed; `AddRequest` accepts a
  Request exactly when its sequence is above 0 and above every one accepted before; each
  `supplyRequests` sends only accepted Requests, in strictly increasing order of sequence; each
  `supplyReplies` sends a prefix of the Replies accepted for its request, and closes its channel
  only after a `RemoveRequest` with that request's sequence.
-/

namespace MinBFT.Client

open MinBFT.Messages MinBFT.System

/-! ## The goroutines -/

/-- `T` with its notification channels `rb.newAdded`, one per `supplyRequests` in the order they
registered, each holding a notification or not. -/
structure BufferState where
  buf : RequestBuffer
  newAdded : List Bool

/-- `New()`. -/
def BufferState.new : BufferState := ⟨RequestBuffer.new, []⟩

/-- Where `supplyRequests` is: before it registers its notification channel, at the head of its
loop, in the `select` that offers the Request of object `k`, in the `select` on its notification
channel, or returned. -/
inductive SupplierPc where
  | register
  | read
  | offer (k : Nat)
  | wait
  | returned
  deriving DecidableEq, Repr

/-- `supplyRequests`: where it is, the index of its notification channel in `rb.newAdded`, and
`lastSeq`, the sequence of the last Request it sent. -/
structure RequestSupplier where
  pc : SupplierPc
  ch : Nat
  lastSeq : Nat
  deriving DecidableEq, Repr

/-- `supplyRequests` as `RequestStream` starts it: `lastSeq` is 0 from its declaration on. -/
def RequestSupplier.start : RequestSupplier := ⟨.register, 0, 0⟩

/-- Where `AddReply` is: before it reads `rb.request`, or after, with the request it read. -/
inductive AddReplyPc where
  | read
  | add (request : Option Nat)
  deriving DecidableEq, Repr

/-- A goroutine that uses the buffer. -/
inductive BufferCall where
  | addRequest (msg : Request)
  | addReply (msg : Reply) (pc : AddReplyPc)
  | removeRequest (seq : Nat)
  | supplyRequests (sup : RequestSupplier)
  /-- `supplyReplies` of the request object `k`, started by the `AddRequest` that made it. -/
  | supplyReplies (k : Nat) (sup : Cursor Reply)
  | returned
  deriving DecidableEq, Repr

/-- What the calls returned and what the goroutines sent, with the request object each is about. -/
inductive BufferEvent where
  /-- `AddRequest(msg)` returned `true`, having made the object `k`. -/
  | accepted (msg : Request) (k : Nat)
  /-- `AddRequest(msg)` returned `false`. -/
  | rejected (msg : Request)
  /-- `AddReply(reply)` returned `true`, having added `reply` to the Replies of object `k`. -/
  | replyAccepted (k : Nat) (reply : Reply)
  /-- A call `RemoveRequest(seq)`. -/
  | removeCalled (seq : Nat)
  /-- `supplyRequests` of goroutine `i` sent `msg` on its channel. -/
  | streamed (i : Nat) (msg : Request)
  /-- `supplyReplies` of object `k` sent `reply` on its channel. -/
  | replySent (k : Nat) (reply : Reply)
  /-- `supplyReplies` of object `k` returned, and its `defer close(ch)` closed its channel. -/
  | replyClosed (k : Nat)
  deriving DecidableEq, Repr

/-- The case a goroutine takes: its one next step or the first case of its `select`, the case
`<-request.removed` of `supplyRequests`, or the case `<-cancel`. -/
inductive BufferChoice where
  | first
  | removed
  | cancel
  deriving DecidableEq, Repr

/-! ## The steps -/

/-- One atomic step of `supplyRequests` of goroutine `i`, taking case `ch`: the notification
channels after it, its new state, and what it sent. -/
def supplyRequestsStep (i : Nat) (e : BufferState) (sup : RequestSupplier) :
    BufferChoice → Option (List Bool × RequestSupplier × List BufferEvent)
  | .first =>
    match sup.pc with
    | .register =>
      some (e.newAdded ++ [false], { sup with pc := .read, ch := e.newAdded.length }, [])
    | .read =>
      -- `request != nil && request.Sequence() > lastSeq`, on the request read under the lock
      match e.buf.request with
      | none => some (e.newAdded, { sup with pc := .wait }, [])
      | some k =>
        match e.buf.requests[k]? with
        | none => some (e.newAdded, { sup with pc := .wait }, [])
        | some obj =>
          if sup.lastSeq < obj.msg.sequence then some (e.newAdded, { sup with pc := .offer k }, [])
          else some (e.newAdded, { sup with pc := .wait }, [])
    | .offer k =>
      -- `ch <- request.Request` meets a receiver
      match e.buf.requests[k]? with
      | none => none
      | some obj =>
        some (e.newAdded, { sup with pc := .wait, lastSeq := obj.msg.sequence },
          [.streamed i obj.msg])
    | .wait =>
      if e.newAdded[sup.ch]? = some true then
        some (e.newAdded.set sup.ch false, { sup with pc := .read }, [])
      else none
    | .returned => none
  | .removed =>
    match sup.pc with
    | .offer k =>
      match e.buf.requests[k]? with
      | none => none
      | some obj => if obj.removed then some (e.newAdded, { sup with pc := .wait }, []) else none
    | _ => none
  | .cancel =>
    match sup.pc with
    | .offer _ | .wait => some (e.newAdded, { sup with pc := .returned }, [])
    | _ => none

/-- The events of a step of `supplyReplies` of object `k` in case `sc` that sent `out`: the send,
or the close of its channel when the `cancel` case returned. -/
def replyEvents (k : Nat) : SelectCase → Option Reply → List BufferEvent
  | _, some reply => [.replySent k reply]
  | .first, none => []
  | .cancel, none => [.replyClosed k]

/-- One atomic step of `supplyReplies` of object `k`: the forwarding loop of `System.Cursor` over
the object's Replies, whose `cancel` is the object's `removed`. -/
def supplyRepliesStep (e : BufferState) (k : Nat) (sup : Cursor Reply) (sc : SelectCase) :
    Option (BufferState × BufferCall × List BufferEvent) :=
  match e.buf.requests[k]? with
  | none => none
  | some obj =>
    (Cursor.step obj.replies.msgs obj.replies.newAdded obj.removed sup sc).map
      fun (note, sup', out) =>
        ({ e with buf := e.buf.setNote k note }, .supplyReplies k sup', replyEvents k sc out)

/-- The event of `AddReply(msg)` that added to the request `request` it read and returned `ok`. -/
def addReplyEvents (request : Option Nat) (msg : Reply) : Bool → List BufferEvent
  | true => (request.map fun k => BufferEvent.replyAccepted k msg).toList
  | false => []

/-- One atomic step of goroutine `i`, taking case `ch`, when it is enabled. -/
def bufferStep (i : Nat) (e : BufferState) : BufferCall → BufferChoice →
    Option (BufferState × BufferCall × List BufferEvent)
  | .addRequest msg, .first =>
    match e.buf.request with
    | some _ => none
    | none =>
      match e.buf.addRequest msg with
      | none => some (e, .returned, [.rejected msg])
      | some (buf, k) =>
        -- the non-blocking send on each notification channel leaves a notification in it
        some (⟨buf, e.newAdded.map fun _ => true⟩, .supplyReplies k Cursor.start, [.accepted msg k])
  | .addReply msg .read, .first => some (e, .addReply msg (.add e.buf.request), [])
  | .addReply msg (.add request), .first =>
    some ({ e with buf := (e.buf.addReply request msg).2 }, .returned,
      addReplyEvents request msg (e.buf.addReply request msg).1)
  | .removeRequest seq, .first =>
    some ({ e with buf := e.buf.removeRequest seq }, .returned, [.removeCalled seq])
  | .supplyRequests sup, ch =>
    (supplyRequestsStep i e sup ch).map fun (newAdded, sup', es) =>
      (⟨e.buf, newAdded⟩, .supplyRequests sup', es)
  | .supplyReplies k sup, .first => supplyRepliesStep e k sup .first
  | .supplyReplies k sup, .cancel => supplyRepliesStep e k sup .cancel
  | _, _ => none

/-- The goroutines that use one buffer: calls of `AddRequest`, `AddReply`, `RemoveRequest` and
`RequestStream`, any number of each, with any messages. -/
def bufferProgram : Program BufferState BufferCall BufferEvent where
  start := fun
    | .addRequest _ | .removeRequest _ => True
    | .addReply _ pc => pc = .read
    | .supplyRequests sup => sup = RequestSupplier.start
    | .supplyReplies .. | .returned => False
  step i e t e' t' es := ∃ ch, bufferStep i e t ch = some (e', t', es)

/-! ## The steps, one constructor each -/

/-- The steps of `supplyRequests`. -/
inductive SupplierMove (i : Nat) (e : BufferState) (sup : RequestSupplier) :
    List Bool → RequestSupplier → List BufferEvent → Prop
  | register : sup.pc = .register →
      SupplierMove i e sup (e.newAdded ++ [false]) { sup with pc := .read, ch := e.newAdded.length } []
  | offer {k : Nat} {obj : RequestObj} : sup.pc = .read → e.buf.request = some k →
      e.buf.requests[k]? = some obj → sup.lastSeq < obj.msg.sequence →
      SupplierMove i e sup e.newAdded { sup with pc := .offer k } []
  | skip : sup.pc = .read → (∀ k obj, e.buf.request = some k → e.buf.requests[k]? = some obj →
      obj.msg.sequence ≤ sup.lastSeq) → SupplierMove i e sup e.newAdded { sup with pc := .wait } []
  | send {k : Nat} {obj : RequestObj} : sup.pc = .offer k → e.buf.requests[k]? = some obj →
      SupplierMove i e sup e.newAdded { sup with pc := .wait, lastSeq := obj.msg.sequence }
        [.streamed i obj.msg]
  | removed {k : Nat} {obj : RequestObj} : sup.pc = .offer k → e.buf.requests[k]? = some obj →
      obj.removed = true → SupplierMove i e sup e.newAdded { sup with pc := .wait } []
  | notified : sup.pc = .wait → e.newAdded[sup.ch]? = some true →
      SupplierMove i e sup (e.newAdded.set sup.ch false) { sup with pc := .read } []
  | cancel : (∃ k, sup.pc = .offer k) ∨ sup.pc = .wait →
      SupplierMove i e sup e.newAdded { sup with pc := .returned } []

/-- The steps of the goroutines. -/
inductive BufferMove (i : Nat) (e : BufferState) :
    BufferCall → BufferState → BufferCall → List BufferEvent → Prop
  | reject {msg : Request} : e.buf.request = none → e.buf.addRequest msg = none →
      BufferMove i e (.addRequest msg) e .returned [.rejected msg]
  | accept {msg : Request} {buf : RequestBuffer} {k : Nat} : e.buf.request = none →
      e.buf.addRequest msg = some (buf, k) →
      BufferMove i e (.addRequest msg) ⟨buf, e.newAdded.map fun _ => true⟩
        (.supplyReplies k Cursor.start) [.accepted msg k]
  | read {msg : Reply} : BufferMove i e (.addReply msg .read) e (.addReply msg (.add e.buf.request)) []
  | add {msg : Reply} {request : Option Nat} :
      BufferMove i e (.addReply msg (.add request)) { e with buf := (e.buf.addReply request msg).2 }
        .returned (addReplyEvents request msg (e.buf.addReply request msg).1)
  | remove {seq : Nat} :
      BufferMove i e (.removeRequest seq) { e with buf := e.buf.removeRequest seq } .returned
        [.removeCalled seq]
  | supplyRequests {sup sup' : RequestSupplier} {newAdded : List Bool} {es : List BufferEvent} :
      SupplierMove i e sup newAdded sup' es →
      BufferMove i e (.supplyRequests sup) ⟨e.buf, newAdded⟩ (.supplyRequests sup') es
  | supplyReplies {k : Nat} {sup sup' : Cursor Reply} {obj : RequestObj} {sc : SelectCase}
      {note : Bool} {out : Option Reply} : e.buf.requests[k]? = some obj →
      Cursor.step obj.replies.msgs obj.replies.newAdded obj.removed sup sc = some (note, sup', out) →
      BufferMove i e (.supplyReplies k sup) { e with buf := e.buf.setNote k note }
        (.supplyReplies k sup') (replyEvents k sc out)

section Moves

variable {i : Nat} {e e' : BufferState} {t t' : BufferCall} {es : List BufferEvent}

/-- Every step `supplyRequestsStep` takes is a `SupplierMove`. -/
theorem supplyRequestsStep_move {sup sup' : RequestSupplier} {newAdded : List Bool}
    {ch : BufferChoice} (h : supplyRequestsStep i e sup ch = some (newAdded, sup', es)) :
    SupplierMove i e sup newAdded sup' es := by
  cases ch with
  | first =>
    simp only [supplyRequestsStep] at h
    split at h
    · next hpc => cases h; exact .register hpc
    · next hpc =>
      split at h
      · next hreq =>
        cases h
        exact .skip hpc fun k obj hk _ => by rw [hreq] at hk; cases hk
      · next k hreq =>
        split at h
        · next hobj =>
          cases h
          refine .skip hpc fun k' obj' hk hobj' => ?_
          rw [hreq] at hk
          cases hk
          rw [hobj] at hobj'
          cases hobj'
        · next obj hobj =>
          split_ifs at h with hlt
          · cases h; exact .offer hpc hreq hobj hlt
          · cases h
            refine .skip hpc fun k' obj' hk hobj' => ?_
            rw [hreq] at hk
            cases hk
            rw [hobj] at hobj'
            cases hobj'
            omega
    · next k hpc =>
      split at h
      · cases h
      · next obj hobj => cases h; exact .send hpc hobj
    · next hpc =>
      split_ifs at h with hn
      cases h
      exact .notified hpc hn
    · cases h
  | removed =>
    simp only [supplyRequestsStep] at h
    split at h
    · next k hpc =>
      split at h
      · cases h
      · next obj hobj =>
        split_ifs at h with hrem
        cases h
        exact .removed hpc hobj hrem
    · cases h
  | cancel =>
    simp only [supplyRequestsStep] at h
    split at h
    · next k hpc => cases h; exact .cancel (.inl ⟨k, hpc⟩)
    · next hpc => cases h; exact .cancel (.inr hpc)
    · cases h

/-- Every step `supplyRepliesStep` takes is a step of `supplyReplies`. -/
theorem supplyRepliesStep_move {k : Nat} {sup : Cursor Reply} {sc : SelectCase}
    (h : supplyRepliesStep e k sup sc = some (e', t', es)) :
    BufferMove i e (.supplyReplies k sup) e' t' es := by
  simp only [supplyRepliesStep] at h
  split at h
  · cases h
  · next obj hobj =>
    obtain ⟨⟨note, sup', out⟩, hs, h⟩ := Option.map_eq_some_iff.mp h
    cases h
    exact .supplyReplies hobj hs

/-- Every step `bufferStep` takes is a `BufferMove`. -/
theorem bufferStep_move {ch : BufferChoice} (h : bufferStep i e t ch = some (e', t', es)) :
    BufferMove i e t e' t' es := by
  unfold bufferStep at h
  split at h
  · -- `AddRequest`, once the buffer is empty
    split at h
    · cases h
    · next hreq =>
      split at h
      · next hadd => cases h; exact .reject hreq hadd
      · next buf k hadd => cases h; exact .accept hreq hadd
  · cases h; exact .read
  · cases h; exact .add
  · cases h; exact .remove
  · obtain ⟨⟨newAdded, sup', es'⟩, hs, h⟩ := Option.map_eq_some_iff.mp h
    cases h
    exact .supplyRequests (supplyRequestsStep_move hs)
  · exact supplyRepliesStep_move h
  · exact supplyRepliesStep_move h
  · cases h

end Moves

/-! ## What the calls returned and the goroutines sent -/

namespace BufferEvent

/-- The sequence of a Request `AddRequest` accepted. -/
def acceptedSeq : BufferEvent → Option Nat
  | .accepted msg _ => some msg.sequence
  | _ => none

/-- A Reply `AddReply` accepted for the request object `k`. -/
def replyAcceptedTo (k : Nat) : BufferEvent → Option Reply
  | .replyAccepted k' reply => if k' = k then some reply else none
  | _ => none

/-- A Reply `supplyReplies` of the request object `k` sent. -/
def replySentOn (k : Nat) : BufferEvent → Option Reply
  | .replySent k' reply => if k' = k then some reply else none
  | _ => none

/-- A Request `supplyRequests` of goroutine `i` sent. -/
def streamedOn (i : Nat) : BufferEvent → Option Request
  | .streamed i' msg => if i' = i then some msg else none
  | _ => none

end BufferEvent

/-- The sequences of the Requests accepted, in order. -/
def acceptedSeqs (trace : List BufferEvent) : List Nat := trace.filterMap BufferEvent.acceptedSeq

/-- The Replies accepted for the request object `k`, in order. -/
def repliesAccepted (k : Nat) (trace : List BufferEvent) : List Reply :=
  trace.filterMap (BufferEvent.replyAcceptedTo k)

/-- The Replies `supplyReplies` of the request object `k` sent, in order. -/
def repliesSent (k : Nat) (trace : List BufferEvent) : List Reply :=
  trace.filterMap (BufferEvent.replySentOn k)

/-- The Requests `supplyRequests` of goroutine `i` sent, in order. -/
def streamedBy (i : Nat) (trace : List BufferEvent) : List Request :=
  trace.filterMap (BufferEvent.streamedOn i)

section Views

variable {trace trace' : List BufferEvent} {i k : Nat}

@[simp] theorem streamedBy_nil : streamedBy i [] = [] := rfl

@[simp] theorem acceptedSeqs_append :
    acceptedSeqs (trace ++ trace') = acceptedSeqs trace ++ acceptedSeqs trace' :=
  List.filterMap_append

@[simp] theorem repliesAccepted_append :
    repliesAccepted k (trace ++ trace') = repliesAccepted k trace ++ repliesAccepted k trace' :=
  List.filterMap_append

@[simp] theorem repliesSent_append :
    repliesSent k (trace ++ trace') = repliesSent k trace ++ repliesSent k trace' :=
  List.filterMap_append

@[simp] theorem streamedBy_append :
    streamedBy i (trace ++ trace') = streamedBy i trace ++ streamedBy i trace' :=
  List.filterMap_append

/-- `supplyReplies` of object `k` sends what its step sent. -/
theorem repliesSent_replyEvents (sc : SelectCase) (out : Option Reply) :
    repliesSent k (replyEvents k sc out) = out.toList := by
  rcases out with _ | reply
  · cases sc <;> rfl
  · simp [replyEvents, repliesSent, BufferEvent.replySentOn]

/-- `supplyReplies` of one object sends nothing on the channel of another. -/
theorem repliesSent_replyEvents_of_ne {k' : Nat} (h : k' ≠ k) (sc : SelectCase)
    (out : Option Reply) : repliesSent k (replyEvents k' sc out) = [] := by
  rcases out with _ | reply
  · cases sc <;> rfl
  · simp [replyEvents, repliesSent, BufferEvent.replySentOn, h]

end Views

/-! ## The invariant -/

/-- What each event says of the events before it: an accepted Request has a sequence above 0 and
above every one accepted before, and a rejected one does not; a stream sends only accepted
Requests; the channel of a request object is closed only after a `RemoveRequest` with its
sequence, itself after the Request was accepted. -/
def EventOk (pre : List BufferEvent) : BufferEvent → Prop
  | .accepted msg _ => 0 < msg.sequence ∧ ∀ s ∈ acceptedSeqs pre, s < msg.sequence
  | .rejected msg => msg.sequence = 0 ∨ ∃ s ∈ acceptedSeqs pre, msg.sequence ≤ s
  | .streamed _ msg => ∃ k, BufferEvent.accepted msg k ∈ pre
  | .replyClosed k => ∃ msg, List.Sublist [BufferEvent.accepted msg k, .removeCalled msg.sequence] pre
  | .replyAccepted .. | .removeCalled _ | .replySent .. => True

/-- What holds of the request object `k`: `AddRequest` accepted its Request as `k`, its Replies are
those `AddReply` accepted for it, and its `removed` was closed only by a `RemoveRequest` with its
sequence, after that. -/
structure ObjOk (trace : List BufferEvent) (k : Nat) (obj : RequestObj) : Prop where
  accepted : BufferEvent.accepted obj.msg k ∈ trace
  replies : obj.replies.msgs = repliesAccepted k trace
  removed : obj.removed = true →
    List.Sublist [BufferEvent.accepted obj.msg k, .removeCalled obj.msg.sequence] trace

/-- The buffer against the history: `lastSeq` is the last sequence accepted, the request in the
buffer is the one object not removed, and each object is as `ObjOk` says. -/
structure BufferOk (e : BufferState) (trace : List BufferEvent) : Prop where
  last_seq : ∀ s ∈ acceptedSeqs trace, s ≤ e.buf.lastSeq
  last_seq_mem : e.buf.lastSeq = 0 ∨ e.buf.lastSeq ∈ acceptedSeqs trace
  request : ∀ k, e.buf.request = some k →
    ∃ obj, e.buf.requests[k]? = some obj ∧ obj.removed = false
  held : ∀ k obj, e.buf.requests[k]? = some obj → obj.removed = false → e.buf.request = some k
  objs : ∀ k obj, e.buf.requests[k]? = some obj → ObjOk trace k obj
  /-- No Reply was accepted for an object not made yet. -/
  fresh : ∀ k, e.buf.requests.length ≤ k → repliesAccepted k trace = []
  events : EachEvent EventOk trace

/-- `supplyRequests` that has sent `sent`: in strictly increasing order of sequence, none above
`lastSeq`, and the Request it offers is above `lastSeq`. -/
structure SupplierOk (e : BufferState) (sent : List Request) (sup : RequestSupplier) : Prop where
  increasing : sent.Pairwise fun a b => a.sequence < b.sequence
  le_last : ∀ msg ∈ sent, msg.sequence ≤ sup.lastSeq
  offer : ∀ k, sup.pc = .offer k →
    ∃ obj, e.buf.requests[k]? = some obj ∧ sup.lastSeq < obj.msg.sequence

/-- The goroutines against the history: each `supplyRequests` is as `SupplierOk` says and only it
sent on its channel; each `supplyReplies` has sent a prefix of its object's Replies
(`Cursor.Ok`), is the only one of its object, and only it sent on its channel. -/
structure ThreadsOk (c : Config BufferState BufferCall BufferEvent) : Prop where
  suppliers : ∀ i sup, c.threads[i]? = some (.supplyRequests sup) →
    SupplierOk c.shared (streamedBy i c.trace) sup
  silent : ∀ i, (∀ sup, c.threads[i]? ≠ some (.supplyRequests sup)) → streamedBy i c.trace = []
  repliers : ∀ (i k : Nat) (sup : Cursor Reply), c.threads[i]? = some (.supplyReplies k sup) →
    ∃ obj, c.shared.buf.requests[k]? = some obj ∧
      Cursor.Ok (repliesSent k c.trace) obj.replies.msgs obj.replies.newAdded sup
  quiet : ∀ k, (∀ (i : Nat) (sup : Cursor Reply), c.threads[i]? ≠ some (.supplyReplies k sup)) →
    repliesSent k c.trace = []
  unique : ∀ (i j k : Nat) (sup sup' : Cursor Reply), c.threads[i]? = some (.supplyReplies k sup) →
    c.threads[j]? = some (.supplyReplies k sup') → i = j

/-- The invariant of the buffer and its goroutines. -/
structure BufferInv (c : Config BufferState BufferCall BufferEvent) : Prop where
  buffer : BufferOk c.shared c.trace
  threads : ThreadsOk c

/-! ## The buffer along a step -/

section Events

variable {i j k : Nat} {request : Option Nat} {msg : Reply} {ok : Bool} {sc : SelectCase}
  {out : Option Reply}

@[simp] theorem acceptedSeqs_addReplyEvents : acceptedSeqs (addReplyEvents request msg ok) = [] := by
  cases ok <;> cases request <;> rfl

@[simp] theorem repliesSent_addReplyEvents : repliesSent j (addReplyEvents request msg ok) = [] := by
  cases ok <;> cases request <;> rfl

@[simp] theorem streamedBy_addReplyEvents : streamedBy j (addReplyEvents request msg ok) = [] := by
  cases ok <;> cases request <;> rfl

@[simp] theorem acceptedSeqs_replyEvents : acceptedSeqs (replyEvents k sc out) = [] := by
  rcases out with _ | reply <;> cases sc <;> rfl

@[simp] theorem repliesAccepted_replyEvents : repliesAccepted j (replyEvents k sc out) = [] := by
  rcases out with _ | reply <;> cases sc <;> rfl

@[simp] theorem streamedBy_replyEvents : streamedBy j (replyEvents k sc out) = [] := by
  rcases out with _ | reply <;> cases sc <;> rfl

end Events

section BufferSteps

variable {e : BufferState} {trace es : List BufferEvent}

/-- An object keeps `ObjOk` over more events when its Request and its `removed` stay and its
Replies become those accepted for it by then. -/
theorem ObjOk.extend {k : Nat} {obj obj' : RequestObj} (h : ObjOk trace k obj)
    (hmsg : obj'.msg = obj.msg) (hrep : obj'.replies.msgs = repliesAccepted k (trace ++ es))
    (hrem : obj'.removed = obj.removed) : ObjOk (trace ++ es) k obj' where
  accepted := by
    rw [hmsg]
    exact List.mem_append_left _ h.accepted
  replies := hrep
  removed := fun hr => by
    rw [hmsg]
    exact (h.removed (hrem ▸ hr)).trans (List.sublist_append_left _ _)

/-- An object keeps `ObjOk` over events that accept no Reply for it, when its Request, its Replies
and its `removed` stay. -/
theorem ObjOk.mono {k : Nat} {obj obj' : RequestObj} (h : ObjOk trace k obj)
    (hes : repliesAccepted k es = []) (hmsg : obj'.msg = obj.msg)
    (hrep : obj'.replies.msgs = obj.replies.msgs) (hrem : obj'.removed = obj.removed) :
    ObjOk (trace ++ es) k obj' :=
  h.extend hmsg (by rw [hrep, h.replies, repliesAccepted_append, hes, List.append_nil]) hrem

/-- A step that leaves the buffer as it is and accepts nothing keeps `BufferOk`. -/
theorem BufferOk.of_quiet (h : BufferOk e trace) (newAdded : List Bool)
    (hseq : acceptedSeqs es = []) (hrep : ∀ k, repliesAccepted k es = [])
    (hev : EachEvent EventOk (trace ++ es)) : BufferOk ⟨e.buf, newAdded⟩ (trace ++ es) where
  last_seq := by simpa [hseq] using h.last_seq
  last_seq_mem := by simpa [hseq] using h.last_seq_mem
  request := h.request
  held := h.held
  objs := fun k obj hobj => (h.objs k obj hobj).mono (hrep k) rfl rfl rfl
  fresh := fun k hk => by simp [hrep k, h.fresh k hk]
  events := hev

/-- A step that only changes the Replies of object `k`, to those accepted for it after the step,
and accepts no Request keeps `BufferOk`. -/
theorem BufferOk.setReplies (h : BufferOk e trace) {k : Nat} {obj : RequestObj}
    (hobj : e.buf.requests[k]? = some obj) (rs' : ReplySet) (newAdded : List Bool)
    (hseq : acceptedSeqs es = []) (hrep : ∀ j, j ≠ k → repliesAccepted j es = [])
    (hrs : rs'.msgs = repliesAccepted k (trace ++ es)) (hev : EachEvent EventOk (trace ++ es)) :
    BufferOk ⟨{ e.buf with requests := e.buf.requests.set k { obj with replies := rs' } }, newAdded⟩
      (trace ++ es) := by
  have hk : k < e.buf.requests.length := (List.getElem?_eq_some_iff.mp hobj).1
  refine {
    last_seq := by simpa [hseq] using h.last_seq
    last_seq_mem := by simpa [hseq] using h.last_seq_mem
    request := fun j hj => ?_
    held := fun j obj' hobj' hrem => ?_
    objs := fun j obj' hobj' => ?_
    fresh := fun j hj => ?_
    events := hev }
  · obtain ⟨obj₀, hobj₀, hrem⟩ := h.request j hj
    by_cases hjk : j = k
    · subst hjk
      rw [hobj] at hobj₀
      cases hobj₀
      exact ⟨_, List.getElem?_set_self hk, hrem⟩
    · exact ⟨obj₀, by rw [List.getElem?_set_ne (Ne.symm hjk)]; exact hobj₀, hrem⟩
  · rcases getElem?_set_eq_some hobj' with ⟨rfl, rfl⟩ | ⟨-, hobj'⟩
    · exact h.held j obj hobj hrem
    · exact h.held j obj' hobj' hrem
  · rcases getElem?_set_eq_some hobj' with ⟨rfl, rfl⟩ | ⟨hjk, hobj'⟩
    · exact (h.objs j obj hobj).extend rfl hrs rfl
    · exact (h.objs j obj' hobj').mono (hrep j hjk) rfl rfl rfl
  · have hjk : j ≠ k := by simp at hj; omega
    simp only at hj
    rw [List.length_set] at hj
    simp [h.fresh j hj, hrep j hjk]

/-- `AddRequest` that rejects its Request: its sequence is 0 or not above one accepted before. -/
theorem BufferOk.reject (h : BufferOk e trace) {msg : Request}
    (hadd : e.buf.addRequest msg = none) : BufferOk e (trace ++ [.rejected msg]) := by
  have hle := RequestBuffer.addRequest_eq_none hadd
  refine h.of_quiet e.newAdded rfl (fun _ => rfl) (h.events.snoc ?_)
  show msg.sequence = 0 ∨ ∃ s ∈ acceptedSeqs trace, msg.sequence ≤ s
  rcases h.last_seq_mem with h0 | hmem
  · exact .inl (by omega)
  · exact .inr ⟨_, hmem, hle⟩

/-- `AddRequest` that accepts its Request: its sequence is above `lastSeq`, so above 0 and above
every one accepted before, and its object is the new last one, which no Reply was accepted for. -/
theorem BufferOk.accept (h : BufferOk e trace) {msg : Request} {buf : RequestBuffer} {k : Nat}
    (hreq : e.buf.request = none) (hadd : e.buf.addRequest msg = some (buf, k))
    (newAdded : List Bool) : BufferOk ⟨buf, newAdded⟩ (trace ++ [.accepted msg k]) := by
  obtain ⟨hlt, rfl, rfl⟩ := RequestBuffer.addRequest_eq_some hadd
  -- the buffer was empty, so every object before is removed
  have hold : ∀ j (obj : RequestObj), e.buf.requests[j]? = some obj → obj.removed = true :=
    fun j obj hobj => by
    by_contra hrem
    have hj := h.held j obj hobj (by simpa using hrem)
    rw [hreq] at hj
    cases hj
  have hseq : acceptedSeqs [BufferEvent.accepted msg e.buf.requests.length] = [msg.sequence] := rfl
  refine {
    last_seq := fun s hs => ?_
    last_seq_mem := .inr (by simp [hseq])
    request := fun j hj => ?_
    held := fun j obj hobj hrem => ?_
    objs := fun j obj hobj => ?_
    fresh := fun j hj => ?_
    events := h.events.snoc ?_ }
  · rw [acceptedSeqs_append, hseq, List.mem_append, List.mem_singleton] at hs
    show s ≤ msg.sequence
    rcases hs with hs | rfl
    · exact (h.last_seq s hs).trans hlt.le
    · exact le_rfl
  · cases hj
    exact ⟨newRequest msg, by simp, rfl⟩
  · rcases getElem?_append_singleton_eq_some hobj with hobj | ⟨rfl, -⟩
    · rw [hold j obj hobj] at hrem
      cases hrem
    · rfl
  · rcases getElem?_append_singleton_eq_some hobj with hobj | ⟨rfl, rfl⟩
    · exact (h.objs j obj hobj).mono rfl rfl rfl rfl
    · exact {
        accepted := List.mem_append_right _ (List.mem_singleton_self _)
        replies := by
          rw [repliesAccepted_append, h.fresh _ le_rfl]
          rfl
        removed := fun hr => by simp [newRequest] at hr }
  · simp only [List.length_append, List.length_singleton] at hj
    rw [repliesAccepted_append, h.fresh j (by omega)]
    rfl
  · show 0 < msg.sequence ∧ ∀ s ∈ acceptedSeqs trace, s < msg.sequence
    exact ⟨by omega, fun s hs => (h.last_seq s hs).trans_lt hlt⟩

/-- `AddReply`: a Reply it accepts is appended to the Replies of the object it read, and is the
next Reply accepted for that object. -/
theorem BufferOk.addReply (h : BufferOk e trace) (request : Option Nat) (msg : Reply) :
    BufferOk { e with buf := (e.buf.addReply request msg).2 }
      (trace ++ addReplyEvents request msg (e.buf.addReply request msg).1) := by
  rcases hr : e.buf.addReply request msg with ⟨ok, rb'⟩
  cases ok with
  | false =>
    obtain rfl := RequestBuffer.addReply_eq_false hr
    simpa [addReplyEvents] using h
  | true =>
    obtain ⟨k, obj, rs', rfl, hobj, -, hmsgs, -, rfl⟩ := RequestBuffer.addReply_eq_true hr
    have hes : addReplyEvents (some k) msg true = [.replyAccepted k msg] := rfl
    rw [hes]
    refine h.setReplies hobj rs' e.newAdded rfl (fun j hjk => ?_) ?_ (h.events.snoc trivial)
    · simp [repliesAccepted, BufferEvent.replyAcceptedTo, Ne.symm hjk]
    · rw [hmsgs, (h.objs k obj hobj).replies]
      simp [repliesAccepted, BufferEvent.replyAcceptedTo]

/-- `RemoveRequest`: the object it removes was accepted before the call. -/
theorem BufferOk.remove (h : BufferOk e trace) (seq : Nat) :
    BufferOk { e with buf := e.buf.removeRequest seq } (trace ++ [.removeCalled seq]) := by
  have hseq : acceptedSeqs [BufferEvent.removeCalled seq] = [] := rfl
  rcases RequestBuffer.removeRequest_cases e.buf seq with hrm | ⟨k, obj, hreq, hobj, rfl, hrm⟩
  · rw [hrm]
    exact h.of_quiet e.newAdded hseq (fun _ => rfl) (h.events.snoc trivial)
  · rw [hrm]
    refine {
      last_seq := by simpa [hseq] using h.last_seq
      last_seq_mem := by simpa [hseq] using h.last_seq_mem
      request := fun j hj => by cases hj
      held := fun j obj' hobj' hrem => ?_
      objs := fun j obj' hobj' => ?_
      fresh := fun j hj => ?_
      events := h.events.snoc trivial }
    · rcases getElem?_set_eq_some hobj' with ⟨-, rfl⟩ | ⟨hjk, hobj'⟩
      · cases hrem
      · have hj := h.held j obj' hobj' hrem
        rw [hreq] at hj
        exact absurd (Option.some.inj hj).symm hjk
    · rcases getElem?_set_eq_some hobj' with ⟨rfl, rfl⟩ | ⟨-, hobj'⟩
      · have hok := h.objs j obj hobj
        exact {
          accepted := List.mem_append_left _ hok.accepted
          replies := by
            rw [repliesAccepted_append, ← hok.replies]
            exact (List.append_nil _).symm
          removed := fun _ => (List.singleton_sublist.mpr hok.accepted).append (List.Sublist.refl _) }
      · exact (h.objs j obj' hobj').mono rfl rfl rfl rfl
    · simp only [List.length_set] at hj
      rw [repliesAccepted_append, h.fresh j hj]
      rfl

/-- A step of `supplyRequests` changes only the notification channels; a Request it sends was
accepted before. -/
theorem BufferOk.supplierMove (h : BufferOk e trace) {i : Nat} {sup sup' : RequestSupplier}
    {newAdded : List Bool} (hm : SupplierMove i e sup newAdded sup' es) :
    BufferOk ⟨e.buf, newAdded⟩ (trace ++ es) := by
  cases hm with
  | send _ hobj =>
    refine h.of_quiet _ rfl (fun _ => rfl) (h.events.snoc ?_)
    exact show ∃ k, _ from ⟨_, (h.objs _ _ hobj).accepted⟩
  | _ => exact h.of_quiet _ rfl (fun _ => rfl) (by simpa using h.events)

/-- A step of `supplyReplies` changes only the notification channel of its object's Replies; it
closes its channel only once `removed` is closed. -/
theorem BufferOk.supplyReplies (h : BufferOk e trace) {k : Nat} {obj : RequestObj}
    {sup sup' : Cursor Reply} {sc : SelectCase} {note : Bool} {out : Option Reply}
    (hobj : e.buf.requests[k]? = some obj)
    (hs : Cursor.step obj.replies.msgs obj.replies.newAdded obj.removed sup sc = some (note, sup', out)) :
    BufferOk { e with buf := e.buf.setNote k note } (trace ++ replyEvents k sc out) := by
  rw [RequestBuffer.setNote_eq_set hobj]
  refine h.setReplies hobj _ e.newAdded (by simp) (fun _ _ => by simp) ?_ ?_
  · simp [(h.objs k obj hobj).replies]
  · rcases out with _ | reply
    · cases sc with
      | first => simpa [replyEvents] using h.events
      | cancel =>
        -- the `cancel` case is `<-removed`, closed by a `RemoveRequest` with the sequence
        have hrem := Cursor.step_cancel hs
        exact h.events.snoc (show ∃ msg, _ from ⟨obj.msg, (h.objs k obj hobj).removed hrem⟩)
    · exact h.events.snoc trivial

/-- Every step keeps `BufferOk`. -/
theorem BufferMove.bufferOk {i : Nat} {t t' : BufferCall} {e' : BufferState}
    (hm : BufferMove i e t e' t' es) (h : BufferOk e trace) : BufferOk e' (trace ++ es) := by
  cases hm with
  | reject _ hadd => exact h.reject hadd
  | accept hreq hadd => exact h.accept hreq hadd _
  | read => simpa using h
  | add => exact h.addReply _ _
  | remove => exact h.remove _
  | supplyRequests hs => exact h.supplierMove hs
  | supplyReplies hobj hs => exact h.supplyReplies hobj hs

end BufferSteps

/-! ## The goroutines along a step -/

section MoveFacts

variable {i : Nat} {e e' : BufferState} {t t' : BufferCall} {es : List BufferEvent}

/-- Only `supplyRequests` of goroutine `i` sends on the channel of goroutine `i`. -/
theorem BufferMove.streamedBy_eq_nil (hm : BufferMove i e t e' t' es) {j : Nat}
    (hj : j ≠ i ∨ ∀ sup, t ≠ .supplyRequests sup) : streamedBy j es = [] := by
  cases hm with
  | add => exact streamedBy_addReplyEvents
  | supplyRequests hs =>
    cases hs with
    | send _ _ =>
      rcases hj with hj | hj
      · simp [streamedBy, BufferEvent.streamedOn, Ne.symm hj]
      · exact absurd rfl (hj _)
    | _ => rfl
  | supplyReplies _ _ => exact streamedBy_replyEvents
  | _ => rfl

/-- Only `supplyReplies` of object `k` sends on the channel of object `k`. -/
theorem BufferMove.repliesSent_eq_nil (hm : BufferMove i e t e' t' es) {k : Nat}
    (ht : ∀ sup, t ≠ .supplyReplies k sup) : repliesSent k es = [] := by
  cases hm with
  | add => exact repliesSent_addReplyEvents
  | supplyRequests hs => cases hs <;> rfl
  | @supplyReplies k' sup _ _ sc _ out _ _ =>
    exact repliesSent_replyEvents_of_ne (fun hk => ht sup (by rw [hk])) sc out
  | _ => rfl

/-- How a step leaves an object other than the one of its own `supplyReplies`: with its Request,
and with its Replies, or with one Reply more and a notification. -/
theorem BufferMove.obj_other (hm : BufferMove i e t e' t' es) {k : Nat}
    (ht : ∀ sup, t ≠ .supplyReplies k sup) {obj : RequestObj} (hobj : e.buf.requests[k]? = some obj) :
    ∃ obj', e'.buf.requests[k]? = some obj' ∧ obj'.msg = obj.msg ∧ (obj'.replies = obj.replies ∨
      ∃ x, obj'.replies.msgs = obj.replies.msgs ++ [x] ∧ obj'.replies.newAdded = true) := by
  cases hm with
  | accept _ hadd =>
    obtain ⟨-, -, rfl⟩ := RequestBuffer.addRequest_eq_some hadd
    refine ⟨obj, ?_, rfl, .inl rfl⟩
    rw [List.getElem?_append_left (List.getElem?_eq_some_iff.mp hobj).1, hobj]
  | add =>
    obtain ⟨obj', hobj', hmsg, hrep⟩ := RequestBuffer.addReply_getElem?_of hobj _ _
    exact ⟨obj', hobj', hmsg, hrep.imp id fun h => ⟨_, h.1, h.2.1⟩⟩
  | remove =>
    obtain ⟨obj', hobj', hmsg, hrep⟩ := RequestBuffer.removeRequest_getElem?_of hobj _
    exact ⟨obj', hobj', hmsg, .inl hrep⟩
  | @supplyReplies k' sup _ _ _ _ _ _ _ =>
    have hkk : k ≠ k' := fun hkk => ht sup (by rw [hkk])
    exact ⟨obj, by rw [RequestBuffer.setNote_getElem?_of_ne hkk, hobj], rfl, .inl rfl⟩
  | _ => exact ⟨obj, hobj, rfl, .inl rfl⟩

/-- No step changes the Request of an object. -/
theorem BufferMove.obj_msg (hm : BufferMove i e t e' t' es) {k : Nat} {obj : RequestObj}
    (hobj : e.buf.requests[k]? = some obj) :
    ∃ obj', e'.buf.requests[k]? = some obj' ∧ obj'.msg = obj.msg := by
  by_cases ht : ∃ sup, t = .supplyReplies k sup
  · obtain ⟨sup, rfl⟩ := ht
    cases hm with
    | supplyReplies hobj' _ =>
      rw [hobj] at hobj'
      cases hobj'
      exact ⟨_, RequestBuffer.setNote_getElem?_self hobj _, rfl⟩
  · obtain ⟨obj', hobj', hmsg, -⟩ := hm.obj_other (fun sup h => ht ⟨sup, h⟩) hobj
    exact ⟨obj', hobj', hmsg⟩

end MoveFacts

section Suppliers

variable {e : BufferState} {sent : List Request} {sup : RequestSupplier}

/-- A step of another goroutine keeps `SupplierOk`: the Request offered stays in its object. -/
theorem SupplierOk.frame (h : SupplierOk e sent sup) {e' : BufferState}
    (hobj : ∀ (k : Nat) (obj : RequestObj), e.buf.requests[k]? = some obj →
      ∃ obj' : RequestObj, e'.buf.requests[k]? = some obj' ∧ obj'.msg = obj.msg) :
    SupplierOk e' sent sup where
  increasing := h.increasing
  le_last := h.le_last
  offer := fun k hk => by
    obtain ⟨obj, hobj₀, hlt⟩ := h.offer k hk
    obtain ⟨obj', hobj', hmsg⟩ := hobj k obj hobj₀
    exact ⟨obj', hobj', hmsg ▸ hlt⟩

/-- A step of `supplyRequests` that sends nothing, keeps `lastSeq` and offers nothing keeps
`SupplierOk`. -/
theorem SupplierOk.idle (h : SupplierOk e sent sup) (newAdded : List Bool) {sup' : RequestSupplier}
    (hlast : sup'.lastSeq = sup.lastSeq) (hpc : ∀ k, sup'.pc ≠ .offer k) :
    SupplierOk ⟨e.buf, newAdded⟩ sent sup' where
  increasing := h.increasing
  le_last := fun msg hmsg => hlast ▸ h.le_last msg hmsg
  offer := fun k hk => absurd hk (hpc k)

/-- The steps of `supplyRequests` keep `SupplierOk`: it sends only a Request above `lastSeq`,
which it then makes its `lastSeq`. -/
theorem SupplierOk.move (h : SupplierOk e sent sup) {i : Nat} {newAdded : List Bool}
    {sup' : RequestSupplier} {es : List BufferEvent} (hm : SupplierMove i e sup newAdded sup' es) :
    SupplierOk ⟨e.buf, newAdded⟩ (sent ++ streamedBy i es) sup' := by
  cases hm with
  | offer _ _ hobj hlt =>
    refine { increasing := ?_, le_last := ?_, offer := fun k hk => ?_ }
    · simpa using h.increasing
    · simpa using h.le_last
    · cases hk
      exact ⟨_, hobj, hlt⟩
  | @send k obj hpc hobj =>
    obtain ⟨obj₀, hobj₀, hlt⟩ := h.offer k hpc
    rw [hobj] at hobj₀
    cases hobj₀
    have hsent : streamedBy i [BufferEvent.streamed i obj.msg] = [obj.msg] := by
      simp [streamedBy, BufferEvent.streamedOn]
    rw [hsent]
    refine { increasing := ?_, le_last := ?_, offer := fun k hk => by cases hk }
    · refine List.pairwise_append.mpr ⟨h.increasing, List.pairwise_singleton _ _, ?_⟩
      intro a ha b hb
      rw [List.mem_singleton.mp hb]
      exact (h.le_last a ha).trans_lt hlt
    · intro a ha
      rcases List.mem_append.mp ha with ha | ha
      · exact (h.le_last a ha).trans hlt.le
      · rw [List.mem_singleton.mp ha]
  | _ =>
    rw [streamedBy_nil, List.append_nil]
    exact h.idle _ rfl (by simp)

end Suppliers

section Threads

variable {c : Config BufferState BufferCall BufferEvent}

/-- A goroutine's step keeps `ThreadsOk`. -/
theorem ThreadsOk.move (h : ThreadsOk c) {i : Nat} {t t' : BufferCall} {e' : BufferState}
    {es : List BufferEvent} (ht : c.threads[i]? = some t) (hm : BufferMove i c.shared t e' t' es) :
    ThreadsOk ⟨e', c.threads.set i t', c.trace ++ es⟩ := by
  have hi : i < c.threads.length := (List.getElem?_eq_some_iff.mp ht).1
  have hself : (c.threads.set i t')[i]? = some t' := List.getElem?_set_self hi
  refine ⟨?suppliers, ?silent, ?repliers, ?quiet, ?unique⟩
  case suppliers =>
    intro j sup' hj
    rcases getElem?_set_eq_some hj with ⟨rfl, rfl⟩ | ⟨hji, hj⟩
    · -- the goroutine that moved is a `supplyRequests`, which took its own step
      cases hm with
      | supplyRequests hs => simpa using (h.suppliers j _ ht).move hs
    · rw [streamedBy_append, hm.streamedBy_eq_nil (.inl hji), List.append_nil]
      exact (h.suppliers j sup' hj).frame fun _ _ => hm.obj_msg
  case silent =>
    intro j hj
    rw [streamedBy_append]
    by_cases hji : j = i
    · subst hji
      -- the goroutine that moved was no `supplyRequests`, as it is none after its step
      have hnot : ∀ sup, t ≠ .supplyRequests sup := by
        rintro sup rfl
        cases hm with
        | supplyRequests _ => exact hj _ hself
      rw [h.silent j fun sup hs => hnot sup (Option.some.inj (ht.symm.trans hs)),
        hm.streamedBy_eq_nil (.inr hnot)]
      rfl
    · simp only [List.getElem?_set_ne (Ne.symm hji)] at hj
      rw [h.silent j hj, hm.streamedBy_eq_nil (.inl hji)]
      rfl
  case repliers =>
    intro j k sup' hj
    rcases getElem?_set_eq_some hj with ⟨rfl, rfl⟩ | ⟨hji, hj⟩
    · -- `supplyReplies` of `k` took its own step, or the `AddRequest` that made `k` started it
      cases hm with
      | @supplyReplies _ sup _ obj sc note out hobj hs =>
        obtain ⟨obj₀, hobj₀, hok⟩ := h.repliers j k sup ht
        rw [hobj] at hobj₀
        cases hobj₀
        refine ⟨_, RequestBuffer.setNote_getElem?_self hobj note, ?_⟩
        rw [repliesSent_append, repliesSent_replyEvents]
        exact hok.move (Cursor.step_move hs)
      | @accept msg _ _ _ hadd =>
        obtain ⟨-, rfl, rfl⟩ := RequestBuffer.addRequest_eq_some hadd
        refine ⟨newRequest msg, by simp, ?_⟩
        -- no goroutine is `supplyReplies` of an object not made yet
        have hq : repliesSent c.shared.buf.requests.length c.trace = [] :=
          h.quiet _ fun j' sup'' hj' => by
            obtain ⟨obj, hobj, -⟩ := h.repliers j' _ sup'' hj'
            simp at hobj
        rw [repliesSent_append, hq]
        exact Cursor.ok_start _ _
    · -- another goroutine's step leaves this one's object, or adds a Reply to it
      have hnot : ∀ sup, t ≠ .supplyReplies k sup := by
        rintro sup rfl
        exact hji (h.unique j i k sup' sup hj ht)
      obtain ⟨obj, hobj, hok⟩ := h.repliers j k sup' hj
      obtain ⟨obj', hobj', -, hrep⟩ := hm.obj_other hnot hobj
      refine ⟨obj', hobj', ?_⟩
      rw [repliesSent_append, hm.repliesSent_eq_nil hnot, List.append_nil]
      rcases hrep with hrep | ⟨x, hmsgs, hnote⟩
      · rw [hrep]
        exact hok
      · rw [hmsgs, hnote]
        exact hok.append x
  case quiet =>
    intro k hk
    -- the goroutine that moved was no `supplyReplies` of `k`, as it is none after its step
    have hnot : ∀ sup, t ≠ .supplyReplies k sup := by
      rintro sup rfl
      cases hm with
      | supplyReplies _ _ => exact hk i _ hself
    rw [repliesSent_append, hm.repliesSent_eq_nil hnot, List.append_nil]
    refine h.quiet k fun j sup hj => ?_
    by_cases hji : j = i
    · subst hji
      exact hnot sup (Option.some.inj (ht.symm.trans hj))
    · exact hk j sup (by rw [List.getElem?_set_ne (Ne.symm hji)]; exact hj)
  case unique =>
    -- a `supplyReplies` of `k` after the step that is the goroutine that moved is the only one
    have hnew : ∀ k sup sup' j, t' = .supplyReplies k sup →
        c.threads[j]? = some (.supplyReplies k sup') → j = i := by
      intro k sup sup' j htk hj
      subst htk
      cases hm with
      | supplyReplies _ _ => exact h.unique j i k sup' _ hj ht
      | accept _ hadd =>
        obtain ⟨-, rfl, -⟩ := RequestBuffer.addRequest_eq_some hadd
        obtain ⟨obj, hobj, -⟩ := h.repliers j _ sup' hj
        simp at hobj
    intro j₁ j₂ k sup₁ sup₂ h₁ h₂
    rcases getElem?_set_eq_some h₁ with ⟨hj₁, ht₁⟩ | ⟨-, h₁⟩ <;>
      rcases getElem?_set_eq_some h₂ with ⟨hj₂, ht₂⟩ | ⟨-, h₂⟩
    · rw [hj₁, hj₂]
    · rw [hj₁, hnew k sup₁ sup₂ j₂ ht₁.symm h₂]
    · rw [hj₂, hnew k sup₂ sup₁ j₁ ht₂.symm h₁]
    · exact h.unique j₁ j₂ k sup₁ sup₂ h₁ h₂

/-- A goroutine that starts keeps `ThreadsOk`: a `supplyRequests` starts with nothing sent. -/
theorem ThreadsOk.spawn (h : ThreadsOk c) {t : BufferCall} (ht : bufferProgram.start t) :
    ThreadsOk ⟨c.shared, c.threads ++ [t], c.trace⟩ := by
  -- the goroutines before keep their indices
  have hold : ∀ j u, c.threads[j]? = some u → (c.threads ++ [t])[j]? = some u := fun j u hj => by
    rw [List.getElem?_append_left (List.getElem?_eq_some_iff.mp hj).1]
    exact hj
  refine ⟨?suppliers, ?silent, ?repliers, ?quiet, ?unique⟩
  case suppliers =>
    intro j sup hj
    rcases getElem?_append_singleton_eq_some hj with hj | ⟨rfl, rfl⟩
    · exact h.suppliers j sup hj
    · obtain rfl : sup = RequestSupplier.start := ht
      rw [h.silent _ fun sup hs => by simp at hs]
      exact {
        increasing := List.Pairwise.nil
        le_last := fun _ hm => absurd hm List.not_mem_nil
        offer := fun _ hk => by cases hk }
  case silent => exact fun j hj => h.silent j fun sup hs => hj sup (hold j _ hs)
  case repliers =>
    intro j k sup hj
    rcases getElem?_append_singleton_eq_some hj with hj | ⟨rfl, rfl⟩
    · exact h.repliers j k sup hj
    · exact (ht : False).elim
  case quiet => exact fun k hk => h.quiet k fun j sup hs => hk j sup (hold j _ hs)
  case unique =>
    intro j₁ j₂ k sup₁ sup₂ h₁ h₂
    rcases getElem?_append_singleton_eq_some h₁ with h₁ | ⟨-, rfl⟩
    · rcases getElem?_append_singleton_eq_some h₂ with h₂ | ⟨-, rfl⟩
      · exact h.unique j₁ j₂ k sup₁ sup₂ h₁ h₂
      · exact (ht : False).elim
    · exact (ht : False).elim

end Threads

/-! ## Every run -/

/-- The buffer starts well, with no goroutine and nothing done. -/
theorem bufferInv_init : BufferInv (Config.initial BufferState.new) where
  buffer := {
    last_seq := fun _ hs => absurd hs List.not_mem_nil
    last_seq_mem := .inl rfl
    request := fun _ hk => by cases hk
    held := fun _ _ hobj _ => by simp [Config.initial, BufferState.new, RequestBuffer.new] at hobj
    objs := fun _ _ hobj => by simp [Config.initial, BufferState.new, RequestBuffer.new] at hobj
    fresh := fun _ _ => rfl
    events := eachEvent_nil _ }
  threads := {
    suppliers := fun _ _ hj => by simp [Config.initial] at hj
    silent := fun _ _ => rfl
    repliers := fun _ _ _ hj => by simp [Config.initial] at hj
    quiet := fun _ _ => rfl
    unique := fun _ _ _ _ _ hj => by simp [Config.initial] at hj }

theorem bufferInv_inductive :
    Inductive bufferProgram.Step (Config.initial BufferState.new) BufferInv where
  init := bufferInv_init
  step := fun _ _ h hs => by
    cases hs with
    | spawn ht => exact ⟨h.buffer, h.threads.spawn ht⟩
    | move ht hs =>
      obtain ⟨ch, hs⟩ := hs
      have hm := bufferStep_move hs
      exact ⟨hm.bufferOk h.buffer, h.threads.move ht hm⟩

/-- `BufferInv` holds in every reachable configuration. -/
theorem bufferInv_reachable {c : Config BufferState BufferCall BufferEvent}
    (hc : bufferProgram.Reachable BufferState.new c) : BufferInv c :=
  bufferInv_inductive.reachable hc

/-- **The request buffer under any interleaving of its calls.** In every reachable configuration:
at most one request object is not removed; `AddRequest` accepted a Request exactly when its
sequence was above 0 and above every one accepted before; each `supplyRequests` sent Requests of
strictly increasing sequence, so none twice, each accepted before it was sent; each
`supplyReplies` sent the Replies accepted for its object, each once, in the order accepted; and it
closed its channel only after a `RemoveRequest` with its Request's sequence, made after the
Request was accepted. -/
theorem requestBuffer_consistent {c : Config BufferState BufferCall BufferEvent}
    (hc : bufferProgram.Reachable BufferState.new c) :
    (∀ (k k' : Nat) (obj obj' : RequestObj), c.shared.buf.requests[k]? = some obj →
      c.shared.buf.requests[k']? = some obj' → obj.removed = false → obj'.removed = false →
      k = k') ∧
    (∀ n msg k, c.trace[n]? = some (.accepted msg k) →
      0 < msg.sequence ∧ ∀ s ∈ acceptedSeqs (c.trace.take n), s < msg.sequence) ∧
    (∀ n msg, c.trace[n]? = some (.rejected msg) →
      msg.sequence = 0 ∨ ∃ s ∈ acceptedSeqs (c.trace.take n), msg.sequence ≤ s) ∧
    (∀ i, (streamedBy i c.trace).Pairwise (fun a b => a.sequence < b.sequence) ∧
      (streamedBy i c.trace).Nodup) ∧
    (∀ n i msg, c.trace[n]? = some (.streamed i msg) →
      ∃ k, BufferEvent.accepted msg k ∈ c.trace.take n) ∧
    (∀ k, repliesSent k c.trace <+: repliesAccepted k c.trace ∧ (repliesAccepted k c.trace).Nodup) ∧
    (∀ n k, c.trace[n]? = some (.replyClosed k) →
      ∃ msg, List.Sublist [BufferEvent.accepted msg k, .removeCalled msg.sequence] (c.trace.take n)) := by
  have hinv := bufferInv_reachable hc
  have hb := hinv.buffer
  have ht := hinv.threads
  -- each `supplyRequests` sent in strictly increasing order, and a goroutine of another kind nothing
  have hinc : ∀ i, (streamedBy i c.trace).Pairwise (fun a b => a.sequence < b.sequence) := by
    intro i
    by_cases hi : ∃ sup, c.threads[i]? = some (.supplyRequests sup)
    · obtain ⟨sup, hi⟩ := hi
      exact (ht.suppliers i sup hi).increasing
    · rw [ht.silent i fun sup hs => hi ⟨sup, hs⟩]
      exact List.Pairwise.nil
  refine ⟨?_, fun n msg k hn => hb.events n _ hn, fun n msg hn => hb.events n _ hn,
    fun i => ⟨hinc i, ?_⟩, fun n i msg hn => hb.events n _ hn, fun k => ⟨?_, ?_⟩,
    fun n k hn => hb.events n _ hn⟩
  · intro k k' obj obj' hobj hobj' hrem hrem'
    have hk := hb.held k obj hobj hrem
    rw [hb.held k' obj' hobj' hrem'] at hk
    exact (Option.some.inj hk).symm
  · refine (hinc i).imp fun hlt heq => ?_
    subst heq
    exact lt_irrefl _ hlt
  · -- what `supplyReplies` of `k` sent is a prefix of its object's Replies (`System.Cursor`)
    by_cases hk : ∃ (i : Nat) (sup : Cursor Reply), c.threads[i]? = some (.supplyReplies k sup)
    · obtain ⟨i, sup, hi⟩ := hk
      obtain ⟨obj, hobj, hok⟩ := ht.repliers i k sup hi
      rw [← (hb.objs k obj hobj).replies]
      exact hok.isPrefix_sent
    · rw [ht.quiet k fun i sup hs => hk ⟨i, sup, hs⟩]
      exact List.nil_prefix
  · -- the Replies of an object are of distinct replicas
    cases hobj : c.shared.buf.requests[k]? with
    | none =>
      rw [hb.fresh k (List.getElem?_eq_none_iff.mp hobj)]
      exact List.nodup_nil
    | some obj =>
      rw [← (hb.objs k obj hobj).replies]
      exact obj.replies.nodup.of_map _

/-! ## A run -/

/-- The start test of `bufferProgram`, computed. -/
def BufferCall.isStart : BufferCall → Bool
  | .addRequest _ | .removeRequest _ => true
  | .addReply _ pc => pc == .read
  | .supplyRequests sup => sup == RequestSupplier.start
  | .supplyReplies .. | .returned => false

/-- A scheduler for `bufferProgram`: start a goroutine, or move one in a case. -/
def bufferSched (c : Config BufferState BufferCall BufferEvent)
    (x : Program.Choice BufferCall × BufferChoice) :
    Option (Config BufferState BufferCall BufferEvent) :=
  Program.schedStep BufferCall.isStart (fun i e t => bufferStep i e t x.2) c x.1

/-- The scheduler takes only steps of `bufferProgram`. -/
theorem bufferSched_sound (c : Config BufferState BufferCall BufferEvent)
    (x : Program.Choice BufferCall × BufferChoice) (c' : Config BufferState BufferCall BufferEvent)
    (h : bufferSched c x = some c') : bufferProgram.Step c c' := by
  refine Program.schedStep_sound (P := bufferProgram) (fun t ht => ?_)
    (fun i e t e' t' es hs => ⟨x.2, hs⟩) c x.1 c' h
  cases t <;> simp_all [BufferCall.isStart, bufferProgram]

/-- A stream, a Request with sequence 1 accepted and streamed, a Reply accepted for it and
forwarded, the Request removed and its channel closed, then a second Request with sequence 1
rejected. -/
def bufferSchedule : List (Program.Choice BufferCall × BufferChoice) :=
  [(.spawn (.supplyRequests RequestSupplier.start), .first), (.move 0, .first),
    (.spawn (.addRequest (Messages.newRequest 0 1 [])), .first), (.move 1, .first),
    (.move 0, .first), (.move 0, .first),
    (.spawn (.addReply (newReply 0 0 1 []) .read), .first), (.move 2, .first), (.move 2, .first),
    (.move 1, .first), (.move 1, .first),
    (.spawn (.removeRequest 1), .first), (.move 3, .first),
    (.move 1, .first), (.move 1, .cancel),
    (.spawn (.addRequest (Messages.newRequest 0 1 [])), .first), (.move 4, .first)]

/-- The configuration after `bufferSchedule`. -/
def bufferRun : Config BufferState BufferCall BufferEvent :=
  (runChoices bufferSched (Config.initial BufferState.new) bufferSchedule).getD
    (Config.initial BufferState.new)

example : bufferRun.trace =
    [.accepted (Messages.newRequest 0 1 []) 0, .streamed 0 (Messages.newRequest 0 1 []),
      .replyAccepted 0 (newReply 0 0 1 []), .replySent 0 (newReply 0 0 1 []), .removeCalled 1,
      .replyClosed 0, .rejected (Messages.newRequest 0 1 [])] := by
  decide

theorem bufferRun_reachable : bufferProgram.Reachable BufferState.new bufferRun := by
  have hrun : runChoices bufferSched (Config.initial BufferState.new) bufferSchedule =
      some bufferRun := rfl
  exact reflTransGen_of_runChoices bufferSched_sound bufferSchedule hrun

theorem requestBuffer_consistent_run :
    (∀ (k k' : Nat) (obj obj' : RequestObj), bufferRun.shared.buf.requests[k]? = some obj →
      bufferRun.shared.buf.requests[k']? = some obj' → obj.removed = false →
      obj'.removed = false → k = k') ∧
    (∀ n msg k, bufferRun.trace[n]? = some (.accepted msg k) →
      0 < msg.sequence ∧ ∀ s ∈ acceptedSeqs (bufferRun.trace.take n), s < msg.sequence) ∧
    (∀ n msg, bufferRun.trace[n]? = some (.rejected msg) →
      msg.sequence = 0 ∨ ∃ s ∈ acceptedSeqs (bufferRun.trace.take n), msg.sequence ≤ s) ∧
    (∀ i, (streamedBy i bufferRun.trace).Pairwise (fun a b => a.sequence < b.sequence) ∧
      (streamedBy i bufferRun.trace).Nodup) ∧
    (∀ n i msg, bufferRun.trace[n]? = some (.streamed i msg) →
      ∃ k, BufferEvent.accepted msg k ∈ bufferRun.trace.take n) ∧
    (∀ k, repliesSent k bufferRun.trace <+: repliesAccepted k bufferRun.trace ∧
      (repliesAccepted k bufferRun.trace).Nodup) ∧
    (∀ n k, bufferRun.trace[n]? = some (.replyClosed k) →
      ∃ msg, List.Sublist [BufferEvent.accepted msg k, .removeCalled msg.sequence]
        (bufferRun.trace.take n)) :=
  requestBuffer_consistent bufferRun_reachable

end MinBFT.Client
