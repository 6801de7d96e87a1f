import MinBFT.Client.RequestBuffer
import MinBFT.Core.Validate
import MinBFT.System.Threads
import MinBFT.System.Cursor

/-!
# Client requests and their results

The client of `client/request.go` and `client/message-handling.go` as a concurrent program
(`System.Threads`) over its request buffer (`RequestBuffer`):

* a goroutine that handles a Reply from a replica connection (`makeReplyMessageHandler`):
  `makeReplyAuthenticator`, then `AddReply`, which reads `rb.request` and adds the Reply to that
  request's Replies after releasing the lock;
* a call `Request(operation)` (`handleRequest`), with the Request message its preparer made:
  `AddRequest`, once the buffer is free; then the request's two goroutines, `supplyReplies`
  (the forwarding loop of `System.Cursor` over the request's Replies, cancelled by `removed`)
  and `collectReplies`, which meet on the unbuffered channel `replyChan`.

The messages that arrive on a connection are any Replies (a faulty replica sends what it
likes); what is not a Reply is dropped before. The sequence numbers of the Requests are any:
`AddRequest` rejects one not above `lastSeq`, and `submitRequest` then panics. A panic in any
goroutine stops the client (`crashed`).

## Results

* `clientInv_inductive`: the invariant `ClientInv` holds in every reachable configuration.
* `collectReplies_result`: the result delivered for a Request with sequence `s` is the result of
  `f + 1` Replies of distinct replicas that arrived, passed `makeReplyAuthenticator` and have
  sequence `s`, when SHA-256 has no collision among the results of authenticated Replies.
-/

namespace MinBFT.Client

open MinBFT.Messages MinBFT.System MinBFT.Core

/-- What a client takes from outside: its ID, the number `f` of faulty replicas it tolerates,
SHA-256, and the verification of `api.Authenticator`. -/
structure ClientParams where
  id : Nat
  f : Nat
  sha256 : Bytes → Bytes
  verifyTag : AuthenRole → Nat → Bytes → Bytes → Except String Unit

variable (P : ClientParams)

/-- `makeReplyAuthenticator`: the Reply is for this client, and its replica's signature verifies. -/
def replyAuthenticator (reply : Reply) : Outcome (Except String Unit) :=
  if reply.clientID ≠ P.id then .ok (.error "Client ID mismatch")
  else verifyMessageSignature P.sha256 P.verifyTag (.reply reply)

/-! ## The goroutines -/

/-- Where `collectReplies` is: taking Replies from the channel, about to call the remover for a
Reply that made its result's count exceed `f`, about to send the result, or returned. -/
inductive CollectorPc where
  | receiving
  | removing (reply : Reply)
  | sending (result : Bytes)
  | returned

/-- `collectReplies`: where it is, and `matchingResults`, the number of Replies taken for each
hash of a result. -/
structure Collector where
  pc : CollectorPc
  matchingResults : Bytes → Nat

/-- `collectReplies` before its first Reply. -/
def Collector.start : Collector := ⟨.receiving, fun _ => 0⟩

/-- The body of the loop of `collectReplies` for a Reply taken from the channel: count it under the
hash of its result, and stop when that count exceeds `f`. -/
def Collector.receive (col : Collector) (reply : Reply) : Collector :=
  let hash := P.sha256 reply.result
  let count := col.matchingResults hash + 1
  { pc := if P.f < count then .removing reply else .receiving
    matchingResults := Function.update col.matchingResults hash count }

/-- Where the goroutine of `makeReplyMessageHandler` is: before `makeReplyAuthenticator`, before
`AddReply` reads the buffer, or after, with the request it read. -/
inductive ReplyPc where
  | authenticate
  | read
  | add (request : Option Nat)
  deriving DecidableEq

/-- A goroutine of the client. -/
inductive ClientCall where
  /-- The handling of a Reply that arrived. -/
  | reply (msg : Reply) (pc : ReplyPc)
  /-- A call `Request(operation)`, with the Request message made for it. -/
  | submit (req : Request)
  /-- The two goroutines of the Request `req` whose object is `k`: `supplyReplies` and
  `collectReplies`. -/
  | handle (req : Request) (k : Nat) (supplier : Cursor Reply) (collector : Collector)
  | returned

/-- The shared state: the request buffer, and whether a goroutine panicked. -/
structure ClientState where
  buf : RequestBuffer
  crashed : Bool

/-- `New`: an empty buffer. -/
def ClientState.init : ClientState := ⟨RequestBuffer.new, false⟩

/-- What the goroutines do that the results speak of. -/
inductive ClientEvent where
  /-- A Reply passed `makeReplyAuthenticator`. -/
  | authenticated (reply : Reply)
  /-- `collectReplies` of the request object `k` took a Reply from its channel. -/
  | received (k : Nat) (reply : Reply)
  /-- `collectReplies` sent the result of the Request `req` on `resultChan`. -/
  | delivered (req : Request) (result : Bytes)
  deriving DecidableEq

/-- The case a goroutine takes: its one next step (for the pair of a request, a step of
`collectReplies`), or a step of `supplyReplies` in case `sc` of its `select`. -/
inductive ClientChoice where
  | step
  | supplier (sc : SelectCase)

/-- One atomic step of a goroutine, taking case `ch`, when it is enabled. -/
def callStep (e : ClientState) : ClientCall → ClientChoice →
    Option (ClientState × ClientCall × List ClientEvent)
  | .reply msg .authenticate, .step =>
    match replyAuthenticator P msg with
    | .ok (.ok ()) => some (e, .reply msg .read, [.authenticated msg])
    | .ok (.error _) => some (e, .returned, [])
    | .panic _ => some ({ e with crashed := true }, .returned, [])
    | .hang => none
  | .reply msg .read, .step => some (e, .reply msg (.add e.buf.request), [])
  | .reply msg (.add request), .step =>
    some ({ e with buf := (e.buf.addReply request msg).2 }, .returned, [])
  | .submit req, .step =>
    match e.buf.request with
    | some _ => none
    | none =>
      match e.buf.addRequest req with
      | none => some ({ e with crashed := true }, .returned, [])
      | some (buf, k) => some ({ e with buf := buf }, .handle req k Cursor.start Collector.start, [])
  | .handle req k sup col, .supplier sc =>
    match e.buf.requests[k]? with
    | none => none
    | some obj =>
      (Cursor.step obj.replies.msgs obj.replies.newAdded obj.removed sup sc).bind
        fun (note, sup', out) =>
          match out with
          | none => some ({ e with buf := e.buf.setNote k note }, .handle req k sup' col, [])
          | some reply =>
            -- the send on `replyChan` meets the receive of `collectReplies`
            match col.pc with
            | .receiving =>
              some ({ e with buf := e.buf.setNote k note }, .handle req k sup' (col.receive P reply),
                [.received k reply])
            | _ => none
  | .handle req k sup col, .step =>
    match col.pc with
    | .receiving =>
      -- `replyChan` is closed once `supplyReplies` returned: the range loop ends
      match sup.pc with
      | .returned => some (e, .handle req k sup { col with pc := .returned }, [])
      | _ => none
    | .removing reply =>
      some ({ e with buf := e.buf.removeRequest reply.sequence },
        .handle req k sup { col with pc := .sending reply.result }, [])
    | .sending result => some (e, .handle req k sup { col with pc := .returned }, [.delivered req result])
    | .returned => none
  | _, _ => none

/-- The client: goroutines that handle arriving Replies and calls of `Request`, any number of
each. Nothing moves once a goroutine panicked. -/
def clientProgram : Program ClientState ClientCall ClientEvent where
  start := fun
    | .reply _ pc => pc = .authenticate
    | .submit _ => True
    | .handle .. | .returned => False
  step _ e c e' c' es := e.crashed = false ∧ ∃ ch, callStep P e c ch = some (e', c', es)

/-! ## The steps -/

/-- The steps of the goroutines, one constructor per atomic step. -/
inductive CallMove (e : ClientState) : ClientCall → ClientState → ClientCall → List ClientEvent →
    Prop
  | authOk {msg : Reply} : replyAuthenticator P msg = .ok (.ok ()) →
      CallMove e (.reply msg .authenticate) e (.reply msg .read) [.authenticated msg]
  | authError {msg : Reply} {err : String} : replyAuthenticator P msg = .ok (.error err) →
      CallMove e (.reply msg .authenticate) e .returned []
  | authPanic {msg : Reply} {err : String} : replyAuthenticator P msg = .panic err →
      CallMove e (.reply msg .authenticate) { e with crashed := true } .returned []
  | read {msg : Reply} : CallMove e (.reply msg .read) e (.reply msg (.add e.buf.request)) []
  | add {msg : Reply} {request : Option Nat} :
      CallMove e (.reply msg (.add request)) { e with buf := (e.buf.addReply request msg).2 }
        .returned []
  | reject {req : Request} : e.buf.request = none → e.buf.addRequest req = none →
      CallMove e (.submit req) { e with crashed := true } .returned []
  | accept {req : Request} {buf : RequestBuffer} {k : Nat} : e.buf.request = none →
      e.buf.addRequest req = some (buf, k) →
      CallMove e (.submit req) { e with buf := buf } (.handle req k Cursor.start Collector.start) []
  | supply {req : Request} {k : Nat} {sup sup' : Cursor Reply} {col : Collector}
      {obj : RequestObj} {note : Bool} : e.buf.requests[k]? = some obj →
      Cursor.Move obj.replies.msgs obj.replies.newAdded obj.removed sup note sup' none →
      CallMove e (.handle req k sup col) { e with buf := e.buf.setNote k note }
        (.handle req k sup' col) []
  | receive {req : Request} {k : Nat} {sup sup' : Cursor Reply} {col : Collector}
      {obj : RequestObj} {note : Bool} {reply : Reply} : e.buf.requests[k]? = some obj →
      Cursor.Move obj.replies.msgs obj.replies.newAdded obj.removed sup note sup' (some reply) →
      col.pc = .receiving →
      CallMove e (.handle req k sup col) { e with buf := e.buf.setNote k note }
        (.handle req k sup' (col.receive P reply)) [.received k reply]
  | closed {req : Request} {k : Nat} {sup : Cursor Reply} {col : Collector} :
      col.pc = .receiving → sup.pc = .returned →
      CallMove e (.handle req k sup col) e (.handle req k sup { col with pc := .returned }) []
  | remove {req : Request} {k : Nat} {sup : Cursor Reply} {col : Collector} {reply : Reply} :
      col.pc = .removing reply →
      CallMove e (.handle req k sup col) { e with buf := e.buf.removeRequest reply.sequence }
        (.handle req k sup { col with pc := .sending reply.result }) []
  | deliver {req : Request} {k : Nat} {sup : Cursor Reply} {col : Collector} {result : Bytes} :
      col.pc = .sending result →
      CallMove e (.handle req k sup col) e (.handle req k sup { col with pc := .returned })
        [.delivered req result]

variable {P}

/-- Every step `callStep` takes is a `CallMove`. -/
theorem callStep_move {e e' : ClientState} {c c' : ClientCall} {es : List ClientEvent}
    {ch : ClientChoice} (h : callStep P e c ch = some (e', c', es)) : CallMove P e c e' c' es := by
  unfold callStep at h
  split at h
  · -- `makeReplyAuthenticator`
    next msg =>
    split at h
    · next ha => cases h; exact .authOk ha
    · next err ha => cases h; exact .authError ha
    · next err ha => cases h; exact .authPanic ha
    · cases h
  · cases h; exact .read
  · cases h; exact .add
  · -- `AddRequest`
    next req =>
    split at h
    · cases h
    · next hreq =>
      split at h
      · next hadd => cases h; exact .reject hreq hadd
      · next buf k hadd => cases h; exact .accept hreq hadd
  · -- a step of `supplyReplies`, with the receive of `collectReplies` when it sends
    next req k sup col sc =>
    split at h
    · cases h
    · next obj hobj =>
      obtain ⟨⟨note, sup', out⟩, hs, h⟩ := Option.bind_eq_some_iff.mp h
      have hm := Cursor.step_move hs
      cases out with
      | none => cases h; exact .supply hobj hm
      | some reply =>
        dsimp only at h
        split at h
        · next hpc => cases h; exact .receive hobj hm hpc
        · cases h
  · -- a step of `collectReplies`
    next req k sup col =>
    split at h
    · next hpc =>
      split at h
      · next hsup => cases h; exact .closed hpc hsup
      · cases h
    · next reply hpc => cases h; exact .remove hpc
    · next result hpc => cases h; exact .deliver hpc
    · cases h
  · cases h

/-! ## What the collectors took -/

/-- The Reply of an event `received` of the request object `k`. -/
def ClientEvent.receivedOn (k : Nat) : ClientEvent → Option Reply
  | .received k' reply => if k' = k then some reply else none
  | _ => none

/-- The Replies the `collectReplies` of the request object `k` took from its channel, in order. -/
def receivedOf (k : Nat) (trace : List ClientEvent) : List Reply :=
  trace.filterMap (ClientEvent.receivedOn k)

section Received

variable {k : Nat} {trace trace' : List ClientEvent}

@[simp] theorem receivedOf_nil : receivedOf k [] = [] := rfl

@[simp] theorem receivedOf_append :
    receivedOf k (trace ++ trace') = receivedOf k trace ++ receivedOf k trace' :=
  List.filterMap_append

@[simp] theorem receivedOf_authenticated (reply : Reply) :
    receivedOf k [.authenticated reply] = [] := rfl

@[simp] theorem receivedOf_delivered (req : Request) (result : Bytes) :
    receivedOf k [.delivered req result] = [] := rfl

@[simp] theorem receivedOf_received_self (reply : Reply) :
    receivedOf k [.received k reply] = [reply] := by
  simp [receivedOf, ClientEvent.receivedOn]

theorem receivedOf_received_of_ne {k' : Nat} (h : k' ≠ k) (reply : Reply) :
    receivedOf k [.received k' reply] = [] := by
  simp [receivedOf, ClientEvent.receivedOn, h]

end Received

/-! ## The invariant -/

variable (P)

/-- A result is certified for the sequence `s`: `f + 1` authenticated Replies of distinct replicas
with that sequence, whose results hash as it does, one of them with that very result. -/
def Certified (trace : List ClientEvent) (s : Nat) (result : Bytes) : Prop :=
  ∃ reps : List Reply, P.f + 1 ≤ reps.length ∧ (reps.map Reply.replicaID).Nodup ∧
    result ∈ reps.map Reply.result ∧ ∀ rep ∈ reps, ClientEvent.authenticated rep ∈ trace ∧
      rep.sequence = s ∧ P.sha256 rep.result = P.sha256 result

/-- Where `collectReplies` is, against what it took and its counts: it takes Replies while no count
exceeds `f`, and leaves the loop with a Reply it took whose count does. -/
def CollectorPc.Ok (received : List Reply) (matching : Bytes → Nat) : CollectorPc → Prop
  | .receiving => ∀ hash, matching hash ≤ P.f
  | .removing reply => reply ∈ received ∧ P.f < matching (P.sha256 reply.result)
  | .sending result => ∃ rep ∈ received, rep.result = result ∧ P.f < matching (P.sha256 result)
  | .returned => True

/-- `collectReplies` after taking `received`: `matchingResults` counts them by the hash of their
result. -/
structure CollectorOk (received : List Reply) (col : Collector) : Prop where
  counts : ∀ hash, col.matchingResults hash = received.countP fun rep => P.sha256 rep.result = hash
  pc : col.pc.Ok P received col.matchingResults

/-- The two goroutines of the Request `req` whose object is `k`: the object holds `req`, the stream
has forwarded a prefix of its Replies (`System.Cursor`), and the collector took just those. -/
structure HandleOk (e : ClientState) (trace : List ClientEvent) (req : Request) (k : Nat)
    (sup : Cursor Reply) (col : Collector) : Prop where
  obj : ∃ obj, e.buf.requests[k]? = some obj ∧ obj.msg = req ∧
    Cursor.Ok (receivedOf k trace) obj.replies.msgs obj.replies.newAdded sup
  collector : CollectorOk P (receivedOf k trace) col

variable {P}

/-- The Replies kept for each Request were authenticated and have its sequence. -/
def RepliesOk (e : ClientState) (trace : List ClientEvent) : Prop :=
  ∀ (k : Nat) (obj : RequestObj), e.buf.requests[k]? = some obj → ∀ rep ∈ obj.replies.msgs,
    rep.sequence = obj.msg.sequence ∧ ClientEvent.authenticated rep ∈ trace

variable (P)

/-- The invariant of the client. -/
structure ClientInv (c : Config ClientState ClientCall ClientEvent) : Prop where
  /-- Only what passed `makeReplyAuthenticator` is authenticated. -/
  authentic : ∀ rep, ClientEvent.authenticated rep ∈ c.trace → replyAuthenticator P rep = .ok (.ok ())
  replies : RepliesOk c.shared c.trace
  /-- A Reply handler past `makeReplyAuthenticator` holds an authenticated Reply. -/
  readers : ∀ (i : Nat) (msg : Reply) (pc : ReplyPc), c.threads[i]? = some (.reply msg pc) →
    pc ≠ .authenticate →
    ClientEvent.authenticated msg ∈ c.trace
  handles : ∀ (i : Nat) (req : Request) (k : Nat) (sup : Cursor Reply) (col : Collector),
    c.threads[i]? = some (.handle req k sup col) →
    HandleOk P c.shared c.trace req k sup col
  /-- One pair of goroutines for each request object. -/
  unique : ∀ (i j : Nat) (req req' : Request) (k : Nat) (sup sup' : Cursor Reply) (col col' : Collector),
    c.threads[i]? = some (.handle req k sup col) → c.threads[j]? = some (.handle req' k sup' col') →
    i = j
  /-- Only the collector of an object takes its Replies. -/
  receivers : ∀ k : Nat, receivedOf k c.trace ≠ [] →
    ∃ (i : Nat) (req : Request) (sup : Cursor Reply) (col : Collector),
      c.threads[i]? = some (.handle req k sup col)
  delivered : ∀ (req : Request) (result : Bytes), ClientEvent.delivered req result ∈ c.trace →
    Certified P c.trace req.sequence result

variable {P}

/-! ## The collector -/

section Collector

variable {received : List Reply} {col : Collector}

/-- `collectReplies` starts well, with nothing taken. -/
theorem collectorOk_start : CollectorOk P [] Collector.start where
  counts := fun _ => rfl
  pc := fun _ => Nat.zero_le _

/-- What holds where the collector is, read at a known point. -/
theorem CollectorOk.pc_of_eq {pc : CollectorPc} (h : CollectorOk P received col)
    (hpc : col.pc = pc) : pc.Ok P received col.matchingResults :=
  hpc ▸ h.pc

/-- Taking a Reply keeps the counts, and the loop is left exactly when the Reply's count exceeds
`f`. -/
theorem CollectorOk.receive (h : CollectorOk P received col) (hpc : col.pc = .receiving)
    (reply : Reply) : CollectorOk P (received ++ [reply]) (col.receive P reply) := by
  have hlow : ∀ hash, col.matchingResults hash ≤ P.f := h.pc_of_eq hpc
  -- the count of the Reply's hash grows by one, the others stay
  have hself : (col.receive P reply).matchingResults (P.sha256 reply.result) =
      col.matchingResults (P.sha256 reply.result) + 1 := by
    simp [Collector.receive]
  have hother : ∀ hash, hash ≠ P.sha256 reply.result →
      (col.receive P reply).matchingResults hash = col.matchingResults hash := fun hash hne => by
    simp [Collector.receive, Function.update_of_ne hne]
  refine ⟨fun hash => ?_, ?_⟩
  · by_cases hhash : hash = P.sha256 reply.result
    · subst hhash
      simp [hself, h.counts]
    · simp [hother hash hhash, h.counts, Ne.symm hhash]
  · by_cases hf : P.f < col.matchingResults (P.sha256 reply.result) + 1
    · have hpc' : (col.receive P reply).pc = .removing reply := by simp [Collector.receive, hf]
      rw [hpc']
      exact ⟨List.mem_append_right _ (List.mem_singleton_self _), hself ▸ hf⟩
    · have hpc' : (col.receive P reply).pc = .receiving := by simp [Collector.receive, hf]
      rw [hpc']
      intro hash
      by_cases hhash : hash = P.sha256 reply.result
      · subst hhash
        rw [hself]
        omega
      · rw [hother hash hhash]
        exact hlow hash

end Collector

/-! ## One step -/

section Move

variable {e e' : ClientState} {trace : List ClientEvent} {g g' : ClientCall}
  {es : List ClientEvent} {req : Request} {k : Nat} {sup sup' : Cursor Reply} {col col' : Collector}

/-- A Reply is authenticated only by the step that authenticates it. -/
theorem CallMove.authentic (hm : CallMove P e g e' g' es) {rep : Reply}
    (h : ClientEvent.authenticated rep ∈ es) : replyAuthenticator P rep = .ok (.ok ()) := by
  cases hm with
  | authOk ha =>
    rw [List.mem_singleton, ClientEvent.authenticated.injEq] at h
    exact h ▸ ha
  | _ => simp at h

/-- A Reply handler past `makeReplyAuthenticator` authenticated its Reply, now or before. -/
theorem CallMove.reader {msg : Reply} {pc : ReplyPc} (hm : CallMove P e g e' (.reply msg pc) es)
    (hold : ∀ pc₀, g = .reply msg pc₀ → pc₀ ≠ .authenticate →
      ClientEvent.authenticated msg ∈ trace) :
    ClientEvent.authenticated msg ∈ trace ++ es := by
  cases hm with
  | authOk _ => exact List.mem_append_right _ (List.mem_singleton_self _)
  | read => exact List.mem_append_left _ (hold .read rfl (by decide))

/-- The goroutines of a request stay those of the request and its object. -/
theorem CallMove.handle_keep (hm : CallMove P e (.handle req k sup col) e' g' es) :
    ∃ sup' col', g' = .handle req k sup' col' := by
  cases hm <;> exact ⟨_, _, rfl⟩

/-- A request's goroutines after a step were there before it, or the step started them for the
object `AddRequest` made. -/
theorem CallMove.handle_cases (hm : CallMove P e g e' (.handle req k sup' col') es) :
    (∃ sup col, g = .handle req k sup col) ∨ (g = .submit req ∧ es = [] ∧
      e.buf.addRequest req = some (e'.buf, k) ∧ sup' = Cursor.start ∧ col' = Collector.start) := by
  cases hm with
  | accept _ hadd => exact .inr ⟨rfl, rfl, hadd, rfl, rfl⟩
  | _ => exact .inl ⟨_, _, rfl⟩

/-- A result is delivered only by the collector that is sending it. -/
theorem CallMove.delivered_mem {result : Bytes} (hm : CallMove P e g e' g' es)
    (h : ClientEvent.delivered req result ∈ es) :
    ∃ k sup col, g = .handle req k sup col ∧ col.pc = .sending result := by
  cases hm with
  | deliver hpc =>
    rw [List.mem_singleton, ClientEvent.delivered.injEq] at h
    obtain ⟨rfl, rfl⟩ := h
    exact ⟨_, _, _, rfl, hpc⟩
  | _ => simp at h

/-- Only the collector of an object takes its Replies. -/
theorem CallMove.receivedOf_other (hm : CallMove P e g e' g' es)
    (hk : ∀ req sup col, g ≠ .handle req k sup col) : receivedOf k es = [] := by
  cases hm with
  | @receive req k' sup _ col _ _ reply _ _ _ =>
    exact receivedOf_received_of_ne (fun hkk => hk req sup col (by rw [hkk])) reply
  | _ => rfl

/-- How a step leaves an object that is not its own: with its Request, and with its Replies, or
with one Reply more and a notification. -/
theorem CallMove.obj_other (hm : CallMove P e g e' g' es)
    (hk : ∀ req sup col, g ≠ .handle req k sup col) {obj : RequestObj}
    (hobj : e.buf.requests[k]? = some obj) :
    ∃ obj', e'.buf.requests[k]? = some obj' ∧ obj'.msg = obj.msg ∧ (obj'.replies = obj.replies ∨
      ∃ x, obj'.replies.msgs = obj.replies.msgs ++ [x] ∧ obj'.replies.newAdded = true) := by
  cases hm with
  | add =>
    obtain ⟨obj', hobj', hmsg, hrep⟩ := RequestBuffer.addReply_getElem?_of hobj _ _
    exact ⟨obj', hobj', hmsg, hrep.imp id fun h => ⟨_, h.1, h.2.1⟩⟩
  | accept _ hadd =>
    obtain ⟨-, -, rfl⟩ := RequestBuffer.addRequest_eq_some hadd
    refine ⟨obj, ?_, rfl, .inl rfl⟩
    rw [List.getElem?_append_left (List.getElem?_eq_some_iff.mp hobj).1, hobj]
  | @supply req k' sup _ col _ _ _ _ =>
    have hkk : k ≠ k' := fun hkk => hk req sup col (by rw [hkk])
    exact ⟨obj, by rw [RequestBuffer.setNote_getElem?_of_ne hkk, hobj], rfl, .inl rfl⟩
  | @receive req k' sup _ col _ _ _ _ _ _ =>
    have hkk : k ≠ k' := fun hkk => hk req sup col (by rw [hkk])
    exact ⟨obj, by rw [RequestBuffer.setNote_getElem?_of_ne hkk, hobj], rfl, .inl rfl⟩
  | remove _ =>
    obtain ⟨obj', hobj', hmsg, hrep⟩ := RequestBuffer.removeRequest_getElem?_of hobj _
    exact ⟨obj', hobj', hmsg, .inl hrep⟩
  | _ => exact ⟨obj, hobj, rfl, .inl rfl⟩

end Move

/-! ## What each part of the invariant needs of a step -/

section Parts

variable {e e' : ClientState} {trace : List ClientEvent} {g g' : ClientCall}
  {es : List ClientEvent} {req : Request} {k : Nat} {sup sup' : Cursor Reply} {col col' : Collector}
  {s : Nat} {result : Bytes}

theorem Certified.mono (h : Certified P trace s result) (es : List ClientEvent) :
    Certified P (trace ++ es) s result := by
  obtain ⟨reps, hlen, hnodup, hres, hreps⟩ := h
  exact ⟨reps, hlen, hnodup, hres, fun rep hrep => (hreps rep hrep).imp_left (List.mem_append_left es)⟩

theorem RepliesOk.mono (h : RepliesOk e trace) (es : List ClientEvent) : RepliesOk e (trace ++ es) :=
  fun k obj hobj rep hrep => (h k obj hobj rep hrep).imp_right (List.mem_append_left es)

/-- A step keeps the Replies kept well: a Reply added has its Request's sequence, and its handler
authenticated it. -/
theorem RepliesOk.move (h : RepliesOk e trace) (hm : CallMove P e g e' g' es)
    (hread : ∀ msg request, g = .reply msg (.add request) → ClientEvent.authenticated msg ∈ trace) :
    RepliesOk e' (trace ++ es) := by
  -- a step that keeps the Request and the Replies of every object
  have hkeep : (∀ (k : Nat) (obj' : RequestObj), e'.buf.requests[k]? = some obj' →
      ∃ obj : RequestObj, e.buf.requests[k]? = some obj ∧
      obj'.msg = obj.msg ∧ obj'.replies.msgs = obj.replies.msgs) → RepliesOk e' (trace ++ es) := by
    intro hview k obj' hobj' rep hrep
    obtain ⟨obj, hobj, hmsg, hmsgs⟩ := hview k obj' hobj'
    rw [hmsg]
    exact h.mono es k obj hobj rep (hmsgs ▸ hrep)
  cases hm with
  | @add msg request =>
    intro k obj' hobj' rep hrep
    obtain ⟨obj, hobj, hmsg, hrep'⟩ := RequestBuffer.getElem?_of_addReply_getElem? hobj'
    rw [hmsg]
    rcases hrep' with hrep' | ⟨hmsgs, -, hseq⟩
    · exact h.mono [] k obj hobj rep (hrep' ▸ hrep)
    · rw [hmsgs, List.mem_append, List.mem_singleton] at hrep
      rcases hrep with hrep | rfl
      · exact h.mono [] k obj hobj rep hrep
      · exact ⟨hseq, List.mem_append_left _ (hread rep request rfl)⟩
  | accept _ hadd =>
    obtain ⟨-, -, rfl⟩ := RequestBuffer.addRequest_eq_some hadd
    intro k obj' hobj' rep hrep
    rcases getElem?_append_singleton_eq_some hobj' with hobj' | ⟨-, rfl⟩
    · exact h.mono [] k obj' hobj' rep hrep
    · simp [newRequest, ReplySet.new] at hrep
  | supply _ _ => exact hkeep fun _ _ hobj' => RequestBuffer.getElem?_of_setNote_getElem? hobj'
  | receive _ _ _ => exact hkeep fun _ _ hobj' => RequestBuffer.getElem?_of_setNote_getElem? hobj'
  | remove _ =>
    refine hkeep fun _ _ hobj' => ?_
    obtain ⟨obj, hobj, hmsg, hrep⟩ := RequestBuffer.getElem?_of_removeRequest_getElem? hobj'
    exact ⟨obj, hobj, hmsg, by rw [hrep]⟩
  | _ => exact hkeep fun _ obj' hobj' => ⟨obj', hobj', rfl, rfl⟩

/-- The goroutines of a new request start well, when nothing was taken for its object yet. -/
theorem HandleOk.start (hadd : e.buf.addRequest req = some (e'.buf, k))
    (hfresh : receivedOf k trace = []) : HandleOk P e' trace req k Cursor.start Collector.start := by
  obtain ⟨-, rfl, hbuf⟩ := RequestBuffer.addRequest_eq_some hadd
  refine ⟨⟨newRequest req, by simp [hbuf], rfl, ?_⟩, ?_⟩
  · rw [hfresh]
    exact Cursor.ok_start _ _
  · rw [hfresh]
    exact collectorOk_start

/-- The goroutines of a request stay well after their own step. -/
theorem HandleOk.move (h : HandleOk P e trace req k sup col)
    (hm : CallMove P e (.handle req k sup col) e' (.handle req k sup' col') es) :
    HandleOk P e' (trace ++ es) req k sup' col' := by
  obtain ⟨⟨obj, hobj, hreq, hok⟩, hcol⟩ := h
  cases hm with
  | supply hobj' hmove =>
    obtain rfl := Option.some.inj (hobj'.symm.trans hobj)
    refine ⟨⟨_, RequestBuffer.setNote_getElem?_self hobj _, hreq, ?_⟩, by simpa using hcol⟩
    simpa using hok.move hmove
  | receive hobj' hmove hpc =>
    -- the stream's send is the collector's receive
    obtain rfl := Option.some.inj (hobj'.symm.trans hobj)
    refine ⟨⟨_, RequestBuffer.setNote_getElem?_self hobj _, hreq, ?_⟩, ?_⟩
    · simpa using hok.move hmove
    · simpa using hcol.receive hpc _
  | closed _ _ =>
    exact ⟨⟨obj, hobj, hreq, by simpa using hok⟩, ⟨by simpa using hcol.counts, trivial⟩⟩
  | remove hpc =>
    obtain ⟨obj', hobj', hmsg, hrep⟩ := RequestBuffer.removeRequest_getElem?_of hobj _
    refine ⟨⟨obj', hobj', hmsg.trans hreq, by simpa [hrep] using hok⟩,
      ⟨by simpa using hcol.counts, ?_⟩⟩
    obtain ⟨hmem, hf⟩ := hcol.pc_of_eq hpc
    exact ⟨_, by simpa using hmem, rfl, hf⟩
  | deliver _ =>
    exact ⟨⟨obj, hobj, hreq, by simpa using hok⟩, ⟨by simpa using hcol.counts, trivial⟩⟩

/-- The goroutines of a request stay well while a goroutine that is not of its object moves. -/
theorem HandleOk.other (h : HandleOk P e trace req k sup col) (hm : CallMove P e g e' g' es)
    (hk : ∀ req' sup' col', g ≠ .handle req' k sup' col') :
    HandleOk P e' (trace ++ es) req k sup col := by
  obtain ⟨⟨obj, hobj, hreq, hok⟩, hcol⟩ := h
  have hrecv : receivedOf k (trace ++ es) = receivedOf k trace := by
    rw [receivedOf_append, hm.receivedOf_other hk, List.append_nil]
  obtain ⟨obj', hobj', hmsg, hrep⟩ := hm.obj_other hk hobj
  refine ⟨⟨obj', hobj', hmsg.trans hreq, ?_⟩, hrecv ▸ hcol⟩
  rw [hrecv]
  rcases hrep with hrep | ⟨x, hmsgs, hnote⟩
  · rwa [hrep]
  · rw [hmsgs, hnote]
    exact hok.append x

/-- A collector about to send its result has a certified one: the Replies it took with that
result's hash are more than `f`, and come from distinct replicas since the stream forwarded a
prefix of the request's Replies. -/
theorem HandleOk.certified (h : HandleOk P e trace req k sup col) (hrep : RepliesOk e trace)
    (hpc : col.pc = .sending result) : Certified P trace req.sequence result := by
  obtain ⟨⟨obj, hobj, rfl, hok⟩, hcol⟩ := h
  obtain ⟨rep₀, hrep₀, hres, hf⟩ := hcol.pc_of_eq hpc
  have hsub : (receivedOf k trace).Sublist obj.replies.msgs := hok.isPrefix_sent.sublist
  refine ⟨(receivedOf k trace).filter fun rep => P.sha256 rep.result = P.sha256 result,
    ?_, ?_, ?_, ?_⟩
  · rw [hcol.counts, List.countP_eq_length_filter] at hf
    omega
  · exact List.Nodup.sublist ((List.filter_sublist.trans hsub).map _) obj.replies.nodup
  · exact List.mem_map.mpr ⟨rep₀, List.mem_filter.mpr ⟨hrep₀, by simp [hres]⟩, hres⟩
  · intro rep hmem
    obtain ⟨hrecv, hhash⟩ := List.mem_filter.mp hmem
    obtain ⟨hseq, hauth⟩ := hrep k obj hobj rep (hsub.subset hrecv)
    exact ⟨hauth, hseq, by simpa using hhash⟩

end Parts

/-! ## Runs -/

section Run

variable {c : Config ClientState ClientCall ClientEvent}

theorem clientInv_init : ClientInv P (Config.initial ClientState.init) where
  authentic := fun _ h => by simp [Config.initial] at h
  replies := fun _ _ h => by simp [Config.initial, ClientState.init, RequestBuffer.new] at h
  readers := fun _ _ _ h => by simp [Config.initial] at h
  handles := fun _ _ _ _ _ h => by simp [Config.initial] at h
  unique := fun _ _ _ _ _ _ _ _ _ h => by simp [Config.initial] at h
  receivers := fun _ h => absurd rfl h
  delivered := fun _ _ h => by simp [Config.initial] at h

/-- No collector took a Reply for the object the next `AddRequest` makes. -/
theorem ClientInv.receivedOf_length (h : ClientInv P c) :
    receivedOf c.shared.buf.requests.length c.trace = [] := by
  by_contra hne
  obtain ⟨i, req, sup, col, hi⟩ := h.receivers _ hne
  obtain ⟨obj, hobj, -⟩ := (h.handles i req _ sup col hi).obj
  simp at hobj

/-- A goroutine that is started keeps the invariant: it is a Reply handler before
`makeReplyAuthenticator`, or a call of `Request`. -/
theorem ClientInv.spawn (h : ClientInv P c) {g : ClientCall} (hg : (clientProgram P).start g) :
    ClientInv P ⟨c.shared, c.threads ++ [g], c.trace⟩ := by
  have hnew : ∀ msg pc, g = .reply msg pc → pc = .authenticate := by
    rintro msg pc rfl
    exact hg
  have hhandle : ∀ req k sup col, g ≠ .handle req k sup col := by
    rintro req k sup col rfl
    exact hg
  refine ⟨h.authentic, h.replies, ?_, ?_, ?_, ?_, h.delivered⟩
  · intro i msg pc hi hpc
    rcases getElem?_append_singleton_eq_some hi with hi | ⟨-, hgi⟩
    · exact h.readers i msg pc hi hpc
    · exact absurd (hnew msg pc hgi.symm) hpc
  · intro i req k sup col hi
    rcases getElem?_append_singleton_eq_some hi with hi | ⟨-, hgi⟩
    · exact h.handles i req k sup col hi
    · exact absurd hgi.symm (hhandle req k sup col)
  · intro i j req req' k sup sup' col col' hi hj
    rcases getElem?_append_singleton_eq_some hi with hi | ⟨-, hgi⟩
    · rcases getElem?_append_singleton_eq_some hj with hj | ⟨-, hgj⟩
      · exact h.unique i j req req' k sup sup' col col' hi hj
      · exact absurd hgj.symm (hhandle req' k sup' col')
    · exact absurd hgi.symm (hhandle req k sup col)
  · intro k hne
    obtain ⟨i, req, sup, col, hi⟩ := h.receivers k hne
    exact ⟨i, req, sup, col, by rw [List.getElem?_append_left (List.getElem?_eq_some_iff.mp hi).1, hi]⟩

/-- A goroutine that moves keeps the invariant. -/
theorem ClientInv.move (h : ClientInv P c) {i : Nat} {g g' : ClientCall} {e' : ClientState}
    {es : List ClientEvent} (hg : c.threads[i]? = some g) (hm : CallMove P c.shared g e' g' es) :
    ClientInv P ⟨e', c.threads.set i g', c.trace ++ es⟩ := by
  have hi : i < c.threads.length := (List.getElem?_eq_some_iff.mp hg).1
  -- a request's goroutines after the step were there before it, or have the new object
  have hback : ∀ (j : Nat) (req : Request) (k : Nat) (sup : Cursor Reply) (col : Collector),
      (c.threads.set i g')[j]? = some (.handle req k sup col) →
      (∃ (req₀ : Request) (sup₀ : Cursor Reply) (col₀ : Collector),
        c.threads[j]? = some (.handle req₀ k sup₀ col₀)) ∨
        (j = i ∧ k = c.shared.buf.requests.length) := by
    intro j req k sup col hj
    rcases getElem?_set_eq_some hj with ⟨rfl, rfl⟩ | ⟨-, hj⟩
    · rcases hm.handle_cases with ⟨sup₀, col₀, rfl⟩ | ⟨-, -, hadd, -, -⟩
      · exact .inl ⟨req, sup₀, col₀, hg⟩
      · exact .inr ⟨rfl, (RequestBuffer.addRequest_eq_some hadd).2.1⟩
    · exact .inl ⟨req, sup, col, hj⟩
  -- no goroutine had the object `AddRequest` makes next
  have hfresh : ∀ (j : Nat) (req : Request) (sup : Cursor Reply) (col : Collector),
      c.threads[j]? ≠ some (.handle req c.shared.buf.requests.length sup col) := by
    intro j req sup col hj
    obtain ⟨obj, hobj, -⟩ := (h.handles j req _ sup col hj).obj
    simp at hobj
  refine ⟨?authentic, ?replies, ?readers, ?handles, ?unique, ?receivers, ?delivered⟩
  case authentic =>
    intro rep hrep
    rcases List.mem_append.mp hrep with hrep | hrep
    · exact h.authentic rep hrep
    · exact hm.authentic hrep
  case replies =>
    refine h.replies.move hm fun msg request hgm => ?_
    subst hgm
    exact h.readers i msg _ hg (by simp)
  case readers =>
    intro j msg pc hj hpc
    rcases getElem?_set_eq_some hj with ⟨rfl, rfl⟩ | ⟨-, hj⟩
    · exact hm.reader fun pc₀ hgm hpc₀ => h.readers j msg pc₀ (hgm ▸ hg) hpc₀
    · exact List.mem_append_left _ (h.readers j msg pc hj hpc)
  case handles =>
    intro j req k sup col hj
    rcases getElem?_set_eq_some hj with ⟨rfl, rfl⟩ | ⟨hji, hj⟩
    · rcases hm.handle_cases with ⟨sup₀, col₀, rfl⟩ | ⟨rfl, rfl, hadd, rfl, rfl⟩
      · exact (h.handles j req k sup₀ col₀ hg).move hm
      · obtain ⟨-, rfl, -⟩ := RequestBuffer.addRequest_eq_some hadd
        rw [List.append_nil]
        exact HandleOk.start hadd h.receivedOf_length
    · refine (h.handles j req k sup col hj).other hm ?_
      rintro req' sup' col' rfl
      exact hji (h.unique j i req req' k sup sup' col col' hj hg)
  case unique =>
    intro j l req req' k sup sup' col col' hj hl
    rcases hback j req k sup col hj with ⟨req₀, sup₀, col₀, hj₀⟩ | ⟨rfl, hkj⟩
    · rcases hback l req' k sup' col' hl with ⟨req₁, sup₁, col₁, hl₀⟩ | ⟨rfl, hkl⟩
      · exact h.unique j l req₀ req₁ k sup₀ sup₁ col₀ col₁ hj₀ hl₀
      · exact absurd (hkl ▸ hj₀) (hfresh j req₀ sup₀ col₀)
    · rcases hback l req' k sup' col' hl with ⟨req₁, sup₁, col₁, hl₀⟩ | ⟨rfl, -⟩
      · exact absurd (hkj ▸ hl₀) (hfresh l req₁ sup₁ col₁)
      · rfl
  case receivers =>
    intro k hne
    by_cases hold : receivedOf k c.trace = []
    · -- the step took a Reply for `k`, so the goroutine that moved is the collector of `k`
      have hmover : ¬ ∀ req sup col, g ≠ .handle req k sup col := fun hk =>
        hne (by rw [receivedOf_append, hold, hm.receivedOf_other hk, List.append_nil])
      simp only [not_forall, not_not] at hmover
      obtain ⟨req, sup, col, rfl⟩ := hmover
      obtain ⟨sup', col', rfl⟩ := hm.handle_keep
      exact ⟨i, req, sup', col', List.getElem?_set_self hi⟩
    · obtain ⟨j, req, sup, col, hj⟩ := h.receivers k hold
      by_cases hji : j = i
      · subst hji
        obtain rfl := Option.some.inj (hg.symm.trans hj)
        obtain ⟨sup', col', rfl⟩ := hm.handle_keep
        exact ⟨j, req, sup', col', List.getElem?_set_self hi⟩
      · exact ⟨j, req, sup, col, by rw [List.getElem?_set_ne (Ne.symm hji), hj]⟩
  case delivered =>
    intro req result hd
    rcases List.mem_append.mp hd with hd | hd
    · exact (h.delivered req result hd).mono es
    · obtain ⟨k, sup, col, rfl, hpc⟩ := hm.delivered_mem hd
      exact ((h.handles i req k sup col hg).certified h.replies hpc).mono es

/-- **The invariant of the client**: it holds in every reachable configuration. -/
theorem clientInv_inductive :
    Inductive (clientProgram P).Step (Config.initial ClientState.init) (ClientInv P) where
  init := clientInv_init
  step := fun _ _ h hs => by
    cases hs with
    | spawn hg => exact h.spawn hg
    | move hg hs =>
      obtain ⟨-, ch, hs⟩ := hs
      exact h.move hg (callStep_move hs)

/-- An authenticated Reply is for this client. -/
theorem clientID_of_replyAuthenticator {rep : Reply} (h : replyAuthenticator P rep = .ok (.ok ())) :
    rep.clientID = P.id := by
  by_contra hne
  simp [replyAuthenticator, hne] at h

/-- **The result of a request** (`collectReplies`): a result delivered for a Request with sequence
`s` is the result of `f + 1` Replies of pairwise distinct replicas, each of which passed
`makeReplyAuthenticator`, is for this client and has sequence `s`, when SHA-256 has no collision
among the results of the authenticated Replies. -/
theorem collectReplies_result (hreach : (clientProgram P).Reachable ClientState.init c)
    (hsha : ∀ rep₁ rep₂, ClientEvent.authenticated rep₁ ∈ c.trace →
      ClientEvent.authenticated rep₂ ∈ c.trace → P.sha256 rep₁.result = P.sha256 rep₂.result →
      rep₁.result = rep₂.result)
    {req : Request} {result : Bytes} (hdel : ClientEvent.delivered req result ∈ c.trace) :
    ∃ reps : List Reply, P.f + 1 ≤ reps.length ∧ (reps.map Reply.replicaID).Nodup ∧
      ∀ rep ∈ reps, ClientEvent.authenticated rep ∈ c.trace ∧
        replyAuthenticator P rep = .ok (.ok ()) ∧ rep.clientID = P.id ∧
        rep.sequence = req.sequence ∧ rep.result = result := by
  have hinv := clientInv_inductive.reachable hreach
  obtain ⟨reps, hlen, hnodup, hres, hreps⟩ := hinv.delivered req result hdel
  -- the Reply whose result is the one delivered
  obtain ⟨rep₀, hrep₀, rfl⟩ := List.mem_map.mp hres
  refine ⟨reps, hlen, hnodup, fun rep hrep => ?_⟩
  obtain ⟨hauth, hseq, hhash⟩ := hreps rep hrep
  have hok := hinv.authentic rep hauth
  exact ⟨hauth, hok, clientID_of_replyAuthenticator hok, hseq,
    hsha rep rep₀ hauth (hreps rep₀ hrep₀).1 hhash⟩

end Run

/-! ## A run -/

variable (P)

/-- A choice of a scheduler of the client: a Reply arrives, `Request` is called, or goroutine `i`
moves in case `ch`. -/
inductive ClientSched where
  | arrive (msg : Reply)
  | call (req : Request)
  | run (i : Nat) (ch : ClientChoice)

/-- The configuration after choice `ch`, when it is enabled. -/
def clientSchedStep (c : Config ClientState ClientCall ClientEvent) :
    ClientSched → Option (Config ClientState ClientCall ClientEvent)
  | .arrive msg => some ⟨c.shared, c.threads ++ [.reply msg .authenticate], c.trace⟩
  | .call req => some ⟨c.shared, c.threads ++ [.submit req], c.trace⟩
  | .run i ch =>
    if c.shared.crashed then none
    else (c.threads[i]?).bind fun g =>
      (callStep P c.shared g ch).map fun (e', g', es) => ⟨e', c.threads.set i g', c.trace ++ es⟩

/-- Every choice the scheduler makes is a step of the program. -/
theorem clientSchedStep_sound (c : Config ClientState ClientCall ClientEvent) (ch : ClientSched)
    (c' : Config ClientState ClientCall ClientEvent) (h : clientSchedStep P c ch = some c') :
    (clientProgram P).Step c c' := by
  cases ch with
  | arrive msg => cases h; exact .spawn rfl
  | call req => cases h; exact .spawn trivial
  | run i ch =>
    unfold clientSchedStep at h
    split_ifs at h with hc
    obtain ⟨g, hg, h⟩ := Option.bind_eq_some_iff.mp h
    obtain ⟨⟨e', g', es⟩, hs, rfl⟩ := Option.map_eq_some_iff.mp h
    exact .move hg ⟨by simpa using hc, ch, hs⟩

/-- A client with `f = 1` whose replicas' signatures all verify, with SHA-256 the identity. -/
def twoRepliesParams : ClientParams := ⟨0, 1, id, fun _ _ _ _ => .ok ()⟩

/-- The Request with sequence `1` of client `0`. -/
def twoRepliesRequest : Request := ⟨some ⟨0, 1, [], []⟩⟩

/-- The Reply of replica `r` to it, with result `42`. -/
def twoRepliesReply (r : Nat) : Reply := ⟨some ⟨r, 0, 1, [42], []⟩⟩

/-- The Request is submitted, the Replies of replicas `0` and `1` arrive and are added, the stream
forwards both, and the second makes the count exceed `f`: the Request is removed and its result
delivered. -/
def twoRepliesChoices : List ClientSched :=
  [.call twoRepliesRequest, .run 0 .step,
    .arrive (twoRepliesReply 0), .arrive (twoRepliesReply 1),
    .run 1 .step, .run 1 .step, .run 1 .step, .run 2 .step, .run 2 .step, .run 2 .step,
    .run 0 (.supplier .first), .run 0 (.supplier .first), .run 0 (.supplier .first),
    .run 0 .step, .run 0 .step]

/-- The configuration at the end of that run. -/
def twoReplies : Config ClientState ClientCall ClientEvent :=
  (runChoices (clientSchedStep twoRepliesParams) (Config.initial ClientState.init)
    twoRepliesChoices).getD (Config.initial ClientState.init)

theorem twoReplies_reachable : (clientProgram twoRepliesParams).Reachable ClientState.init twoReplies :=
  reflTransGen_of_runChoices (clientSchedStep_sound twoRepliesParams) twoRepliesChoices rfl

theorem collectReplies_result_twoReplies :
    ∃ reps : List Reply, twoRepliesParams.f + 1 ≤ reps.length ∧
      (reps.map Reply.replicaID).Nodup ∧
      ∀ rep ∈ reps, ClientEvent.authenticated rep ∈ twoReplies.trace ∧
        replyAuthenticator twoRepliesParams rep = .ok (.ok ()) ∧ rep.clientID = twoRepliesParams.id ∧
        rep.sequence = twoRepliesRequest.sequence ∧ rep.result = [42] :=
  collectReplies_result twoReplies_reachable (fun _ _ _ _ h => h) (by decide)

end MinBFT.Client
