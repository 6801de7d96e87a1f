import MinBFT.Core.Handler

/-!
# Inputs and schedules that stop a replica

Three ways in which a run of `replicaProgram` reaches a panic, each a step that the code takes
as it is written, and one in which it loses a pending request.

* A stream handler that receives a Reply panics in `makeMessageValidator`'s `default:` case:
  a Reply is neither a Request, a Prepare, a Commit nor a ReqViewChange. Any peer or client can
  send one; the two bytes `0x12 0x00` are the `pb.Message` envelope of an empty Reply.
* `handleGeneratedPeerMessages` panics on the replica's own ReqViewChange, which
  `makeViewChangeRequestor` appends to the log when a request timer expires:
  `makePeerMessageProcessor` only knows certified messages (view change is not implemented).
* Two requests of one client are executed in order, but each Reply is generated by a goroutine of
  its own (`makeRequestExecutor`) when the operation's result is ready. When the later Reply is
  consumed first, `AddReply` rejects the earlier one ("old request ID") and
  `makeGeneratedMessageConsumer` panics.
* The commitment collector removes a client's entry of the pending list by client ID
  (`collect_pendingReq`). A client's next Request can be captured and added to the list once the
  previous one is released, which is before its Prepare is committed; the commit of the previous
  Request then removes the next one, which is neither retired nor executed.

## Results

* `replyDelivered_crashes`: any bytes that decode to a Reply crash the replica.
* `ownReqViewChange_crashes`: once the replica's own handler reaches a ReqViewChange in the log,
  the replica crashes.
* `requestTimeout_crashes`: a replica of a system of one whose request timer expires crashes.
* `staleReply_panics`: a Reply generated for a sequence at or below the client's last Reply
  panics.
* `replyRace_crashes`: a replica of a system of one that executes two requests of a client and
  gets the second result first crashes.
* `retire_drops_pending_request`: in a replica of a system of one, with no Request between its
  capture and `pendingReq.Add`, a client whose last captured Request is above its last retired one
  has no pending entry.
-/

namespace MinBFT.Core

open MinBFT.Messages MinBFT.Usig MinBFT.System

/-! ## A Reply sent to a replica -/

/-- A stream handler with a Reply panics in the validator. -/
theorem goStep_received_reply (P : ReplicaParams) (s : Replica) (result : Bytes) (r : Reply) :
    goStep P s result (.received (.reply r)) = some (.panic "Unknown message type") := rfl

theorem replyDelivered_crashes (P : ReplicaParams) (data : Bytes) (r : Option PbReply)
    (hdec : P.unmarshal data = .ok ⟨some (.reply r)⟩) :
    ∃ c, (replicaProgram P).Reachable replicaInit c ∧ c.shared.crashed = true ∧
      ReplicaEvent.panicked "Unknown message type" ∈ c.trace := by
  refine ⟨⟨{ crashed := true }, [.ownWait 0], [.panicked "Unknown message type"]⟩,
    reachable_of_schedule P [.arrive data, .run 1 []] ?_, rfl, List.mem_singleton_self _⟩
  have hm : newFromBinary P.unmarshal data = .ok (.reply ⟨r⟩) := by
    simp [newFromBinary, hdec, typedMessageFromPb]
  simp [runChoices, schedStep, hm, replicaInit, goStep_received_reply, moveThread]

/-- A replica whose decoder reads `0x12 0x00` as `proto.Unmarshal` does: the `pb.Message`
envelope whose field `reply` (number 2, length 0) is an empty Reply. -/
def emptyReplyParams : ReplicaParams where
  id := 0
  cfg := ⟨1, 0, Nat.one_pos⟩
  timeoutRequest := 0
  timeoutPrepare := 0
  unmarshal data :=
    if data = [0x12, 0x00] then .ok ⟨some (.reply (some ⟨0, 0, 0, [], []⟩))⟩
    else .error "unexpected EOF"
  sha256 _ := []
  verifyTag _ _ _ _ _ := .ok ()
  sign _ := .ok []
  createUI _ _ := .ok []

theorem replyDelivered_crashes_emptyReply :
    emptyReplyParams.unmarshal [0x12, 0x00] = .ok ⟨some (.reply (some ⟨0, 0, 0, [], []⟩))⟩ ∧
    ∃ c, (replicaProgram emptyReplyParams).Reachable replicaInit c ∧
      c.shared.crashed = true ∧ ReplicaEvent.panicked "Unknown message type" ∈ c.trace :=
  ⟨rfl, replyDelivered_crashes emptyReplyParams [0x12, 0x00] _ rfl⟩

/-! ## The replica's own ReqViewChange -/

/-- `handleGeneratedPeerMessages` at a ReqViewChange: `processMessage` takes it for a peer message,
`processEmbedded` has nothing to do, and the type switch of `makePeerMessageProcessor` finds no
certified message. Nothing else changes. -/
theorem ownReqViewChange_crashes (P : ReplicaParams) {c : Config Replica Goroutine ReplicaEvent}
    {i next : Nat} {v : ReqViewChange} (hrun : c.shared.crashed = false)
    (hi : c.threads[i]? = some (.ownWait next)) (hlog : c.shared.log[next]? = some (.reqViewChange v)) :
    ∃ c', (replicaProgram P).Reachable c c' ∧ c'.shared.log = c.shared.log ∧
      c'.shared.crashed = true ∧ ReplicaEvent.panicked "Unknown message type" ∈ c'.trace := by
  have hlt : i < c.threads.length := (List.getElem?_eq_some_iff.mp hi).1
  -- the handler takes the log's message, the type switch, and the panic
  let g₁ : Goroutine := .handler (.own next) [] (.start (.reqViewChange v))
  let g₂ : Goroutine := .handler (.own next) [] (.peerCapture (.reqViewChange v))
  have h₁ : goStep P c.shared [] (.ownWait next) = some (.ok (c.shared, some g₁, [], [])) := by
    simp [goStep, hlog, g₁]
  have h₂ : goStep P c.shared [] g₁ = some (.ok (c.shared, some g₂, [], [])) := rfl
  have h₃ : goStep P c.shared [] g₂ = some (.panic "Unknown message type") := rfl
  let c₁ : Config Replica Goroutine ReplicaEvent :=
    ⟨c.shared, moveThread c.threads i (some g₁) [], c.trace ++ []⟩
  let c₂ : Config Replica Goroutine ReplicaEvent :=
    ⟨c.shared, moveThread c₁.threads i (some g₂) [], c₁.trace ++ []⟩
  have hs₁ : (replicaProgram P).Step c c₁ := step_of_goStep hrun hi h₁
  have hs₂ : (replicaProgram P).Step c₁ c₂ :=
    step_of_goStep (c := c₁) (i := i) hrun (by simp [c₁, moveThread, hlt]) h₂
  have hs₃ := step_of_goStep (c := c₂) (i := i) hrun (by simp [c₂, c₁, moveThread, hlt]) h₃
  exact ⟨_, ((Relation.ReflTransGen.single hs₁).tail hs₂).tail hs₃, rfl, rfl, by simp⟩

/-- A replica of a system of one (`n = 1`, `f = 0`), whose request timeout is `timeoutRequest`,
with a decoder that reads the byte `b` as the Request of client `0` with sequence `b`, and an
authenticator that accepts and signs everything and gives the `k`-th UI the counter `k`. -/
def soloParams (timeoutRequest : Int) : ReplicaParams where
  id := 0
  cfg := ⟨1, 0, Nat.one_pos⟩
  timeoutRequest := timeoutRequest
  timeoutPrepare := 0
  unmarshal data :=
    match data with
    | [b] => .ok ⟨some (.request (some ⟨0, b.toNat, [], []⟩))⟩
    | _ => .error "unexpected EOF"
  sha256 _ := []
  verifyTag _ _ _ _ _ := .ok ()
  sign _ := .ok []
  createUI k _ := .ok (UI.marshalBinary ⟨k + 1, []⟩)

/-- The ReqViewChange of replica `0` for view `1`, signed by `soloParams`. -/
def soloReqViewChange : ReqViewChange := ⟨some ⟨0, 1, []⟩⟩

/-- Request `1` arrives and is captured, and its request timer is started (six steps); the timer
fires and its function requests view `1`, which appends the ReqViewChange to the log. -/
def timeoutSchedule : List Choice :=
  [.arrive [1]] ++ List.replicate 5 (.run 1 []) ++ [.fire 0, .run 2 []]

theorem requestTimeout_crashes :
    ∃ c, (replicaProgram (soloParams 1)).Reachable replicaInit c ∧
      c.shared.log = [.reqViewChange soloReqViewChange] ∧ c.shared.crashed = true ∧
      ReplicaEvent.panicked "Unknown message type" ∈ c.trace := by
  have hrun : (runChoices (schedStep (soloParams 1)) replicaInit timeoutSchedule).map
      (fun c => (c.shared.crashed, c.threads[0]?, c.shared.log)) =
      some (false, some (.ownWait 0), [.reqViewChange soloReqViewChange]) := by
    decide +kernel
  obtain ⟨c, hc, heq⟩ := Option.map_eq_some_iff.mp hrun
  simp only [Prod.mk.injEq] at heq
  obtain ⟨hcr, h0, hlog⟩ := heq
  obtain ⟨c', hreach, hlog', hcrash, hpanic⟩ := ownReqViewChange_crashes (soloParams 1) hcr h0
    (v := soloReqViewChange) (by simp [hlog])
  exact ⟨c', Relation.ReflTransGen.trans (reachable_of_schedule _ _ hc) hreach, hlog'.trans hlog,
    hcrash, hpanic⟩

/-! ## Replies that race -/

/-- A Reply generated for a sequence at or below the one of the client's last Reply panics in
`makeGeneratedMessageConsumer`, whatever the result it carries. -/
theorem staleReply_panics (P : ReplicaParams) (s : Replica) (result : Bytes) (req : Request)
    (hsign : ∀ b, ∃ sig, P.sign b = .ok sig)
    (hstale : req.sequence ≤ (s.clients req.clientID).reply.lastRepliedSeq) :
    goStep P s result (.awaitResult req) =
      some (.panic "Failed to consume generated Reply: old request ID") := by
  obtain ⟨sig, hsig⟩ := hsign (asciiBytes "REPLY" ++
    (newReply P.id req.clientID req.sequence result).writeAuthenBytes P.sha256)
  have hold : (s.clients req.clientID).reply.addReply
      ⟨some ⟨P.id, req.clientID, req.sequence, result, sig⟩⟩ =
      (.error "old request ID", (s.clients req.clientID).reply) :=
    ReplyState.addReply_of_le _ _ hstale
  simp only [goStep, Replica.generateSigned, authenBytes, hsig]
  simp only [Message.setSignature, newReply, Reply.setSignature, Option.map_some, Reply.clientID,
    Option.getD_some, hold]
  rfl

/-- The Request of client `0` with sequence `seq`, as `soloParams` decodes the byte `seq`. -/
def soloRequest (seq : Nat) : Request := ⟨some ⟨0, seq, [], []⟩⟩

/-- Request `1` arrives and is handled (nine steps: validation, the type switch, capture,
pending list, request timer, the Prepare, release, return and `ReplyChannel`); the replica's
own handler processes the Prepare (ten steps), which executes the request. Request `2` follows
in the same way. The result of request `2` is ready first, and its Reply is consumed. -/
def raceSchedule : List Choice :=
  [.arrive [1]] ++ List.replicate 8 (.run 1 []) ++ List.replicate 10 (.run 0 []) ++
    [.arrive [2]] ++ List.replicate 8 (.run 3 []) ++ List.replicate 10 (.run 0 []) ++ [.run 4 []]

theorem replyRace_crashes :
    ∃ c, (replicaProgram (soloParams 0)).Reachable replicaInit c ∧
      ReplicaEvent.executed (soloRequest 1) ∈ c.trace ∧
      ReplicaEvent.executed (soloRequest 2) ∈ c.trace ∧ c.shared.crashed = true ∧
      ReplicaEvent.panicked "Failed to consume generated Reply: old request ID" ∈ c.trace := by
  have hrun : (runChoices (schedStep (soloParams 0)) replicaInit raceSchedule).map
      (fun c => (c.shared.crashed, c.threads[2]?, (c.shared.clients 0).reply.lastRepliedSeq,
        c.trace.contains (.executed (soloRequest 1)) && c.trace.contains (.executed (soloRequest 2)))) =
      some (false, some (.awaitResult (soloRequest 1)), 2, true) := by
    decide +kernel
  obtain ⟨c, hc, heq⟩ := Option.map_eq_some_iff.mp hrun
  simp only [Prod.mk.injEq, Bool.and_eq_true, List.contains_iff_mem] at heq
  obtain ⟨hcr, h2, hrep, hex1, hex2⟩ := heq
  have hpanic := staleReply_panics (soloParams 0) c.shared [] (soloRequest 1)
    (fun _ => ⟨[], rfl⟩) (by simp [soloRequest, Request.sequence, Request.clientID, hrep])
  refine ⟨_, Relation.ReflTransGen.tail (reachable_of_schedule _ _ hc)
    (GoProgram.Step.move h2 ⟨hcr, [], _, hpanic, rfl⟩), ?_, ?_, rfl, by simp⟩
  · simp [hex1]
  · simp [hex2]

/-! ## A later Request dropped from the pending list -/

/-- Whether a goroutine is a `makeRequestProcessor` call between its `CaptureRequestSeq` and its
`pendingReq.Add`. -/
def Goroutine.addingPending : Goroutine → Bool
  | .handler _ _ (.reqAdd _) => true
  | _ => false

/-- Request `1` is handled (nine steps); Request `2` arrives and is captured and added to the
pending list (four steps); then the replica's own handler processes the Prepare of Request `1`
(ten steps), which retires and executes Request `1`. -/
def pendingDropSchedule : List Choice :=
  [.arrive [1]] ++ List.replicate 8 (.run 1 []) ++ [.arrive [2]] ++ List.replicate 4 (.run 2 []) ++
    List.replicate 10 (.run 0 [])

theorem retire_drops_pending_request :
    ∃ c, (replicaProgram (soloParams 0)).Reachable replicaInit c ∧
      c.threads.all (fun g => !g.addingPending) = true ∧
      Goroutine.handler (.incoming (.request (soloRequest 2))) [] (.reqTimer (soloRequest 2)) ∈
        c.threads ∧
      (c.shared.clients 0).seq.lastCapturedSeq = 2 ∧ (c.shared.clients 0).seq.lastRetiredSeq = 1 ∧
      c.shared.pendingReq 0 = none ∧ ReplicaEvent.executed (soloRequest 1) ∈ c.trace ∧
      ReplicaEvent.executed (soloRequest 2) ∉ c.trace := by
  have hrun : (runChoices (schedStep (soloParams 0)) replicaInit pendingDropSchedule).map
      (fun c => (c.threads, (c.shared.clients 0).seq, c.shared.pendingReq 0, c.trace)) =
      some ([.ownWait 1, .replyChannel 0 1,
          .handler (.incoming (.request (soloRequest 2))) [] (.reqTimer (soloRequest 2)),
          .awaitResult (soloRequest 1)],
        ⟨2, 1, 1, 1⟩, none,
        [.accepted (.request (soloRequest 1)), .accepted (.request (soloRequest 2)),
          .executed (soloRequest 1)]) := by
    decide +kernel
  obtain ⟨c, hc, heq⟩ := Option.map_eq_some_iff.mp hrun
  simp only [Prod.mk.injEq] at heq
  obtain ⟨hthreads, hseq, hpend, htrace⟩ := heq
  refine ⟨c, reachable_of_schedule _ _ hc, ?_, ?_, by rw [hseq], by rw [hseq], hpend, ?_, ?_⟩
  · rw [hthreads]
    rfl
  · rw [hthreads]
    simp
  · rw [htrace]
    simp
  · rw [htrace]
    decide

end MinBFT.Core
