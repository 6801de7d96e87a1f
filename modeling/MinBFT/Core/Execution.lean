import MinBFT.Core.Panics
import MinBFT.Core.ReplicaSpec

/-!
# What a replica executes, and the Replies it sends

The requests a replica passes to `executeRequest` (`makeCommitmentCollector`, `core/commit.go`)
and the Replies its stream handlers send back (`makeMessageReplier` and `ReplyChannel`,
`core/message-handling.go`, `core/request.go`, `core/internal/clientstate/reply.go`), over every
run of the replica's goroutines (`replicaProgram`): whatever bytes arrive, in whatever order the
goroutines move and the timers fire.

* Only the collector executes a request, and only once `RetireRequestSeq` has said it is new;
  only the collector starts a goroutine, the one of `makeRequestExecutor` that waits for the
  request's result (`goStep_footprint`).
* A Reply reaches a client's `replyState` only from that goroutine, through
  `makeGeneratedMessageHandler`, which signs it; a stream handler sends only what its client's
  `replyState` holds.

Nothing is assumed of the decoder, the USIG or the `Authenticator`.

## Results

* `goStep_footprint`: what one step of a goroutine does to the client states, the goroutines it
  starts and the events it emits.
* `ExecOk`, `execOk_inductive`: the invariant, kept by every step.
* `executed_once_in_order`: each client's requests are executed in strictly increasing sequence
  order, so none twice, each with a positive sequence at or below the client's `lastRetiredSeq`.
* `replied_after_executed`: every Reply a stream handler sends was generated by this replica,
  signed with its signature, for a request it executed before, with that request's client and
  sequence.
-/

namespace MinBFT.Core

open MinBFT.Messages MinBFT.Usig MinBFT.System

/-! ## Replies of the replica -/

/-- A Reply of this replica for `request`: from the replica, for the request's client and
sequence, with the replica's signature over its authenticated bytes. -/
def SignedReplyFor (P : ReplicaParams) (request : Request) (reply : Reply) : Prop :=
  reply.replicaID = P.id ∧ reply.clientID = request.clientID ∧
    reply.sequence = request.sequence ∧
    ∃ bytes sig, authenBytes P.sha256 (.reply reply) = some bytes ∧ P.sign bytes = .ok sig ∧
      reply.signature = some sig

/-- `RetireRequestSeq` that says new retires an ID above the last retired one, which becomes the
last retired one. -/
theorem SeqState.retireRequestSeq_eq_new {s : SeqState} {seq : Nat}
    (h : (s.retireRequestSeq seq).1 = .ok true) :
    s.lastRetiredSeq < seq ∧ (s.retireRequestSeq seq).2.lastRetiredSeq = seq := by
  unfold SeqState.retireRequestSeq at h ⊢
  by_cases h₁ : seq ≤ s.lastRetiredSeq
  · rw [if_pos h₁] at h
    cases h
  · by_cases h₂ : seq > s.lastPreparedSeq
    · rw [if_neg h₁, if_pos h₂] at h
      cases h
    · rw [if_neg h₁, if_neg h₂]
      exact ⟨by omega, rfl⟩

/-- The collector hands a request on for execution only when `RetireRequestSeq` retired it as
new: its sequence was above the client's last retired one, and is the last retired one after. -/
theorem collectCommitment_executed {α : Type} {f : Nat} {s s' : CommitState α} {r : Nat}
    {p : Prepare} {res : Except String Unit} {req : Request}
    (h : collectCommitment f s r p = .ok (res, s', some req)) :
    req = p.request ∧ (s.clients req.clientID).seq.lastRetiredSeq < req.sequence ∧
      (s'.clients req.clientID).seq.lastRetiredSeq = req.sequence := by
  obtain ⟨⟨ans, counter⟩, -, hk⟩ := Outcome.bind_eq_ok h
  rcases ans with e | _ | _
  · simp only [Outcome.ok.injEq, Prod.mk.injEq, reduceCtorEq, and_false] at hk
  · simp only [Outcome.ok.injEq, Prod.mk.injEq, reduceCtorEq, and_false] at hk
  · -- done: only a new retirement hands the request on
    simp only at hk
    obtain ⟨⟨new, clients⟩, hret, hk⟩ := Outcome.bind_eq_ok hk
    obtain ⟨hnew, rfl⟩ := retireSeq_eq_ok hret
    simp only at hk
    split_ifs at hk with hn
    · simp only [Outcome.ok.injEq, Prod.mk.injEq, Option.some.injEq] at hk
      obtain ⟨-, rfl, rfl⟩ := hk
      subst hn
      obtain ⟨hlt, heq⟩ := SeqState.retireRequestSeq_eq_new hnew
      exact ⟨rfl, hlt, by simpa using heq⟩
    · simp only [Outcome.ok.injEq, Prod.mk.injEq, reduceCtorEq, and_false] at hk

namespace Replica

variable {P : ReplicaParams} {s s' : Replica}

/-! ## What the operations do to the Reply states -/

/-- No client's `replyState` changes from `s` to `s'`. -/
def RepliesKept (s s' : Replica) : Prop :=
  ∀ cl, (s'.clients cl).reply = (s.clients cl).reply

theorem RepliesKept.refl (s : Replica) : RepliesKept s s := fun _ => rfl

theorem RepliesKept.of_clients_eq (h : s'.clients = s.clients) : RepliesKept s s' :=
  fun cl => by rw [h]

/-- Changing one client by a step that keeps its `replyState` keeps every client's. -/
theorem repliesKept_updateClient (s : Replica) (cid : Nat) {g : ClientState → ClientState}
    (hg : ∀ c, (g c).reply = c.reply) : RepliesKept s (s.updateClient cid g) := by
  intro cl
  rw [updateClient_clients]
  split_ifs with hcl
  · subst hcl
    exact hg _
  · rfl

theorem captureRequestSeq_repliesKept {req : Request} (h : s.captureRequestSeq req = .new s') :
    RepliesKept s s' := by
  unfold captureRequestSeq at h
  split at h
  · cases h
  · cases h
  · cases h
    exact repliesKept_updateClient _ _ fun _ => rfl

theorem releaseRequestSeq_repliesKept (req : Request) :
    RepliesKept s (s.releaseRequestSeq req) :=
  repliesKept_updateClient _ _ fun _ => rfl

theorem prepareSeq_repliesKept {req : Request} {new : Bool} (h : s.prepareSeq req = .ok (new, s')) :
    RepliesKept s s' := by
  unfold prepareSeq at h
  split at h
  · cases h
  · simp only [Outcome.ok.injEq, Prod.mk.injEq] at h
    obtain ⟨-, rfl⟩ := h
    exact repliesKept_updateClient _ _ fun _ => rfl

theorem startReqTimer_repliesKept (req : Request) (view : Nat) :
    RepliesKept s (s.startReqTimer P req view) := by
  intro cl
  unfold startReqTimer
  simp only [updateClient_clients]
  split_ifs with hcl
  · subst hcl
    rfl
  · rfl

theorem startPrepTimer_repliesKept (req : Request) (view : Nat) :
    RepliesKept s (s.startPrepTimer P req view) := by
  intro cl
  unfold startPrepTimer
  simp only [updateClient_clients]
  split_ifs with hcl
  · subst hcl
    rfl
  · rfl

theorem generateCertified_clients {m : Message} (h : s.generateCertified P m = .ok s') :
    s'.clients = s.clients := by
  obtain ⟨ui, m', -, rfl⟩ := generateCertified_eq_ok h
  rfl

/-- The collector changes the clients' sequence states only. -/
theorem collect_repliesKept {r : Nat} {p : Prepare} {res : Except String Unit}
    {ex : Option Request} (h : s.collect P r p = .ok (res, s', ex)) : RepliesKept s s' := by
  obtain ⟨⟨res', c, ex'⟩, hc, hk⟩ := Outcome.bind_eq_ok h
  simp only [Outcome.ok.injEq, Prod.mk.injEq] at hk
  obtain ⟨-, rfl, -⟩ := hk
  rcases collectCommitment_clients hc with hcl | ⟨new, -, hcl⟩
  · exact RepliesKept.of_clients_eq (by simp [withCommitState, hcl, commitState])
  · intro cl
    simp only [withCommitState, hcl, commitState, Function.update_apply]
    split_ifs with hcid
    · subst hcid
      rfl
    · rfl

/-- The collector hands a request on for execution only when it retired it as new. -/
theorem collect_executed {r : Nat} {p : Prepare} {res : Except String Unit} {req : Request}
    (h : s.collect P r p = .ok (res, s', some req)) :
    req = p.request ∧ (s.clients req.clientID).seq.lastRetiredSeq < req.sequence ∧
      (s'.clients req.clientID).seq.lastRetiredSeq = req.sequence := by
  obtain ⟨⟨res', c, ex'⟩, hc, hk⟩ := Outcome.bind_eq_ok h
  simp only [Outcome.ok.injEq, Prod.mk.injEq] at hk
  obtain ⟨-, rfl, rfl⟩ := hk
  exact collectCommitment_executed hc

/-- A ReqViewChange that is generated goes to the log and changes no client. -/
theorem requestViewChange_clients {newView : Nat} {ok : Bool}
    (h : s.requestViewChange P newView = .ok (ok, s')) : s'.clients = s.clients := by
  unfold requestViewChange at h
  split_ifs at h with h₁ h₂
  · cases h
    rfl
  · cases h
    rfl
  · obtain ⟨s₁, hs₁, hk⟩ := Outcome.bind_eq_ok h
    cases hk
    unfold generateSigned at hs₁
    split at hs₁
    · cases hs₁
    · split at hs₁
      · cases hs₁
      · next sig _ =>
        -- the signed ReqViewChange is a ReqViewChange: it goes to the log
        simp only [Message.setSignature, ReqViewChange.setSignature, newReqViewChange,
          Option.map_some] at hs₁
        cases hs₁
        rfl

/-- The Reply `makeRequestExecutor` makes for `request`, once `makeGeneratedMessageHandler` has
signed it, is one of this replica for the request, and `AddReply` stores it as the client's last
Reply. -/
theorem generateSigned_newReply {request : Request} {result : Bytes}
    (h : s.generateSigned P (.reply (newReply P.id request.clientID request.sequence result)) =
      .ok s') :
    ∃ reply, SignedReplyFor P request reply ∧
      s' = s.updateClient request.clientID
        fun c => { c with reply := ⟨reply.sequence, some reply⟩ } := by
  unfold generateSigned at h
  split at h
  · cases h
  · next bytes hbytes =>
    split at h
    · cases h
    · next sig hsig =>
      simp only [Message.setSignature, Reply.setSignature, newReply, Option.map_some,
        Reply.clientID, Option.getD_some] at h
      split at h
      · cases h
      · next q hq =>
        cases h
        have hok : (s.clients request.clientID).reply.lastRepliedSeq < request.sequence :=
          (ReplyState.addReply_ok_iff _ _).mp (by rw [hq])
        -- `AddReply` accepted the Reply: it is the client's last one now
        have hq' : q = ⟨request.sequence, some ⟨some ⟨P.id, request.clientID, request.sequence,
            result, sig⟩⟩⟩ := by
          unfold ReplyState.addReply at hq
          rw [if_neg (by simp only [Reply.sequence, Option.map_some, Option.getD_some]; omega)]
            at hq
          exact (Prod.mk.inj hq).2.symm
        subst hq'
        exact ⟨⟨some ⟨P.id, request.clientID, request.sequence, result, sig⟩⟩,
          ⟨rfl, rfl, rfl, bytes, sig, hbytes, hsig, rfl⟩, rfl⟩

end Replica

/-! ## What a step does -/

/-- What one step of a goroutine `g` does to the client states, the goroutines it starts and the
events it emits. -/
inductive Footprint (P : ReplicaParams) (s : Replica) (g : Goroutine) :
    Replica → List Goroutine → List ReplicaEvent → Prop
  /-- No Reply changes, no request is executed and no goroutine starts; the events are messages
  accepted. -/
  | quiet {s' : Replica} {es : List ReplicaEvent} :
      Replica.SeqsAdvance s s' → Replica.RepliesKept s s' →
      (∀ e ∈ es, ∃ m, e = .accepted m) → Footprint P s g s' [] es
  /-- A stream handler sends its client's last Reply. -/
  | replied {cl : Nat} {reply : Reply} :
      (s.clients cl).reply.reply = some reply → Footprint P s g s [] [.replied reply]
  /-- The collector, with the request it executes, if any, and its result's goroutine. -/
  | collect {s' : Replica} {r : Nat} {p : Prepare} {res : Except String Unit}
      {ex : Option Request} :
      s.collect P r p = .ok (res, s', ex) →
      Footprint P s g s' (ex.toList.map .awaitResult) (ex.toList.map .executed)
  /-- `makeRequestExecutor`'s goroutine hands the Reply for its request to
  `makeGeneratedMessageHandler`. -/
  | reply {s' : Replica} {req : Request} {result : Bytes} :
      g = .awaitResult req →
      s.generateSigned P (.reply (newReply P.id req.clientID req.sequence result)) = .ok s' →
      Footprint P s g s' [] []

namespace Footprint

variable {P : ReplicaParams} {s : Replica} {g : Goroutine}

/-- A step that changes nothing the footprint speaks of. -/
theorem same : Footprint P s g s [] [] :=
  .quiet (.refl _) (.refl _) fun _ he => absurd he List.not_mem_nil

theorem of_clients_eq {s' : Replica} (h : s'.clients = s.clients) : Footprint P s g s' [] [] :=
  .quiet (.of_seq_eq fun cl => by rw [h]) (.of_clients_eq h) fun _ he => absurd he List.not_mem_nil

end Footprint

section Steps

variable {P : ReplicaParams} {s s' : Replica}

/-- A step of a call of `processMessage`: the collector, or a quiet step. -/
theorem procStep_footprint {proc proc' : Proc} {forks : List Goroutine} {es : List ReplicaEvent}
    (h : procStep P s proc = some (.ok (s', proc', forks, es))) (g : Goroutine) :
    Footprint P s g s' forks es := by
  cases proc with
  | start m =>
    simp only [procStep] at h
    split at h <;> cases h <;> exact .same
  | reqCapture req =>
    simp only [procStep] at h
    split at h
    · cases h
    · cases h
      exact .same
    · next hnew =>
      cases h
      exact .quiet (Replica.captureRequestSeq_eq_new hnew).1
        (Replica.captureRequestSeq_repliesKept hnew) fun _ he => absurd he List.not_mem_nil
  | reqAdd req =>
    cases h
    exact .of_clients_eq rfl
  | reqTimer req =>
    cases h
    exact .quiet (Replica.startReqTimer_seqsAdvance _ _ _) (Replica.startReqTimer_repliesKept _ _)
      fun _ he => absurd he List.not_mem_nil
  | reqApply req =>
    simp only [procStep] at h
    split_ifs at h
    · -- the primary's Prepare goes to the log
      obtain ⟨s₁, hgen, hk⟩ := Outcome.bind_eq_ok (Option.some.inj h)
      cases hk
      exact .of_clients_eq (Replica.generateCertified_clients hgen)
    · cases h
      exact .quiet (Replica.startPrepTimer_seqsAdvance _ _ _)
        (Replica.startPrepTimer_repliesKept _ _) fun _ he => absurd he List.not_mem_nil
  | reqRelease req =>
    cases h
    exact .quiet (Replica.releaseRequestSeq_seqsAdvance _ _)
      (Replica.releaseRequestSeq_repliesKept _) fun _ he => absurd he List.not_mem_nil
  | peerCapture m =>
    simp only [procStep] at h
    -- a Prepare and a Commit go the same way: `captureUI` changes only the peers
    split at h
    case h_3 => cases h
    all_goals
      split at h
      · cases h
      · cases h
      · cases h
      · cases h
        exact .same
      · next hnew =>
        obtain ⟨ui, q, -, -, rfl⟩ := Replica.captureUI_eq_new hnew
        split_ifs at h
        · cases h
          exact .of_clients_eq rfl
        · split at h <;> cases h <;> exact .of_clients_eq rfl
  | prepSeq p =>
    simp only [procStep] at h
    obtain ⟨⟨new, s₁⟩, hprep, hk⟩ := Outcome.bind_eq_ok (Option.some.inj h)
    split_ifs at hk <;> cases hk <;>
      exact .quiet (Replica.prepareSeq_eq_ok hprep).1 (Replica.prepareSeq_repliesKept hprep)
        fun _ he => absurd he List.not_mem_nil
  | prepCollect p =>
    simp only [procStep] at h
    -- the primary's own Prepare and a backup's go through the collector alike
    split_ifs at h <;>
    · obtain ⟨⟨res, s₁, ex⟩, hcol, hk⟩ := Outcome.bind_eq_ok (Option.some.inj h)
      split at hk <;> cases hk <;> exact .collect hcol
  | prepStopTimer p =>
    cases h
    exact .of_clients_eq rfl
  | prepCommit p =>
    simp only [procStep] at h
    obtain ⟨s₁, hgen, hk⟩ := Outcome.bind_eq_ok (Option.some.inj h)
    cases hk
    exact .of_clients_eq (Replica.generateCertified_clients hgen)
  | commitCollect cm =>
    simp only [procStep] at h
    split_ifs at h
    obtain ⟨⟨res, s₁, ex⟩, hcol, hk⟩ := Outcome.bind_eq_ok (Option.some.inj h)
    split at hk <;> cases hk <;> exact .collect hcol
  | peerRelease m res =>
    cases h
    exact .of_clients_eq rfl
  | returned res => cases h

/-- After `handle` returns, a stream handler ends or waits for its Reply, and
`handleGeneratedPeerMessages` waits for the log's next message. -/
theorem finishHandle_ne_awaitResult {top : Top} {res : Except String Bool} {g' : Option Goroutine}
    (h : finishHandle top res = .ok g') (r : Request) : g' ≠ some (.awaitResult r) := by
  unfold finishHandle at h
  split at h
  · cases h
    exact fun h' => by cases h'
  · split at h <;> cases h <;> exact fun h' => by cases h'
  · cases h
  · cases h
    exact fun h' => by cases h'

/-- **What a step of a goroutine does**: it goes on as anything but a goroutine waiting for a
result, and its footprint is one of `Footprint`'s. -/
theorem goStep_footprint {result : Bytes} {g : Goroutine} {g' : Option Goroutine}
    {forks : List Goroutine} {es : List ReplicaEvent}
    (h : goStep P s result g = some (.ok (s', g', forks, es))) :
    (∀ r, g' ≠ some (.awaitResult r)) ∧ Footprint P s g s' forks es := by
  cases g with
  | received m =>
    -- validation changes only the history of validated messages
    obtain ⟨rfl, rfl, ⟨e, -, rfl, rfl⟩ | ⟨-, rfl, rfl⟩⟩ := goStep_received_eq_ok h
    · exact ⟨(fun _ h' => by cases h'), .of_clients_eq rfl⟩
    · refine ⟨(fun _ h' => by cases h'),
        .quiet (.of_seq_eq fun _ => rfl) (.of_clients_eq rfl) fun e he => ?_⟩
      exact ⟨m, List.mem_singleton.mp he⟩
  | handler top frames proc =>
    simp only [goStep] at h
    split at h
    · obtain ⟨g'', hfin, hk⟩ := Outcome.bind_eq_ok (Option.some.inj h)
      cases hk
      exact ⟨finishHandle_ne_awaitResult hfin, .same⟩
    · obtain ⟨o, ho, hk⟩ := Option.map_eq_some_iff.mp h
      obtain ⟨⟨s₁, frames', proc', forks', es'⟩, rfl, hk⟩ := Outcome.bind_eq_ok hk
      cases hk
      refine ⟨(fun _ h' => by cases h'), ?_⟩
      rcases handlerStep_cases ho with ⟨_, _, _, _, ho'⟩ | ⟨_, _, _, _, _, ho'⟩ | ⟨_, o', hproc, ho'⟩
      · cases ho'
        exact .same
      · obtain ⟨_, -, hk⟩ := Outcome.bind_eq_ok ho'.symm
        cases hk
        exact .same
      · obtain ⟨⟨s₂, proc₂, forks₂, es₂⟩, rfl, hk⟩ := Outcome.bind_eq_ok ho'.symm
        cases hk
        exact procStep_footprint hproc _
  | ownWait next =>
    obtain ⟨m, -, hk⟩ := Option.map_eq_some_iff.mp h
    cases hk
    exact ⟨(fun _ h' => by cases h'), .same⟩
  | replyChannel cl seq =>
    simp only [goStep] at h
    split_ifs at h
    split at h
    · cases h
    · next reply hreply =>
      split_ifs at h
      · cases h
        exact ⟨(fun _ h' => by cases h'), .replied hreply⟩
      · cases h
        exact ⟨(fun _ h' => by cases h'), .same⟩
  | awaitResult req =>
    obtain ⟨s₁, hgen, hk⟩ := Outcome.bind_eq_ok (Option.some.inj h)
    cases hk
    exact ⟨(fun _ h' => by cases h'), .reply rfl hgen⟩
  | timeout cb =>
    cases cb with
    | requestTimeout cl seq view =>
      obtain ⟨⟨ok, s₁⟩, hreq, hk⟩ := Outcome.bind_eq_ok (Option.some.inj h)
      cases hk
      exact ⟨(fun _ h' => by cases h'), .of_clients_eq (Replica.requestViewChange_clients hreq)⟩
    | prepareTimeout cl seq view =>
      cases h
      exact ⟨(fun _ h' => by cases h'), .same⟩

end Steps

/-! ## The invariant -/

/-- An event that neither executes a request nor sends a Reply. -/
def ReplicaEvent.Silent : ReplicaEvent → Prop
  | .executed _ => False
  | .replied _ => False
  | .accepted _ => True
  | .panicked _ => True

/-- An execution comes after every earlier execution of a request of its client, with a larger
sequence; its sequence is positive. -/
def ExecutedInOrder (before : List ReplicaEvent) : ReplicaEvent → Prop
  | .executed r => 0 < r.sequence ∧
      ∀ r', ReplicaEvent.executed r' ∈ before → r'.clientID = r.clientID → r'.sequence < r.sequence
  | .replied _ => True
  | .accepted _ => True
  | .panicked _ => True

/-- A Reply sent comes after the execution of a request it is this replica's Reply for. -/
def RepliedAfterExecuted (P : ReplicaParams) (before : List ReplicaEvent) : ReplicaEvent → Prop
  | .replied reply => ∃ r, ReplicaEvent.executed r ∈ before ∧ SignedReplyFor P r reply
  | .executed _ => True
  | .accepted _ => True
  | .panicked _ => True

theorem executedInOrder_of_silent {before : List ReplicaEvent} {e : ReplicaEvent}
    (he : e.Silent) : ExecutedInOrder before e := by
  cases e with
  | executed r => exact False.elim he
  | _ => trivial

theorem repliedAfterExecuted_of_silent {P : ReplicaParams} {before : List ReplicaEvent}
    {e : ReplicaEvent} (he : e.Silent) : RepliedAfterExecuted P before e := by
  cases e with
  | replied r => exact False.elim he
  | _ => trivial

/-- **The invariant of executions and Replies.** -/
structure ExecOk (P : ReplicaParams) (c : Config Replica Goroutine ReplicaEvent) : Prop where
  /-- The clients' sequence states are in order. -/
  valid : ∀ cl, (c.shared.clients cl).seq.Valid
  /-- A request executed is retired. -/
  retired : ∀ r, ReplicaEvent.executed r ∈ c.trace →
    r.sequence ≤ (c.shared.clients r.clientID).seq.lastRetiredSeq
  /-- Each client's executions come in increasing sequence order. -/
  order : EachEvent ExecutedInOrder c.trace
  /-- A goroutine waiting for a result waits for that of a request executed. -/
  awaiting : ∀ r, Goroutine.awaitResult r ∈ c.threads → ReplicaEvent.executed r ∈ c.trace
  /-- The Reply a client's `replyState` holds is this replica's, for a request executed. -/
  stored : ∀ cl reply, (c.shared.clients cl).reply.reply = some reply →
    ∃ r, ReplicaEvent.executed r ∈ c.trace ∧ SignedReplyFor P r reply
  /-- Every Reply sent comes after the execution it is for. -/
  replied : EachEvent (RepliedAfterExecuted P) c.trace

section Invariant

variable {P : ReplicaParams} {c : Config Replica Goroutine ReplicaEvent}

/-- The invariant survives a step that advances the sequence states, keeps the Replies, starts
no goroutine waiting for a result and emits only silent events. -/
theorem ExecOk.quiet (h : ExecOk P c) {s' : Replica} {threads' : List Goroutine}
    {es : List ReplicaEvent} (hseq : Replica.SeqsAdvance c.shared s')
    (hrep : Replica.RepliesKept c.shared s')
    (hth : ∀ r, Goroutine.awaitResult r ∈ threads' → Goroutine.awaitResult r ∈ c.threads)
    (hes : ∀ e ∈ es, e.Silent) : ExecOk P ⟨s', threads', c.trace ++ es⟩ where
  valid cl := (hseq cl (h.valid cl)).1
  retired r hr := by
    have hr' : ReplicaEvent.executed r ∈ c.trace := by
      rcases List.mem_append.mp hr with hr | hr
      · exact hr
      · exact False.elim (hes _ hr)
    exact Nat.le_trans (h.retired r hr') (hseq _ (h.valid _)).2.retired
  order := h.order.append fun _ e he => executedInOrder_of_silent (hes e (List.mem_of_getElem? he))
  awaiting r hr := List.mem_append_left _ (h.awaiting r (hth r hr))
  stored cl reply hr := by
    obtain ⟨r, hr', hfor⟩ := h.stored cl reply (by rw [← hrep cl]; exact hr)
    exact ⟨r, List.mem_append_left _ hr', hfor⟩
  replied := h.replied.append fun _ e he =>
    repliedAfterExecuted_of_silent (hes e (List.mem_of_getElem? he))

/-- A stream handler sends its client's last Reply: one attributed to an execution already. -/
theorem ExecOk.send (h : ExecOk P c) {threads' : List Goroutine} {cl : Nat} {reply : Reply}
    (hreply : (c.shared.clients cl).reply.reply = some reply)
    (hth : ∀ r, Goroutine.awaitResult r ∈ threads' → Goroutine.awaitResult r ∈ c.threads) :
    ExecOk P ⟨c.shared, threads', c.trace ++ [.replied reply]⟩ where
  valid := h.valid
  retired r hr := h.retired r (by simpa using hr)
  order := h.order.snoc trivial
  awaiting r hr := List.mem_append_left _ (h.awaiting r (hth r hr))
  stored cl' reply' hr := by
    obtain ⟨r, hr', hfor⟩ := h.stored cl' reply' hr
    exact ⟨r, List.mem_append_left _ hr', hfor⟩
  replied := h.replied.snoc (h.stored cl reply hreply)

/-- The collector: a request it executes was retired as new, so its sequence is above every
earlier execution's of its client; its result's goroutine waits for an execution. -/
theorem ExecOk.collect (h : ExecOk P c) {s' : Replica} {threads' : List Goroutine} {r : Nat}
    {p : Prepare} {res : Except String Unit} {ex : Option Request}
    (hcol : c.shared.collect P r p = .ok (res, s', ex))
    (hth : ∀ q, Goroutine.awaitResult q ∈ threads' →
      Goroutine.awaitResult q ∈ c.threads ∨ ex = some q) :
    ExecOk P ⟨s', threads', c.trace ++ ex.toList.map .executed⟩ := by
  have hseq := (Replica.collect_eq_ok hcol).1
  cases ex with
  | none =>
    exact h.quiet hseq (Replica.collect_repliesKept hcol)
      (fun q hq => (hth q hq).resolve_right fun h' => by cases h') fun _ he => absurd he List.not_mem_nil
  | some req =>
    obtain ⟨-, hlt, hret⟩ := Replica.collect_executed hcol
    refine ⟨fun cl => (hseq cl (h.valid cl)).1, fun q hq => ?_, h.order.snoc ⟨by omega, ?_⟩,
      fun q hq => ?_, fun cl reply hr => ?_, h.replied.snoc trivial⟩
    · rcases List.mem_append.mp hq with hq | hq
      · exact Nat.le_trans (h.retired q hq) (hseq _ (h.valid _)).2.retired
      · -- the request executed now is the client's last retired one
        obtain rfl : q = req := by simpa using hq
        exact Nat.le_of_eq hret.symm
    · intro q hq hcl
      have := h.retired q hq
      rw [hcl] at this
      omega
    · rcases hth q hq with hq | hq
      · exact List.mem_append_left _ (h.awaiting q hq)
      · cases hq
        simp
    · obtain ⟨q, hq, hfor⟩ := h.stored cl reply
        (by rw [← Replica.collect_repliesKept hcol cl]; exact hr)
      exact ⟨q, List.mem_append_left _ hq, hfor⟩

/-- `makeRequestExecutor`'s goroutine stores the Reply for its request, which was executed. -/
theorem ExecOk.generate (h : ExecOk P c) {s' : Replica} {threads' : List Goroutine}
    {req : Request} {result : Bytes} (hg : Goroutine.awaitResult req ∈ c.threads)
    (hgen : c.shared.generateSigned P (.reply (newReply P.id req.clientID req.sequence result)) =
      .ok s')
    (hth : ∀ q, Goroutine.awaitResult q ∈ threads' → Goroutine.awaitResult q ∈ c.threads) :
    ExecOk P ⟨s', threads', c.trace ++ []⟩ := by
  obtain ⟨reply, hfor, rfl⟩ := Replica.generateSigned_newReply hgen
  have hseq := Replica.seqsAdvance_updateClient_of_seq c.shared req.clientID
    (fun c => { c with reply := ⟨reply.sequence, some reply⟩ }) fun _ => rfl
  rw [List.append_nil]
  refine ⟨fun cl => (hseq cl (h.valid cl)).1, fun q hq => ?_, h.order,
    fun q hq => h.awaiting q (hth q hq), fun cl reply' hr => ?_, h.replied⟩
  · exact Nat.le_trans (h.retired q hq) (hseq _ (h.valid _)).2.retired
  · rw [Replica.updateClient_clients] at hr
    split_ifs at hr with hcl
    · -- the client's new last Reply is the one made for the executed request
      cases hr
      exact ⟨req, h.awaiting req hg, hfor⟩
    · exact h.stored cl reply' hr

/-- The goroutines after a move that starts none, except possibly one waiting for a result. -/
theorem awaitResult_mem_moveThread {threads : List Goroutine} {i : Nat} {g' : Option Goroutine}
    {forks : List Goroutine} (hnext : ∀ r, g' ≠ some (.awaitResult r)) {q : Request}
    (hq : Goroutine.awaitResult q ∈ moveThread threads i g' forks) :
    Goroutine.awaitResult q ∈ threads ∨ Goroutine.awaitResult q ∈ forks := by
  rcases mem_moveThread hq with hq | hq | hq
  · exact .inl hq
  · exact absurd hq (hnext q)
  · exact .inr hq

/-- **Every step keeps the invariant.** -/
theorem ExecOk.step (h : ExecOk P c) {c' : Config Replica Goroutine ReplicaEvent}
    (hstep : (replicaProgram P).Step c c') : ExecOk P c' := by
  cases hstep with
  | env henv =>
    -- the environment starts a stream handler or a timer's function
    cases henv with
    | arrive _ _ =>
      exact h.quiet (.refl _) (.refl _) (fun q hq => by simpa using hq)
        fun _ he => absurd he List.not_mem_nil
    | fire _ _ =>
      exact h.quiet (.of_seq_eq fun _ => rfl) (.of_clients_eq rfl) (fun q hq => by simpa using hq)
        fun _ he => absurd he List.not_mem_nil
  | move hi hmove =>
    obtain ⟨-, result, o, ho, hsettle⟩ := hmove
    cases o with
    | ok r =>
      rw [settle_ok] at hsettle
      subst hsettle
      obtain ⟨hnext, hfp⟩ := goStep_footprint ho
      cases hfp with
      | quiet hseq hrep hes =>
        refine h.quiet hseq hrep (fun q hq => ?_) fun e he => ?_
        · exact (awaitResult_mem_moveThread hnext hq).resolve_right List.not_mem_nil
        · obtain ⟨m, rfl⟩ := hes e he
          trivial
      | replied hreply =>
        exact h.send hreply fun q hq =>
          (awaitResult_mem_moveThread hnext hq).resolve_right List.not_mem_nil
      | collect hcol =>
        refine h.collect hcol fun q hq => ?_
        rcases awaitResult_mem_moveThread hnext hq with hq | hq
        · exact .inl hq
        · exact .inr (by simpa using hq)
      | reply hg hgen =>
        subst hg
        exact h.generate (List.mem_of_getElem? hi) hgen fun q hq =>
          (awaitResult_mem_moveThread hnext hq).resolve_right List.not_mem_nil
    | panic e =>
      -- a panic stops the replica; its goroutine is gone
      simp only [settle_panic, Prod.mk.injEq] at hsettle
      obtain ⟨rfl, rfl, rfl, rfl⟩ := hsettle
      refine h.quiet (.of_seq_eq fun _ => rfl) (.of_clients_eq rfl) (fun q hq => ?_) fun e he => ?_
      · exact (awaitResult_mem_moveThread (fun _ h' => by cases h') hq).resolve_right
          List.not_mem_nil
      · cases List.mem_singleton.mp he
        trivial
    | hang =>
      -- a collector that never returns keeps its goroutine where it is
      simp only [settle_hang, Prod.mk.injEq] at hsettle
      obtain ⟨rfl, rfl, rfl, rfl⟩ := hsettle
      refine h.quiet (.of_seq_eq fun _ => rfl) (.of_clients_eq rfl) (fun q hq => ?_)
        fun _ he => absurd he List.not_mem_nil
      rcases mem_moveThread hq with hq | hq | hq
      · exact hq
      · cases hq
        exact List.mem_of_getElem? hi
      · cases hq

theorem execOk_init (P : ReplicaParams) : ExecOk P replicaInit where
  valid _ := SeqState.valid_init
  retired _ hr := absurd hr List.not_mem_nil
  order := eachEvent_nil _
  awaiting _ hr := by simp [replicaInit] at hr
  stored _ _ hr := by simp [replicaInit] at hr
  replied := eachEvent_nil _

theorem execOk_inductive (P : ReplicaParams) :
    Inductive (replicaProgram P).Step replicaInit (ExecOk P) :=
  ⟨execOk_init P, fun _ _ h hstep => h.step hstep⟩

end Invariant

/-! ## Executions and Replies over every run -/

/-- An event of a history is in the part of it before every later position. -/
theorem mem_take_of_getElem? {α : Type} {l : List α} {i j : Nat} {a : α} (hij : i < j)
    (h : l[i]? = some a) : a ∈ l.take j := by
  rw [← List.getElem?_take_of_lt hij] at h
  exact List.mem_of_getElem? h

/-- An event of the part of a history before position `j` is at a position below `j`. -/
theorem exists_lt_of_mem_take {α : Type} {l : List α} {j : Nat} {a : α} (h : a ∈ l.take j) :
    ∃ i, i < j ∧ l[i]? = some a := by
  obtain ⟨i, hi⟩ := List.mem_iff_getElem?.mp h
  have hlt : i < j := by
    have := (List.getElem?_eq_some_iff.mp hi).1
    simp only [List.length_take] at this
    omega
  exact ⟨i, hlt, by rwa [List.getElem?_take_of_lt hlt] at hi⟩

/-- A Reply sent at position `k` of the history comes after the execution of a request it is the
replica's Reply for. -/
theorem ExecOk.executed_before_replied {P : ReplicaParams}
    {c : Config Replica Goroutine ReplicaEvent} (h : ExecOk P c) {k : Nat} {reply : Reply}
    (hk : c.trace[k]? = some (ReplicaEvent.replied reply)) :
    ∃ j r, j < k ∧ c.trace[j]? = some (ReplicaEvent.executed r) ∧ SignedReplyFor P r reply := by
  obtain ⟨r, hr, hfor⟩ := h.replied k (.replied reply) hk
  obtain ⟨j, hjk, hj⟩ := exists_lt_of_mem_take hr
  exact ⟨j, r, hjk, hj, hfor⟩

/-- **Each client's requests are executed once, in order.** In every configuration of every run
of a replica, two executions of requests of one client come in strictly increasing sequence
order, so no request of a client is executed twice; every request executed has a positive
sequence, at or below its client's `lastRetiredSeq`. -/
theorem executed_once_in_order {P : ReplicaParams} {c : Config Replica Goroutine ReplicaEvent}
    (hreach : (replicaProgram P).Reachable replicaInit c) :
    (∀ (i j : Nat) (r r' : Request), i < j → c.trace[i]? = some (ReplicaEvent.executed r) →
      c.trace[j]? = some (ReplicaEvent.executed r') → r.clientID = r'.clientID →
      r.sequence < r'.sequence) ∧
    ∀ r, ReplicaEvent.executed r ∈ c.trace →
      0 < r.sequence ∧ r.sequence ≤ (c.shared.clients r.clientID).seq.lastRetiredSeq := by
  have h := (execOk_inductive P).reachable hreach
  refine ⟨fun i j r r' hij hi hj hcl => ?_, fun r hr => ⟨?_, h.retired r hr⟩⟩
  · exact (h.order j (.executed r') hj).2 r (mem_take_of_getElem? hij hi) hcl
  · obtain ⟨j, hj⟩ := List.mem_iff_getElem?.mp hr
    exact (h.order j (.executed r) hj).1

/-- **A replica replies only with its own Replies to requests it executed.** In every
configuration of every run, each Reply a stream handler has sent comes after the execution of a
request with the Reply's client and sequence, and is this replica's: its `ReplicaID` is the
replica's, and it carries the replica's signature over its authenticated bytes. -/
theorem replied_after_executed {P : ReplicaParams} {c : Config Replica Goroutine ReplicaEvent}
    (hreach : (replicaProgram P).Reachable replicaInit c) :
    ∀ (j : Nat) (reply : Reply), c.trace[j]? = some (ReplicaEvent.replied reply) →
      ∃ i r, i < j ∧ c.trace[i]? = some (ReplicaEvent.executed r) ∧ SignedReplyFor P r reply :=
  fun _ _ hj => ((execOk_inductive P).reachable hreach).executed_before_replied hj

/-- Request `1` arrives and is handled (eight steps), the replica's own handler processes its
Prepare and executes it (ten steps), the result `[7]` comes, and the stream handler sends the
Reply. -/
def repliedSchedule : List Choice :=
  [.arrive [1]] ++ List.replicate 8 (.run 1 []) ++ List.replicate 10 (.run 0 []) ++
    [.run 2 [7], .run 1 []]

/-- The Reply of `soloParams`' replica for request `1` of client `0`, with result `[7]`. -/
def soloReply : Reply := ⟨some ⟨0, 0, 1, [7], []⟩⟩

theorem repliedSchedule_run :
    ∃ c, (replicaProgram (soloParams 0)).Reachable replicaInit c ∧
      c.trace = [.accepted (.request (soloRequest 1)), .executed (soloRequest 1),
        .replied soloReply] := by
  have hrun : (runChoices (schedStep (soloParams 0)) replicaInit repliedSchedule).map
      (·.trace) =
      some [.accepted (.request (soloRequest 1)), .executed (soloRequest 1),
        .replied soloReply] := by
    decide +kernel
  obtain ⟨c, hc, htr⟩ := Option.map_eq_some_iff.mp hrun
  exact ⟨c, reachable_of_schedule _ _ hc, htr⟩

theorem executed_once_in_order_replied :
    ∃ c, (replicaProgram (soloParams 0)).Reachable replicaInit c ∧
      ReplicaEvent.executed (soloRequest 1) ∈ c.trace ∧
      (∀ (i j : Nat) (r r' : Request), i < j → c.trace[i]? = some (ReplicaEvent.executed r) →
        c.trace[j]? = some (ReplicaEvent.executed r') → r.clientID = r'.clientID →
        r.sequence < r'.sequence) ∧
      ∀ r, ReplicaEvent.executed r ∈ c.trace →
        0 < r.sequence ∧ r.sequence ≤ (c.shared.clients r.clientID).seq.lastRetiredSeq := by
  obtain ⟨c, hreach, htr⟩ := repliedSchedule_run
  exact ⟨c, hreach, by simp [htr], executed_once_in_order hreach⟩

theorem replied_after_executed_replied :
    ∃ c, (replicaProgram (soloParams 0)).Reachable replicaInit c ∧
      c.trace[2]? = some (ReplicaEvent.replied soloReply) ∧
      ∀ (j : Nat) (reply : Reply), c.trace[j]? = some (ReplicaEvent.replied reply) →
        ∃ i r, i < j ∧ c.trace[i]? = some (ReplicaEvent.executed r) ∧
          SignedReplyFor (soloParams 0) r reply := by
  obtain ⟨c, hreach, htr⟩ := repliedSchedule_run
  exact ⟨c, hreach, by simp [htr], replied_after_executed hreach⟩

end MinBFT.Core
