import MinBFT.Core.Replica
import MinBFT.System.Goroutines

/-!
# The goroutines of a replica

The message handling of a replica (`core/message-handling.go`, `core/request.go`,
`core/prepare.go`, `core/commit.go`, `core/timeout.go`) as a program of goroutines over the shared
state `Replica` (`System.GoProgram`). A goroutine's atomic step is one critical section of
`Replica`, with the computation on the goroutine's own values before it; a blocking wait is a
step that is not enabled.

* A **message stream handler** (`makeMessageStreamHandler`) gets a decoded message, runs
  `Stringify` and `handle(msg, false)`: validation, `processMessage`, and `reply`. The
  environment starts one for every message that arrives, so the messages of one connection are
  handled concurrently too: the runs of the model include those of the replica. Validation is
  one step, answered by the authenticator after the messages validated before, and the message
  then joins that history (`goStep_received_eq_ok`).
* **`handleGeneratedPeerMessages`** is one goroutine from the start: it takes the messages of
  the log in order and runs `handle(msg, true)`, whose error panics.
* `processMessage` is a call with nested calls: a Prepare first processes its Request, a Commit
  its Prepare (`makeEmbeddedMessageProcessor`). A handler keeps the current call as a `Proc` and
  the calls it returns to as `Frame`s.
* `makeRequestExecutor`'s goroutine waits for the result of `RequestConsumer.Deliver` and
  hands the Reply to `handleGeneratedMessage`; a result may come at any time, with any value.
* `ReplyChannel(seq)` starts a goroutine that waits for the client's reply `seq`; with the
  replier's goroutine that forwards it, and the stream handler that sends it, it is one goroutine
  `replyChannel`.
* A timer's function runs in a goroutine of its own when the timer fires; the environment fires
  any armed timer.
* A panic stops every goroutine (`Replica.crashed`). A commitment counter that never returns
  (`Outcome.hang` of `collect`) keeps its goroutine where it is, holding the collector's lock
  (`Replica.collectorHung`).

Each step of the model is written with the source's order of calls and error texts.
-/

namespace MinBFT.Core

open MinBFT.Messages MinBFT.Usig MinBFT.System

/-- Where a call of `processMessage` is. -/
inductive Proc where
  /-- `processMessage(m)`: the type switch. -/
  | start (m : Message)
  /-- `processRequest`: `captureSeq(request)`, which may wait. -/
  | reqCapture (req : Request)
  /-- `pendingReq.Add(request)`. -/
  | reqAdd (req : Request)
  /-- `applyRequest`: `startReqTimer(request, view)`. -/
  | reqTimer (req : Request)
  /-- `applyRequest`: the primary's Prepare, or a backup's prepare timer. -/
  | reqApply (req : Request)
  /-- The deferred `releaseSeq()`. -/
  | reqRelease (req : Request)
  /-- `processPeerMessage` after `processEmbedded`: the type switch, then `captureUI`, which may
  wait, and the view check of `processViewMessage`. -/
  | peerCapture (m : Message)
  /-- `applyPrepare`: `prepareSeq(request)`. -/
  | prepSeq (p : Prepare)
  /-- `applyPrepare`: `collectCommitment(primaryID, prepare)`. -/
  | prepCollect (p : Prepare)
  /-- `applyPrepare`: `stopPrepTimer(request)`. -/
  | prepStopTimer (p : Prepare)
  /-- `applyPrepare`: `handleGeneratedMessage(NewCommit(id, prepare))`. -/
  | prepCommit (p : Prepare)
  /-- `applyCommit`: `collectCommitment(replicaID, prepare)`. -/
  | commitCollect (c : Commit)
  /-- The deferred `release()` of the UI, then the return of `res`. -/
  | peerRelease (m : Message) (res : Except String Bool)
  /-- The call has returned `(new, err)`. -/
  | returned (res : Except String Bool)
  deriving DecidableEq, Repr

/-- A call a handler returns to: `processEmbedded` of a Prepare or Commit, which logs the error
of the embedded message and goes on with the outer one. -/
inductive Frame where
  | embedded (outer : Message)
  deriving DecidableEq, Repr

/-- Who called `handle`. -/
inductive Top where
  /-- A message stream handler, `handle(msg, false)`. -/
  | incoming (m : Message)
  /-- `handleGeneratedPeerMessages`, `handle(msg, true)` for the log's message `next`. -/
  | own (next : Nat)
  deriving DecidableEq, Repr

/-- A goroutine of the replica. -/
inductive Goroutine where
  /-- A message stream handler with a decoded message, before `Stringify` and validation. -/
  | received (m : Message)
  /-- A call of `handle` in progress. -/
  | handler (top : Top) (frames : List Frame) (proc : Proc)
  /-- `handleGeneratedPeerMessages`, waiting for the log's message `next`. -/
  | ownWait (next : Nat)
  /-- `ReplyChannel(seq)`'s goroutine for a client, and the replier that forwards its Reply. -/
  | replyChannel (clientID seq : Nat)
  /-- `makeRequestExecutor`'s goroutine for an executed Request. -/
  | awaitResult (request : Request)
  /-- The function of a fired timer. -/
  | timeout (cb : TimerCallback)
  deriving DecidableEq, Repr

/-- What a replica does that its environment sees. -/
inductive ReplicaEvent where
  /-- `executeRequest(request)`. -/
  | executed (request : Request)
  /-- A Reply sent back on a client's stream. -/
  | replied (reply : Reply)
  /-- A message from a connection passed validation. -/
  | accepted (m : Message)
  /-- A goroutine panicked. -/
  | panicked (msg : String)
  deriving DecidableEq, Repr

/-- The message a UI belongs to: a Prepare's own view, a Commit's Prepare's. -/
def messageView : Message → Nat
  | .prepare p => p.view
  | .commit c => c.prepare.view
  | _ => 0

/-- One step of a call, when it is enabled (`none` while it waits): the shared state, the call's
next point, the goroutines it starts and its events; or a panic. The calls of `processEmbedded`
are not here: they change the handler's frames (`goStep`). -/
def procStep (P : ReplicaParams) (s : Replica) : Proc →
    Option (Outcome (Replica × Proc × List Goroutine × List ReplicaEvent))
  | .start m =>
    match m with
    | .request req => some (.ok (s, .reqCapture req, [], []))
    | .reply _ => some (.panic "Unknown message type")
    | m => some (.ok (s, .peerCapture m, [], []))
  | .reqCapture req =>
    match s.captureRequestSeq req with
    | .wait => none
    | .old => some (.ok (s, .returned (.ok false), [], []))
    | .new s' => some (.ok (s', .reqAdd req, [], []))
  | .reqAdd req => some (.ok (s.addPending req, .reqTimer req, [], []))
  | .reqTimer req => some (.ok (s.startReqTimer P req 0, .reqApply req, [], []))
  | .reqApply req =>
    if isPrimary 0 P.id P.cfg.n then
      some ((s.generateCertified P (.prepare (newPrepare P.id 0 req))).bind fun s' =>
        .ok (s', .reqRelease req, [], []))
    else some (.ok (s.startPrepTimer P req 0, .reqRelease req, [], []))
  | .reqRelease req => some (.ok (s.releaseRequestSeq req, .returned (.ok true), [], []))
  | .peerCapture m =>
    match m with
    | .prepare _ | .commit _ =>
      match s.captureUI m with
      | .panic e => some (.panic e)
      | .hang => none
      | .ok .wait => none
      | .ok .old => some (.ok (s, .returned (.ok false), [], []))
      | .ok (.new s') =>
        if 0 < messageView m then
          some (.ok (s', .peerRelease m (.error "Message refers to unexpected view"), [], []))
        else
          match m with
          | .prepare p => some (.ok (s', .prepSeq p, [], []))
          | .commit c => some (.ok (s', .commitCollect c, [], []))
          | _ => some (.panic "Unknown message type")
    | _ => some (.panic "Unknown message type")
  | .prepSeq p =>
    some ((s.prepareSeq p.request).bind fun (new, s') =>
      if new then .ok (s', .prepCollect p, [], [])
      else .ok (s', .peerRelease (.prepare p)
        (.error "Failed to apply message: Request already prepared"), [], []))
  | .prepCollect p =>
    if s.collectorHung then none else
    some ((s.collect P p.replicaID p).bind fun (res, s', ex) =>
      let forks := ex.toList.map Goroutine.awaitResult
      let es := ex.toList.map ReplicaEvent.executed
      match res with
      | .error e => .ok (s', .peerRelease (.prepare p)
          (.error ("Failed to apply message: Prepare cannot be taken into account: " ++ e)),
          forks, es)
      | .ok () =>
        if P.id = p.replicaID then .ok (s', .peerRelease (.prepare p) (.ok true), forks, es)
        else .ok (s', .prepStopTimer p, forks, es))
  | .prepStopTimer p => some (.ok (s.stopPrepTimer p.request, .prepCommit p, [], []))
  | .prepCommit p =>
    some ((s.generateCertified P (.commit (newCommit P.id p))).bind fun s' =>
      .ok (s', .peerRelease (.prepare p) (.ok true), [], []))
  | .commitCollect c =>
    if s.collectorHung then none else
    some ((s.collect P c.replicaID c.prepare).bind fun (res, s', ex) =>
      let forks := ex.toList.map Goroutine.awaitResult
      let es := ex.toList.map ReplicaEvent.executed
      match res with
      | .error e => .ok (s', .peerRelease (.commit c)
          (.error ("Failed to apply message: Commit cannot be taken into account: " ++ e)),
          forks, es)
      | .ok () => .ok (s', .peerRelease (.commit c) (.ok true), forks, es))
  | .peerRelease m res => some (.ok (s.releaseUI m, .returned res, [], []))
  | .returned _ => none

/-! ## Nested calls and goroutines -/

/-- The message `processEmbedded` processes first: a Prepare's Request, a Commit's Prepare. -/
def embeddedOf : Message → Option Message
  | .prepare p => some (.request p.request)
  | .commit c => some (.prepare c.prepare)
  | _ => none

/-- `processOne`'s warning when the embedded message of `outer` fails: it formats both
messages with `Stringify`. -/
def warnEmbedded (outer : Message) : Except String Bool → Outcome Unit
  | .error _ =>
    match embeddedOf outer with
    | some e => (stringify e).bind fun _ => stringify outer
    | none => .ok ()
  | .ok _ => .ok ()

/-- One step of a call of `processMessage` with the calls it returns to: `processEmbedded`
starts the embedded message's call, and goes on with the outer message when it returns. A
finished call without frames is the goroutine's (`goStep`). -/
def handlerStep (P : ReplicaParams) (s : Replica) (frames : List Frame) (proc : Proc) :
    Option (Outcome (Replica × List Frame × Proc × List Goroutine × List ReplicaEvent)) :=
  match proc, frames with
  | .start m, _ =>
    match embeddedOf m with
    | some e => some (.ok (s, .embedded m :: frames, .start e, [], []))
    | none => lift (procStep P s proc)
  | .returned res, .embedded outer :: frames' =>
    some ((warnEmbedded outer res).bind fun _ => .ok (s, frames', .peerCapture outer, [], []))
  | .returned _, [] => none
  | _, _ => lift (procStep P s proc)
where
  /-- A step of the current call, which keeps the frames. -/
  lift (o : Option (Outcome (Replica × Proc × List Goroutine × List ReplicaEvent))) :
      Option (Outcome (Replica × List Frame × Proc × List Goroutine × List ReplicaEvent)) :=
    o.map (·.bind fun (s', proc', forks, es) => .ok (s', frames, proc', forks, es))

/-- **Inversion of a step of a call**: it starts the embedded message's call, or goes back to the
outer message when the embedded call returned, or is a step of the current call, which is then
not at the start of a message that embeds another. -/
theorem handlerStep_cases {P : ReplicaParams} {s : Replica} {frames : List Frame} {proc : Proc}
    {o : Outcome (Replica × List Frame × Proc × List Goroutine × List ReplicaEvent)}
    (h : handlerStep P s frames proc = some o) :
    (∃ m e, proc = .start m ∧ embeddedOf m = some e ∧
      o = .ok (s, .embedded m :: frames, .start e, [], [])) ∨
    (∃ res outer frames', proc = .returned res ∧ frames = .embedded outer :: frames' ∧
      o = (warnEmbedded outer res).bind fun _ => .ok (s, frames', .peerCapture outer, [], [])) ∨
    ((∀ m, proc = .start m → embeddedOf m = none) ∧
      ∃ o', procStep P s proc = some o' ∧
        o = o'.bind fun (s', proc', forks, es) => .ok (s', frames, proc', forks, es)) := by
  unfold handlerStep handlerStep.lift at h
  split at h
  · next m =>
    split at h
    · next e he =>
      cases h
      exact .inl ⟨m, e, rfl, he, rfl⟩
    · next he =>
      obtain ⟨o', ho', rfl⟩ := Option.map_eq_some_iff.mp h
      exact .inr (.inr ⟨fun m' hm => by cases hm; exact he, o', ho', rfl⟩)
  · next res outer frames' =>
    cases h
    exact .inr (.inl ⟨res, outer, frames', rfl, rfl, rfl⟩)
  · cases h
  · next hstart _ _ =>
    obtain ⟨o', ho', rfl⟩ := Option.map_eq_some_iff.mp h
    exact .inr (.inr ⟨fun m hm => absurd hm (hstart m), o', ho', rfl⟩)

/-- The end of `handle(msg, own)` with the result `res` of `processMessage`. A stream handler
logs an error, and otherwise replies (`makeMessageReplier`): a Request's `ReplyChannel`, nothing
for a Prepare or Commit, a panic for any other type. `handleGeneratedPeerMessages` panics on an
error and goes on with the log's next message. -/
def finishHandle (top : Top) (res : Except String Bool) : Outcome (Option Goroutine) :=
  match top, res with
  | .incoming _, .error _ => .ok none
  | .incoming m, .ok _ =>
    match m with
    | .request req => .ok (some (.replyChannel req.clientID req.sequence))
    | .prepare _ | .commit _ => .ok none
    | _ => .panic "Unknown message type"
  | .own _, .error e => .panic ("Error processing own message: " ++ e)
  | .own next, .ok _ => .ok (some (.ownWait (next + 1)))

/-- One atomic step of goroutine `g` from the shared state `s`, when it is enabled: the shared
state, the goroutine's next local state (`none` when it returns), the goroutines it starts and its
events; or a panic, or a call that never returns. `result` is what `RequestConsumer.Deliver`'s
channel yields, read by a goroutine of `makeRequestExecutor` only. -/
def goStep (P : ReplicaParams) (s : Replica) (result : Bytes) :
    Goroutine → Option (Outcome (Replica × Option Goroutine × List Goroutine × List ReplicaEvent))
  | .received m =>
    some ((stringify m).bind fun _ =>
      (validateMessage P.sha256 (P.verifyTag s.validated) P.cfg m).bind fun
        | .error _ => .ok (s.recordValidated m, none, [], [])
        | .ok () =>
          .ok (s.recordValidated m, some (.handler (.incoming m) [] (.start m)), [], [.accepted m]))
  | .handler top frames proc =>
    match proc, frames with
    | .returned res, [] =>
      some ((finishHandle top res).bind fun g' => .ok (s, g', [], []))
    | _, _ =>
      (handlerStep P s frames proc).map
        (·.bind fun (s', frames', proc', forks, es) =>
          .ok (s', some (.handler top frames' proc'), forks, es))
  | .ownWait next =>
    (s.log[next]?).map fun m => .ok (s, some (.handler (.own next) [] (.start m)), [], [])
  | .replyChannel clientID seq =>
    let r := (s.clients clientID).reply
    if seq ≤ r.lastRepliedSeq then
      match r.reply with
      -- `reply.Sequence()` on the nil interface of a client that has no Reply yet
      | none => some (.panic nilDereference)
      | some reply =>
        if reply.sequence = seq then some (.ok (s, none, [], [.replied reply]))
        else some (.ok (s, none, [], []))
    else none
  | .awaitResult request =>
    some ((s.generateSigned P (.reply (newReply P.id request.clientID request.sequence result))).bind
      fun s' => .ok (s', none, [], []))
  | .timeout (.requestTimeout _ _ view) =>
    some ((s.requestViewChange P (view + 1)).bind fun (_, s') => .ok (s', none, [], []))
  | .timeout (.prepareTimeout _ _ _) => some (.ok (s, none, [], []))

/-- What the outcome of a step of goroutine `g` does to the process: a panic stops it, with its
message; a call of the collector that never returns leaves `g` where it is, holding the
collector's lock. -/
def settle (s : Replica) (g : Goroutine) :
    Outcome (Replica × Option Goroutine × List Goroutine × List ReplicaEvent) →
      Replica × Option Goroutine × List Goroutine × List ReplicaEvent
  | .ok r => r
  | .panic e => ({ s with crashed := true }, none, [], [.panicked e])
  | .hang => ({ s with collectorHung := true }, some g, [], [])

/-- **Inversion of a stream handler's step on a received message**: validation runs under the
history so far, which the message then joins; a message that passes starts a call of `handle`
and is accepted, one that fails ends the goroutine. -/
theorem goStep_received_eq_ok {P : ReplicaParams} {s s' : Replica} {result : Bytes} {m : Message}
    {g' : Option Goroutine} {forks : List Goroutine} {es : List ReplicaEvent}
    (h : goStep P s result (.received m) = some (.ok (s', g', forks, es))) :
    s' = s.recordValidated m ∧ forks = [] ∧
      ((∃ e, validateMessage P.sha256 (P.verifyTag s.validated) P.cfg m = .ok (.error e) ∧
          g' = none ∧ es = []) ∨
        (validateMessage P.sha256 (P.verifyTag s.validated) P.cfg m = .ok (.ok ()) ∧
          g' = some (.handler (.incoming m) [] (.start m)) ∧ es = [.accepted m])) := by
  simp only [goStep, Option.some.injEq] at h
  obtain ⟨_, -, hk⟩ := Outcome.bind_eq_ok h
  obtain ⟨res, hval, hk⟩ := Outcome.bind_eq_ok hk
  cases res with
  | error e =>
    cases hk
    exact ⟨rfl, rfl, .inl ⟨e, hval, rfl, rfl⟩⟩
  | ok u =>
    cases hk
    exact ⟨rfl, rfl, .inr ⟨hval, rfl, rfl⟩⟩

@[simp] theorem settle_ok (s : Replica) (g : Goroutine)
    (r : Replica × Option Goroutine × List Goroutine × List ReplicaEvent) : settle s g (.ok r) = r :=
  rfl

@[simp] theorem settle_panic (s : Replica) (g : Goroutine) (e : String) :
    settle s g (.panic e) = ({ s with crashed := true }, none, [], [.panicked e]) := rfl

@[simp] theorem settle_hang (s : Replica) (g : Goroutine) :
    settle s g .hang = ({ s with collectorHung := true }, some g, [], []) := rfl

/-! ## The replica as a program of goroutines -/

/-- What the environment does: bytes arrive on a connection and a stream handler takes the
message they decode to (bytes that do not decode are dropped), or an armed timer fires and its
function starts. Nothing happens after a panic. -/
inductive ReplicaEnv (P : ReplicaParams) :
    Replica → Replica → List Goroutine → List ReplicaEvent → Prop
  | arrive {s : Replica} {data : Bytes} {m : Message} :
      s.crashed = false → newFromBinary P.unmarshal data = .ok m →
      ReplicaEnv P s s [.received m] []
  | fire {s : Replica} {t : Nat} {cb : TimerCallback} :
      s.crashed = false → (t, cb) ∈ s.timers.armed →
      ReplicaEnv P s { s with timers := s.timers.stop t } [.timeout cb] []

/-- A goroutine's step in the program: any enabled step of `goStep`, settled, while the process
runs. -/
def ReplicaMove (P : ReplicaParams) (s : Replica) (g : Goroutine) (s' : Replica)
    (g' : Option Goroutine) (forks : List Goroutine) (es : List ReplicaEvent) : Prop :=
  s.crashed = false ∧ ∃ result o, goStep P s result g = some o ∧ settle s g o = (s', g', forks, es)

/-- The replica's program of goroutines. -/
def replicaProgram (P : ReplicaParams) : GoProgram Replica Goroutine ReplicaEvent :=
  ⟨ReplicaEnv P, ReplicaMove P⟩

/-- A replica when `Start` has run: the initial shared state and `handleGeneratedPeerMessages`,
waiting for the log's first message. -/
def replicaInit : Config Replica Goroutine ReplicaEvent :=
  ⟨{}, [.ownWait 0], []⟩

/-- An enabled step of a goroutine of a running replica is a step of the program. -/
theorem step_of_goStep {P : ReplicaParams} {c : Config Replica Goroutine ReplicaEvent} {i : Nat}
    {g : Goroutine} {result : Bytes}
    {o : Outcome (Replica × Option Goroutine × List Goroutine × List ReplicaEvent)}
    (hrun : c.shared.crashed = false) (hi : c.threads[i]? = some g)
    (ho : goStep P c.shared result g = some o) :
    (replicaProgram P).Step c ⟨(settle c.shared g o).1,
      moveThread c.threads i (settle c.shared g o).2.1 (settle c.shared g o).2.2.1,
      c.trace ++ (settle c.shared g o).2.2.2⟩ :=
  .move hi ⟨hrun, result, o, ho, rfl⟩

/-! ## Runs chosen step by step -/

/-- A choice of the scheduler: bytes arrive, a timer fires, or a goroutine moves (with the result a
goroutine of `makeRequestExecutor` reads). -/
inductive Choice where
  | arrive (data : Bytes)
  | fire (t : Nat)
  | run (i : Nat) (result : Bytes)
  deriving DecidableEq, Repr

/-- The configuration after choice `ch`, when it is enabled. -/
def schedStep (P : ReplicaParams) (c : Config Replica Goroutine ReplicaEvent) :
    Choice → Option (Config Replica Goroutine ReplicaEvent)
  | .arrive data =>
    if c.shared.crashed then none
    else match newFromBinary P.unmarshal data with
      | .ok m => some ⟨c.shared, c.threads ++ [.received m], c.trace⟩
      | .error _ => none
  | .fire t =>
    if c.shared.crashed then none
    else (c.shared.timers.armed.find? (·.1 = t)).map fun (t', cb) =>
      ⟨{ c.shared with timers := c.shared.timers.stop t' }, c.threads ++ [.timeout cb], c.trace⟩
  | .run i result =>
    if c.shared.crashed then none
    else (c.threads[i]?).bind fun g => (goStep P c.shared result g).map fun o =>
      let (s', g', forks, es) := settle c.shared g o
      ⟨s', moveThread c.threads i g' forks, c.trace ++ es⟩

/-- Every choice the scheduler makes is a step of the program. -/
theorem schedStep_sound (P : ReplicaParams) (c : Config Replica Goroutine ReplicaEvent)
    (ch : Choice) (c' : Config Replica Goroutine ReplicaEvent) (h : schedStep P c ch = some c') :
    (replicaProgram P).Step c c' := by
  cases ch with
  | arrive data =>
    simp only [schedStep] at h
    split_ifs at h with hc
    split at h
    · next m hm =>
      cases h
      have hstep := GoProgram.Step.env (P := replicaProgram P)
        (ReplicaEnv.arrive (Bool.not_eq_true _ ▸ hc) hm)
      rwa [List.append_nil] at hstep
    · cases h
  | fire t =>
    simp only [schedStep] at h
    split_ifs at h with hc
    obtain ⟨⟨t', cb⟩, hfind, rfl⟩ := Option.map_eq_some_iff.mp h
    have hmem : (t', cb) ∈ c.shared.timers.armed := List.mem_of_find?_eq_some hfind
    have hstep := GoProgram.Step.env (P := replicaProgram P)
      (ReplicaEnv.fire (Bool.not_eq_true _ ▸ hc) hmem)
    rwa [List.append_nil] at hstep
  | run i result =>
    simp only [schedStep] at h
    split_ifs at h with hc
    obtain ⟨g, hg, h⟩ := Option.bind_eq_some_iff.mp h
    obtain ⟨o, ho, rfl⟩ := Option.map_eq_some_iff.mp h
    exact .move hg ⟨Bool.not_eq_true _ ▸ hc, result, o, ho, rfl⟩

/-- A schedule whose every choice is enabled is a run of the replica. -/
theorem reachable_of_schedule (P : ReplicaParams) (chs : List Choice)
    {c c' : Config Replica Goroutine ReplicaEvent}
    (h : runChoices (schedStep P) c chs = some c') : (replicaProgram P).Reachable c c' :=
  reflTransGen_of_runChoices (schedStep_sound P) chs h

end MinBFT.Core
