import MinBFT.Core.Execution
import MinBFT.Core.SeqStep

/-!
# A replica executes only requests the primary proposed, and logs only its own messages

Which requests a replica executes and which messages it puts in its log (and so sends to its
peers), over every run of its goroutines (`replicaProgram`): whatever bytes arrive, in whatever
order the goroutines move and the timers fire.

A message a stream handler takes is processed only when it passes `makeMessageValidator`
(`core/message-handling.go`): a Request's client signature verifies (`makeRequestValidator`,
`core/request.go`), a Prepare comes from the primary of its view with such a Request and a UI
that verifies (`makePrepareValidator`, `core/prepare.go`), a Commit carries such a Prepare
(`makeCommitValidator`, `core/commit.go`). The replica's own messages come back from its log
unvalidated (`handleGeneratedPeerMessages`); the invariant says what they are instead: a Prepare
only while the replica is the primary of view `0` (`makeRequestApplier`), a Commit only for
another replica's Prepare (`makePrepareApplier`). What a call processes is then vouched for all
the way down its embedded messages (`processEmbedded`), and only a Prepare of view `0` gets past
the view check of `processViewMessage` to the collector.

Nothing is assumed of the decoder, the USIG or the `Authenticator`: what validation checks is
stated as its result, `validateRequest … = .ok (.ok ())`, whatever the `Authenticator` answers,
under the history of messages validated before (`RequestValid`): one that was the replica's at
some point of the run, a prefix of the history it has now.

## Results

* `LogEntryOk`: what each message of the log is; `ValidInv`, `validInv_inductive`: the
  invariant, kept by every step.
* `goStep_vouched`: what a step of a goroutine does to the log, the goroutines it starts and the
  requests it executes, given what the goroutine knows of the message it processes.
* `executed_request_proposed`: every request executed passed `makeRequestValidator` and is the
  request of a Prepare of view `0` from replica `0`, the primary of view `0`, that passed
  `makePrepareValidator` or is the replica's own, in its log.
* `log_entries_own`: every message in the log is the replica's own, as `LogEntryOk` says.
-/

namespace MinBFT.Core

open MinBFT.Messages MinBFT.Usig MinBFT.System

/-! ## Validation that succeeds -/

section Checks

variable {sha256 : Bytes → Bytes} {verifyTag : AuthenRole → Nat → Bytes → Bytes → Except String Unit}
  {cfg : ReplicaConfig}

/-- A Prepare that passes `makePrepareValidator` is from the primary of its view and carries a
Request that passes `makeRequestValidator`. -/
theorem validatePrepare_eq_ok {p : Prepare}
    (h : validatePrepare sha256 verifyTag cfg p = .ok (.ok ())) :
    isPrimary p.view p.replicaID cfg.n = true ∧
      validateRequest sha256 verifyTag p.request = .ok (.ok ()) := by
  unfold validatePrepare at h
  by_cases hp : isPrimary p.view p.replicaID cfg.n = true
  · rw [if_neg (not_not.mpr hp)] at h
    obtain ⟨r, hr, h⟩ := Outcome.bind_eq_ok h
    cases r with
    | error e => cases h
    | ok _ => exact ⟨hp, hr⟩
  · rw [if_pos hp] at h
    cases h

/-- A Commit that passes `makeCommitValidator` is not from its Prepare's replica, and its Prepare
passes `makePrepareValidator`. -/
theorem validateCommit_eq_ok {cm : Commit}
    (h : validateCommit sha256 verifyTag cfg cm = .ok (.ok ())) :
    cm.replicaID ≠ cm.prepare.replicaID ∧
      validatePrepare sha256 verifyTag cfg cm.prepare = .ok (.ok ()) := by
  unfold validateCommit at h
  dsimp only at h
  split_ifs at h with hid
  · cases h
  · obtain ⟨r, hr, h⟩ := Outcome.bind_eq_ok h
    cases r with
    | error e => cases h
    | ok _ => exact ⟨hid, hr⟩

end Checks

/-- The primary of view `0` is replica `0`, whatever the number of replicas. -/
theorem eq_zero_of_isPrimary_zero {id n : Nat} (h : isPrimary 0 id n = true) : id = 0 := by
  simpa using of_decide_eq_true h

/-! ## What the replica knows of a message -/

/-- A Request whose client's signature verified (`makeRequestValidator`), with the
authenticator after the validation of a prefix of `hist`. -/
def RequestValid (P : ReplicaParams) (hist : List Message) (r : Request) : Prop :=
  ∃ h, h <+: hist ∧ validateRequest P.sha256 (P.verifyTag h) r = .ok (.ok ())

/-- A Prepare that passed `makePrepareValidator`, with the authenticator after the validation of
a prefix of `hist`. -/
def PrepareValid (P : ReplicaParams) (hist : List Message) (p : Prepare) : Prop :=
  ∃ h, h <+: hist ∧ validatePrepare P.sha256 (P.verifyTag h) P.cfg p = .ok (.ok ())

/-- What a message of the replica's log is: one it generated, in its own name. A Prepare only
of view `0`, while the replica is the primary of view `0`, for a Request whose client's
signature verifies (`makeRequestApplier`); a Commit only for a Prepare of view `0` of another
replica that passed validation (`makePrepareApplier`); a ReqViewChange
(`makeRequestTimeoutHandler`). A Request or a Reply never goes to the log
(`makeGeneratedMessageConsumer`). -/
def LogEntryOk (P : ReplicaParams) (hist : List Message) : Message → Prop
  | .prepare p => p.replicaID = P.id ∧ p.view = 0 ∧ isPrimary 0 P.id P.cfg.n = true ∧
      RequestValid P hist p.request
  | .commit cm => cm.replicaID = P.id ∧ cm.prepare.replicaID ≠ P.id ∧ cm.prepare.view = 0 ∧
      PrepareValid P hist cm.prepare
  | .reqViewChange v => v.replicaID = P.id
  | .request _ | .reply _ => False

/-- A Prepare the replica vouches for: it passed validation, or it is the replica's own, in its
log. -/
def PrepareVouched (P : ReplicaParams) (hist log : List Message) (p : Prepare) : Prop :=
  PrepareValid P hist p ∨ Message.prepare p ∈ log

/-- What the replica knows of a message a call of `processMessage` processes: a Request's
signature verifies; a Prepare, or a Commit's Prepare, is vouched for. -/
def Vouched (P : ReplicaParams) (hist log : List Message) : Message → Prop
  | .request r => RequestValid P hist r
  | .prepare p => PrepareVouched P hist log p
  | .commit cm => PrepareVouched P hist log cm.prepare
  | .reply _ | .reqViewChange _ => True

/-- The facts at each point of a call: its message is vouched for; past the view check of
`processViewMessage`, its Prepare is of view `0`; past the primary's own Prepare in
`applyPrepare`, the Prepare is another replica's, so it passed validation. -/
def ProcVouched (P : ReplicaParams) (hist log : List Message) : Proc → Prop
  | .start m | .peerCapture m | .peerRelease m _ => Vouched P hist log m
  | .reqCapture r | .reqAdd r | .reqTimer r | .reqApply r | .reqRelease r => RequestValid P hist r
  | .prepSeq p | .prepCollect p => PrepareVouched P hist log p ∧ p.view = 0
  | .prepStopTimer p | .prepCommit p => PrepareValid P hist p ∧ p.view = 0 ∧ p.replicaID ≠ P.id
  | .commitCollect cm => PrepareVouched P hist log cm.prepare ∧ cm.prepare.view = 0
  | .returned _ => True

/-- A request the replica may execute: the request of a vouched Prepare of view `0`. -/
def Executable (P : ReplicaParams) (hist log : List Message) (r : Request) : Prop :=
  ∃ p : Prepare, p.request = r ∧ p.view = 0 ∧ PrepareVouched P hist log p

/-- The facts a goroutine carries: a handler's, of the calls it returns to and of its current
call; `makeRequestExecutor`'s, of its request. -/
def GoVouched (P : ReplicaParams) (hist log : List Message) : Goroutine → Prop
  | .handler _ frames proc =>
    (∀ outer, Frame.embedded outer ∈ frames → Vouched P hist log outer) ∧
      ProcVouched P hist log proc
  | .awaitResult r => Executable P hist log r
  | _ => True

section Facts

variable {P : ReplicaParams} {hist hist' log log' : List Message}

/-- What a vouched Prepare is: the primary's of its view, with a Request whose signature
verified. -/
theorem PrepareVouched.primary (hlog : ∀ m ∈ log, LogEntryOk P hist m) {p : Prepare}
    (h : PrepareVouched P hist log p) :
    isPrimary p.view p.replicaID P.cfg.n = true ∧ RequestValid P hist p.request := by
  rcases h with ⟨h, hh, hv⟩ | hin
  · -- `makePrepareValidator` checks the Request with the same authenticator
    obtain ⟨hprim, hreq⟩ := validatePrepare_eq_ok hv
    exact ⟨hprim, h, hh, hreq⟩
  · obtain ⟨hid, hview, hprim, hreq⟩ := hlog _ hin
    rw [hid, hview]
    exact ⟨hprim, hreq⟩

/-- A vouched Prepare of another replica passed validation. -/
theorem PrepareVouched.valid_of_ne (hlog : ∀ m ∈ log, LogEntryOk P hist m) {p : Prepare}
    (h : PrepareVouched P hist log p) (hne : p.replicaID ≠ P.id) : PrepareValid P hist p :=
  h.resolve_right fun hin => hne (hlog _ hin).1

/-! What the replica knows stays known as the history and the log grow. -/

theorem RequestValid.mono {r : Request} (h : RequestValid P hist r) (hh : hist <+: hist') :
    RequestValid P hist' r := by
  obtain ⟨h₀, hpre, hv⟩ := h
  exact ⟨h₀, hpre.trans hh, hv⟩

theorem PrepareValid.mono {p : Prepare} (h : PrepareValid P hist p) (hh : hist <+: hist') :
    PrepareValid P hist' p := by
  obtain ⟨h₀, hpre, hv⟩ := h
  exact ⟨h₀, hpre.trans hh, hv⟩

theorem LogEntryOk.mono {m : Message} (h : LogEntryOk P hist m) (hh : hist <+: hist') :
    LogEntryOk P hist' m := by
  cases m with
  | prepare p => exact ⟨h.1, h.2.1, h.2.2.1, h.2.2.2.mono hh⟩
  | commit cm => exact ⟨h.1, h.2.1, h.2.2.1, h.2.2.2.mono hh⟩
  | reqViewChange v => exact h
  | request r => exact h.elim
  | reply r => exact h.elim

theorem PrepareVouched.mono {p : Prepare} (h : PrepareVouched P hist log p) (hh : hist <+: hist')
    (hsub : log ⊆ log') : PrepareVouched P hist' log' p :=
  h.imp (·.mono hh) (hsub ·)

theorem Vouched.mono {m : Message} (h : Vouched P hist log m) (hh : hist <+: hist')
    (hsub : log ⊆ log') : Vouched P hist' log' m := by
  cases m with
  | request r => exact RequestValid.mono h hh
  | prepare p => exact PrepareVouched.mono h hh hsub
  | commit cm => exact PrepareVouched.mono h hh hsub
  | reply r => trivial
  | reqViewChange v => trivial

theorem ProcVouched.mono {proc : Proc} (h : ProcVouched P hist log proc) (hh : hist <+: hist')
    (hsub : log ⊆ log') : ProcVouched P hist' log' proc := by
  cases proc with
  | start m | peerCapture m | peerRelease m _ => exact Vouched.mono h hh hsub
  | reqCapture r | reqAdd r | reqTimer r | reqApply r | reqRelease r =>
    exact RequestValid.mono h hh
  | prepSeq p | prepCollect p => exact ⟨h.1.mono hh hsub, h.2⟩
  | prepStopTimer p | prepCommit p => exact ⟨h.1.mono hh, h.2⟩
  | commitCollect cm => exact ⟨h.1.mono hh hsub, h.2⟩
  | returned res => trivial

theorem Executable.mono {r : Request} (h : Executable P hist log r) (hh : hist <+: hist')
    (hsub : log ⊆ log') : Executable P hist' log' r := by
  obtain ⟨p, hreq, hview, hp⟩ := h
  exact ⟨p, hreq, hview, hp.mono hh hsub⟩

theorem GoVouched.mono {g : Goroutine} (h : GoVouched P hist log g) (hh : hist <+: hist')
    (hsub : log ⊆ log') : GoVouched P hist' log' g := by
  cases g with
  | handler top frames proc =>
    exact ⟨fun outer hf => (h.1 outer hf).mono hh hsub, h.2.mono hh hsub⟩
  | awaitResult r => exact Executable.mono h hh hsub
  | _ => trivial

/-- `processEmbedded` processes a Prepare's Request and a Commit's Prepare: vouched for with the
message that embeds them. -/
theorem Vouched.embedded (hlog : ∀ m ∈ log, LogEntryOk P hist m) {m e : Message}
    (h : Vouched P hist log m) (he : embeddedOf m = some e) : Vouched P hist log e := by
  cases m with
  | prepare p =>
    cases he
    exact (PrepareVouched.primary hlog h).2
  | commit cm =>
    cases he
    exact h
  | _ => cases he

/-- A message of the log, which `handleGeneratedPeerMessages` processes, is vouched for. -/
theorem Vouched.of_logEntryOk {m : Message} (hm : m ∈ log) (h : LogEntryOk P hist m) :
    Vouched P hist log m := by
  cases m with
  | prepare p => exact .inr hm
  | commit cm => exact .inl h.2.2.2
  | reqViewChange v => trivial
  | request r => exact h.elim
  | reply r => exact h.elim

/-- A message that passes `makeMessageValidator` with the authenticator after the history
`hist` is vouched for. -/
theorem Vouched.of_validateMessage {m : Message}
    (h : validateMessage P.sha256 (P.verifyTag hist) P.cfg m = .ok (.ok ())) :
    Vouched P hist log m := by
  cases m with
  | request r => exact ⟨hist, List.prefix_refl _, h⟩
  | prepare p => exact .inl ⟨hist, List.prefix_refl _, h⟩
  | commit cm => exact .inl ⟨hist, List.prefix_refl _, (validateCommit_eq_ok h).2⟩
  | reply r => cases h
  | reqViewChange v => trivial

end Facts

/-! ## The messages the replica generates -/

section Generated

variable {P : ReplicaParams} {hist : List Message}

/-- The primary's Prepare for a Request, with its UI (`makeRequestApplier`). -/
theorem logEntryOk_newPrepare {req : Request} {ui : Bytes} {m' : Message}
    (h : (Message.prepare (newPrepare P.id 0 req)).setUIBytes ui = some m')
    (hprim : isPrimary 0 P.id P.cfg.n = true) (hreq : RequestValid P hist req) :
    LogEntryOk P hist m' := by
  simp only [Message.setUIBytes, Prepare.setUIBytes, newPrepare, Option.map_some,
    Option.some.injEq] at h
  subst h
  exact ⟨rfl, rfl, hprim, hreq⟩

/-- A backup's Commit for a Prepare, with its UI (`makePrepareApplier`). -/
theorem logEntryOk_newCommit {p : Prepare} {ui : Bytes} {m' : Message}
    (h : (Message.commit (newCommit P.id p)).setUIBytes ui = some m')
    (hne : p.replicaID ≠ P.id) (hview : p.view = 0) (hvalid : PrepareValid P hist p) :
    LogEntryOk P hist m' := by
  simp only [Message.setUIBytes, Commit.setUIBytes, newCommit, Option.map_some,
    Option.some.injEq] at h
  subst h
  exact ⟨rfl, hne, hview, hvalid⟩

/-- The signed ReqViewChange of a request timeout (`makeRequestTimeoutHandler`). -/
theorem logEntryOk_newReqViewChange {newView : Nat} {sig : Bytes} {m' : Message}
    (h : (Message.reqViewChange (newReqViewChange P.id newView)).setSignature sig = some m') :
    LogEntryOk P hist m' := by
  simp only [Message.setSignature, ReqViewChange.setSignature, newReqViewChange, Option.map_some,
    Option.some.injEq] at h
  subst h
  rfl

end Generated

/-! ## What a step does -/

/-- What a step shows, from the log `log` to the log `log'`, with the history `hist` before it:
the messages it appends are the replica's own; the goroutines it starts and the requests it
executes are vouched for. -/
structure StepVouched (P : ReplicaParams) (hist log log' : List Message) (forks : List Goroutine)
    (es : List ReplicaEvent) : Prop where
  logged : ∀ m ∈ log', m ∈ log ∨ LogEntryOk P hist m
  forks : ∀ g ∈ forks, GoVouched P hist log g
  executed : ∀ r, ReplicaEvent.executed r ∈ es → Executable P hist log r

namespace StepVouched

variable {P : ReplicaParams} {hist log log' : List Message}

/-- A step that keeps the log, starts nothing and executes nothing. -/
theorem quiet {es : List ReplicaEvent} (h : log' = log)
    (hes : ∀ r, ReplicaEvent.executed r ∉ es) : StepVouched P hist log log' [] es where
  logged _ hm := .inl (h ▸ hm)
  forks _ hg := absurd hg List.not_mem_nil
  executed r hr := absurd hr (hes r)

theorem same : StepVouched P hist log log [] [] :=
  quiet rfl fun _ => List.not_mem_nil

/-- A step that appends one of the replica's own messages to the log. -/
theorem append {m' : Message} (h : log' = log ++ [m']) (hok : LogEntryOk P hist m') :
    StepVouched P hist log log' [] [] where
  logged m hm := by
    rw [h] at hm
    rcases List.mem_append.mp hm with hm | hm
    · exact .inl hm
    · rw [List.mem_singleton.mp hm]
      exact .inr hok
  forks _ hg := absurd hg List.not_mem_nil
  executed r hr := absurd hr List.not_mem_nil

variable {s s' : Replica}

/-- `makeGeneratedMessageHandler` on a certified message of the replica's own. -/
theorem generate {m : Message} (hgen : s.generateCertified P m = .ok s')
    (hok : ∀ ui m', m.setUIBytes ui = some m' → LogEntryOk P hist m') :
    StepVouched P hist s.log s'.log [] [] := by
  obtain ⟨ui, m', hm', rfl⟩ := Replica.generateCertified_eq_ok hgen
  exact .append rfl (hok ui m' hm')

/-- The collector, called for a vouched Prepare of view `0`: it keeps the log, and executes
that Prepare's request, if any. -/
theorem collect {r : Nat} {p : Prepare} {res : Except String Unit} {ex : Option Request}
    (hcol : s.collect P r p = .ok (res, s', ex)) (hp : PrepareVouched P hist s.log p)
    (hview : p.view = 0) :
    StepVouched P hist s.log s'.log (ex.toList.map .awaitResult) (ex.toList.map .executed) := by
  have hexec : ∀ req, req ∈ ex.toList → Executable P hist s.log req := by
    intro req hreq
    obtain rfl : ex = some req := Option.mem_toList.mp hreq
    exact ⟨p, (Replica.collect_executed hcol).1.symm, hview, hp⟩
  refine ⟨fun m hm => .inl ?_, fun g hg => ?_, fun q hq => ?_⟩
  · rwa [(Replica.collect_eq_ok hcol).2.2] at hm
  · obtain ⟨req, hreq, rfl⟩ := List.mem_map.mp hg
    exact hexec req hreq
  · obtain ⟨req, hreq, he⟩ := List.mem_map.mp hq
    cases he
    exact hexec q hreq

/-- A request timeout's view change appends the replica's ReqViewChange to the log, if any. -/
theorem viewChange {newView : Nat} {ok : Bool} (hreq : s.requestViewChange P newView = .ok (ok, s')) :
    StepVouched P hist s.log s'.log [] [] := by
  rcases (Replica.requestViewChange_eq_ok hreq).2.2 with hlog | ⟨sig, m', hm', hlog⟩
  · exact .quiet hlog fun _ => List.not_mem_nil
  · exact .append hlog (logEntryOk_newReqViewChange hm')

end StepVouched

section Steps

variable {P : ReplicaParams} {s s' : Replica}

/-- **A step of a call**, from a point whose facts hold: the facts of the next point, over the
log before the step. -/
theorem procStep_vouched {proc proc' : Proc} {forks : List Goroutine} {es : List ReplicaEvent}
    (hlog : ∀ m ∈ s.log, LogEntryOk P s.validated m) (hproc : ProcVouched P s.validated s.log proc)
    (h : procStep P s proc = some (.ok (s', proc', forks, es))) :
    ProcVouched P s.validated s.log proc' ∧ StepVouched P s.validated s.log s'.log forks es := by
  cases proc with
  | start m =>
    simp only [procStep] at h
    -- a Request goes to `processRequest`, any other message to `processPeerMessage`
    split at h <;> cases h <;> exact ⟨hproc, .same⟩
  | reqCapture req =>
    simp only [procStep] at h
    split at h
    · cases h
    · cases h
      exact ⟨trivial, .same⟩
    · next hnew =>
      cases h
      exact ⟨hproc, .quiet (Replica.captureRequestSeq_eq_new hnew).2.2.2 fun _ => List.not_mem_nil⟩
  | reqAdd req =>
    cases h
    exact ⟨hproc, .same⟩
  | reqTimer req =>
    cases h
    exact ⟨hproc, .same⟩
  | reqApply req =>
    simp only [procStep] at h
    split_ifs at h with hprim
    · -- the primary's Prepare goes to the log
      obtain ⟨s₁, hgen, hk⟩ := Outcome.bind_eq_ok (Option.some.inj h)
      cases hk
      exact ⟨hproc, .generate hgen fun _ _ hm' => logEntryOk_newPrepare hm' hprim hproc⟩
    · cases h
      exact ⟨hproc, .same⟩
  | reqRelease req =>
    cases h
    exact ⟨trivial, .same⟩
  | peerCapture m =>
    simp only [procStep] at h
    -- a Prepare and a Commit go the same way: `captureUI` changes only the peers
    split at h
    case h_3 => cases h
    all_goals
      split at h
      · cases h
      · cases h
      · cases h
      · cases h
        exact ⟨trivial, .same⟩
      · next hnew =>
        obtain ⟨ui, q, -, -, rfl⟩ := Replica.captureUI_eq_new hnew
        split_ifs at h with hview
        · cases h
          exact ⟨hproc, .same⟩
        · -- past the view check: the message is of view `0`
          simp only at h
          cases h
          exact ⟨⟨hproc, Nat.eq_zero_of_not_pos hview⟩, .same⟩
  | prepSeq p =>
    simp only [procStep] at h
    obtain ⟨⟨new, s₁⟩, hprep, hk⟩ := Outcome.bind_eq_ok (Option.some.inj h)
    have hkeep : StepVouched P s.validated s.log s₁.log [] [] :=
      .quiet (Replica.prepareSeq_eq_ok hprep).2.2.2 fun _ => List.not_mem_nil
    split_ifs at hk <;> cases hk
    · exact ⟨hproc, hkeep⟩
    · exact ⟨hproc.1, hkeep⟩
  | prepCollect p =>
    simp only [procStep] at h
    split_ifs at h with hhung hid
    · obtain ⟨⟨res, s₁, ex⟩, hcol, hk⟩ := Outcome.bind_eq_ok (Option.some.inj h)
      split at hk <;> cases hk <;> exact ⟨hproc.1, .collect hcol hproc.1 hproc.2⟩
    · -- another replica's Prepare: the replica goes on to commit to it, so it passed validation
      obtain ⟨⟨res, s₁, ex⟩, hcol, hk⟩ := Outcome.bind_eq_ok (Option.some.inj h)
      have hne : p.replicaID ≠ P.id := fun h' => hid h'.symm
      split at hk <;> cases hk
      · exact ⟨hproc.1, .collect hcol hproc.1 hproc.2⟩
      · exact ⟨⟨hproc.1.valid_of_ne hlog hne, hproc.2, hne⟩, .collect hcol hproc.1 hproc.2⟩
  | prepStopTimer p =>
    cases h
    exact ⟨hproc, .same⟩
  | prepCommit p =>
    simp only [procStep] at h
    obtain ⟨s₁, hgen, hk⟩ := Outcome.bind_eq_ok (Option.some.inj h)
    cases hk
    obtain ⟨hvalid, hview, hne⟩ := hproc
    exact ⟨.inl hvalid, .generate hgen fun _ _ hm' => logEntryOk_newCommit hm' hne hview hvalid⟩
  | commitCollect cm =>
    simp only [procStep] at h
    split_ifs at h
    obtain ⟨⟨res, s₁, ex⟩, hcol, hk⟩ := Outcome.bind_eq_ok (Option.some.inj h)
    split at hk <;> cases hk <;> exact ⟨hproc.1, .collect hcol hproc.1 hproc.2⟩
  | peerRelease m res =>
    cases h
    exact ⟨trivial, .same⟩
  | returned res => cases h

/-- After `handle` returns, a stream handler ends or waits for its Reply, and
`handleGeneratedPeerMessages` waits for the log's next message: nothing to vouch for. -/
theorem finishHandle_vouched {top : Top} {res : Except String Bool} {g' : Option Goroutine}
    (h : finishHandle top res = .ok g') (hist log : List Message) :
    ∀ u, g' = some u → GoVouched P hist log u := by
  intro u hu
  subst hu
  unfold finishHandle at h
  split at h
  · cases h
  · split at h <;> cases h
    trivial
  · cases h
  · cases h
    trivial

/-- **What a step of a goroutine does**, from a goroutine whose facts hold: the facts of the
goroutine it goes on as, over the log before the step, and the step's `StepVouched`. -/
theorem goStep_vouched {result : Bytes} {g : Goroutine} {g' : Option Goroutine}
    {forks : List Goroutine} {es : List ReplicaEvent}
    (hlog : ∀ m ∈ s.log, LogEntryOk P s.validated m) (hg : GoVouched P s.validated s.log g)
    (h : goStep P s result g = some (.ok (s', g', forks, es))) :
    (∀ u, g' = some u → GoVouched P s.validated s.log u) ∧
      StepVouched P s.validated s.log s'.log forks es := by
  cases g with
  | received m =>
    obtain ⟨rfl, rfl, ⟨e, -, rfl, rfl⟩ | ⟨hval, rfl, rfl⟩⟩ := goStep_received_eq_ok h
    · exact ⟨(fun _ hu => by cases hu), .same⟩
    · -- a message that passes validation under the history so far is vouched for, and accepted
      refine ⟨fun v hv => ?_, .quiet rfl fun r hr => by simp at hr⟩
      cases hv
      exact ⟨fun _ hf => absurd hf List.not_mem_nil, Vouched.of_validateMessage hval⟩
  | handler top frames proc =>
    obtain ⟨hframes, hproc⟩ := hg
    simp only [goStep] at h
    split at h
    · obtain ⟨g'', hfin, hk⟩ := Outcome.bind_eq_ok (Option.some.inj h)
      cases hk
      exact ⟨finishHandle_vouched hfin _ _, .same⟩
    · obtain ⟨o, ho, hk⟩ := Option.map_eq_some_iff.mp h
      obtain ⟨⟨s₁, frames', proc', forks', es'⟩, rfl, hk⟩ := Outcome.bind_eq_ok hk
      cases hk
      rcases handlerStep_cases ho with ⟨m, e, rfl, he, ho'⟩ | ⟨res, outer, frames', rfl, rfl, ho'⟩ |
        ⟨-, o', hproc', ho'⟩
      · -- the call of the embedded message starts; the outer one waits in a frame
        cases ho'
        refine ⟨fun u hu => ?_, .same⟩
        cases hu
        refine ⟨fun outer hf => ?_, Vouched.embedded hlog hproc he⟩
        rcases List.mem_cons.mp hf with hf | hf
        · cases hf
          exact hproc
        · exact hframes outer hf
      · -- the embedded call returned: the outer message's call goes on
        obtain ⟨_, -, hk⟩ := Outcome.bind_eq_ok ho'.symm
        cases hk
        refine ⟨fun u hu => ?_, .same⟩
        cases hu
        exact ⟨fun o hf => hframes o (List.mem_cons_of_mem _ hf), hframes outer List.mem_cons_self⟩
      · obtain ⟨⟨s₂, proc₂, forks₂, es₂⟩, rfl, hk⟩ := Outcome.bind_eq_ok ho'.symm
        cases hk
        obtain ⟨hnext, hstep⟩ := procStep_vouched hlog hproc hproc'
        refine ⟨fun u hu => ?_, hstep⟩
        cases hu
        exact ⟨hframes, hnext⟩
  | ownWait next =>
    -- the log's message `next` is the replica's own
    obtain ⟨m, hm, hk⟩ := Option.map_eq_some_iff.mp h
    cases hk
    have hmem := List.mem_of_getElem? hm
    refine ⟨fun u hu => ?_, .same⟩
    cases hu
    exact ⟨fun _ hf => absurd hf List.not_mem_nil, Vouched.of_logEntryOk hmem (hlog m hmem)⟩
  | replyChannel cl seq =>
    simp only [goStep] at h
    split_ifs at h
    split at h
    · cases h
    · split_ifs at h <;> cases h <;>
        exact ⟨(fun _ hu => by cases hu), .quiet rfl fun r hr => by simp at hr⟩
  | awaitResult req =>
    -- the Reply goes to its client's `replyState`, not to the log
    obtain ⟨s₁, hgen, hk⟩ := Outcome.bind_eq_ok (Option.some.inj h)
    cases hk
    obtain ⟨reply, -, rfl⟩ := Replica.generateSigned_newReply hgen
    exact ⟨(fun _ hu => by cases hu), .same⟩
  | timeout cb =>
    cases cb with
    | requestTimeout cl seq view =>
      obtain ⟨⟨ok, s₁⟩, hreq, hk⟩ := Outcome.bind_eq_ok (Option.some.inj h)
      cases hk
      exact ⟨(fun _ hu => by cases hu), .viewChange hreq⟩
    | prepareTimeout cl seq view =>
      cases h
      exact ⟨(fun _ hu => by cases hu), .same⟩

end Steps

/-! ## The invariant -/

/-- **The invariant of what the replica logs and executes.** -/
structure ValidInv (P : ReplicaParams) (c : Config Replica Goroutine ReplicaEvent) : Prop where
  /-- Every message of the log is the replica's own. -/
  log : ∀ m ∈ c.shared.log, LogEntryOk P c.shared.validated m
  /-- What each goroutine knows of the messages it processes. -/
  goroutines : ∀ g ∈ c.threads, GoVouched P c.shared.validated c.shared.log g
  /-- Every request executed is that of a vouched Prepare of view `0`. -/
  executed : ∀ r, ReplicaEvent.executed r ∈ c.trace →
    Executable P c.shared.validated c.shared.log r

section Invariant

variable {P : ReplicaParams} {c : Config Replica Goroutine ReplicaEvent}

/-- The invariant survives a step that keeps the log and the history and executes nothing, when
the goroutines after it carry their facts. -/
theorem ValidInv.keep (h : ValidInv P c) {s' : Replica} {threads' : List Goroutine}
    {es : List ReplicaEvent} (hlog : s'.log = c.shared.log)
    (hv : s'.validated = c.shared.validated)
    (hth : ∀ u ∈ threads', GoVouched P c.shared.validated c.shared.log u)
    (hes : ∀ r, ReplicaEvent.executed r ∉ es) : ValidInv P ⟨s', threads', c.trace ++ es⟩ where
  log m hm := hv ▸ h.log m (hlog ▸ hm)
  goroutines u hu := hlog ▸ hv ▸ hth u hu
  executed r hr := by
    rcases List.mem_append.mp hr with hr | hr
    · exact hlog ▸ hv ▸ h.executed r hr
    · exact absurd hr (hes r)

/-- **Every step keeps the invariant.** -/
theorem ValidInv.step (h : ValidInv P c) {c' : Config Replica Goroutine ReplicaEvent}
    (hstep : (replicaProgram P).Step c c') : ValidInv P c' := by
  cases hstep with
  | env henv =>
    -- the environment starts a stream handler or a timer's function
    cases henv with
    | arrive _ _ =>
      refine h.keep rfl rfl (fun u hu => ?_) fun _ => List.not_mem_nil
      rcases List.mem_append.mp hu with hu | hu
      · exact h.goroutines u hu
      · cases List.mem_singleton.mp hu
        trivial
    | fire _ _ =>
      refine h.keep rfl rfl (fun u hu => ?_) fun _ => List.not_mem_nil
      rcases List.mem_append.mp hu with hu | hu
      · exact h.goroutines u hu
      · cases List.mem_singleton.mp hu
        trivial
  | move hi hmove =>
    obtain ⟨-, result, o, ho, hsettle⟩ := hmove
    have hg := h.goroutines _ (List.mem_of_getElem? hi)
    cases o with
    | ok r =>
      rw [settle_ok] at hsettle
      subst hsettle
      -- what was known before the step stays known: the log and the history only grow
      obtain ⟨hpre, hh⟩ := goStep_appends ho
      have hsub := hpre.subset
      obtain ⟨hnext, hst⟩ := goStep_vouched h.log hg ho
      refine ⟨fun m hm => ((hst.logged m hm).elim (h.log m) id).mono hh, ?_, fun q hq => ?_⟩
      · exact forall_mem_moveThread (fun u hu => (h.goroutines u hu).mono hh hsub)
          (fun u hu => (hnext u hu).mono hh hsub) fun u hu => (hst.forks u hu).mono hh hsub
      · rcases List.mem_append.mp hq with hq | hq
        · exact (h.executed q hq).mono hh hsub
        · exact (hst.executed q hq).mono hh hsub
    | panic e =>
      -- a panic stops the replica; its goroutine is gone
      simp only [settle_panic, Prod.mk.injEq] at hsettle
      obtain ⟨rfl, rfl, rfl, rfl⟩ := hsettle
      exact h.keep rfl rfl (forall_mem_moveThread h.goroutines (fun _ hu => by cases hu)
        fun _ hu => absurd hu List.not_mem_nil) fun r hr => by simp at hr
    | hang =>
      -- a collector that never returns keeps its goroutine where it is
      simp only [settle_hang, Prod.mk.injEq] at hsettle
      obtain ⟨rfl, rfl, rfl, rfl⟩ := hsettle
      exact h.keep rfl rfl (forall_mem_moveThread h.goroutines (fun _ hu => by cases hu; exact hg)
        fun _ hu => absurd hu List.not_mem_nil) fun _ => List.not_mem_nil

/-- A request executed passed `makeRequestValidator` and is the request of a vouched Prepare of
view `0`, which is replica `0`'s. -/
theorem ValidInv.executed_proposed (h : ValidInv P c) {r : Request}
    (hr : ReplicaEvent.executed r ∈ c.trace) :
    RequestValid P c.shared.validated r ∧ ∃ p : Prepare, p.request = r ∧ p.view = 0 ∧
      p.replicaID = 0 ∧ PrepareVouched P c.shared.validated c.shared.log p := by
  obtain ⟨p, rfl, hview, hp⟩ := h.executed r hr
  obtain ⟨hprim, hreq⟩ := hp.primary h.log
  rw [hview] at hprim
  exact ⟨hreq, p, rfl, hview, eq_zero_of_isPrimary_zero hprim, hp⟩

theorem validInv_init (P : ReplicaParams) : ValidInv P replicaInit where
  log _ hm := absurd hm List.not_mem_nil
  goroutines _ hg := by
    obtain rfl : _ = Goroutine.ownWait 0 := List.mem_singleton.mp hg
    trivial
  executed _ hr := absurd hr List.not_mem_nil

theorem validInv_inductive (P : ReplicaParams) :
    Inductive (replicaProgram P).Step replicaInit (ValidInv P) :=
  ⟨validInv_init P, fun _ _ h hstep => h.step hstep⟩

end Invariant

/-! ## What a replica executes and logs, over every run -/

/-- **A replica executes only client-signed requests the primary of view `0` proposed.** In
every configuration of every run, each request executed passed `makeRequestValidator`, and is
the request of a Prepare of view `0` from replica `0`, the primary of view `0`, that passed
`makePrepareValidator` (its UI verified by the USIG) or is the replica's own Prepare, in its
log. Each validation ran with the authenticator as the replica's earlier validations left it:
after a prefix of the messages the replica has validated. -/
theorem executed_request_proposed {P : ReplicaParams} {c : Config Replica Goroutine ReplicaEvent}
    (hreach : (replicaProgram P).Reachable replicaInit c) :
    ∀ r, ReplicaEvent.executed r ∈ c.trace →
      (∃ hist, hist <+: c.shared.validated ∧
        validateRequest P.sha256 (P.verifyTag hist) r = .ok (.ok ())) ∧
      ∃ p : Prepare, p.request = r ∧ p.view = 0 ∧ p.replicaID = 0 ∧
        ((∃ hist, hist <+: c.shared.validated ∧
          validatePrepare P.sha256 (P.verifyTag hist) P.cfg p = .ok (.ok ())) ∨
          Message.prepare p ∈ c.shared.log) :=
  fun _ hr => ((validInv_inductive P).reachable hreach).executed_proposed hr

/-- **A replica logs, and so sends to its peers, only messages of its own.** In every
configuration of every run, every message of the log is as `LogEntryOk` says: in the replica's
name; a Prepare only of view `0` while the replica is the primary of view `0`, for a Request whose
client signature verifies; a Commit only for another replica's Prepare of view `0` that passed
`makePrepareValidator`; never a Request or a Reply. -/
theorem log_entries_own {P : ReplicaParams} {c : Config Replica Goroutine ReplicaEvent}
    (hreach : (replicaProgram P).Reachable replicaInit c) :
    ∀ m ∈ c.shared.log, LogEntryOk P c.shared.validated m :=
  ((validInv_inductive P).reachable hreach).log

/-- The run of `repliedSchedule` ends with the replica's own Prepare in its log. -/
theorem repliedSchedule_log :
    ∃ c, (replicaProgram (soloParams 0)).Reachable replicaInit c ∧
      ReplicaEvent.executed (soloRequest 1) ∈ c.trace ∧ c.shared.log.length = 1 := by
  have hrun : (runChoices (schedStep (soloParams 0)) replicaInit repliedSchedule).map
      (fun c => (c.trace, c.shared.log.length)) =
      some ([.accepted (.request (soloRequest 1)), .executed (soloRequest 1),
        .replied soloReply], 1) := by
    decide +kernel
  obtain ⟨c, hc, heq⟩ := Option.map_eq_some_iff.mp hrun
  simp only [Prod.mk.injEq] at heq
  exact ⟨c, reachable_of_schedule _ _ hc, by simp [heq.1], heq.2⟩

theorem executed_request_proposed_replied :
    ∃ c, (replicaProgram (soloParams 0)).Reachable replicaInit c ∧
      ReplicaEvent.executed (soloRequest 1) ∈ c.trace ∧
      ∀ r, ReplicaEvent.executed r ∈ c.trace →
        (∃ hist, hist <+: c.shared.validated ∧
          validateRequest (soloParams 0).sha256 ((soloParams 0).verifyTag hist) r = .ok (.ok ())) ∧
        ∃ p : Prepare, p.request = r ∧ p.view = 0 ∧ p.replicaID = 0 ∧
          ((∃ hist, hist <+: c.shared.validated ∧
            validatePrepare (soloParams 0).sha256 ((soloParams 0).verifyTag hist) (soloParams 0).cfg
              p = .ok (.ok ())) ∨ Message.prepare p ∈ c.shared.log) := by
  obtain ⟨c, hreach, hex, -⟩ := repliedSchedule_log
  exact ⟨c, hreach, hex, executed_request_proposed hreach⟩

theorem log_entries_own_replied :
    ∃ c, (replicaProgram (soloParams 0)).Reachable replicaInit c ∧ c.shared.log ≠ [] ∧
      ∀ m ∈ c.shared.log, LogEntryOk (soloParams 0) c.shared.validated m := by
  obtain ⟨c, hreach, -, hlen⟩ := repliedSchedule_log
  exact ⟨c, hreach, List.ne_nil_of_length_pos (by omega), log_entries_own hreach⟩

end MinBFT.Core
