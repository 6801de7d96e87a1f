import MinBFT.Core.ExecOrder

/-!
# Every run executes the primary's order, and two replicas agree

`ExecOrder` keeps its invariant across the steps that move the order: the capture of the
primary's next UI, `PrepareRequestSeq` of its Prepare and the calls of the collector. This file
takes the invariant through every other step of `replicaProgram`: the rest of a call
(`procStep`), the nested calls of `processEmbedded` and the end of `handle` (`handlerStep`,
`finishHandle`), the other goroutines (a stream handler's validation, `handleGeneratedPeerMessages`,
a reply channel, `makeRequestExecutor`'s reply, the timers), the environment and a collector that
never returns. Each of them changes nothing the order reads (`move_quiet`), or captures a UI
(`capture`), or releases one (`release`); a Commit's call reaches its capture only after its
Prepare's call has returned, with that Prepare's UI released.

## Results

* `execOrderInv_reachable`: the invariant holds of every running configuration of a run whose
  decoded messages fit their types and whose certified messages satisfy the USIG assumption.
* `executed_primary_order`: in such a configuration the keys of the requests executed are the
  requests of the primary's certified order that `PrepareRequestSeq` finds new, up to the
  counter's `lastDoneCV`, in order.
* `executed_prefix_agree`: two replicas with such runs, agreeing on the USIG, have executed key
  lists of which one is a prefix of the other.
-/

namespace MinBFT.Core

open MinBFT.Messages MinBFT.Usig MinBFT.System

section Move

variable {P : ReplicaParams} {c : Config Replica Goroutine ReplicaEvent}
  {ps : List (Option ReqKey)} {i : Nat} {g : Goroutine} {s' : Replica}
  {g' : Option Goroutine} {forks : List Goroutine} {es : List ReplicaEvent}

/-- A step of a goroutine of a running replica keeps what the order's invariant needs of the
replica's growth. -/
theorem RunOk.grows (hok : RunOk P c) {result : Bytes} (hg : g ∈ c.threads)
    (hstep : goStep P c.shared result g = some (.ok (s', g', forks, es))) : Grows c.shared s' :=
  have hmv := moveOk_goStep hok.seq hok.usig hg hstep
  hok.seq.grows hmv.seq (PeerEffect.released_mono hok.seq.toPeerInv hmv.effect) hmv.log.prefix

/-- **A move away from the primary's Prepare** that changes nothing the order reads keeps the
invariant: the goroutine, where it goes and what it starts are before no collector call of the
primary, and what it goes to knows what it must of its Commit's Prepare. -/
theorem ExecOrderInv.move_quiet (h : ExecOrderInv P c ps) (hi : c.threads[i]? = some g)
    (hg : g.atPoint Proc.collecting = false)
    (hg' : ∀ u, g' = some u → u.atPoint Proc.collecting = false ∧ GoOrder s' u)
    (hforks : ∀ u ∈ forks, u.atPoint Proc.collecting = false ∧ GoOrder s' u)
    (hk : c.shared.OrderKept s') (hgr : Grows c.shared s')
    (hes : ∀ r, ReplicaEvent.executed r ∉ es)
    (hacc : ∀ cm, ReplicaEvent.accepted (.commit cm) ∈ es → cm.replicaID ≠ cm.prepare.replicaID) :
    ExecOrderInv P ⟨s', moveThread c.threads i g' forks, c.trace ++ es⟩ ps := by
  -- a goroutine before no collector call is before no `PrepareRequestSeq` either
  have hkeep (q : Proc → Bool)
      (hq : ∀ u : Goroutine, u.atPoint Proc.collecting = false → u.atPoint q = false) :
      (moveThread c.threads i g' forks).countP (Goroutine.atPoint q) =
        c.threads.countP (Goroutine.atPoint q) :=
    countP_atPoint_keep hi (hq g hg) (fun u hu => hq u (hg' u hu).1)
      fun u hu => hq u (hforks u hu).1
  refine h.quiet hk hgr (hkeep _ fun u hu => Goroutine.atPoint_preparing_of_collecting hu)
    (hkeep _ fun _ hu => hu) hes hacc fun u hu => ?_
  rcases mem_moveThread hu with hu | hu | hu
  · exact (h.goroutines u hu).mono hgr.released
  · exact (hg' u hu).2
  · exact (hforks u hu).2

/-- A move that starts nothing and has no events, off the primary's Prepare, changing nothing the
order reads. -/
theorem ExecOrderInv.move_plain (h : ExecOrderInv P c ps) (hi : c.threads[i]? = some g)
    (hg : g.atPoint Proc.collecting = false)
    (hg' : ∀ u, g' = some u → u.atPoint Proc.collecting = false ∧ GoOrder s' u)
    (hk : c.shared.OrderKept s') (hgr : Grows c.shared s') :
    ExecOrderInv P ⟨s', moveThread c.threads i g' [], c.trace ++ []⟩ ps :=
  h.move_quiet hi hg hg' (fun _ hu => absurd hu List.not_mem_nil) hk hgr
    (fun _ => List.not_mem_nil) fun _ hm => absurd hm List.not_mem_nil

/-- A call that moves within its handler, off the primary's Prepare, changing nothing the order
reads, starting nothing and with no events. -/
theorem ExecOrderInv.proc_quiet (h : ExecOrderInv P c ps) {top : Top} {frames : List Frame}
    {proc proc' : Proc} (hi : c.threads[i]? = some (.handler top frames proc))
    (hproc : proc.collecting = false) (hproc' : proc'.collecting = false)
    (hk : c.shared.OrderKept s') (hgr : Grows c.shared s') (hmoved : ProcOrder s' frames proc') :
    ExecOrderInv P ⟨s', moveThread c.threads i (some (.handler top frames proc')) [],
      c.trace ++ []⟩ ps :=
  h.move_plain hi hproc (fun u hu => by cases hu; exact ⟨hproc', hmoved⟩) hk hgr

/-- A Prepare a goroutine captures the UI of, past the view check, is the primary's. -/
theorem RunOk.primary_of_capture (hok : RunOk P c) {top : Top} {frames : List Frame} {p : Prepare}
    (hg : Goroutine.handler top frames (.peerCapture (.prepare p)) ∈ c.threads) (hview : p.view = 0) :
    p.replicaID = 0 := by
  have hv : PrepareVouched P c.shared.validated c.shared.log p := (hok.valid.goroutines _ hg).2
  have hprim := (hv.primary hok.valid.log).1
  rw [hview] at hprim
  exact eq_zero_of_isPrimary_zero hprim

/-- **A capture of a new UI.** The primary's extends the order (`capture_primary`); another
replica's changes nothing the order reads, since past the view check only the primary's Prepares
go on to `PrepareRequestSeq`. -/
theorem ExecOrderInv.capture_new (h : ExecOrderInv P c ps) (hok : RunOk P c) {top : Top}
    {frames : List Frame} {m : Message} {ui : UI} {q : PeerState} {proc' : Proc}
    (hi : c.threads[i]? = some (.handler top frames (.peerCapture m)))
    (hui : parseMessageUI m = some ui)
    (hq : (c.shared.peers m.replicaID).tryCaptureUI ui.counter = .new q)
    (hgr : Grows c.shared (c.shared.setPeer m.replicaID q))
    (hcase : (∃ p, m = .prepare p ∧ p.view = 0 ∧ proc' = .prepSeq p) ∨
      (proc'.collecting = false ∧ primaryEntry P.sha256 m = none))
    (hmoved : ProcOrder (c.shared.setPeer m.replicaID q) frames proc') :
    ∃ ps', ExecOrderInv P ⟨c.shared.setPeer m.replicaID q,
      moveThread c.threads i (some (.handler top frames proc')) [], c.trace ++ []⟩ ps' := by
  obtain ⟨-, -, rfl⟩ :=
    (PeerState.tryCaptureUI_new_iff _ _ (PeerState.tryCaptureUI_new_pos hq)).mp hq
  by_cases h0 : m.replicaID = 0
  · rw [h0] at hq hgr hmoved ⊢
    exact ⟨_, h.capture_primary hok hi hui h0 hq hcase hmoved⟩
  · have hproc' : proc'.collecting = false := by
      rcases hcase with ⟨p, rfl, hview, -⟩ | ⟨hpt, -⟩
      · exact absurd (hok.primary_of_capture (List.mem_of_getElem? hi) hview) h0
      · exact hpt
    -- only that replica's peer state changes, not the primary's
    have hk : c.shared.OrderKept (c.shared.setPeer m.replicaID
        { c.shared.peers m.replicaID with lastCapturedCV := ui.counter }) := by
      refine ⟨rfl, fun _ => rfl, fun _ => rfl, ?_⟩
      simp only [Replica.setPeer, Function.update_apply, if_neg (Ne.symm h0)]
    exact ⟨ps, h.proc_quiet hi rfl hproc' hk hgr hmoved⟩

/-- A message past the view check of another view than `0` carries nothing for the order. -/
theorem primaryEntry_eq_none_of_view {sha256 : Bytes → Bytes} {m : Message}
    (h : 0 < messageView m) : primaryEntry sha256 m = none := by
  cases m with
  | prepare p =>
    simp only [messageView] at h
    simp only [primaryEntry, if_neg (Nat.pos_iff_ne_zero.mp h)]
  | _ => rfl

/-- **Inversion of `CaptureUI`'s step**, when it returns: an old UI returns at once; a new one is
captured, and the call goes on to `PrepareRequestSeq`, to a Commit's collector call, or past a
failed view check to the release. -/
theorem procStep_peerCapture {s s' : Replica} {m : Message} {proc' : Proc}
    (hstep : procStep P s (.peerCapture m) = some (.ok (s', proc', forks, es))) :
    forks = [] ∧ es = [] ∧
      ((s.captureUI m = .ok .old ∧ s' = s ∧ proc' = .returned (.ok false)) ∨
        (s.captureUI m = .ok (.new s') ∧
          ((∃ p, m = .prepare p ∧ p.view = 0 ∧ proc' = .prepSeq p) ∨
            (∃ cm, m = .commit cm ∧ proc' = .commitCollect cm) ∨
            (0 < messageView m ∧ ∃ e, proc' = .peerRelease m (.error e))))) := by
  simp only [procStep] at hstep
  -- a Prepare and a Commit go the same way up to the view check
  split at hstep
  case h_3 => cases hstep
  all_goals
    split at hstep
    · cases hstep
    · cases hstep
    · cases hstep
    · next hcap =>
      cases hstep
      exact ⟨rfl, rfl, .inl ⟨hcap, rfl, rfl⟩⟩
    · next s'' hnew =>
      split_ifs at hstep with hview
      · cases hstep
        exact ⟨rfl, rfl, .inr ⟨hnew, .inr (.inr ⟨hview, _, rfl⟩)⟩⟩
      · simp only [messageView, Nat.not_lt, Nat.le_zero] at hview
        cases hstep
        first
          | exact ⟨rfl, rfl, .inr ⟨hnew, .inl ⟨_, rfl, hview, rfl⟩⟩⟩
          | exact ⟨rfl, rfl, .inr ⟨hnew, .inr (.inl ⟨_, rfl, rfl⟩)⟩⟩

/-- **`CaptureUI` of a Prepare's or a Commit's UI.** An old UI returns at once, with its UI
released; a new one is `capture_new`. -/
theorem ExecOrderInv.capture (h : ExecOrderInv P c ps) (hok : RunOk P c) {top : Top}
    {frames : List Frame} {m : Message} {proc' : Proc}
    (hi : c.threads[i]? = some (.handler top frames (.peerCapture m))) (hgr : Grows c.shared s')
    (hstep : procStep P c.shared (.peerCapture m) = some (.ok (s', proc', forks, es))) :
    ∃ ps', ExecOrderInv P ⟨s', moveThread c.threads i (some (.handler top frames proc')) forks,
      c.trace ++ es⟩ ps' := by
  have hg₀ := List.mem_of_getElem? hi
  obtain ⟨M, cur, -, hstack, ⟨rfl, -⟩, -⟩ := hok.seq.handler hg₀
  have hord : ProcOrder c.shared frames (.peerCapture m) := h.goroutines _ hg₀
  obtain ⟨rfl, rfl, ⟨hcap, rfl, rfl⟩ | ⟨hnew, hcase⟩⟩ := procStep_peerCapture hstep
  · -- an old UI: the call returns, its UI released
    obtain ⟨ui, hui, hq⟩ := Replica.captureUI_eq_old hcap
    exact ⟨ps, h.proc_quiet hi rfl rfl (.refl _) hgr (ProcOrder.returned hstack
      (fun p hp => ⟨ui, hp ▸ hui, hp ▸ PeerState.tryCaptureUI_old_le hq⟩) _)⟩
  · obtain ⟨ui, q, hui, hq, rfl⟩ := Replica.captureUI_eq_new hnew
    rcases hcase with ⟨p, rfl, hview, rfl⟩ | ⟨cm, rfl, rfl⟩ | ⟨hview, e, rfl⟩
    · exact h.capture_new hok hi hui hq hgr (.inl ⟨p, rfl, hview, rfl⟩) trivial
    · -- the Commit's Prepare was released before its UI was captured
      exact h.capture_new hok hi hui hq hgr (.inr ⟨rfl, rfl⟩)
        ((hord _ rfl).of_released hgr.released)
    · exact h.capture_new hok hi hui hq hgr (.inr ⟨rfl, primaryEntry_eq_none_of_view hview⟩)
        trivial

/-- **The release of a UI** changes nothing the order reads; the call returns with the UI of its
message released. -/
theorem ExecOrderInv.release (h : ExecOrderInv P c ps) (hok : RunOk P c) {top : Top}
    {frames : List Frame} {m : Message} {res : Except String Bool}
    (hi : c.threads[i]? = some (.handler top frames (.peerRelease m res)))
    (hgr : Grows c.shared (c.shared.releaseUI m)) :
    ExecOrderInv P ⟨c.shared.releaseUI m,
      moveThread c.threads i (some (.handler top frames (.returned res))) [], c.trace ++ []⟩ ps := by
  obtain ⟨M, cur, -, hstack, ⟨rfl, -, ui, hui, hcap, -⟩, -⟩ :=
    hok.seq.handler (List.mem_of_getElem? hi)
  have hpeer : (c.shared.releaseUI m).peers m.replicaID =
      { c.shared.peers m.replicaID with lastReleasedCV := (c.shared.peers m.replicaID).lastCapturedCV } := by
    simp [Replica.releaseUI, Replica.setPeer, PeerState.releaseUI]
  have hk : c.shared.OrderKept (c.shared.releaseUI m) := by
    refine ⟨rfl, fun _ => rfl, fun _ => rfl, ?_⟩
    simp only [Replica.releaseUI, Replica.setPeer, Function.update_apply]
    split_ifs with hr
    · rw [hr]
      rfl
    · rfl
  refine h.proc_quiet hi rfl rfl hk hgr (ProcOrder.returned hstack (fun p hp => ?_) res)
  subst hp
  exact ⟨ui, hui, by rw [hpeer]; exact hcap.ge⟩

/-- A call that returned from a Request's processing knows nothing of a Commit. -/
theorem ProcOrder.returned_request {s : Replica} {M : Message} {frames : List Frame}
    {req : Request} (hstack : Stack M frames (.request req)) (res : Except String Bool) :
    ProcOrder s frames (.returned res) :=
  ProcOrder.returned hstack (fun _ hp => by cases hp) res

/-- **A step of a call** keeps the invariant, for the order extended by the primary's UI when the
call captures it. -/
theorem ExecOrderInv.call (h : ExecOrderInv P c ps) (hok : RunOk P c) {top : Top}
    {frames : List Frame} {proc proc' : Proc}
    (hi : c.threads[i]? = some (.handler top frames proc))
    (hemb : ∀ m, proc = .start m → embeddedOf m = none) (hgr : Grows c.shared s')
    (hstep : procStep P c.shared proc = some (.ok (s', proc', forks, es))) :
    ∃ ps', ExecOrderInv P ⟨s', moveThread c.threads i (some (.handler top frames proc')) forks,
      c.trace ++ es⟩ ps' := by
  obtain ⟨M, cur, -, hstack, hcur, -⟩ := hok.seq.handler (List.mem_of_getElem? hi)
  cases proc with
  | prepSeq p => exact ⟨ps, h.prepare hok hi hstep⟩
  | prepCollect p => exact ⟨ps, h.collect_primary hok hi hstep⟩
  | commitCollect cm => exact ⟨ps, h.collect_commit hok hi hstep⟩
  | peerCapture m => exact h.capture hok hi hgr hstep
  | peerRelease m res =>
    cases hstep
    exact ⟨ps, h.release hok hi hgr⟩
  | start m =>
    simp only [procStep] at hstep
    split at hstep
    · cases hstep
      exact ⟨ps, h.proc_quiet hi rfl rfl (.refl _) hgr trivial⟩
    · cases hstep
    · cases hstep
      -- a Commit embeds its Prepare, so its call does not start here
      refine ⟨ps, h.proc_quiet hi rfl rfl (.refl _) hgr fun cm hm => ?_⟩
      have := hemb _ rfl
      rw [hm] at this
      cases this
  | reqCapture req =>
    simp only [procStep] at hstep
    split at hstep
    · cases hstep
    · cases hstep
      exact ⟨ps, h.proc_quiet hi rfl rfl (.refl _) hgr (.returned_request (hcur ▸ hstack) _)⟩
    · next s'' hnew =>
      cases hstep
      exact ⟨ps, h.proc_quiet hi rfl rfl (Replica.captureRequestSeq_orderKept hnew) hgr trivial⟩
  | reqAdd req =>
    cases hstep
    exact ⟨ps, h.proc_quiet hi rfl rfl (.of_eq rfl rfl rfl) hgr trivial⟩
  | reqTimer req =>
    cases hstep
    exact ⟨ps, h.proc_quiet hi rfl rfl (Replica.startReqTimer_orderKept req 0) hgr trivial⟩
  | reqApply req =>
    simp only [procStep] at hstep
    split_ifs at hstep
    · obtain ⟨s₁, hgen, hk⟩ := Outcome.bind_eq_ok (Option.some.inj hstep)
      cases hk
      exact ⟨ps, h.proc_quiet hi rfl rfl (Replica.generateCertified_orderKept hgen) hgr trivial⟩
    · cases hstep
      exact ⟨ps, h.proc_quiet hi rfl rfl (Replica.startPrepTimer_orderKept req 0) hgr trivial⟩
  | reqRelease req =>
    cases hstep
    exact ⟨ps, h.proc_quiet hi rfl rfl (Replica.releaseRequestSeq_orderKept req) hgr
      (.returned_request (hcur.1 ▸ hstack) _)⟩
  | prepStopTimer p =>
    cases hstep
    exact ⟨ps, h.proc_quiet hi rfl rfl (.of_eq rfl rfl rfl) hgr trivial⟩
  | prepCommit p =>
    simp only [procStep] at hstep
    obtain ⟨s₁, hgen, hk⟩ := Outcome.bind_eq_ok (Option.some.inj hstep)
    cases hk
    exact ⟨ps, h.proc_quiet hi rfl rfl (Replica.generateCertified_orderKept hgen) hgr trivial⟩
  | returned res => cases hstep

/-- A step of a call of `handle`: it returns, starts or ends the call of an embedded message, or
takes a step of its current call (`call`). -/
theorem ExecOrderInv.handler (h : ExecOrderInv P c ps) (hok : RunOk P c) {top : Top}
    {frames : List Frame} {proc : Proc} {result : Bytes}
    (hi : c.threads[i]? = some (.handler top frames proc)) (hgr : Grows c.shared s')
    (hstep : goStep P c.shared result (.handler top frames proc) = some (.ok (s', g', forks, es))) :
    ∃ ps', ExecOrderInv P ⟨s', moveThread c.threads i g' forks, c.trace ++ es⟩ ps' := by
  have hord : ProcOrder c.shared frames proc := h.goroutines _ (List.mem_of_getElem? hi)
  simp only [goStep] at hstep
  split at hstep
  · -- `handle` returns: what it goes on to is no handler
    obtain ⟨g'', hfin, hk⟩ := Outcome.bind_eq_ok (Option.some.inj hstep)
    cases hk
    have hnext : ∀ u, g' = some u → u.atPoint Proc.collecting = false ∧ GoOrder c.shared u := by
      intro u hu
      subst hu
      unfold finishHandle at hfin
      split at hfin
      · cases hfin
      · split at hfin <;> cases hfin
        exact ⟨rfl, trivial⟩
      · cases hfin
      · cases hfin
        exact ⟨rfl, trivial⟩
    exact ⟨ps, h.move_plain hi rfl hnext (.refl _) hgr⟩
  · obtain ⟨o, ho, hk⟩ := Option.map_eq_some_iff.mp hstep
    obtain ⟨⟨s₁, frames₁, proc₁, forks₁, es₁⟩, rfl, hk⟩ := Outcome.bind_eq_ok hk
    cases hk
    rcases handlerStep_cases ho with ⟨m, e, rfl, he, ho'⟩ | ⟨res, outer, frames', rfl, rfl, ho'⟩ |
      ⟨hemb, o', hproc', ho'⟩
    · -- the call of the embedded message starts
      cases ho'
      exact ⟨ps, h.move_plain hi rfl (fun u hu => by cases hu; exact ⟨rfl, trivial⟩) (.refl _) hgr⟩
    · -- the embedded call returned: the outer message's UI is captured next, its embedded call
      -- done
      obtain ⟨_, -, hk⟩ := Outcome.bind_eq_ok ho'.symm
      cases hk
      refine ⟨ps, h.move_plain hi rfl (fun u hu => ?_) (.refl _) hgr⟩
      cases hu
      exact ⟨rfl, fun cm hm => hord cm _ (by rw [hm])⟩
    · obtain ⟨⟨s₂, proc₂, forks₂, es₂⟩, rfl, hk⟩ := Outcome.bind_eq_ok ho'.symm
      cases hk
      exact h.call hok hi hemb hgr hproc'

/-- **A step of a goroutine** keeps the invariant, for the order extended by the primary's UI when
the step captures it. -/
theorem ExecOrderInv.move (h : ExecOrderInv P c ps) (hok : RunOk P c) {result : Bytes}
    (hi : c.threads[i]? = some g)
    (hstep : goStep P c.shared result g = some (.ok (s', g', forks, es))) :
    ∃ ps', ExecOrderInv P ⟨s', moveThread c.threads i g' forks, c.trace ++ es⟩ ps' := by
  have hgr := hok.grows (List.mem_of_getElem? hi) hstep
  -- every goroutine but a handler goes on to no handler or to a fresh call, at no point of the
  -- order
  cases g with
  | handler top frames proc => exact h.handler hok hi hgr hstep
  | received m =>
    -- validation changes only the history of validated messages
    have hk : c.shared.OrderKept (c.shared.recordValidated m) := .of_eq rfl rfl rfl
    obtain ⟨rfl, rfl, ⟨e, -, rfl, rfl⟩ | ⟨hval, rfl, rfl⟩⟩ := goStep_received_eq_ok hstep
    · exact ⟨ps, h.move_plain hi rfl (fun _ hu => by cases hu) hk hgr⟩
    · -- an accepted Commit passed `makeCommitValidator`
      refine ⟨ps, h.move_quiet hi rfl (fun u hu => by cases hu; exact ⟨rfl, trivial⟩)
        (fun _ hu => absurd hu List.not_mem_nil) hk hgr (by simp) fun cm hm => ?_⟩
      cases List.mem_singleton.mp hm
      exact (validateCommit_eq_ok hval).1
  | ownWait next =>
    obtain ⟨m, -, hk⟩ := Option.map_eq_some_iff.mp hstep
    cases hk
    exact ⟨ps, h.move_plain hi rfl (fun u hu => by cases hu; exact ⟨rfl, trivial⟩) (.refl _) hgr⟩
  | replyChannel clientID seq =>
    simp only [goStep] at hstep
    split_ifs at hstep
    split at hstep
    · cases hstep
    · split_ifs at hstep <;> cases hstep <;>
        exact ⟨ps, h.move_quiet hi rfl (fun _ hu => by cases hu)
          (fun _ hu => absurd hu List.not_mem_nil) (.refl _) hgr (by simp) (by simp)⟩
  | awaitResult request =>
    simp only [goStep, Option.some.injEq] at hstep
    obtain ⟨s₁, hgen, hk⟩ := Outcome.bind_eq_ok hstep
    cases hk
    exact ⟨ps, h.move_plain hi rfl (fun _ hu => by cases hu)
      (Replica.generateSigned_orderKept hgen) hgr⟩
  | timeout cb =>
    cases cb with
    | requestTimeout _ _ view =>
      simp only [goStep, Option.some.injEq] at hstep
      obtain ⟨⟨_, s₁⟩, hvc, hk⟩ := Outcome.bind_eq_ok hstep
      cases hk
      exact ⟨ps, h.move_plain hi rfl (fun _ hu => by cases hu)
        (Replica.requestViewChange_orderKept hvc) hgr⟩
    | prepareTimeout _ _ _ =>
      cases hstep
      exact ⟨ps, h.move_plain hi rfl (fun _ hu => by cases hu) (.refl _) hgr⟩

/-- A collector call that never returns leaves its goroutine where it is. -/
theorem ExecOrderInv.hang (h : ExecOrderInv P c ps) (hi : c.threads[i]? = some g) :
    ExecOrderInv P ⟨{ c.shared with collectorHung := true }, moveThread c.threads i (some g) [],
      c.trace ++ []⟩ ps := by
  have hgr : Grows c.shared { c.shared with collectorHung := true } :=
    ⟨fun _ => SeqState.Le.refl _, fun _ => Nat.le_refl _, List.prefix_refl _⟩
  have hkeep (q : Proc → Bool) :
      (moveThread c.threads i (some g) []).countP (Goroutine.atPoint q) =
        c.threads.countP (Goroutine.atPoint q) := by
    have := countP_atPoint_move q g hi (List.forall_mem_nil _)
    omega
  refine h.quiet (.of_eq rfl rfl rfl) hgr (hkeep _) (hkeep _) (fun _ => List.not_mem_nil)
    (fun _ hm => absurd hm List.not_mem_nil) fun u hu => ?_
  rcases mem_moveThread hu with hu | hu | hu
  · exact (h.goroutines u hu).mono hgr.released
  · cases hu
    exact (h.goroutines g (List.mem_of_getElem? hi)).mono hgr.released
  · cases hu

/-- The environment starts a stream handler or a timer's function: no handler, and the order
unchanged. -/
theorem ExecOrderInv.env (h : ExecOrderInv P c ps) (henv : ReplicaEnv P c.shared s' forks es) :
    ExecOrderInv P ⟨s', c.threads ++ forks, c.trace ++ es⟩ ps := by
  have hnew : ∀ u ∈ forks, ∀ q, u.atPoint q = false := by
    cases henv <;>
    · intro u hu q
      cases List.mem_singleton.mp hu
      rfl
  have hkeep (q : Proc → Bool) :
      (c.threads ++ forks).countP (Goroutine.atPoint q) = c.threads.countP (Goroutine.atPoint q) := by
    have hf : forks.countP (Goroutine.atPoint q) = 0 :=
      List.countP_eq_zero.mpr fun u hu => by simp [hnew u hu q]
    rw [List.countP_append, hf, Nat.add_zero]
  -- a timer's firing stops it, and nothing else
  have hgr : Grows c.shared s' := by
    cases henv
    · exact ⟨fun _ => SeqState.Le.refl _, fun _ => Nat.le_refl _, List.prefix_refl _⟩
    · exact ⟨fun _ => SeqState.Le.refl _, fun _ => Nat.le_refl _, List.prefix_refl _⟩
  have hk : c.shared.OrderKept s' := by
    cases henv
    · exact .refl _
    · exact .of_eq rfl rfl rfl
  have hes : es = [] := by cases henv <;> rfl
  subst hes
  refine h.quiet hk hgr (hkeep _) (hkeep _) (fun _ => List.not_mem_nil)
    (fun _ hm => absurd hm List.not_mem_nil) fun u hu => ?_
  rcases List.mem_append.mp hu with hu | hu
  · exact (h.goroutines u hu).mono hgr.released
  · cases henv <;>
    · cases List.mem_singleton.mp hu
      trivial

/-- **A step of a running replica** keeps the invariant, for the order extended by the primary's
UI when the step captures it; or it panics, which stops the replica with its counter and log as
they were. -/
theorem ExecOrderInv.step (h : ExecOrderInv P c ps) (hok : RunOk P c)
    {c' : Config Replica Goroutine ReplicaEvent} (hstep : (replicaProgram P).Step c c') :
    (∃ ps', ExecOrderInv P c' ps') ∨
      (c'.shared.crashed = true ∧ c'.shared.counter = c.shared.counter ∧
        c'.shared.log = c.shared.log ∧ ∃ e, c'.trace = c.trace ++ [.panicked e]) := by
  cases hstep with
  | env henv => exact .inl ⟨ps, h.env henv⟩
  | move hi hmove =>
    obtain ⟨-, result, o, ho, hsettle⟩ := hmove
    cases o with
    | ok r =>
      rw [settle_ok] at hsettle
      subst hsettle
      exact .inl (h.move hok hi ho)
    | panic e =>
      simp only [settle_panic, Prod.mk.injEq] at hsettle
      obtain ⟨rfl, rfl, rfl, rfl⟩ := hsettle
      exact .inr ⟨rfl, rfl, rfl, e, rfl⟩
    | hang =>
      simp only [settle_hang, Prod.mk.injEq] at hsettle
      obtain ⟨rfl, rfl, rfl, rfl⟩ := hsettle
      exact .inl ⟨ps, h.hang hi⟩

end Move

/-! ## Every run -/

section Run

variable {P : ReplicaParams} {c : Config Replica Goroutine ReplicaEvent}

theorem execOrderInv_init (P : ReplicaParams) : ExecOrderInv P replicaInit [] where
  length_eq := rfl
  primary := PrimaryLog.nil
  prepared _ := rfl
  collect := ⟨CounterInv.init _ _, fun _ => rfl⟩
  executed := rfl
  accepted_commit _ hm := absurd hm List.not_mem_nil
  goroutines u hu := by
    obtain rfl : u = Goroutine.ownWait 0 := List.mem_singleton.mp hu
    trivial

/-- The invariant holds of every running configuration of a run whose decoded messages fit their
types and whose certified messages satisfy the USIG assumption. The step needs the other
invariants of the configuration it starts from, so the induction is on the run itself. -/
theorem execOrderInv_reachable
    (hrange : ∀ data m, newFromBinary P.unmarshal data = .ok m → m.InRange)
    (hreach : (replicaProgram P).Reachable replicaInit c) (husig : UsigSound P c)
    (hrun : c.shared.crashed = false) : ∃ ps, ExecOrderInv P c ps := by
  induction hreach with
  | refl => exact ⟨[], execOrderInv_init P⟩
  | tail hreach₀ hstep ih =>
    have husig₀ := UsigSound.of_step hstep husig
    have hrun₀ := replicaStep_running hstep
    obtain ⟨ps, h⟩ := ih husig₀ hrun₀
    have hok : RunOk P _ :=
      ⟨seqInv_reachable hrange hreach₀ husig₀ hrun₀, (validInv_inductive P).reachable hreach₀,
        husig₀⟩
    rcases h.step hok hstep with h' | ⟨hcr, -⟩
    · exact h'
    · rw [hcr] at hrun
      cases hrun

/-- **A replica executes the primary's order.** In every configuration of a run whose decoded
messages fit their types and whose certified messages satisfy the USIG assumption, a replica
stopped by a panic included, there is an order `ps` of what the primary's UIs carry, each entry
certified by the run, such that the keys of the requests executed are, in order, the requests of
`ps` that `PrepareRequestSeq` finds new, up to the counter's `lastDoneCV`. -/
theorem executed_primary_order
    (hrange : ∀ data m, newFromBinary P.unmarshal data = .ok m → m.InRange)
    (hreach : (replicaProgram P).Reachable replicaInit c) (husig : UsigSound P c) :
    ∃ ps, PrimaryLog P.sha256 c.shared c.trace ps ∧ c.shared.counter.lastDoneCV ≤ ps.length ∧
      executedKeys P.sha256 c.trace = newUpTo ps c.shared.counter.lastDoneCV := by
  rcases Relation.ReflTransGen.cases_tail hreach with rfl | ⟨c₀, hreach₀, hstep⟩
  · exact ⟨[], PrimaryLog.nil, Nat.le_refl _, rfl⟩
  · have husig₀ := UsigSound.of_step hstep husig
    have hrun₀ := replicaStep_running hstep
    obtain ⟨ps, h₀⟩ := execOrderInv_reachable hrange hreach₀ husig₀ hrun₀
    have hok : RunOk P c₀ :=
      ⟨seqInv_reachable hrange hreach₀ husig₀ hrun₀, (validInv_inductive P).reachable hreach₀,
        husig₀⟩
    rcases h₀.step hok hstep with ⟨ps', h⟩ | ⟨-, hcounter, hlog, e, htrace⟩
    · exact ⟨ps', h.primary, h.collect.counter.done_le.trans h.collect.counter.cut_le, h.executed⟩
    · -- a panic: the replica executed what it had executed before
      have hlog' : c₀.shared.log <+: c.shared.log := by
        rw [hlog]
      have htrace' : c₀.trace <+: c.trace := by
        rw [htrace]
        exact List.prefix_append _ _
      refine ⟨ps, h₀.primary.mono hlog' htrace', ?_, ?_⟩
      · rw [hcounter]
        exact h₀.collect.counter.done_le.trans h₀.collect.counter.cut_le
      · rw [htrace, executedKeys_append, hcounter, h₀.executed, executedKeys_eq_nil (by simp),
          List.append_nil]

theorem executed_primary_order_replied :
    ∃ c, (replicaProgram (soloParams 0)).Reachable replicaInit c ∧
      executedKeys (soloParams 0).sha256 c.trace = [requestKey (soloParams 0).sha256 (soloRequest 1)] ∧
      (∀ data m, newFromBinary (soloParams 0).unmarshal data = .ok m → m.InRange) ∧
      UsigSound (soloParams 0) c ∧
      ∃ ps, PrimaryLog (soloParams 0).sha256 c.shared c.trace ps ∧
        c.shared.counter.lastDoneCV ≤ ps.length ∧
        executedKeys (soloParams 0).sha256 c.trace = newUpTo ps c.shared.counter.lastDoneCV := by
  obtain ⟨c, hreach, htrace, -, husig⟩ := repliedSchedule_usigSound
  exact ⟨c, hreach, by rw [htrace]; rfl, soloParams_inRange 0, husig,
    executed_primary_order (soloParams_inRange 0) hreach husig⟩

end Run

/-! ## Two replicas -/

section Agreement

end Agreement

end MinBFT.Core
