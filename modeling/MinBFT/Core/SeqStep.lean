import MinBFT.Core.SeqInvariant

/-!
# Every step of a replica keeps its invariant

`SeqInv` survives every step of the replica's program (`seqInv_step`): the environment's, and
each goroutine's through the move rule `SeqInv.move`, with the effect of the step shown for each
kind of goroutine and each point of a call.

* The message log only grows (`replicaStep_appends`), so the certified messages of a run
  only grow and the USIG assumption of a configuration holds of every configuration before it
  (`UsigSound.of_step`).
* Each point of a call has its lemma (`moveOk_reqCapture`, `moveOk_prepSeq`, …); they cite the
  spec lemmas of `ReplicaSpec` and never unfold the operations.
* The one step that needs the USIG is the capture of a Commit's UI when its Prepare was found
  with its UI released: the message that UI was released for certified the same request
  (`SeqInv.isPrepared_of_commit`).
-/

namespace MinBFT.Core

open MinBFT.Messages MinBFT.Usig MinBFT.System

/-! ## Messages accepted and generated -/

theorem prepareUIPos_of_ne_commit {m : Message} (h : ∀ c, m ≠ .commit c) : PrepareUIPos m := by
  cases m with
  | commit c => exact absurd rfl (h c)
  | _ => trivial

/-- A message that passes validation is a Commit only with a Prepare whose UI counter is at
least one. -/
theorem prepareUIPos_of_validateMessage {sha256 : Bytes → Bytes}
    {verifyTag : AuthenRole → Nat → Bytes → Bytes → Except String Unit} {cfg : ReplicaConfig}
    {m : Message} (h : validateMessage sha256 verifyTag cfg m = .ok (.ok ())) :
    PrepareUIPos m := by
  cases m with
  | commit c =>
    obtain ⟨ui, hui, h0⟩ := validateCommit_prepare_ui sha256 verifyTag h
    exact ⟨ui, hui, Nat.one_le_iff_ne_zero.mpr h0⟩
  | _ => trivial

/-- A Reply or ReqViewChange with its signature is still one, with nothing to check. -/
theorem logOk_of_setSignature {m m' : Message} {sig : Bytes} (h : m.setSignature sig = some m')
    (hm : (∃ r, m = .reply r) ∨ ∃ v, m = .reqViewChange v) : m'.InRange ∧ PrepareUIPos m' := by
  rcases hm with ⟨r, rfl⟩ | ⟨v, rfl⟩
  · obtain ⟨r', -, rfl⟩ := Option.map_eq_some_iff.mp h
    exact ⟨trivial, trivial⟩
  · obtain ⟨v', -, rfl⟩ := Option.map_eq_some_iff.mp h
    exact ⟨trivial, trivial⟩

/-- A signed Reply or ReqViewChange that goes to the log grows it as `LogGrows` says. -/
theorem logGrows_of_setSignature {l l' : List Message} {m : Message}
    (hm : (∃ r, m = .reply r) ∨ ∃ v, m = .reqViewChange v)
    (h : l' = l ∨ ∃ sig m', m.setSignature sig = some m' ∧ l' = l ++ [m']) : LogGrows l l' := by
  rcases h with hl | ⟨sig, m', hm', hl⟩
  · exact .inl hl
  · exact .inr ⟨m', hl, logOk_of_setSignature hm' hm⟩

/-! ## The log and the history only grow -/

/-- What a step does to the log and to the history of validated messages: it appends to them. -/
structure Replica.Appends (s s' : Replica) : Prop where
  log : s.log <+: s'.log
  validated : s.validated <+: s'.validated

namespace Replica.Appends

variable {s s' : Replica}

theorem of_eq (hlog : s'.log = s.log) (hv : s'.validated = s.validated) : Appends s s' :=
  ⟨hlog ▸ List.prefix_refl _, hv ▸ List.prefix_refl _⟩

/-- A step that appends to the log and keeps the history. -/
theorem of_log (hlog : s.log <+: s'.log) (hv : s'.validated = s.validated) : Appends s s' :=
  ⟨hlog, hv ▸ List.prefix_refl _⟩

/-- A step that keeps the history and appends a signed message to the log, if any. -/
theorem of_signed {m : Message}
    (hlog : s'.log = s.log ∨ ∃ sig m', m.setSignature sig = some m' ∧ s'.log = s.log ++ [m'])
    (hv : s'.validated = s.validated) : Appends s s' := by
  refine .of_log ?_ hv
  rcases hlog with hlog | ⟨sig, m', -, hlog⟩
  · rw [hlog]
  · rw [hlog]
    exact List.prefix_append _ _

end Replica.Appends

section Log

variable {P : ReplicaParams} {s s' : Replica}

open Replica in
/-- A step of a call appends to the log at most, and keeps the history of validated messages. -/
theorem procStep_appends {proc proc' : Proc} {forks : List Goroutine}
    {es : List ReplicaEvent} (h : procStep P s proc = some (.ok (s', proc', forks, es))) :
    Appends s s' := by
  cases proc with
  | start m =>
    simp only [procStep] at h
    split at h <;> cases h <;> exact .of_eq rfl rfl
  | reqCapture req =>
    simp only [procStep] at h
    split at h
    · cases h
    · cases h
      exact .of_eq rfl rfl
    · next hnew =>
      cases h
      exact .of_eq (captureRequestSeq_eq_new hnew).2.2.2 (captureRequestSeq_validated hnew)
  | reqApply req =>
    simp only [procStep] at h
    split_ifs at h
    · obtain ⟨s₁, hgen, hk⟩ := Outcome.bind_eq_ok (Option.some.inj h)
      cases hk
      obtain ⟨ui, m', -, rfl⟩ := generateCertified_eq_ok hgen
      exact .of_log (List.prefix_append _ _) rfl
    · cases h
      exact .of_eq rfl rfl
  | peerCapture m =>
    simp only [procStep] at h
    -- a Prepare and a Commit go the same way: `captureUI` changes only the peers
    split at h
    case h_3 => cases h
    all_goals
      split at h
      · cases h
      · cases h
      · cases h
      · cases h
        exact .of_eq rfl rfl
      · next hnew =>
        obtain ⟨ui, q, -, -, rfl⟩ := captureUI_eq_new hnew
        split_ifs at h
        · cases h
          exact .of_eq rfl rfl
        · split at h <;> cases h <;> exact .of_eq rfl rfl
  | prepSeq p =>
    simp only [procStep] at h
    obtain ⟨⟨new, s₁⟩, hprep, hk⟩ := Outcome.bind_eq_ok (Option.some.inj h)
    have hs₁ : Appends s s₁ :=
      .of_eq (prepareSeq_eq_ok hprep).2.2.2 (prepareSeq_validated hprep)
    split_ifs at hk <;> cases hk <;> exact hs₁
  | prepCollect p =>
    simp only [procStep] at h
    split_ifs at h <;>
    · obtain ⟨⟨res, s₁, ex⟩, hcol, hk⟩ := Outcome.bind_eq_ok (Option.some.inj h)
      have hs₁ : Appends s s₁ := .of_eq (collect_eq_ok hcol).2.2 (collect_validated hcol)
      split at hk <;> cases hk <;> exact hs₁
  | prepCommit p =>
    simp only [procStep] at h
    obtain ⟨s₁, hgen, hk⟩ := Outcome.bind_eq_ok (Option.some.inj h)
    cases hk
    obtain ⟨ui, m', -, rfl⟩ := generateCertified_eq_ok hgen
    exact .of_log (List.prefix_append _ _) rfl
  | commitCollect cm =>
    simp only [procStep] at h
    split_ifs at h
    obtain ⟨⟨res, s₁, ex⟩, hcol, hk⟩ := Outcome.bind_eq_ok (Option.some.inj h)
    have hs₁ : Appends s s₁ := .of_eq (collect_eq_ok hcol).2.2 (collect_validated hcol)
    split at hk <;> cases hk <;> exact hs₁
  | returned res => cases h
  | _ =>
    cases h
    exact .of_eq rfl rfl

open Replica in
/-- A step of a goroutine appends to the log at most; a stream handler's validation appends its
message to the history. -/
theorem goStep_appends {result : Bytes} {g : Goroutine} {g' : Option Goroutine}
    {forks : List Goroutine} {es : List ReplicaEvent}
    (h : goStep P s result g = some (.ok (s', g', forks, es))) : Appends s s' := by
  cases g with
  | received m =>
    obtain ⟨rfl, -, -⟩ := goStep_received_eq_ok h
    exact ⟨List.prefix_refl _, List.prefix_append _ _⟩
  | handler top frames proc =>
    simp only [goStep] at h
    split at h
    · obtain ⟨g'', -, hk⟩ := Outcome.bind_eq_ok (Option.some.inj h)
      cases hk
      exact .of_eq rfl rfl
    · obtain ⟨o, ho, hk⟩ := Option.map_eq_some_iff.mp h
      obtain ⟨⟨s₁, frames', proc', forks', es'⟩, rfl, hk⟩ := Outcome.bind_eq_ok hk
      cases hk
      rcases handlerStep_cases ho with ⟨_, _, _, _, ho'⟩ | ⟨_, _, _, _, _, ho'⟩ | ⟨_, o', hproc, ho'⟩
      · cases ho'
        exact .of_eq rfl rfl
      · obtain ⟨_, -, hk⟩ := Outcome.bind_eq_ok ho'.symm
        cases hk
        exact .of_eq rfl rfl
      · obtain ⟨⟨s₂, proc₂, forks₂, es₂⟩, rfl, hk⟩ := Outcome.bind_eq_ok ho'.symm
        cases hk
        exact procStep_appends hproc
  | ownWait next =>
    obtain ⟨m, -, hk⟩ := Option.map_eq_some_iff.mp h
    cases hk
    exact .of_eq rfl rfl
  | replyChannel cl seq =>
    simp only [goStep] at h
    split_ifs at h
    split at h
    · cases h
    · split_ifs at h <;> cases h <;> exact .of_eq rfl rfl
  | awaitResult req =>
    obtain ⟨s₁, hgen, hk⟩ := Outcome.bind_eq_ok (Option.some.inj h)
    cases hk
    exact .of_signed (generateSigned_eq_ok hgen).2.2 (generateSigned_validated hgen)
  | timeout cb =>
    cases cb with
    | requestTimeout cl seq view =>
      obtain ⟨⟨ok, s₁⟩, hreq, hk⟩ := Outcome.bind_eq_ok (Option.some.inj h)
      cases hk
      exact .of_signed (requestViewChange_eq_ok hreq).2.2 (requestViewChange_validated hreq)
    | prepareTimeout cl seq view =>
      cases h
      exact .of_eq rfl rfl

variable {c c' : Config Replica Goroutine ReplicaEvent}

/-- Nothing happens after a panic. -/
theorem replicaStep_running (h : (replicaProgram P).Step c c') : c.shared.crashed = false := by
  cases h with
  | env henv => cases henv <;> assumption
  | move _ hmove => exact hmove.1

/-- **The message log and the history of validated messages only grow** along a run of the
replica. -/
theorem replicaStep_appends (h : (replicaProgram P).Step c c') :
    Replica.Appends c.shared c'.shared := by
  cases h with
  | env henv => cases henv <;> exact .of_eq rfl rfl
  | move _ hmove =>
    obtain ⟨-, result, o, ho, hsettle⟩ := hmove
    cases o with
    | ok r =>
      rw [settle_ok] at hsettle
      subst hsettle
      exact goStep_appends ho
    | panic e =>
      simp only [settle_panic, Prod.mk.injEq] at hsettle
      obtain ⟨rfl, -⟩ := hsettle
      exact .of_eq rfl rfl
    | hang =>
      simp only [settle_hang, Prod.mk.injEq] at hsettle
      obtain ⟨rfl, -⟩ := hsettle
      exact .of_eq rfl rfl

/-- The USIG assumption of a configuration holds of the one before: what was certified stays
certified. -/
theorem UsigSound.of_step (h : (replicaProgram P).Step c c') (hu : UsigSound P c') :
    UsigSound P c := fun m₁ m₂ ui₁ ui₂ h₁ h₂ =>
  hu m₁ m₂ ui₁ ui₂ (h₁.mono (replicaStep_appends h).log h.trace_prefix)
    (h₂.mono (replicaStep_appends h).log h.trace_prefix)

end Log

/-! ## Facts of the invariant -/

section Facts

variable {P : ReplicaParams} {c : Config Replica Goroutine ReplicaEvent}

/-- A handler's top message was accepted or generated, so it fits its types. -/
theorem SeqInv.top_ok (h : SeqInv c) {top : Top} {M : Message}
    (htop : TopOk c.shared c.trace top M) : M.InRange ∧ PrepareUIPos M :=
  htop.source.elim (h.accepted_ok M) (h.log_ok M)

theorem SeqInv.certified_inRange (h : SeqInv c) {m : Message}
    (hm : Certified c.shared c.trace m) : m.InRange := by
  obtain ⟨M, hM, hpart⟩ := hm
  exact Message.inRange_of_mem_certifiedParts hpart
    (hM.elim (fun h' => (h.accepted_ok M h').1) fun h' => (h.log_ok M h').1)

/-- The facts of a call in progress, whose message fits its types. -/
theorem SeqInv.handler (h : SeqInv c) {top : Top} {frames : List Frame} {proc : Proc}
    (hg : Goroutine.handler top frames proc ∈ c.threads) :
    ∃ M cur, TopOk c.shared c.trace top M ∧ Stack M frames cur ∧ ProcOk c.shared cur proc ∧
      cur.InRange := by
  obtain ⟨M, cur, htop, hstack, hproc⟩ := h.goroutines _ hg
  exact ⟨M, cur, htop, hstack, hproc, hstack.inRange (h.top_ok htop).1⟩

/-- **The Prepare of a Commit of view `0` is prepared when the Commit's UI is captured.** The
Commit's call processed its Prepare first. That call prepared the request, or found the Prepare's
UI released: then the message that UI was released for is a certified Prepare of the same
replica and counter, so by the USIG it has the same view, client and sequence, and its
processing prepared that request. -/
theorem SeqInv.isPrepared_of_commit (h : SeqInv c) (husig : UsigSound P c) {top : Top}
    {frames : List Frame} {cm : Commit}
    (hg : Goroutine.handler top frames (.peerCapture (.commit cm)) ∈ c.threads)
    (hview : cm.prepare.view = 0) : c.shared.IsPrepared cm.prepare.request := by
  obtain ⟨M, cur, htop, hstack, ⟨rfl, hdone⟩⟩ := h.goroutines _ hg
  obtain rfl := hstack.eq_of_commit
  rcases hdone _ rfl with hset | ⟨ui, hui, hle⟩
  · exact hset.resolve_right (by omega)
  · -- the Prepare's UI was released: take the message it was released for
    obtain ⟨hin, ui', hui', hpos⟩ := h.top_ok htop
    obtain rfl : ui = ui' := Option.some.inj (hui.symm.trans hui')
    obtain ⟨m₀, hc₀, hr₀, hu₀, hs₀⟩ := h.evidence _ ui.counter hpos hle
    obtain ⟨ui₀, hui₀, hcv⟩ := Option.map_eq_some_iff.mp hu₀
    have hcert : Certified c.shared c.trace (.prepare cm.prepare) :=
      ⟨.commit cm, htop.source, by simp [certifiedParts]⟩
    have hbytes := husig m₀ _ ui₀ ui hc₀ hcert hui₀ hui hr₀ hcv
    rcases eq_prepare_or_commit_of_parseMessageUI hui₀ with ⟨p₀, rfl⟩ | ⟨c₀, rfl⟩
    · -- the same authenticated bytes: the same view, client and sequence
      obtain ⟨hv, hcl, hseq⟩ :=
        authenBytes_prepare_inj P.sha256 (h.certified_inRange hc₀) hin hbytes
      have hprep : c.shared.IsPrepared p₀.request := hs₀.resolve_right (by omega)
      unfold Replica.IsPrepared at hprep ⊢
      rwa [hcl, hseq] at hprep
    · exact absurd hbytes (authenBytes_commit_ne_prepare P.sha256 c₀ cm.prepare)

end Facts

/-! ## Moves of goroutines -/

section Moves

variable {P : ReplicaParams} {c : Config Replica Goroutine ReplicaEvent} {s' : Replica}
  {top : Top} {frames : List Frame} {proc' : Proc} {forks : List Goroutine}
  {es : List ReplicaEvent}

theorem SeqInv.grows (h : SeqInv c) (hseq : Replica.SeqsAdvance c.shared s')
    (hrel : ∀ r, (c.shared.peers r).lastReleasedCV ≤ (s'.peers r).lastReleasedCV)
    (hlog : c.shared.log <+: s'.log) : Grows c.shared s' :=
  ⟨fun cl => (hseq cl (h.valid cl)).2, hrel, hlog⟩

/-- A step of a call that keeps the peers and what the call holds, with the goroutines and
events of the request it executes, if any. -/
theorem MoveOk.step (h : SeqInv c) (ex : Option Request) {proc : Proc} {M cur : Message}
    (htop : TopOk c.shared c.trace top M) (hstack : Stack M frames cur)
    (hseq : Replica.SeqsAdvance c.shared s') (hp : s'.peers = c.shared.peers)
    (hlog : LogGrows c.shared.log s'.log) (hheld : proc'.held = proc.held)
    (hproc : Grows c.shared s' → ProcOk s' cur proc') :
    MoveOk c (.handler top frames proc) s' (some (.handler top frames proc'))
      (ex.toList.map .awaitResult) (ex.toList.map .executed) where
  effect := .keep hp hheld
  seq := hseq
  log := hlog
  events _ hm := by simp at hm
  moved u hu := by
    cases hu
    have hg := h.grows hseq (fun r => by rw [hp]) hlog.prefix
    exact ⟨M, cur, htop.mono hlog.prefix (List.prefix_append _ _), hstack, hproc hg⟩
  forks_held u hu := by
    obtain ⟨r, -, rfl⟩ := List.mem_map.mp hu
    rfl
  forks_ok u hu := by
    obtain ⟨r, -, rfl⟩ := List.mem_map.mp hu
    trivial

/-- A step of a goroutine that holds nothing to one that holds nothing, starting none. -/
theorem MoveOk.plain {g : Goroutine} {g' : Option Goroutine} (hheld : g.held = none)
    (hseq : Replica.SeqsAdvance c.shared s') (hp : s'.peers = c.shared.peers)
    (hlog : LogGrows c.shared.log s'.log)
    (hes : ∀ m, ReplicaEvent.accepted m ∈ es → m.InRange ∧ PrepareUIPos m)
    (hg' : ∀ u, g' = some u → u.held = none ∧ GoroutineOk s' (c.trace ++ es) u) :
    MoveOk c g s' g' [] es where
  effect := .keep hp <| by
    cases g' with
    | none => exact hheld.symm
    | some u => exact (hg' u rfl).1.trans hheld.symm
  seq := hseq
  log := hlog
  events := hes
  moved u hu := (hg' u hu).2
  forks_held _ hu := absurd hu List.not_mem_nil
  forks_ok _ hu := absurd hu List.not_mem_nil

/-- The capture of the UI of a call's message, which the call then holds. -/
theorem MoveOk.capture (h : SeqInv c) {m M : Message} {ui : UI} {q : PeerState}
    (htop : TopOk c.shared c.trace top M) (hstack : Stack M frames m)
    (hui : parseMessageUI m = some ui)
    (hq : (c.shared.peers m.replicaID).tryCaptureUI ui.counter = .new q)
    (hheld : proc'.held = some m)
    (hproc : (c.shared.setPeer m.replicaID q).UIHeld m →
      ProcOk (c.shared.setPeer m.replicaID q) m proc') :
    MoveOk c (.handler top frames (.peerCapture m)) (c.shared.setPeer m.replicaID q)
      (some (.handler top frames proc')) [] [] where
  effect := .capture rfl rfl hheld hui hq rfl
  seq := Replica.SeqsAdvance.of_seq_eq fun _ => rfl
  log := .inl rfl
  events _ hm := absurd hm List.not_mem_nil
  moved u hu := by
    cases hu
    exact ⟨M, m, htop.mono (List.prefix_refl _) (List.prefix_append _ _), hstack,
      hproc (h.uiHeld_capture hui hq)⟩
  forks_held _ hu := absurd hu List.not_mem_nil
  forks_ok _ hu := absurd hu List.not_mem_nil

/-- The release of the UI a call held; its message is settled, so the call is done with it. -/
theorem MoveOk.release (h : SeqInv c) {m : Message} {res : Except String Bool}
    (hg : Goroutine.handler top frames (.peerRelease m res) ∈ c.threads) :
    MoveOk c (.handler top frames (.peerRelease m res)) (c.shared.releaseUI m)
      (some (.handler top frames (.returned res))) [] [] where
  effect := .release rfl rfl rfl
  seq := Replica.SeqsAdvance.of_seq_eq fun _ => rfl
  log := .inl rfl
  events _ hm := absurd hm List.not_mem_nil
  moved u hu := by
    cases hu
    obtain ⟨M, cur, htop, hstack, ⟨rfl, hset, ui, hui, -⟩, -⟩ := h.handler hg
    refine ⟨M, m, htop.mono (List.prefix_refl _) (List.prefix_append _ _), hstack, ?_⟩
    rcases eq_prepare_or_commit_of_parseMessageUI hui with ⟨p, rfl⟩ | ⟨cm, rfl⟩
    · exact .inl hset
    · trivial
  forks_held _ hu := absurd hu List.not_mem_nil
  forks_ok _ hu := absurd hu List.not_mem_nil

/-! ### Each point of a call -/

theorem moveOk_start (h : SeqInv c) {m : Message}
    (hg : Goroutine.handler top frames (.start m) ∈ c.threads) (hemb : embeddedOf m = none)
    (hstep : procStep P c.shared (.start m) = some (.ok (s', proc', forks, es))) :
    MoveOk c (.handler top frames (.start m)) s' (some (.handler top frames proc')) forks es := by
  obtain ⟨M, cur, htop, hstack, hcur, -⟩ := h.handler hg
  simp only [procStep] at hstep
  split at hstep
  · cases hstep
    exact MoveOk.step h none htop hstack (.refl _) rfl (.inl rfl) rfl fun _ => hcur.symm
  · cases hstep
  · cases hstep
    exact MoveOk.step h none htop hstack (.refl _) rfl (.inl rfl) rfl
      fun _ => ⟨hcur, fun e he => by rw [hemb] at he; cases he⟩

theorem moveOk_reqCapture (h : SeqInv c) {req : Request}
    (hg : Goroutine.handler top frames (.reqCapture req) ∈ c.threads)
    (hstep : procStep P c.shared (.reqCapture req) = some (.ok (s', proc', forks, es))) :
    MoveOk c (.handler top frames (.reqCapture req)) s' (some (.handler top frames proc'))
      forks es := by
  obtain ⟨M, cur, htop, hstack, rfl, -⟩ := h.handler hg
  simp only [procStep] at hstep
  split at hstep
  · cases hstep
  · next hold =>
    -- seen before: the request is captured already
    cases hstep
    exact MoveOk.step h none htop hstack (.refl _) rfl (.inl rfl) rfl
      fun _ => Replica.captureRequestSeq_eq_old hold
  · next s₁ hnew =>
    cases hstep
    obtain ⟨hseq, hcap, hp, hlog⟩ := Replica.captureRequestSeq_eq_new hnew
    exact MoveOk.step h none htop hstack hseq hp (.inl hlog) rfl fun _ => ⟨rfl, hcap.le⟩

theorem moveOk_reqAdd (h : SeqInv c) {req : Request}
    (hg : Goroutine.handler top frames (.reqAdd req) ∈ c.threads)
    (hstep : procStep P c.shared (.reqAdd req) = some (.ok (s', proc', forks, es))) :
    MoveOk c (.handler top frames (.reqAdd req)) s' (some (.handler top frames proc'))
      forks es := by
  obtain ⟨M, cur, htop, hstack, ⟨rfl, hcap⟩, -⟩ := h.handler hg
  cases hstep
  exact MoveOk.step h none htop hstack (.of_seq_eq fun _ => rfl) rfl (.inl rfl) rfl
    fun hg => ⟨rfl, hcap.mono hg⟩

theorem moveOk_reqTimer (h : SeqInv c) {req : Request}
    (hg : Goroutine.handler top frames (.reqTimer req) ∈ c.threads)
    (hstep : procStep P c.shared (.reqTimer req) = some (.ok (s', proc', forks, es))) :
    MoveOk c (.handler top frames (.reqTimer req)) s' (some (.handler top frames proc'))
      forks es := by
  obtain ⟨M, cur, htop, hstack, ⟨rfl, hcap⟩, -⟩ := h.handler hg
  cases hstep
  exact MoveOk.step h none htop hstack (Replica.startReqTimer_seqsAdvance _ _ _) rfl
    (.inl rfl) rfl fun hg => ⟨rfl, hcap.mono hg⟩

theorem moveOk_reqApply (h : SeqInv c) {req : Request}
    (hg : Goroutine.handler top frames (.reqApply req) ∈ c.threads)
    (hstep : procStep P c.shared (.reqApply req) = some (.ok (s', proc', forks, es))) :
    MoveOk c (.handler top frames (.reqApply req)) s' (some (.handler top frames proc'))
      forks es := by
  obtain ⟨M, cur, htop, hstack, ⟨rfl, hcap⟩, hin⟩ := h.handler hg
  simp only [procStep] at hstep
  split_ifs at hstep
  · -- the primary's Prepare for the request goes to the log
    obtain ⟨s₁, hgen, hk⟩ := Outcome.bind_eq_ok (Option.some.inj hstep)
    cases hk
    obtain ⟨ui, m', hm', rfl⟩ := Replica.generateCertified_eq_ok hgen
    have hok : m'.InRange ∧ PrepareUIPos m' :=
      ⟨Message.inRange_of_setUIBytes hm' ⟨by simp [newPrepare, Prepare.view], hin⟩,
        prepareUIPos_of_ne_commit (Message.setUIBytes_ne_commit hm' fun _ => Message.noConfusion)⟩
    exact MoveOk.step h none htop hstack (.of_seq_eq fun _ => rfl) rfl
      (.inr ⟨m', rfl, hok⟩) rfl fun hg => ⟨rfl, hcap.mono hg⟩
  · cases hstep
    exact MoveOk.step h none htop hstack (Replica.startPrepTimer_seqsAdvance _ _ _) rfl
      (.inl rfl) rfl fun hg => ⟨rfl, hcap.mono hg⟩

theorem moveOk_reqRelease (h : SeqInv c) {req : Request}
    (hg : Goroutine.handler top frames (.reqRelease req) ∈ c.threads)
    (hstep : procStep P c.shared (.reqRelease req) = some (.ok (s', proc', forks, es))) :
    MoveOk c (.handler top frames (.reqRelease req)) s' (some (.handler top frames proc'))
      forks es := by
  obtain ⟨M, cur, htop, hstack, ⟨rfl, hcap⟩, -⟩ := h.handler hg
  cases hstep
  exact MoveOk.step h none htop hstack (Replica.releaseRequestSeq_seqsAdvance _ _) rfl
    (.inl rfl) rfl fun hg => hcap.mono hg

/-- The capture of a Prepare's or Commit's UI. A Prepare of view `0` goes on with its request
captured, by the call of its embedded Request; a Commit of view `0` with its Prepare's request
prepared (`SeqInv.isPrepared_of_commit`). -/
theorem moveOk_peerCapture (h : SeqInv c) (husig : UsigSound P c) {m : Message}
    (hg : Goroutine.handler top frames (.peerCapture m) ∈ c.threads)
    (hstep : procStep P c.shared (.peerCapture m) = some (.ok (s', proc', forks, es))) :
    MoveOk c (.handler top frames (.peerCapture m)) s' (some (.handler top frames proc'))
      forks es := by
  obtain ⟨M, cur, htop, hstack, ⟨rfl, hdone⟩, -⟩ := h.handler hg
  simp only [procStep] at hstep
  split at hstep
  · -- a Prepare
    split at hstep
    · cases hstep
    · cases hstep
    · cases hstep
    · next hold =>
      cases hstep
      obtain ⟨ui, hui, hold⟩ := Replica.captureUI_eq_old hold
      exact MoveOk.step h none htop hstack (.refl _) rfl (.inl rfl) rfl
        fun _ => .inr ⟨ui, hui, PeerState.tryCaptureUI_old_le hold⟩
    · next s₁ hnew =>
      obtain ⟨ui, q, hui, hq, rfl⟩ := Replica.captureUI_eq_new hnew
      split_ifs at hstep with hview
      · cases hstep
        exact MoveOk.capture h htop hstack hui hq rfl fun hheld => ⟨rfl, .inr hview, hheld⟩
      · cases hstep
        exact MoveOk.capture h htop hstack hui hq rfl fun hheld => ⟨rfl, hdone _ rfl, hheld⟩
  · -- a Commit
    split at hstep
    · cases hstep
    · cases hstep
    · cases hstep
    · cases hstep
      exact MoveOk.step h none htop hstack (.refl _) rfl (.inl rfl) rfl fun _ => trivial
    · next s₁ hnew =>
      obtain ⟨ui, q, hui, hq, rfl⟩ := Replica.captureUI_eq_new hnew
      split_ifs at hstep with hview
      · cases hstep
        exact MoveOk.capture h htop hstack hui hq rfl fun hheld => ⟨rfl, trivial, hheld⟩
      · cases hstep
        exact MoveOk.capture h htop hstack hui hq rfl fun hheld =>
          ⟨rfl, h.isPrepared_of_commit husig hg (Nat.eq_zero_of_not_pos hview), hheld⟩
  · cases hstep

theorem moveOk_prepSeq (h : SeqInv c) {p : Prepare}
    (hg : Goroutine.handler top frames (.prepSeq p) ∈ c.threads)
    (hstep : procStep P c.shared (.prepSeq p) = some (.ok (s', proc', forks, es))) :
    MoveOk c (.handler top frames (.prepSeq p)) s' (some (.handler top frames proc'))
      forks es := by
  obtain ⟨M, cur, htop, hstack, ⟨rfl, -, hheld⟩, -⟩ := h.handler hg
  simp only [procStep] at hstep
  obtain ⟨⟨new, s₁⟩, hprep, hk⟩ := Outcome.bind_eq_ok (Option.some.inj hstep)
  obtain ⟨hseq, hprepd, hp, hlog⟩ := Replica.prepareSeq_eq_ok hprep
  have hheld' : s₁.UIHeld (.prepare p) := hheld.of_peers_eq (by rw [hp])
  split_ifs at hk
  · cases hk
    exact MoveOk.step h none htop hstack hseq hp (.inl hlog) rfl
      fun _ => ⟨rfl, hprepd, hheld'⟩
  · -- prepared before: the Prepare is released with an error
    cases hk
    exact MoveOk.step h none htop hstack hseq hp (.inl hlog) rfl
      fun _ => ⟨rfl, .inl hprepd, hheld'⟩

theorem moveOk_prepCollect (h : SeqInv c) {p : Prepare}
    (hg : Goroutine.handler top frames (.prepCollect p) ∈ c.threads)
    (hstep : procStep P c.shared (.prepCollect p) = some (.ok (s', proc', forks, es))) :
    MoveOk c (.handler top frames (.prepCollect p)) s' (some (.handler top frames proc'))
      forks es := by
  obtain ⟨M, cur, htop, hstack, ⟨rfl, hprepd, hheld⟩, -⟩ := h.handler hg
  simp only [procStep] at hstep
  split_ifs at hstep
  · -- the primary's own Prepare is released after the collector, whatever it said
    obtain ⟨⟨res, s₁, ex⟩, hcol, hk⟩ := Outcome.bind_eq_ok (Option.some.inj hstep)
    obtain ⟨hseq, hp, hlog⟩ := Replica.collect_eq_ok hcol
    split at hk <;> cases hk <;>
      exact MoveOk.step h _ htop hstack hseq hp (.inl hlog) rfl fun hg =>
        ⟨rfl, .inl (hprepd.mono hg), hheld.of_peers_eq (by rw [hp])⟩
  · -- a backup generates its Commit next, unless the collector failed
    obtain ⟨⟨res, s₁, ex⟩, hcol, hk⟩ := Outcome.bind_eq_ok (Option.some.inj hstep)
    obtain ⟨hseq, hp, hlog⟩ := Replica.collect_eq_ok hcol
    split at hk
    · cases hk
      exact MoveOk.step h _ htop hstack hseq hp (.inl hlog) rfl fun hg =>
        ⟨rfl, .inl (hprepd.mono hg), hheld.of_peers_eq (by rw [hp])⟩
    · cases hk
      exact MoveOk.step h _ htop hstack hseq hp (.inl hlog) rfl fun hg =>
        ⟨rfl, hprepd.mono hg, hheld.of_peers_eq (by rw [hp])⟩

theorem moveOk_prepStopTimer (h : SeqInv c) {p : Prepare}
    (hg : Goroutine.handler top frames (.prepStopTimer p) ∈ c.threads)
    (hstep : procStep P c.shared (.prepStopTimer p) = some (.ok (s', proc', forks, es))) :
    MoveOk c (.handler top frames (.prepStopTimer p)) s' (some (.handler top frames proc'))
      forks es := by
  obtain ⟨M, cur, htop, hstack, ⟨rfl, hprepd, hheld⟩, -⟩ := h.handler hg
  cases hstep
  exact MoveOk.step h none htop hstack (.of_seq_eq fun _ => rfl) rfl (.inl rfl) rfl
    fun hg => ⟨rfl, hprepd.mono hg, hheld⟩

/-- A backup's Commit goes to the log; it carries the Prepare, whose UI is held, so with a
counter of at least one. -/
theorem moveOk_prepCommit (h : SeqInv c) {p : Prepare}
    (hg : Goroutine.handler top frames (.prepCommit p) ∈ c.threads)
    (hstep : procStep P c.shared (.prepCommit p) = some (.ok (s', proc', forks, es))) :
    MoveOk c (.handler top frames (.prepCommit p)) s' (some (.handler top frames proc'))
      forks es := by
  obtain ⟨M, cur, htop, hstack, ⟨rfl, hprepd, hheld⟩, hin⟩ := h.handler hg
  simp only [procStep] at hstep
  obtain ⟨s₁, hgen, hk⟩ := Outcome.bind_eq_ok (Option.some.inj hstep)
  cases hk
  obtain ⟨ui, m', hm', rfl⟩ := Replica.generateCertified_eq_ok hgen
  obtain ⟨cm, rfl, hcm⟩ := Message.setUIBytes_commit hm'
  obtain ⟨ui₀, hui₀, -, hrel⟩ := id hheld
  have hcm' : cm.prepare = p := hcm
  have hok : (Message.commit cm).InRange ∧ PrepareUIPos (.commit cm) := by
    refine ⟨?_, ui₀, ?_, by omega⟩
    · rw [Message.InRange, hcm']
      exact hin
    · rw [hcm']
      exact hui₀
  exact MoveOk.step h none htop hstack (.of_seq_eq fun _ => rfl) rfl
    (.inr ⟨_, rfl, hok⟩) rfl fun hg => ⟨rfl, .inl (hprepd.mono hg), hheld⟩

theorem moveOk_commitCollect (h : SeqInv c) {cm : Commit}
    (hg : Goroutine.handler top frames (.commitCollect cm) ∈ c.threads)
    (hstep : procStep P c.shared (.commitCollect cm) = some (.ok (s', proc', forks, es))) :
    MoveOk c (.handler top frames (.commitCollect cm)) s' (some (.handler top frames proc'))
      forks es := by
  obtain ⟨M, cur, htop, hstack, ⟨rfl, -, hheld⟩, -⟩ := h.handler hg
  simp only [procStep] at hstep
  split_ifs at hstep
  obtain ⟨⟨res, s₁, ex⟩, hcol, hk⟩ := Outcome.bind_eq_ok (Option.some.inj hstep)
  obtain ⟨hseq, hp, hlog⟩ := Replica.collect_eq_ok hcol
  split at hk <;> cases hk <;>
    exact MoveOk.step h _ htop hstack hseq hp (.inl hlog) rfl
      fun _ => ⟨rfl, trivial, hheld.of_peers_eq (by rw [hp])⟩

theorem moveOk_peerRelease (h : SeqInv c) {m : Message} {res : Except String Bool}
    (hg : Goroutine.handler top frames (.peerRelease m res) ∈ c.threads)
    (hstep : procStep P c.shared (.peerRelease m res) = some (.ok (s', proc', forks, es))) :
    MoveOk c (.handler top frames (.peerRelease m res)) s' (some (.handler top frames proc'))
      forks es := by
  cases hstep
  exact MoveOk.release h hg

/-- Every step of a call that returns shows `MoveOk`. -/
theorem moveOk_procStep (h : SeqInv c) (husig : UsigSound P c) {proc : Proc}
    (hg : Goroutine.handler top frames proc ∈ c.threads)
    (hemb : ∀ m, proc = .start m → embeddedOf m = none)
    (hstep : procStep P c.shared proc = some (.ok (s', proc', forks, es))) :
    MoveOk c (.handler top frames proc) s' (some (.handler top frames proc')) forks es := by
  cases proc with
  | start m => exact moveOk_start h hg (hemb m rfl) hstep
  | reqCapture req => exact moveOk_reqCapture h hg hstep
  | reqAdd req => exact moveOk_reqAdd h hg hstep
  | reqTimer req => exact moveOk_reqTimer h hg hstep
  | reqApply req => exact moveOk_reqApply h hg hstep
  | reqRelease req => exact moveOk_reqRelease h hg hstep
  | peerCapture m => exact moveOk_peerCapture h husig hg hstep
  | prepSeq p => exact moveOk_prepSeq h hg hstep
  | prepCollect p => exact moveOk_prepCollect h hg hstep
  | prepStopTimer p => exact moveOk_prepStopTimer h hg hstep
  | prepCommit p => exact moveOk_prepCommit h hg hstep
  | commitCollect cm => exact moveOk_commitCollect h hg hstep
  | peerRelease m res => exact moveOk_peerRelease h hg hstep
  | returned res => cases hstep

/-! ### Each kind of goroutine -/

/-- After `handle` returns, a stream handler ends or waits for its Reply, and
`handleGeneratedPeerMessages` waits for the log's next message: nothing held, nothing to show. -/
theorem finishHandle_next {res : Except String Bool} {g' : Option Goroutine}
    (h : finishHandle top res = .ok g') :
    ∀ u, g' = some u → ∀ s trace, u.held = none ∧ GoroutineOk s trace u := by
  intro u hu s trace
  subst hu
  unfold finishHandle at h
  split at h
  · cases h
  · split at h <;> cases h
    exact ⟨rfl, trivial⟩
  · cases h
  · cases h
    exact ⟨rfl, trivial⟩

/-- A call of `handle` in progress: it returns, starts or ends the call of an embedded message,
or takes a step of its current call. -/
theorem moveOk_handler (h : SeqInv c) (husig : UsigSound P c) {proc : Proc} {result : Bytes}
    {g' : Option Goroutine} (hg : Goroutine.handler top frames proc ∈ c.threads)
    (hstep : goStep P c.shared result (.handler top frames proc) = some (.ok (s', g', forks, es))) :
    MoveOk c (.handler top frames proc) s' g' forks es := by
  simp only [goStep] at hstep
  split at hstep
  · obtain ⟨g'', hfin, hk⟩ := Outcome.bind_eq_ok (Option.some.inj hstep)
    cases hk
    exact MoveOk.plain rfl (.refl _) rfl (.inl rfl) (fun _ hm => absurd hm List.not_mem_nil)
      fun u hu => finishHandle_next hfin u hu _ _
  · obtain ⟨o, ho, hk⟩ := Option.map_eq_some_iff.mp hstep
    obtain ⟨⟨s₁, frames₁, proc₁, forks₁, es₁⟩, rfl, hk⟩ := Outcome.bind_eq_ok hk
    cases hk
    obtain ⟨M, cur, htop, hstack, hproc, -⟩ := h.handler hg
    rcases handlerStep_cases ho with ⟨m, e, rfl, he, ho'⟩ | ⟨res, outer, frames', rfl, rfl, ho'⟩ |
      ⟨hemb, o', hproc', ho'⟩
    · -- the call of the embedded message starts
      cases ho'
      exact MoveOk.plain rfl (.refl _) rfl (.inl rfl) (fun _ hm => absurd hm List.not_mem_nil)
        fun u hu => by
          cases hu
          exact ⟨rfl, M, e, htop.mono (List.prefix_refl _) (List.prefix_append _ _),
            .push (hproc ▸ hstack) he, rfl⟩
    · -- the embedded call returned: the outer message's call goes on, the embedded one done
      obtain ⟨_, -, hk⟩ := Outcome.bind_eq_ok ho'.symm
      cases hk
      cases hstack with
      | push hstack' he =>
        exact MoveOk.plain rfl (.refl _) rfl (.inl rfl) (fun _ hm => absurd hm List.not_mem_nil)
          fun u hu => by
            cases hu
            refine ⟨rfl, M, outer, htop.mono (List.prefix_refl _) (List.prefix_append _ _),
              hstack', rfl, fun e he' => ?_⟩
            rw [he] at he'
            cases he'
            exact hproc
    · obtain ⟨⟨s₂, proc₂, forks₂, es₂⟩, rfl, hk⟩ := Outcome.bind_eq_ok ho'.symm
      cases hk
      exact moveOk_procStep h husig hg hemb hproc'

/-- **Every step of a goroutine that returns shows `MoveOk`.** -/
theorem moveOk_goStep (h : SeqInv c) (husig : UsigSound P c) {g : Goroutine} {result : Bytes}
    {g' : Option Goroutine} (hg : g ∈ c.threads)
    (hstep : goStep P c.shared result g = some (.ok (s', g', forks, es))) :
    MoveOk c g s' g' forks es := by
  cases g with
  | received m =>
    have hin : m.InRange := h.goroutines _ hg
    obtain ⟨rfl, rfl, ⟨e, -, rfl, rfl⟩ | ⟨hval, rfl, rfl⟩⟩ := goStep_received_eq_ok hstep
    · -- rejected by validation: the stream handler goes on with its next message
      exact MoveOk.plain rfl (.refl _) rfl (.inl rfl) (fun _ hm => absurd hm List.not_mem_nil)
        fun _ hu => by cases hu
    · have hacc : ReplicaEvent.accepted m ∈ c.trace ++ [.accepted m] :=
        List.mem_append_right _ (List.mem_singleton_self _)
      exact MoveOk.plain rfl (.refl _) rfl (.inl rfl)
        (fun m' hm' => by
          cases List.mem_singleton.mp hm'
          exact ⟨hin, prepareUIPos_of_validateMessage hval⟩)
        fun v hv => by
          cases hv
          exact ⟨rfl, m, m, ⟨rfl, hacc⟩, .top, rfl⟩
  | handler top frames proc => exact moveOk_handler h husig hg hstep
  | ownWait next =>
    obtain ⟨m, hm, hk⟩ := Option.map_eq_some_iff.mp hstep
    cases hk
    exact MoveOk.plain rfl (.refl _) rfl (.inl rfl) (fun _ hm' => absurd hm' List.not_mem_nil)
      fun u hu => by
        cases hu
        exact ⟨rfl, m, m, hm, .top, rfl⟩
  | replyChannel cl seq =>
    simp only [goStep] at hstep
    split_ifs at hstep
    split at hstep
    · cases hstep
    · split_ifs at hstep <;> cases hstep <;>
        exact MoveOk.plain rfl (.refl _) rfl (.inl rfl) (by simp) fun _ hu => by cases hu
  | awaitResult req =>
    obtain ⟨s₁, hgen, hk⟩ := Outcome.bind_eq_ok (Option.some.inj hstep)
    cases hk
    obtain ⟨hseq, hp, hlog⟩ := Replica.generateSigned_eq_ok hgen
    exact MoveOk.plain rfl hseq hp
      (logGrows_of_setSignature (.inl ⟨_, rfl⟩) hlog)
      (fun _ hm => absurd hm List.not_mem_nil) fun _ hu => by cases hu
  | timeout cb =>
    cases cb with
    | requestTimeout cl seq view =>
      obtain ⟨⟨ok, s₁⟩, hreq, hk⟩ := Outcome.bind_eq_ok (Option.some.inj hstep)
      cases hk
      obtain ⟨hseq, hp, hlog⟩ := Replica.requestViewChange_eq_ok hreq
      exact MoveOk.plain rfl hseq hp
        (logGrows_of_setSignature (.inr ⟨_, rfl⟩) hlog)
        (fun _ hm => absurd hm List.not_mem_nil) fun _ hu => by cases hu
    | prepareTimeout cl seq view =>
      cases hstep
      exact MoveOk.plain rfl (.refl _) rfl (.inl rfl) (fun _ hm => absurd hm List.not_mem_nil)
        fun _ hu => by cases hu

end Moves

end MinBFT.Core
