import MinBFT.Core.SeqStep
import MinBFT.Core.Execution

/-!
# The order of request sequences

The per-client `seqState` of a replica keeps its four counters in order along every run, and the
panics of `makeRequestSeqPreparer` and `makeRequestSeqRetirer` are never reached: a Prepare's
request is captured before `PrepareRequestSeq`, and the request of a Prepare or of a Commit's
Prepare is prepared before the collector may call `RetireRequestSeq`.

The second half rests on the USIG. A backup that accepts a Commit for a Prepare it never
prepared, with the UI of a Prepare it did prepare, retires a request it never prepared; only the
USIG's uniqueness of UIs excludes that.

## Results

* `seqState_order`: in every configuration of a run whose decoded messages fit their protobuf
  types and whose certified messages satisfy the USIG assumption (`UsigSound`), the counters are
  in order, no step decreases them, the calls that fail change nothing, and no goroutine is about
  to make a call of `PrepareRequestSeq` or `RetireRequestSeq` that fails and panics.
* `seqState_order_replied`: the run of `repliedSchedule`, which executes a request, certifies
  one message with a UI, so it satisfies the USIG assumption and the theorem applies there.
* `equivocation_panics`: why the USIG assumption is a hypothesis. With an authenticator that
  accepts every UI, which `USIGAuthen`'s contract excludes, an equivocating primary's two
  Prepares with one UI counter, the second in a Commit of another replica, make a backup retire
  a request it never prepared, and the collector panics.
-/

namespace MinBFT.Core

open MinBFT.Messages MinBFT.Usig MinBFT.System

/-! ## Calls that do not panic -/

/-- `PrepareRequestSeq` of a captured sequence does not fail, so `makeRequestSeqPreparer` does not
panic. -/
theorem Replica.prepareSeq_ne_panic {s : Replica} {req : Request} (h : s.IsCaptured req)
    (e : String) : s.prepareSeq req ≠ .panic e := by
  unfold Replica.prepareSeq
  split
  · next e' _ he =>
    have := (SeqState.prepareRequestSeq_error_iff _ _).mp ⟨e', by rw [he]⟩
    unfold Replica.IsCaptured at h
    omega
  · intro h
    cases h

/-- `RetireRequestSeq` of a prepared sequence does not fail, so `makeRequestSeqRetirer` does not
panic. -/
theorem retireSeq_ne_panic {clients : Nat → ClientState} {req : Request}
    (h : req.sequence ≤ (clients req.clientID).seq.lastPreparedSeq) (e : String) :
    retireSeq clients req ≠ .panic e := by
  unfold retireSeq
  dsimp only
  split
  · next e' _ he =>
    have := (SeqState.retireRequestSeq_error_iff _ _).mp ⟨e', by rw [he]⟩
    omega
  · intro h
    cases h

/-! ## The order in a configuration -/

/-- The order of request sequences in a configuration: the four counters of every client, and
the calls of `PrepareRequestSeq` and `RetireRequestSeq` that goroutines are about to make. -/
structure SeqStateOrder (c : Config Replica Goroutine ReplicaEvent) : Prop where
  /-- `lastRetiredSeq ≤ lastPreparedSeq ≤ lastCapturedSeq` and
  `lastReleasedSeq ≤ lastCapturedSeq`. -/
  valid : ∀ cl, (c.shared.clients cl).seq.Valid
  /-- The `PrepareRequestSeq(seq)` of `makePrepareApplier` has `seq ≤ lastCapturedSeq`, and
  `makeRequestSeqPreparer` does not panic. -/
  prepare_captured : ∀ top frames p, Goroutine.handler top frames (.prepSeq p) ∈ c.threads →
    c.shared.IsCaptured p.request ∧ ∀ e, c.shared.prepareSeq p.request ≠ .panic e
  /-- The `RetireRequestSeq(seq)` of the collector for a Prepare has `seq ≤ lastPreparedSeq`, and
  `makeRequestSeqRetirer` does not panic. -/
  retire_prepared : ∀ top frames p, Goroutine.handler top frames (.prepCollect p) ∈ c.threads →
    c.shared.IsPrepared p.request ∧ ∀ e, retireSeq c.shared.clients p.request ≠ .panic e
  /-- The same for the Prepare of a Commit. -/
  retire_prepared_commit : ∀ top frames cm,
    Goroutine.handler top frames (.commitCollect cm) ∈ c.threads →
    c.shared.IsPrepared cm.prepare.request ∧
      ∀ e, retireSeq c.shared.clients cm.prepare.request ≠ .panic e

/-- The invariant gives the order, also to a configuration with the same clients and fewer
goroutines: the one a panic leaves. -/
theorem SeqInv.order {c₀ c : Config Replica Goroutine ReplicaEvent} (h : SeqInv c₀)
    (hcl : c.shared.clients = c₀.shared.clients) (hth : c.threads ⊆ c₀.threads) :
    SeqStateOrder c := by
  have hcap {r : Request} (hr : c₀.shared.IsCaptured r) : c.shared.IsCaptured r := by
    unfold Replica.IsCaptured at hr ⊢
    rwa [hcl]
  have hprep {r : Request} (hr : c₀.shared.IsPrepared r) : c.shared.IsPrepared r := by
    unfold Replica.IsPrepared at hr ⊢
    rwa [hcl]
  refine ⟨fun cl => ?_, fun top frames p hg => ?_, fun top frames p hg => ?_,
    fun top frames cm hg => ?_⟩
  · rw [hcl]
    exact h.valid cl
  · obtain ⟨M, cur, -, -, ⟨rfl, hc, -⟩, -⟩ := h.handler (hth hg)
    exact ⟨hcap hc, Replica.prepareSeq_ne_panic (hcap hc)⟩
  · obtain ⟨M, cur, -, -, ⟨rfl, hp, -⟩, -⟩ := h.handler (hth hg)
    exact ⟨hprep hp, retireSeq_ne_panic (hprep hp)⟩
  · obtain ⟨M, cur, -, -, ⟨rfl, hp, -⟩, -⟩ := h.handler (hth hg)
    exact ⟨hprep hp, retireSeq_ne_panic (hprep hp)⟩

/-! ## Runs -/

section Runs

variable {P : ReplicaParams} {c c' : Config Replica Goroutine ReplicaEvent}

/-- The invariant holds when `Start` has run: nothing is held or released, nothing certified. -/
theorem seqInv_init : SeqInv replicaInit where
  released_le _ := Nat.le_refl _
  one_holder _ := List.countP_le_length
  free _ _ := rfl
  evidence _ _ hu hle := absurd (Nat.le_trans hu hle) (Nat.not_succ_le_zero 0)
  valid _ := SeqState.valid_init
  accepted_ok _ hm := absurd hm List.not_mem_nil
  log_ok _ hm := absurd hm List.not_mem_nil
  goroutines g hg := by
    cases List.mem_singleton.mp hg
    trivial

/-- **Every step keeps the invariant**, when the replica's decoded messages fit their types and
the USIG is sound: it advances every client's counters, and leaves a configuration with the
invariant, or a stopped replica with the same clients and fewer goroutines. -/
theorem seqInv_step (hrange : ∀ data m, newFromBinary P.unmarshal data = .ok m → m.InRange)
    (h : SeqInv c) (husig : UsigSound P c) (hstep : (replicaProgram P).Step c c') :
    Replica.SeqsAdvance c.shared c'.shared ∧
      (SeqInv c' ∨ c'.shared.crashed = true ∧ c'.shared.clients = c.shared.clients ∧
        c'.threads ⊆ c.threads) := by
  cases hstep with
  | env henv =>
    cases henv with
    | arrive _ hdec =>
      refine ⟨.refl _, .inl ?_⟩
      rw [List.append_nil]
      exact h.spawn rfl rfl rfl fun u hu => by
        cases List.mem_singleton.mp hu
        exact ⟨rfl, hrange _ _ hdec⟩
    | fire _ _ =>
      refine ⟨.of_seq_eq fun _ => rfl, .inl ?_⟩
      rw [List.append_nil]
      exact h.spawn rfl rfl rfl fun u hu => by
        cases List.mem_singleton.mp hu
        exact ⟨rfl, trivial⟩
  | move hi hmove =>
    obtain ⟨-, result, o, ho, hsettle⟩ := hmove
    have hg := List.mem_of_getElem? hi
    cases o with
    | ok r =>
      rw [settle_ok] at hsettle
      subst hsettle
      have hmv := moveOk_goStep h husig hg ho
      exact ⟨hmv.seq, .inl (h.move hi hmv)⟩
    | panic e =>
      -- a panic stops the replica, and the goroutine that panicked is gone
      simp only [settle_panic, Prod.mk.injEq] at hsettle
      obtain ⟨rfl, rfl, rfl, rfl⟩ := hsettle
      refine ⟨.of_seq_eq fun _ => rfl, .inr ⟨rfl, rfl, fun u hu => ?_⟩⟩
      rcases mem_moveThread (show u ∈ moveThread c.threads _ none [] from hu) with hu | hu | hu
      · exact hu
      · cases hu
      · cases hu
    | hang =>
      simp only [settle_hang, Prod.mk.injEq] at hsettle
      obtain ⟨rfl, rfl, rfl, rfl⟩ := hsettle
      exact ⟨.of_seq_eq fun _ => rfl, .inl (h.move hi (MoveOk.hang h hg))⟩

/-- The invariant as an inductive property of the replica's runs: it holds of every running
configuration whose run was sound for the USIG. -/
theorem seqInv_inductive (hrange : ∀ data m, newFromBinary P.unmarshal data = .ok m → m.InRange) :
    Inductive (replicaProgram P).Step replicaInit
      (fun c => UsigSound P c → c.shared.crashed = false → SeqInv c) where
  init _ _ := seqInv_init
  step c c' ih hstep husig hrun := by
    have husig₀ := UsigSound.of_step hstep husig
    rcases (seqInv_step hrange (ih husig₀ (replicaStep_running hstep)) husig₀ hstep).2 with
      h | ⟨hcr, -⟩
    · exact h
    · rw [hcr] at hrun
      cases hrun

theorem seqInv_reachable (hrange : ∀ data m, newFromBinary P.unmarshal data = .ok m → m.InRange)
    (hreach : (replicaProgram P).Reachable replicaInit c) (husig : UsigSound P c)
    (hrun : c.shared.crashed = false) : SeqInv c :=
  (seqInv_inductive hrange).reachable hreach husig hrun

/-- A configuration of a run has the invariant, or is a stopped replica whose clients and
goroutines are those of one that has it. -/
theorem seqInv_or_stopped
    (hrange : ∀ data m, newFromBinary P.unmarshal data = .ok m → m.InRange)
    (hreach : (replicaProgram P).Reachable replicaInit c) (husig : UsigSound P c) :
    SeqInv c ∨ ∃ c₀, SeqInv c₀ ∧ c.shared.clients = c₀.shared.clients ∧ c.threads ⊆ c₀.threads := by
  rcases Relation.ReflTransGen.cases_tail hreach with rfl | ⟨c₀, hreach₀, hstep⟩
  · exact .inl seqInv_init
  · have husig₀ := UsigSound.of_step hstep husig
    have h₀ := seqInv_reachable hrange hreach₀ husig₀ (replicaStep_running hstep)
    rcases (seqInv_step hrange h₀ husig₀ hstep).2 with h | ⟨-, hcl, hth⟩
    · exact .inl h
    · exact .inr ⟨c₀, h₀, hcl, hth⟩

end Runs

/-! ## The order of request sequences -/

/-- **The order of request sequences.** In every configuration of a run of a replica whose
decoder yields messages that fit their protobuf types, and whose certified messages satisfy the
USIG assumption: every client's counters are in order; no step decreases them; a call of
`PrepareRequestSeq` or `RetireRequestSeq` that fails leaves the state as it was; and the calls a
goroutine is about to make are for captured, respectively prepared, sequences, so the panics of
`makeRequestSeqPreparer` and `makeRequestSeqRetirer` are never reached. -/
theorem seqState_order {P : ReplicaParams}
    (hrange : ∀ data m, newFromBinary P.unmarshal data = .ok m → m.InRange)
    {c : Config Replica Goroutine ReplicaEvent}
    (hreach : (replicaProgram P).Reachable replicaInit c) (husig : UsigSound P c) :
    SeqStateOrder c ∧
      (∀ c', (replicaProgram P).Step c c' →
        ∀ cl, (c.shared.clients cl).seq.Le (c'.shared.clients cl).seq) ∧
      (∀ (s : SeqState) seq e, (s.prepareRequestSeq seq).1 = .error e →
        (s.prepareRequestSeq seq).2 = s) ∧
      (∀ (s : SeqState) seq e, (s.retireRequestSeq seq).1 = .error e →
        (s.retireRequestSeq seq).2 = s) := by
  refine ⟨?_, fun c' hstep cl => ?_, fun _ _ _ => SeqState.prepareRequestSeq_error_state,
    fun _ _ _ => SeqState.retireRequestSeq_error_state⟩
  · rcases seqInv_or_stopped hrange hreach husig with h | ⟨c₀, h₀, hcl, hth⟩
    · exact h.order rfl (List.Subset.refl _)
    · exact h₀.order hcl hth
  · -- a step is taken from a running replica, which has the invariant
    have h := seqInv_reachable hrange hreach husig (replicaStep_running hstep)
    exact ((seqInv_step hrange h husig hstep).1 cl (h.valid cl)).2

/-- The Requests `soloParams` decodes fit their types: the client is `0` and the sequence a
byte. -/
theorem soloParams_inRange (timeoutRequest : Int) (data : Bytes) (m : Message)
    (h : newFromBinary (soloParams timeoutRequest).unmarshal data = .ok m) : m.InRange := by
  match data, h with
  | [b], h =>
    cases h
    have := b.toNat_lt
    exact ⟨by simp [Request.clientID], by simp [Request.sequence]; omega⟩

/-- A run whose certified messages with a UI are all one message satisfies the USIG
assumption. -/
theorem usigSound_of_unique {P : ReplicaParams} {c : Config Replica Goroutine ReplicaEvent}
    (m₀ : Message)
    (h : ∀ m ui, Certified c.shared c.trace m → parseMessageUI m = some ui → m = m₀) :
    UsigSound P c := by
  intro m₁ m₂ ui₁ ui₂ h₁ h₂ hui₁ hui₂ _ _
  rw [h m₁ ui₁ h₁ hui₁, h m₂ ui₂ h₂ hui₂]

/-- **The run of `repliedSchedule` satisfies the USIG assumption.** Its stream handler accepted
only the Request, which certifies nothing, and its log holds one message, the replica's own
Prepare, its only certified part. The replica is still running. -/
theorem repliedSchedule_usigSound :
    ∃ c, (replicaProgram (soloParams 0)).Reachable replicaInit c ∧
      c.trace = [.accepted (.request (soloRequest 1)), .executed (soloRequest 1),
        .replied soloReply] ∧ c.shared.crashed = false ∧ UsigSound (soloParams 0) c := by
  have hrun : (runChoices (schedStep (soloParams 0)) replicaInit repliedSchedule).map
      (fun c => (c.trace, c.shared.crashed,
        c.shared.log.map fun m => decide (certifiedParts m = [m]))) =
      some ([.accepted (.request (soloRequest 1)), .executed (soloRequest 1),
        .replied soloReply], false, [true]) := by
    decide +kernel
  obtain ⟨c, hc, heq⟩ := Option.map_eq_some_iff.mp hrun
  simp only [Prod.mk.injEq] at heq
  obtain ⟨htrace, hcrashed, hlog⟩ := heq
  obtain ⟨M, hM, hparts⟩ : ∃ M, c.shared.log = [M] ∧ certifiedParts M = [M] := by
    obtain ⟨M, hM, hone⟩ := List.map_eq_singleton_iff.mp hlog
    exact ⟨M, hM, of_decide_eq_true hone⟩
  refine ⟨c, reachable_of_schedule _ _ hc, htrace, hcrashed,
    usigSound_of_unique M fun m ui hm _ => ?_⟩
  obtain ⟨M', hM', hm'⟩ := hm
  rcases hM' with hacc | hlogM
  · -- the one message accepted is the Request
    rw [htrace] at hacc
    simp only [List.mem_cons, reduceCtorEq, List.not_mem_nil, or_false,
      ReplicaEvent.accepted.injEq] at hacc
    subst hacc
    simp [certifiedParts] at hm'
  · rw [hM, List.mem_singleton] at hlogM
    subst hlogM
    rwa [hparts, List.mem_singleton] at hm'

theorem seqState_order_replied :
    ∃ c, (replicaProgram (soloParams 0)).Reachable replicaInit c ∧
      ReplicaEvent.executed (soloRequest 1) ∈ c.trace ∧
      (∀ data m, newFromBinary (soloParams 0).unmarshal data = .ok m → m.InRange) ∧
      UsigSound (soloParams 0) c ∧ SeqStateOrder c := by
  obtain ⟨c, hreach, htrace, -, husig⟩ := repliedSchedule_usigSound
  exact ⟨c, hreach, by simp [htrace], soloParams_inRange 0, husig,
    (seqState_order (soloParams_inRange 0) hreach husig).1⟩

/-! ## Without the USIG -/

/-- The primary's Prepare in view `0` for the Request of client `0` with sequence `seq`, with the
UI of counter `1`. -/
def equivPrepare (seq : Nat) : PbPrepare :=
  ⟨0, 0, some ⟨0, seq, [], []⟩, UI.marshalBinary ⟨1, []⟩⟩

/-- A backup, replica `1` of `n = 3`, `f = 1`, whose authenticator accepts every signature and UI,
and whose decoder reads the byte `0` as the primary's Prepare for Request `1` with UI counter
`1`, and the byte `1` as a Commit of replica `2` for the primary's Prepare for Request `2` with
the same UI counter: what an equivocating primary sends when the USIG does not hold. -/
def equivParams : ReplicaParams where
  id := 1
  cfg := ⟨3, 1, by decide⟩
  timeoutRequest := 0
  timeoutPrepare := 0
  unmarshal data :=
    match data with
    | [b] =>
      if b = 0 then .ok ⟨some (.prepare (some (equivPrepare 1)))⟩
      else if b = 1 then
        .ok ⟨some (.commit (some ⟨2, some (equivPrepare 2), UI.marshalBinary ⟨1, []⟩⟩))⟩
      else .error "unexpected EOF"
    | _ => .error "unexpected EOF"
  sha256 _ := []
  verifyTag _ _ _ _ _ := .ok ()
  sign _ := .ok []
  createUI k _ := .ok (UI.marshalBinary ⟨k + 1, []⟩)

/-- The Prepare for Request `1` arrives and is processed by its stream handler: validation, its
Request (capture, pending list, timers, release), its UI, `PrepareRequestSeq`, the collector,
the Commit and the release (sixteen steps). The Commit for the other Prepare follows: its
Prepare's Request is captured, its Prepare's UI is found released, and its own UI captured
(thirteen steps); the collector then has the primary's and replica `2`'s commitments for
counter `1` and retires Request `2`, which was never prepared. -/
def equivSchedule : List Choice :=
  [.arrive [0]] ++ List.replicate 16 (.run 1 []) ++ [.arrive [1]] ++ List.replicate 14 (.run 1 [])

/-- **Without the USIG assumption** the collector's panic is reached: an authenticator that
accepts every UI lets an equivocating primary's second Prepare through inside a Commit. -/
theorem equivocation_panics :
    ∃ c, (replicaProgram equivParams).Reachable replicaInit c ∧ c.shared.crashed = true ∧
      ReplicaEvent.panicked "Request ID not prepared" ∈ c.trace := by
  have hrun : (runChoices (schedStep equivParams) replicaInit equivSchedule).map
      (fun c => (c.shared.crashed, c.trace.contains (.panicked "Request ID not prepared"))) =
      some (true, true) := by
    decide +kernel
  obtain ⟨c, hc, heq⟩ := Option.map_eq_some_iff.mp hrun
  simp only [Prod.mk.injEq, List.contains_iff_mem] at heq
  exact ⟨c, reachable_of_schedule _ _ hc, heq.1, heq.2⟩

end MinBFT.Core
