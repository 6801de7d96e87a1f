import MinBFT.Core.PrimaryLog
import MinBFT.Core.Validity
import MinBFT.Core.SeqOrder

/-!
# A replica executes the primary's order

What `executeRequest` (`makeCommitmentCollector`, `core/commit.go`) is called with, over every
run of a replica's goroutines (`replicaProgram`): whatever bytes arrive, in whatever order the
goroutines move and the timers fire. The replica executes the requests of the primary's order
(`PrimaryLog`), in that order, each that `PrepareRequestSeq` finds new, up to the counter's
`lastDoneCV`; and nothing else.

The order is the list of what the primary's UIs carry, one entry for each UI counter of replica
`0` the replica has captured (`makeUICapturer`). The UI of counter `t` is captured by one
goroutine, which then holds it (`SeqInv`) while it prepares the Prepare's request
(`makePrepareApplier`) and makes the primary's own call of the collector, and releases it after.
`ExecOrderInv` ties the state to the order at each such point:

* each client's last prepared sequence is its last sequence in the order up to the Prepares
  prepared, which is every captured one but a Prepare at `PrepareRequestSeq`;
* the collector's invariant (`CollectInv`) holds with `cut` every captured counter but one whose
  primary's call is still to come;
* the executed requests are the new requests of the order up to `lastDoneCV`.

A Commit's call reaches the collector only after its Prepare's call returned, which leaves the
Prepare's UI released (`ProcOrder`), so the Commit's counter is at most `cut`; and a Commit
never comes from its Prepare's replica (`makeCommitValidator`), so it is never the primary's
call. By the USIG, the Prepare a Commit carries is the one of the order at its counter.

## Results

* `ExecOrderInv`: the invariant, over a running replica whose decoded messages fit their types
  and whose certified messages satisfy the USIG assumption (`RunOk`).
* `ExecOrderInv.quiet`: a step that changes nothing the order reads keeps it.
* `ExecOrderInv.capture_primary`, `ExecOrderInv.prepare`, `ExecOrderInv.collect_primary`,
  `ExecOrderInv.collect_commit`: the steps that move it, the capture of the primary's next UI,
  `PrepareRequestSeq` of the primary's Prepare and the two calls of the collector.

`Agreement` takes the invariant through every other step, to every run.
-/

namespace MinBFT.Core

open MinBFT.Messages MinBFT.Usig MinBFT.System

/-! ## What the order reads of a replica -/

namespace Replica

/-- From `s` to `s'` nothing the order of execution reads changes: the commitment counter, every
client's last prepared and last retired sequence, and the primary's last captured UI. -/
structure OrderKept (s s' : Replica) : Prop where
  counter : s'.counter = s.counter
  prepared : ∀ cl, (s'.clients cl).seq.lastPreparedSeq = (s.clients cl).seq.lastPreparedSeq
  retired : ∀ cl, (s'.clients cl).seq.lastRetiredSeq = (s.clients cl).seq.lastRetiredSeq
  captured : (s'.peers 0).lastCapturedCV = (s.peers 0).lastCapturedCV

variable {P : ReplicaParams} {s s' : Replica}

theorem OrderKept.refl (s : Replica) : OrderKept s s := ⟨rfl, fun _ => rfl, fun _ => rfl, rfl⟩

theorem OrderKept.trans {s₁ s₂ s₃ : Replica} (h₁ : OrderKept s₁ s₂) (h₂ : OrderKept s₂ s₃) :
    OrderKept s₁ s₃ :=
  ⟨h₂.counter.trans h₁.counter, fun cl => (h₂.prepared cl).trans (h₁.prepared cl),
    fun cl => (h₂.retired cl).trans (h₁.retired cl), h₂.captured.trans h₁.captured⟩

theorem OrderKept.of_eq (hc : s'.counter = s.counter) (hcl : s'.clients = s.clients)
    (hp : s'.peers = s.peers) : OrderKept s s' :=
  ⟨hc, fun cl => by rw [hcl], fun cl => by rw [hcl], by rw [hp]⟩

/-- A change of one client that keeps its last prepared and last retired sequences. -/
theorem orderKept_updateClient (s : Replica) (cid : Nat) {g : ClientState → ClientState}
    (hp : (g (s.clients cid)).seq.lastPreparedSeq = (s.clients cid).seq.lastPreparedSeq)
    (hr : (g (s.clients cid)).seq.lastRetiredSeq = (s.clients cid).seq.lastRetiredSeq) :
    OrderKept s (s.updateClient cid g) := by
  refine ⟨rfl, fun cl => ?_, fun cl => ?_, rfl⟩ <;>
  · rw [updateClient_clients]
    split_ifs with hcl
    · subst hcl
      assumption
    · rfl

theorem captureRequestSeq_orderKept {req : Request} (h : s.captureRequestSeq req = .new s') :
    OrderKept s s' := by
  unfold captureRequestSeq at h
  split at h
  · cases h
  · cases h
  · next q hq =>
    cases h
    obtain ⟨-, -, rfl⟩ := (SeqState.tryCaptureRequestSeq_new_iff _ _ _).mp hq
    exact orderKept_updateClient _ _ rfl rfl

theorem releaseRequestSeq_orderKept (req : Request) : OrderKept s (s.releaseRequestSeq req) :=
  orderKept_updateClient _ _ rfl rfl

/-- A change that keeps every client's sequence state. -/
theorem OrderKept.of_seq_eq (hc : s'.counter = s.counter)
    (hseq : ∀ cl, (s'.clients cl).seq = (s.clients cl).seq) (hp : s'.peers = s.peers) :
    OrderKept s s' :=
  ⟨hc, fun cl => by rw [hseq], fun cl => by rw [hseq], by rw [hp]⟩

/-- Starting a timer changes one client's timer, not its sequences. -/
theorem startReqTimer_orderKept (req : Request) (view : Nat) :
    OrderKept s (s.startReqTimer P req view) := by
  refine OrderKept.of_seq_eq rfl (fun cl => ?_) rfl
  unfold startReqTimer
  simp only [updateClient_clients]
  split_ifs with hcl
  · subst hcl
    rfl
  · rfl

theorem startPrepTimer_orderKept (req : Request) (view : Nat) :
    OrderKept s (s.startPrepTimer P req view) := by
  refine OrderKept.of_seq_eq rfl (fun cl => ?_) rfl
  unfold startPrepTimer
  simp only [updateClient_clients]
  split_ifs with hcl
  · subst hcl
    rfl
  · rfl

theorem generateCertified_orderKept {m : Message} (h : s.generateCertified P m = .ok s') :
    OrderKept s s' := by
  obtain ⟨ui, m', -, rfl⟩ := generateCertified_eq_ok h
  exact OrderKept.of_eq rfl rfl rfl

/-- Signing changes a client's Reply state or the log, nothing the order reads. -/
theorem generateSigned_orderKept {m : Message} (h : s.generateSigned P m = .ok s') :
    OrderKept s s' := by
  unfold generateSigned at h
  split at h
  · cases h
  · split at h
    · cases h
    · split at h
      · cases h
      · split at h
        · cases h
        · cases h
          exact orderKept_updateClient _ _ rfl rfl
      · cases h
        exact OrderKept.of_eq rfl rfl rfl

theorem requestViewChange_orderKept {newView : Nat} {ok : Bool}
    (h : s.requestViewChange P newView = .ok (ok, s')) : OrderKept s s' := by
  unfold requestViewChange at h
  split_ifs at h
  · cases h
    exact OrderKept.refl _
  · cases h
    exact OrderKept.of_eq rfl rfl rfl
  · obtain ⟨s₁, hs₁, hk⟩ := Outcome.bind_eq_ok h
    cases hk
    refine OrderKept.trans ?_ (generateSigned_orderKept hs₁)
    exact OrderKept.of_eq rfl rfl rfl

/-- `PrepareRequestSeq` that returns: it finds the request new exactly when its sequence is above
its client's last prepared one, which it then becomes; nothing else the order reads changes. -/
theorem prepareSeq_order {req : Request} {new : Bool} (h : s.prepareSeq req = .ok (new, s')) :
    (new = true ↔ (s.clients req.clientID).seq.lastPreparedSeq < req.sequence) ∧
      s'.counter = s.counter ∧ s'.peers = s.peers ∧ s'.log = s.log ∧
      (∀ cl, (s'.clients cl).seq.lastRetiredSeq = (s.clients cl).seq.lastRetiredSeq) ∧
      (fun cl => (s'.clients cl).seq.lastPreparedSeq) =
        if new then
          Function.update (fun cl => (s.clients cl).seq.lastPreparedSeq) req.clientID req.sequence
        else fun cl => (s.clients cl).seq.lastPreparedSeq := by
  unfold prepareSeq at h
  split at h
  · cases h
  · next new' q hq =>
    simp only [Outcome.ok.injEq, Prod.mk.injEq] at h
    obtain ⟨rfl, rfl⟩ := h
    unfold SeqState.prepareRequestSeq at hq
    -- the three branches of `PrepareRequestSeq`; the error branch does not return
    split_ifs at hq with h₁ h₂
    · simp only [Prod.mk.injEq, Except.ok.injEq] at hq
      obtain ⟨rfl, rfl⟩ := hq
      refine ⟨by simp; omega, rfl, rfl, rfl, fun cl => ?_, ?_⟩
      · rw [updateClient_clients]
        split_ifs with hcl
        · subst hcl
          rfl
        · rfl
      · funext cl
        simp only [updateClient_clients, Bool.false_eq_true, if_false]
        split_ifs with hcl
        · subst hcl
          rfl
        · rfl
    · simp at hq
    · simp only [Prod.mk.injEq, Except.ok.injEq] at hq
      obtain ⟨rfl, rfl⟩ := hq
      refine ⟨by simp; omega, rfl, rfl, rfl, fun cl => ?_, ?_⟩
      · rw [updateClient_clients]
        split_ifs with hcl
        · subst hcl
          rfl
        · rfl
      · funext cl
        simp only [updateClient_clients, if_true, Function.update_apply]
        split_ifs with hcl
        · subst hcl
          rfl
        · rfl

/-- A call of the collector that returns: the collector's call on the replica's part of the
state. -/
theorem collect_eq_ok' {r : Nat} {p : Prepare} {res : Except String Unit} {ex : Option Request}
    (h : s.collect P r p = .ok (res, s', ex)) :
    ∃ cs', collectCommitment P.cfg.f s.commitState r p = .ok (res, cs', ex) ∧
      s' = s.withCommitState cs' := by
  obtain ⟨⟨res', cs', ex'⟩, hc, hk⟩ := Outcome.bind_eq_ok h
  simp only [Outcome.ok.injEq, Prod.mk.injEq] at hk
  obtain ⟨rfl, rfl, rfl⟩ := hk
  exact ⟨cs', hc, rfl⟩

@[simp] theorem withCommitState_commitState (s : Replica) (cs : CommitState TimerCallback) :
    (s.withCommitState cs).commitState = cs := rfl

@[simp] theorem withCommitState_peers (s : Replica) (cs : CommitState TimerCallback) :
    (s.withCommitState cs).peers = s.peers := rfl

@[simp] theorem withCommitState_log (s : Replica) (cs : CommitState TimerCallback) :
    (s.withCommitState cs).log = s.log := rfl

end Replica

/-! ## The invariant -/

/-- A point of a call before `PrepareRequestSeq` of the primary's Prepare. -/
def Proc.preparing : Proc → Bool
  | .prepSeq _ => true
  | _ => false

/-- A point of a call before the primary's own call of the collector for its Prepare. -/
def Proc.collecting : Proc → Bool
  | .prepSeq _ | .prepCollect _ => true
  | _ => false

/-- A handler whose current call is at a point that `q` picks. -/
def Goroutine.atPoint (q : Proc → Bool) : Goroutine → Bool
  | .handler _ _ proc => q proc
  | _ => false

/-- What a call knows of the Prepare of its Commit: its UI is released once the Prepare's call
has returned, which it has at the capture of the Commit's UI and at the collector. -/
def ProcOrder (s : Replica) (frames : List Frame) : Proc → Prop
  | .peerCapture m => ∀ cm, m = .commit cm → s.UIReleased (.prepare cm.prepare)
  | .commitCollect cm => s.UIReleased (.prepare cm.prepare)
  | .returned _ => ∀ cm rest, frames = .embedded (.commit cm) :: rest →
      s.UIReleased (.prepare cm.prepare)
  | _ => True

/-- The facts of a goroutine: a handler's, at the point of its current call. -/
def GoOrder (s : Replica) : Goroutine → Prop
  | .handler _ frames proc => ProcOrder s frames proc
  | _ => True

/-- **The invariant of the order of execution**, for the primary's order `ps`. -/
structure ExecOrderInv (P : ReplicaParams) (c : Config Replica Goroutine ReplicaEvent)
    (ps : List (Option ReqKey)) : Prop where
  /-- The order has an entry for every UI of the primary captured. -/
  length_eq : ps.length = (c.shared.peers 0).lastCapturedCV
  /-- Each entry is what a certified message of the primary carries. -/
  primary : PrimaryLog P.sha256 c.shared c.trace ps
  /-- The last prepared sequences are those of the order up to the Prepares prepared. -/
  prepared : ∀ cl, (c.shared.clients cl).seq.lastPreparedSeq =
    seqsUpTo ps (ps.length - c.threads.countP (Goroutine.atPoint Proc.preparing)) cl
  /-- The collector's invariant, with the primary's calls made up to `cut`. -/
  collect : CollectInv P.cfg.f ps (ps.length - c.threads.countP (Goroutine.atPoint Proc.collecting))
    c.shared.commitState
  /-- The requests executed are the new ones of the order up to `lastDoneCV`. -/
  executed : executedKeys P.sha256 c.trace = newUpTo ps c.shared.counter.lastDoneCV
  /-- A Commit accepted from a connection is not from its Prepare's replica. -/
  accepted_commit : ∀ cm, ReplicaEvent.accepted (.commit cm) ∈ c.trace →
    cm.replicaID ≠ cm.prepare.replicaID
  goroutines : ∀ g ∈ c.threads, GoOrder c.shared g

/-- What a step of a running replica uses of its configuration: the invariants of its request
sequences and of what it logs, and the USIG assumption. -/
structure RunOk (P : ReplicaParams) (c : Config Replica Goroutine ReplicaEvent) : Prop where
  seq : SeqInv c
  valid : ValidInv P c
  usig : UsigSound P c

/-! ## Counting the points of the primary's Prepare -/

section Count

theorem Proc.collecting_of_preparing {proc : Proc} (h : proc.preparing = true) :
    proc.collecting = true := by
  cases proc <;> simp_all [Proc.preparing, Proc.collecting]

theorem Goroutine.atPoint_preparing_of_collecting {u : Goroutine}
    (h : u.atPoint Proc.collecting = false) : u.atPoint Proc.preparing = false := by
  cases u with
  | handler top frames proc =>
    simp only [Goroutine.atPoint] at h ⊢
    cases hp : proc.preparing
    · rfl
    · rw [Proc.collecting_of_preparing hp] at h
      cases h
  | _ => rfl

theorem countP_preparing_le (l : List Goroutine) :
    l.countP (Goroutine.atPoint Proc.preparing) ≤ l.countP (Goroutine.atPoint Proc.collecting) :=
  List.countP_mono_left fun u _ hpt => by
    cases u with
    | handler top frames proc => exact Proc.collecting_of_preparing hpt
    | _ => simp [Goroutine.atPoint] at hpt

/-- The handlers at a point after one goroutine moves and others start that are at no such
point. -/
theorem countP_atPoint_moveThread {l : List Goroutine} {i : Nat} {g : Goroutine} (q : Proc → Bool)
    (g' : Option Goroutine) {forks : List Goroutine} (hi : l[i]? = some g)
    (hforks : ∀ u ∈ forks, u.atPoint q = false) :
    (moveThread l i g' forks).countP (Goroutine.atPoint q) + (if g.atPoint q then 1 else 0) =
      l.countP (Goroutine.atPoint q) + (if g'.any (Goroutine.atPoint q) then 1 else 0) := by
  have hf : forks.countP (Goroutine.atPoint q) = 0 :=
    List.countP_eq_zero.mpr fun u hu => by simp [hforks u hu]
  have h := countP_moveThread (p := Goroutine.atPoint q) g' forks hi
  cases g' with
  | some u =>
    rw [hf, Nat.add_zero] at h
    exact h
  | none =>
    rw [hf, Nat.add_zero] at h
    simpa using h

/-- A move of a goroutine, starting goroutines at no such point: it counts before if it was at
one, and after if it is at one now. -/
theorem countP_atPoint_move {l : List Goroutine} {i : Nat} {g : Goroutine} (q : Proc → Bool)
    (u : Goroutine) {forks : List Goroutine} (hi : l[i]? = some g)
    (hforks : ∀ v ∈ forks, v.atPoint q = false) :
    (moveThread l i (some u) forks).countP (Goroutine.atPoint q) + (g.atPoint q).toNat =
      l.countP (Goroutine.atPoint q) + (u.atPoint q).toNat := by
  have h := countP_atPoint_moveThread q (some u) hi hforks
  cases hg : g.atPoint q <;> cases hu : u.atPoint q <;> simp_all

/-- A move of a goroutine at no such point to none, starting none. -/
theorem countP_atPoint_keep {l : List Goroutine} {i : Nat} {g : Goroutine} {q : Proc → Bool}
    {g' : Option Goroutine} {forks : List Goroutine} (hi : l[i]? = some g)
    (hg : g.atPoint q = false) (hg' : ∀ u, g' = some u → u.atPoint q = false)
    (hforks : ∀ u ∈ forks, u.atPoint q = false) :
    (moveThread l i g' forks).countP (Goroutine.atPoint q) = l.countP (Goroutine.atPoint q) := by
  have h := countP_atPoint_moveThread q g' hi hforks
  have hany : g'.any (Goroutine.atPoint q) = false := by
    cases g' with
    | some u => simpa using hg' u rfl
    | none => rfl
  simpa [hg, hany] using h

end Count

/-! ## Facts of a running replica -/

section Facts

variable {P : ReplicaParams} {c : Config Replica Goroutine ReplicaEvent}

/-- The Prepare of a call at `PrepareRequestSeq` or at the primary's call of the collector is
the primary's, of view `0`. -/
theorem RunOk.primary_of_collecting (hok : RunOk P c) {top : Top} {frames : List Frame}
    {proc : Proc} (hg : Goroutine.handler top frames proc ∈ c.threads)
    (hpt : proc.collecting = true) :
    ∃ p, proc.held = some (.prepare p) ∧ p.view = 0 ∧ p.replicaID = 0 := by
  have hv := (hok.valid.goroutines _ hg).2
  cases proc with
  | prepSeq p =>
    obtain ⟨hp, hview⟩ := hv
    have hprim := (hp.primary hok.valid.log).1
    rw [hview] at hprim
    exact ⟨p, rfl, hview, eq_zero_of_isPrimary_zero hprim⟩
  | prepCollect p =>
    obtain ⟨hp, hview⟩ := hv
    have hprim := (hp.primary hok.valid.log).1
    rw [hview] at hprim
    exact ⟨p, rfl, hview, eq_zero_of_isPrimary_zero hprim⟩
  | _ => simp [Proc.collecting] at hpt

/-- **The primary's Prepare at `PrepareRequestSeq` or at its collector call**: certified, fitting
its types, with the UI of the primary the replica holds, the last captured one. -/
theorem RunOk.collecting (hok : RunOk P c) {top : Top} {frames : List Frame} {proc : Proc}
    (hg : Goroutine.handler top frames proc ∈ c.threads) (hpt : proc.collecting = true) :
    ∃ p ui, proc.held = some (.prepare p) ∧ p.view = 0 ∧ p.replicaID = 0 ∧
      Certified c.shared c.trace (.prepare p) ∧ p.InRange ∧
      parseMessageUI (.prepare p) = some ui ∧ (c.shared.peers 0).lastCapturedCV = ui.counter ∧
      (c.shared.peers 0).lastReleasedCV + 1 = ui.counter := by
  obtain ⟨p, hheld, hview, h0⟩ := hok.primary_of_collecting hg hpt
  obtain ⟨hc, ui, hui, hcap, hrel⟩ := (hok.seq.goroutines _ hg).held hheld
  have hpeer : (Message.prepare p).replicaID = 0 := h0
  rw [hpeer] at hcap hrel
  exact ⟨p, ui, hheld, hview, h0, hc, hok.seq.certified_inRange hc, hui, hcap, hrel⟩

theorem RunOk.holds_of_collecting (hok : RunOk P c) {u : Goroutine} (hu : u ∈ c.threads)
    (hpt : u.atPoint Proc.collecting = true) : u.holds 0 = true := by
  cases u with
  | handler top frames proc =>
    obtain ⟨p, hheld, -, h0⟩ := hok.primary_of_collecting hu hpt
    exact heldBy_eq_true.mpr ⟨.prepare p, hheld, h0⟩
  | _ => simp [Goroutine.atPoint] at hpt

/-- At most one goroutine is at the primary's Prepare before its collector call: it holds the
primary's UI. -/
theorem RunOk.countP_collecting_le (hok : RunOk P c) :
    c.threads.countP (Goroutine.atPoint Proc.collecting) ≤ 1 :=
  (List.countP_mono_left fun _ hu hpt => hok.holds_of_collecting hu hpt).trans
    (hok.seq.one_holder 0)


/-- The goroutine at the primary's Prepare is the one there. -/
theorem RunOk.countP_collecting_eq_one (hok : RunOk P c) {u : Goroutine} (hu : u ∈ c.threads)
    (hpt : u.atPoint Proc.collecting = true) :
    c.threads.countP (Goroutine.atPoint Proc.collecting) = 1 := by
  have hpos := List.countP_pos_iff.mpr ⟨u, hu, hpt⟩
  have := hok.countP_collecting_le
  omega

/-- **The primary's released UIs are within `cut`**: below the captured one when a goroutine is
still before the primary's collector call, which holds it. -/
theorem RunOk.released_le_cut (hok : RunOk P c) :
    (c.shared.peers 0).lastReleasedCV ≤
      (c.shared.peers 0).lastCapturedCV - c.threads.countP (Goroutine.atPoint Proc.collecting) := by
  by_cases hzero : c.threads.countP (Goroutine.atPoint Proc.collecting) = 0
  · rw [hzero, Nat.sub_zero]
    exact hok.seq.released_le 0
  · obtain ⟨u, hu, hpt⟩ := List.countP_pos_iff.mp (Nat.pos_of_ne_zero hzero)
    rw [hok.countP_collecting_eq_one hu hpt]
    cases u with
    | handler top frames proc =>
      obtain ⟨p, ui, -, -, -, -, -, -, hcap, hrel⟩ := hok.collecting hu hpt
      omega
    | _ => simp [Goroutine.atPoint] at hpt

/-- No goroutine is before the primary's collector call when the primary's next UI can be
captured. -/
theorem RunOk.countP_collecting_eq_zero (hok : RunOk P c) {cv : Nat} {q : PeerState}
    (hq : (c.shared.peers 0).tryCaptureUI cv = .new q) :
    c.threads.countP (Goroutine.atPoint Proc.collecting) = 0 := by
  have hzero := hok.seq.countP_holds_eq_zero hq
  have := List.countP_mono_left (l := c.threads) (p := Goroutine.atPoint Proc.collecting)
    (q := Goroutine.holds 0) fun _ hu hpt => hok.holds_of_collecting hu hpt
  omega

/-- At the primary's collector call no goroutine is at `PrepareRequestSeq`: both points hold the
primary's UI. -/
theorem RunOk.countP_preparing_eq_zero (hok : RunOk P c) {i : Nat} {top : Top}
    {frames : List Frame} {p : Prepare}
    (hi : c.threads[i]? = some (.handler top frames (.prepCollect p))) :
    c.threads.countP (Goroutine.atPoint Proc.preparing) = 0 := by
  rw [List.countP_eq_zero]
  intro u hu hpt
  obtain ⟨j, hj⟩ := List.mem_iff_getElem?.mp hu
  have hji : j ≠ i := by
    rintro rfl
    rw [hi] at hj
    cases hj
    simp [Goroutine.atPoint, Proc.preparing] at hpt
  have hpt' : u.atPoint Proc.collecting = true := by
    cases u with
    | handler top frames proc => exact Proc.collecting_of_preparing hpt
    | _ => simp [Goroutine.atPoint] at hpt
  have := two_le_countP hji hj hi hpt' rfl
  have := hok.countP_collecting_le
  omega

end Facts

/-! ## Facts of goroutines -/

/-- A call whose frame is a Commit's is the call of that Commit's Prepare. -/
theorem Stack.eq_prepare_of_commit_frame {M cur : Message} {cm : Commit} {rest : List Frame}
    (h : Stack M (.embedded (.commit cm) :: rest) cur) : cur = .prepare cm.prepare := by
  cases h with
  | push _ he =>
    cases he
    rfl

/-- A call that returns has its UI released, if it is a Prepare's. -/
theorem ProcOrder.returned {s : Replica} {M cur : Message} {frames : List Frame}
    (hstack : Stack M frames cur) (hrel : ∀ p, cur = .prepare p → s.UIReleased (.prepare p))
    (res : Except String Bool) : ProcOrder s frames (.returned res) := by
  intro cm rest hf
  subst hf
  exact hrel _ hstack.eq_prepare_of_commit_frame

/-- A released UI stays released. -/
theorem Replica.UIReleased.of_released {s s' : Replica} {m : Message} (h : s.UIReleased m)
    (hrel : ∀ r, (s.peers r).lastReleasedCV ≤ (s'.peers r).lastReleasedCV) : s'.UIReleased m := by
  obtain ⟨ui, hui, hle⟩ := h
  exact ⟨ui, hui, hle.trans (hrel _)⟩

theorem ProcOrder.mono {s s' : Replica} {frames : List Frame} {proc : Proc}
    (h : ProcOrder s frames proc)
    (hrel : ∀ r, (s.peers r).lastReleasedCV ≤ (s'.peers r).lastReleasedCV) :
    ProcOrder s' frames proc := by
  cases proc with
  | peerCapture m => exact fun cm hm => (h cm hm).of_released hrel
  | commitCollect cm => exact Replica.UIReleased.of_released h hrel
  | returned res => exact fun cm rest hf => (h cm rest hf).of_released hrel
  | _ => trivial

theorem GoOrder.mono {s s' : Replica} {u : Goroutine} (h : GoOrder s u)
    (hrel : ∀ r, (s.peers r).lastReleasedCV ≤ (s'.peers r).lastReleasedCV) : GoOrder s' u := by
  cases u with
  | handler top frames proc => exact ProcOrder.mono h hrel
  | _ => trivial

/-! ## Steps that keep the order -/

section Quiet

variable {P : ReplicaParams} {c : Config Replica Goroutine ReplicaEvent}
  {ps : List (Option ReqKey)}

/-- **The move rule for a step that keeps the order**: what the step leaves, against the same
order. -/
theorem ExecOrderInv.of_step (h : ExecOrderInv P c ps) {s' : Replica} {threads' : List Goroutine}
    {es : List ReplicaEvent}
    (hcap : (s'.peers 0).lastCapturedCV = (c.shared.peers 0).lastCapturedCV)
    (hg : Grows c.shared s')
    (hprep : ∀ cl, (s'.clients cl).seq.lastPreparedSeq =
      seqsUpTo ps (ps.length - threads'.countP (Goroutine.atPoint Proc.preparing)) cl)
    (hcol : CollectInv P.cfg.f ps (ps.length - threads'.countP (Goroutine.atPoint Proc.collecting))
      s'.commitState)
    (hexec : newUpTo ps s'.counter.lastDoneCV =
      newUpTo ps c.shared.counter.lastDoneCV ++ executedKeys P.sha256 es)
    (hacc : ∀ cm, ReplicaEvent.accepted (.commit cm) ∈ es → cm.replicaID ≠ cm.prepare.replicaID)
    (hth : ∀ u ∈ threads', GoOrder s' u) : ExecOrderInv P ⟨s', threads', c.trace ++ es⟩ ps where
  length_eq := by
    rw [h.length_eq]
    exact hcap.symm
  primary := h.primary.mono hg.log (List.prefix_append _ _)
  prepared := hprep
  collect := hcol
  executed := by
    dsimp only
    rw [executedKeys_append, hexec, h.executed]
  accepted_commit cm hm := by
    rcases List.mem_append.mp hm with hm | hm
    · exact h.accepted_commit cm hm
    · exact hacc cm hm
  goroutines := hth

/-- **A step that changes nothing the order reads** keeps the invariant, when it moves no
goroutine to or from the primary's Prepare, executes nothing and accepts only Commits of another
replica than their Prepare's. -/
theorem ExecOrderInv.quiet (h : ExecOrderInv P c ps) {s' : Replica} {threads' : List Goroutine}
    {es : List ReplicaEvent} (hk : c.shared.OrderKept s') (hg : Grows c.shared s')
    (hprep : threads'.countP (Goroutine.atPoint Proc.preparing) =
      c.threads.countP (Goroutine.atPoint Proc.preparing))
    (hcoll : threads'.countP (Goroutine.atPoint Proc.collecting) =
      c.threads.countP (Goroutine.atPoint Proc.collecting))
    (hes : ∀ r, ReplicaEvent.executed r ∉ es)
    (hacc : ∀ cm, ReplicaEvent.accepted (.commit cm) ∈ es → cm.replicaID ≠ cm.prepare.replicaID)
    (hth : ∀ u ∈ threads', GoOrder s' u) : ExecOrderInv P ⟨s', threads', c.trace ++ es⟩ ps :=
  h.of_step hk.captured hg (fun cl => by rw [hprep, hk.prepared, h.prepared])
    (by rw [hcoll]; exact h.collect.congr hk.counter hk.retired)
    (by rw [executedKeys_eq_nil hes, List.append_nil, hk.counter]) hacc hth

end Quiet

/-- A capture changes the last captured UI of one replica only. -/
theorem Grows.capture (s : Replica) (r cv : Nat) :
    Grows s (s.setPeer r { s.peers r with lastCapturedCV := cv }) := by
  refine ⟨fun cl => SeqState.Le.refl _, fun r' => ?_, List.prefix_refl _⟩
  simp only [Replica.setPeer, Function.update_apply]
  split_ifs with hr
  · subst hr
    exact Nat.le_refl _
  · exact Nat.le_refl _

/-! ## The calls of the collector -/

section Collector

variable {P : ReplicaParams} {s s' : Replica} {proc' : Proc} {forks : List Goroutine}
  {es : List ReplicaEvent}

/-- The primary's call of the collector: its Prepare is released next, or a backup goes on to
stop the Prepare's timer; a request handed on for execution starts its goroutine. -/
theorem procStep_prepCollect {p : Prepare}
    (h : procStep P s (.prepCollect p) = some (.ok (s', proc', forks, es))) :
    ∃ res ex, s.collect P p.replicaID p = .ok (res, s', ex) ∧
      forks = ex.toList.map .awaitResult ∧ es = ex.toList.map .executed ∧
      ((∃ r, proc' = .peerRelease (.prepare p) r) ∨ proc' = .prepStopTimer p) := by
  simp only [procStep] at h
  split_ifs at h with hhung hid
  · -- the primary's own Prepare is released, whatever the collector said
    obtain ⟨⟨res, s₁, ex⟩, hcol, hk⟩ := Outcome.bind_eq_ok (Option.some.inj h)
    refine ⟨res, ex, ?_⟩
    split at hk <;> cases hk <;> exact ⟨hcol, rfl, rfl, .inl ⟨_, rfl⟩⟩
  · -- a backup stops the Prepare's timer next, unless the collector failed
    obtain ⟨⟨res, s₁, ex⟩, hcol, hk⟩ := Outcome.bind_eq_ok (Option.some.inj h)
    refine ⟨res, ex, ?_⟩
    split at hk
    · cases hk
      exact ⟨hcol, rfl, rfl, .inl ⟨_, rfl⟩⟩
    · cases hk
      exact ⟨hcol, rfl, rfl, .inr rfl⟩

/-- A Commit's call of the collector: its Commit is released next. -/
theorem procStep_commitCollect {cm : Commit}
    (h : procStep P s (.commitCollect cm) = some (.ok (s', proc', forks, es))) :
    ∃ res ex r, s.collect P cm.replicaID cm.prepare = .ok (res, s', ex) ∧
      forks = ex.toList.map .awaitResult ∧ es = ex.toList.map .executed ∧
      proc' = .peerRelease (.commit cm) r := by
  simp only [procStep] at h
  split_ifs at h
  obtain ⟨⟨res, s₁, ex⟩, hcol, hk⟩ := Outcome.bind_eq_ok (Option.some.inj h)
  refine ⟨res, ex, ?_⟩
  split at hk <;> cases hk <;> exact ⟨_, hcol, rfl, rfl, rfl⟩

end Collector

/-! ## The steps at the primary's Prepare -/

section Primary

variable {P : ReplicaParams} {c : Config Replica Goroutine ReplicaEvent}
  {ps : List (Option ReqKey)} {i : Nat} {top : Top} {frames : List Frame}

/-- **The capture of the primary's next UI** extends the order by what its message carries. A
Prepare of view `0` goes on to `PrepareRequestSeq`; any other message carries nothing, and its
counter is passed at once. -/
theorem ExecOrderInv.capture_primary (h : ExecOrderInv P c ps) (hok : RunOk P c) {m : Message} {ui : UI}
    {proc' : Proc} (hi : c.threads[i]? = some (.handler top frames (.peerCapture m)))
    (hui : parseMessageUI m = some ui) (h0 : m.replicaID = 0)
    (hq : (c.shared.peers 0).tryCaptureUI ui.counter =
      .new { c.shared.peers 0 with lastCapturedCV := ui.counter })
    (hcase : (∃ p, m = .prepare p ∧ p.view = 0 ∧ proc' = .prepSeq p) ∨
      (proc'.collecting = false ∧ primaryEntry P.sha256 m = none))
    (hmoved : ProcOrder (c.shared.setPeer 0 { c.shared.peers 0 with lastCapturedCV := ui.counter })
      frames proc') :
    ExecOrderInv P ⟨c.shared.setPeer 0 { c.shared.peers 0 with lastCapturedCV := ui.counter },
      moveThread c.threads i (some (.handler top frames proc')) [], c.trace ++ []⟩
      (ps ++ [primaryEntry P.sha256 m]) := by
  obtain ⟨hlt, hle, -⟩ :=
    (PeerState.tryCaptureUI_new_iff _ _ (PeerState.tryCaptureUI_new_pos hq)).mp hq
  have hrel := hok.seq.released_le 0
  -- the captured UI is the next one
  have hcv : ui.counter = ps.length + 1 := by
    rw [h.length_eq]
    omega
  have hzero := hok.countP_collecting_eq_zero hq
  have hzero' : c.threads.countP (Goroutine.atPoint Proc.preparing) = 0 := by
    have := countP_preparing_le c.threads
    omega
  have hcount (q : Proc → Bool) (hq₀ : q (.peerCapture m) = false) :
      (moveThread c.threads i (some (.handler top frames proc')) []).countP
        (Goroutine.atPoint q) =
      c.threads.countP (Goroutine.atPoint q) + ((Goroutine.handler top frames proc').atPoint q).toNat := by
    have := countP_atPoint_move q (.handler top frames proc') hi (List.forall_mem_nil _)
    rw [show (Goroutine.handler top frames (.peerCapture m)).atPoint q = false from hq₀,
      Bool.toNat_false, Nat.add_zero] at this
    exact this
  -- the captured message is certified
  obtain ⟨M, cur, htop, hstack, ⟨rfl, -⟩, hin⟩ := hok.seq.handler (List.mem_of_getElem? hi)
  have hc : Certified c.shared c.trace m := ⟨M, htop.source, hstack.mem_certifiedParts hui⟩
  have hg := Grows.capture c.shared 0 ui.counter
  have hD : c.shared.counter.lastDoneCV ≤ ps.length :=
    h.collect.counter.done_le.trans h.collect.counter.cut_le
  have hlen : (ps ++ [primaryEntry P.sha256 m]).length = ps.length + 1 := by simp
  have hprep (cl : Nat) : (c.shared.clients cl).seq.lastPreparedSeq = seqsUpTo ps ps.length cl := by
    rw [h.prepared cl, hzero', Nat.sub_zero]
  have hcol := h.collect.extend (primaryEntry P.sha256 m)
  rw [hzero, Nat.sub_zero] at hcol
  refine ⟨?_, ?_, fun cl => ?_, ?_, ?_, ?_, ?_⟩
  · simp [Replica.setPeer, hcv]
  · exact (h.primary.mono hg.log (List.prefix_append _ _)).append
      (hc.mono hg.log (List.prefix_append _ _)) hin h0 hui hcv
  · show (c.shared.clients cl).seq.lastPreparedSeq = _
    rw [hlen, hcount Proc.preparing rfl, hzero', hprep cl]
    rcases hcase with ⟨p, rfl, -, rfl⟩ | ⟨hpt, hnone⟩
    · -- a Prepare at `PrepareRequestSeq`: the new entry is not prepared yet
      rw [show (Goroutine.handler top frames (.prepSeq p)).atPoint Proc.preparing = true from rfl,
        Bool.toNat_true, Nat.zero_add, Nat.add_sub_cancel, (upTo_append _ (Nat.le_refl _)).1]
    · -- nothing to prepare: the new entry is passed
      have hnot : ¬ NewAt (ps ++ [primaryEntry P.sha256 m]) (ps.length + 1) :=
        not_newAt_of_none (by simp [hnone])
      rw [Goroutine.atPoint_preparing_of_collecting (u := .handler top frames proc') hpt,
        Bool.toNat_false, Nat.add_zero,
        Nat.sub_zero, (upTo_of_not_new (Nat.le_succ _) hlen.ge fun u hu hu' =>
          (show u = ps.length + 1 by omega) ▸ hnot).1, (upTo_append _ (Nat.le_refl _)).1]
  · show CollectInv _ _ _ c.shared.commitState
    rw [hlen, hcount Proc.collecting rfl, hzero]
    rcases hcase with ⟨p, rfl, -, rfl⟩ | ⟨hpt, hnone⟩
    · rw [show (Goroutine.handler top frames (.prepSeq p)).atPoint Proc.collecting = true from rfl,
        Bool.toNat_true, Nat.zero_add, Nat.add_sub_cancel]
      exact hcol
    · rw [show (Goroutine.handler top frames proc').atPoint Proc.collecting = false from hpt,
        Bool.toNat_false, Nat.add_zero, Nat.sub_zero]
      exact hcol.raise (by simp) (not_newAt_of_none (by simp [hnone]))
  · show executedKeys P.sha256 (c.trace ++ []) = newUpTo _ c.shared.counter.lastDoneCV
    rw [List.append_nil, (upTo_append _ hD).2]
    exact h.executed
  · intro cm hm
    rw [List.append_nil] at hm
    exact h.accepted_commit cm hm
  · intro u hu
    change u ∈ moveThread c.threads i (some (.handler top frames proc')) [] at hu
    rcases mem_moveThread hu with hu | hu | hu
    · exact (h.goroutines u hu).mono hg.released
    · cases hu
      exact hmoved
    · cases hu

/-- The primary's Prepare a goroutine holds before its collector call: its UI is the last one
captured, whose entry, the last of the order, is its request's key. -/
theorem ExecOrderInv.collecting_key (h : ExecOrderInv P c ps) (hok : RunOk P c) {proc : Proc}
    (hg : Goroutine.handler top frames proc ∈ c.threads) (hpt : proc.collecting = true) :
    ∃ p ui, proc.held = some (.prepare p) ∧ p.view = 0 ∧ p.replicaID = 0 ∧
      parseMessageUI (.prepare p) = some ui ∧ ui.counter = ps.length ∧ 1 ≤ ps.length ∧
      ps[ps.length - 1]? = some (some (requestKey P.sha256 p.request)) := by
  obtain ⟨p, ui, hheld, hview, h0, hc, hin, hui, hcap, hrel⟩ := hok.collecting hg hpt
  have hcv : ui.counter = ps.length := by rw [h.length_eq, hcap]
  have hkey := h.primary.entry hok.usig hc hin h0 hview hui (by omega) hcv.le
  rw [hcv] at hkey
  exact ⟨p, ui, hheld, hview, h0, hui, hcv, by omega, hkey⟩

/-- **`PrepareRequestSeq` of the primary's Prepare** finds its request new exactly when its
counter is new in the order: the Prepare goes on to the collector, or is released with its
counter passed. Either way the last prepared sequences are those of the whole order. -/
theorem ExecOrderInv.prepare (h : ExecOrderInv P c ps) (hok : RunOk P c) {p : Prepare}
    {s' : Replica} {proc' : Proc} {forks : List Goroutine} {es : List ReplicaEvent}
    (hi : c.threads[i]? = some (.handler top frames (.prepSeq p)))
    (hstep : procStep P c.shared (.prepSeq p) = some (.ok (s', proc', forks, es))) :
    ExecOrderInv P ⟨s', moveThread c.threads i (some (.handler top frames proc')) forks,
      c.trace ++ es⟩ ps := by
  have hg₀ := List.mem_of_getElem? hi
  obtain ⟨p', ui, hheld, -, -, hui, hcv, hlen1, hkey⟩ := h.collecting_key hok hg₀ rfl
  cases hheld
  -- the goroutine is the one at the primary's Prepare, before `PrepareRequestSeq`
  have hone := hok.countP_collecting_eq_one hg₀ rfl
  have hprep1 : c.threads.countP (Goroutine.atPoint Proc.preparing) = 1 := by
    have := List.countP_pos_iff.mpr ⟨_, hg₀,
      (rfl : (Goroutine.handler top frames (.prepSeq p)).atPoint Proc.preparing = true)⟩
    have := countP_preparing_le c.threads
    omega
  simp only [procStep] at hstep
  obtain ⟨⟨new, s₁⟩, hps, hk⟩ := Outcome.bind_eq_ok (Option.some.inj hstep)
  obtain ⟨hnew, hcounter, hpeers, hlog, hretired, hprepared⟩ := Replica.prepareSeq_order hps
  -- the request is new exactly when its counter is new in the order
  have hnew' : new = true ↔ NewAt ps ps.length := by
    rw [hnew, newAt_iff hkey hlen1, h.prepared, hprep1]
    rfl
  have hbefore : (fun cl => (c.shared.clients cl).seq.lastPreparedSeq) =
      seqsUpTo ps (ps.length - 1) := by
    funext cl
    rw [h.prepared, hprep1]
  -- after it, the last prepared sequences are those of the whole order
  have hafter (cl : Nat) : (s₁.clients cl).seq.lastPreparedSeq = seqsUpTo ps ps.length cl := by
    rw [show (s₁.clients cl).seq.lastPreparedSeq = _ from congrFun hprepared cl, hbefore]
    cases new with
    | true =>
      rw [if_pos rfl, (newUpTo_of_newAt hkey (hnew'.mp rfl)).1]
      rfl
    | false =>
      have hnot : ¬ NewAt ps ps.length := fun hn => Bool.false_ne_true (hnew'.mpr hn)
      rw [if_neg Bool.false_ne_true, (upTo_of_not_new (Nat.sub_le _ 1) (Nat.le_refl _)
        fun u hu hu' => (show u = ps.length by omega) ▸ hnot).1]
  have hg : Grows c.shared s₁ := hok.seq.grows (Replica.prepareSeq_eq_ok hps).1
    (fun r => by rw [hpeers]) (by rw [hlog])
  have h₁ := countP_atPoint_move Proc.preparing (.handler top frames proc') hi
    (List.forall_mem_nil _)
  have h₂ := countP_atPoint_move Proc.collecting (.handler top frames proc') hi
    (List.forall_mem_nil _)
  have hcol := h.collect
  rw [hone] at hcol
  have hcol₁ : CollectInv P.cfg.f ps (ps.length - 1) s₁.commitState :=
    hcol.congr hcounter hretired
  have hth : ∀ u ∈ moveThread c.threads i (some (.handler top frames proc')) [], GoOrder s₁ u :=
    forall_mem_moveThread (fun u hu => (h.goroutines u hu).mono hg.released)
      (fun u hu => by
        cases hu
        split_ifs at hk <;> cases hk <;> trivial) (List.forall_mem_nil _)
  cases new with
  | true =>
    -- on to the primary's call of the collector
    simp only [if_true] at hk
    cases hk
    simp only [Goroutine.atPoint, Proc.preparing, Proc.collecting, hprep1, hone,
      Bool.toNat_true, Bool.toNat_false] at h₁ h₂
    refine h.of_step (by rw [hpeers]) hg (fun cl => ?_) ?_ ?_ (fun _ hm => by cases hm) hth
    · rw [hafter, show List.countP _ _ = 0 by omega, Nat.sub_zero]
    · rw [show List.countP _ _ = 1 by omega]
      exact hcol₁
    · rw [hcounter, executedKeys_nil, List.append_nil]
  | false =>
    -- prepared before: the counter is passed
    simp only [Bool.false_eq_true, if_false] at hk
    cases hk
    have hnot : ¬ NewAt ps ps.length := fun hn => Bool.false_ne_true (hnew'.mpr hn)
    simp only [Goroutine.atPoint, Proc.preparing, Proc.collecting, hprep1, hone,
      Bool.toNat_true, Bool.toNat_false] at h₁ h₂
    refine h.of_step (by rw [hpeers]) hg (fun cl => ?_) ?_ ?_ (fun _ hm => by cases hm) hth
    · rw [hafter, show List.countP _ _ = 0 by omega, Nat.sub_zero]
    · rw [show List.countP _ _ = 0 by omega, Nat.sub_zero]
      have hsucc : ps.length - 1 + 1 = ps.length := by omega
      have := hcol₁.raise (by omega) (by rwa [hsucc])
      rwa [hsucc] at this
    · rw [hcounter, executedKeys_nil, List.append_nil]

/-- **The primary's call of the collector** for the captured counter: `cut` reaches it, and the
request of a quorum is executed when it is new. -/
theorem ExecOrderInv.collect_primary (h : ExecOrderInv P c ps) (hok : RunOk P c) {p : Prepare}
    {s' : Replica} {proc' : Proc} {forks : List Goroutine} {es : List ReplicaEvent}
    (hi : c.threads[i]? = some (.handler top frames (.prepCollect p)))
    (hstep : procStep P c.shared (.prepCollect p) = some (.ok (s', proc', forks, es))) :
    ExecOrderInv P ⟨s', moveThread c.threads i (some (.handler top frames proc')) forks,
      c.trace ++ es⟩ ps := by
  have hg₀ := List.mem_of_getElem? hi
  obtain ⟨p', ui, hheld, hview, h0, hui, hcv, hlen1, hkey⟩ := h.collecting_key hok hg₀ rfl
  cases hheld
  have hone := hok.countP_collecting_eq_one hg₀ rfl
  have hzero := hok.countP_preparing_eq_zero hi
  obtain ⟨res, ex, hcol, rfl, rfl, hproc'⟩ := procStep_prepCollect hstep
  obtain ⟨cs', hcs, rfl⟩ := Replica.collect_eq_ok' hcol
  -- the call is for `cut + 1`, the captured counter
  have hcut : ps.length - 1 + 1 = ps.length := by omega
  have hinv := h.collect
  rw [hone] at hinv
  obtain ⟨hinv', hexec⟩ := hinv.collect_primary (by omega) hui (by omega) hview h0 hkey hcs
  rw [hcut] at hinv'
  have hforks : ∀ v ∈ ex.toList.map Goroutine.awaitResult, ∀ q, v.atPoint q = false := by
    intro v hv q
    obtain ⟨r, -, rfl⟩ := List.mem_map.mp hv
    rfl
  have h₁ := countP_atPoint_move Proc.preparing (.handler top frames proc') hi
    fun v hv => hforks v hv _
  have h₂ := countP_atPoint_move Proc.collecting (.handler top frames proc') hi
    fun v hv => hforks v hv _
  have hpt : proc'.collecting = false := by rcases hproc' with ⟨r, rfl⟩ | rfl <;> rfl
  have hpt' : proc'.preparing = false := by rcases hproc' with ⟨r, rfl⟩ | rfl <;> rfl
  rw [show (Goroutine.handler top frames (.prepCollect p)).atPoint Proc.preparing = false
    from rfl, show (Goroutine.handler top frames proc').atPoint Proc.preparing = false from hpt',
    hzero] at h₁
  rw [show (Goroutine.handler top frames (.prepCollect p)).atPoint Proc.collecting = true
    from rfl, show (Goroutine.handler top frames proc').atPoint Proc.collecting = false from hpt,
    hone] at h₂
  simp only [Bool.toNat_true, Bool.toNat_false] at h₁ h₂
  refine h.of_step rfl (hok.seq.grows (Replica.collect_eq_ok hcol).1 (fun _ => le_rfl)
    (List.prefix_refl _)) (fun cl => ?_) ?_ ?_ ?_ ?_
  · show (cs'.clients cl).seq.lastPreparedSeq = _
    rw [show List.countP _ _ = 0 by omega, collectCommitment_lastPreparedSeq hcs]
    have hprep := h.prepared cl
    rw [hzero] at hprep
    exact hprep
  · rw [show List.countP _ _ = 0 by omega, Nat.sub_zero]
    exact hinv'
  · rw [executedKeys_executed]
    exact hexec
  · intro cm hm
    obtain ⟨r, -, hr⟩ := List.mem_map.mp hm
    cases hr
  · refine forall_mem_moveThread (fun u hu => (h.goroutines u hu).mono fun _ => le_rfl)
      (fun u hu => ?_) fun v hv => ?_
    · cases hu
      rcases hproc' with ⟨r, rfl⟩ | rfl <;> trivial
    · obtain ⟨r, -, rfl⟩ := List.mem_map.mp hv
      trivial

/-- **A Commit's call of the collector.** Its Prepare's UI is released, so its counter is within
`cut`; a Commit is never from its Prepare's replica, so it is not the primary's call; and by the
USIG its Prepare is the order's at that counter. -/
theorem ExecOrderInv.collect_commit (h : ExecOrderInv P c ps) (hok : RunOk P c) {cm : Commit}
    {s' : Replica} {proc' : Proc} {forks : List Goroutine} {es : List ReplicaEvent}
    (hi : c.threads[i]? = some (.handler top frames (.commitCollect cm)))
    (hstep : procStep P c.shared (.commitCollect cm) = some (.ok (s', proc', forks, es))) :
    ExecOrderInv P ⟨s', moveThread c.threads i (some (.handler top frames proc')) forks,
      c.trace ++ es⟩ ps := by
  have hg₀ := List.mem_of_getElem? hi
  obtain ⟨M, cur, htop, hstack, ⟨rfl, -, -⟩, hin⟩ := hok.seq.handler hg₀
  obtain rfl := hstack.eq_of_commit
  -- the Prepare is the primary's, of view `0`
  obtain ⟨hvouch, hview⟩ := (hok.valid.goroutines _ hg₀).2
  have h0 : cm.prepare.replicaID = 0 := by
    have hprim := (hvouch.primary hok.valid.log).1
    rw [hview] at hprim
    exact eq_zero_of_isPrimary_zero hprim
  -- its UI is released, so its counter is within `cut`
  obtain ⟨ui, hui, hle⟩ : c.shared.UIReleased (.prepare cm.prepare) := h.goroutines _ hg₀
  have hpeer : (Message.prepare cm.prepare).replicaID = 0 := h0
  rw [hpeer] at hle
  have hcut : ui.counter ≤ ps.length - c.threads.countP (Goroutine.atPoint Proc.collecting) := by
    rw [h.length_eq]
    exact hle.trans hok.released_le_cut
  have h1 : 1 ≤ ui.counter := by
    obtain ⟨-, ui', hui', hpos⟩ := hok.seq.top_ok htop
    rw [hui] at hui'
    cases hui'
    exact hpos
  -- the Commit is another replica's
  have hr : cm.replicaID ≠ 0 := by
    rw [← h0]
    rcases htop.source with hacc | hlog
    · exact h.accepted_commit cm hacc
    · obtain ⟨hid, hne, -⟩ := hok.valid.log _ hlog
      rw [hid]
      exact fun heq => hne heq.symm
  -- by the USIG, its Prepare is the order's at its counter
  have hc : Certified c.shared c.trace (.prepare cm.prepare) :=
    ⟨.commit cm, htop.source, by simp [certifiedParts]⟩
  have hkey := h.primary.entry hok.usig hc hin h0 hview hui h1 (hcut.trans (Nat.sub_le _ _))
  obtain ⟨res, ex, r, hcol, rfl, rfl, rfl⟩ := procStep_commitCollect hstep
  obtain ⟨cs', hcs, rfl⟩ := Replica.collect_eq_ok' hcol
  obtain ⟨hinv', hexec⟩ := h.collect.collect_commit hui h1 hcut hview h0 hr hkey hcs
  have hforks (q : Proc → Bool) : ∀ v ∈ ex.toList.map Goroutine.awaitResult, v.atPoint q = false := by
    intro v hv
    obtain ⟨r, -, rfl⟩ := List.mem_map.mp hv
    rfl
  have hP := @countP_atPoint_keep _ _ _ Proc.preparing
    (some (.handler top frames (.peerRelease (.commit cm) r))) _ hi rfl
    (fun u hu => by cases hu; rfl) (hforks _)
  have hC := @countP_atPoint_keep _ _ _ Proc.collecting
    (some (.handler top frames (.peerRelease (.commit cm) r))) _ hi rfl
    (fun u hu => by cases hu; rfl) (hforks _)
  refine h.of_step rfl (hok.seq.grows (Replica.collect_eq_ok hcol).1 (fun _ => le_rfl)
    (List.prefix_refl _)) (fun cl => ?_) ?_ ?_ ?_ ?_
  · show (cs'.clients cl).seq.lastPreparedSeq = _
    rw [hP, collectCommitment_lastPreparedSeq hcs]
    exact h.prepared cl
  · rw [hC]
    exact hinv'
  · rw [executedKeys_executed]
    exact hexec
  · intro cm' hm
    obtain ⟨r, -, hr⟩ := List.mem_map.mp hm
    cases hr
  · refine forall_mem_moveThread (fun u hu => (h.goroutines u hu).mono fun _ => le_rfl)
      (fun u hu => ?_) fun v hv => ?_
    · cases hu
      trivial
    · obtain ⟨r, -, rfl⟩ := List.mem_map.mp hv
      trivial

end Primary

end MinBFT.Core
