import MinBFT.Core.Handler
import MinBFT.Core.ReplicaSpec

/-!
# The invariant behind the order of request sequences

`PrepareRequestSeq(seq)` panics unless the client's `seq` was captured, and `RetireRequestSeq(seq)`
unless it was prepared. That neither happens rests on the order in which a goroutine processes a
message: a Prepare's Request is processed (captured) before the Prepare, and a Commit's Prepare
(prepared) before the Commit (`makeEmbeddedMessageProcessor`). The second needs more: the
embedded Prepare may be found processed already (its UI captured and released), by another
goroutine and possibly for another copy of it. That copy certified the same content under the
same UI, by the USIG, so it prepared the same request.

`SeqInv` is the invariant of a running replica that carries this argument.

* Each call of `handle` is at a point of the processing of its message (`Stack`, `ProcOk`): the
  facts the code has established there, on the client's counters (`IsCaptured`, `IsPrepared`) and
  on the peer's UI counters (`UIHeld`, `UIReleased`).
* At most one goroutine holds a UI of a peer; while it does, the peer's last captured counter is
  that UI's and the last released one is just below; otherwise the two are equal.
* Every released UI of a peer belongs to a certified message whose processing is finished
  (`Settled`): a Prepare of view `0` left its request prepared.
* The messages the replica accepted and generated fit their protobuf types (`Message.InRange`),
  so that equal authenticated bytes mean equal requests, and a Commit's Prepare has a UI counter
  of at least one.

The USIG assumption is a property of a run (`UsigSound`): two certified messages of one replica
with the same UI counter have the same authenticated bytes.
-/

namespace MinBFT.Core

open MinBFT.Messages MinBFT.Usig MinBFT.System

/-! ## Certified messages and the USIG -/

/-- The certified messages a message carries: a Prepare, or a Commit and its Prepare. -/
def certifiedParts : Message → List Message
  | .prepare p => [.prepare p]
  | .commit c => [.commit c, .prepare c.prepare]
  | _ => []

/-- A certified message of a run: a part of a message a stream handler accepted, or of one the
replica generated. -/
def Certified (s : Replica) (trace : List ReplicaEvent) (m : Message) : Prop :=
  ∃ M, (ReplicaEvent.accepted M ∈ trace ∨ M ∈ s.log) ∧ m ∈ certifiedParts M

/-- **The USIG assumption, for a run**: two certified messages of one replica whose UIs have the
same counter certify the same authenticated bytes. -/
def UsigSound (P : ReplicaParams) (c : Config Replica Goroutine ReplicaEvent) : Prop :=
  ∀ m₁ m₂ ui₁ ui₂, Certified c.shared c.trace m₁ → Certified c.shared c.trace m₂ →
    parseMessageUI m₁ = some ui₁ → parseMessageUI m₂ = some ui₂ →
    m₁.replicaID = m₂.replicaID → ui₁.counter = ui₂.counter →
    authenBytes P.sha256 m₁ = authenBytes P.sha256 m₂

/-- A Commit accepted or generated carries a Prepare whose UI counter is at least one. -/
def PrepareUIPos : Message → Prop
  | .commit c => ∃ ui, parseMessageUI (.prepare c.prepare) = some ui ∧ 1 ≤ ui.counter
  | _ => True

/-! ## Facts about the state -/

namespace Replica

/-- The request's sequence is at or below its client's last captured one. -/
def IsCaptured (s : Replica) (r : Request) : Prop :=
  r.sequence ≤ (s.clients r.clientID).seq.lastCapturedSeq

/-- The request's sequence is at or below its client's last prepared one. -/
def IsPrepared (s : Replica) (r : Request) : Prop :=
  r.sequence ≤ (s.clients r.clientID).seq.lastPreparedSeq

/-- The message's UI was captured and released by its replica's peer state. -/
def UIReleased (s : Replica) (m : Message) : Prop :=
  ∃ ui, parseMessageUI m = some ui ∧ ui.counter ≤ (s.peers m.replicaID).lastReleasedCV

/-- The message's UI is the one its replica's peer state holds: the last captured, one above the
last released. -/
def UIHeld (s : Replica) (m : Message) : Prop :=
  ∃ ui, parseMessageUI m = some ui ∧ (s.peers m.replicaID).lastCapturedCV = ui.counter ∧
    (s.peers m.replicaID).lastReleasedCV + 1 = ui.counter

end Replica

/-- What the processing of a certified message has left when its UI is released: a Prepare of
view `0` has its request prepared. -/
def Settled (s : Replica) : Message → Prop
  | .prepare p => s.IsPrepared p.request ∨ 0 < p.view
  | _ => True

/-- What a call of `processMessage` has left when it returns: a Request is captured; a Prepare is
settled, or was found with its UI released already. -/
def Done (s : Replica) : Message → Prop
  | .request r => s.IsCaptured r
  | .prepare p => Settled s (.prepare p) ∨ s.UIReleased (.prepare p)
  | _ => True

/-! ## The calls of `handle` -/

/-- The message of the current call of a handler whose top message is `M`, with the calls it
returns to: `processEmbedded` calls `processMessage` on the embedded message. -/
inductive Stack (M : Message) : List Frame → Message → Prop
  | top : Stack M [] M
  | push {frames : List Frame} {outer e : Message} :
      Stack M frames outer → embeddedOf outer = some e → Stack M (.embedded outer :: frames) e

/-- The message whose UI a point of a call holds: from its capture to its release. -/
def Proc.held : Proc → Option Message
  | .prepSeq p | .prepCollect p | .prepStopTimer p | .prepCommit p => some (.prepare p)
  | .commitCollect c => some (.commit c)
  | .peerRelease m _ => some m
  | _ => none

/-- The message whose UI a goroutine holds. -/
def Goroutine.held : Goroutine → Option Message
  | .handler _ _ proc => proc.held
  | _ => none

/-- A held message, if any, is one of replica `r`. -/
def heldBy (r : Nat) : Option Message → Bool
  | some m => m.replicaID == r
  | none => false

/-- The goroutine holds a UI of replica `r`. -/
def Goroutine.holds (r : Nat) (g : Goroutine) : Bool := heldBy r g.held

/-- The facts at each point of a call for the message `cur`. -/
def ProcOk (s : Replica) (cur : Message) : Proc → Prop
  | .start m => m = cur
  | .reqCapture r => cur = .request r
  | .reqAdd r | .reqTimer r | .reqApply r | .reqRelease r => cur = .request r ∧ s.IsCaptured r
  | .peerCapture m => m = cur ∧ ∀ e, embeddedOf m = some e → Done s e
  | .prepSeq p => cur = .prepare p ∧ s.IsCaptured p.request ∧ s.UIHeld cur
  | .prepCollect p | .prepStopTimer p | .prepCommit p =>
    cur = .prepare p ∧ s.IsPrepared p.request ∧ s.UIHeld cur
  | .commitCollect c => cur = .commit c ∧ s.IsPrepared c.prepare.request ∧ s.UIHeld cur
  | .peerRelease m _ => m = cur ∧ Settled s m ∧ s.UIHeld m
  | .returned _ => Done s cur

/-- Where the top message of a call of `handle` comes from: a stream handler accepted it, or it
is the log's message `next`. -/
def TopOk (s : Replica) (trace : List ReplicaEvent) : Top → Message → Prop
  | .incoming m, M => M = m ∧ ReplicaEvent.accepted m ∈ trace
  | .own next, M => s.log[next]? = some M

/-- The facts a goroutine carries. -/
def GoroutineOk (s : Replica) (trace : List ReplicaEvent) : Goroutine → Prop
  | .received m => m.InRange
  | .handler top frames proc => ∃ M cur, TopOk s trace top M ∧ Stack M frames cur ∧ ProcOk s cur proc
  | _ => True

/-! ## Messages with a UI, and the stack of calls -/

/-- Only Prepares and Commits carry a UI. -/
theorem eq_prepare_or_commit_of_parseMessageUI {m : Message} {ui : UI}
    (h : parseMessageUI m = some ui) : (∃ p, m = .prepare p) ∨ ∃ c, m = .commit c := by
  cases m with
  | prepare p => exact .inl ⟨p, rfl⟩
  | commit c => exact .inr ⟨c, rfl⟩
  | _ => simp [parseMessageUI, Message.uiBytes] at h

theorem embeddedOf_ne_commit (m : Message) (c : Commit) : embeddedOf m ≠ some (.commit c) := by
  cases m <;> simp [embeddedOf]

theorem Message.inRange_of_embeddedOf {m e : Message} (h : embeddedOf m = some e)
    (hm : m.InRange) : e.InRange := by
  cases m with
  | prepare p =>
    cases h
    exact hm.2
  | commit c =>
    cases h
    exact hm
  | _ => simp [embeddedOf] at h

theorem Message.inRange_of_mem_certifiedParts {M m : Message} (h : m ∈ certifiedParts M)
    (hM : M.InRange) : m.InRange := by
  cases M with
  | prepare p =>
    rw [certifiedParts, List.mem_singleton] at h
    exact h ▸ hM
  | commit c =>
    simp only [certifiedParts, List.mem_cons, List.not_mem_nil, or_false] at h
    rcases h with rfl | rfl
    · exact hM
    · exact hM
  | _ => simp [certifiedParts] at h

namespace Stack

variable {M : Message} {frames : List Frame} {cur : Message}

theorem inRange (h : Stack M frames cur) (hM : M.InRange) : cur.InRange := by
  induction h with
  | top => exact hM
  | push _ he ih => exact Message.inRange_of_embeddedOf he ih

/-- Nothing embeds a Commit: a call for a Commit is the handler's first. -/
theorem eq_of_commit {c : Commit} (h : Stack M frames (.commit c)) : M = .commit c := by
  cases h with
  | top => rfl
  | push _ he => exact absurd he (embeddedOf_ne_commit _ c)

/-- A call for a message with a UI is for the handler's top message, or for the Prepare of a
Commit at the top: a certified part of the top message. -/
theorem mem_certifiedParts {ui : UI} (h : Stack M frames cur) (hui : parseMessageUI cur = some ui) :
    cur ∈ certifiedParts M := by
  cases h with
  | top =>
    rcases eq_prepare_or_commit_of_parseMessageUI hui with ⟨p, rfl⟩ | ⟨c, rfl⟩ <;>
      simp [certifiedParts]
  | @push frames outer _ hs he =>
    -- the embedded message has a UI, so it is the Prepare of a Commit
    cases outer with
    | commit c =>
      cases he
      rw [hs.eq_of_commit]
      simp [certifiedParts]
    | prepare p =>
      cases he
      simp [parseMessageUI, Message.uiBytes] at hui
    | _ => simp [embeddedOf] at he

end Stack

/-- Where a handler's top message comes from. -/
theorem TopOk.source {s : Replica} {trace : List ReplicaEvent} {top : Top} {M : Message}
    (h : TopOk s trace top M) : ReplicaEvent.accepted M ∈ trace ∨ M ∈ s.log := by
  cases top with
  | incoming m =>
    obtain ⟨rfl, h⟩ := h
    exact .inl h
  | own next => exact .inr (List.mem_of_getElem? h)

/-- A point of a call that holds a UI holds the UI of the call's message. -/
theorem ProcOk.held_eq {s : Replica} {cur : Message} {proc : Proc} {m : Message}
    (h : ProcOk s cur proc) (hm : proc.held = some m) : m = cur ∧ s.UIHeld m := by
  cases proc with
  | prepSeq p =>
    obtain ⟨rfl, -, h⟩ := h
    cases hm
    exact ⟨rfl, h⟩
  | prepCollect p =>
    obtain ⟨rfl, -, h⟩ := h
    cases hm
    exact ⟨rfl, h⟩
  | prepStopTimer p =>
    obtain ⟨rfl, -, h⟩ := h
    cases hm
    exact ⟨rfl, h⟩
  | prepCommit p =>
    obtain ⟨rfl, -, h⟩ := h
    cases hm
    exact ⟨rfl, h⟩
  | commitCollect c =>
    obtain ⟨rfl, -, h⟩ := h
    cases hm
    exact ⟨rfl, h⟩
  | peerRelease m' res =>
    obtain ⟨rfl, -, h⟩ := h
    cases hm
    exact ⟨rfl, h⟩
  | _ => cases hm

/-- The message a goroutine holds is certified, and its UI is held. -/
theorem GoroutineOk.held {s : Replica} {trace : List ReplicaEvent} {g : Goroutine} {m : Message}
    (h : GoroutineOk s trace g) (hm : g.held = some m) : Certified s trace m ∧ s.UIHeld m := by
  cases g with
  | handler top frames proc =>
    obtain ⟨M, cur, htop, hstack, hproc⟩ := h
    obtain ⟨rfl, hheld⟩ := hproc.held_eq hm
    obtain ⟨ui, hui, -⟩ := id hheld
    exact ⟨⟨M, htop.source, hstack.mem_certifiedParts hui⟩, hheld⟩
  | _ => cases hm

/-! ## What only grows -/

/-- From `s` to `s'` no client's counters decrease, no peer's last released UI decreases, and the
log only grows. -/
structure Grows (s s' : Replica) : Prop where
  seq : ∀ cl, (s.clients cl).seq.Le (s'.clients cl).seq
  released : ∀ r, (s.peers r).lastReleasedCV ≤ (s'.peers r).lastReleasedCV
  log : s.log <+: s'.log

namespace Replica

variable {s s' : Replica}

theorem IsCaptured.mono {r : Request} (h : s.IsCaptured r) (hg : Grows s s') : s'.IsCaptured r :=
  Nat.le_trans h (hg.seq r.clientID).captured

theorem IsPrepared.mono {r : Request} (h : s.IsPrepared r) (hg : Grows s s') : s'.IsPrepared r :=
  Nat.le_trans h (hg.seq r.clientID).prepared

theorem UIReleased.mono {m : Message} (h : s.UIReleased m) (hg : Grows s s') : s'.UIReleased m := by
  obtain ⟨ui, hp, hle⟩ := h
  exact ⟨ui, hp, Nat.le_trans hle (hg.released _)⟩

/-- A held UI stays held while its replica's peer state is kept. -/
theorem UIHeld.of_peers_eq {m : Message} (h : s.UIHeld m)
    (hp : s'.peers m.replicaID = s.peers m.replicaID) : s'.UIHeld m := by
  unfold UIHeld
  rwa [hp]

end Replica

theorem Settled.mono {s s' : Replica} {m : Message} (h : Settled s m) (hg : Grows s s') :
    Settled s' m := by
  cases m with
  | prepare p => exact h.imp (fun h => h.mono hg) id
  | _ => trivial

theorem Done.mono {s s' : Replica} {m : Message} (h : Done s m) (hg : Grows s s') : Done s' m := by
  cases m with
  | request r => exact Replica.IsCaptured.mono h hg
  | prepare p => exact h.imp (fun h => h.mono hg) (fun h => h.mono hg)
  | _ => trivial

theorem Certified.mono {s s' : Replica} {trace trace' : List ReplicaEvent} {m : Message}
    (h : Certified s trace m) (hlog : s.log <+: s'.log) (htrace : trace <+: trace') :
    Certified s' trace' m := by
  obtain ⟨M, hM, hm⟩ := h
  exact ⟨M, hM.imp (htrace.subset ·) (hlog.subset ·), hm⟩

theorem TopOk.mono {s s' : Replica} {trace trace' : List ReplicaEvent} {top : Top} {M : Message}
    (h : TopOk s trace top M) (hlog : s.log <+: s'.log) (htrace : trace <+: trace') :
    TopOk s' trace' top M := by
  cases top with
  | incoming m => exact ⟨h.1, htrace.subset h.2⟩
  | own next =>
    obtain ⟨hlt, hget⟩ := List.getElem?_eq_some_iff.mp h
    exact (List.prefix_iff_getElem?.mp hlog next hlt).trans (congrArg some hget)

theorem ProcOk.mono {s s' : Replica} {cur : Message} {proc : Proc} (h : ProcOk s cur proc)
    (hg : Grows s s')
    (hheld : ∀ m, proc.held = some m → s'.peers m.replicaID = s.peers m.replicaID) :
    ProcOk s' cur proc := by
  cases proc with
  | start m => exact h
  | reqCapture r => exact h
  | reqAdd r => exact ⟨h.1, h.2.mono hg⟩
  | reqTimer r => exact ⟨h.1, h.2.mono hg⟩
  | reqApply r => exact ⟨h.1, h.2.mono hg⟩
  | reqRelease r => exact ⟨h.1, h.2.mono hg⟩
  | peerCapture m => exact ⟨h.1, fun e he => (h.2 e he).mono hg⟩
  | prepSeq p =>
    obtain ⟨rfl, h₁, h₂⟩ := h
    exact ⟨rfl, h₁.mono hg, h₂.of_peers_eq (hheld _ rfl)⟩
  | prepCollect p =>
    obtain ⟨rfl, h₁, h₂⟩ := h
    exact ⟨rfl, h₁.mono hg, h₂.of_peers_eq (hheld _ rfl)⟩
  | prepStopTimer p =>
    obtain ⟨rfl, h₁, h₂⟩ := h
    exact ⟨rfl, h₁.mono hg, h₂.of_peers_eq (hheld _ rfl)⟩
  | prepCommit p =>
    obtain ⟨rfl, h₁, h₂⟩ := h
    exact ⟨rfl, h₁.mono hg, h₂.of_peers_eq (hheld _ rfl)⟩
  | commitCollect c =>
    obtain ⟨rfl, h₁, h₂⟩ := h
    exact ⟨rfl, h₁.mono hg, h₂.of_peers_eq (hheld _ rfl)⟩
  | peerRelease m res =>
    obtain ⟨rfl, h₁, h₂⟩ := h
    exact ⟨rfl, h₁.mono hg, h₂.of_peers_eq (hheld _ rfl)⟩
  | returned res => exact Done.mono h hg

/-- A goroutine's facts survive a step of another goroutine that keeps the peer state of the UI it
holds. -/
theorem GoroutineOk.mono {s s' : Replica} {trace trace' : List ReplicaEvent} {g : Goroutine}
    (h : GoroutineOk s trace g) (hg : Grows s s') (htrace : trace <+: trace')
    (hheld : ∀ m, g.held = some m → s'.peers m.replicaID = s.peers m.replicaID) :
    GoroutineOk s' trace' g := by
  cases g with
  | received m => exact h
  | handler top frames proc =>
    obtain ⟨M, cur, htop, hstack, hproc⟩ := h
    exact ⟨M, cur, htop.mono hg.log htrace, hstack, hproc.mono hg hheld⟩
  | _ => trivial

/-- A released UI `u` of replica `r` belongs to a certified message whose processing left it
settled. -/
def Evidence (s : Replica) (trace : List ReplicaEvent) (r u : Nat) : Prop :=
  ∃ m, Certified s trace m ∧ m.replicaID = r ∧ (parseMessageUI m).map UI.counter = some u ∧
    Settled s m

theorem Evidence.mono {s s' : Replica} {trace trace' : List ReplicaEvent} {r u : Nat}
    (h : Evidence s trace r u) (hg : Grows s s') (htrace : trace <+: trace') :
    Evidence s' trace' r u := by
  obtain ⟨m, hc, hr, hu, hs⟩ := h
  exact ⟨m, hc.mono hg.log htrace, hr, hu, hs.mono hg⟩

/-! ## The invariant -/

/-- The part of the invariant on the peers' UI counters: at most one goroutine holds a UI of a
replica; while none does, its last released UI is its last captured one; every released UI has
its evidence. -/
structure PeerInv (c : Config Replica Goroutine ReplicaEvent) : Prop where
  released_le : ∀ r, (c.shared.peers r).lastReleasedCV ≤ (c.shared.peers r).lastCapturedCV
  one_holder : ∀ r, c.threads.countP (Goroutine.holds r) ≤ 1
  free : ∀ r, c.threads.countP (Goroutine.holds r) = 0 →
    (c.shared.peers r).lastReleasedCV = (c.shared.peers r).lastCapturedCV
  evidence : ∀ r u, 1 ≤ u → u ≤ (c.shared.peers r).lastReleasedCV → Evidence c.shared c.trace r u

/-- **The invariant of a running replica.** -/
structure SeqInv (c : Config Replica Goroutine ReplicaEvent) : Prop extends PeerInv c where
  valid : ∀ cl, (c.shared.clients cl).seq.Valid
  accepted_ok : ∀ m, ReplicaEvent.accepted m ∈ c.trace → m.InRange ∧ PrepareUIPos m
  log_ok : ∀ m ∈ c.shared.log, m.InRange ∧ PrepareUIPos m
  goroutines : ∀ g ∈ c.threads, GoroutineOk c.shared c.trace g

/-! ## Holders of UIs -/

theorem heldBy_eq_true {r : Nat} {o : Option Message} :
    heldBy r o = true ↔ ∃ m, o = some m ∧ m.replicaID = r := by
  cases o <;> simp [heldBy]

/-- How many goroutines hold a UI of `r` after goroutine `g` moves to `g'` and starts goroutines
that hold nothing. -/
theorem countP_holds_moveThread {l : List Goroutine} {i : Nat} {g : Goroutine}
    (g' : Option Goroutine) {forks : List Goroutine} (r : Nat) (hi : l[i]? = some g)
    (hforks : ∀ u ∈ forks, u.held = none) :
    (moveThread l i g' forks).countP (Goroutine.holds r) + (if g.holds r then 1 else 0) =
      l.countP (Goroutine.holds r) + (if heldBy r (g'.bind Goroutine.held) then 1 else 0) := by
  have hf : forks.countP (Goroutine.holds r) = 0 :=
    List.countP_eq_zero.mpr fun u hu => by simp [Goroutine.holds, hforks u hu, heldBy]
  have h := countP_moveThread (p := Goroutine.holds r) g' forks hi
  cases g' with
  | some u =>
    rw [hf, Nat.add_zero] at h
    exact h
  | none =>
    rw [hf, Nat.add_zero] at h
    simpa [heldBy] using h

/-- A move that keeps what the moved goroutine holds keeps the number of holders. -/
theorem countP_holds_keep {l : List Goroutine} {i : Nat} {g : Goroutine} {g' : Option Goroutine}
    {forks : List Goroutine} (r : Nat) (hi : l[i]? = some g) (hforks : ∀ u ∈ forks, u.held = none)
    (hheld : g'.bind Goroutine.held = g.held) :
    (moveThread l i g' forks).countP (Goroutine.holds r) = l.countP (Goroutine.holds r) := by
  have h := countP_holds_moveThread g' r hi hforks
  rw [hheld] at h
  exact Nat.add_right_cancel h

/-- No goroutine holds a UI of a replica whose next UI can be captured: while one does, the last
captured UI is one above the last released one. -/
theorem SeqInv.countP_holds_eq_zero {c : Config Replica Goroutine ReplicaEvent} (h : SeqInv c)
    {r cv : Nat} {q : PeerState} (hq : (c.shared.peers r).tryCaptureUI cv = .new q) :
    c.threads.countP (Goroutine.holds r) = 0 := by
  rw [List.countP_eq_zero]
  intro u hu hru
  obtain ⟨m, hm, rfl⟩ := heldBy_eq_true.mp hru
  obtain ⟨-, ui, -, hcap, hrel⟩ := (h.goroutines u hu).held hm
  have := (PeerState.tryCaptureUI_new_iff _ _ (PeerState.tryCaptureUI_new_pos hq)).mp hq
  omega

/-- A UI that is captured is then held: it is one above the last released UI. -/
theorem SeqInv.uiHeld_capture {c : Config Replica Goroutine ReplicaEvent} (h : SeqInv c)
    {m : Message} {ui : UI} {q : PeerState} (hui : parseMessageUI m = some ui)
    (hq : (c.shared.peers m.replicaID).tryCaptureUI ui.counter = .new q) :
    (c.shared.setPeer m.replicaID q).UIHeld m := by
  have hfree := h.free _ (h.countP_holds_eq_zero hq)
  obtain ⟨hlt, hle, rfl⟩ :=
    (PeerState.tryCaptureUI_new_iff _ _ (PeerState.tryCaptureUI_new_pos hq)).mp hq
  refine ⟨ui, hui, ?_, ?_⟩
  · simp only [Replica.setPeer, Function.update_self]
  · simp only [Replica.setPeer, Function.update_self]
    omega

/-! ## Moves -/

/-- What a move does to the peers' UI counters: nothing, with the moved goroutine holding what it
held; a capture by `processPeerMessage`, whose call then holds the UI; or the release of the UI
a call held. -/
inductive PeerEffect (s s' : Replica) (g : Goroutine) (g' : Option Goroutine) : Prop
  | keep : s'.peers = s.peers → g'.bind Goroutine.held = g.held → PeerEffect s s' g g'
  | capture {top : Top} {frames : List Frame} {m : Message} {proc' : Proc} {ui : UI}
      {q : PeerState} :
      g = .handler top frames (.peerCapture m) → g' = some (.handler top frames proc') →
      proc'.held = some m → parseMessageUI m = some ui →
      (s.peers m.replicaID).tryCaptureUI ui.counter = .new q →
      s'.peers = Function.update s.peers m.replicaID q → PeerEffect s s' g g'
  | release {top : Top} {frames : List Frame} {m : Message} {res : Except String Bool} :
      g = .handler top frames (.peerRelease m res) →
      g' = some (.handler top frames (.returned res)) →
      s'.peers = Function.update s.peers m.replicaID (s.peers m.replicaID).releaseUI →
      PeerEffect s s' g g'

section Move

variable {c : Config Replica Goroutine ReplicaEvent} {i : Nat} {g : Goroutine} {s' : Replica}
  {g' : Option Goroutine} {forks : List Goroutine} {es : List ReplicaEvent}

/-- No peer's last released UI decreases. -/
theorem PeerEffect.released_mono (h : PeerInv c) (he : PeerEffect c.shared s' g g') (r : Nat) :
    (c.shared.peers r).lastReleasedCV ≤ (s'.peers r).lastReleasedCV := by
  cases he with
  | keep hp _ => rw [hp]
  | capture _ _ _ _ hq hp =>
    obtain ⟨-, -, rfl⟩ :=
      (PeerState.tryCaptureUI_new_iff _ _ (PeerState.tryCaptureUI_new_pos hq)).mp hq
    rw [hp, Function.update_apply]
    split_ifs with hr
    · subst hr
      exact Nat.le_refl _
    · exact Nat.le_refl _
  | release _ _ hp =>
    rw [hp, Function.update_apply]
    split_ifs with hr
    · subst hr
      exact h.released_le _
    · exact Nat.le_refl _

/-- The peer state of a replica that a goroutine other than the moved one holds a UI of is
kept. -/
theorem PeerEffect.peers_of_other (h : SeqInv c) (hi : c.threads[i]? = some g)
    (he : PeerEffect c.shared s' g g') {j : Nat} {u : Goroutine} {m : Message} (hji : j ≠ i)
    (hj : c.threads[j]? = some u) (hum : u.held = some m) :
    s'.peers m.replicaID = c.shared.peers m.replicaID := by
  have hu : u.holds m.replicaID := heldBy_eq_true.mpr ⟨m, hum, rfl⟩
  cases he with
  | keep hp _ => rw [hp]
  | capture _ _ _ _ hq hp =>
    rw [hp, Function.update_apply, if_neg]
    -- the captured replica has no holder
    intro hr
    have hzero := h.countP_holds_eq_zero hq
    rw [← hr, List.countP_eq_zero] at hzero
    exact hzero u (List.mem_of_getElem? hj) hu
  | @release top frames m' res hg _ hp =>
    rw [hp, Function.update_apply, if_neg]
    -- the released replica has one holder, the moved goroutine
    intro hr
    subst hg
    have hg : (Goroutine.handler top frames (.peerRelease m' res)).holds m.replicaID :=
      heldBy_eq_true.mpr ⟨m', rfl, hr.symm⟩
    have := two_le_countP hji hj hi hu hg
    have := h.one_holder m.replicaID
    omega

/-- A move that keeps the peers and what the moved goroutine holds keeps the peer part of the
invariant. -/
theorem PeerInv.keep (h : PeerInv c) (hi : c.threads[i]? = some g) (hg : Grows c.shared s')
    (hforks : ∀ u ∈ forks, u.held = none) (hp : s'.peers = c.shared.peers)
    (hheld : g'.bind Goroutine.held = g.held) :
    PeerInv ⟨s', moveThread c.threads i g' forks, c.trace ++ es⟩ := by
  refine ⟨fun r => ?_, fun r => ?_, fun r hr => ?_, fun r u hu hle => ?_⟩
  · dsimp only
    rw [hp]
    exact h.released_le r
  · dsimp only
    rw [countP_holds_keep r hi hforks hheld]
    exact h.one_holder r
  · dsimp only at hr ⊢
    rw [countP_holds_keep r hi hforks hheld] at hr
    rw [hp]
    exact h.free r hr
  · dsimp only at hle ⊢
    rw [hp] at hle
    exact (h.evidence r u hu hle).mono hg (List.prefix_append _ _)

/-- A capture makes the moved goroutine the one holder of the captured replica, and releases
nothing. -/
theorem PeerInv.capture (h : SeqInv c) (hi : c.threads[i]? = some g) (hg : Grows c.shared s')
    (hforks : ∀ u ∈ forks, u.held = none) {m : Message} {cv : Nat} {q : PeerState}
    (hheld : g.held = none) (hheld' : g'.bind Goroutine.held = some m)
    (hq : (c.shared.peers m.replicaID).tryCaptureUI cv = .new q)
    (hp : s'.peers = Function.update c.shared.peers m.replicaID q) :
    PeerInv ⟨s', moveThread c.threads i g' forks, c.trace ++ es⟩ := by
  have hzero := h.countP_holds_eq_zero hq
  obtain ⟨hlt, -, rfl⟩ :=
    (PeerState.tryCaptureUI_new_iff _ _ (PeerState.tryCaptureUI_new_pos hq)).mp hq
  have hcount (r : Nat) : (moveThread c.threads i g' forks).countP (Goroutine.holds r) =
      c.threads.countP (Goroutine.holds r) + if m.replicaID = r then 1 else 0 := by
    have := countP_holds_moveThread g' r hi hforks
    simpa [Goroutine.holds, hheld, hheld', heldBy] using this
  have hrel (r : Nat) : (s'.peers r).lastReleasedCV = (c.shared.peers r).lastReleasedCV := by
    rw [hp, Function.update_apply]
    split_ifs with hr
    · subst hr
      rfl
    · rfl
  refine ⟨fun r => ?_, fun r => ?_, fun r hr => ?_, fun r u hu hle => ?_⟩
  · dsimp only
    by_cases hr : r = m.replicaID
    · subst hr
      have := h.released_le m.replicaID
      rw [hp, Function.update_self]
      dsimp only
      omega
    · rw [hp, Function.update_of_ne hr]
      exact h.released_le r
  · dsimp only
    rw [hcount]
    by_cases hr : m.replicaID = r
    · subst hr
      rw [hzero, if_pos rfl]
    · rw [if_neg hr, Nat.add_zero]
      exact h.one_holder r
  · dsimp only at hr ⊢
    rw [hcount] at hr
    by_cases hr' : r = m.replicaID
    · subst hr'
      simp at hr
    · rw [if_neg (Ne.symm hr'), Nat.add_zero] at hr
      rw [hp, Function.update_of_ne hr']
      exact h.free r hr
  · dsimp only at hle ⊢
    rw [hrel] at hle
    exact (h.evidence r u hu hle).mono hg (List.prefix_append _ _)

/-- A release leaves the released replica without a holder, with its last captured UI released;
that UI's evidence is the released message, which its processing settled. -/
theorem PeerInv.release (h : SeqInv c) (hi : c.threads[i]? = some g) (hg : Grows c.shared s')
    (hforks : ∀ u ∈ forks, u.held = none) {top : Top} {frames : List Frame} {m : Message}
    {res : Except String Bool} (hg₀ : g = .handler top frames (.peerRelease m res))
    (hg' : g' = some (.handler top frames (.returned res)))
    (hp : s'.peers = Function.update c.shared.peers m.replicaID (c.shared.peers m.replicaID).releaseUI) :
    PeerInv ⟨s', moveThread c.threads i g' forks, c.trace ++ es⟩ := by
  subst hg₀ hg'
  have hgo := h.goroutines _ (List.mem_of_getElem? hi)
  obtain ⟨hcert, ui, hui, hcap, hrel⟩ := hgo.held rfl
  obtain ⟨M, cur, -, -, rfl, hsettled, -⟩ := hgo
  have hcount (r : Nat) :
      (moveThread c.threads i (some (.handler top frames (.returned res))) forks).countP
        (Goroutine.holds r) + (if m.replicaID = r then 1 else 0) =
      c.threads.countP (Goroutine.holds r) := by
    have := countP_holds_moveThread (some (.handler top frames (.returned res))) r hi
      hforks
    simpa [Goroutine.holds, Goroutine.held, Proc.held, heldBy] using this
  refine ⟨fun r => ?_, fun r => ?_, fun r hr => ?_, fun r u hu hle => ?_⟩
  · dsimp only
    by_cases hr : r = m.replicaID
    · subst hr
      rw [hp, Function.update_self]
      exact Nat.le_refl _
    · rw [hp, Function.update_of_ne hr]
      exact h.released_le r
  · have := hcount r
    have := h.one_holder r
    dsimp only
    omega
  · dsimp only at hr ⊢
    by_cases hr' : r = m.replicaID
    · subst hr'
      rw [hp, Function.update_self]
      rfl
    · have := hcount r
      rw [if_neg (Ne.symm hr')] at this
      rw [hp, Function.update_of_ne hr']
      exact h.free r (by omega)
  · dsimp only at hle ⊢
    by_cases hr : r = m.replicaID
    · subst hr
      rw [hp, Function.update_self] at hle
      dsimp only [PeerState.releaseUI] at hle
      by_cases hu' : u ≤ (c.shared.peers m.replicaID).lastReleasedCV
      · exact (h.evidence _ u hu hu').mono hg (List.prefix_append _ _)
      · -- the released UI is the message's own
        have hu₀ : u = ui.counter := by omega
        subst hu₀
        exact ⟨m, hcert.mono hg.log (List.prefix_append _ _), rfl, by rw [hui]; rfl,
          hsettled.mono hg⟩
    · rw [hp, Function.update_of_ne hr] at hle
      exact (h.evidence r u hu hle).mono hg (List.prefix_append _ _)

/-- The peer part of the invariant survives every move, whatever it does to the peers. -/
theorem PeerInv.of_effect (h : SeqInv c) (hi : c.threads[i]? = some g) (hg : Grows c.shared s')
    (hforks : ∀ u ∈ forks, u.held = none) (he : PeerEffect c.shared s' g g') :
    PeerInv ⟨s', moveThread c.threads i g' forks, c.trace ++ es⟩ := by
  cases he with
  | keep hp hheld => exact h.toPeerInv.keep hi hg hforks hp hheld
  | capture hg₀ hg' hheld' _ hq hp =>
    subst hg₀ hg'
    exact PeerInv.capture h hi hg hforks rfl hheld' hq hp
  | release hg₀ hg' hp => exact PeerInv.release h hi hg hforks hg₀ hg' hp

/-- The log after a step: as it was, or with one more message that fits its types. -/
def LogGrows (l l' : List Message) : Prop :=
  l' = l ∨ ∃ m', l' = l ++ [m'] ∧ m'.InRange ∧ PrepareUIPos m'

theorem LogGrows.prefix {l l' : List Message} (h : LogGrows l l') : l <+: l' := by
  rcases h with rfl | ⟨m', rfl, -⟩
  · exact List.prefix_refl _
  · exact List.prefix_append _ _

theorem LogGrows.ok {l l' : List Message} (h : LogGrows l l') :
    ∀ m ∈ l', m ∉ l → m.InRange ∧ PrepareUIPos m := by
  intro m hm hn
  rcases h with rfl | ⟨m', rfl, hm'⟩
  · exact absurd hm hn
  · rcases List.mem_append.mp hm with hm | hm
    · exact absurd hm hn
    · rw [List.mem_singleton.mp hm]
      exact hm'

/-- What a move must show for the invariant to survive it: its effect on the peers; that it
advances the clients and grows the log by messages that fit their types; that the messages it
accepts fit theirs; and the facts of the goroutines it leaves. -/
structure MoveOk (c : Config Replica Goroutine ReplicaEvent) (g : Goroutine) (s' : Replica)
    (g' : Option Goroutine) (forks : List Goroutine) (es : List ReplicaEvent) : Prop where
  effect : PeerEffect c.shared s' g g'
  seq : Replica.SeqsAdvance c.shared s'
  log : LogGrows c.shared.log s'.log
  events : ∀ m, ReplicaEvent.accepted m ∈ es → m.InRange ∧ PrepareUIPos m
  moved : ∀ u, g' = some u → GoroutineOk s' (c.trace ++ es) u
  forks_held : ∀ u ∈ forks, u.held = none
  forks_ok : ∀ u ∈ forks, GoroutineOk s' (c.trace ++ es) u

/-- **The move rule**: the invariant survives every move that shows `MoveOk`. -/
theorem SeqInv.move (h : SeqInv c) (hi : c.threads[i]? = some g)
    (hmv : MoveOk c g s' g' forks es) :
    SeqInv ⟨s', moveThread c.threads i g' forks, c.trace ++ es⟩ := by
  have hg : Grows c.shared s' :=
    ⟨fun cl => (hmv.seq cl (h.valid cl)).2, hmv.effect.released_mono h.toPeerInv, hmv.log.prefix⟩
  refine ⟨PeerInv.of_effect h hi hg hmv.forks_held hmv.effect,
    fun cl => (hmv.seq cl (h.valid cl)).1, ?_, ?_, ?_⟩
  · intro m hm
    rcases List.mem_append.mp hm with hm | hm
    · exact h.accepted_ok m hm
    · exact hmv.events m hm
  · intro m hm
    by_cases hold : m ∈ c.shared.log
    · exact h.log_ok m hold
    · exact hmv.log.ok m hm hold
  · intro u hu
    rcases mem_moveThread_cases hu with ⟨j, hji, hj⟩ | hu | hu
    · -- another goroutine: its facts only grow
      exact (h.goroutines u (List.mem_of_getElem? hj)).mono hg (List.prefix_append _ _)
        fun m hum => hmv.effect.peers_of_other h hi hji hj hum
    · exact hmv.moved u hu
    · exact hmv.forks_ok u hu

end Move

theorem Grows.of_eq {s s' : Replica} (hcl : s'.clients = s.clients) (hp : s'.peers = s.peers)
    (hlog : s'.log = s.log) : Grows s s' := by
  refine ⟨fun cl => ?_, fun r => ?_, ?_⟩
  · rw [hcl]
    exact SeqState.Le.refl _
  · rw [hp]
  · rw [hlog]

/-- A call of the collector that never returns keeps its goroutine where it is and changes only
`collectorHung`. -/
theorem MoveOk.hang {c : Config Replica Goroutine ReplicaEvent} {g : Goroutine} (h : SeqInv c)
    (hg : g ∈ c.threads) : MoveOk c g { c.shared with collectorHung := true } (some g) [] [] where
  effect := .keep rfl rfl
  seq := Replica.SeqsAdvance.of_seq_eq fun _ => rfl
  log := .inl rfl
  events _ hm := absurd hm List.not_mem_nil
  moved u hu := by
    cases hu
    exact (h.goroutines g hg).mono (Grows.of_eq rfl rfl rfl) (List.prefix_append _ _)
      fun _ _ => rfl
  forks_held _ hu := absurd hu List.not_mem_nil
  forks_ok _ hu := absurd hu List.not_mem_nil

/-- The environment starts goroutines that hold nothing, and changes neither the clients, the
peers nor the log. -/
theorem SeqInv.spawn {c : Config Replica Goroutine ReplicaEvent} (h : SeqInv c) {s' : Replica}
    {forks : List Goroutine} (hcl : s'.clients = c.shared.clients)
    (hp : s'.peers = c.shared.peers) (hlog : s'.log = c.shared.log)
    (hforks : ∀ u ∈ forks, u.held = none ∧ GoroutineOk s' c.trace u) :
    SeqInv ⟨s', c.threads ++ forks, c.trace⟩ := by
  have hg := Grows.of_eq hcl hp hlog
  have hcount (r : Nat) :
      (c.threads ++ forks).countP (Goroutine.holds r) = c.threads.countP (Goroutine.holds r) := by
    rw [List.countP_append, Nat.add_eq_left, List.countP_eq_zero]
    intro u hu
    simp [Goroutine.holds, (hforks u hu).1, heldBy]
  refine ⟨⟨fun r => ?_, fun r => ?_, fun r hr => ?_, fun r u hu hle => ?_⟩,
    fun cl => ?_, h.accepted_ok, ?_, fun u hu => ?_⟩
  · dsimp only
    rw [hp]
    exact h.released_le r
  · dsimp only
    rw [hcount]
    exact h.one_holder r
  · dsimp only at hr ⊢
    rw [hcount] at hr
    rw [hp]
    exact h.free r hr
  · dsimp only at hle ⊢
    rw [hp] at hle
    exact (h.evidence r u hu hle).mono hg (List.prefix_refl _)
  · dsimp only
    rw [hcl]
    exact h.valid cl
  · dsimp only
    rw [hlog]
    exact h.log_ok
  · rcases List.mem_append.mp hu with hu | hu
    · exact (h.goroutines u hu).mono hg (List.prefix_refl _) fun m _ => by rw [hp]
    · exact (hforks u hu).2

end MinBFT.Core
