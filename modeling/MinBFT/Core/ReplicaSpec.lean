import MinBFT.Core.Replica

/-!
# What each critical section of a replica changes

Spec lemmas for the operations of `Replica`: for each, what it does to the four counters of every
client's `seqState`, to the UI counters of the peers, and to the message log. The invariants of
the replica's runs use these lemmas and do not unfold the operations.

* `SeqsAdvance s s'`: a client whose counters are in order (`SeqState.Valid`) keeps them in order,
  and none of them decreases. Every operation that returns advances them.
* The peers change only in `captureUI` (`captureUI_eq_new`) and `releaseUI`.
* The log changes only in `generateCertified` and `generateSigned`, which append the message
  they are given, with its UI or signature (`generateCertified_eq_ok`, `generateSigned_eq_ok`).
* No operation of a call changes the history of validated messages, which only a stream
  handler's validation extends (`recordValidated`).
-/

namespace MinBFT.Core

open MinBFT.Messages MinBFT.Usig MinBFT.System

namespace Replica

variable {P : ReplicaParams}

/-- From `s` to `s'`, every client whose sequence counters are in order keeps them in order, and
none of them decreases. -/
def SeqsAdvance (s s' : Replica) : Prop :=
  ∀ cl, (s.clients cl).seq.Valid →
    (s'.clients cl).seq.Valid ∧ (s.clients cl).seq.Le (s'.clients cl).seq

theorem SeqsAdvance.refl (s : Replica) : SeqsAdvance s s :=
  fun _ hv => ⟨hv, SeqState.Le.refl _⟩

theorem SeqsAdvance.trans {a b c : Replica} (h₁ : SeqsAdvance a b) (h₂ : SeqsAdvance b c) :
    SeqsAdvance a c := by
  intro cl hv
  obtain ⟨hv', hle⟩ := h₁ cl hv
  obtain ⟨hv'', hle'⟩ := h₂ cl hv'
  exact ⟨hv'', hle.trans hle'⟩

/-- A change that keeps every client's sequence state advances them. -/
theorem SeqsAdvance.of_seq_eq {s s' : Replica}
    (h : ∀ cl, (s'.clients cl).seq = (s.clients cl).seq) : SeqsAdvance s s' := by
  intro cl hv
  rw [h cl]
  exact ⟨hv, SeqState.Le.refl _⟩

@[simp] theorem updateClient_peers (s : Replica) (cid : Nat) (g : ClientState → ClientState) :
    (s.updateClient cid g).peers = s.peers := rfl

@[simp] theorem updateClient_log (s : Replica) (cid : Nat) (g : ClientState → ClientState) :
    (s.updateClient cid g).log = s.log := rfl

theorem updateClient_clients (s : Replica) (cid : Nat) (g : ClientState → ClientState) (cl : Nat) :
    (s.updateClient cid g).clients cl = if cl = cid then g (s.clients cid) else s.clients cl := by
  simp only [updateClient, Function.update_apply]

/-- Changing one client by a step of its sequence state that keeps it in order and does not
decrease it advances every client. -/
theorem seqsAdvance_updateClient (s : Replica) (cid : Nat) (g : ClientState → ClientState)
    (h : (s.clients cid).seq.Valid →
      (g (s.clients cid)).seq.Valid ∧ (s.clients cid).seq.Le (g (s.clients cid)).seq) :
    SeqsAdvance s (s.updateClient cid g) := by
  intro cl hv
  rw [updateClient_clients]
  split_ifs with hcl
  · subst hcl
    exact h hv
  · exact ⟨hv, SeqState.Le.refl _⟩

/-- A change of a client's other fields keeps every sequence state. -/
theorem seqsAdvance_updateClient_of_seq (s : Replica) (cid : Nat) (g : ClientState → ClientState)
    (hg : ∀ c, (g c).seq = c.seq) : SeqsAdvance s (s.updateClient cid g) :=
  seqsAdvance_updateClient s cid g fun hv => by
    rw [hg]
    exact ⟨hv, SeqState.Le.refl _⟩

/-! ## Request sequences -/

theorem captureRequestSeq_eq_new {s s' : Replica} {req : Request}
    (h : s.captureRequestSeq req = .new s') :
    SeqsAdvance s s' ∧ req.sequence = (s'.clients req.clientID).seq.lastCapturedSeq ∧
      s'.peers = s.peers ∧ s'.log = s.log := by
  unfold captureRequestSeq at h
  split at h
  · cases h
  · cases h
  · next q hq =>
    cases h
    have hcap : (s.clients req.clientID).seq.Valid → q.Valid ∧ (s.clients req.clientID).seq.Le q :=
      fun hv => SeqState.tryCaptureRequestSeq_valid hv hq
    obtain ⟨-, -, rfl⟩ := (SeqState.tryCaptureRequestSeq_new_iff _ _ _).mp hq
    exact ⟨seqsAdvance_updateClient _ _ _ hcap,
      by simp [updateClient_clients], rfl, rfl⟩

theorem captureRequestSeq_eq_old {s : Replica} {req : Request}
    (h : s.captureRequestSeq req = .old) :
    req.sequence ≤ (s.clients req.clientID).seq.lastCapturedSeq := by
  unfold captureRequestSeq at h
  split at h
  · cases h
  · next hq => exact ((SeqState.tryCaptureRequestSeq_old_iff _ _).mp hq).1
  · cases h

theorem releaseRequestSeq_seqsAdvance (s : Replica) (req : Request) :
    SeqsAdvance s (s.releaseRequestSeq req) :=
  seqsAdvance_updateClient _ _ _ SeqState.releaseRequestSeq_valid

@[simp] theorem releaseRequestSeq_peers (s : Replica) (req : Request) :
    (s.releaseRequestSeq req).peers = s.peers := rfl

@[simp] theorem releaseRequestSeq_log (s : Replica) (req : Request) :
    (s.releaseRequestSeq req).log = s.log := rfl

/-- `PrepareRequestSeq` that returns leaves the request's ID prepared. -/
theorem prepareSeq_eq_ok {s s' : Replica} {req : Request} {new : Bool}
    (h : s.prepareSeq req = .ok (new, s')) :
    SeqsAdvance s s' ∧ req.sequence ≤ (s'.clients req.clientID).seq.lastPreparedSeq ∧
      s'.peers = s.peers ∧ s'.log = s.log := by
  unfold prepareSeq at h
  split at h
  · cases h
  · next new' q hq =>
    simp only [Outcome.ok.injEq, Prod.mk.injEq] at h
    obtain ⟨rfl, rfl⟩ := h
    have hq₂ : q = ((s.clients req.clientID).seq.prepareRequestSeq req.sequence).2 := by rw [hq]
    have hle := SeqState.le_prepareRequestSeq_of_ok (by rw [hq])
    subst hq₂
    exact ⟨seqsAdvance_updateClient _ _ _ fun hv => SeqState.prepareRequestSeq_valid hv _,
      by simpa [updateClient_clients] using hle, rfl, rfl⟩

@[simp] theorem addPending_clients (s : Replica) (req : Request) :
    (s.addPending req).clients = s.clients := rfl

@[simp] theorem addPending_peers (s : Replica) (req : Request) :
    (s.addPending req).peers = s.peers := rfl

@[simp] theorem addPending_log (s : Replica) (req : Request) : (s.addPending req).log = s.log :=
  rfl

/-! ## Timers -/

theorem startReqTimer_seqsAdvance (s : Replica) (req : Request) (view : Nat) :
    SeqsAdvance s (s.startReqTimer P req view) :=
  SeqsAdvance.of_seq_eq fun cl => by
    unfold startReqTimer
    simp only [updateClient_clients]
    split_ifs with hcl
    · subst hcl
      rfl
    · rfl

@[simp] theorem startReqTimer_peers (s : Replica) (req : Request) (view : Nat) :
    (s.startReqTimer P req view).peers = s.peers := rfl

@[simp] theorem startReqTimer_log (s : Replica) (req : Request) (view : Nat) :
    (s.startReqTimer P req view).log = s.log := rfl

theorem startPrepTimer_seqsAdvance (s : Replica) (req : Request) (view : Nat) :
    SeqsAdvance s (s.startPrepTimer P req view) :=
  SeqsAdvance.of_seq_eq fun cl => by
    unfold startPrepTimer
    simp only [updateClient_clients]
    split_ifs with hcl
    · subst hcl
      rfl
    · rfl

@[simp] theorem startPrepTimer_peers (s : Replica) (req : Request) (view : Nat) :
    (s.startPrepTimer P req view).peers = s.peers := rfl

@[simp] theorem startPrepTimer_log (s : Replica) (req : Request) (view : Nat) :
    (s.startPrepTimer P req view).log = s.log := rfl

@[simp] theorem stopPrepTimer_clients (s : Replica) (req : Request) :
    (s.stopPrepTimer req).clients = s.clients := rfl

@[simp] theorem stopPrepTimer_peers (s : Replica) (req : Request) :
    (s.stopPrepTimer req).peers = s.peers := rfl

@[simp] theorem stopPrepTimer_log (s : Replica) (req : Request) : (s.stopPrepTimer req).log = s.log :=
  rfl

/-! ## Generated messages -/

/-- A certified message that is generated gets the USIG's next UI and goes to the end of the
log. -/
theorem generateCertified_eq_ok {s s' : Replica} {m : Message} (h : s.generateCertified P m = .ok s') :
    ∃ ui m', m.setUIBytes ui = some m' ∧
      s' = { s with usigCount := s.usigCount + 1, log := s.log ++ [m'] } := by
  unfold generateCertified at h
  split at h
  · cases h
  · split at h
    · cases h
    · next ui _ =>
      split at h
      · cases h
      · next m' hm' =>
        cases h
        exact ⟨ui, m', hm', rfl⟩

/-- A signed message that is generated changes no sequence state and no peer, and goes to the
end of the log with its signature, unless it is a Reply. -/
theorem generateSigned_eq_ok {s s' : Replica} {m : Message} (h : s.generateSigned P m = .ok s') :
    SeqsAdvance s s' ∧ s'.peers = s.peers ∧
      (s'.log = s.log ∨ ∃ sig m', m.setSignature sig = some m' ∧ s'.log = s.log ++ [m']) := by
  unfold generateSigned at h
  split at h
  · cases h
  · split at h
    · cases h
    · next sig _ =>
      cases hm : m.setSignature sig with
      | none =>
        rw [hm] at h
        cases h
      | some m' =>
        rw [hm] at h
        cases m' with
        | reply r =>
          -- a Reply goes to its client's reply state
          simp only at h
          split at h
          · cases h
          · cases h
            exact ⟨seqsAdvance_updateClient_of_seq _ _ _ fun _ => rfl, rfl, .inl rfl⟩
        | _ =>
          cases h
          exact ⟨SeqsAdvance.refl _, rfl, .inr ⟨sig, _, hm, rfl⟩⟩

/-! ## UIs of peers -/

/-- A capture of the message's UI takes it from the peer's state. -/
theorem captureUI_eq_new {s s' : Replica} {m : Message} (h : s.captureUI m = .ok (.new s')) :
    ∃ ui q, parseMessageUI m = some ui ∧ (s.peers m.replicaID).tryCaptureUI ui.counter = .new q ∧
      s' = s.setPeer m.replicaID q := by
  unfold captureUI at h
  split at h
  · cases h
  · next ui hui =>
    simp only [Outcome.ok.injEq] at h
    split at h
    · cases h
    · cases h
    · next q hq =>
      cases h
      exact ⟨ui, q, hui, hq, rfl⟩

theorem captureUI_eq_old {s : Replica} {m : Message} (h : s.captureUI m = .ok .old) :
    ∃ ui, parseMessageUI m = some ui ∧ (s.peers m.replicaID).tryCaptureUI ui.counter = .old := by
  unfold captureUI at h
  split at h
  · cases h
  · next ui hui =>
    simp only [Outcome.ok.injEq] at h
    split at h
    · cases h
    · next hq => exact ⟨ui, hui, hq⟩
    · cases h

@[simp] theorem setPeer_clients (s : Replica) (r : Nat) (ps : PeerState) :
    (s.setPeer r ps).clients = s.clients := rfl

@[simp] theorem setPeer_log (s : Replica) (r : Nat) (ps : PeerState) :
    (s.setPeer r ps).log = s.log := rfl

@[simp] theorem releaseUI_clients (s : Replica) (m : Message) :
    (s.releaseUI m).clients = s.clients := rfl

@[simp] theorem releaseUI_log (s : Replica) (m : Message) : (s.releaseUI m).log = s.log := rfl

/-! ## Commitments -/

/-- A call of the collector that returns advances the clients' sequences, through the
retirement of the Prepare's request, and keeps the peers and the log. -/
theorem collect_eq_ok {s s' : Replica} {r : Nat} {p : Prepare} {res : Except String Unit}
    {ex : Option Request} (h : s.collect P r p = .ok (res, s', ex)) :
    SeqsAdvance s s' ∧ s'.peers = s.peers ∧ s'.log = s.log := by
  obtain ⟨⟨res', c, ex'⟩, hc, hk⟩ := Outcome.bind_eq_ok h
  simp only [Outcome.ok.injEq, Prod.mk.injEq] at hk
  obtain ⟨-, rfl, -⟩ := hk
  refine ⟨?_, rfl, rfl⟩
  rcases collectCommitment_clients hc with hcl | ⟨new, -, hcl⟩
  · exact SeqsAdvance.of_seq_eq fun cl => by simp [withCommitState, hcl, commitState]
  · intro cl hv
    by_cases hcid : cl = p.request.clientID
    · subst hcid
      simpa [withCommitState, hcl, commitState] using
        SeqState.retireRequestSeq_valid hv p.request.sequence
    · have : (s.withCommitState c).clients cl = s.clients cl := by
        simp [withCommitState, hcl, commitState, hcid]
      rw [this]
      exact ⟨hv, SeqState.Le.refl _⟩

/-- `collect` empties the pending entry of the client whose request it hands on for execution,
whatever that entry holds, and leaves the pending list as it was otherwise. -/
theorem collect_pendingReq {s s' : Replica} {r : Nat} {p : Prepare} {res : Except String Unit}
    {ex : Option Request} (h : s.collect P r p = .ok (res, s', ex)) :
    (ex = none ∧ s'.pendingReq = s.pendingReq) ∨
      (ex = some p.request ∧
        s'.pendingReq = Function.update s.pendingReq p.request.clientID none) := by
  obtain ⟨⟨res', c, ex'⟩, hc, hk⟩ := Outcome.bind_eq_ok h
  simp only [Outcome.ok.injEq, Prod.mk.injEq] at hk
  obtain ⟨-, rfl, rfl⟩ := hk
  exact collectCommitment_pendingReq hc

/-! ## View changes -/

/-- A view change that is requested appends the signed ReqViewChange to the log, and changes no
sequence state and no peer. -/
theorem requestViewChange_eq_ok {s s' : Replica} {newView : Nat} {ok : Bool}
    (h : s.requestViewChange P newView = .ok (ok, s')) :
    SeqsAdvance s s' ∧ s'.peers = s.peers ∧
      (s'.log = s.log ∨
        ∃ sig m', (Message.reqViewChange (newReqViewChange P.id newView)).setSignature sig = some m' ∧
          s'.log = s.log ++ [m']) := by
  unfold requestViewChange at h
  split_ifs at h with h₁ h₂
  · cases h
    exact ⟨SeqsAdvance.refl _, rfl, .inl rfl⟩
  · cases h
    exact ⟨SeqsAdvance.refl _, rfl, .inl rfl⟩
  · obtain ⟨s₁, hs₁, hk⟩ := Outcome.bind_eq_ok h
    cases hk
    have := generateSigned_eq_ok hs₁
    exact this

/-! ## The history of validated messages -/

theorem captureRequestSeq_validated {s s' : Replica} {req : Request}
    (h : s.captureRequestSeq req = .new s') : s'.validated = s.validated := by
  unfold captureRequestSeq at h
  split at h <;> cases h
  rfl

theorem prepareSeq_validated {s s' : Replica} {req : Request} {new : Bool}
    (h : s.prepareSeq req = .ok (new, s')) : s'.validated = s.validated := by
  unfold prepareSeq at h
  split at h <;> cases h
  rfl

theorem collect_validated {s s' : Replica} {r : Nat} {p : Prepare} {res : Except String Unit}
    {ex : Option Request} (h : s.collect P r p = .ok (res, s', ex)) : s'.validated = s.validated := by
  obtain ⟨_, -, hk⟩ := Outcome.bind_eq_ok h
  cases hk
  rfl

theorem generateSigned_validated {s s' : Replica} {m : Message} (h : s.generateSigned P m = .ok s') :
    s'.validated = s.validated := by
  unfold generateSigned at h
  repeat' split at h
  all_goals cases h
  all_goals rfl

theorem requestViewChange_validated {s s' : Replica} {newView : Nat} {ok : Bool}
    (h : s.requestViewChange P newView = .ok (ok, s')) : s'.validated = s.validated := by
  unfold requestViewChange at h
  split_ifs at h
  · cases h
    rfl
  · cases h
    rfl
  · obtain ⟨s₁, hs₁, hk⟩ := Outcome.bind_eq_ok h
    cases hk
    rw [generateSigned_validated hs₁]

end Replica

end MinBFT.Core
