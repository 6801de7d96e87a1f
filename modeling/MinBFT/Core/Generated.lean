import MinBFT.Core.Replica
import MinBFT.System.Threads

/-!
# Concurrent calls of `handleGeneratedMessage`

Model of the closure `makeGeneratedMessageHandler` (`core/message-handling.go`) as its calls
run, each in the goroutine that generated its message:

```
switch msg := msg.(type) {
case messages.CertifiedMessage:
    uiLock.Lock()
    defer uiLock.Unlock()      // runs when the closure returns, after consume
    assignUI(msg)
case messages.SignedMessage:
    sign(msg)
}
consume(msg)
```

`Replica.assignUI` (`makeUIAssigner` with the USIG behind it), `Replica.signMessage`
(`makeMessageSigner`) and `Replica.consume` (`makeGeneratedMessageConsumer`) are the three
calls; `Replica.generateCertified` and `Replica.generateSigned`, the atomic steps with which the
replica model runs a generated message, are one uninterrupted call
(`generateCertified_eq_assignUI`, `generateSigned_eq_signMessage`). `genProgram` runs any number
of calls concurrently, one atomic step per call of the three and per lock operation; a panic stops
every call.

**`generatedUIs_in_log_order`**: when the USIG hands out the counters `1, 2, 3, …`
(`ConsecutiveUsig`), in every interleaving the certified messages of the log carry the UI
counters `1, 2, …, k`, in log order. `uiLock` is held from before `assignUI` until after
`consume`, so no other UI is assigned between a message's UI and its place in the log. The
inductive invariant is `GenInv`.
-/

namespace MinBFT.Core

open MinBFT.Messages MinBFT.Usig MinBFT.System

namespace Replica

variable (P : ReplicaParams)

/-- `makeUIAssigner`: the USIG's next UI for the message's authenticated bytes, whose error
panics, set on the message. The USIG has made `usigCount` UIs before. -/
def assignUI (s : Replica) (m : Message) : Outcome (Message × Replica) :=
  match authenBytes P.sha256 m with
  | none => .panic nilDereference
  | some bytes =>
    match P.createUI s.usigCount bytes with
    | .error e => .panic e
    | .ok ui =>
      match m.setUIBytes ui with
      | none => .panic nilDereference
      | some m => .ok (m, { s with usigCount := s.usigCount + 1 })

/-- `makeMessageSigner`: the replica's signature of the message's authenticated bytes, whose
error panics, set on the message. -/
def signMessage (m : Message) : Outcome Message :=
  match authenBytes P.sha256 m with
  | none => .panic nilDereference
  | some bytes =>
    match P.sign bytes with
    | .error e => .panic e
    | .ok sig =>
      match m.setSignature sig with
      | none => .panic nilDereference
      | some m => .ok m

/-- `makeGeneratedMessageConsumer`: a Reply goes to its client's `AddReply`, whose error panics;
any other replica message is appended to the log. -/
def consume (s : Replica) : Message → Outcome Replica
  | .reply r =>
    match (s.clients r.clientID).reply.addReply r with
    | (.error e, _) => .panic ("Failed to consume generated Reply: " ++ e)
    | (.ok (), q) => .ok (s.updateClient r.clientID fun c => { c with reply := q })
  | .request _ => .panic "Unknown message type"
  | m => .ok { s with log := s.log ++ [m] }

/-- A certified message is appended to the log. -/
theorem consume_certified (s : Replica) {m : Message} (hm : m.isCertified = true) :
    s.consume m = .ok { s with log := s.log ++ [m] } := by
  cases m <;> first | rfl | cases hm

/-- `consume` that returns leaves the USIG as it was and appends to the log at most the message
itself. -/
theorem consume_eq_ok {s s' : Replica} {m : Message} (h : s.consume m = .ok s') :
    s'.usigCount = s.usigCount ∧ (s'.log = s.log ∨ s'.log = s.log ++ [m]) := by
  cases m with
  | reply r =>
    simp only [consume] at h
    split at h
    · cases h
    · cases h
      exact ⟨rfl, .inl rfl⟩
  | request _ => cases h
  | prepare _ => cases h; exact ⟨rfl, .inr rfl⟩
  | commit _ => cases h; exact ⟨rfl, .inr rfl⟩
  | reqViewChange _ => cases h; exact ⟨rfl, .inr rfl⟩

/-- A certified message generated without interruption is `assignUI` and then `consume`. -/
theorem generateCertified_eq_assignUI (s : Replica) {m : Message} (hm : m.isCertified = true) :
    s.generateCertified P m = (s.assignUI P m).bind fun (m', s') => s'.consume m' := by
  unfold generateCertified assignUI
  rcases authenBytes P.sha256 m with _ | bytes
  · rfl
  · dsimp only
    rcases P.createUI s.usigCount bytes with e | ui
    · rfl
    · dsimp only
      rcases hm' : m.setUIBytes ui with _ | m'
      · rfl
      · rw [Outcome.ok_bind, consume_certified _ (Message.setUIBytes_certified hm' hm).1]

/-- A Reply or ReqViewChange generated without interruption is `sign` and then `consume`. -/
theorem generateSigned_eq_signMessage (s : Replica) {m : Message} (hm : m.isReplica = true) :
    s.generateSigned P m = (signMessage P m).bind fun m' => s.consume m' := by
  unfold generateSigned signMessage
  rcases authenBytes P.sha256 m with _ | bytes
  · rfl
  · dsimp only
    rcases P.sign bytes with e | sig
    · rfl
    · dsimp only
      rcases hm' : m.setSignature sig with _ | m'
      · rfl
      · -- a signed message keeps its type: a Reply goes to `AddReply`, the rest to the log
        rw [Outcome.ok_bind]
        cases m with
        | request _ => cases hm
        | reply r =>
          obtain ⟨r', -, rfl⟩ := Option.map_eq_some_iff.mp hm'
          rfl
        | prepare _ => cases hm'; rfl
        | commit _ => cases hm'; rfl
        | reqViewChange v =>
          obtain ⟨v', -, rfl⟩ := Option.map_eq_some_iff.mp hm'
          rfl

/-- Signing keeps the type of a message. -/
theorem signMessage_isCertified {m m' : Message} (h : signMessage P m = .ok m') :
    m'.isCertified = m.isCertified := by
  unfold signMessage at h
  split at h
  · cases h
  · split at h
    · cases h
    · split at h
      · cases h
      · next m₁ hm₁ =>
        cases h
        exact Message.isCertified_of_setSignature hm₁

end Replica

/-! ## Concurrent calls -/

/-- Where a call of the generated message handler is. -/
inductive GenPc where
  /-- `handle(msg)` called: the type switch. -/
  | start
  /-- Holding `uiLock`, before `assignUI(msg)`. -/
  | locked
  /-- Before `consume(m)`; `holding` when the deferred `uiLock.Unlock()` is pending. -/
  | consuming (m : Message) (holding : Bool)
  /-- Consumed; the deferred `uiLock.Unlock()` is next. -/
  | unlocking
  /-- Returned. -/
  | done
  deriving DecidableEq, Repr

/-- A call of the handler with the message `msg`. -/
structure GenCall where
  msg : Message
  pc : GenPc
  deriving DecidableEq, Repr

/-- The replica and `uiLock`, with the index of the call that holds it. -/
structure GenState where
  replica : Replica
  uiLock : Option Nat := none

/-- What the calls emit besides the state. -/
inductive GenEvent where
  | panicked (msg : String)
  deriving DecidableEq, Repr

/-- After a panic the replica is stopped. -/
def GenState.crash (s : GenState) : GenState :=
  { s with replica := { s.replica with crashed := true } }

/-- The end of a call of `assignUI`, `sign` or `consume`: its result, or the panic. -/
def GenState.settle (s : GenState) (t : GenCall) :
    Outcome (GenState × GenCall) → Option (GenState × GenCall × List GenEvent)
  | .ok (s', t') => some (s', t', [])
  | .panic e => some (s.crash, t, [.panicked e])
  | .hang => none

/-- One atomic step of the call with index `i`; `none` when it is blocked or returned. -/
def genStep (P : ReplicaParams) (i : Nat) (s : GenState) (t : GenCall) :
    Option (GenState × GenCall × List GenEvent) :=
  if s.replica.crashed then none
  else match t.pc with
  | .start =>
    if t.msg.isCertified then
      -- `uiLock.Lock()` waits while another call holds the lock
      if s.uiLock = none then some ({ s with uiLock := some i }, { t with pc := .locked }, [])
      else none
    else if t.msg.isSigned then
      s.settle t ((Replica.signMessage P t.msg).bind fun m =>
        .ok (s, { t with pc := .consuming m false }))
    else some (s, { t with pc := .consuming t.msg false }, [])
  | .locked =>
    s.settle t ((s.replica.assignUI P t.msg).bind fun (m, r) =>
      .ok ({ s with replica := r }, { t with pc := .consuming m true }))
  | .consuming m holding =>
    s.settle t ((s.replica.consume m).bind fun r =>
      .ok ({ s with replica := r }, { t with pc := if holding then .unlocking else .done }))
  | .unlocking => some ({ s with uiLock := none }, { t with pc := .done }, [])
  | .done => none

/-- Any number of concurrent calls of the handler, each with a replica message. -/
def genProgram (P : ReplicaParams) : Program GenState GenCall GenEvent where
  start t := t.pc = .start ∧ t.msg.isReplica = true
  step i s t s' t' es := genStep P i s t = some (s', t', es)

/-- A call of `assignUI`, `sign` or `consume` that was settled: it panicked, or returned. -/
theorem GenState.settle_eq_some {s s' : GenState} {t t' : GenCall}
    {o : Outcome (GenState × GenCall)} {es : List GenEvent} (h : s.settle t o = some (s', t', es)) :
    (s' = s.crash ∧ t' = t) ∨ o = .ok (s', t') := by
  cases o with
  | ok p =>
    simp only [settle, Option.some.injEq, Prod.mk.injEq] at h
    obtain ⟨rfl, rfl, -⟩ := h
    exact .inr rfl
  | panic e =>
    simp only [settle, Option.some.injEq, Prod.mk.injEq] at h
    obtain ⟨rfl, rfl, -⟩ := h
    exact .inl ⟨rfl, rfl⟩
  | hang => cases h

/-- The step a call can take, by phase. -/
theorem genStep_cases {P : ReplicaParams} {i : Nat} {s s' : GenState} {t t' : GenCall}
    {es : List GenEvent} (h : genStep P i s t = some (s', t', es)) :
    (s' = s.crash ∧ t' = t) ∨
    (t.pc = .start ∧ t.msg.isCertified = true ∧ s.uiLock = none ∧
      s' = { s with uiLock := some i } ∧ t' = { t with pc := .locked }) ∨
    (∃ m, t.pc = .start ∧ t.msg.isCertified = false ∧ m.isCertified = false ∧ s' = s ∧
      t' = { t with pc := .consuming m false }) ∨
    (∃ m r, t.pc = .locked ∧ s.replica.assignUI P t.msg = .ok (m, r) ∧
      s' = { s with replica := r } ∧ t' = { t with pc := .consuming m true }) ∨
    (∃ m holding r, t.pc = .consuming m holding ∧ s.replica.consume m = .ok r ∧
      s' = { s with replica := r } ∧ t' = { t with pc := if holding then .unlocking else .done }) ∨
    (t.pc = .unlocking ∧ s' = { s with uiLock := none } ∧ t' = { t with pc := .done }) := by
  unfold genStep at h
  split at h
  · cases h
  cases hpc : t.pc with
  | start =>
    simp only [hpc] at h
    split at h
    · -- a certified message: `uiLock.Lock()`
      rename_i hcert
      split at h
      · rename_i hfree
        simp only [Option.some.injEq, Prod.mk.injEq] at h
        obtain ⟨rfl, rfl, -⟩ := h
        exact .inr (.inl ⟨rfl, hcert, hfree, rfl, rfl⟩)
      · cases h
    · rename_i hcert
      have hcert' : t.msg.isCertified = false := Bool.eq_false_iff.mpr hcert
      split at h
      · -- a signed message: `sign`
        rcases GenState.settle_eq_some h with hpanic | hok
        · exact .inl hpanic
        obtain ⟨m, hm, hk⟩ := Outcome.bind_eq_ok hok
        simp only [Outcome.ok.injEq, Prod.mk.injEq] at hk
        obtain ⟨rfl, rfl⟩ := hk
        refine .inr (.inr (.inl ⟨m, rfl, hcert', ?_, rfl, rfl⟩))
        rw [Replica.signMessage_isCertified P hm, hcert']
      · simp only [Option.some.injEq, Prod.mk.injEq] at h
        obtain ⟨rfl, rfl, -⟩ := h
        exact .inr (.inr (.inl ⟨t.msg, rfl, hcert', hcert', rfl, rfl⟩))
  | locked =>
    simp only [hpc] at h
    rcases GenState.settle_eq_some h with hpanic | hok
    · exact .inl hpanic
    obtain ⟨⟨m, r⟩, hm, hk⟩ := Outcome.bind_eq_ok hok
    simp only [Outcome.ok.injEq, Prod.mk.injEq] at hk
    obtain ⟨rfl, rfl⟩ := hk
    exact .inr (.inr (.inr (.inl ⟨m, r, rfl, hm, rfl, rfl⟩)))
  | consuming m holding =>
    simp only [hpc] at h
    rcases GenState.settle_eq_some h with hpanic | hok
    · exact .inl hpanic
    obtain ⟨r, hr, hk⟩ := Outcome.bind_eq_ok hok
    simp only [Outcome.ok.injEq, Prod.mk.injEq] at hk
    obtain ⟨rfl, rfl⟩ := hk
    exact .inr (.inr (.inr (.inr (.inl ⟨m, holding, r, rfl, hr, rfl, rfl⟩))))
  | unlocking =>
    simp only [hpc, Option.some.injEq, Prod.mk.injEq] at h
    obtain ⟨rfl, rfl, -⟩ := h
    exact .inr (.inr (.inr (.inr (.inr ⟨rfl, rfl, rfl⟩))))
  | done =>
    simp only [hpc] at h
    cases h

/-! ## The order of the UIs in the log -/

/-- The USIG behind `assignUI` hands out the counters `1, 2, 3, …`: a UI it makes after `k`
others has the counter `k + 1`. -/
def ConsecutiveUsig (P : ReplicaParams) : Prop :=
  ∀ k bytes ui, P.createUI k bytes = .ok ui →
    ∃ u, UI.unmarshalBinary ui = some u ∧ u.counter = k + 1

/-- The UI counters of the certified messages of a log, in log order (`none` for a UI that does
not decode). -/
def certifiedCounters (log : List Message) : List (Option Nat) :=
  (log.filter Message.isCertified).map fun m => (parseMessageUI m).map UI.counter

/-- A call holds `uiLock` from its `Lock` to its deferred `Unlock`. -/
def GenPc.holds : GenPc → Bool
  | .locked | .consuming _ true | .unlocking => true
  | _ => false

/-- A call whose message has its UI and is not consumed yet. -/
def GenPc.assigned : GenPc → Bool
  | .consuming _ true => true
  | _ => false

@[simp] theorem GenPc.assigned_start : GenPc.start.assigned = false := rfl
@[simp] theorem GenPc.assigned_locked : GenPc.locked.assigned = false := rfl
@[simp] theorem GenPc.assigned_consuming (m : Message) (holding : Bool) :
    (GenPc.consuming m holding).assigned = holding := by
  cases holding <;> rfl
@[simp] theorem GenPc.assigned_unlocking : GenPc.unlocking.assigned = false := rfl
@[simp] theorem GenPc.assigned_done : GenPc.done.assigned = false := rfl

/-- **Spec of `assignUI`** with a consecutive USIG: the message keeps its type and gets the UI
with the counter after the last one. -/
theorem Replica.assignUI_eq_ok {P : ReplicaParams} (hP : ConsecutiveUsig P) {s s' : Replica}
    {m m' : Message} (hm : m.isCertified = true) (h : s.assignUI P m = .ok (m', s')) :
    m'.isCertified = true ∧ (parseMessageUI m').map UI.counter = some (s.usigCount + 1) ∧
      s' = { s with usigCount := s.usigCount + 1 } := by
  unfold assignUI at h
  split at h
  · cases h
  · split at h
    · cases h
    · next ui hui =>
      split at h
      · cases h
      · next m₁ hm₁ =>
        simp only [Outcome.ok.injEq, Prod.mk.injEq] at h
        obtain ⟨rfl, rfl⟩ := h
        obtain ⟨hcert, hbytes⟩ := Message.setUIBytes_certified hm₁ hm
        obtain ⟨u, hu, hcount⟩ := hP _ _ _ hui
        exact ⟨hcert, by simp [parseMessageUI, hbytes, hu, hcount], rfl⟩

/-- The log's certified messages carry `1, 2, …, k` and one more certified message with the
next counter is appended. -/
theorem certifiedCounters_append_next {log : List Message} {m : Message}
    (h : certifiedCounters log =
      (List.range (log.filter Message.isCertified).length).map fun k => some (k + 1))
    (hm : m.isCertified = true)
    (hui : (parseMessageUI m).map UI.counter = some ((log.filter Message.isCertified).length + 1)) :
    certifiedCounters (log ++ [m]) =
      (List.range ((log ++ [m]).filter Message.isCertified).length).map fun k => some (k + 1) := by
  have hfilter : (log ++ [m]).filter Message.isCertified = log.filter Message.isCertified ++ [m] := by
    simp [List.filter_append, hm]
  rw [certifiedCounters, hfilter, List.map_append, ← certifiedCounters, h, List.length_append,
    List.length_singleton, List.range_succ, List.map_append]
  simp [hui]

/-- The invariant: `uiLock` is held by exactly the call with its index in a holding phase; a
locked call's message is certified; the message of a call past `assignUI` has the UI with the
USIG's last counter, the others none to consume; the USIG has made one UI per certified message of
the log and per assigned call; and the log's certified messages carry `1, 2, …, k`. -/
structure GenInv (c : Config GenState GenCall GenEvent) : Prop where
  lock_held : ∀ i t, c.threads[i]? = some t → t.pc.holds = true → c.shared.uiLock = some i
  lock_holder : ∀ i, c.shared.uiLock = some i → ∃ t, c.threads[i]? = some t ∧ t.pc.holds = true
  locked_certified : ∀ t ∈ c.threads, t.pc = .locked → t.msg.isCertified = true
  assigned_ui : ∀ t ∈ c.threads, ∀ m, t.pc = .consuming m true →
    m.isCertified = true ∧ (parseMessageUI m).map UI.counter = some c.shared.replica.usigCount
  plain : ∀ t ∈ c.threads, ∀ m, t.pc = .consuming m false → m.isCertified = false
  count : c.shared.replica.usigCount =
    (c.shared.replica.log.filter Message.isCertified).length +
      c.threads.countP (fun t => t.pc.assigned)
  order : certifiedCounters c.shared.replica.log =
    (List.range (c.shared.replica.log.filter Message.isCertified).length).map fun k => some (k + 1)

theorem genInv_initial {s0 : Replica} (hlog : s0.log = []) (hcount : s0.usigCount = 0) :
    GenInv (Config.initial ⟨s0, none⟩) where
  lock_held := by simp [Config.initial]
  lock_holder := by simp [Config.initial]
  locked_certified := by simp [Config.initial]
  assigned_ui := by simp [Config.initial]
  plain := by simp [Config.initial]
  count := by simp [Config.initial, hlog, hcount]
  order := by simp [Config.initial, hlog, certifiedCounters]

section Steps

variable {c : Config GenState GenCall GenEvent} {i : Nat} {t : GenCall}

/-- Two holders of the lock are one call. -/
theorem GenInv.holder_unique (hc : GenInv c) {j : Nat} {u : GenCall}
    (hi : c.threads[i]? = some t) (hj : c.threads[j]? = some u) (ht : t.pc.holds = true)
    (hu : u.pc.holds = true) : j = i := by
  have h₁ := hc.lock_held i t hi ht
  have h₂ := hc.lock_held j u hj hu
  rw [h₁] at h₂
  exact (Option.some.inj h₂).symm

/-- An assigned call holds the lock. -/
theorem GenPc.holds_of_assigned {pc : GenPc} (h : pc.assigned = true) : pc.holds = true := by
  cases pc with
  | consuming m holding => cases holding <;> simp_all [GenPc.assigned, GenPc.holds]
  | _ => cases h

/-- Besides the call `i`, which holds the lock, no call is assigned. -/
theorem GenInv.not_assigned_of_ne (hc : GenInv c) (hi : c.threads[i]? = some t)
    (ht : t.pc.holds = true) {j : Nat} {u : GenCall} (hj : c.threads[j]? = some u) (hji : j ≠ i) :
    u.pc.assigned = false := by
  by_contra hu
  exact hji (hc.holder_unique hi hj ht (GenPc.holds_of_assigned (Bool.not_eq_false _ ▸ hu)))

/-- A step of call `i` that keeps whether it holds the lock, and the lock, keeps both lock
fields. -/
theorem GenInv.locks_set (hc : GenInv c) (hi : c.threads[i]? = some t) (t' : GenCall)
    (hholds : t'.pc.holds = t.pc.holds) :
    (∀ j u, (c.threads.set i t')[j]? = some u → u.pc.holds = true → c.shared.uiLock = some j) ∧
    (∀ j, c.shared.uiLock = some j → ∃ u, (c.threads.set i t')[j]? = some u ∧ u.pc.holds = true) := by
  have hlen : i < c.threads.length := (List.getElem?_eq_some_iff.mp hi).1
  constructor
  · intro j u hj hu
    rcases getElem?_set_eq_some hj with ⟨rfl, rfl⟩ | ⟨-, hj⟩
    · exact hc.lock_held j t hi (hholds ▸ hu)
    · exact hc.lock_held j u hj hu
  · intro j hj
    obtain ⟨u, hu, hhu⟩ := hc.lock_holder j hj
    by_cases hji : j = i
    · subst hji
      refine ⟨t', by simp [List.getElem?_set_self hlen], ?_⟩
      rw [hholds]
      rw [hi] at hu
      cases hu
      exact hhu
    · exact ⟨u, by rw [List.getElem?_set_ne (Ne.symm hji)]; exact hu, hhu⟩

/-- A panic stops the replica and changes nothing the invariant reads. -/
theorem GenInv.crash (hc : GenInv c) (hi : c.threads[i]? = some t) (es : List GenEvent) :
    GenInv ⟨c.shared.crash, c.threads.set i t, c.trace ++ es⟩ := by
  obtain ⟨hlen, rfl⟩ := List.getElem?_eq_some_iff.mp hi
  rw [List.set_getElem_self hlen]
  exact ⟨hc.lock_held, hc.lock_holder, hc.locked_certified, hc.assigned_ui, hc.plain, hc.count,
    hc.order⟩

/-- `uiLock.Lock()` by a call with a certified message, when no call holds the lock. -/
theorem GenInv.lock (hc : GenInv c) (hi : c.threads[i]? = some t) (hpc : t.pc = .start)
    (hcert : t.msg.isCertified = true) (hfree : c.shared.uiLock = none) (es : List GenEvent) :
    GenInv ⟨{ c.shared with uiLock := some i }, c.threads.set i { t with pc := .locked },
      c.trace ++ es⟩ := by
  have hlen : i < c.threads.length := (List.getElem?_eq_some_iff.mp hi).1
  have hcount := countP_set_of_getElem? (p := fun t : GenCall => t.pc.assigned)
    { t with pc := .locked } hi
  simp only [hpc, GenPc.assigned_start, GenPc.assigned_locked, Bool.false_eq_true,
    if_false] at hcount
  refine ⟨?_, ?_, ?_, ?_, ?_, ?_, hc.order⟩
  · -- the new holder is the call `i`: no other call held the free lock
    intro j u hj hu
    rcases getElem?_set_eq_some hj with ⟨rfl, -⟩ | ⟨-, hj⟩
    · rfl
    · rw [hc.lock_held j u hj hu] at hfree
      cases hfree
  · intro j hj
    cases hj
    exact ⟨{ t with pc := .locked }, by simp [List.getElem?_set_self hlen], rfl⟩
  · exact forall_mem_set hc.locked_certified fun _ => hcert
  · exact forall_mem_set hc.assigned_ui fun _ hm => by cases hm
  · exact forall_mem_set hc.plain fun _ hm => by cases hm
  · rw [hc.count]
    simp only at hcount ⊢
    omega

/-- A call without a certified message goes to `consume` without the lock. -/
theorem GenInv.plainStart (hc : GenInv c) (hi : c.threads[i]? = some t) (hpc : t.pc = .start)
    {m : Message} (hm : m.isCertified = false) (es : List GenEvent) :
    GenInv ⟨c.shared, c.threads.set i { t with pc := .consuming m false }, c.trace ++ es⟩ := by
  obtain ⟨hheld, hholder⟩ := hc.locks_set hi { t with pc := .consuming m false }
    (by rw [hpc]; rfl)
  have hcount := countP_set_of_getElem? (p := fun t : GenCall => t.pc.assigned)
    { t with pc := .consuming m false } hi
  simp only [hpc, GenPc.assigned_start, GenPc.assigned_consuming, Bool.false_eq_true,
    if_false] at hcount
  refine ⟨hheld, hholder, ?_, ?_, ?_, ?_, hc.order⟩
  · exact forall_mem_set hc.locked_certified fun hlocked => by cases hlocked
  · exact forall_mem_set hc.assigned_ui fun _ hm' => by cases hm'
  · exact forall_mem_set hc.plain fun _ hm' => by cases hm'; exact hm
  · dsimp only
    rw [hc.count]
    omega

/-- `assignUI` under the lock: the USIG's next counter goes on the call's message. -/
theorem GenInv.assign {P : ReplicaParams} (hP : ConsecutiveUsig P) (hc : GenInv c)
    (hi : c.threads[i]? = some t) (hpc : t.pc = .locked) {m : Message} {r : Replica}
    (hassign : c.shared.replica.assignUI P t.msg = .ok (m, r)) (es : List GenEvent) :
    GenInv ⟨{ c.shared with replica := r }, c.threads.set i { t with pc := .consuming m true },
      c.trace ++ es⟩ := by
  have hmem : t ∈ c.threads := List.mem_of_getElem? hi
  obtain ⟨hcert, hui, rfl⟩ :=
    Replica.assignUI_eq_ok hP (hc.locked_certified t hmem hpc) hassign
  have hholds : t.pc.holds = true := by rw [hpc]; rfl
  obtain ⟨hheld, hholder⟩ := hc.locks_set hi { t with pc := .consuming m true }
    (by rw [hholds]; rfl)
  have hcount := countP_set_of_getElem? (p := fun t : GenCall => t.pc.assigned)
    { t with pc := .consuming m true } hi
  simp only [hpc, GenPc.assigned_locked, GenPc.assigned_consuming, Bool.false_eq_true, if_false,
    if_true] at hcount
  refine ⟨hheld, hholder, ?_, ?_, ?_, ?_, hc.order⟩
  · exact forall_mem_set hc.locked_certified fun hlocked => by cases hlocked
  · -- the call's message has the new counter; no other call is assigned
    intro u hu m' hm'
    rcases mem_set_cases hu with rfl | ⟨j, hji, hj⟩
    · cases hm'
      exact ⟨hcert, hui⟩
    · have := hc.not_assigned_of_ne hi hholds hj hji
      rw [hm'] at this
      cases this
  · exact forall_mem_set hc.plain fun _ hm' => by cases hm'
  · show c.shared.replica.usigCount + 1 = _
    rw [hc.count]
    simp only at hcount ⊢
    omega

/-- `consume` of a message with its UI, under the lock: it goes to the end of the log with the
next counter. -/
theorem GenInv.consumeCertified (hc : GenInv c) (hi : c.threads[i]? = some t) {m : Message}
    (hpc : t.pc = .consuming m true) (es : List GenEvent) :
    GenInv ⟨{ c.shared with replica := { c.shared.replica with log := c.shared.replica.log ++ [m] } },
      c.threads.set i { t with pc := .unlocking }, c.trace ++ es⟩ := by
  have hmem : t ∈ c.threads := List.mem_of_getElem? hi
  obtain ⟨hcert, hui⟩ := hc.assigned_ui t hmem m hpc
  have hholds : t.pc.holds = true := by rw [hpc]; rfl
  obtain ⟨hheld, hholder⟩ := hc.locks_set hi { t with pc := .unlocking }
    (by rw [hholds]; rfl)
  have hcount := countP_set_of_getElem? (p := fun t : GenCall => t.pc.assigned)
    { t with pc := .unlocking } hi
  simp only [hpc, GenPc.assigned_consuming, GenPc.assigned_unlocking, Bool.false_eq_true, if_false,
    if_true] at hcount
  -- the call was the only assigned one
  have hnone : (c.threads.set i { t with pc := .unlocking }).countP (fun t => t.pc.assigned) = 0 := by
    refine List.countP_eq_zero.mpr fun u hu => ?_
    rcases mem_set_cases hu with rfl | ⟨j, hji, hj⟩
    · simp
    · simp [hc.not_assigned_of_ne hi hholds hj hji]
  have hnext : c.shared.replica.usigCount =
      (c.shared.replica.log.filter Message.isCertified).length + 1 := by
    rw [hc.count]
    omega
  refine ⟨hheld, hholder, ?_, ?_, ?_, ?_, ?_⟩
  · exact forall_mem_set hc.locked_certified fun hlocked => by cases hlocked
  · intro u hu m' hm'
    rcases mem_set_cases hu with rfl | ⟨j, hji, hj⟩
    · cases hm'
    · have := hc.not_assigned_of_ne hi hholds hj hji
      rw [hm'] at this
      cases this
  · exact forall_mem_set hc.plain fun _ hm' => by cases hm'
  · show c.shared.replica.usigCount = _
    rw [hnone, hnext]
    simp [List.filter_append, hcert]
  · exact certifiedCounters_append_next hc.order hcert (hnext ▸ hui)

/-- `consume` of a message without a UI: the certified part of the log does not change. -/
theorem GenInv.consumePlain (hc : GenInv c) (hi : c.threads[i]? = some t) {m : Message}
    (hpc : t.pc = .consuming m false) {r : Replica} (hr : c.shared.replica.consume m = .ok r)
    (es : List GenEvent) :
    GenInv ⟨{ c.shared with replica := r }, c.threads.set i { t with pc := .done },
      c.trace ++ es⟩ := by
  have hmem : t ∈ c.threads := List.mem_of_getElem? hi
  have hplain : m.isCertified = false := hc.plain t hmem m hpc
  obtain ⟨husig, hlog⟩ := Replica.consume_eq_ok hr
  have hfilter : r.log.filter Message.isCertified =
      c.shared.replica.log.filter Message.isCertified := by
    rcases hlog with hlog | hlog <;> simp [hlog, List.filter_append, hplain]
  obtain ⟨hheld, hholder⟩ := hc.locks_set hi { t with pc := .done } (by rw [hpc]; rfl)
  have hcount := countP_set_of_getElem? (p := fun t : GenCall => t.pc.assigned)
    { t with pc := .done } hi
  simp only [hpc, GenPc.assigned_consuming, GenPc.assigned_done, Bool.false_eq_true,
    if_false] at hcount
  refine ⟨hheld, hholder, ?_, ?_, ?_, ?_, ?_⟩
  · exact forall_mem_set hc.locked_certified fun hlocked => by cases hlocked
  · intro u hu m' hm'
    rcases mem_set_cases hu with rfl | ⟨j, -, hj⟩
    · cases hm'
    · rw [show ({ c.shared with replica := r } : GenState).replica.usigCount =
        c.shared.replica.usigCount from husig]
      exact hc.assigned_ui u (List.mem_of_getElem? hj) m' hm'
  · exact forall_mem_set hc.plain fun _ hm' => by cases hm'
  · show r.usigCount = _
    rw [husig, hc.count, hfilter]
    simp only at hcount ⊢
    omega
  · show certifiedCounters r.log = _
    rw [certifiedCounters, hfilter, ← certifiedCounters, hc.order]

/-- The deferred `uiLock.Unlock()`. -/
theorem GenInv.unlock (hc : GenInv c) (hi : c.threads[i]? = some t) (hpc : t.pc = .unlocking)
    (es : List GenEvent) :
    GenInv ⟨{ c.shared with uiLock := none }, c.threads.set i { t with pc := .done },
      c.trace ++ es⟩ := by
  have hholds : t.pc.holds = true := by rw [hpc]; rfl
  have hcount := countP_set_of_getElem? (p := fun t : GenCall => t.pc.assigned)
    { t with pc := .done } hi
  simp only [hpc, GenPc.assigned_unlocking, GenPc.assigned_done, Bool.false_eq_true,
    if_false] at hcount
  refine ⟨?_, (fun j hj => by cases hj), ?_, ?_, ?_, ?_, hc.order⟩
  · -- the unlocking call was the only holder
    intro j u hj hu
    rcases getElem?_set_eq_some hj with ⟨-, rfl⟩ | ⟨hji, hj⟩
    · cases hu
    · exact absurd (hc.holder_unique hi hj hholds hu) hji
  · exact forall_mem_set hc.locked_certified fun hlocked => by cases hlocked
  · exact forall_mem_set hc.assigned_ui fun _ hm' => by cases hm'
  · exact forall_mem_set hc.plain fun _ hm' => by cases hm'
  · rw [hc.count]
    simp only at hcount ⊢
    omega

end Steps

/-- A new call starts with the type switch and holds nothing. -/
theorem GenInv.spawn {c : Config GenState GenCall GenEvent} (hc : GenInv c) {t : GenCall}
    (hpc : t.pc = .start) : GenInv ⟨c.shared, c.threads ++ [t], c.trace⟩ := by
  refine ⟨?_, ?_, ?_, ?_, ?_, ?_, hc.order⟩
  · intro j u hj hu
    rcases getElem?_append_singleton_eq_some hj with hj | ⟨-, rfl⟩
    · exact hc.lock_held j u hj hu
    · rw [hpc] at hu
      cases hu
  · intro j hj
    obtain ⟨u, hu, hhu⟩ := hc.lock_holder j hj
    exact ⟨u, by rw [List.getElem?_append_left (List.getElem?_eq_some_iff.mp hu).1]; exact hu, hhu⟩
  · exact forall_mem_append_singleton hc.locked_certified (by rw [hpc]; intro h; cases h)
  · exact forall_mem_append_singleton hc.assigned_ui (by rw [hpc]; intro m h; cases h)
  · exact forall_mem_append_singleton hc.plain (by rw [hpc]; intro m h; cases h)
  · rw [hc.count, List.countP_append]
    simp [hpc]

/-- **Every step keeps `GenInv`**. -/
theorem genInv_step {P : ReplicaParams} (hP : ConsecutiveUsig P)
    {c c' : Config GenState GenCall GenEvent} (hc : GenInv c) (h : (genProgram P).Step c c') :
    GenInv c' := by
  cases h with
  | spawn hstart => exact hc.spawn hstart.1
  | move hi hstep =>
    rename_i i t t' s' es
    rcases genStep_cases hstep with
      ⟨rfl, rfl⟩ | ⟨hpc, hcert, hfree, rfl, rfl⟩ | ⟨m, hpc, -, hm, rfl, rfl⟩ |
      ⟨m, r, hpc, hassign, rfl, rfl⟩ | ⟨m, holding, r, hpc, hr, rfl, rfl⟩ | ⟨hpc, rfl, rfl⟩
    · exact hc.crash hi es
    · exact hc.lock hi hpc hcert hfree es
    · exact hc.plainStart hi hpc hm es
    · exact hc.assign hP hi hpc hassign es
    · cases holding with
      | true =>
        have hcert := (hc.assigned_ui t (List.mem_of_getElem? hi) m hpc).1
        rw [Replica.consume_certified _ hcert] at hr
        cases hr
        exact hc.consumeCertified hi hpc es
      | false => exact hc.consumePlain hi hpc hr es
    · exact hc.unlock hi hpc es

/-- **The certified messages reach the log in UI counter order**: with a USIG that hands out
`1, 2, 3, …`, in every interleaving of calls of the generated message handler from an empty log,
the certified messages of the log carry the UI counters `1, 2, …, k`, in log order. -/
theorem generatedUIs_in_log_order {P : ReplicaParams} (hP : ConsecutiveUsig P) {s0 : Replica}
    (hlog : s0.log = []) (hcount : s0.usigCount = 0) {c : Config GenState GenCall GenEvent}
    (hc : (genProgram P).Reachable ⟨s0, none⟩ c) :
    certifiedCounters c.shared.replica.log =
      (List.range (c.shared.replica.log.filter Message.isCertified).length).map
        fun k => some (k + 1) :=
  (Inductive.reachable ⟨genInv_initial hlog hcount, fun _ _ h hs => genInv_step hP h hs⟩ hc).order

/-- A replica whose USIG does not wrap its counter: its UI after `k` others has the counter
`k + 1`, and it fails once `k + 1` no longer fits 64 bits. -/
def countingParams : ReplicaParams where
  id := 0
  cfg := ⟨1, 0, Nat.one_pos⟩
  timeoutRequest := 0
  timeoutPrepare := 0
  unmarshal _ := .error "unexpected EOF"
  sha256 _ := []
  verifyTag _ _ _ _ _ := .ok ()
  sign _ := .ok []
  createUI k _ :=
    if k + 1 < 2 ^ 64 then .ok (UI.marshalBinary ⟨k + 1, []⟩) else .error "USIG counter overflow"

theorem countingParams_consecutive : ConsecutiveUsig countingParams := by
  intro k bytes ui h
  simp only [countingParams] at h
  split at h
  · next hk =>
    cases h
    exact ⟨_, UI.unmarshalBinary_marshalBinary ⟨k + 1, []⟩ hk, rfl⟩
  · cases h

/-- A Prepare and a ReqViewChange generated concurrently: the Prepare's call takes the lock; the
ReqViewChange is signed and appended meanwhile; then the Prepare gets the UI `1` and is appended,
and the lock is released. -/
def interleavedRun : Config GenState GenCall GenEvent :=
  ⟨⟨{ log := [.reqViewChange (newReqViewChange 0 1),
        .prepare ⟨some ⟨0, 0, (newRequest 0 1 []).pbMsg, UI.marshalBinary ⟨1, []⟩⟩⟩],
      usigCount := 1 }, none⟩,
    [⟨.prepare (newPrepare 0 0 (newRequest 0 1 [])), .done⟩,
      ⟨.reqViewChange (newReqViewChange 0 1), .done⟩], []⟩

theorem interleavedRun_reachable :
    (genProgram countingParams).Reachable ⟨{}, none⟩ interleavedRun := by
  have hsched : runChoices
      (Program.schedStep (fun t => t.pc == .start && t.msg.isReplica) (genStep countingParams))
      (Config.initial ⟨{}, none⟩)
      [.spawn ⟨.prepare (newPrepare 0 0 (newRequest 0 1 [])), .start⟩,
        .spawn ⟨.reqViewChange (newReqViewChange 0 1), .start⟩,
        .move 0, .move 1, .move 1, .move 0, .move 0, .move 0] = some interleavedRun := rfl
  refine reflTransGen_of_runChoices (Program.schedStep_sound ?_ fun _ _ _ _ _ _ h => h) _ hsched
  intro t ht
  simp only [Bool.and_eq_true, beq_iff_eq] at ht
  exact ht

theorem generatedUIs_in_log_order_interleaved :
    certifiedCounters interleavedRun.shared.replica.log =
      (List.range (interleavedRun.shared.replica.log.filter Message.isCertified).length).map
        fun k => some (k + 1) :=
  generatedUIs_in_log_order countingParams_consecutive rfl rfl interleavedRun_reachable

end MinBFT.Core
