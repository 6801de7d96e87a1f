import Mathlib.Data.Finset.Card
import MinBFT.Core.ClientState
import MinBFT.System.Outcome
import MinBFT.Usig.UI

/-!
# Counting and collecting commitments

Model of `makeCommitmentCounter` and `makeCommitmentCollector` (`core/commit.go`).

* The counter's closure state is `CommitmentCounter`: `view`, `firstCV`, `lastDoneCV` and
  `prepareStates`. A `replicasCommittedMap` only ever maps to `true`, so it is the `Finset` of
  its keys; `prepareStates` is a function to `Option`, `none` for a missing key (the nil map
  Go's index returns), updated with `Function.update` where the closure assigns or deletes.
* Both closures run under a mutex (the collector's lock; the counter is only called from the
  collector), so a call is one atomic step: an `Outcome` of the new state.
* `parseMessageUI` failing is the counter's `panic(err)`.
* The skipped-commitment loop counts a `uint64` down. It is `skippedCommitmentLoop`, with fuel
  for `2 ^ 64` tests of its condition: when that runs out every `uint64` value has been tested
  and the loop would go on for ever, so it `hang`s (the case of `firstCV = 0`).
* The collector's `retireSeq`, `pendingReq.Remove` and `stopReqTimer` act on the client states,
  the request list and the timer provider (`CommitState`); `executeRequest` is the request the
  call hands on, the `Option Request` of its result.

## Results

* `skippedCommitmentLoop_ne_hang`: with `firstCV ≥ 1` the loop ends within `2 ^ 64` tests.
* `skippedCommitmentLoop_mem`: when the loop lets a replica through, it is among the committers
  of every entry from `firstCV` up, provided later entries' committers are among earlier ones'.
* `countCommitment_eq`, `countInView_cases`: what one call of the counter can do, with every
  guard; the run invariants of `CommitOrder` are proved from these alone.
-/

namespace MinBFT.Core

open MinBFT.Messages MinBFT.Usig MinBFT.System

/-! ## The counter -/

/-- The closure state of `makeCommitmentCounter`. -/
structure CommitmentCounter where
  view : Nat := 0
  firstCV : Nat := 1
  lastDoneCV : Nat := 0
  prepareStates : Nat → Option (Finset Nat) := fun _ => none

/-- Tests of the loop condition that visit every `uint64` value of the loop variable once. -/
def loopFuel : Nat := 2 ^ 64

/-- `for cv := prepareCV - 1; cv >= firstCV; cv-- { … }` from the loop variable `cv`, with `fuel`
tests of the condition left: `.ok (.ok ())` when the loop breaks or its condition fails,
`.ok (.error _)` when the closure returns "Skipped commitment". -/
def skippedCommitmentLoop (prepareStates : Nat → Option (Finset Nat)) (replicaID firstCV : Nat) :
    Nat → Nat → Outcome (Except String Unit)
  | 0, _ => .hang
  | fuel + 1, cv =>
    if firstCV ≤ cv then
      match prepareStates cv with
      | some s => if replicaID ∈ s then .ok (.ok ()) else .ok (.error "Skipped commitment")
      | none => skippedCommitmentLoop prepareStates replicaID firstCV fuel (decCounter cv)
    else .ok (.ok ())

namespace CommitmentCounter

/-- `prepareStates[cv] = e`, or `delete(prepareStates, cv)` for `e = none`. -/
def setEntry (s : CommitmentCounter) (cv : Nat) (e : Option (Finset Nat)) : CommitmentCounter :=
  { s with prepareStates := Function.update s.prepareStates cv e }

/-- The committers of `cv` as a call sees them once it has created a missing entry. -/
def committers (s : CommitmentCounter) (primaryID cv : Nat) : Finset Nat :=
  (s.prepareStates cv).getD {primaryID}

/-- The reset on a Prepare of a later view. -/
def enterView (prepareView prepareCV : Nat) : CommitmentCounter :=
  { view := prepareView, firstCV := prepareCV, lastDoneCV := 0, prepareStates := fun _ => none }

/-- The end of a call once `replicasCommitted` are the committers of `prepareCV`: not done while
there are at most `f`; otherwise the quorum is the last one and its entry is deleted. -/
def checkQuorum (s : CommitmentCounter) (f prepareCV : Nat) (replicasCommitted : Finset Nat) :
    Except String Bool × CommitmentCounter :=
  if replicasCommitted.card ≤ f then (.ok false, s)
  else (.ok true, { s.setEntry prepareCV none with lastDoneCV := prepareCV })

/-- The counter past its view check: the Prepare has counter `prepareCV` in the current view. -/
def countInView (s : CommitmentCounter) (f primaryID replicaID prepareCV : Nat) :
    Outcome (Except String Bool × CommitmentCounter) :=
  if prepareCV ≤ s.lastDoneCV then .ok (.ok true, s)
  else
    -- a missing entry is created with the primary, before any check
    let replicasCommitted := s.committers primaryID prepareCV
    let s := s.setEntry prepareCV (some replicasCommitted)
    if replicaID ≠ primaryID then
      (skippedCommitmentLoop s.prepareStates replicaID s.firstCV loopFuel
          (decCounter prepareCV)).bind fun
        | .error e => .ok (.error e, s)
        | .ok () =>
          if replicaID ∈ replicasCommitted then .ok (.error "Duplicated commitment", s)
          else
            let replicasCommitted := insert replicaID replicasCommitted
            .ok ((s.setEntry prepareCV (some replicasCommitted)).checkQuorum f prepareCV
              replicasCommitted)
    else .ok (s.checkQuorum f prepareCV replicasCommitted)

@[simp] theorem setEntry_view (s : CommitmentCounter) (cv : Nat) (e : Option (Finset Nat)) :
    (s.setEntry cv e).view = s.view := rfl

@[simp] theorem setEntry_firstCV (s : CommitmentCounter) (cv : Nat) (e : Option (Finset Nat)) :
    (s.setEntry cv e).firstCV = s.firstCV := rfl

@[simp] theorem setEntry_lastDoneCV (s : CommitmentCounter) (cv : Nat) (e : Option (Finset Nat)) :
    (s.setEntry cv e).lastDoneCV = s.lastDoneCV := rfl

@[simp] theorem setEntry_prepareStates_self (s : CommitmentCounter) (cv : Nat)
    (e : Option (Finset Nat)) : (s.setEntry cv e).prepareStates cv = e := by
  simp [setEntry]

theorem setEntry_prepareStates_of_ne (s : CommitmentCounter) {cv a : Nat} (h : a ≠ cv)
    (e : Option (Finset Nat)) : (s.setEntry cv e).prepareStates a = s.prepareStates a := by
  simp [setEntry, h]

/-- An entry after `setEntry` is the one written, or one that was there. -/
theorem setEntry_prepareStates_eq_some {s : CommitmentCounter} {cv a : Nat}
    {e : Option (Finset Nat)} {A : Finset Nat} (h : (s.setEntry cv e).prepareStates a = some A) :
    a = cv ∧ e = some A ∨ a ≠ cv ∧ s.prepareStates a = some A := by
  by_cases hac : a = cv
  · subst hac
    rw [setEntry_prepareStates_self] at h
    exact .inl ⟨rfl, h⟩
  · rw [setEntry_prepareStates_of_ne s hac] at h
    exact .inr ⟨hac, h⟩

@[simp] theorem setEntry_setEntry (s : CommitmentCounter) (cv : Nat) (e e' : Option (Finset Nat)) :
    (s.setEntry cv e).setEntry cv e' = s.setEntry cv e' := by
  simp [setEntry]

/-- Writing back the entry that is there changes nothing. -/
theorem setEntry_of_eq {s : CommitmentCounter} {cv : Nat} {e : Option (Finset Nat)}
    (h : s.prepareStates cv = e) : s.setEntry cv e = s := by
  rw [← h]
  simp [setEntry]

/-- Both ends of `checkQuorum`. -/
theorem checkQuorum_cases {s s' : CommitmentCounter} {f cv : Nat} {S : Finset Nat}
    {ans : Except String Bool} (h : s.checkQuorum f cv S = (ans, s')) :
    (S.card ≤ f ∧ ans = .ok false ∧ s' = s) ∨
    (f < S.card ∧ ans = .ok true ∧ s' = { s.setEntry cv none with lastDoneCV := cv }) := by
  unfold checkQuorum at h
  split_ifs at h with hf
  · obtain ⟨rfl, rfl⟩ := Prod.mk.inj h
    exact .inl ⟨hf, rfl, rfl⟩
  · obtain ⟨rfl, rfl⟩ := Prod.mk.inj h
    exact .inr ⟨by omega, rfl, rfl⟩

/-- Everything a call of the counter in its view can do, with the guards of each branch: an
old counter is done at once; past it the call ends in an error, or counts the primary, or
passes the skipped-commitment loop and counts a new committer. -/
theorem countInView_cases {s s' : CommitmentCounter} {f p r c : Nat} {ans : Except String Bool}
    (h : s.countInView f p r c = .ok (ans, s')) :
    (c ≤ s.lastDoneCV ∧ ans = .ok true ∧ s' = s) ∨
    (s.lastDoneCV < c ∧ r ≠ p ∧ (∃ e, ans = .error e) ∧
      s' = s.setEntry c (some (s.committers p c))) ∨
    (s.lastDoneCV < c ∧ r = p ∧
      (s.setEntry c (some (s.committers p c))).checkQuorum f c (s.committers p c) = (ans, s')) ∨
    (s.lastDoneCV < c ∧ r ≠ p ∧
      skippedCommitmentLoop (s.setEntry c (some (s.committers p c))).prepareStates r s.firstCV
        loopFuel (decCounter c) = .ok (.ok ()) ∧ r ∉ s.committers p c ∧
      (s.setEntry c (some (insert r (s.committers p c)))).checkQuorum f c
        (insert r (s.committers p c)) = (ans, s')) := by
  unfold countInView at h
  split_ifs at h with hdone hr
  · -- an old counter
    obtain ⟨rfl, rfl⟩ := Prod.mk.inj (Outcome.ok.inj h)
    exact .inl ⟨hdone, rfl, rfl⟩
  · -- another replica: the loop, then the duplicate check
    have hlt : s.lastDoneCV < c := by omega
    obtain ⟨x, hloop, hk⟩ := Outcome.bind_eq_ok h
    rcases x with e | ⟨⟩
    · obtain ⟨rfl, rfl⟩ := Prod.mk.inj (Outcome.ok.inj hk)
      exact .inr (.inl ⟨hlt, hr, ⟨e, rfl⟩, rfl⟩)
    · simp only at hk
      split_ifs at hk with hmem
      · obtain ⟨rfl, rfl⟩ := Prod.mk.inj (Outcome.ok.inj hk)
        exact .inr (.inl ⟨hlt, hr, ⟨_, rfl⟩, rfl⟩)
      · rw [setEntry_setEntry] at hk
        exact .inr (.inr (.inr ⟨hlt, hr, hloop, hmem, Outcome.ok.inj hk⟩))
  · -- the primary itself
    exact .inr (.inr (.inl ⟨by omega, by simpa using hr, Outcome.ok.inj h⟩))

end CommitmentCounter

/-- One call of the closure `makeCommitmentCounter(f)` returns: `(done, err)` and its state. -/
def countCommitment (f : Nat) (s : CommitmentCounter) (replicaID : Nat) (prepare : Prepare) :
    Outcome (Except String Bool × CommitmentCounter) :=
  match parseMessageUI (.prepare prepare) with
  | none => .panic (parseMessageUIPanic (.prepare prepare))
  | some prepareUI =>
    if prepare.view < s.view then .ok (.ok false, s)
    else
      let s := if s.view < prepare.view then CommitmentCounter.enterView prepare.view
        prepareUI.counter else s
      s.countInView f prepare.replicaID replicaID prepareUI.counter

/-- The counter on a Prepare whose UI decodes to `ui`: an older view is ignored, a later one
resets the state first. -/
theorem countCommitment_eq {f : Nat} {s : CommitmentCounter} {r : Nat} {p : Prepare} {ui : UI}
    (hui : parseMessageUI (.prepare p) = some ui) :
    countCommitment f s r p =
      if p.view < s.view then .ok (.ok false, s)
      else (if s.view < p.view then CommitmentCounter.enterView p.view ui.counter else s).countInView
        f p.replicaID r ui.counter := by
  simp only [countCommitment, hui]

/-- A Prepare whose UI does not decode makes the counter panic. -/
theorem countCommitment_of_parse_none {f : Nat} {s : CommitmentCounter} {r : Nat} {p : Prepare}
    (hui : parseMessageUI (.prepare p) = none) :
    countCommitment f s r p = .panic (parseMessageUIPanic (.prepare p)) := by
  simp only [countCommitment, hui]

/-! ## The skipped-commitment loop -/

section Loop

variable {states : Nat → Option (Finset Nat)} {r firstCV : Nat}

/-- With `firstCV ≥ 1` the loop ends once it has fuel for each value from `cv` down to
`firstCV` and one more test. -/
theorem skippedCommitmentLoop_ne_hang (h1 : 1 ≤ firstCV) :
    ∀ fuel cv, cv + 1 < firstCV + fuel → 0 < fuel →
      skippedCommitmentLoop states r firstCV fuel cv ≠ .hang := by
  intro fuel
  induction fuel with
  | zero => intro cv _ hpos; omega
  | succ fuel ih =>
    intro cv hcv _
    unfold skippedCommitmentLoop
    split_ifs with hle
    · cases hs : states cv with
      | some S =>
        simp only
        split_ifs <;> simp
      | none =>
        -- `cv ≥ firstCV ≥ 1`, so `cv--` does not wrap around
        simp only
        rw [decCounter_of_pos (by omega)]
        exact ih (cv - 1) (by omega) (by omega)
    · simp

/-- When the loop lets `r` through, `r` is among the committers of every entry from `firstCV` to
`cv`, provided the entries' committers shrink as the counter grows: the loop stops at the first
entry it meets, and the ones below it have more committers. -/
theorem skippedCommitmentLoop_mem (h1 : 1 ≤ firstCV)
    (hchain : ∀ a b A B, states a = some A → states b = some B → a < b → B ⊆ A) :
    ∀ fuel cv, skippedCommitmentLoop states r firstCV fuel cv = .ok (.ok ()) →
      ∀ a A, firstCV ≤ a → a ≤ cv → states a = some A → r ∈ A := by
  intro fuel
  induction fuel with
  | zero => intro cv h; cases h
  | succ fuel ih =>
    intro cv h a A ha hacv hA
    unfold skippedCommitmentLoop at h
    split_ifs at h with hle
    · cases hs : states cv with
      | some S =>
        rw [hs] at h
        simp only at h
        split_ifs at h with hrS
        · rcases Nat.lt_or_eq_of_le hacv with hlt | rfl
          · exact hchain a cv A S hA hs hlt hrS
          · rw [hs] at hA
            cases hA
            exact hrS
        · cases h
      | none =>
        rw [hs] at h
        simp only at h
        rw [decCounter_of_pos (by omega)] at h
        rcases Nat.lt_or_eq_of_le hacv with hlt | rfl
        · exact ih (cv - 1) h a A ha (by omega) hA
        · rw [hs] at hA
          cases hA
    · omega

end Loop

/-! ## The collector -/

/-- What the collector acts on besides the counter: the client states of `provideClientState`,
the pending requests of `pendingReq` by client, and the timer provider of the request timers. -/
structure CommitState (α : Type) where
  counter : CommitmentCounter := {}
  clients : Nat → ClientState
  pendingReq : Nat → Option Request
  timers : Timers α

variable {α : Type}

/-- `makeRequestSeqRetirer`: `RetireRequestSeq` on the request's client, whose error panics. -/
def retireSeq (clients : Nat → ClientState) (request : Request) :
    Outcome (Bool × (Nat → ClientState)) :=
  let c := clients request.clientID
  match c.seq.retireRequestSeq request.sequence with
  | (.error e, _) => .panic e
  | (.ok new, seq) => .ok (new, Function.update clients request.clientID { c with seq := seq })

/-- `retireSeq` returns when `RetireRequestSeq` does not fail, with the client's new state. -/
theorem retireSeq_eq_ok {clients clients' : Nat → ClientState} {request : Request} {new : Bool}
    (h : retireSeq clients request = .ok (new, clients')) :
    ((clients request.clientID).seq.retireRequestSeq request.sequence).1 = .ok new ∧
      clients' = Function.update clients request.clientID
        { clients request.clientID with
          seq := ((clients request.clientID).seq.retireRequestSeq request.sequence).2 } := by
  unfold retireSeq at h
  dsimp only at h
  split at h
  · cases h
  · next new' q hq =>
    simp only [Outcome.ok.injEq, Prod.mk.injEq] at h
    obtain ⟨rfl, rfl⟩ := h
    rw [hq]
    exact ⟨rfl, rfl⟩

/-- `makeRequestTimerStopper`: `StopRequestTimer` on the request's client. -/
def stopReqTimer (s : CommitState α) (request : Request) : Timers α :=
  (s.clients request.clientID).requestTimer.stopTimer s.timers request.sequence

/-- One call of the closure `makeCommitmentCollector`: its error, its state, and the request it
passes to `executeRequest`. -/
def collectCommitment (f : Nat) (s : CommitState α) (replicaID : Nat) (prepare : Prepare) :
    Outcome (Except String Unit × CommitState α × Option Request) :=
  (countCommitment f s.counter replicaID prepare).bind fun (res, counter) =>
    let s := { s with counter := counter }
    match res with
    | .error e => .ok (.error e, s, none)
    | .ok false => .ok (.ok (), s, none)
    | .ok true =>
      let request := prepare.request
      (retireSeq s.clients request).bind fun (new, clients) =>
        let s := { s with clients := clients }
        if new then
          .ok (.ok (), { s with pendingReq := Function.update s.pendingReq request.clientID none,
                                timers := stopReqTimer s request }, some request)
        else .ok (.ok (), s, none)

/-- A call of the collector that returns leaves the clients as they were, or retires the Prepare's
request without an error. -/
theorem collectCommitment_clients {f : Nat} {s s' : CommitState α} {r : Nat} {p : Prepare}
    {res : Except String Unit} {ex : Option Request}
    (h : collectCommitment f s r p = .ok (res, s', ex)) :
    s'.clients = s.clients ∨
      ∃ new, ((s.clients p.request.clientID).seq.retireRequestSeq p.request.sequence).1 = .ok new ∧
        s'.clients = Function.update s.clients p.request.clientID
          { s.clients p.request.clientID with
            seq := ((s.clients p.request.clientID).seq.retireRequestSeq p.request.sequence).2 } := by
  obtain ⟨⟨ans, counter⟩, -, hk⟩ := Outcome.bind_eq_ok h
  rcases ans with e | _ | _
  · simp only [Outcome.ok.injEq, Prod.mk.injEq] at hk
    obtain ⟨-, rfl, -⟩ := hk
    exact .inl rfl
  · simp only [Outcome.ok.injEq, Prod.mk.injEq] at hk
    obtain ⟨-, rfl, -⟩ := hk
    exact .inl rfl
  · simp only at hk
    obtain ⟨⟨new, clients⟩, hret, hk⟩ := Outcome.bind_eq_ok hk
    obtain ⟨hnew, rfl⟩ := retireSeq_eq_ok hret
    refine .inr ⟨new, hnew, ?_⟩
    simp only at hk
    split_ifs at hk <;>
    · simp only [Outcome.ok.injEq, Prod.mk.injEq] at hk
      obtain ⟨-, rfl, -⟩ := hk
      rfl

/-- A call of the collector that returns has run the counter to the state it leaves, and hands
on the Prepare's request only when the counter said done. -/
theorem collectCommitment_cases {f : Nat} {s s' : CommitState α} {r : Nat} {p : Prepare}
    {res : Except String Unit} {ex : Option Request}
    (h : collectCommitment f s r p = .ok (res, s', ex)) :
    ∃ ans, countCommitment f s.counter r p = .ok (ans, s'.counter) ∧
      (ex = none ∨ (ans = .ok true ∧ ex = some p.request)) := by
  obtain ⟨⟨ans, counter⟩, hc, hk⟩ := Outcome.bind_eq_ok h
  refine ⟨ans, ?_⟩
  rcases ans with e | _ | _
  · -- the counter's error is the collector's
    simp only [Outcome.ok.injEq, Prod.mk.injEq] at hk
    obtain ⟨-, rfl, rfl⟩ := hk
    exact ⟨hc, .inl rfl⟩
  · simp only [Outcome.ok.injEq, Prod.mk.injEq] at hk
    obtain ⟨-, rfl, rfl⟩ := hk
    exact ⟨hc, .inl rfl⟩
  · -- done: `retireSeq` decides whether the request is executed
    simp only at hk
    obtain ⟨⟨new, clients⟩, -, hk⟩ := Outcome.bind_eq_ok hk
    simp only at hk
    split_ifs at hk
    · simp only [Outcome.ok.injEq, Prod.mk.injEq] at hk
      obtain ⟨-, rfl, rfl⟩ := hk
      exact ⟨hc, .inr ⟨rfl, rfl⟩⟩
    · simp only [Outcome.ok.injEq, Prod.mk.injEq] at hk
      obtain ⟨-, rfl, rfl⟩ := hk
      exact ⟨hc, .inl rfl⟩

/-- The collector empties a client's entry of the pending list exactly when it hands on a request
of that client for execution, whatever request the entry holds: `pendingReq.Remove` takes only
the client ID, where `stopReqTimer` checks the sequence. -/
theorem collectCommitment_pendingReq {f : Nat} {s s' : CommitState α} {r : Nat} {p : Prepare}
    {res : Except String Unit} {ex : Option Request}
    (h : collectCommitment f s r p = .ok (res, s', ex)) :
    (ex = none ∧ s'.pendingReq = s.pendingReq) ∨
      (ex = some p.request ∧
        s'.pendingReq = Function.update s.pendingReq p.request.clientID none) := by
  obtain ⟨⟨ans, counter⟩, -, hk⟩ := Outcome.bind_eq_ok h
  rcases ans with e | _ | _
  · simp only [Outcome.ok.injEq, Prod.mk.injEq] at hk
    obtain ⟨-, rfl, rfl⟩ := hk
    exact .inl ⟨rfl, rfl⟩
  · simp only [Outcome.ok.injEq, Prod.mk.injEq] at hk
    obtain ⟨-, rfl, rfl⟩ := hk
    exact .inl ⟨rfl, rfl⟩
  · -- done: a new retirement removes the client's entry
    simp only at hk
    obtain ⟨⟨new, clients⟩, -, hk⟩ := Outcome.bind_eq_ok hk
    simp only at hk
    split_ifs at hk
    · simp only [Outcome.ok.injEq, Prod.mk.injEq] at hk
      obtain ⟨-, rfl, rfl⟩ := hk
      exact .inr ⟨rfl, rfl⟩
    · simp only [Outcome.ok.injEq, Prod.mk.injEq] at hk
      obtain ⟨-, rfl, rfl⟩ := hk
      exact .inl ⟨rfl, rfl⟩

end MinBFT.Core
