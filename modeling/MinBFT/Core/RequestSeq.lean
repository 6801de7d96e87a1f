import MinBFT.Core.ClientState
import MinBFT.System.Threads

/-!
# Concurrent `CaptureRequestSeq` calls

`makeRequestProcessor` (`core/request.go`) handles each client Request in its own goroutine:

```
new, releaseSeq := captureSeq(request)     // seqState.CaptureRequestSeq(request.Sequence())
if !new { return false, nil }
defer releaseSeq()
pendingReq.Add(request); ... applyRequest(request, view)
```

so the calls of `CaptureRequestSeq` (`core/internal/clientstate/request-seq.go`) for one client
race each other. `SeqState.tryCaptureRequestSeq` is one attempt of its loop under the lock;
`captureProgram` runs any number of calls, for any identifiers (`0`, repeated ones, ones below
the last captured), each of which attempts until it returns and, when it returns `new = true`,
processes the Request and then releases the identifier. The history records the returns with
`new = true` (`captured`), the releases (`released`) and the returns with `new = false`
(`returnedOld`). That each capture is eventually released is a liveness assumption; what is
proved here is safety and holds whether it is released or not.

**`captureRequestSeq_once_in_order`**: in every reachable configuration at most one call holds
a capture; the identifiers returned with `new = true` increase strictly in return order, so each
is above every identifier captured before it; a return with `new = false` for `seq` happens only
when the last released identifier is at least `seq`; and the captures and releases alternate,
each release of the identifier captured just before. So `makeRequestProcessor` processes a
client's identifiers one at a time, each at most once, in increasing order. The inductive
invariant is `CaptureInv`.
-/

namespace MinBFT.Core.RequestSeq

open MinBFT.System

/-- Where a call of `CaptureRequestSeq` is: attempting, processing its new capture, released,
or returned with `new = false`. -/
inductive Pc where
  | capturing
  | processing
  | released
  | returnedOld
  deriving DecidableEq, Repr

/-- A call of `CaptureRequestSeq(seq)`. -/
structure Call where
  seq : Nat
  pc : Pc
  deriving DecidableEq, Repr

/-- The history of the calls. -/
inductive Event where
  /-- A call returned `new = true`. -/
  | captured (seq : Nat)
  /-- A captured identifier was released. -/
  | released (seq : Nat)
  /-- A call returned `new = false`. -/
  | returnedOld (seq : Nat)
  deriving DecidableEq, Repr

/-- One atomic step of a call: an attempt that returns, or the release of its capture. An
attempt that waits on `seqReleased` is no step. -/
def captureStep (s : SeqState) (t : Call) : Option (SeqState × Call × List Event) :=
  match t.pc with
  | .capturing =>
    match s.tryCaptureRequestSeq t.seq with
    | .wait => none
    | .old => some (s, { t with pc := .returnedOld }, [.returnedOld t.seq])
    | .new s' => some (s', { t with pc := .processing }, [.captured t.seq])
  | .processing => some (s.releaseRequestSeq, { t with pc := .released }, [.released t.seq])
  | .released | .returnedOld => none

/-- Any number of concurrent calls of `CaptureRequestSeq` on one `seqState`. -/
def captureProgram : Program SeqState Call Event where
  start t := t.pc = .capturing
  step _ s t s' t' es := captureStep s t = some (s', t', es)

/-- The step a call can take, by phase. -/
theorem captureStep_cases {s s' : SeqState} {t t' : Call} {es : List Event}
    (h : captureStep s t = some (s', t', es)) :
    (t.pc = .capturing ∧ s.tryCaptureRequestSeq t.seq = .old ∧ s' = s ∧
        t' = { t with pc := .returnedOld } ∧ es = [.returnedOld t.seq]) ∨
    (t.pc = .capturing ∧ s.tryCaptureRequestSeq t.seq = .new s' ∧
        t' = { t with pc := .processing } ∧ es = [.captured t.seq]) ∨
    (t.pc = .processing ∧ s' = s.releaseRequestSeq ∧ t' = { t with pc := .released } ∧
        es = [.released t.seq]) := by
  unfold captureStep at h
  cases hpc : t.pc with
  | capturing =>
    rw [hpc] at h
    cases htry : s.tryCaptureRequestSeq t.seq with
    | wait => rw [htry] at h; cases h
    | old =>
      rw [htry] at h
      simp only [Option.some.injEq, Prod.mk.injEq] at h
      obtain ⟨rfl, rfl, rfl⟩ := h
      exact .inl ⟨rfl, rfl, rfl, rfl, rfl⟩
    | new s₁ =>
      rw [htry] at h
      simp only [Option.some.injEq, Prod.mk.injEq] at h
      obtain ⟨rfl, rfl, rfl⟩ := h
      exact .inr (.inl ⟨rfl, rfl, rfl, rfl⟩)
  | processing =>
    rw [hpc] at h
    simp only [Option.some.injEq, Prod.mk.injEq] at h
    obtain ⟨rfl, rfl, rfl⟩ := h
    exact .inr (.inr ⟨rfl, rfl, rfl, rfl⟩)
  | released => rw [hpc] at h; cases h
  | returnedOld => rw [hpc] at h; cases h

/-! ## The history -/

/-- The identifiers returned with `new = true`, in return order. -/
def capturedSeqs (tr : List Event) : List Nat :=
  tr.filterMap fun | .captured seq => some seq | _ => none

/-- The identifiers released, in release order. -/
def releasedSeqs (tr : List Event) : List Nat :=
  tr.filterMap fun | .released seq => some seq | _ => none

/-- The captures and releases of a history. -/
def captureRelease (tr : List Event) : List Event :=
  tr.filter fun | .returnedOld _ => false | _ => true

/-- Processing the identifiers `seqs` one at a time: each is captured and released before the
next one is captured. -/
def oneAtATime (seqs : List Nat) : List Event :=
  seqs.flatMap fun seq => [.captured seq, .released seq]

/-- `lastReleasedSeq` as the history shows it: the identifier released last, `0` before any. -/
def lastReleased (tr : List Event) : Nat :=
  (releasedSeqs tr).getLast?.getD 0

@[simp] theorem capturedSeqs_append (tr es : List Event) :
    capturedSeqs (tr ++ es) = capturedSeqs tr ++ capturedSeqs es := by
  simp [capturedSeqs, List.filterMap_append]

@[simp] theorem releasedSeqs_append (tr es : List Event) :
    releasedSeqs (tr ++ es) = releasedSeqs tr ++ releasedSeqs es := by
  simp [releasedSeqs, List.filterMap_append]

@[simp] theorem captureRelease_append (tr es : List Event) :
    captureRelease (tr ++ es) = captureRelease tr ++ captureRelease es := by
  simp [captureRelease, List.filter_append]

theorem lastReleased_append_released (tr : List Event) (seq : Nat) :
    lastReleased (tr ++ [.released seq]) = seq := by
  simp [lastReleased, releasedSeqs]

/-- Events that release nothing leave the last released identifier as it was. -/
theorem lastReleased_append_of_nil {tr es : List Event} (h : releasedSeqs es = []) :
    lastReleased (tr ++ es) = lastReleased tr := by
  simp [lastReleased, h]

/-! ## The invariant of every interleaving -/

/-- A `new = false` return for `seq` comes when the last identifier released before it is at
least `seq`. -/
def OldAfterRelease (pre : List Event) : Event → Prop
  | .returnedOld seq => seq ≤ lastReleased pre
  | _ => True

/-- Whether a capture is held: the last captured identifier is not released. -/
def held (s : SeqState) : Bool := s.lastReleasedSeq < s.lastCapturedSeq

/-- The invariant: a capture is held exactly when the last captured identifier is not released,
by one call, for that identifier; the identifiers captured so far increase up to the last
captured one; the history alternates captures and releases, and records `lastReleasedSeq`; and
every `new = false` return saw its identifier released. -/
structure CaptureInv (c : Config SeqState Call Event) : Prop where
  released_le : c.shared.lastReleasedSeq ≤ c.shared.lastCapturedSeq
  holding : c.threads.countP (fun t => t.pc = .processing) = if held c.shared then 1 else 0
  holding_seq : ∀ t ∈ c.threads, t.pc = .processing → t.seq = c.shared.lastCapturedSeq
  increasing : (capturedSeqs c.trace).Pairwise (· < ·)
  captured_le : ∀ seq ∈ capturedSeqs c.trace, seq ≤ c.shared.lastCapturedSeq
  order : captureRelease c.trace = oneAtATime (releasedSeqs c.trace) ++
    if held c.shared then [.captured c.shared.lastCapturedSeq] else []
  last_released : c.shared.lastReleasedSeq = lastReleased c.trace
  old_after_release : EachEvent OldAfterRelease c.trace

theorem captureInv_initial : CaptureInv (Config.initial {}) where
  released_le := Nat.le_refl _
  holding := rfl
  holding_seq := by simp [Config.initial]
  increasing := List.Pairwise.nil
  captured_le := by simp [Config.initial, capturedSeqs]
  order := rfl
  last_released := rfl
  old_after_release := eachEvent_nil _

/-- A call that returns `new = false` changes no shared value and holds nothing. -/
theorem captureInv_old {c : Config SeqState Call Event} (hc : CaptureInv c) {i : Nat} {t : Call}
    (hi : c.threads[i]? = some t) (hpc : t.pc = .capturing)
    (hold : c.shared.tryCaptureRequestSeq t.seq = .old) :
    CaptureInv ⟨c.shared, c.threads.set i { t with pc := .returnedOld },
      c.trace ++ [.returnedOld t.seq]⟩ := by
  obtain ⟨-, hrel⟩ := (SeqState.tryCaptureRequestSeq_old_iff c.shared t.seq).mp hold
  have hcount := countP_set_of_getElem? (p := fun t : Call => t.pc = .processing)
    { t with pc := .returnedOld } hi
  have hnil : releasedSeqs [Event.returnedOld t.seq] = [] := rfl
  refine ⟨hc.released_le, ?_, ?_, ?_, ?_, ?_, ?_, ?_⟩
  · -- the call was attempting, so it held nothing before either
    simp only [hpc, reduceCtorEq, decide_false, Bool.false_eq_true, if_false] at hcount
    rw [← hc.holding]
    omega
  · intro u hu hpu
    rcases List.mem_or_eq_of_mem_set hu with hu | rfl
    · exact hc.holding_seq u hu hpu
    · cases hpu
  · simpa [capturedSeqs] using hc.increasing
  · simpa [capturedSeqs] using hc.captured_le
  · simpa [captureRelease, releasedSeqs] using hc.order
  · rw [lastReleased_append_of_nil hnil]
    exact hc.last_released
  · refine hc.old_after_release.snoc ?_
    show t.seq ≤ lastReleased c.trace
    rw [← hc.last_released]
    exact hrel

/-- A new capture takes an identifier above every one captured before, when no call holds a
capture. -/
theorem captureInv_new {c : Config SeqState Call Event} (hc : CaptureInv c) {i : Nat} {t : Call}
    {s' : SeqState} (hi : c.threads[i]? = some t) (hpc : t.pc = .capturing)
    (hnew : c.shared.tryCaptureRequestSeq t.seq = .new s') :
    CaptureInv ⟨s', c.threads.set i { t with pc := .processing }, c.trace ++ [.captured t.seq]⟩ := by
  obtain ⟨hlt, hle, rfl⟩ := (SeqState.tryCaptureRequestSeq_new_iff c.shared s' t.seq).mp hnew
  -- no capture is held before, and the new one is held after
  have hfree : held c.shared = false := by
    simp only [held, decide_eq_false_iff_not, Nat.not_lt]
    exact hle
  have hheld : held { c.shared with lastCapturedSeq := t.seq } = true := by
    simp only [held, decide_eq_true_eq]
    have := hc.released_le
    omega
  have hcount := countP_set_of_getElem? (p := fun t : Call => t.pc = .processing)
    { t with pc := .processing } hi
  have hnone : c.threads.countP (fun t => t.pc = .processing) = 0 := by
    rw [hc.holding, hfree, if_neg Bool.false_ne_true]
  have hnil : releasedSeqs [Event.captured t.seq] = [] := rfl
  refine ⟨by simp; have := hc.released_le; omega, ?_, ?_, ?_, ?_, ?_, ?_, ?_⟩
  · simp only [hpc, hnone, reduceCtorEq, decide_false, Bool.false_eq_true, if_false,
      decide_true, if_true] at hcount
    rw [hheld, if_pos rfl]
    omega
  · intro u hu hpu
    rcases List.mem_or_eq_of_mem_set hu with hu | rfl
    · exact absurd (List.countP_eq_zero.mp hnone u hu) (by simpa using hpu)
    · rfl
  · -- the new identifier is above every one captured before
    rw [capturedSeqs_append, List.pairwise_append]
    refine ⟨hc.increasing, List.pairwise_singleton _ _, ?_⟩
    intro a ha b hb
    simp only [capturedSeqs, List.filterMap_cons, List.filterMap_nil,
      List.mem_singleton] at hb
    subst hb
    exact Nat.lt_of_le_of_lt (hc.captured_le a ha) hlt
  · intro a ha
    simp only [capturedSeqs_append, List.mem_append] at ha
    rcases ha with ha | ha
    · exact Nat.le_of_lt (Nat.lt_of_le_of_lt (hc.captured_le a ha) hlt)
    · simp [capturedSeqs] at ha
      exact Nat.le_of_eq ha
  · rw [captureRelease_append, hc.order, hfree, hheld, if_neg Bool.false_ne_true, if_pos rfl]
    simp [captureRelease, releasedSeqs]
  · rw [lastReleased_append_of_nil hnil]
    exact hc.last_released
  · exact hc.old_after_release.snoc trivial

/-- A release is of the last captured identifier, held by the releasing call alone. -/
theorem captureInv_release {c : Config SeqState Call Event} (hc : CaptureInv c) {i : Nat}
    {t : Call} (hi : c.threads[i]? = some t) (hpc : t.pc = .processing) :
    CaptureInv ⟨c.shared.releaseRequestSeq, c.threads.set i { t with pc := .released },
      c.trace ++ [.released t.seq]⟩ := by
  have hmem : t ∈ c.threads := List.mem_of_getElem? hi
  have hseq : t.seq = c.shared.lastCapturedSeq := hc.holding_seq t hmem hpc
  have hpos : 0 < c.threads.countP (fun t => t.pc = .processing) :=
    List.countP_pos_iff.mpr ⟨t, hmem, by simpa using hpc⟩
  -- the call holds the capture, so it is held
  have hheld : held c.shared = true := by
    rw [hc.holding] at hpos
    by_contra hfree
    rw [if_neg hfree] at hpos
    exact Nat.lt_irrefl 0 hpos
  have hfree : held c.shared.releaseRequestSeq = false := by
    simp [held, SeqState.releaseRequestSeq]
  have hcount := countP_set_of_getElem? (p := fun t : Call => t.pc = .processing)
    { t with pc := .released } hi
  simp only [hpc, decide_true, if_true, reduceCtorEq, decide_false, Bool.false_eq_true,
    if_false] at hcount
  have hnone : (c.threads.set i { t with pc := .released }).countP
      (fun t => t.pc = .processing) = 0 := by
    rw [hc.holding, hheld, if_pos rfl] at hcount
    omega
  refine ⟨Nat.le_refl _, ?_, ?_, ?_, ?_, ?_, ?_, ?_⟩
  · rw [hfree, if_neg Bool.false_ne_true]
    exact hnone
  · intro u hu hpu
    exact absurd hpu (by simpa using List.countP_eq_zero.mp hnone u hu)
  · simpa [capturedSeqs] using hc.increasing
  · simpa [capturedSeqs, SeqState.releaseRequestSeq] using hc.captured_le
  · rw [captureRelease_append, hc.order, hheld, hfree, if_pos rfl, if_neg Bool.false_ne_true,
      releasedSeqs_append, hseq]
    simp [captureRelease, releasedSeqs, oneAtATime]
  · rw [lastReleased_append_released, hseq]
    rfl
  · exact hc.old_after_release.snoc trivial

/-- **Every step keeps `CaptureInv`**: a new call, a `new = false` return, a new capture or a
release. -/
theorem captureInv_step {c c' : Config SeqState Call Event} (hc : CaptureInv c)
    (h : captureProgram.Step c c') : CaptureInv c' := by
  cases h with
  | spawn hstart =>
    rename_i t
    refine ⟨hc.released_le, ?_, ?_, hc.increasing, hc.captured_le, hc.order, hc.last_released,
      hc.old_after_release⟩
    · have hpc : t.pc = .capturing := hstart
      simp [List.countP_append, hpc, hc.holding]
    · intro u hu hpu
      rcases List.mem_append.mp hu with hu | hu
      · exact hc.holding_seq u hu hpu
      · have hpc : t.pc = .capturing := hstart
        rw [List.mem_singleton.mp hu, hpc] at hpu
        cases hpu
  | move hi hstep =>
    rcases captureStep_cases hstep with
      ⟨hpc, hold, rfl, rfl, rfl⟩ | ⟨hpc, hnew, rfl, rfl⟩ | ⟨hpc, rfl, rfl, rfl⟩
    · exact captureInv_old hc hi hpc hold
    · exact captureInv_new hc hi hpc hnew
    · exact captureInv_release hc hi hpc

/-- **`CaptureRequestSeq` serialises the processing of a client's Requests**: in every
interleaving of any number of calls for any identifiers, at most one call holds a capture; the
identifiers returned with `new = true` increase strictly in return order; a `new = false` return
for `seq` happens only once the last released identifier is at least `seq`; and the captures and
releases alternate, each identifier released before the next one is captured. -/
theorem captureRequestSeq_once_in_order {c : Config SeqState Call Event}
    (hc : captureProgram.Reachable {} c) :
    c.threads.countP (fun t => t.pc = .processing) ≤ 1 ∧
    (capturedSeqs c.trace).Pairwise (· < ·) ∧
    (∀ i seq, c.trace[i]? = some (.returnedOld seq) → seq ≤ lastReleased (c.trace.take i)) ∧
    ∃ (done : List Nat) (holding : Option Nat),
      captureRelease c.trace = oneAtATime done ++ (holding.map .captured).toList := by
  have hinv : CaptureInv c :=
    Inductive.reachable ⟨captureInv_initial, fun _ _ h hs => captureInv_step h hs⟩ hc
  refine ⟨?_, hinv.increasing, fun i seq h => hinv.old_after_release i _ h, ?_⟩
  · rw [hinv.holding]
    split <;> omega
  · refine ⟨releasedSeqs c.trace, if held c.shared then some c.shared.lastCapturedSeq else none,
      ?_⟩
    rw [hinv.order]
    split <;> rfl

/-- Two calls: `2` is captured and released, and a call for `1`, which had to wait for that
release, then returns `new = false`. -/
def staleCallRun : Config SeqState Call Event :=
  ⟨{ lastCapturedSeq := 2, lastReleasedSeq := 2 }, [⟨2, .released⟩, ⟨1, .returnedOld⟩],
    [.captured 2, .released 2, .returnedOld 1]⟩

theorem staleCallRun_reachable : captureProgram.Reachable {} staleCallRun := by
  -- the run is computed by a scheduler that takes only steps of `captureProgram`
  have hsched : runChoices
      (Program.schedStep (fun t => t.pc == .capturing) fun _ => captureStep) (Config.initial {})
      [.spawn ⟨2, .capturing⟩, .spawn ⟨1, .capturing⟩, .move 0, .move 0, .move 1] =
      some staleCallRun := rfl
  refine reflTransGen_of_runChoices (Program.schedStep_sound ?_ fun _ _ _ _ _ _ h => h) _ hsched
  intro t ht
  exact beq_iff_eq.mp ht

theorem captureRequestSeq_once_in_order_staleCall :
    staleCallRun.threads.countP (fun t => t.pc = .processing) ≤ 1 ∧
    (capturedSeqs staleCallRun.trace).Pairwise (· < ·) ∧
    (∀ i seq, staleCallRun.trace[i]? = some (.returnedOld seq) →
      seq ≤ lastReleased (staleCallRun.trace.take i)) ∧
    ∃ (done : List Nat) (holding : Option Nat),
      captureRelease staleCallRun.trace = oneAtATime done ++ (holding.map .captured).toList :=
  captureRequestSeq_once_in_order staleCallRun_reachable

end MinBFT.Core.RequestSeq
