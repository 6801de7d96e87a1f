import MinBFT.Core.ClientState
import MinBFT.System.Threads
import MinBFT.Usig.UI

/-!
# Capturing the UIs of a peer replica

Model of `peerState.CaptureUI` (`core/internal/peerstate/peerstate.go`), which
`makeUICapturer` (`core/usig-ui.go`) calls with the UI of every certified message before
`makeUIMessageProcessor` (`core/message-handling.go`) processes it:

```
for s.lastReleasedCV < ui.Counter-1 { wait }         // the previous UI is released
if ui.Counter <= s.lastCapturedCV {
    for s.lastReleasedCV < ui.Counter { wait }       // captured before: wait for its release
    return false, nil
}
s.lastCapturedCV = ui.Counter
return true, release                                 // release: lastReleasedCV = lastCapturedCV
```

`tryCaptureUI` is one attempt of the body under the lock (`CaptureStep.wait` when a loop waits;
every value tested only grows, so a waiting call's next attempt takes the same branch).
`ui.Counter-1` is the `uint64` subtraction `decCounter`. The release closure reads
`lastCapturedCV` when it runs.

## Every interleaving of `CaptureUI` calls

`captureUIProgram` runs any number of calls concurrently (`System.Program`), each for a counter
`≥ 1` (`makeUIVerifier` rejects a zero counter, and a USIG starts at one). A call that returns
`new = true` is processed and then released, like `makeUIMessageProcessor`'s deferred `release`.
The history records each `new = true` return (`captured`), each release (`released`) and each
`new = false` return (`returnedOld`).

**`captureUI_exactly_once_in_order`**: in every reachable configuration at most one call holds a
capture; the counters returned with `new = true` are `1, 2, …, k` in return order; a
`new = false` return for `cv` comes after the release of `cv`; and the captures and releases
alternate, `captured 1, released 1, captured 2, …`, so each counter is processed once, in
counter order, and never while another is. The inductive invariant is `CaptureInv`.
-/

namespace MinBFT.Core

open MinBFT.Usig MinBFT.System

/-- `peerState`, without its mutex and condition variable. -/
structure PeerState where
  lastCapturedCV : Nat := 0
  lastReleasedCV : Nat := 0
  deriving DecidableEq, Repr

namespace PeerState

/-- One attempt of `CaptureUI` for the counter `cv` under the lock. -/
def tryCaptureUI (s : PeerState) (cv : Nat) : CaptureStep PeerState :=
  if s.lastReleasedCV < decCounter cv then .wait
  else if cv ≤ s.lastCapturedCV then
    if s.lastReleasedCV < cv then .wait else .old
  else .new { s with lastCapturedCV := cv }

/-- The `release` closure `CaptureUI` returns. -/
def releaseUI (s : PeerState) : PeerState := { s with lastReleasedCV := s.lastCapturedCV }

theorem tryCaptureUI_old_iff (s : PeerState) {cv : Nat} (hcv : 1 ≤ cv) :
    s.tryCaptureUI cv = .old ↔ cv ≤ s.lastCapturedCV ∧ cv ≤ s.lastReleasedCV := by
  unfold tryCaptureUI
  rw [decCounter_of_pos hcv]
  by_cases h₁ : s.lastReleasedCV < cv - 1
  · have : ¬ cv ≤ s.lastReleasedCV := by omega
    simp [h₁, this]
  · by_cases h₂ : cv ≤ s.lastCapturedCV
    · by_cases h₃ : s.lastReleasedCV < cv
      · have : ¬ cv ≤ s.lastReleasedCV := by omega
        simp [h₁, h₂, h₃, this]
      · have : cv ≤ s.lastReleasedCV := by omega
        simp [h₁, h₂, h₃, this]
    · simp [h₁, h₂]

/-- **Spec of one attempt**: a new capture takes a counter above the last captured one and at
most one above the last released one. -/
theorem tryCaptureUI_new_iff (s s' : PeerState) {cv : Nat} (hcv : 1 ≤ cv) :
    s.tryCaptureUI cv = .new s' ↔
      s.lastCapturedCV < cv ∧ cv ≤ s.lastReleasedCV + 1 ∧
        s' = { s with lastCapturedCV := cv } := by
  unfold tryCaptureUI
  rw [decCounter_of_pos hcv]
  by_cases h₁ : s.lastReleasedCV < cv - 1
  · have : ¬ cv ≤ s.lastReleasedCV + 1 := by omega
    simp [h₁, this]
  · by_cases h₂ : cv ≤ s.lastCapturedCV
    · have : ¬ s.lastCapturedCV < cv := by omega
      by_cases h₃ : s.lastReleasedCV < cv <;> simp [h₁, h₂, h₃, this]
    · simp only [h₁, h₂, if_false, CaptureStep.new.injEq]
      constructor
      · rintro rfl
        exact ⟨by omega, by omega, rfl⟩
      · rintro ⟨-, -, rfl⟩
        rfl

/-- No attempt captures the counter `0`: `0 - 1` wraps around to the largest `uint64`. -/
theorem tryCaptureUI_new_pos {s s' : PeerState} {cv : Nat} (h : s.tryCaptureUI cv = .new s') :
    1 ≤ cv := by
  unfold tryCaptureUI at h
  -- the attempts that wait are refuted by `split_ifs`; the capture has `cv` above a counter
  split_ifs at h with h₁ h₂
  omega

/-- An attempt that returns "old" is for a counter at or below the last released one. -/
theorem tryCaptureUI_old_le {s : PeerState} {cv : Nat} (h : s.tryCaptureUI cv = .old) :
    cv ≤ s.lastReleasedCV := by
  unfold tryCaptureUI at h
  split_ifs at h with h₁ h₂ h₃
  omega

end PeerState

/-! ## Concurrent calls -/

/-- Where a `CaptureUI` call is: attempting, processing its capture, released, or returned
with `new = false`. -/
inductive CaptureUIPc where
  | capturing
  | processing
  | released
  | returnedOld
  deriving DecidableEq, Repr

/-- A call of `CaptureUI` for the UI counter `cv`. -/
structure CaptureUICall where
  cv : Nat
  pc : CaptureUIPc
  deriving DecidableEq, Repr

/-- The history of the calls. -/
inductive UIEvent where
  /-- A call returned `new = true`. -/
  | captured (cv : Nat)
  /-- A captured UI was released. -/
  | released (cv : Nat)
  /-- A call returned `new = false`. -/
  | returnedOld (cv : Nat)
  deriving DecidableEq, Repr

/-- One atomic step of a call: an attempt that returns, or the release of its capture. -/
def captureUIStep (s : PeerState) (t : CaptureUICall) :
    Option (PeerState × CaptureUICall × List UIEvent) :=
  match t.pc with
  | .capturing =>
    match s.tryCaptureUI t.cv with
    | .wait => none
    | .old => some (s, { t with pc := .returnedOld }, [.returnedOld t.cv])
    | .new s' => some (s', { t with pc := .processing }, [.captured t.cv])
  | .processing => some (s.releaseUI, { t with pc := .released }, [.released t.cv])
  | .released | .returnedOld => none

/-- Any number of concurrent `CaptureUI` calls, each for a counter `≥ 1`. -/
def captureUIProgram : Program PeerState CaptureUICall UIEvent where
  start t := 1 ≤ t.cv ∧ t.pc = .capturing
  step _ s t s' t' es := captureUIStep s t = some (s', t', es)

/-- The step a call can take, by phase. -/
theorem captureUIStep_cases {s s' : PeerState} {t t' : CaptureUICall} {es : List UIEvent}
    (h : captureUIStep s t = some (s', t', es)) :
    (t.pc = .capturing ∧ s.tryCaptureUI t.cv = .old ∧ s' = s ∧
        t' = { t with pc := .returnedOld } ∧ es = [.returnedOld t.cv]) ∨
    (t.pc = .capturing ∧ s.tryCaptureUI t.cv = .new s' ∧
        t' = { t with pc := .processing } ∧ es = [.captured t.cv]) ∨
    (t.pc = .processing ∧ s' = s.releaseUI ∧ t' = { t with pc := .released } ∧
        es = [.released t.cv]) := by
  unfold captureUIStep at h
  cases hpc : t.pc with
  | capturing =>
    rw [hpc] at h
    cases htry : s.tryCaptureUI t.cv with
    | wait => rw [htry] at h; cases h
    | old =>
      rw [htry] at h
      simp only [Option.some.injEq, Prod.mk.injEq] at h
      obtain ⟨rfl, rfl, rfl⟩ := h
      exact .inl ⟨rfl, rfl, rfl, rfl, rfl⟩
    | new s₁ =>
      rw [htry] at h
      simp only [Option.some.injEq, Prod.mk.injEq] at h
      obtain ⟨rfl, rfl, rfl⟩ := h
      exact .inr (.inl ⟨rfl, rfl, rfl, rfl⟩)
  | processing =>
    rw [hpc] at h
    simp only [Option.some.injEq, Prod.mk.injEq] at h
    obtain ⟨rfl, rfl, rfl⟩ := h
    exact .inr (.inr ⟨rfl, rfl, rfl, rfl⟩)
  | released => rw [hpc] at h; cases h
  | returnedOld => rw [hpc] at h; cases h

/-! ## The order of captures and releases -/

/-- The first `k` events of processing the counters `1, 2, 3, …` one at a time:
`captured 1, released 1, captured 2, released 2, …`. -/
def processingOrder (k : Nat) : List UIEvent :=
  (List.range k).map fun i => if i % 2 = 0 then .captured (i / 2 + 1) else .released (i / 2 + 1)

/-- The captures and releases of a history. -/
def captureRelease (es : List UIEvent) : List UIEvent :=
  es.filter fun | .returnedOld _ => false | _ => true

/-- The counters returned with `new = true`, in return order. -/
def capturedCounters (es : List UIEvent) : List Nat :=
  es.filterMap fun | .captured cv => some cv | _ => none

theorem processingOrder_succ (k : Nat) :
    processingOrder (k + 1) = processingOrder k ++
      [if k % 2 = 0 then .captured (k / 2 + 1) else .released (k / 2 + 1)] := by
  simp [processingOrder, List.range_succ]

/-- Every counter up to the `r`-th release is released within `processingOrder (r + c)`. -/
theorem released_mem_processingOrder {j r c : Nat} (hj : 1 ≤ j) (hjr : j ≤ r) (hrc : r ≤ c) :
    UIEvent.released j ∈ processingOrder (r + c) := by
  unfold processingOrder
  refine List.mem_map.mpr ⟨2 * j - 1, List.mem_range.mpr (by omega), ?_⟩
  have hodd : (2 * j - 1) % 2 = 1 := by omega
  have hdiv : (2 * j - 1) / 2 + 1 = j := by omega
  simp [hodd, hdiv]

/-- The invariant of every interleaving: at most one capture is held, and it is of the last
captured counter; captures and releases so far are `processingOrder`; the counters captured are
`1 … lastCapturedCV`; every `new = false` return comes after the release of its counter. -/
structure CaptureInv (c : Config PeerState CaptureUICall UIEvent) : Prop where
  released_le : c.shared.lastReleasedCV ≤ c.shared.lastCapturedCV
  captured_le : c.shared.lastCapturedCV ≤ c.shared.lastReleasedCV + 1
  holding : c.threads.countP (fun t => t.pc = .processing) =
    c.shared.lastCapturedCV - c.shared.lastReleasedCV
  holding_cv : ∀ t ∈ c.threads, t.pc = .processing → t.cv = c.shared.lastCapturedCV
  counter_pos : ∀ t ∈ c.threads, 1 ≤ t.cv
  order : captureRelease c.trace =
    processingOrder (c.shared.lastReleasedCV + c.shared.lastCapturedCV)
  captured : capturedCounters c.trace = List.range' 1 c.shared.lastCapturedCV
  old_after_release : ∀ i cv, c.trace[i]? = some (.returnedOld cv) →
    UIEvent.released cv ∈ c.trace.take i

theorem captureInv_initial : CaptureInv (Config.initial {}) where
  released_le := Nat.le_refl _
  captured_le := Nat.le_succ _
  holding := rfl
  holding_cv := by simp [Config.initial]
  counter_pos := by simp [Config.initial]
  order := rfl
  captured := rfl
  old_after_release := by simp [Config.initial]

/-- Appending events keeps every earlier `new = false` return after its release. -/
theorem old_after_release_append {tr es : List UIEvent}
    (h : ∀ i cv, tr[i]? = some (.returnedOld cv) → UIEvent.released cv ∈ tr.take i)
    (hes : ∀ i cv, i < es.length → es[i]? = some (.returnedOld cv) →
      UIEvent.released cv ∈ tr) :
    ∀ i cv, (tr ++ es)[i]? = some (.returnedOld cv) →
      UIEvent.released cv ∈ (tr ++ es).take i := by
  intro i cv hi
  by_cases hlt : i < tr.length
  · rw [List.getElem?_append_left hlt] at hi
    rw [List.take_append_of_le_length (Nat.le_of_lt hlt)]
    exact h i cv hi
  · rw [List.getElem?_append_right (by omega)] at hi
    have hes' := hes (i - tr.length) cv (List.getElem?_eq_some_iff.mp hi).1 hi
    rw [List.take_append, List.take_of_length_le (by omega)]
    exact List.mem_append_left _ hes'

theorem captureRelease_append (tr es : List UIEvent) :
    captureRelease (tr ++ es) = captureRelease tr ++ captureRelease es := by
  simp [captureRelease, List.filter_append]

theorem capturedCounters_append (tr es : List UIEvent) :
    capturedCounters (tr ++ es) = capturedCounters tr ++ capturedCounters es := by
  simp [capturedCounters, List.filterMap_append]

/-- A thread that holds no capture before and after a step leaves the holders unchanged. -/
theorem holders_of_set {l : List CaptureUICall} {i : Nat} {t' : CaptureUICall}
    (ht' : t'.pc ≠ .processing) {u : CaptureUICall}
    (hu : u ∈ l.set i t') (hpu : u.pc = .processing) : u ∈ l := by
  rcases List.mem_or_eq_of_mem_set hu with hu | rfl
  · exact hu
  · exact absurd hpu ht'

/-- A call that returns `new = false` changes no shared value and holds nothing. -/
theorem captureInv_old {c : Config PeerState CaptureUICall UIEvent} (hc : CaptureInv c)
    {i : Nat} {t : CaptureUICall} (hi : c.threads[i]? = some t) (hpos : 1 ≤ t.cv)
    (hpc : t.pc = .capturing) (hold : c.shared.tryCaptureUI t.cv = .old) :
    CaptureInv ⟨c.shared, c.threads.set i { t with pc := .returnedOld },
      c.trace ++ [.returnedOld t.cv]⟩ := by
  obtain ⟨-, hrel⟩ := (PeerState.tryCaptureUI_old_iff c.shared hpos).mp hold
  have hcount := countP_set_of_getElem? (p := fun t : CaptureUICall => t.pc = .processing)
    { t with pc := .returnedOld } hi
  refine ⟨hc.released_le, hc.captured_le, ?_, ?_, ?_, ?_, ?_, ?_⟩
  · -- the call was attempting, so it held nothing before either
    simp only [hpc, reduceCtorEq, decide_false, Bool.false_eq_true, if_false] at hcount
    rw [← hc.holding]
    omega
  · intro u hu hpu
    exact hc.holding_cv u (holders_of_set (by simp) hu hpu) hpu
  · exact forall_mem_set hc.counter_pos hpos
  · rw [captureRelease_append, hc.order]
    simp [captureRelease]
  · rw [capturedCounters_append, hc.captured]
    simp [capturedCounters]
  · refine old_after_release_append hc.old_after_release ?_
    intro k cv _ hk
    have hcv : t.cv = cv := by
      simp only [List.length_singleton, Nat.lt_one_iff] at *
      simp_all
    subst hcv
    have hmem := released_mem_processingOrder hpos hrel hc.released_le
    rw [← hc.order] at hmem
    exact List.mem_of_mem_filter hmem

/-- No thread holds a capture when the count of holders is zero. -/
theorem not_holding_of_countP_zero {l : List CaptureUICall}
    (h : l.countP (fun t => t.pc = .processing) = 0) {u : CaptureUICall} (hu : u ∈ l) :
    u.pc ≠ .processing := by
  have := List.countP_eq_zero.mp h u hu
  simpa using this

/-- A new capture takes the counter just above the last released one, which no thread holds. -/
theorem captureInv_new {c : Config PeerState CaptureUICall UIEvent} (hc : CaptureInv c)
    {i : Nat} {t : CaptureUICall} {s' : PeerState} (hi : c.threads[i]? = some t)
    (hpos : 1 ≤ t.cv) (hpc : t.pc = .capturing) (hnew : c.shared.tryCaptureUI t.cv = .new s') :
    CaptureInv ⟨s', c.threads.set i { t with pc := .processing }, c.trace ++ [.captured t.cv]⟩ := by
  obtain ⟨hlt, hle, rfl⟩ := (PeerState.tryCaptureUI_new_iff c.shared s' hpos).mp hnew
  have hrel := hc.released_le
  -- the last captured UI is released, and the new counter is the next one
  have hcap : c.shared.lastCapturedCV = c.shared.lastReleasedCV := by omega
  have hcv : t.cv = c.shared.lastReleasedCV + 1 := by omega
  have hcount := countP_set_of_getElem? (p := fun t : CaptureUICall => t.pc = .processing)
    { t with pc := .processing } hi
  have hnone : c.threads.countP (fun t => t.pc = .processing) = 0 := by
    rw [hc.holding, hcap, Nat.sub_self]
  refine ⟨by simp; omega, by simp; omega, ?_, ?_, ?_, ?_, ?_, ?_⟩
  · simp only [hpc, reduceCtorEq, decide_false, Bool.false_eq_true, if_false, decide_true,
      if_true] at hcount
    simp only
    omega
  · intro u hu hpu
    rcases List.mem_or_eq_of_mem_set hu with hu | rfl
    · exact absurd hpu (not_holding_of_countP_zero hnone hu)
    · rfl
  · exact forall_mem_set hc.counter_pos hpos
  · rw [captureRelease_append, hc.order]
    have hk : c.shared.lastReleasedCV + t.cv =
        (c.shared.lastReleasedCV + c.shared.lastCapturedCV) + 1 := by omega
    simp only
    rw [hk, processingOrder_succ]
    have hmod : (c.shared.lastReleasedCV + c.shared.lastCapturedCV) % 2 = 0 := by omega
    have hdiv : (c.shared.lastReleasedCV + c.shared.lastCapturedCV) / 2 + 1 = t.cv := by omega
    simp [captureRelease, hmod, hdiv]
  · rw [capturedCounters_append, hc.captured]
    simp only
    rw [hcv, ← hcap, List.range'_1_concat]
    simp [capturedCounters, Nat.add_comm]
  · refine old_after_release_append hc.old_after_release ?_
    intro k cv hk hget
    simp at hk
    subst hk
    simp at hget

/-- A release is of the last captured counter, held by the releasing thread alone. -/
theorem captureInv_release {c : Config PeerState CaptureUICall UIEvent} (hc : CaptureInv c)
    {i : Nat} {t : CaptureUICall} (hi : c.threads[i]? = some t) (hpc : t.pc = .processing) :
    CaptureInv ⟨c.shared.releaseUI, c.threads.set i { t with pc := .released },
      c.trace ++ [.released t.cv]⟩ := by
  have hmem : t ∈ c.threads := List.mem_of_getElem? hi
  have htcv : t.cv = c.shared.lastCapturedCV := hc.holding_cv t hmem hpc
  have hpos : 0 < c.threads.countP (fun t => t.pc = .processing) :=
    List.countP_pos_iff.mpr ⟨t, hmem, by simpa using hpc⟩
  -- one capture is held, so the last captured counter is one above the last released one
  have hcap : c.shared.lastCapturedCV = c.shared.lastReleasedCV + 1 := by
    have := hc.holding; have := hc.captured_le; omega
  have hcount := countP_set_of_getElem? (p := fun t : CaptureUICall => t.pc = .processing)
    { t with pc := .released } hi
  simp only [hpc, decide_true, if_true, reduceCtorEq, decide_false, Bool.false_eq_true,
    if_false] at hcount
  have hnone : (c.threads.set i { t with pc := .released }).countP
      (fun t => t.pc = .processing) = 0 := by
    rw [hc.holding] at hcount; omega
  refine ⟨Nat.le_refl _, Nat.le_succ _, ?_, ?_, ?_, ?_, ?_, ?_⟩
  · simp only [PeerState.releaseUI, Nat.sub_self]
    exact hnone
  · intro u hu hpu
    exact absurd hpu (not_holding_of_countP_zero hnone hu)
  · exact forall_mem_set hc.counter_pos (hc.counter_pos t hmem)
  · rw [captureRelease_append, hc.order]
    simp only [PeerState.releaseUI]
    have hk : c.shared.lastCapturedCV + c.shared.lastCapturedCV =
        (c.shared.lastReleasedCV + c.shared.lastCapturedCV) + 1 := by omega
    rw [hk, processingOrder_succ]
    have hmod : (c.shared.lastReleasedCV + c.shared.lastCapturedCV) % 2 = 1 := by omega
    have hdiv : (c.shared.lastReleasedCV + c.shared.lastCapturedCV) / 2 + 1 = t.cv := by omega
    simp [captureRelease, hmod, hdiv]
  · rw [capturedCounters_append, hc.captured]
    simp [capturedCounters, PeerState.releaseUI]
  · refine old_after_release_append hc.old_after_release ?_
    intro k cv hk hget
    simp at hk
    subst hk
    simp at hget

/-- **Every step keeps `CaptureInv`**: a new call, a `new = false` return, a new capture or a
release. -/
theorem captureInv_step {c c' : Config PeerState CaptureUICall UIEvent} (hc : CaptureInv c)
    (h : captureUIProgram.Step c c') : CaptureInv c' := by
  cases h with
  | spawn hstart =>
    rename_i t
    obtain ⟨hpos, hpc⟩ := hstart
    refine ⟨hc.released_le, hc.captured_le, ?_, ?_, ?_, hc.order, hc.captured,
      hc.old_after_release⟩
    · simp [List.countP_append, hpc, hc.holding]
    · intro u hu hpu
      rcases List.mem_append.mp hu with hu | hu
      · exact hc.holding_cv u hu hpu
      · rw [List.mem_singleton.mp hu, hpc] at hpu
        cases hpu
    · exact forall_mem_append_singleton hc.counter_pos hpos
  | move hi hstep =>
    rename_i i t t' s' es
    have hpos : 1 ≤ t.cv := hc.counter_pos t (List.mem_of_getElem? hi)
    rcases captureUIStep_cases hstep with
      ⟨hpc, hold, rfl, rfl, rfl⟩ | ⟨hpc, hnew, rfl, rfl⟩ | ⟨hpc, rfl, rfl, rfl⟩
    · exact captureInv_old hc hi hpos hpc hold
    · exact captureInv_new hc hi hpos hpc hnew
    · exact captureInv_release hc hi hpc

/-- **`CaptureUI` processes each counter once, in order**: in every interleaving of any
number of calls for counters `≥ 1`, at most one call holds a capture, the counters returned with
`new = true` are `1, 2, …, k` in the order they return, every `new = false` return for `cv` comes
after the release of `cv`, and the captures and releases alternate in counter order. -/
theorem captureUI_exactly_once_in_order {c : Config PeerState CaptureUICall UIEvent}
    (hc : captureUIProgram.Reachable {} c) :
    c.threads.countP (fun t => t.pc = .processing) ≤ 1 ∧
    (∃ k, capturedCounters c.trace = List.range' 1 k) ∧
    (∀ i cv, c.trace[i]? = some (.returnedOld cv) → UIEvent.released cv ∈ c.trace.take i) ∧
    ∃ k, captureRelease c.trace = processingOrder k := by
  have hinv : CaptureInv c :=
    Inductive.reachable ⟨captureInv_initial, fun _ _ h hs => captureInv_step h hs⟩ hc
  refine ⟨?_, ⟨_, hinv.captured⟩, hinv.old_after_release, ⟨_, hinv.order⟩⟩
  rw [hinv.holding]
  have := hinv.captured_le
  omega

/-- Two calls for counter `1`: the first captures and releases it, the second returns
`new = false` after the release. -/
def twoCallsRun : Config PeerState CaptureUICall UIEvent :=
  ⟨{ lastCapturedCV := 1, lastReleasedCV := 1 }, [⟨1, .released⟩, ⟨1, .returnedOld⟩],
    [.captured 1, .released 1, .returnedOld 1]⟩

theorem twoCallsRun_reachable : captureUIProgram.Reachable {} twoCallsRun := by
  -- the run is computed by a scheduler that takes only steps of `captureUIProgram`
  have hsched : runChoices
      (Program.schedStep (fun t => decide (1 ≤ t.cv) && t.pc == .capturing) fun _ => captureUIStep)
      (Config.initial {})
      [.spawn ⟨1, .capturing⟩, .spawn ⟨1, .capturing⟩, .move 0, .move 0, .move 1] =
      some twoCallsRun := rfl
  refine reflTransGen_of_runChoices (Program.schedStep_sound ?_ fun _ _ _ _ _ _ h => h) _ hsched
  intro t ht
  simp only [Bool.and_eq_true, decide_eq_true_eq, beq_iff_eq] at ht
  exact ht

theorem captureUI_exactly_once_in_order_twoCalls :
    twoCallsRun.threads.countP (fun t => t.pc = .processing) ≤ 1 ∧
    (∃ k, capturedCounters twoCallsRun.trace = List.range' 1 k) ∧
    (∀ i cv, twoCallsRun.trace[i]? = some (.returnedOld cv) →
      UIEvent.released cv ∈ twoCallsRun.trace.take i) ∧
    ∃ k, captureRelease twoCallsRun.trace = processingOrder k :=
  captureUI_exactly_once_in_order twoCallsRun_reachable

end MinBFT.Core
