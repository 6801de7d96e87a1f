import MinBFT.Messages.Protobuf

/-!
# The replica's state of a client

Model of `core/internal/clientstate` as one operation per method, each a function of the state
it locks: `seqState` (`request-seq.go`), `replyState` (`reply.go`) and `timerState`
(`timeout.go`). Each method body runs under the state's mutex, so one call is one atomic step;
the callers' concurrency is modelled where it matters (`PeerState`, the replica handler).

* `CaptureRequestSeq` blocks. `tryCaptureRequestSeq` is one attempt of its loop under the lock:
  `wait` when the loop would wait on `seqReleased`, `old` when it returns `new = false`, `new`
  with the captured state. A waiting call attempts again after a broadcast, and every value it
  tests only grows, so a second attempt takes the branch the first one waited in.
* `PrepareRequestSeq` and `RetireRequestSeq` return `(new, err)` as an `Except`.
* `AddReply` returns its error as an `Except`; the last Reply is kept as an `Option` (a nil
  interface before the first one).
* `timerState` keeps a reference to its last timer and the sequence it was started for. The
  timer `Provider` is `Timers`: the timers armed so far with their callbacks; `AfterFunc` arms a
  new one, `Stop` disarms one. A timer expires by being taken out of `armed` by the environment.

Results: the seqState invariant `SeqState.Valid` (`lastRetiredSeq ≤ lastPreparedSeq ≤
lastCapturedSeq`, `lastReleasedSeq ≤ lastCapturedSeq`) holds initially and every operation keeps
it; every operation only increases the four values (`SeqState.Le`); a call that returns an error
changes nothing; and the error branches are exactly `seq > lastCapturedSeq` and
`seq > lastPreparedSeq` past the "already done" test.
-/

namespace MinBFT.Core

open MinBFT.Messages

/-! ## `seqState` -/

/-- `seqState`, without its mutex and condition variable. -/
structure SeqState where
  lastCapturedSeq : Nat := 0
  lastReleasedSeq : Nat := 0
  lastPreparedSeq : Nat := 0
  lastRetiredSeq : Nat := 0
  deriving DecidableEq, Repr

/-- One attempt of `CaptureRequestSeq`'s loop. -/
inductive CaptureStep (σ : Type) where
  /-- The call waits on the condition variable and attempts again. -/
  | wait
  /-- The call returns `new = false`. -/
  | old
  /-- The call returns `new = true`, leaving the state `s`. -/
  | new (s : σ)
  deriving DecidableEq, Repr

namespace SeqState

/-- One attempt of `CaptureRequestSeq(seq)` under the lock. -/
def tryCaptureRequestSeq (s : SeqState) (seq : Nat) : CaptureStep SeqState :=
  if seq ≤ s.lastCapturedSeq then
    -- not new: wait until it is released
    if seq ≤ s.lastReleasedSeq then .old else .wait
  else if s.lastCapturedSeq > s.lastReleasedSeq then
    -- the greatest captured ID is not released yet
    .wait
  else .new { s with lastCapturedSeq := seq }

/-- The `release` closure `CaptureRequestSeq` returns. -/
def releaseRequestSeq (s : SeqState) : SeqState :=
  { s with lastReleasedSeq := s.lastCapturedSeq }

/-- `PrepareRequestSeq(seq)`. -/
def prepareRequestSeq (s : SeqState) (seq : Nat) : Except String Bool × SeqState :=
  if seq ≤ s.lastPreparedSeq then (.ok false, s)
  else if seq > s.lastCapturedSeq then (.error "Request ID not captured", s)
  else (.ok true, { s with lastPreparedSeq := seq })

/-- `RetireRequestSeq(seq)`. -/
def retireRequestSeq (s : SeqState) (seq : Nat) : Except String Bool × SeqState :=
  if seq ≤ s.lastRetiredSeq then (.ok false, s)
  else if seq > s.lastPreparedSeq then (.error "Request ID not prepared", s)
  else (.ok true, { s with lastRetiredSeq := seq })

/-- The ordering the four values keep: retired, prepared, captured; released, captured. -/
structure Valid (s : SeqState) : Prop where
  retired_le_prepared : s.lastRetiredSeq ≤ s.lastPreparedSeq
  prepared_le_captured : s.lastPreparedSeq ≤ s.lastCapturedSeq
  released_le_captured : s.lastReleasedSeq ≤ s.lastCapturedSeq

/-- None of the four values decreases from `s` to `s'`. -/
structure Le (s s' : SeqState) : Prop where
  captured : s.lastCapturedSeq ≤ s'.lastCapturedSeq
  released : s.lastReleasedSeq ≤ s'.lastReleasedSeq
  prepared : s.lastPreparedSeq ≤ s'.lastPreparedSeq
  retired : s.lastRetiredSeq ≤ s'.lastRetiredSeq

theorem valid_init : Valid {} := ⟨Nat.le_refl _, Nat.le_refl _, Nat.le_refl _⟩

theorem Le.refl (s : SeqState) : Le s s :=
  ⟨Nat.le_refl _, Nat.le_refl _, Nat.le_refl _, Nat.le_refl _⟩

theorem Le.trans {a b c : SeqState} (h₁ : Le a b) (h₂ : Le b c) : Le a c :=
  ⟨Nat.le_trans h₁.1 h₂.1, Nat.le_trans h₁.2 h₂.2, Nat.le_trans h₁.3 h₂.3,
    Nat.le_trans h₁.4 h₂.4⟩

/-- An attempt returns "old" exactly for an ID at or below the last released one. -/
theorem tryCaptureRequestSeq_old_iff (s : SeqState) (seq : Nat) :
    tryCaptureRequestSeq s seq = .old ↔ seq ≤ s.lastCapturedSeq ∧ seq ≤ s.lastReleasedSeq := by
  unfold tryCaptureRequestSeq
  by_cases h₁ : seq ≤ s.lastCapturedSeq
  · by_cases h₂ : seq ≤ s.lastReleasedSeq <;> simp [h₁, h₂]
  · by_cases h₂ : s.lastCapturedSeq > s.lastReleasedSeq <;> simp [h₁, h₂]

/-- **Spec of one capture attempt**: it captures an ID above the last captured one, and only
when that one is released. -/
theorem tryCaptureRequestSeq_new_iff (s s' : SeqState) (seq : Nat) :
    tryCaptureRequestSeq s seq = .new s' ↔
      s.lastCapturedSeq < seq ∧ s.lastCapturedSeq ≤ s.lastReleasedSeq ∧
        s' = { s with lastCapturedSeq := seq } := by
  unfold tryCaptureRequestSeq
  by_cases h₁ : seq ≤ s.lastCapturedSeq
  · have : ¬ s.lastCapturedSeq < seq := by omega
    by_cases h₂ : seq ≤ s.lastReleasedSeq <;> simp [h₁, h₂, this]
  · by_cases h₂ : s.lastCapturedSeq > s.lastReleasedSeq
    · have : ¬ s.lastCapturedSeq ≤ s.lastReleasedSeq := by omega
      simp [h₁, h₂, this]
    · simp only [h₁, h₂, if_false, CaptureStep.new.injEq]
      constructor
      · rintro rfl
        exact ⟨by omega, by omega, rfl⟩
      · rintro ⟨-, -, rfl⟩
        rfl

theorem tryCaptureRequestSeq_valid {s s' : SeqState} {seq : Nat} (hv : Valid s)
    (h : tryCaptureRequestSeq s seq = .new s') : Valid s' ∧ Le s s' := by
  obtain ⟨hlt, -, rfl⟩ := (tryCaptureRequestSeq_new_iff s s' seq).mp h
  exact ⟨⟨hv.1, by simp; have := hv.2; omega, by simp; have := hv.3; omega⟩,
    ⟨by simp; omega, Nat.le_refl _, Nat.le_refl _, Nat.le_refl _⟩⟩

theorem releaseRequestSeq_valid {s : SeqState} (hv : Valid s) :
    Valid (releaseRequestSeq s) ∧ Le s (releaseRequestSeq s) :=
  ⟨⟨hv.1, hv.2, Nat.le_refl _⟩, ⟨Nat.le_refl _, hv.3, Nat.le_refl _, Nat.le_refl _⟩⟩

theorem prepareRequestSeq_valid {s : SeqState} (hv : Valid s) (seq : Nat) :
    Valid (prepareRequestSeq s seq).2 ∧ Le s (prepareRequestSeq s seq).2 := by
  unfold prepareRequestSeq
  split
  · exact ⟨hv, Le.refl s⟩
  · split
    · exact ⟨hv, Le.refl s⟩
    · rename_i h₁ h₂
      exact ⟨⟨by simp; have := hv.1; omega, by simp; omega, hv.3⟩,
        ⟨Nat.le_refl _, Nat.le_refl _, by simp; omega, Nat.le_refl _⟩⟩

theorem retireRequestSeq_valid {s : SeqState} (hv : Valid s) (seq : Nat) :
    Valid (retireRequestSeq s seq).2 ∧ Le s (retireRequestSeq s seq).2 := by
  unfold retireRequestSeq
  split
  · exact ⟨hv, Le.refl s⟩
  · split
    · exact ⟨hv, Le.refl s⟩
    · rename_i h₁ h₂
      exact ⟨⟨by simp; omega, hv.2, hv.3⟩,
        ⟨Nat.le_refl _, Nat.le_refl _, Nat.le_refl _, by simp; omega⟩⟩

/-- A call of `PrepareRequestSeq` that does not fail leaves the ID prepared. -/
theorem le_prepareRequestSeq_of_ok {s : SeqState} {seq : Nat} {new : Bool}
    (h : (prepareRequestSeq s seq).1 = .ok new) : seq ≤ (prepareRequestSeq s seq).2.lastPreparedSeq := by
  unfold prepareRequestSeq at h ⊢
  split_ifs at h ⊢ with h₁ h₂
  · exact h₁
  · exact Nat.le_refl _

/-- `PrepareRequestSeq` fails exactly on a new ID above the last captured one, and then leaves
the state as it was. -/
theorem prepareRequestSeq_error_iff (s : SeqState) (seq : Nat) :
    (∃ e, (prepareRequestSeq s seq).1 = .error e) ↔
      s.lastPreparedSeq < seq ∧ s.lastCapturedSeq < seq := by
  unfold prepareRequestSeq
  by_cases h₁ : seq ≤ s.lastPreparedSeq
  · have : ¬ s.lastPreparedSeq < seq := by omega
    simp [h₁, this]
  · by_cases h₂ : seq > s.lastCapturedSeq
    · rw [if_neg h₁, if_pos h₂]
      exact ⟨fun _ => ⟨by omega, h₂⟩, fun _ => ⟨_, rfl⟩⟩
    · simp [h₁, h₂]

theorem prepareRequestSeq_error_state {s : SeqState} {seq : Nat} {e : String}
    (h : (prepareRequestSeq s seq).1 = .error e) : (prepareRequestSeq s seq).2 = s := by
  unfold prepareRequestSeq at h ⊢
  by_cases h₁ : seq ≤ s.lastPreparedSeq
  · simp [h₁]
  · by_cases h₂ : seq > s.lastCapturedSeq
    · simp [h₁, h₂]
    · simp [h₁, h₂] at h

/-- `RetireRequestSeq` fails exactly on a new ID above the last prepared one, and then leaves
the state as it was. -/
theorem retireRequestSeq_error_iff (s : SeqState) (seq : Nat) :
    (∃ e, (retireRequestSeq s seq).1 = .error e) ↔
      s.lastRetiredSeq < seq ∧ s.lastPreparedSeq < seq := by
  unfold retireRequestSeq
  by_cases h₁ : seq ≤ s.lastRetiredSeq
  · have : ¬ s.lastRetiredSeq < seq := by omega
    simp [h₁, this]
  · by_cases h₂ : seq > s.lastPreparedSeq
    · rw [if_neg h₁, if_pos h₂]
      exact ⟨fun _ => ⟨by omega, h₂⟩, fun _ => ⟨_, rfl⟩⟩
    · simp [h₁, h₂]

theorem retireRequestSeq_error_state {s : SeqState} {seq : Nat} {e : String}
    (h : (retireRequestSeq s seq).1 = .error e) : (retireRequestSeq s seq).2 = s := by
  unfold retireRequestSeq at h ⊢
  by_cases h₁ : seq ≤ s.lastRetiredSeq
  · simp [h₁]
  · by_cases h₂ : seq > s.lastPreparedSeq
    · simp [h₁, h₂]
    · simp [h₁, h₂] at h

end SeqState

/-! ## `replyState` -/

/-- `replyState`, without its mutex and the waiters' channels. -/
structure ReplyState where
  lastRepliedSeq : Nat := 0
  reply : Option Reply := none
  deriving DecidableEq, Repr

/-- `AddReply(reply)`. -/
def ReplyState.addReply (s : ReplyState) (reply : Reply) : Except String Unit × ReplyState :=
  if reply.sequence ≤ s.lastRepliedSeq then (.error "old request ID", s)
  else (.ok (), { lastRepliedSeq := reply.sequence, reply := some reply })

theorem ReplyState.addReply_ok_iff (s : ReplyState) (reply : Reply) :
    (s.addReply reply).1 = .ok () ↔ s.lastRepliedSeq < reply.sequence := by
  unfold ReplyState.addReply
  by_cases h : reply.sequence ≤ s.lastRepliedSeq
  · simp only [h, if_true, reduceCtorEq, false_iff]; omega
  · simp only [h, if_false, true_iff]; omega

/-- `AddReply` rejects a Reply whose sequence is not above the last one, and changes nothing. -/
theorem ReplyState.addReply_of_le (s : ReplyState) (reply : Reply)
    (h : reply.sequence ≤ s.lastRepliedSeq) : s.addReply reply = (.error "old request ID", s) := by
  simp [ReplyState.addReply, h]

/-! ## `timerState` and the timer `Provider` -/

/-- The timers of a `timer.Provider`: the next timer's identity and the armed timers with
their callbacks. -/
structure Timers (α : Type) where
  next : Nat := 0
  armed : List (Nat × α) := []
  deriving Repr

namespace Timers

variable {α : Type}

/-- `AfterFunc(d, f)`: a new armed timer. -/
def afterFunc (p : Timers α) (f : α) : Nat × Timers α :=
  (p.next, { next := p.next + 1, armed := p.armed ++ [(p.next, f)] })

/-- `Timer.Stop()`: the timer is no longer armed. -/
def stop (p : Timers α) (t : Nat) : Timers α :=
  { p with armed := p.armed.filter fun e => e.1 != t }

end Timers

/-- `timerState`: the last timer started and the sequence it was started for. -/
structure TimerState where
  timer : Option Nat := none
  seq : Nat := 0
  deriving DecidableEq, Repr

namespace TimerState

variable {α : Type}

/-- `StartTimer(seq, f)` with the current timeout duration `timeout`. A disabled timeout
(`≤ 0`) keeps the stopped timer's reference. -/
def startTimer (s : TimerState) (p : Timers α) (timeout : Int) (seq : Nat) (f : α) :
    TimerState × Timers α :=
  let p := match s.timer with
    | some t => p.stop t
    | none => p
  if timeout ≤ 0 then ({ s with seq := seq }, p)
  else
    let (t, p) := p.afterFunc f
    ({ timer := some t, seq := seq }, p)

/-- `StopTimer(seq)`. -/
def stopTimer (s : TimerState) (p : Timers α) (seq : Nat) : Timers α :=
  if s.seq ≠ seq then p
  else match s.timer with
    | none => p
    | some t => p.stop t

end TimerState

/-! ## The client state -/

/-- `clientState`: the state a replica keeps for one client. -/
structure ClientState where
  seq : SeqState := {}
  reply : ReplyState := {}
  requestTimer : TimerState := {}
  prepareTimer : TimerState := {}
  deriving DecidableEq, Repr

end MinBFT.Core
