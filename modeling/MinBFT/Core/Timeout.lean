import MinBFT.Core.ClientState
import MinBFT.System.Reach
import Mathlib.Data.List.Perm.Subperm
import Mathlib.Data.List.Nodup

/-!
# A client's timer over any run

Model of one `timerState` (`core/internal/clientstate/timeout.go`) over whole runs. A
configuration is the timer state, the timer `Provider` it uses, and the history of its
`StartTimer` calls (`TimerConfig`). A step (`TimerStep`) is a `StartTimer(seq, f)` call, whose
timeout is whatever `s.timeout()` returns at that moment, positive or not; a `StopTimer(seq)`
call; a timer expiring, which takes it out of the armed ones; or another user of the provider
(the replica shares one among all its clients' timer states) arming a timer of its own.

A history entry (`StartRecord`) records the sequence, the timeout and the timer the call armed,
if it armed one: the identity `AfterFunc` returned. The timers this timer state created are
those of its history (`TimerConfig.created`).

`StartTimer` with a timeout that is not positive stops the old timer and keeps the reference
to it. A later `StopTimer` for the new sequence stops that timer again, which is harmless: a
timer's identity is never reused, so it stops nothing else.

## Results

* `mem_startTimer`, `mem_stopTimer`: the timers armed after each call.
* `TimerOk`: the invariant, kept by every step (`timerOk_inductive`).
* `timerState_single_armed`: in every reachable configuration at most one timer this timer
  state created is armed; one that is was armed by the most recent `StartTimer`, whose timeout
  was positive; `StopTimer(seq)` for that call's sequence leaves none armed, and for any other
  sequence changes nothing.
-/

namespace MinBFT.Core

open MinBFT.System

variable {α : Type}

/-! ## The provider's and the timer state's operations -/

namespace Timers

theorem mem_stop {p : Timers α} {t : Nat} {e : Nat × α} :
    e ∈ (p.stop t).armed ↔ e ∈ p.armed ∧ e.1 ≠ t := by
  simp [stop]

@[simp] theorem next_stop (p : Timers α) (t : Nat) : (p.stop t).next = p.next := rfl

theorem stop_sublist (p : Timers α) (t : Nat) : (p.stop t).armed.Sublist p.armed :=
  List.filter_sublist

theorem mem_afterFunc {p : Timers α} {f : α} {e : Nat × α} :
    e ∈ (p.afterFunc f).2.armed ↔ e ∈ p.armed ∨ e = (p.next, f) := by
  simp [afterFunc]

@[simp] theorem next_afterFunc (p : Timers α) (f : α) : (p.afterFunc f).2.next = p.next + 1 :=
  rfl

/-- `AfterFunc` gives a new identity: above every armed one, the armed identities stay
distinct. -/
theorem nodup_afterFunc {p : Timers α} (hnd : (p.armed.map Prod.fst).Nodup)
    (hlt : ∀ e ∈ p.armed, e.1 < p.next) (f : α) :
    ((p.afterFunc f).2.armed.map Prod.fst).Nodup := by
  simp only [afterFunc, List.map_append, List.map_cons, List.map_nil]
  refine List.nodup_append.mpr ⟨hnd, List.nodup_singleton _, ?_⟩
  simp only [List.mem_map, List.mem_singleton]
  rintro _ ⟨e, he, rfl⟩ _ rfl
  exact Nat.ne_of_lt (hlt e he)

end Timers

namespace TimerState

variable {s : TimerState} {p : Timers α} {timeout : Int} {seq : Nat} {f : α}

/-- `StartTimer` stops the old timer first, then arms a new one on what is left. -/
theorem startTimer_eq (s : TimerState) (p : Timers α) (timeout : Int) (seq : Nat) (f : α) :
    s.startTimer p timeout seq f =
      let p' := s.timer.elim p p.stop
      if timeout ≤ 0 then ({ s with seq := seq }, p')
      else ({ timer := some p'.next, seq := seq }, (p'.afterFunc f).2) := by
  unfold startTimer
  cases s.timer <;> rfl

theorem next_elim_stop : (s.timer.elim p p.stop).next = p.next := by
  cases s.timer <;> rfl

theorem mem_elim_stop {e : Nat × α} :
    e ∈ (s.timer.elim p p.stop).armed ↔ e ∈ p.armed ∧ s.timer ≠ some e.1 := by
  cases s.timer with
  | none => simp
  | some t =>
    rw [Option.elim_some, Timers.mem_stop]
    simp [eq_comm]

theorem elim_stop_sublist : (s.timer.elim p p.stop).armed.Sublist p.armed := by
  cases s.timer with
  | none => exact List.Sublist.refl _
  | some t => exact Timers.stop_sublist p t

theorem state_startTimer :
    (s.startTimer p timeout seq f).1 =
      { timer := if 0 < timeout then some p.next else s.timer, seq := seq } := by
  rw [startTimer_eq]
  dsimp only
  by_cases h : timeout ≤ 0
  · rw [if_pos h, if_neg (by omega)]
  · rw [if_neg h, if_pos (by omega), next_elim_stop]

theorem next_startTimer :
    (s.startTimer p timeout seq f).2.next = if 0 < timeout then p.next + 1 else p.next := by
  rw [startTimer_eq]
  dsimp only
  by_cases h : timeout ≤ 0
  · rw [if_pos h, if_neg (by omega), next_elim_stop]
  · rw [if_neg h, if_pos (by omega), Timers.next_afterFunc, next_elim_stop]

/-- After `StartTimer`, the armed timers are the old ones but the last one started, and the new
one if the timeout is positive. -/
theorem mem_startTimer {e : Nat × α} :
    e ∈ (s.startTimer p timeout seq f).2.armed ↔
      (e ∈ p.armed ∧ s.timer ≠ some e.1) ∨ (0 < timeout ∧ e = (p.next, f)) := by
  rw [startTimer_eq]
  dsimp only
  by_cases h : timeout ≤ 0
  · rw [if_pos h, mem_elim_stop]
    simp only [show ¬0 < timeout by omega, false_and, or_false]
  · rw [if_neg h, Timers.mem_afterFunc, mem_elim_stop, next_elim_stop]
    simp only [show 0 < timeout by omega, true_and]

theorem nodup_startTimer (hnd : (p.armed.map Prod.fst).Nodup)
    (hlt : ∀ e ∈ p.armed, e.1 < p.next) :
    ((s.startTimer p timeout seq f).2.armed.map Prod.fst).Nodup := by
  have hsub : (s.timer.elim p p.stop).armed.Sublist p.armed := elim_stop_sublist
  have hnd' := hnd.sublist (hsub.map Prod.fst)
  rw [startTimer_eq]
  dsimp only
  split_ifs
  · exact hnd'
  · refine Timers.nodup_afterFunc hnd' (fun e he => ?_) f
    rw [next_elim_stop]
    exact hlt e (hsub.subset he)

/-- `StopTimer` stops the last timer started when its sequence is the last one, and changes
nothing otherwise. -/
theorem mem_stopTimer {e : Nat × α} :
    e ∈ (s.stopTimer p seq).armed ↔
      e ∈ p.armed ∧ (s.seq = seq → s.timer ≠ some e.1) := by
  unfold stopTimer
  split_ifs with hseq
  · simp [hseq]
  · have hs : s.seq = seq := not_not.mp hseq
    cases s.timer with
    | none => simp
    | some t =>
      rw [Timers.mem_stop]
      simp only [hs, forall_const, ne_eq, Option.some.injEq]
      exact and_congr_right fun _ => ⟨fun h h' => h h'.symm, fun h h' => h h'.symm⟩

theorem stopTimer_of_ne (h : s.seq ≠ seq) : s.stopTimer p seq = p := by
  simp [stopTimer, h]

theorem stopTimer_of_timer_eq_none (h : s.timer = none) : s.stopTimer p seq = p := by
  unfold stopTimer
  rw [h]
  split_ifs <;> rfl

theorem stopTimer_sublist : (s.stopTimer p seq).armed.Sublist p.armed := by
  unfold stopTimer
  split_ifs
  · exact List.Sublist.refl _
  · cases s.timer with
    | none => exact List.Sublist.refl _
    | some t => exact Timers.stop_sublist p t

@[simp] theorem next_stopTimer : (s.stopTimer p seq).next = p.next := by
  unfold stopTimer
  split_ifs
  · rfl
  · cases s.timer <;> rfl

end TimerState

/-! ## Runs -/

/-- One `StartTimer` call: its sequence, the timeout `s.timeout()` returned, and the timer it
armed, if it armed one. -/
structure StartRecord where
  seq : Nat
  timeout : Int
  timer : Option Nat
  deriving DecidableEq, Repr

/-- A `timerState`, the timer `Provider` it uses, and its `StartTimer` calls so far. -/
structure TimerConfig (α : Type) where
  state : TimerState := {}
  timers : Timers α := {}
  starts : List StartRecord := []

namespace TimerConfig

/-- The timers this timer state created. -/
def created (c : TimerConfig α) : List Nat := c.starts.filterMap StartRecord.timer

/-- `StartTimer(seq, f)` with the timeout `timeout`, recorded in the history: the timer it arms
has the identity `AfterFunc` returns, the provider's next one. -/
def startTimer (c : TimerConfig α) (timeout : Int) (seq : Nat) (f : α) : TimerConfig α where
  state := (c.state.startTimer c.timers timeout seq f).1
  timers := (c.state.startTimer c.timers timeout seq f).2
  starts := c.starts ++ [⟨seq, timeout, if 0 < timeout then some c.timers.next else none⟩]

theorem created_startTimer (c : TimerConfig α) (timeout : Int) (seq : Nat) (f : α) :
    (c.startTimer timeout seq f).created =
      c.created ++ if 0 < timeout then [c.timers.next] else [] := by
  simp only [created, startTimer, List.filterMap_append, List.filterMap_cons,
    List.filterMap_nil]
  split_ifs <;> rfl

theorem mem_created_startTimer {c : TimerConfig α} {timeout : Int} {seq : Nat} {f : α} {t : Nat} :
    t ∈ (c.startTimer timeout seq f).created ↔
      t ∈ c.created ∨ (0 < timeout ∧ t = c.timers.next) := by
  rw [created_startTimer, List.mem_append]
  split_ifs with hpos <;> simp [hpos]

theorem state_startTimer (c : TimerConfig α) (timeout : Int) (seq : Nat) (f : α) :
    (c.startTimer timeout seq f).state =
      { timer := if 0 < timeout then some c.timers.next else c.state.timer, seq := seq } :=
  TimerState.state_startTimer

theorem next_startTimer (c : TimerConfig α) (timeout : Int) (seq : Nat) (f : α) :
    (c.startTimer timeout seq f).timers.next =
      if 0 < timeout then c.timers.next + 1 else c.timers.next :=
  TimerState.next_startTimer

theorem getLast?_startTimer (c : TimerConfig α) (timeout : Int) (seq : Nat) (f : α) :
    (c.startTimer timeout seq f).starts.getLast? =
      some ⟨seq, timeout, if 0 < timeout then some c.timers.next else none⟩ :=
  List.getLast?_concat

end TimerConfig

/-- One step of a run: a `StartTimer` or `StopTimer` call, a timer expiring, or another user of
the provider arming a timer. -/
inductive TimerStep : TimerConfig α → TimerConfig α → Prop
  | start {c : TimerConfig α} (timeout : Int) (seq : Nat) (f : α) :
      TimerStep c (c.startTimer timeout seq f)
  | stop {c : TimerConfig α} (seq : Nat) :
      TimerStep c { c with timers := c.state.stopTimer c.timers seq }
  | expire {c : TimerConfig α} (t : Nat) :
      TimerStep c { c with timers := c.timers.stop t }
  | arm {c : TimerConfig α} (f : α) :
      TimerStep c { c with timers := (c.timers.afterFunc f).2 }

/-! ## The invariant -/

/-- Identities are fresh and unique; the timer state refers to a timer it created, the one the
last `StartTimer` armed if it armed one, and keeps that call's sequence; and a timer it created
that is armed is the one the last `StartTimer` armed, with a positive timeout. -/
structure TimerOk (c : TimerConfig α) : Prop where
  armed_lt : ∀ e ∈ c.timers.armed, e.1 < c.timers.next
  created_lt : ∀ t ∈ c.created, t < c.timers.next
  nodup : (c.timers.armed.map Prod.fst).Nodup
  timer_mem : ∀ t, c.state.timer = some t → t ∈ c.created
  last_timer : ∀ r, c.starts.getLast? = some r → ∀ t, r.timer = some t →
    c.state.timer = some t
  seq_eq : c.state.seq = (c.starts.getLast?.map StartRecord.seq).getD 0
  armed_last : ∀ e ∈ c.timers.armed, e.1 ∈ c.created →
    ∃ r, c.starts.getLast? = some r ∧ r.timer = some e.1 ∧ 0 < r.timeout

theorem timerOk_init : TimerOk ({} : TimerConfig α) where
  armed_lt := fun _ h => by cases h
  created_lt := fun _ h => by cases h
  nodup := List.nodup_nil
  timer_mem := fun _ h => by cases h
  last_timer := fun _ h => by cases h
  seq_eq := rfl
  armed_last := fun _ h => by cases h

namespace TimerOk

variable {c : TimerConfig α}

/-- A step that only disarms timers keeps the invariant: `StopTimer` and an expiry. -/
theorem of_sublist (h : TimerOk c) {p : Timers α} (hsub : p.armed.Sublist c.timers.armed)
    (hnext : p.next = c.timers.next) : TimerOk { c with timers := p } where
  armed_lt := fun e he => hnext ▸ h.armed_lt e (hsub.subset he)
  created_lt := fun t ht => hnext ▸ h.created_lt t ht
  nodup := h.nodup.sublist (hsub.map Prod.fst)
  timer_mem := h.timer_mem
  last_timer := h.last_timer
  seq_eq := h.seq_eq
  armed_last := fun e he => h.armed_last e (hsub.subset he)

/-- Another user's timer is not one this timer state created. -/
theorem arm (h : TimerOk c) (f : α) : TimerOk { c with timers := (c.timers.afterFunc f).2 } where
  armed_lt := fun e he => by
    rcases Timers.mem_afterFunc.mp he with he | rfl
    · exact Nat.lt_succ_of_lt (h.armed_lt e he)
    · exact Nat.lt_succ_self _
  created_lt := fun t ht => Nat.lt_succ_of_lt (h.created_lt t ht)
  nodup := Timers.nodup_afterFunc h.nodup h.armed_lt f
  timer_mem := h.timer_mem
  last_timer := h.last_timer
  seq_eq := h.seq_eq
  armed_last := fun e he hc => by
    rcases Timers.mem_afterFunc.mp he with he | rfl
    · exact h.armed_last e he hc
    · exact absurd (h.created_lt _ hc) (Nat.lt_irrefl _)

/-- Once `StartTimer` has stopped the last timer started, no timer this timer state created is
armed. -/
theorem not_created_of_stopped (h : TimerOk c) {e : Nat × α} (he : e ∈ c.timers.armed)
    (hne : c.state.timer ≠ some e.1) : e.1 ∉ c.created := fun hc => by
  obtain ⟨r, hr, hrt, -⟩ := h.armed_last e he hc
  exact hne (h.last_timer r hr e.1 hrt)

theorem start (h : TimerOk c) (timeout : Int) (seq : Nat) (f : α) :
    TimerOk (c.startTimer timeout seq f) := by
  have hlast := c.getLast?_startTimer timeout seq f
  -- an old timer still armed was not created here: neither an old one nor the new identity
  have hold : ∀ e ∈ c.timers.armed, c.state.timer ≠ some e.1 →
      e.1 ∉ (c.startTimer timeout seq f).created := fun e he hne hc => by
    rcases TimerConfig.mem_created_startTimer.mp hc with hc | ⟨-, hc⟩
    · exact h.not_created_of_stopped he hne hc
    · exact Nat.ne_of_lt (h.armed_lt e he) hc
  refine
    { armed_lt := fun e he => ?_
      created_lt := fun t ht => ?_
      nodup := TimerState.nodup_startTimer h.nodup h.armed_lt
      timer_mem := fun t ht => ?_
      last_timer := fun r hr t ht => ?_
      seq_eq := by rw [hlast, c.state_startTimer]; rfl
      armed_last := fun e he hc => ?_ }
  · rw [c.next_startTimer]
    rcases TimerState.mem_startTimer.mp he with ⟨he, -⟩ | ⟨hpos, rfl⟩
    · have := h.armed_lt e he
      split_ifs <;> omega
    · rw [if_pos hpos]
      exact Nat.lt_succ_self _
  · rw [c.next_startTimer]
    rcases TimerConfig.mem_created_startTimer.mp ht with ht | ⟨hpos, rfl⟩
    · have := h.created_lt t ht
      split_ifs <;> omega
    · rw [if_pos hpos]
      exact Nat.lt_succ_self _
  · rw [c.state_startTimer] at ht
    refine TimerConfig.mem_created_startTimer.mpr ?_
    by_cases hpos : 0 < timeout
    · rw [if_pos hpos] at ht
      exact .inr ⟨hpos, (Option.some.inj ht).symm⟩
    · rw [if_neg hpos] at ht
      exact .inl (h.timer_mem t ht)
  · -- the last record is this call's: it armed a timer only with a positive timeout
    rw [hlast, Option.some.injEq] at hr
    subst hr
    rw [c.state_startTimer]
    by_cases hpos : 0 < timeout
    · rw [if_pos hpos] at ht ⊢
      exact ht
    · rw [if_neg hpos] at ht
      cases ht
  · rcases TimerState.mem_startTimer.mp he with ⟨he, hne⟩ | ⟨hpos, rfl⟩
    · exact absurd hc (hold e he hne)
    · exact ⟨_, hlast, if_pos hpos, hpos⟩

end TimerOk

theorem timerOk_inductive : Inductive (TimerStep (α := α)) {} TimerOk where
  init := timerOk_init
  step := fun _ _ h hs => by
    cases hs with
    | start timeout seq f => exact h.start timeout seq f
    | stop seq => exact h.of_sublist TimerState.stopTimer_sublist TimerState.next_stopTimer
    | expire t => exact h.of_sublist (Timers.stop_sublist _ t) (Timers.next_stop _ t)
    | arm f => exact h.arm f

/-- Entries with distinct identities that all have one identity: at most one. -/
theorem length_le_one_of_fst_eq {l : List (Nat × α)} (hnd : (l.map Prod.fst).Nodup)
    (heq : ∀ e ∈ l, ∀ e' ∈ l, e.1 = e'.1) : l.length ≤ 1 := by
  cases l with
  | nil => exact Nat.zero_le 1
  | cons e₀ rest =>
    have hsub : (e₀ :: rest).map Prod.fst ⊆ [e₀.1] := by
      intro k hk
      obtain ⟨e, he, rfl⟩ := List.mem_map.mp hk
      exact List.mem_singleton.mpr (heq e he e₀ List.mem_cons_self)
    simpa using (hnd.subperm hsub).length_le

/-! ## Main result -/

/-- **A `timerState` has at most one timer armed.** In every reachable configuration: at most
one timer this timer state created is armed; a timer it created that is armed was armed by the
most recent `StartTimer`, with a positive timeout; `StopTimer` with that call's sequence leaves
no timer it created armed; and `StopTimer` with any other sequence changes nothing. -/
theorem timerState_single_armed {c : TimerConfig α} (hc : Reachable TimerStep {} c) :
    (c.timers.armed.filter fun e => e.1 ∈ c.created).length ≤ 1 ∧
    (∀ e ∈ c.timers.armed, e.1 ∈ c.created →
      ∃ r, c.starts.getLast? = some r ∧ r.timer = some e.1 ∧ 0 < r.timeout) ∧
    (∀ r, c.starts.getLast? = some r →
      ∀ e ∈ (c.state.stopTimer c.timers r.seq).armed, e.1 ∉ c.created) ∧
    (∀ seq, c.starts.getLast?.map StartRecord.seq ≠ some seq →
      c.state.stopTimer c.timers seq = c.timers) := by
  have h := timerOk_inductive.reachable hc
  refine ⟨?_, h.armed_last, fun r hr e he hcr => ?_, fun seq hseq => ?_⟩
  · -- every such timer is the one the last `StartTimer` armed
    have hmem : ∀ e ∈ c.timers.armed.filter (fun e => e.1 ∈ c.created),
        c.state.timer = some e.1 := fun e he => by
      obtain ⟨he, hcr⟩ := List.mem_filter.mp he
      obtain ⟨r, hr, hrt, -⟩ := h.armed_last e he (of_decide_eq_true hcr)
      exact h.last_timer r hr e.1 hrt
    refine length_le_one_of_fst_eq (h.nodup.sublist (List.filter_sublist.map Prod.fst))
      fun e he e' he' => ?_
    exact Option.some.inj ((hmem e he).symm.trans (hmem e' he'))
  · -- `StopTimer` for the last sequence stops the timer the timer state refers to
    obtain ⟨he, hne⟩ := TimerState.mem_stopTimer.mp he
    have hseq : c.state.seq = r.seq := by
      rw [h.seq_eq, hr]
      rfl
    exact h.not_created_of_stopped he (hne hseq) hcr
  · by_cases hne : c.state.seq = seq
    · -- then no `StartTimer` was made: the timer state has no timer
      have hnil : c.starts.getLast? = none := by
        cases hlast : c.starts.getLast? with
        | none => rfl
        | some r =>
          rw [h.seq_eq, hlast] at hne
          exact absurd (congrArg some hne) (by rw [hlast] at hseq; exact hseq)
      have htimer : c.state.timer = none := by
        cases ht : c.state.timer with
        | none => rfl
        | some t =>
          have hmem := h.timer_mem t ht
          rw [TimerConfig.created, List.getLast?_eq_none_iff.mp hnil] at hmem
          cases hmem
      exact TimerState.stopTimer_of_timer_eq_none htimer
    · exact TimerState.stopTimer_of_ne hne

/-- `StartTimer(1, f)` with a positive timeout, then `StartTimer(2, f)` with none: the timer
state keeps the stopped timer's reference. -/
def staleTimerRun : TimerConfig Unit :=
  (({} : TimerConfig Unit).startTimer 1 1 ()).startTimer 0 2 ()

theorem timerState_single_armed_stale :
    Reachable TimerStep {} staleTimerRun ∧ staleTimerRun.state.timer = some 0 ∧
    (staleTimerRun.timers.armed.filter fun e => e.1 ∈ staleTimerRun.created).length ≤ 1 ∧
    (∀ e ∈ staleTimerRun.timers.armed, e.1 ∈ staleTimerRun.created →
      ∃ r, staleTimerRun.starts.getLast? = some r ∧ r.timer = some e.1 ∧ 0 < r.timeout) ∧
    (∀ r, staleTimerRun.starts.getLast? = some r →
      ∀ e ∈ (staleTimerRun.state.stopTimer staleTimerRun.timers r.seq).armed,
        e.1 ∉ staleTimerRun.created) ∧
    (∀ seq, staleTimerRun.starts.getLast?.map StartRecord.seq ≠ some seq →
      staleTimerRun.state.stopTimer staleTimerRun.timers seq = staleTimerRun.timers) := by
  have hrun : Reachable TimerStep {} staleTimerRun :=
    (Reachable.refl.tail (.start 1 1 ())).tail (.start 0 2 ())
  exact ⟨hrun, rfl, timerState_single_armed hrun⟩

end MinBFT.Core
