import MinBFT.Core.ClientState
import MinBFT.System.Goroutines
import Mathlib.Data.List.Nodup

/-!
# `replyState` with its waiters

Model of `replyState` (`core/internal/clientstate/reply.go`) with what `ClientState.ReplyState`
leaves out: the channels `replyAdded` that waiters block on, and the goroutine each
`ReplyChannel(seq)` call starts:

```
go func() {
    defer close(out)
    s.Lock()
    for s.lastRepliedSeq < seq { s.waitForReplyLocked() }   // append a channel, unlock,
    reply := s.reply                                        // <-channel, lock again
    s.Unlock()
    if reply.Sequence() == seq { out <- reply }
}()
```

`replyProgram` is a `GoProgram`: the environment calls `AddReply` with any Reply and
`ReplyChannel` with any sequence, in any order and number; each `ReplyChannel` call starts its
goroutine, whose atomic steps are the lock-protected loop test, the wake-up on its closed channel,
and the send and close. The channels are named by the `ReplyChannel` call that made them (a
goroutine has at most one open channel in `replyAdded` at a time, and `out` is its own). A nil
`s.reply` read by a goroutine makes `reply.Sequence()` panic.

Results:
* `Shared.addReply_cases`: `AddReply` accepts exactly a Reply whose sequence is above
  `lastRepliedSeq`, and when it rejects it changes nothing, not even the waiters.
* `replyWaiters_safe`: in every run, an accepted Reply's sequence is above `0` and above every
  Reply accepted before, a rejected one's is `0` or at most one accepted before; and for every call
  with `seq ≥ 1` its channel shows nothing yet, a close, or one Reply with sequence `seq` that
  `AddReply` accepted and then a close. The inductive invariant is `Inv`.
* `replyChannel_misses_accepted_reply`: a waiter woken by the Reply it waits for reads the state
  only after a later `AddReply` replaced that Reply, and closes its channel with nothing sent.
-/

namespace MinBFT.Core.Replies

open MinBFT.Messages MinBFT.System

/-- `replyState` with its waiters: the last Reply and its sequence (`ReplyState`), the channels
in `replyAdded`, named by the `ReplyChannel` calls that made them, and the name of the next
call. -/
structure Shared where
  state : ReplyState := {}
  replyAdded : List Nat := []
  nextCall : Nat := 0
  deriving DecidableEq, Repr

namespace Shared

/-- `AddReply(reply)` under the lock: on success it also closes every channel in `replyAdded`
and sets it to nil. -/
def addReply (s : Shared) (reply : Reply) : Except String Unit × Shared :=
  match s.state.addReply reply with
  | (.ok (), st) => (.ok (), { s with state := st, replyAdded := [] })
  | (.error e, st) => (.error e, { s with state := st })

/-- **Spec of `AddReply`**: it accepts exactly a Reply above `lastRepliedSeq`, which becomes the
last Reply and wakes every waiter; otherwise it returns "old request ID" and changes nothing. -/
theorem addReply_cases (s : Shared) (reply : Reply) :
    (s.state.lastRepliedSeq < reply.sequence ∧
      s.addReply reply = (.ok (), { s with state := ⟨reply.sequence, some reply⟩, replyAdded := [] })) ∨
    (reply.sequence ≤ s.state.lastRepliedSeq ∧ s.addReply reply = (.error "old request ID", s)) := by
  by_cases h : reply.sequence ≤ s.state.lastRepliedSeq
  · exact .inr ⟨h, by simp [addReply, ReplyState.addReply, h]⟩
  · exact .inl ⟨by omega, by simp [addReply, ReplyState.addReply, h]⟩

end Shared

/-- Where a `ReplyChannel` goroutine is. -/
inductive Pc where
  /-- Taking the lock to test `lastRepliedSeq < seq`: at the start and after each wake-up. -/
  | locking
  /-- Blocked in `<-replyAdded` of `waitForReplyLocked`. -/
  | waiting
  /-- Unlocked, with the Reply it read (`none`: a nil `s.reply`), about to send it. -/
  | sending (reply : Option Reply)
  deriving DecidableEq, Repr

/-- The goroutine of the `ReplyChannel(seq)` call `call`. -/
structure Goroutine where
  call : Nat
  seq : Nat
  pc : Pc
  deriving DecidableEq, Repr

/-- The history of a run. -/
inductive Event where
  /-- `ReplyChannel(seq)` returned the channel `out` of the call `call`. -/
  | called (call seq : Nat)
  /-- `AddReply(reply)` returned nil. -/
  | accepted (reply : Reply)
  /-- `AddReply(reply)` returned "old request ID". -/
  | rejected (reply : Reply)
  /-- `out <- reply` in the goroutine of `call`. -/
  | sent (call : Nat) (reply : Reply)
  /-- `close(out)` in the goroutine of `call`. -/
  | closed (call : Nat)
  /-- `reply.Sequence()` on a nil `s.reply` in the goroutine of `call`. -/
  | panicked (call : Nat)
  deriving DecidableEq, Repr

/-- The event of an `AddReply` call that returned `r`. -/
def addReplyEvent (reply : Reply) : Except String Unit → Event
  | .ok () => .accepted reply
  | .error _ => .rejected reply

/-- What the environment does: call `AddReply`, or call `ReplyChannel`, which starts its
goroutine. -/
inductive Env : Shared → Shared → List Goroutine → List Event → Prop
  | addReply (s : Shared) (reply : Reply) :
      Env s (s.addReply reply).2 [] [addReplyEvent reply (s.addReply reply).1]
  | replyChannel (s : Shared) (seq : Nat) :
      Env s { s with nextCall := s.nextCall + 1 } [⟨s.nextCall, seq, .locking⟩]
        [.called s.nextCall seq]

/-- One atomic step of a `ReplyChannel` goroutine; `none` when it is blocked. -/
def goStep (s : Shared) (g : Goroutine) : Option (Shared × Option Goroutine × List Event) :=
  match g.pc with
  | .locking =>
    if s.state.lastRepliedSeq < g.seq then
      -- `waitForReplyLocked`: a new channel in `replyAdded`, then unlock and block on it
      some ({ s with replyAdded := s.replyAdded ++ [g.call] }, some { g with pc := .waiting }, [])
    else some (s, some { g with pc := .sending s.state.reply }, [])
  | .waiting =>
    -- `<-replyAdded` returns once `AddReply` has closed the channel
    if g.call ∈ s.replyAdded then none else some (s, some { g with pc := .locking }, [])
  | .sending none => some (s, none, [.panicked g.call])
  | .sending (some reply) =>
    if reply.sequence = g.seq then some (s, none, [.sent g.call reply, .closed g.call])
    else some (s, none, [.closed g.call])

/-- Any interleaving of `AddReply` and `ReplyChannel` calls on one `replyState`. -/
def replyProgram : GoProgram Shared Goroutine Event where
  env := Env
  step s g s' g' forks es := goStep s g = some (s', g', es) ∧ forks = []

/-- The step a goroutine can take, by phase. -/
theorem goStep_cases {s s' : Shared} {g : Goroutine} {g' : Option Goroutine} {es : List Event}
    (h : goStep s g = some (s', g', es)) :
    (g.pc = .locking ∧ s.state.lastRepliedSeq < g.seq ∧
        s' = { s with replyAdded := s.replyAdded ++ [g.call] } ∧
        g' = some { g with pc := .waiting } ∧ es = []) ∨
    (g.pc = .locking ∧ g.seq ≤ s.state.lastRepliedSeq ∧ s' = s ∧
        g' = some { g with pc := .sending s.state.reply } ∧ es = []) ∨
    (g.pc = .waiting ∧ s' = s ∧ g' = some { g with pc := .locking } ∧ es = []) ∨
    (g.pc = .sending none ∧ s' = s ∧ g' = none ∧ es = [.panicked g.call]) ∨
    (∃ reply, g.pc = .sending (some reply) ∧ reply.sequence = g.seq ∧ s' = s ∧ g' = none ∧
        es = [.sent g.call reply, .closed g.call]) ∨
    (∃ reply, g.pc = .sending (some reply) ∧ s' = s ∧ g' = none ∧ es = [.closed g.call]) := by
  cases hpc : g.pc with
  | locking =>
    simp only [goStep, hpc] at h
    split at h
    · rename_i hlt
      simp only [Option.some.injEq, Prod.mk.injEq] at h
      obtain ⟨rfl, rfl, rfl⟩ := h
      exact .inl ⟨rfl, hlt, rfl, rfl, rfl⟩
    · rename_i hge
      simp only [Option.some.injEq, Prod.mk.injEq] at h
      obtain ⟨rfl, rfl, rfl⟩ := h
      exact .inr (.inl ⟨rfl, by omega, rfl, rfl, rfl⟩)
  | waiting =>
    simp only [goStep, hpc] at h
    split at h
    · cases h
    · simp only [Option.some.injEq, Prod.mk.injEq] at h
      obtain ⟨rfl, rfl, rfl⟩ := h
      exact .inr (.inr (.inl ⟨rfl, rfl, rfl, rfl⟩))
  | sending r =>
    cases r with
    | none =>
      simp only [goStep, hpc, Option.some.injEq, Prod.mk.injEq] at h
      obtain ⟨rfl, rfl, rfl⟩ := h
      exact .inr (.inr (.inr (.inl ⟨rfl, rfl, rfl, rfl⟩)))
    | some reply =>
      simp only [goStep, hpc] at h
      split at h
      · rename_i heq
        simp only [Option.some.injEq, Prod.mk.injEq] at h
        obtain ⟨rfl, rfl, rfl⟩ := h
        exact .inr (.inr (.inr (.inr (.inl ⟨reply, rfl, heq, rfl, rfl, rfl⟩))))
      · simp only [Option.some.injEq, Prod.mk.injEq] at h
        obtain ⟨rfl, rfl, rfl⟩ := h
        exact .inr (.inr (.inr (.inr (.inr ⟨reply, rfl, rfl, rfl, rfl⟩))))

/-! ## The history -/

/-- The Replies `AddReply` accepted, in order. -/
def acceptedReplies (tr : List Event) : List Reply :=
  tr.filterMap fun | .accepted reply => some reply | _ => none

/-- The sequence of the last accepted Reply, `0` before any. -/
def lastAccepted (tr : List Event) : Nat :=
  ((acceptedReplies tr).getLast?.map Reply.sequence).getD 0

/-- Whether an event is on the channel `out` of the call `k`. -/
def onOut (k : Nat) : Event → Bool
  | .sent k' _ | .closed k' | .panicked k' => k' == k
  | _ => false

/-- What the channel `out` of the call `k` has shown. -/
def outOf (k : Nat) (tr : List Event) : List Event :=
  tr.filter (onOut k)

/-- What `AddReply` must have seen for each of its returns: an accepted Reply is above `0` and
above every one accepted before it; a rejected one is `0` or at most one accepted before it. -/
def AddReplyOk (pre : List Event) : Event → Prop
  | .accepted reply => 0 < reply.sequence ∧ ∀ r ∈ acceptedReplies pre, r.sequence < reply.sequence
  | .rejected reply => reply.sequence = 0 ∨ ∃ r ∈ acceptedReplies pre, reply.sequence ≤ r.sequence
  | _ => True

/-- What the channel of the call `k` for `seq` has shown: nothing yet, a close, or one Reply
for `seq` that `AddReply` accepted and then a close. -/
def ChannelOk (k seq : Nat) (tr : List Event) : Prop :=
  outOf k tr = [] ∨ outOf k tr = [.closed k] ∨
    ∃ reply, outOf k tr = [.sent k reply, .closed k] ∧ reply.sequence = seq ∧
      reply ∈ acceptedReplies tr

@[simp] theorem acceptedReplies_append (tr es : List Event) :
    acceptedReplies (tr ++ es) = acceptedReplies tr ++ acceptedReplies es := by
  simp [acceptedReplies, List.filterMap_append]

@[simp] theorem outOf_append (k : Nat) (tr es : List Event) :
    outOf k (tr ++ es) = outOf k tr ++ outOf k es := by
  simp [outOf, List.filter_append]

theorem lastAccepted_append_accepted (tr : List Event) (reply : Reply) :
    lastAccepted (tr ++ [.accepted reply]) = reply.sequence := by
  simp [lastAccepted, acceptedReplies]

/-- Events that accept nothing leave the last accepted sequence as it was. -/
theorem lastAccepted_append_of_nil {tr es : List Event} (h : acceptedReplies es = []) :
    lastAccepted (tr ++ es) = lastAccepted tr := by
  simp [lastAccepted, h]

/-- The last accepted sequence is `0` before any Reply is accepted, and the last one's after. -/
theorem lastAccepted_cases (tr : List Event) :
    (acceptedReplies tr = [] ∧ lastAccepted tr = 0) ∨
      ∃ r ∈ acceptedReplies tr, lastAccepted tr = r.sequence := by
  rcases h : (acceptedReplies tr).getLast? with _ | r
  · exact .inl ⟨List.getLast?_eq_none_iff.mp h, by simp [lastAccepted, h]⟩
  · exact .inr ⟨r, List.mem_of_getLast? h, by simp [lastAccepted, h]⟩

/-- Events of the environment, and the events a goroutine emits before its last step, are on
no channel. -/
theorem outOf_of_forall {es : List Event} (h : ∀ e ∈ es, ∀ k, onOut k e = false) (k : Nat) :
    outOf k es = [] :=
  List.filter_eq_nil_iff.mpr fun e he => by simp [h e he k]

theorem ChannelOk.append {k seq : Nat} {tr es : List Event} (h : ChannelOk k seq tr)
    (hout : outOf k es = []) : ChannelOk k seq (tr ++ es) := by
  rcases h with h | h | ⟨reply, h, hseq, hmem⟩
  · exact .inl (by simp [h, hout])
  · exact .inr (.inl (by simp [h, hout]))
  · exact .inr (.inr ⟨reply, by simp [h, hout], hseq, by simp [hmem]⟩)

/-! ## The invariant of every run -/

/-- The state `AddReply` keeps, against the history: it holds the last accepted Reply, which is
the greatest, and every `AddReply` return so far was right. -/
structure ReplyOk (s : ReplyState) (tr : List Event) : Prop where
  reply_eq : s.reply = (acceptedReplies tr).getLast?
  seq_eq : s.lastRepliedSeq = lastAccepted tr
  accepted_le : ∀ r ∈ acceptedReplies tr, r.sequence ≤ lastAccepted tr
  addReply_ok : EachEvent AddReplyOk tr

/-- The calls, their goroutines and their channels: each call is named once, below `nextCall`;
a live goroutine was called, has shown nothing on its channel and is the only one of its call; a
goroutine about to send for `seq ≥ 1` holds an accepted Reply; and every channel for `seq ≥ 1` is
`ChannelOk`. -/
structure CallsOk (nextCall : Nat) (gs : List Goroutine) (tr : List Event) : Prop where
  called_lt : ∀ k seq, Event.called k seq ∈ tr → k < nextCall
  called_unique : ∀ k seq seq', Event.called k seq ∈ tr → Event.called k seq' ∈ tr → seq = seq'
  out_fresh : ∀ k, nextCall ≤ k → outOf k tr = []
  live_called : ∀ g ∈ gs, Event.called g.call g.seq ∈ tr
  live_out : ∀ g ∈ gs, outOf g.call tr = []
  live_nodup : (gs.map Goroutine.call).Nodup
  sending_accepted : ∀ g ∈ gs, ∀ r, g.pc = .sending r → 1 ≤ g.seq →
    ∃ reply, r = some reply ∧ reply ∈ acceptedReplies tr
  channels : ∀ k seq, Event.called k seq ∈ tr → 1 ≤ seq → ChannelOk k seq tr

/-- The invariant of every run. -/
structure Inv (c : Config Shared Goroutine Event) : Prop where
  reply : ReplyOk c.shared.state c.trace
  calls : CallsOk c.shared.nextCall c.threads c.trace

theorem inv_initial : Inv (Config.initial {}) where
  reply := ⟨rfl, rfl, by simp [Config.initial, acceptedReplies], eachEvent_nil _⟩
  calls := {
    called_lt := by simp [Config.initial]
    called_unique := by simp [Config.initial]
    out_fresh := fun _ _ => rfl
    live_called := by simp [Config.initial]
    live_out := by simp [Config.initial]
    live_nodup := List.nodup_nil
    sending_accepted := by simp [Config.initial]
    channels := by simp [Config.initial] }

/-! ### `AddReply` -/

/-- A sending goroutine read the state: for `seq ≥ 1` the Reply it holds is accepted. -/
theorem ReplyOk.reply_accepted {s : ReplyState} {tr : List Event} (h : ReplyOk s tr) {seq : Nat}
    (hseq : seq ≤ s.lastRepliedSeq) (hpos : 1 ≤ seq) :
    ∃ reply, s.reply = some reply ∧ reply ∈ acceptedReplies tr := by
  rcases lastAccepted_cases tr with ⟨-, h0⟩ | ⟨r, hr, -⟩
  · rw [h.seq_eq, h0] at hseq
    omega
  · obtain ⟨reply, hlast⟩ := List.getLast?_isSome.mpr (List.ne_nil_of_mem hr) |> Option.isSome_iff_exists.mp
    exact ⟨reply, h.reply_eq.trans hlast, List.mem_of_getLast? hlast⟩

/-- Events that are no `AddReply` return keep `ReplyOk`. -/
theorem ReplyOk.append {s : ReplyState} {tr es : List Event} (h : ReplyOk s tr)
    (hacc : acceptedReplies es = []) (hes : ∀ e ∈ es, ∀ pre, AddReplyOk pre e) :
    ReplyOk s (tr ++ es) := by
  refine ⟨?_, ?_, ?_, ?_⟩
  · simpa [hacc] using h.reply_eq
  · rw [lastAccepted_append_of_nil hacc]
    exact h.seq_eq
  · intro r hr
    rw [lastAccepted_append_of_nil hacc]
    simp only [acceptedReplies_append, hacc, List.append_nil] at hr
    exact h.accepted_le r hr
  · exact h.addReply_ok.append fun i e hi => hes e (List.mem_of_getElem? hi) _

/-- An accepted Reply is above every one accepted before and becomes the last one. -/
theorem ReplyOk.accept {s : ReplyState} {tr : List Event} (h : ReplyOk s tr) {reply : Reply}
    (hlt : s.lastRepliedSeq < reply.sequence) :
    ReplyOk ⟨reply.sequence, some reply⟩ (tr ++ [.accepted reply]) := by
  have hseq : ∀ r ∈ acceptedReplies tr, r.sequence < reply.sequence := fun r hr =>
    Nat.lt_of_le_of_lt (h.accepted_le r hr) (h.seq_eq ▸ hlt)
  refine ⟨by simp [acceptedReplies], (lastAccepted_append_accepted _ _).symm, ?_,
    h.addReply_ok.snoc ⟨by omega, hseq⟩⟩
  intro r hr
  rw [lastAccepted_append_accepted]
  simp only [acceptedReplies_append, List.mem_append] at hr
  rcases hr with hr | hr
  · exact Nat.le_of_lt (hseq r hr)
  · simp only [acceptedReplies, List.filterMap_cons, List.filterMap_nil,
      List.mem_singleton] at hr
    rw [hr]

/-- A rejected Reply is `0` or at most the last accepted one. -/
theorem ReplyOk.reject {s : ReplyState} {tr : List Event} (h : ReplyOk s tr) {reply : Reply}
    (hle : reply.sequence ≤ s.lastRepliedSeq) : ReplyOk s (tr ++ [.rejected reply]) := by
  have hnil : acceptedReplies [Event.rejected reply] = [] := rfl
  refine ⟨?_, ?_, ?_, ?_⟩
  · simpa [hnil] using h.reply_eq
  · rw [lastAccepted_append_of_nil hnil]
    exact h.seq_eq
  · intro r hr
    rw [lastAccepted_append_of_nil hnil]
    simp only [acceptedReplies_append, hnil, List.append_nil] at hr
    exact h.accepted_le r hr
  · refine h.addReply_ok.snoc ?_
    show reply.sequence = 0 ∨ ∃ r ∈ acceptedReplies tr, reply.sequence ≤ r.sequence
    rcases lastAccepted_cases tr with ⟨-, h0⟩ | ⟨r, hr, hlast⟩
    · exact .inl (by rw [h.seq_eq, h0] at hle; omega)
    · exact .inr ⟨r, hr, by rw [h.seq_eq, hlast] at hle; exact hle⟩

/-- Events that name no call and are on no channel keep `CallsOk`. -/
theorem CallsOk.append {n : Nat} {gs : List Goroutine} {tr es : List Event} (h : CallsOk n gs tr)
    (hcalled : ∀ k seq, Event.called k seq ∉ es) (hout : ∀ k, outOf k es = []) :
    CallsOk n gs (tr ++ es) := by
  have hmem : ∀ k seq, Event.called k seq ∈ tr ++ es → Event.called k seq ∈ tr := by
    intro k seq hk
    rcases List.mem_append.mp hk with hk | hk
    · exact hk
    · exact absurd hk (hcalled k seq)
  refine ⟨?_, ?_, ?_, ?_, ?_, h.live_nodup, ?_, ?_⟩
  · exact fun k seq hk => h.called_lt k seq (hmem k seq hk)
  · exact fun k seq seq' hk hk' => h.called_unique k seq seq' (hmem k seq hk) (hmem k seq' hk')
  · intro k hk
    rw [outOf_append, h.out_fresh k hk, hout]
    rfl
  · exact fun g hg => List.mem_append_left _ (h.live_called g hg)
  · intro g hg
    rw [outOf_append, h.live_out g hg, hout]
    rfl
  · intro g hg r hr hpos
    obtain ⟨reply, rfl, hreply⟩ := h.sending_accepted g hg r hr hpos
    exact ⟨reply, rfl, by simp [hreply]⟩
  · exact fun k seq hk hpos => (h.channels k seq (hmem k seq hk) hpos).append (hout k)

/-- `AddReply`, accepted or rejected, keeps the invariant. -/
theorem Inv.addReply {c : Config Shared Goroutine Event} (hc : Inv c) (reply : Reply) :
    Inv ⟨(c.shared.addReply reply).2, c.threads ++ [],
      c.trace ++ [addReplyEvent reply (c.shared.addReply reply).1]⟩ := by
  rw [List.append_nil]
  have hcalls : ∀ e : Event, (e = .accepted reply ∨ e = .rejected reply) →
      CallsOk c.shared.nextCall c.threads (c.trace ++ [e]) := by
    rintro e (rfl | rfl)
    all_goals
      exact hc.calls.append (by simp) (outOf_of_forall (by simp [onOut]))
  rcases c.shared.addReply_cases reply with ⟨hlt, heq⟩ | ⟨hle, heq⟩
  · rw [heq]
    exact ⟨hc.reply.accept hlt, hcalls _ (.inl rfl)⟩
  · rw [heq]
    exact ⟨hc.reply.reject hle, hcalls _ (.inr rfl)⟩

/-! ### `ReplyChannel` and its goroutine -/

/-- A `ReplyChannel` call starts a goroutine for a fresh call, whose channel is empty. -/
theorem CallsOk.spawn {n : Nat} {gs : List Goroutine} {tr : List Event} (h : CallsOk n gs tr)
    (seq : Nat) :
    CallsOk (n + 1) (gs ++ [⟨n, seq, .locking⟩]) (tr ++ [.called n seq]) := by
  have hout : ∀ k, outOf k [Event.called n seq] = [] := fun _ => rfl
  have hmem : ∀ k seq', Event.called k seq' ∈ tr ++ [.called n seq] →
      Event.called k seq' ∈ tr ∨ (k = n ∧ seq' = seq) := by
    intro k seq' hk
    simpa using hk
  refine ⟨?_, ?_, ?_, ?_, ?_, ?_, ?_, ?_⟩
  · intro k seq' hk
    rcases hmem k seq' hk with hk | ⟨rfl, -⟩
    · exact Nat.lt_succ_of_lt (h.called_lt k seq' hk)
    · exact Nat.lt_succ_self k
  · -- the new call's name is above every call before
    intro k a b ha hb
    rcases hmem k a ha with hold | ⟨rfl, rfl⟩
    · rcases hmem k b hb with hold' | ⟨rfl, rfl⟩
      · exact h.called_unique k a b hold hold'
      · exact absurd (h.called_lt _ a hold) (Nat.lt_irrefl _)
    · rcases hmem k b hb with hold' | ⟨-, rfl⟩
      · exact absurd (h.called_lt _ b hold') (Nat.lt_irrefl _)
      · rfl
  · intro k hk
    rw [outOf_append, h.out_fresh k (by omega), hout]
    rfl
  · intro g hg
    rcases List.mem_append.mp hg with hg | hg
    · exact List.mem_append_left _ (h.live_called g hg)
    · rw [List.mem_singleton.mp hg]
      simp
  · intro g hg
    rcases List.mem_append.mp hg with hg | hg
    · rw [outOf_append, h.live_out g hg, hout]
      rfl
    · rw [List.mem_singleton.mp hg, outOf_append, h.out_fresh n (Nat.le_refl n), hout]
      rfl
  · rw [List.map_append, List.nodup_append]
    refine ⟨h.live_nodup, List.nodup_singleton _, ?_⟩
    intro a ha b hb
    obtain ⟨g, hg, rfl⟩ := List.mem_map.mp ha
    simp only [List.map_cons, List.map_nil, List.mem_singleton] at hb
    subst hb
    exact Nat.ne_of_lt (h.called_lt _ _ (h.live_called g hg))
  · intro g hg r hr hpos
    rcases List.mem_append.mp hg with hg | hg
    · obtain ⟨reply, rfl, hreply⟩ := h.sending_accepted g hg r hr hpos
      exact ⟨reply, rfl, by simp [hreply]⟩
    · rw [List.mem_singleton.mp hg] at hr
      cases hr
  · intro k seq' hk hpos
    rcases hmem k seq' hk with hk | ⟨rfl, rfl⟩
    · exact (h.channels k seq' hk hpos).append (hout k)
    · refine .inl ?_
      rw [outOf_append, h.out_fresh k (Nat.le_refl k), hout]
      rfl

theorem Inv.replyChannel {c : Config Shared Goroutine Event} (hc : Inv c) (seq : Nat) :
    Inv ⟨{ c.shared with nextCall := c.shared.nextCall + 1 },
      c.threads ++ [⟨c.shared.nextCall, seq, .locking⟩],
      c.trace ++ [.called c.shared.nextCall seq]⟩ :=
  ⟨hc.reply.append rfl (by simp [AddReplyOk]), hc.calls.spawn seq⟩

/-- Two goroutines at different positions belong to different calls. -/
theorem call_ne_of_nodup {l : List Goroutine} (h : (l.map Goroutine.call).Nodup) {i j : Nat}
    {a b : Goroutine} (hij : j ≠ i) (ha : l[i]? = some a) (hb : l[j]? = some b) :
    b.call ≠ a.call := by
  intro heq
  obtain ⟨hi, rfl⟩ := List.getElem?_eq_some_iff.mp ha
  obtain ⟨hj, rfl⟩ := List.getElem?_eq_some_iff.mp hb
  have hj' : j < (l.map Goroutine.call).length := by simpa using hj
  have hi' : i < (l.map Goroutine.call).length := by simpa using hi
  have hmap : (l.map Goroutine.call)[j] = (l.map Goroutine.call)[i] := by
    simpa using heq
  exact hij ((h.getElem_inj_iff).mp hmap)

/-- A goroutine that moves to another phase of the same call, emitting nothing, keeps
`CallsOk`, when it is about to send an accepted Reply for `seq ≥ 1`. -/
theorem CallsOk.move {n : Nat} {gs : List Goroutine} {tr : List Event} (h : CallsOk n gs tr)
    {i : Nat} {g g' : Goroutine} (hi : gs[i]? = some g) (hcall : g'.call = g.call)
    (hseq : g'.seq = g.seq)
    (hsend : ∀ r, g'.pc = .sending r → 1 ≤ g.seq →
      ∃ reply, r = some reply ∧ reply ∈ acceptedReplies tr) :
    CallsOk n (moveThread gs i (some g') []) tr := by
  have hcases : ∀ u ∈ moveThread gs i (some g') [], u ∈ gs ∨ u = g' := by
    intro u hu
    rcases mem_moveThread hu with hu | hu | hu
    · exact .inl hu
    · exact .inr (Option.some.inj hu).symm
    · cases hu
  have hg : g ∈ gs := List.mem_of_getElem? hi
  refine ⟨h.called_lt, h.called_unique, h.out_fresh, ?_, ?_, ?_, ?_, h.channels⟩
  · intro u hu
    rcases hcases u hu with hu | rfl
    · exact h.live_called u hu
    · rw [hcall, hseq]
      exact h.live_called g hg
  · intro u hu
    rcases hcases u hu with hu | rfl
    · exact h.live_out u hu
    · rw [hcall]
      exact h.live_out g hg
  · -- the calls of the goroutines are as they were
    have hlen : i < gs.length := (List.getElem?_eq_some_iff.mp hi).1
    have hget : gs[i] = g := (List.getElem?_eq_some_iff.mp hi).2
    have hmap : (moveThread gs i (some g') []).map Goroutine.call = gs.map Goroutine.call := by
      simp only [moveThread, List.append_nil, List.map_set, hcall]
      have hlen' : i < (gs.map Goroutine.call).length := by simpa using hlen
      have : g.call = (gs.map Goroutine.call)[i] := by simp [hget]
      rw [this, List.set_getElem_self]
    rw [hmap]
    exact h.live_nodup
  · intro u hu r hr hpos
    rcases hcases u hu with hu | rfl
    · exact h.sending_accepted u hu r hr hpos
    · exact hsend r hr (hseq ▸ hpos)

/-- The last step of a goroutine: its channel shows what it emits, and no other channel
changes. -/
theorem CallsOk.finish {n : Nat} {gs : List Goroutine} {tr es : List Event} (h : CallsOk n gs tr)
    {i : Nat} {g : Goroutine} (hi : gs[i]? = some g)
    (hcalled : ∀ k seq, Event.called k seq ∉ es) (hother : ∀ k, k ≠ g.call → outOf k es = [])
    (hchan : 1 ≤ g.seq → ChannelOk g.call g.seq (tr ++ es)) :
    CallsOk n (moveThread gs i none []) (tr ++ es) := by
  have hg : g ∈ gs := List.mem_of_getElem? hi
  have hmem : ∀ k seq, Event.called k seq ∈ tr ++ es → Event.called k seq ∈ tr := by
    intro k seq hk
    rcases List.mem_append.mp hk with hk | hk
    · exact hk
    · exact absurd hk (hcalled k seq)
  -- every other goroutine belongs to another call
  have hrest : ∀ u ∈ moveThread gs i none [], u ∈ gs ∧ u.call ≠ g.call := by
    intro u hu
    rcases mem_moveThread_cases hu with ⟨j, hji, hj⟩ | hu | hu
    · exact ⟨List.mem_of_getElem? hj, call_ne_of_nodup h.live_nodup hji hi hj⟩
    · cases hu
    · cases hu
  have hlt : g.call < n := h.called_lt _ _ (h.live_called g hg)
  refine ⟨?_, ?_, ?_, ?_, ?_, ?_, ?_, ?_⟩
  · exact fun k seq hk => h.called_lt k seq (hmem k seq hk)
  · exact fun k seq seq' hk hk' => h.called_unique k seq seq' (hmem k seq hk) (hmem k seq' hk')
  · intro k hk
    rw [outOf_append, h.out_fresh k hk, hother k (by omega)]
    rfl
  · exact fun u hu => List.mem_append_left _ (h.live_called u (hrest u hu).1)
  · intro u hu
    rw [outOf_append, h.live_out u (hrest u hu).1, hother u.call (hrest u hu).2]
    rfl
  · simp only [moveThread, List.append_nil]
    exact h.live_nodup.sublist ((List.eraseIdx_sublist gs i).map _)
  · intro u hu r hr hpos
    obtain ⟨reply, rfl, hreply⟩ := h.sending_accepted u (hrest u hu).1 r hr hpos
    exact ⟨reply, rfl, by simp [hreply]⟩
  · intro k seq hk hpos
    have hk' := hmem k seq hk
    by_cases hkg : k = g.call
    · -- the finished call: its channel shows what the last step emitted
      subst hkg
      have hseq : seq = g.seq := h.called_unique _ _ _ hk' (h.live_called g hg)
      subst hseq
      exact hchan hpos
    · exact (h.channels k seq hk' hpos).append (hother k hkg)

/-- One goroutine step keeps the invariant. -/
theorem Inv.move {c : Config Shared Goroutine Event} (hc : Inv c) {i : Nat} {g : Goroutine}
    {s' : Shared} {g' : Option Goroutine} {es : List Event} (hi : c.threads[i]? = some g)
    (h : goStep c.shared g = some (s', g', es)) :
    Inv ⟨s', moveThread c.threads i g' [], c.trace ++ es⟩ := by
  have hg : g ∈ c.threads := List.mem_of_getElem? hi
  have hlive : outOf g.call c.trace = [] := hc.calls.live_out g hg
  rcases goStep_cases h with
    ⟨-, -, rfl, rfl, rfl⟩ | ⟨-, hle, rfl, rfl, rfl⟩ | ⟨-, rfl, rfl, rfl⟩ |
    ⟨hpc, rfl, rfl, rfl⟩ | ⟨reply, hpc, hseq, rfl, rfl, rfl⟩ | ⟨reply, hpc, rfl, rfl, rfl⟩
  · -- `waitForReplyLocked`: only `replyAdded` changes
    rw [List.append_nil]
    exact ⟨hc.reply, hc.calls.move hi rfl rfl (by intro r hr; cases hr)⟩
  · -- the loop ends: the goroutine holds `s.reply`, accepted for `seq ≥ 1`
    rw [List.append_nil]
    refine ⟨hc.reply, hc.calls.move hi rfl rfl ?_⟩
    intro r hr hpos
    cases hr
    exact hc.reply.reply_accepted hle hpos
  · -- woken up: only the phase changes
    rw [List.append_nil]
    exact ⟨hc.reply, hc.calls.move hi rfl rfl (by intro r hr; cases hr)⟩
  · -- a nil Reply: only a goroutine for `seq = 0` can read one
    refine ⟨hc.reply.append rfl (by simp [AddReplyOk]), hc.calls.finish hi (by simp) ?_ ?_⟩
    · intro k hk
      simp [outOf, onOut, Ne.symm hk]
    · intro hpos
      obtain ⟨_, hnone, -⟩ := hc.calls.sending_accepted g hg none hpc hpos
      cases hnone
  · -- the Reply is for `seq`: it is sent, then the channel is closed
    refine ⟨hc.reply.append rfl (by simp [AddReplyOk]), hc.calls.finish hi (by simp) ?_ ?_⟩
    · intro k hk
      simp [outOf, onOut, Ne.symm hk]
    · intro hpos
      obtain ⟨r, hr, hmem⟩ := hc.calls.sending_accepted g hg _ hpc hpos
      cases hr
      refine .inr (.inr ⟨reply, ?_, hseq, by simp [hmem]⟩)
      rw [outOf_append, hlive]
      simp [outOf, onOut]
  · -- another Reply: the channel is closed with nothing sent
    refine ⟨hc.reply.append rfl (by simp [AddReplyOk]), hc.calls.finish hi (by simp) ?_ ?_⟩
    · intro k hk
      simp [outOf, onOut, Ne.symm hk]
    · intro _
      refine .inr (.inl ?_)
      rw [outOf_append, hlive]
      simp [outOf, onOut]

/-- **Every step keeps `Inv`**: an `AddReply` call, a `ReplyChannel` call, or a goroutine
step. -/
theorem inv_step {c c' : Config Shared Goroutine Event} (hc : Inv c)
    (h : replyProgram.Step c c') : Inv c' := by
  cases h with
  | env henv =>
    cases henv with
    | addReply reply => exact hc.addReply reply
    | replyChannel seq => exact hc.replyChannel seq
  | move hi hstep =>
    obtain ⟨hgo, rfl⟩ := hstep
    exact hc.move hi hgo

/-- **What `replyState` guarantees in every run**: `AddReply` accepted exactly the Replies above
`0` and above every Reply accepted before them; and the channel of every `ReplyChannel(seq)` call
with `seq ≥ 1` shows nothing yet, a close, or one Reply with sequence `seq` that `AddReply`
accepted and then a close. -/
theorem replyWaiters_safe {c : Config Shared Goroutine Event}
    (hc : replyProgram.Reachable (Config.initial {}) c) :
    (∀ i reply, c.trace[i]? = some (.accepted reply) →
      0 < reply.sequence ∧ ∀ r ∈ acceptedReplies (c.trace.take i), r.sequence < reply.sequence) ∧
    (∀ i reply, c.trace[i]? = some (.rejected reply) →
      reply.sequence = 0 ∨ ∃ r ∈ acceptedReplies (c.trace.take i), reply.sequence ≤ r.sequence) ∧
    ∀ k seq, Event.called k seq ∈ c.trace → 1 ≤ seq → ChannelOk k seq c.trace := by
  have hinv : Inv c := Inductive.reachable ⟨inv_initial, fun _ _ h hs => inv_step h hs⟩ hc
  exact ⟨fun i reply h => hinv.reply.addReply_ok i _ h,
    fun i reply h => hinv.reply.addReply_ok i _ h, hinv.calls.channels⟩

/-! ## A run where a waiter misses its Reply -/

/-- A scheduler's choice: one of the environment's calls, or a step of the goroutine at a
position. -/
inductive Choice where
  | addReply (reply : Reply)
  | replyChannel (seq : Nat)
  | run (i : Nat)

/-- The configuration after a choice, when it is enabled. -/
def schedStep (c : Config Shared Goroutine Event) : Choice → Option (Config Shared Goroutine Event)
  | .addReply reply =>
    some ⟨(c.shared.addReply reply).2, c.threads ++ [],
      c.trace ++ [addReplyEvent reply (c.shared.addReply reply).1]⟩
  | .replyChannel seq =>
    some ⟨{ c.shared with nextCall := c.shared.nextCall + 1 },
      c.threads ++ [⟨c.shared.nextCall, seq, .locking⟩], c.trace ++ [.called c.shared.nextCall seq]⟩
  | .run i =>
    (c.threads[i]?).bind fun g => (goStep c.shared g).map fun (s', g', es) =>
      ⟨s', moveThread c.threads i g' [], c.trace ++ es⟩

/-- Every choice the scheduler makes is a step of the program. -/
theorem schedStep_sound (c : Config Shared Goroutine Event) (ch : Choice)
    (c' : Config Shared Goroutine Event) (h : schedStep c ch = some c') : replyProgram.Step c c' := by
  cases ch with
  | addReply reply =>
    cases h
    exact .env (Env.addReply c.shared reply)
  | replyChannel seq =>
    cases h
    exact .env (Env.replyChannel c.shared seq)
  | run i =>
    obtain ⟨g, hg, h⟩ := Option.bind_eq_some_iff.mp h
    obtain ⟨⟨s', g', es⟩, hstep, rfl⟩ := Option.map_eq_some_iff.mp h
    exact .move hg ⟨hstep, rfl⟩

/-- **A waiter misses the Reply it waits for**: `ReplyChannel(1)` is called and its goroutine
waits; `AddReply` accepts the Reply for `1`, which closes the goroutine's channel, and then the
Reply for `2`, before the goroutine takes the lock again. The goroutine reads the Reply for `2`
and closes its channel with nothing sent, though the Reply for `1` was accepted after the call. -/
theorem replyChannel_misses_accepted_reply :
    ∃ c : Config Shared Goroutine Event, replyProgram.Reachable (Config.initial {}) c ∧
      c.trace = [.called 0 1, .accepted (newReply 0 0 1 []), .accepted (newReply 0 0 2 []),
        .closed 0] ∧
      (newReply 0 0 1 []).sequence = 1 ∧ outOf 0 c.trace = [.closed 0] := by
  -- the goroutine waits, both Replies are accepted, then it wakes, reads and closes
  have hrun : runChoices schedStep (Config.initial {})
      [.replyChannel 1, .run 0, .addReply (newReply 0 0 1 []), .addReply (newReply 0 0 2 []),
        .run 0, .run 0, .run 0] =
      some ⟨{ state := ⟨2, some (newReply 0 0 2 [])⟩, nextCall := 1 }, [],
        [.called 0 1, .accepted (newReply 0 0 1 []), .accepted (newReply 0 0 2 []), .closed 0]⟩ :=
    rfl
  exact ⟨_, reflTransGen_of_runChoices schedStep_sound _ hrun, rfl, rfl, rfl⟩

end MinBFT.Core.Replies
