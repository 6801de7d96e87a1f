import Mathlib.Data.List.Infix
import Mathlib.Logic.Relation

/-!
# Forwarding a growing list, woken by a one-slot notification

A pattern of concurrent Go code: a goroutine forwards on a channel every element of a list that
other goroutines append to. It loops

* under a read lock, takes the snapshot `xs[next:]` and sets `next = len(xs)`;
* sends each element of the snapshot, in a `select` with a `cancel` case that returns;
* waits in a `select` on its notification channel, of capacity 1, or on `cancel`;

while every append also makes a non-blocking send on the notification channel, so that the
channel holds a notification afterwards. The goroutine's state is a `Cursor`; one atomic step
(`Cursor.step`) reads the list, whether the notification channel holds a notification and
whether the `cancel` case is ready, and gives the new content of the notification channel and
the element it sent, if any. A `select` with several ready cases may take any of them
(`SelectCase`).

## Results

* `Cursor.Ok.move`, `Cursor.Ok.append`: the invariant `Cursor.Ok` (what has been sent, then the
  rest of the snapshot, is the list up to `next`; after a snapshot every later append left a
  notification) is kept by the cursor's own steps and by appends.
* `Cursor.Ok.isPrefix_sent`: what has been sent is a prefix of the list.
* `Cursor.Ok.catchUp`: a cursor that has not returned sends the rest of the list by its own steps
  (no lost wake-up).

Nothing here is about a particular program.
-/

namespace MinBFT.System

/-- The case a `select` takes: its first case (and the one step of a goroutine where there is no
`select`), or the `cancel` case. -/
inductive SelectCase where
  | first
  | cancel
  deriving DecidableEq, Repr

/-- Where the forwarding loop is: at its head, in the loop over a snapshot, in the `select` on the
notification channel, or returned. -/
inductive CursorPc where
  | snapshot
  | send
  | wait
  | returned
  deriving DecidableEq, Repr

/-- The forwarding loop: where it is, `next`, and the elements of its last snapshot it has still
to send. -/
structure Cursor (β : Type) where
  pc : CursorPc
  next : Nat
  pending : List β
  deriving DecidableEq, Repr

variable {β : Type}

namespace Cursor

/-- The loop before its first snapshot, with `next := 0`. -/
def start : Cursor β := ⟨.snapshot, 0, []⟩

/-- One atomic step over the list `xs`, with `note` the content of the notification channel and
`cancel` whether the `cancel` case is ready: the new content of the notification channel, the
new state, and the element sent. The slice `xs[next:]` is `drop`: it never panics, since
`next ≤ len(xs)` (`Ok.next_le`). -/
def step (xs : List β) (note cancel : Bool) (t : Cursor β) :
    SelectCase → Option (Bool × Cursor β × Option β)
  | .first =>
    match t.pc with
    | .snapshot =>
      some (note, { t with pc := .send, pending := xs.drop t.next, next := xs.length }, none)
    | .send =>
      match t.pending with
      | [] => some (note, { t with pc := .wait }, none)
      | x :: rest => some (note, { t with pending := rest }, some x)
    | .wait => if note then some (false, { t with pc := .snapshot }, none) else none
    | .returned => none
  | .cancel =>
    if cancel ∧ (t.pc = .send ∧ t.pending ≠ [] ∨ t.pc = .wait) then
      some (note, { t with pc := .returned }, none)
    else none

/-- The steps of the loop, one constructor per atomic step. -/
inductive Move (xs : List β) (note cancel : Bool) (t : Cursor β) :
    Bool → Cursor β → Option β → Prop
  | snapshot : t.pc = .snapshot →
      Move xs note cancel t note { t with pc := .send, pending := xs.drop t.next, next := xs.length }
        none
  | sendEnd : t.pc = .send → t.pending = [] → Move xs note cancel t note { t with pc := .wait } none
  | send {x : β} {rest : List β} : t.pc = .send → t.pending = x :: rest →
      Move xs note cancel t note { t with pending := rest } (some x)
  | receive : t.pc = .wait → note = true → Move xs note cancel t false { t with pc := .snapshot } none
  | cancel : cancel = true → (t.pc = .send ∧ t.pending ≠ [] ∨ t.pc = .wait) →
      Move xs note cancel t note { t with pc := .returned } none

section Moves

variable {xs : List β} {note cancel note' : Bool} {t t' : Cursor β} {out : Option β}

/-- Every step `step` takes is a `Move`. -/
theorem step_move {sc : SelectCase} (h : step xs note cancel t sc = some (note', t', out)) :
    Move xs note cancel t note' t' out := by
  cases sc with
  | first =>
    simp only [step] at h
    split at h
    · next hpc => cases h; exact .snapshot hpc
    · next hpc =>
      split at h
      · next hp => cases h; exact .sendEnd hpc hp
      · next x rest hp => cases h; exact .send hpc hp
    · next hpc =>
      split_ifs at h with hn
      cases h
      exact .receive hpc hn
    · cases h
  | cancel =>
    simp only [step] at h
    split_ifs at h with hc
    cases h
    exact .cancel hc.1 hc.2

/-- Every `Move` is a step `step` can take. -/
theorem Move.step_eq (h : Move xs note cancel t note' t' out) :
    ∃ sc, step xs note cancel t sc = some (note', t', out) := by
  cases h with
  | snapshot hpc => exact ⟨.first, by simp [step, hpc]⟩
  | sendEnd hpc hp => exact ⟨.first, by simp [step, hpc, hp]⟩
  | send hpc hp => exact ⟨.first, by simp [step, hpc, hp]⟩
  | receive hpc hn => exact ⟨.first, by simp [step, hpc, hn]⟩
  | cancel hc hpc => exact ⟨.cancel, by simp [step, hc, hpc]⟩

/-- A step other than the `cancel` case does not read whether `cancel` is ready. -/
theorem Move.of_not_cancel {cancel' : Bool} (h : Move xs note false t note' t' out) :
    Move xs note cancel' t note' t' out := by
  cases h with
  | snapshot hpc => exact .snapshot hpc
  | sendEnd hpc hp => exact .sendEnd hpc hp
  | send hpc hp => exact .send hpc hp
  | receive hpc hn => exact .receive hpc hn
  | cancel hc _ => cases hc

/-- The `cancel` case is taken only when it is ready. -/
theorem step_cancel (h : step xs note cancel t .cancel = some (note', t', out)) : cancel = true := by
  simp only [step] at h
  split_ifs at h with hc
  exact hc.1

/-- The loop returns only in the `cancel` case. -/
theorem Move.cancel_of_returned (h : Move xs note cancel t note' t' out)
    (hpc : t'.pc = .returned) : cancel = true := by
  cases h with
  | snapshot _ => simp at hpc
  | sendEnd _ _ => simp at hpc
  | send hpc' _ => simp [hpc'] at hpc
  | receive _ _ => simp at hpc
  | cancel hc _ => exact hc

end Moves

/-! ## The invariant -/

/-- What holds of a forwarding loop that has sent `sent`, over the list `xs`, with `note` the
content of its notification channel. -/
structure Ok (sent xs : List β) (note : Bool) (t : Cursor β) : Prop where
  /-- The slice `xs[next:]` is in range. -/
  next_le : t.next ≤ xs.length
  /-- What has been sent, then the rest of the snapshot, is the list up to `next`. -/
  sent : sent ++ t.pending = xs.take t.next
  /-- Outside the loop over a snapshot nothing of it is left. -/
  idle : t.pc = .snapshot ∨ t.pc = .wait → t.pending = []
  /-- No lost wake-up: an element appended after the snapshot left a notification. -/
  notified : t.pc = .send ∨ t.pc = .wait → t.next < xs.length → note = true

section Ok

variable {sent xs : List β} {note : Bool} {t : Cursor β}

/-- The loop starts well over any list, with nothing sent. -/
theorem ok_start (xs : List β) (note : Bool) : Ok [] xs note (start : Cursor β) where
  next_le := Nat.zero_le _
  sent := rfl
  idle := fun _ => rfl
  notified := fun hpc => by simp [start] at hpc

/-- What has been sent is a prefix of the list. -/
theorem Ok.isPrefix_sent (h : Ok sent xs note t) : sent <+: xs :=
  (List.prefix_append sent t.pending).trans (h.sent ▸ List.take_prefix _ _)

/-- An append keeps the invariant: the element is past `next`, and the notification channel
holds a notification afterwards. -/
theorem Ok.append (h : Ok sent xs note t) (x : β) : Ok sent (xs ++ [x]) true t where
  next_le := by simpa using Nat.le_succ_of_le h.next_le
  sent := by rw [List.take_append_of_le_length h.next_le]; exact h.sent
  idle := h.idle
  notified := fun _ _ => rfl

/-- The loop's own step keeps the invariant, with what it sent added. -/
theorem Ok.move {cancel note' : Bool} {t' : Cursor β} {out : Option β} (h : Ok sent xs note t)
    (hm : Move xs note cancel t note' t' out) : Ok (sent ++ out.toList) xs note' t' := by
  cases hm with
  | snapshot hpc =>
    -- the new snapshot is the rest of the list after what was sent
    have hprev : sent = xs.take t.next := by simpa [h.idle (.inl hpc)] using h.sent
    exact {
      next_le := le_refl _
      sent := by simp [hprev, List.take_length]
      idle := fun hpc' => by simp at hpc'
      notified := fun _ hlt => absurd hlt (lt_irrefl _) }
  | sendEnd hpc hp =>
    exact {
      next_le := h.next_le
      sent := by simpa using h.sent
      idle := fun _ => hp
      notified := fun _ hlt => h.notified (.inl hpc) hlt }
  | send hpc hp =>
    exact {
      next_le := h.next_le
      sent := by simpa [hp] using h.sent
      idle := fun hpc' => by simp [hpc] at hpc'
      notified := fun _ hlt => h.notified (.inl hpc) hlt }
  | receive hpc _ =>
    exact {
      next_le := h.next_le
      sent := by simpa using h.sent
      idle := fun _ => h.idle (.inr hpc)
      notified := fun hpc' => by simp at hpc' }
  | cancel _ _ =>
    exact {
      next_le := h.next_le
      sent := by simpa using h.sent
      idle := fun hpc' => by simp at hpc'
      notified := fun hpc' => by simp at hpc' }

/-- A loop waiting with `next` at the end of the list has sent all of it. -/
theorem Ok.sent_eq (h : Ok sent xs note t) (hpc : t.pc = .wait) (hnext : t.next = xs.length) :
    sent = xs := by
  have hs := h.sent
  rwa [h.idle (.inr hpc), List.append_nil, hnext, List.take_length] at hs

end Ok

/-! ## Progress -/

/-- A step of the loop alone, over the list `xs` kept fixed and with the `cancel` case never
taken, collecting what it sends. -/
def Solo (xs : List β) (a b : Bool × Cursor β × List β) : Prop :=
  ∃ out, Move xs a.1 false a.2.1 b.1 b.2.1 out ∧ b.2.2 = a.2.2 ++ out.toList

section Progress

variable {xs : List β}

/-- In the loop over a snapshot, the rest of it is sent, and the loop then waits with the same
`next`. -/
theorem solo_sendAll (xs : List β) (note : Bool) :
    ∀ (p : List β) (t : Cursor β) (acc : List β), t.pc = .send → t.pending = p →
    ∃ t', Relation.ReflTransGen (Solo xs) (note, t, acc) (note, t', acc ++ p) ∧
      t'.pc = .wait ∧ t'.next = t.next
  | [], t, acc, hpc, hp =>
    ⟨{ t with pc := .wait }, .single ⟨none, .sendEnd hpc hp, rfl⟩, rfl, rfl⟩
  | x :: rest, t, acc, hpc, hp => by
    have hstep : Solo xs (note, t, acc) (note, { t with pending := rest }, acc ++ [x]) :=
      ⟨some x, .send hpc hp, rfl⟩
    obtain ⟨t', hrun, hpc', hnext⟩ := solo_sendAll xs note rest { t with pending := rest }
      (acc ++ [x]) hpc rfl
    refine ⟨t', .head hstep ?_, hpc', hnext⟩
    simpa using hrun

/-- A run of the loop alone is a run from any earlier output. -/
theorem solo_append (pre : List β) {n n' : Bool} {t t' : Cursor β} {acc acc' : List β}
    (h : Relation.ReflTransGen (Solo xs) (n, t, acc) (n', t', acc')) :
    Relation.ReflTransGen (Solo xs) (n, t, pre ++ acc) (n', t', pre ++ acc') := by
  refine Relation.ReflTransGen.lift (fun a : Bool × Cursor β × List β => (a.1, a.2.1, pre ++ a.2.2))
    ?_ _ _ h
  rintro a b ⟨out, hm, hout⟩
  exact ⟨out, hm, by simp [hout]⟩

/-- The invariant holds along a run of the loop alone, with its output added to what was sent. -/
theorem Ok.solo_run {pre : List β} {a b : Bool × Cursor β × List β}
    (h : Ok (pre ++ a.2.2) xs a.1 a.2.1) (hr : Relation.ReflTransGen (Solo xs) a b) :
    Ok (pre ++ b.2.2) xs b.1 b.2.1 := by
  induction hr with
  | refl => exact h
  | tail _ hst ih =>
    obtain ⟨out, hm, hout⟩ := hst
    rw [hout, ← List.append_assoc]
    exact ih.move hm

/-- From the head of its loop, a loop sends the rest of the list by its own steps. -/
theorem Ok.catchUp_snapshot {sent : List β} {note : Bool} {t : Cursor β} (h : Ok sent xs note t)
    (hpc : t.pc = .snapshot) :
    ∃ note' t' out, Relation.ReflTransGen (Solo xs) (note, t, []) (note', t', out) ∧
      sent ++ out = xs := by
  -- the snapshot takes the rest of the list; sending it ends in the wait at its end
  have hstep : Solo xs (note, t, [])
      (note, { t with pc := .send, pending := xs.drop t.next, next := xs.length }, []) :=
    ⟨none, .snapshot hpc, rfl⟩
  obtain ⟨t', hrun, -, -⟩ := solo_sendAll xs note (xs.drop t.next)
    { t with pc := .send, pending := xs.drop t.next, next := xs.length } [] rfl rfl
  refine ⟨note, t', xs.drop t.next, .head hstep hrun, ?_⟩
  have hprev : sent = xs.take t.next := by simpa [h.idle (.inl hpc)] using h.sent
  rw [hprev, List.take_append_drop]

/-- A waiting loop sends the rest of the list by its own steps: if an element came after its
snapshot, the notification is there to take. -/
theorem Ok.catchUp_wait {sent : List β} {note : Bool} {t : Cursor β} (h : Ok sent xs note t)
    (hpc : t.pc = .wait) :
    ∃ note' t' out, Relation.ReflTransGen (Solo xs) (note, t, []) (note', t', out) ∧
      sent ++ out = xs := by
  by_cases hlt : t.next < xs.length
  · have hn := h.notified (.inr hpc) hlt
    have hstep : Solo xs (note, t, []) (false, { t with pc := .snapshot }, []) :=
      ⟨none, .receive hpc hn, rfl⟩
    have h₁ : Ok sent xs false { t with pc := .snapshot } := by
      have hm : Move xs note false t false { t with pc := .snapshot } none := .receive hpc hn
      simpa using h.move hm
    obtain ⟨n, t', out, hrun, hout⟩ := h₁.catchUp_snapshot rfl
    exact ⟨n, t', out, .head hstep hrun, hout⟩
  · exact ⟨note, t, [], .refl, by simpa using h.sent_eq hpc (by have := h.next_le; omega)⟩

/-- **No lost wake-up**: a loop that has not returned sends the rest of the list by its own
steps, whatever it was doing. -/
theorem Ok.catchUp {sent : List β} {note : Bool} {t : Cursor β} (h : Ok sent xs note t)
    (hpc : t.pc ≠ .returned) :
    ∃ note' t' out, Relation.ReflTransGen (Solo xs) (note, t, []) (note', t', out) ∧
      sent ++ out = xs := by
  cases hpc' : t.pc with
  | snapshot => exact h.catchUp_snapshot hpc'
  | send =>
    -- finish the snapshot; the wait then takes the notification of what came since
    obtain ⟨t₁, hrun, hpc₁, -⟩ := solo_sendAll xs note t.pending t [] hpc' rfl
    have h₀ : Ok (sent ++ ([] : List β)) xs note t := by simpa using h
    have h₁ : Ok (sent ++ t.pending) xs note t₁ := h₀.solo_run hrun
    obtain ⟨n, t', out, hrun', hout⟩ := h₁.catchUp_wait hpc₁
    have hrun₂ := solo_append t.pending hrun'
    rw [List.append_nil] at hrun₂
    refine ⟨n, t', t.pending ++ out, hrun.trans hrun₂, ?_⟩
    rw [← List.append_assoc, hout]
  | wait => exact h.catchUp_wait hpc'
  | returned => exact absurd hpc' hpc

end Progress

end Cursor

end MinBFT.System
