import MinBFT.System.Threads
import MinBFT.System.Cursor

/-!
# The message log and its streams

`messageLog` of `core/internal/messagelog/messagelog.go` as a concurrent program
(`System.Threads`): the log is the shared state and every goroutine that uses it is a thread.
`Append` is one atomic step, under the write lock. `Stream(done)` starts `supplyMessages`, which
registers its notification channel `newAdded` (buffered, capacity 1) under the lock and then runs
the forwarding loop of `System.Cursor` over `log.msgs`, with that channel as its notification and
`done` as its `cancel` channel.

A one-slot channel is a `Bool`: it holds a notification or it does not. The `done` channels are
named by numbers, and a closed one is ready for every receive; the channel of `Stream(nil)` is
never ready (`done = none`). The consumer of `ch` is not modelled: a send is a step the consumer
may let happen at any time, and the sends that took place are the events `sent`. The deferred
`close(ch)` is the loop's state `returned`.

## Results

* `logInv_inductive`: the invariant `LogInv` holds in every reachable configuration: each
  registered supplier's loop satisfies `Cursor.Ok` over the log with its own channel, and no
  two suppliers share a channel.
* `supply_catchUp`: from any configuration with the invariant, a supplier that has not returned
  sends every message of the log by its own steps alone.
* `messageLog_streams`: in every run the log is the order of the `Append` calls, every stream has
  sent a prefix of it, the slice `log.msgs[next:]` is in range, a supplier waiting on `newAdded`
  with `next < len(log.msgs)` has a notification in its channel, and a supplier whose `done` is
  open can send every message of the log.
-/

namespace MinBFT.Core.Messagelog

open MinBFT.System

variable {α : Type}

/-! ## The log -/

/-- `messageLog`: the messages in the order added, and the notification channels `newAdded` in
the order registered; a channel holds a notification (`true`) or is empty. -/
structure MessageLog (α : Type) where
  msgs : List α
  newAdded : List Bool
  deriving DecidableEq, Repr

namespace MessageLog

/-- `Append`: the message is added, and every notification channel gets a non-blocking send. A
one-slot channel holds a notification afterwards, whether the send took place or the `default`
case did. -/
@[simps]
def append (log : MessageLog α) (msg : α) : MessageLog α where
  msgs := log.msgs ++ [msg]
  newAdded := log.newAdded.map fun _ => true

/-- The registration in `supplyMessages`: a new empty channel `make(chan struct{}, 1)` at the end
of `log.newAdded`. -/
@[simps]
def register (log : MessageLog α) : MessageLog α where
  msgs := log.msgs
  newAdded := log.newAdded ++ [false]

/-- The content of the channel with index `k` after a step of the loop that owns it. -/
@[simps]
def setNote (log : MessageLog α) (k : Nat) (note : Bool) : MessageLog α where
  msgs := log.msgs
  newAdded := log.newAdded.set k note

/-- Writing back what a channel holds changes nothing. -/
theorem setNote_getD (log : MessageLog α) {k : Nat} (hk : k < log.newAdded.length) :
    log.setNote k (log.newAdded.getD k false) = log := by
  rw [List.getD_eq_getElem?_getD, List.getElem?_eq_getElem hk, Option.getD_some]
  cases log
  simp [setNote]

end MessageLog

/-- The shared state of the goroutines: the log, and the `done` channels closed so far. -/
structure LogEnv (α : Type) where
  log : MessageLog α
  closedDone : List Nat
  deriving DecidableEq, Repr

/-- `New()`: an empty log; no `done` channel is closed. -/
def LogEnv.init : LogEnv α := ⟨⟨[], []⟩, []⟩

/-! ## The goroutine `supplyMessages` -/

/-- `supplyMessages(ch, done)`: its `done` channel (`none` for `nil`), the index of its channel
`newAdded` in `log.newAdded` once registered, and its loop. -/
structure Supply (α : Type) where
  done : Option Nat
  newAdded : Option Nat
  cursor : Cursor α
  deriving DecidableEq, Repr

/-- The goroutine `Stream(done)` starts. -/
def Supply.start (done : Option Nat) : Supply α := ⟨done, none, Cursor.start⟩

/-- The case `<-done` is ready: `done` is closed. A `nil` channel is never ready. -/
def Supply.doneReady (closed : List Nat) (t : Supply α) : Bool :=
  match t.done with
  | some d => decide (d ∈ closed)
  | none => false

/-- What the goroutines do that the invariants speak of: `Append` calls, and the sends on the
stream of the goroutine with index `stream`. -/
inductive LogEvent (α : Type) where
  | appended (msg : α)
  | sent (stream : Nat) (msg : α)
  deriving DecidableEq, Repr

/-- One atomic step of `supplyMessages` with index `i`, taking case `sc`, when it is enabled: the
registration, then the steps of its loop over `log.msgs` with its own channel. -/
def supplyStep (i : Nat) (e : LogEnv α) (t : Supply α) (sc : SelectCase) :
    Option (LogEnv α × Supply α × List (LogEvent α)) :=
  match t.newAdded, sc with
  | none, .first =>
    some ({ e with log := e.log.register }, { t with newAdded := some e.log.newAdded.length }, [])
  | none, .cancel => none
  | some k, sc =>
    (Cursor.step e.log.msgs (e.log.newAdded.getD k false) (t.doneReady e.closedDone) t.cursor
        sc).map fun (note, c, out) =>
      ({ e with log := e.log.setNote k note }, { t with cursor := c }, out.toList.map (.sent i))

/-- The steps of `supplyMessages`: the registration, or a step of its loop. -/
inductive SupplyMove (i : Nat) (e : LogEnv α) (t : Supply α) :
    LogEnv α → Supply α → List (LogEvent α) → Prop
  | register : t.newAdded = none →
      SupplyMove i e t { e with log := e.log.register }
        { t with newAdded := some e.log.newAdded.length } []
  | loop {k : Nat} {note : Bool} {c : Cursor α} {out : Option α} : t.newAdded = some k →
      Cursor.Move e.log.msgs (e.log.newAdded.getD k false) (t.doneReady e.closedDone) t.cursor
        note c out →
      SupplyMove i e t { e with log := e.log.setNote k note } { t with cursor := c }
        (out.toList.map (.sent i))

section Moves

variable {i : Nat} {e e' : LogEnv α} {t t' : Supply α} {es : List (LogEvent α)}

/-- Every step `supplyStep` takes is a `SupplyMove`. -/
theorem supplyStep_move {sc : SelectCase} (h : supplyStep i e t sc = some (e', t', es)) :
    SupplyMove i e t e' t' es := by
  unfold supplyStep at h
  split at h
  · next hk => cases h; exact .register hk
  · cases h
  · next k sc hk =>
    obtain ⟨⟨note, c, out⟩, hs, heq⟩ := Option.map_eq_some_iff.mp h
    cases heq
    exact .loop hk (Cursor.step_move hs)

/-- Every `SupplyMove` is a step `supplyStep` can take. -/
theorem SupplyMove.supplyStep_eq (h : SupplyMove i e t e' t' es) :
    ∃ sc, supplyStep i e t sc = some (e', t', es) := by
  cases h with
  | register hk => exact ⟨.first, by simp [supplyStep, hk]⟩
  | loop hk hm =>
    obtain ⟨sc, hs⟩ := hm.step_eq
    exact ⟨sc, by simp only [supplyStep, hk, hs, Option.map_some]⟩

/-- A step of `supplyMessages` adds no message and closes no channel. -/
theorem SupplyMove.msgs_eq (h : SupplyMove i e t e' t' es) :
    e'.log.msgs = e.log.msgs ∧ e'.closedDone = e.closedDone := by
  cases h <;> exact ⟨rfl, rfl⟩

/-- A registered supplier keeps its channel; a new one takes the first free index. -/
theorem SupplyMove.newAdded_eq (h : SupplyMove i e t e' t' es) :
    (∀ k, t.newAdded = some k → t'.newAdded = some k) ∧
      (t.newAdded = none → t'.newAdded = some e.log.newAdded.length) := by
  cases h with
  | register hk => exact ⟨fun k h => by simp [hk] at h, fun _ => rfl⟩
  | loop hk _ => exact ⟨fun _ h => h, fun h => by simp [hk] at h⟩

/-- A step of `supplyMessages` keeps every channel it does not own, and adds at most one. -/
theorem SupplyMove.newAdded_getD (h : SupplyMove i e t e' t' es) {k : Nat}
    (hk : k < e.log.newAdded.length) (hne : t.newAdded ≠ some k) :
    e'.log.newAdded.getD k false = e.log.newAdded.getD k false ∧
      e.log.newAdded.length ≤ e'.log.newAdded.length := by
  cases h with
  | register _ => simp [List.getD_eq_getElem?_getD, List.getElem?_append_left hk]
  | @loop k' _ _ _ hk' _ =>
    have hkk : k' ≠ k := fun h => hne (h ▸ hk')
    simp [List.getD_eq_getElem?_getD, List.getElem?_set_ne hkk]

end Moves

/-! ## The goroutines that use the log -/

/-- A goroutine that uses the log. -/
inductive LogCall (α : Type) where
  /-- A call `Append(msg)`. -/
  | append (msg : α)
  /-- `close(done)`, by the owner of the channel `done`. -/
  | close (done : Nat)
  /-- The goroutine `supplyMessages` of a call `Stream(done)`. -/
  | supply (t : Supply α)
  | returned
  deriving DecidableEq, Repr

/-- One atomic step of the goroutine with index `i`. Closing a closed channel panics in the
goroutine that closes it, which is no part of the log: that step is left out. -/
def logStep (i : Nat) (e : LogEnv α) :
    LogCall α → SelectCase → Option (LogEnv α × LogCall α × List (LogEvent α))
  | .append msg, .first => some ({ e with log := e.log.append msg }, .returned, [.appended msg])
  | .close d, .first =>
    if d ∈ e.closedDone then none
    else some ({ e with closedDone := d :: e.closedDone }, .returned, [])
  | .supply t, sc => (supplyStep i e t sc).map fun (e', t', es) => (e', .supply t', es)
  | _, _ => none

/-- Any number of goroutines that call `Append`, call `Stream(done)` and close `done` channels. -/
def logProgram : Program (LogEnv α) (LogCall α) (LogEvent α) where
  start := fun
    | .supply t => ∃ done, t = Supply.start done
    | .returned => False
    | .append _ | .close _ => True
  step i e c e' c' es := ∃ sc, logStep i e c sc = some (e', c', es)

/-- The steps of a goroutine, by kind. -/
theorem logStep_cases {i : Nat} {e e' : LogEnv α} {c c' : LogCall α} {es : List (LogEvent α)}
    {sc : SelectCase} (h : logStep i e c sc = some (e', c', es)) :
    (∃ msg, c = .append msg ∧ e' = { e with log := e.log.append msg } ∧ c' = .returned ∧
        es = [.appended msg]) ∨
    (∃ d, c = .close d ∧ d ∉ e.closedDone ∧ e' = { e with closedDone := d :: e.closedDone } ∧
        c' = .returned ∧ es = []) ∨
    (∃ t t', c = .supply t ∧ c' = .supply t' ∧ SupplyMove i e t e' t' es) := by
  unfold logStep at h
  split at h
  · next msg => cases h; exact .inl ⟨msg, rfl, rfl, rfl, rfl⟩
  · next d =>
    split_ifs at h with hd
    cases h
    exact .inr (.inl ⟨d, rfl, hd, rfl, rfl, rfl⟩)
  · next sc t =>
    obtain ⟨⟨e₁, t₁, es₁⟩, hs, heq⟩ := Option.map_eq_some_iff.mp h
    cases heq
    exact .inr (.inr ⟨t, t₁, rfl, rfl, supplyStep_move hs⟩)
  · cases h

/-! ## What the streams have sent -/

/-- The message of an event `sent` on the stream of goroutine `i`. -/
def LogEvent.sentOn (i : Nat) : LogEvent α → Option α
  | .sent j msg => if j = i then some msg else none
  | .appended _ => none

/-- The message of an event `appended`. -/
def LogEvent.appendedMsg : LogEvent α → Option α
  | .appended msg => some msg
  | .sent _ _ => none

/-- The messages the stream of goroutine `i` has sent, in order. -/
def sentOn (i : Nat) (trace : List (LogEvent α)) : List α := trace.filterMap (LogEvent.sentOn i)

/-- The messages of the `Append` calls, in order. -/
def appendedOf (trace : List (LogEvent α)) : List α := trace.filterMap LogEvent.appendedMsg

section Sent

variable {i : Nat} {trace trace' : List (LogEvent α)}

@[simp] theorem sentOn_nil : sentOn i ([] : List (LogEvent α)) = [] := rfl

@[simp] theorem sentOn_append : sentOn i (trace ++ trace') = sentOn i trace ++ sentOn i trace' :=
  List.filterMap_append

@[simp] theorem sentOn_appended (msg : α) : sentOn i [.appended msg] = [] := rfl

@[simp] theorem sentOn_map_sent_self (msgs : List α) :
    sentOn i (msgs.map (LogEvent.sent i)) = msgs := by
  simp [sentOn, List.filterMap_map, Function.comp_def, LogEvent.sentOn]

theorem sentOn_map_sent_of_ne {j : Nat} (h : j ≠ i) (msgs : List α) :
    sentOn i (msgs.map (LogEvent.sent j)) = [] := by
  simp [sentOn, List.filterMap_map, Function.comp_def, LogEvent.sentOn, h]

@[simp] theorem appendedOf_append :
    appendedOf (trace ++ trace') = appendedOf trace ++ appendedOf trace' :=
  List.filterMap_append

@[simp] theorem appendedOf_appended (msg : α) : appendedOf [.appended msg] = [msg] := rfl

@[simp] theorem appendedOf_map_sent (j : Nat) (msgs : List α) :
    appendedOf (msgs.map (LogEvent.sent j)) = [] := by
  simp [appendedOf, List.filterMap_map, Function.comp_def, LogEvent.appendedMsg]

end Sent

/-- The sends of one step of `supplyMessages`: none of another stream, and no `Append`. -/
theorem SupplyMove.events {i j : Nat} {e e' : LogEnv α} {t t' : Supply α} {es : List (LogEvent α)}
    (h : SupplyMove i e t e' t' es) : appendedOf es = [] ∧ (j ≠ i → sentOn j es = []) := by
  cases h with
  | register _ => exact ⟨rfl, fun _ => rfl⟩
  | loop _ _ => exact ⟨by simp, fun hj => sentOn_map_sent_of_ne (Ne.symm hj) _⟩

/-! ## The invariant -/

/-- What holds of the goroutine `supplyMessages` with index `i`. -/
structure SupplyOk (e : LogEnv α) (trace : List (LogEvent α)) (i : Nat) (t : Supply α) : Prop where
  /-- Before the registration the loop has not started, and nothing is sent. -/
  fresh : t.newAdded = none → t.cursor = Cursor.start ∧ sentOn i trace = []
  /-- A registered channel is in `log.newAdded`. -/
  registered : ∀ k, t.newAdded = some k → k < e.log.newAdded.length
  /-- The loop over the log, with the supplier's own channel. -/
  loop : ∀ k, t.newAdded = some k →
    Cursor.Ok (sentOn i trace) e.log.msgs (e.log.newAdded.getD k false) t.cursor
  /-- A supplier returns only when its `done` is closed. -/
  returned : t.cursor.pc = .returned → t.doneReady e.closedDone = true

/-- The invariant of the log and its goroutines. -/
structure LogInv (c : Config (LogEnv α) (LogCall α) (LogEvent α)) : Prop where
  /-- The log is the order of the `Append` calls. -/
  appended : appendedOf c.trace = c.shared.log.msgs
  supply : ∀ i (t : Supply α), c.threads[i]? = some (.supply t) → SupplyOk c.shared c.trace i t
  /-- Only the goroutine of a stream sends on it. -/
  sender : ∀ i, sentOn i c.trace ≠ [] → ∃ t : Supply α, c.threads[i]? = some (.supply t)
  /-- Two registered suppliers have two channels. -/
  own : ∀ (i j : Nat) (t u : Supply α) (k : Nat), c.threads[i]? = some (.supply t) →
    c.threads[j]? = some (.supply u) → t.newAdded = some k → u.newAdded = some k → i = j

section Preservation

variable {e e' : LogEnv α} {trace : List (LogEvent α)} {i j : Nat} {t t' u : Supply α}
  {es : List (LogEvent α)}

/-- A closed `done` stays closed. -/
theorem Supply.doneReady_mono {closed closed' : List Nat} (h : closed ⊆ closed')
    (hd : u.doneReady closed = true) : u.doneReady closed' = true := by
  unfold Supply.doneReady at *
  cases hu : u.done with
  | none => rw [hu] at hd; cases hd
  | some d =>
    rw [hu] at hd
    simp only [decide_eq_true_eq] at hd ⊢
    exact h hd

/-- A supplier stays well after an `Append`: the message is past its `next`, and its channel
holds a notification. -/
theorem SupplyOk.append (h : SupplyOk e trace j u) (msg : α) :
    SupplyOk { e with log := e.log.append msg } (trace ++ [.appended msg]) j u where
  fresh := fun hn => by simpa using h.fresh hn
  registered := fun k hk => by simpa using h.registered k hk
  loop := fun k hk => by
    have hnote : (e.log.append msg).newAdded.getD k false = true := by
      simp [List.getD_eq_getElem?_getD, h.registered k hk]
    show Cursor.Ok _ (e.log.msgs ++ [msg]) ((e.log.append msg).newAdded.getD k false) u.cursor
    rw [hnote, sentOn_append, sentOn_appended, List.append_nil]
    exact (h.loop k hk).append msg
  returned := h.returned

/-- A supplier stays well after a `done` channel is closed. -/
theorem SupplyOk.close (h : SupplyOk e trace j u) (d : Nat) :
    SupplyOk { e with closedDone := d :: e.closedDone } trace j u where
  fresh := h.fresh
  registered := h.registered
  loop := h.loop
  returned := fun hpc => Supply.doneReady_mono (List.subset_cons_self _ _) (h.returned hpc)

/-- A supplier stays well while another one moves, when the two have two channels. -/
theorem SupplyOk.other (h : SupplyOk e trace j u) (hm : SupplyMove i e t e' t' es) (hji : j ≠ i)
    (hown : ∀ k, u.newAdded = some k → t.newAdded ≠ some k) :
    SupplyOk e' (trace ++ es) j u := by
  obtain ⟨hmsgs, hclosed⟩ := hm.msgs_eq
  have hsent : sentOn j (trace ++ es) = sentOn j trace := by
    rw [sentOn_append, (hm.events (j := j)).2 hji, List.append_nil]
  exact {
    fresh := fun hn => hsent ▸ h.fresh hn
    registered := fun k hk =>
      Nat.lt_of_lt_of_le (h.registered k hk) (hm.newAdded_getD (h.registered k hk) (hown k hk)).2
    loop := fun k hk => by
      rw [hsent, hmsgs, (hm.newAdded_getD (h.registered k hk) (hown k hk)).1]
      exact h.loop k hk
    returned := fun hpc => hclosed ▸ h.returned hpc }

/-- A supplier stays well after its own step. -/
theorem SupplyOk.move (h : SupplyOk e trace i t) (hm : SupplyMove i e t e' t' es) :
    SupplyOk e' (trace ++ es) i t' := by
  cases hm with
  | register hk =>
    -- the new channel is empty, and the loop starts over the log with nothing sent
    obtain ⟨hstart, hsent⟩ := h.fresh hk
    refine ⟨fun h => by simp at h, fun k hk' => ?_, fun k hk' => ?_, fun hpc => ?_⟩
    · simp only [Option.some.injEq] at hk'
      simp [← hk']
    · simp only [Option.some.injEq] at hk'
      subst hk'
      have hnote : (e.log.register.newAdded).getD e.log.newAdded.length false = false := by
        simp [List.getD_eq_getElem?_getD]
      rw [hnote, List.append_nil, hsent, hstart]
      exact Cursor.ok_start _ _
    · simp [hstart, Cursor.start] at hpc
  | @loop k note c out hk hmove =>
    have hlen := h.registered k hk
    refine ⟨fun h => by simp [hk] at h, fun k' hk' => ?_, fun k' hk' => ?_, fun hpc => ?_⟩
    · simp only [hk, Option.some.injEq] at hk'
      simpa [← hk'] using hlen
    · simp only [hk, Option.some.injEq] at hk'
      subst hk'
      have hnote : (e.log.setNote k note).newAdded.getD k false = note := by
        simp [List.getD_eq_getElem?_getD, hlen]
      rw [hnote, sentOn_append, sentOn_map_sent_self]
      exact (h.loop k hk).move hmove
    · exact hmove.cancel_of_returned hpc

end Preservation

/-! ## Runs -/

section Run

variable {c : Config (LogEnv α) (LogCall α) (LogEvent α)}

/-- A stream that nothing has sent on yet starts well. -/
theorem SupplyOk.start {e : LogEnv α} {trace : List (LogEvent α)} {i : Nat}
    (hs : sentOn i trace = []) (done : Option Nat) : SupplyOk e trace i (Supply.start done) where
  fresh := fun _ => ⟨rfl, hs⟩
  registered := fun _ h => by simp [Supply.start] at h
  loop := fun _ h => by simp [Supply.start] at h
  returned := fun hpc => by simp [Supply.start, Cursor.start] at hpc

theorem logInv_init :
    LogInv (Config.initial LogEnv.init : Config (LogEnv α) (LogCall α) (LogEvent α)) where
  appended := rfl
  supply := fun _ _ h => by simp [Config.initial] at h
  sender := fun _ h => absurd rfl h
  own := fun _ _ _ _ _ h => by simp [Config.initial] at h

/-- A goroutine that is started keeps the invariant: a new stream has sent nothing and has no
channel yet. -/
theorem LogInv.spawn (h : LogInv c) {g : LogCall α} (hg : logProgram.start g) :
    LogInv ⟨c.shared, c.threads ++ [g], c.trace⟩ := by
  -- nothing is sent on the stream of the first free index
  have hfree : sentOn c.threads.length c.trace = [] := by
    by_contra hne
    obtain ⟨t, ht⟩ := h.sender _ hne
    simp at ht
  -- an old thread keeps its index, the new one is at the first free index
  have hold : ∀ j (u : LogCall α), c.threads[j]? = some u → (c.threads ++ [g])[j]? = some u :=
    fun j u hu => by rw [List.getElem?_append_left (List.getElem?_eq_some_iff.mp hu).1, hu]
  have hnew : ∀ (u : Supply α), g = .supply u → u.newAdded = none := by
    rintro u rfl
    obtain ⟨d, rfl⟩ := hg
    rfl
  refine ⟨h.appended, ?_, ?_, ?_⟩
  · intro j u hu
    rcases getElem?_append_singleton_eq_some hu with hu | ⟨rfl, hgu⟩
    · exact h.supply j u hu
    · subst hgu
      obtain ⟨d, rfl⟩ := hg
      exact SupplyOk.start hfree d
  · intro j hne
    obtain ⟨t, ht⟩ := h.sender j hne
    exact ⟨t, hold j _ ht⟩
  · intro j l t u k ht hu htk huk
    rcases getElem?_append_singleton_eq_some ht with ht | ⟨-, hgt⟩
    · rcases getElem?_append_singleton_eq_some hu with hu | ⟨-, hgu⟩
      · exact h.own j l t u k ht hu htk huk
      · simp [hnew u hgu.symm] at huk
    · simp [hnew t hgt.symm] at htk

/-- The supplier that moves keeps its channel apart from every other registered one. -/
theorem LogInv.own_move (h : LogInv c) {i l k : Nat} {t t' v : Supply α} {e' : LogEnv α}
    {es : List (LogEvent α)} (ht : c.threads[i]? = some (.supply t))
    (hm : SupplyMove i c.shared t e' t' es) (hv : c.threads[l]? = some (.supply v))
    (htk : t'.newAdded = some k) (hvk : v.newAdded = some k) : i = l := by
  cases hk : t.newAdded with
  | none =>
    -- a new registration takes the first free channel, past every registered one
    have hlt := (h.supply l v hv).registered k hvk
    rw [hm.newAdded_eq.2 hk, Option.some.injEq] at htk
    omega
  | some k' =>
    rw [hm.newAdded_eq.1 k' hk] at htk
    exact h.own i l t v k ht hv (hk.trans htk) hvk

/-- A step of an `Append` or a `close` keeps the invariant when it keeps every supplier well: its
goroutine is no supplier, and it sends on no stream. -/
theorem LogInv.move_plain (h : LogInv c) {i : Nat} {g : LogCall α} {e' : LogEnv α}
    {es : List (LogEvent α)} (hg : c.threads[i]? = some g) (hgs : ∀ t : Supply α, g ≠ .supply t)
    (happ : appendedOf (c.trace ++ es) = e'.log.msgs) (hsent : ∀ j, sentOn j es = [])
    (hsup : ∀ j (u : Supply α), SupplyOk c.shared c.trace j u → SupplyOk e' (c.trace ++ es) j u) :
    LogInv ⟨e', c.threads.set i .returned, c.trace ++ es⟩ := by
  refine ⟨happ, ?_, ?_, ?_⟩
  · intro j u hu
    rcases getElem?_set_eq_some hu with ⟨-, hu⟩ | ⟨-, hu⟩
    · cases hu
    · exact hsup j u (h.supply j u hu)
  · intro j hne
    obtain ⟨u, hu⟩ := h.sender j (by simpa [hsent j] using hne)
    have hji : j ≠ i := by
      rintro rfl
      exact hgs u (Option.some.inj (hg.symm.trans hu))
    exact ⟨u, by rw [List.getElem?_set_ne (Ne.symm hji), hu]⟩
  · intro j l u v k hu hv
    rcases getElem?_set_eq_some hu with ⟨-, hu⟩ | ⟨-, hu⟩
    · cases hu
    rcases getElem?_set_eq_some hv with ⟨-, hv⟩ | ⟨-, hv⟩
    · cases hv
    exact h.own j l u v k hu hv

/-- A goroutine that moves keeps the invariant. -/
theorem LogInv.move (h : LogInv c) {i : Nat} {g g' : LogCall α} {e' : LogEnv α}
    {es : List (LogEvent α)} (hg : c.threads[i]? = some g)
    (hs : logProgram.step i c.shared g e' g' es) :
    LogInv ⟨e', c.threads.set i g', c.trace ++ es⟩ := by
  obtain ⟨sc, hs⟩ := hs
  rcases logStep_cases hs with ⟨msg, rfl, rfl, rfl, rfl⟩ | ⟨d, rfl, -, rfl, rfl, rfl⟩ |
    ⟨t, t', rfl, rfl, hm⟩
  case inl =>
    exact h.move_plain hg (fun _ h => by cases h) (by simp [h.appended]) (fun _ => rfl)
      fun _ _ hu => hu.append msg
  case inr.inl =>
    exact h.move_plain hg (fun _ h => by cases h) (by simpa using h.appended) (fun _ => rfl)
      fun _ _ hu => by simpa using hu.close d
  case inr.inr =>
    obtain ⟨hmsgs, -⟩ := hm.msgs_eq
    refine ⟨by simp [h.appended, (hm.events (j := 0)).1, hmsgs], ?_, ?_, ?_⟩
    · intro j u hu
      rcases getElem?_set_eq_some hu with ⟨rfl, hut⟩ | ⟨hji, hu⟩
      · obtain rfl := LogCall.supply.inj hut
        exact (h.supply j t hg).move hm
      · refine (h.supply j u hu).other hm hji fun k huk htk => hji ?_
        exact h.own j i u t k hu hg huk htk
    · intro j hne
      by_cases hji : j = i
      · subst hji
        exact ⟨t', by simp [List.getElem?_set_self (List.getElem?_eq_some_iff.mp hg).1]⟩
      · obtain ⟨u, hu⟩ := h.sender j (by simpa [(hm.events (j := j)).2 hji] using hne)
        exact ⟨u, by rw [List.getElem?_set_ne (Ne.symm hji), hu]⟩
    · intro j l u v k hu hv huk hvk
      rcases getElem?_set_eq_some hu with ⟨rfl, hut⟩ | ⟨hji, hu₀⟩ <;>
        rcases getElem?_set_eq_some hv with ⟨rfl, hvt⟩ | ⟨hli, hv₀⟩
      · rfl
      · obtain rfl := LogCall.supply.inj hut
        exact h.own_move hg hm hv₀ huk hvk
      · obtain rfl := LogCall.supply.inj hvt
        exact (h.own_move hg hm hu₀ hvk huk).symm
      · exact h.own j l u v k hu₀ hv₀ huk hvk

/-- **The invariant of the log**: it holds in every reachable configuration. -/
theorem logInv_inductive :
    Inductive (logProgram (α := α)).Step (Config.initial LogEnv.init) LogInv where
  init := logInv_init
  step := fun _ _ h hs => by
    cases hs with
    | spawn hg => exact h.spawn hg
    | move hg hs => exact h.move hg hs

end Run

/-! ## Progress of a stream -/

section Progress

variable {c : Config (LogEnv α) (LogCall α) (LogEvent α)} {i : Nat} {t : Supply α}

/-- A step of `supplyMessages` is a step of its goroutine alone. -/
theorem stepOf_of_move {e' : LogEnv α} {t' : Supply α} {es : List (LogEvent α)}
    (hi : c.threads[i]? = some (.supply t)) (hm : SupplyMove i c.shared t e' t' es) :
    logProgram.StepOf i c ⟨e', c.threads.set i (.supply t'), c.trace ++ es⟩ := by
  obtain ⟨sc, hs⟩ := hm.supplyStep_eq
  exact .move hi ⟨sc, by simp [logStep, hs]⟩

/-- The configuration where the loop of supplier `i`, registered on channel `k`, is at `a.2.1`,
its channel holds `a.1`, and it has sent `a.2.2` since `c`. -/
def soloConfig (c : Config (LogEnv α) (LogCall α) (LogEvent α)) (i k : Nat) (t : Supply α)
    (a : Bool × Cursor α × List α) : Config (LogEnv α) (LogCall α) (LogEvent α) :=
  ⟨{ c.shared with log := c.shared.log.setNote k a.1 },
    c.threads.set i (.supply { t with cursor := a.2.1 }), c.trace ++ a.2.2.map (.sent i)⟩

/-- A step of the loop alone is a step of the supplier's goroutine alone. -/
theorem stepOf_soloConfig {k : Nat} (hi : c.threads[i]? = some (.supply t))
    (hk : t.newAdded = some k) (hlen : k < c.shared.log.newAdded.length)
    {a b : Bool × Cursor α × List α} (hs : Cursor.Solo c.shared.log.msgs a b) :
    logProgram.StepOf i (soloConfig c i k t a) (soloConfig c i k t b) := by
  obtain ⟨out, hmove, hout⟩ := hs
  have hi' : (soloConfig c i k t a).threads[i]? = some (.supply { t with cursor := a.2.1 }) :=
    List.getElem?_set_self (by simpa using (List.getElem?_eq_some_iff.mp hi).1)
  have hnote : (soloConfig c i k t a).shared.log.newAdded.getD k false = a.1 := by
    simp [soloConfig, List.getD_eq_getElem?_getD, hlen]
  have hm : SupplyMove i (soloConfig c i k t a).shared { t with cursor := a.2.1 }
      { (soloConfig c i k t a).shared with log := (soloConfig c i k t a).shared.log.setNote k b.1 }
      { t with cursor := b.2.1 } (out.toList.map (.sent i)) :=
    .loop hk (hnote ▸ hmove.of_not_cancel)
  have hstep := stepOf_of_move hi' hm
  have hb : soloConfig c i k t b = ⟨{ (soloConfig c i k t a).shared with
      log := (soloConfig c i k t a).shared.log.setNote k b.1 },
      (soloConfig c i k t a).threads.set i (.supply { t with cursor := b.2.1 }),
      (soloConfig c i k t a).trace ++ out.toList.map (.sent i)⟩ := by
    simp [soloConfig, MessageLog.setNote, List.set_set, hout]
  rw [hb]
  exact hstep

/-- A registered supplier that has not returned sends every message of the log by its own
steps: the loop's own progress, step by step a step of its goroutine. -/
theorem supply_catchUp_registered (hinv : LogInv c) (hi : c.threads[i]? = some (.supply t))
    {k : Nat} (hk : t.newAdded = some k) (hpc : t.cursor.pc ≠ .returned) :
    ∃ c', Relation.ReflTransGen (logProgram.StepOf i) c c' ∧
      sentOn i c'.trace = c.shared.log.msgs := by
  have hok := hinv.supply i t hi
  have hlen := hok.registered k hk
  obtain ⟨note', cur', out, hrun, hout⟩ := (hok.loop k hk).catchUp hpc
  have hlift : Relation.ReflTransGen (logProgram.StepOf i)
      (soloConfig c i k t (c.shared.log.newAdded.getD k false, t.cursor, []))
      (soloConfig c i k t (note', cur', out)) :=
    Relation.ReflTransGen.lift (soloConfig c i k t)
      (fun _ _ hs => stepOf_soloConfig hi hk hlen hs) _ _ hrun
  -- the run starts at `c` itself
  have hc : soloConfig c i k t (c.shared.log.newAdded.getD k false, t.cursor, []) = c := by
    have hti : c.threads.set i (.supply t) = c.threads := by
      obtain ⟨hlt, heq⟩ := List.getElem?_eq_some_iff.mp hi
      rw [← heq, List.set_getElem_self]
    have ht : ({ t with cursor := t.cursor } : Supply α) = t := rfl
    unfold soloConfig
    rw [MessageLog.setNote_getD _ hlen, ht, hti, List.map_nil, List.append_nil]
  rw [hc] at hlift
  exact ⟨_, hlift, by simp [soloConfig, hout]⟩

/-- **No lost wake-up**: a supplier that has not returned sends every message of the log by its
own steps alone, whatever it was doing. -/
theorem supply_catchUp (hinv : LogInv c) (hi : c.threads[i]? = some (.supply t))
    (hpc : t.cursor.pc ≠ .returned) :
    ∃ c', Relation.ReflTransGen (logProgram.StepOf i) c c' ∧
      sentOn i c'.trace = c.shared.log.msgs := by
  cases hk : t.newAdded with
  | some k => exact supply_catchUp_registered hinv hi hk hpc
  | none =>
    -- register first; the loop then starts at its head
    have hstart := ((hinv.supply i t hi).fresh hk).1
    have hstep := stepOf_of_move hi (.register hk)
    obtain ⟨c', hrun, hsent⟩ := supply_catchUp_registered
      (logInv_inductive.step _ _ hinv hstep.step)
      (List.getElem?_set_self (List.getElem?_eq_some_iff.mp hi).1) rfl
      (by simp [hstart, Cursor.start])
    exact ⟨c', .head hstep hrun, hsent⟩

end Progress

/-! ## The streams of the log -/

/-- **The streams of `messageLog`.** In every run of any number of `Append` calls, `Stream`
suppliers and closed `done` channels: the log holds the messages of the `Append` calls in their
order; the messages sent on each stream are a prefix of the log (none lost, repeated or
reordered); the slice `log.msgs[next:]` of every supplier is in range; a supplier waiting on
`newAdded` with `next < len(log.msgs)` has a notification in its channel; and a supplier whose
`done` is not closed sends every message of the log by its own steps. -/
theorem messageLog_streams {c : Config (LogEnv α) (LogCall α) (LogEvent α)}
    (hreach : logProgram.Reachable LogEnv.init c) :
    appendedOf c.trace = c.shared.log.msgs ∧
    (∀ i, sentOn i c.trace <+: c.shared.log.msgs) ∧
    (∀ i (t : Supply α), c.threads[i]? = some (.supply t) →
      t.cursor.next ≤ c.shared.log.msgs.length ∧
      (∀ k, t.newAdded = some k → t.cursor.pc = .wait →
        t.cursor.next < c.shared.log.msgs.length → c.shared.log.newAdded[k]? = some true) ∧
      (t.doneReady c.shared.closedDone = false →
        ∃ c', Relation.ReflTransGen (logProgram.StepOf i) c c' ∧
          sentOn i c'.trace = c.shared.log.msgs)) := by
  have hinv := logInv_inductive.reachable hreach
  refine ⟨hinv.appended, fun i => ?_, fun i t hi => ?_⟩
  · by_cases hs : sentOn i c.trace = []
    · rw [hs]
      exact List.nil_prefix
    · -- only a supplier sends; once registered, its loop has sent a prefix of the log
      obtain ⟨t, hi⟩ := hinv.sender i hs
      have hok := hinv.supply i t hi
      cases hk : t.newAdded with
      | none => exact absurd (hok.fresh hk).2 hs
      | some k => exact (hok.loop k hk).isPrefix_sent
  · have hok := hinv.supply i t hi
    refine ⟨?_, fun k hk hpc hlt => ?_, fun hopen => ?_⟩
    · cases hk : t.newAdded with
      | none => simp [(hok.fresh hk).1, Cursor.start]
      | some k => exact (hok.loop k hk).next_le
    · have hnote := (hok.loop k hk).notified (.inr hpc) hlt
      rw [List.getD_eq_getElem?_getD] at hnote
      have hlen := hok.registered k hk
      rw [List.getElem?_eq_getElem hlen] at hnote ⊢
      simpa using hnote
    · exact supply_catchUp hinv hi fun hpc => by simp [hok.returned hpc] at hopen

/-! ## A run chosen step by step -/

/-- A choice of the scheduler: a goroutine calls `Append(msg)`, closes `done`, or calls
`Stream(done)`, or goroutine `i` takes case `sc` of its next step. -/
inductive LogChoice (α : Type) where
  | append (msg : α)
  | close (done : Nat)
  | stream (done : Option Nat)
  | run (i : Nat) (sc : SelectCase)

/-- The configuration after choice `ch`, when it is enabled. -/
def logSchedStep (c : Config (LogEnv α) (LogCall α) (LogEvent α)) :
    LogChoice α → Option (Config (LogEnv α) (LogCall α) (LogEvent α))
  | .append msg => some ⟨c.shared, c.threads ++ [.append msg], c.trace⟩
  | .close d => some ⟨c.shared, c.threads ++ [.close d], c.trace⟩
  | .stream done => some ⟨c.shared, c.threads ++ [.supply (Supply.start done)], c.trace⟩
  | .run i sc => (c.threads[i]?).bind fun g =>
    (logStep i c.shared g sc).map fun (e', g', es) => ⟨e', c.threads.set i g', c.trace ++ es⟩

/-- Every choice the scheduler makes is a step of the program. -/
theorem logSchedStep_sound (c : Config (LogEnv α) (LogCall α) (LogEvent α)) (ch : LogChoice α)
    (c' : Config (LogEnv α) (LogCall α) (LogEvent α)) (h : logSchedStep c ch = some c') :
    logProgram.Step c c' := by
  cases ch with
  | append msg => cases h; exact .spawn trivial
  | close d => cases h; exact .spawn trivial
  | stream done => cases h; exact .spawn ⟨done, rfl⟩
  | run i sc =>
    obtain ⟨g, hg, h⟩ := Option.bind_eq_some_iff.mp h
    obtain ⟨⟨e', g', es⟩, hs, rfl⟩ := Option.map_eq_some_iff.mp h
    exact .move hg ⟨sc, hs⟩

/-- One stream of `Stream(nil)` waits on `newAdded`, and then one message is appended. -/
def oneAppend : Config (LogEnv Nat) (LogCall Nat) (LogEvent Nat) :=
  ⟨⟨⟨[7], [true]⟩, []⟩, [.supply ⟨none, some 0, ⟨.wait, 0, []⟩⟩, .returned], [.appended 7]⟩

theorem oneAppend_reachable : logProgram.Reachable LogEnv.init oneAppend :=
  reflTransGen_of_runChoices logSchedStep_sound
    [.stream none, .run 0 .first, .run 0 .first, .run 0 .first, .append 7, .run 1 .first] rfl

theorem messageLog_streams_oneAppend :
    oneAppend.shared.log.newAdded[0]? = some true ∧
    ∃ c', Relation.ReflTransGen (logProgram.StepOf 0) oneAppend c' ∧ sentOn 0 c'.trace = [7] := by
  obtain ⟨-, -, hstreams⟩ := messageLog_streams oneAppend_reachable
  obtain ⟨-, hwait, hcatch⟩ := hstreams 0 _ rfl
  exact ⟨hwait 0 rfl rfl (by decide), hcatch rfl⟩

end MinBFT.Core.Messagelog
