import MinBFT.System.Reach
import Mathlib.Data.List.Infix

/-!
# Threads over a shared state

A concurrent program as an interleaving semantics: a configuration holds the shared state, the
threads started so far (a thread is named by its index in that list, which never changes) and the
events emitted so far. A step either starts a new thread in one of the program's start states
(`Program.Step.spawn`) or lets one thread take one atomic step (`Program.Step.move`): an atomic
step reads and writes the shared state, moves the thread to its next local state and may emit
events. A blocking wait is a step that is not enabled until its condition holds, so every
interleaving of the threads' atomic steps is a run.

The events form a global history. Properties of the order of events ("every `b` is preceded by an
`a`") are then properties of `trace`, which only grows (`Program.Step.trace_prefix`).

Nothing here is about a particular program.
-/

namespace MinBFT.System

/-- A configuration: the shared state, the threads by index, and the history of events. -/
structure Config (σ τ ε : Type) where
  shared : σ
  threads : List τ
  trace : List ε

/-- A concurrent program: the local states a thread may start in, and one atomic step of the
thread with index `i` from shared state `s` and local state `t` to `s'` and `t'`, emitting
`es`. -/
structure Program (σ τ ε : Type) where
  start : τ → Prop
  step : Nat → σ → τ → σ → τ → List ε → Prop

variable {σ τ ε : Type}

/-- The configuration with shared state `s` and no thread. -/
def Config.initial (s : σ) : Config σ τ ε := ⟨s, [], []⟩

namespace Program

variable (P : Program σ τ ε)

/-- One step of the interleaving: a thread starts, or one thread moves. -/
inductive Step : Config σ τ ε → Config σ τ ε → Prop
  | spawn {c : Config σ τ ε} {t : τ} :
      P.start t → Step c ⟨c.shared, c.threads ++ [t], c.trace⟩
  | move {c : Config σ τ ε} {i : Nat} {t t' : τ} {s' : σ} {es : List ε} :
      c.threads[i]? = some t → P.step i c.shared t s' t' es →
      Step c ⟨s', c.threads.set i t', c.trace ++ es⟩

/-- A step of the thread with index `i` alone: what it can do with no help from the others. -/
inductive StepOf (i : Nat) : Config σ τ ε → Config σ τ ε → Prop
  | move {c : Config σ τ ε} {t t' : τ} {s' : σ} {es : List ε} :
      c.threads[i]? = some t → P.step i c.shared t s' t' es →
      StepOf i c ⟨s', c.threads.set i t', c.trace ++ es⟩

/-- The configurations of the runs from shared state `s0` with no thread started. -/
def Reachable (s0 : σ) (c : Config σ τ ε) : Prop :=
  System.Reachable P.Step (Config.initial s0) c

variable {P}

theorem StepOf.step {i : Nat} {c c' : Config σ τ ε} (h : P.StepOf i c c') : P.Step c c' := by
  cases h with
  | move ht hs => exact .move ht hs

theorem Step.trace_prefix {c c' : Config σ τ ε} (h : P.Step c c') : c.trace <+: c'.trace := by
  cases h with
  | spawn _ => exact List.prefix_refl _
  | move _ _ => exact List.prefix_append _ _

/-- The history only grows along a run. -/
theorem trace_prefix_of_run {c c' : Config σ τ ε} (h : Relation.ReflTransGen P.Step c c') :
    c.trace <+: c'.trace :=
  reflTransGen_of_step (R := fun a b : Config σ τ ε => a.trace <+: b.trace)
    (fun a => List.prefix_refl a.trace) (fun _ _ _ h₁ h₂ => h₁.trans h₂)
    (fun _ _ h => h.trace_prefix) h

/-- A thread keeps its index: after a step every old thread is at the same index, with its old
local state or its new one. -/
theorem Step.getElem?_of_lt {c c' : Config σ τ ε} (h : P.Step c c') {j : Nat}
    (hj : j < c.threads.length) : ∃ t', c'.threads[j]? = some t' := by
  cases h with
  | spawn _ =>
    exact ⟨c.threads[j], by simp [List.getElem?_append_left hj]⟩
  | move _ _ =>
    rename_i i t t' _ _ _ _
    by_cases hij : i = j
    · subst hij
      exact ⟨t', by simp [List.getElem?_set_self hj]⟩
    · exact ⟨c.threads[j], by rw [List.getElem?_set_ne hij, List.getElem?_eq_getElem hj]⟩

/-! ### Executable schedules -/

/-- A scheduler's choice: start a thread, or move the thread with an index. -/
inductive Choice (τ : Type) where
  | spawn (t : τ)
  | move (i : Nat)

/-- The configuration after a choice, for a program whose start states are decided by `start`
and whose threads' steps are computed by `next`; `none` when the choice is not enabled. -/
def schedStep (start : τ → Bool) (next : Nat → σ → τ → Option (σ × τ × List ε))
    (c : Config σ τ ε) : Choice τ → Option (Config σ τ ε)
  | .spawn t => if start t then some ⟨c.shared, c.threads ++ [t], c.trace⟩ else none
  | .move i =>
    (c.threads[i]?).bind fun t => (next i c.shared t).map fun (s', t', es) =>
      ⟨s', c.threads.set i t', c.trace ++ es⟩

/-- A scheduler built from a sound start test and step function takes only steps of `P`. -/
theorem schedStep_sound {start : τ → Bool} {next : Nat → σ → τ → Option (σ × τ × List ε)}
    (hstart : ∀ t, start t = true → P.start t)
    (hnext : ∀ i s t s' t' es, next i s t = some (s', t', es) → P.step i s t s' t' es)
    (c : Config σ τ ε) (ch : Choice τ) (c' : Config σ τ ε)
    (h : schedStep start next c ch = some c') : P.Step c c' := by
  cases ch with
  | spawn t =>
    simp only [schedStep] at h
    split at h
    · rename_i ht
      cases h
      exact .spawn (hstart t ht)
    · cases h
  | move i =>
    obtain ⟨t, ht, h⟩ := Option.bind_eq_some_iff.mp h
    obtain ⟨⟨s', t', es⟩, hs, rfl⟩ := Option.map_eq_some_iff.mp h
    exact .move ht (hnext i _ t s' t' es hs)

end Program

/-! ## Properties of each event of a history -/

/-- Every event of the history `tr` has the property `P`, which may depend on the events before
it. -/
def EachEvent (P : List ε → ε → Prop) (tr : List ε) : Prop :=
  ∀ i e, tr[i]? = some e → P (tr.take i) e

theorem eachEvent_nil (P : List ε → ε → Prop) : EachEvent P [] := by
  intro i e h
  simp at h

/-- Events appended to a history keep the property when each of them has it after the history
and the appended events before it. -/
theorem EachEvent.append {P : List ε → ε → Prop} {tr : List ε} (h : EachEvent P tr)
    {es : List ε} (hes : ∀ i e, es[i]? = some e → P (tr ++ es.take i) e) :
    EachEvent P (tr ++ es) := by
  intro i e hi
  by_cases hlt : i < tr.length
  · rw [List.getElem?_append_left hlt] at hi
    rw [List.take_append_of_le_length (Nat.le_of_lt hlt)]
    exact h i e hi
  · -- an appended event: the history before it is `tr` and the appended ones before it
    rw [List.getElem?_append_right (by omega)] at hi
    rw [List.take_append, List.take_of_length_le (by omega)]
    exact hes (i - tr.length) e hi

/-- One more event that has the property after the history keeps it for every event. -/
theorem EachEvent.snoc {P : List ε → ε → Prop} {tr : List ε} (h : EachEvent P tr) {e : ε}
    (he : P tr e) : EachEvent P (tr ++ [e]) := by
  refine h.append ?_
  intro i e' hi
  have hi0 : i = 0 := by
    have := (List.getElem?_eq_some_iff.mp hi).1
    simp only [List.length_singleton] at this
    omega
  subst hi0
  simp only [List.getElem?_cons_zero, Option.some.injEq] at hi
  subst hi
  simpa using he

/-- The property of every event of a history holds of every event of its prefix. -/
theorem EachEvent.of_append {P : List ε → ε → Prop} {tr es : List ε}
    (h : EachEvent P (tr ++ es)) :
    EachEvent P tr := by
  intro i e hi
  have hlt : i < tr.length := (List.getElem?_eq_some_iff.mp hi).1
  have := h i e (by rw [List.getElem?_append_left hlt]; exact hi)
  rwa [List.take_append_of_le_length (Nat.le_of_lt hlt)] at this

/-- The last event of a history has the property after the events before it. -/
theorem EachEvent.last {P : List ε → ε → Prop} {tr : List ε} {e : ε}
    (h : EachEvent P (tr ++ [e])) :
    P tr e := by
  have := h tr.length e (by simp)
  rwa [List.take_left' rfl] at this

/-- After one thread is replaced, a thread is the new one or an old one at another index. -/
theorem getElem?_set_eq_some {l : List τ} {i j : Nat} {t u : τ} (h : (l.set i t)[j]? = some u) :
    (j = i ∧ u = t) ∨ (j ≠ i ∧ l[j]? = some u) := by
  by_cases hij : i = j
  · subst hij
    rw [List.getElem?_set_self'] at h
    obtain ⟨t', -, rfl⟩ := Option.map_eq_some_iff.mp h
    exact .inl ⟨rfl, rfl⟩
  · rw [List.getElem?_set_ne hij] at h
    exact .inr ⟨Ne.symm hij, h⟩

/-- A thread after one thread is replaced is the new one, or an old one at another index. -/
theorem mem_set_cases {l : List τ} {i : Nat} {t u : τ} (h : u ∈ l.set i t) :
    u = t ∨ ∃ j, j ≠ i ∧ l[j]? = some u := by
  obtain ⟨j, hj⟩ := List.mem_iff_getElem?.mp h
  rcases getElem?_set_eq_some hj with ⟨-, rfl⟩ | ⟨hji, hj⟩
  · exact .inl rfl
  · exact .inr ⟨j, hji, hj⟩

/-- After a thread is started, a thread is an old one or the new one, at the first free index. -/
theorem getElem?_append_singleton_eq_some {l : List τ} {j : Nat} {t u : τ}
    (h : (l ++ [t])[j]? = some u) : l[j]? = some u ∨ (j = l.length ∧ u = t) := by
  rcases Nat.lt_or_ge j l.length with hj | hj
  · rw [List.getElem?_append_left hj] at h
    exact .inl h
  · rw [List.getElem?_append_right hj] at h
    have hj' : j - l.length = 0 := by
      have := (List.getElem?_eq_some_iff.mp h).1
      simp only [List.length_singleton] at this
      omega
    rw [hj'] at h
    simp only [List.getElem?_cons_zero, Option.some.injEq] at h
    exact .inr ⟨by omega, h.symm⟩

/-- A property of every thread survives replacing one thread by a thread that has it. -/
theorem forall_mem_set {Q : τ → Prop} {l : List τ} {i : Nat} {t : τ} (hl : ∀ u ∈ l, Q u)
    (ht : Q t) : ∀ u ∈ l.set i t, Q u := by
  intro u hu
  rcases List.mem_or_eq_of_mem_set hu with hu | rfl
  · exact hl u hu
  · exact ht

/-- A property of every thread survives a new thread that has it. -/
theorem forall_mem_append_singleton {Q : τ → Prop} {l : List τ} {t : τ} (hl : ∀ u ∈ l, Q u)
    (ht : Q t) : ∀ u ∈ l ++ [t], Q u := by
  intro u hu
  rcases List.mem_append.mp hu with hu | hu
  · exact hl u hu
  · rw [List.mem_singleton.mp hu]
    exact ht

/-- The number of threads in a phase after one thread moves from `t` to `t'`. -/
theorem countP_set_of_getElem? {p : τ → Bool} {l : List τ} {i : Nat} {t : τ} (t' : τ)
    (h : l[i]? = some t) :
    (l.set i t').countP p + (if p t then 1 else 0) = l.countP p + (if p t' then 1 else 0) := by
  have hi : i < l.length := (List.getElem?_eq_some_iff.mp h).1
  have ht : l[i] = t := (List.getElem?_eq_some_iff.mp h).2
  rw [List.countP_set hi, ht]
  have : (if p t = true then 1 else 0) ≤ l.countP p := by
    split
    · rename_i hp
      exact List.countP_pos_iff.mpr ⟨t, ht ▸ List.getElem_mem hi, hp⟩
    · exact Nat.zero_le _
  omega

end MinBFT.System
