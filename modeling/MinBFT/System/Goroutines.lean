import MinBFT.System.Threads

/-!
# Goroutines: threads that start threads and return

An interleaving semantics for a program of goroutines over a shared state, as `Threads` has for
a fixed set of threads, with what goroutines add: a goroutine's atomic step may start new
goroutines (`go f()`) and may return, which ends it; and an environment acts between steps,
changing the shared state and starting goroutines (a message arrives on a connection, a timer
fires). The configuration, its history of events and reachability are those of `Threads`; a run
starts from any configuration, so a program can start with goroutines of its own.

A goroutine is named by its position in the list of goroutines; positions shift when one
returns, so invariants are stated over all goroutines (`mem_moveThread`, `mem_moveThread_cases`),
not over positions, and how many goroutines have a property is counted with `countP`
(`countP_moveThread`).

Nothing here is about a particular program.
-/

namespace MinBFT.System

/-- A program of goroutines: what the environment may do, and one atomic step of a goroutine,
from shared state `s` and local state `t` to `s'`, with its next local state (`none` when it
returns), the goroutines it starts, and the events it emits. -/
structure GoProgram (σ τ ε : Type) where
  env : σ → σ → List τ → List ε → Prop
  step : σ → τ → σ → Option τ → List τ → List ε → Prop

variable {σ τ ε : Type}

/-- The goroutines after goroutine `i` moves to `t'`, or returns for `t' = none`, and the
goroutines `forks` start. -/
def moveThread (l : List τ) (i : Nat) (t' : Option τ) (forks : List τ) : List τ :=
  (match t' with
    | some u => l.set i u
    | none => l.eraseIdx i) ++ forks

/-- A goroutine after a move is one that was there, the moved one, or a new one. -/
theorem mem_moveThread {l : List τ} {i : Nat} {t' : Option τ} {forks : List τ} {u : τ}
    (h : u ∈ moveThread l i t' forks) : u ∈ l ∨ t' = some u ∨ u ∈ forks := by
  unfold moveThread at h
  rcases List.mem_append.mp h with h | h
  · cases t' with
    | some v =>
      rcases List.mem_or_eq_of_mem_set h with h | rfl
      · exact .inl h
      · exact .inr (.inl rfl)
    | none => exact .inl (List.mem_of_mem_eraseIdx h)
  · exact .inr (.inr h)

/-- A property of every goroutine survives a move that keeps it for the moved and the new
ones. -/
theorem forall_mem_moveThread {Q : τ → Prop} {l : List τ} {i : Nat} {t' : Option τ}
    {forks : List τ} (hl : ∀ u ∈ l, Q u) (ht : ∀ u, t' = some u → Q u) (hf : ∀ u ∈ forks, Q u) :
    ∀ u ∈ moveThread l i t' forks, Q u := by
  intro u hu
  rcases mem_moveThread hu with h | h | h
  · exact hl u h
  · exact ht u h
  · exact hf u h

/-- A goroutine after a move is another goroutine that was there, the moved one, or a new
one. -/
theorem mem_moveThread_cases {l : List τ} {i : Nat} {t' : Option τ} {forks : List τ} {u : τ}
    (h : u ∈ moveThread l i t' forks) :
    (∃ j, j ≠ i ∧ l[j]? = some u) ∨ t' = some u ∨ u ∈ forks := by
  unfold moveThread at h
  rcases List.mem_append.mp h with h | h
  · obtain ⟨j, hj⟩ := List.mem_iff_getElem?.mp h
    cases t' with
    | some v =>
      by_cases hji : j = i
      · subst hji
        rw [List.getElem?_set_self'] at hj
        obtain ⟨w, -, hw⟩ := Option.map_eq_some_iff.mp hj
        exact .inr (.inl (congrArg some hw))
      · exact .inl ⟨j, hji, by rwa [List.getElem?_set_ne (Ne.symm hji)] at hj⟩
    | none =>
      rw [List.getElem?_eraseIdx] at hj
      split at hj
      · exact .inl ⟨j, by omega, hj⟩
      · exact .inl ⟨j + 1, by omega, hj⟩
  · exact .inr (.inr h)

/-- The goroutines with a property after goroutine `t` returns. -/
theorem countP_eraseIdx_of_getElem? {p : τ → Bool} :
    ∀ {l : List τ} {i : Nat} {t : τ}, l[i]? = some t →
      (l.eraseIdx i).countP p + (if p t then 1 else 0) = l.countP p
  | [], _, _, h => by simp at h
  | a :: l, 0, t, h => by
    simp only [List.getElem?_cons_zero, Option.some.injEq] at h
    subst h
    simp [List.countP_cons]
  | a :: l, i + 1, t, h => by
    simp only [List.getElem?_cons_succ] at h
    have ih := countP_eraseIdx_of_getElem? (p := p) h
    simp only [List.eraseIdx_cons_succ, List.countP_cons]
    omega

/-- The goroutines with a property after goroutine `t` moves. -/
theorem countP_moveThread {p : τ → Bool} {l : List τ} {i : Nat} {t : τ} (t' : Option τ)
    (forks : List τ) (h : l[i]? = some t) :
    (moveThread l i t' forks).countP p + (if p t then 1 else 0) =
      l.countP p + (match t' with | some u => if p u then 1 else 0 | none => 0) + forks.countP p := by
  unfold moveThread
  cases t' with
  | some u =>
    have := countP_set_of_getElem? (p := p) u h
    simp only [List.countP_append]
    omega
  | none =>
    have := countP_eraseIdx_of_getElem? (p := p) h
    simp only [List.countP_append]
    omega

/-- Two goroutines at different positions with a property count twice. -/
theorem two_le_countP {p : τ → Bool} {l : List τ} {i j : Nat} {a b : τ} (hij : i ≠ j)
    (ha : l[i]? = some a) (hb : l[j]? = some b) (hpa : p a) (hpb : p b) : 2 ≤ l.countP p := by
  have h₁ := countP_eraseIdx_of_getElem? (p := p) ha
  have hb' : b ∈ l.eraseIdx i := by
    rcases Nat.lt_or_gt_of_ne hij with h | h
    · rw [List.mem_iff_getElem?]
      exact ⟨j - 1, by rw [List.getElem?_eraseIdx_of_ge (by omega), Nat.sub_add_cancel (by omega)]; exact hb⟩
    · rw [List.mem_iff_getElem?]
      exact ⟨j, by rw [List.getElem?_eraseIdx_of_lt h]; exact hb⟩
  have h₂ : 0 < (l.eraseIdx i).countP p := List.countP_pos_iff.mpr ⟨b, hb', hpb⟩
  simp only [hpa, if_true] at h₁
  omega

namespace GoProgram

variable (P : GoProgram σ τ ε)

/-- One step of the interleaving: the environment acts, or one goroutine moves. -/
inductive Step : Config σ τ ε → Config σ τ ε → Prop
  | env {c : Config σ τ ε} {s' : σ} {forks : List τ} {es : List ε} :
      P.env c.shared s' forks es → Step c ⟨s', c.threads ++ forks, c.trace ++ es⟩
  | move {c : Config σ τ ε} {i : Nat} {t : τ} {s' : σ} {t' : Option τ} {forks : List τ}
      {es : List ε} :
      c.threads[i]? = some t → P.step c.shared t s' t' forks es →
      Step c ⟨s', moveThread c.threads i t' forks, c.trace ++ es⟩

/-- The configurations of the runs from `c0`. -/
def Reachable (c0 c : Config σ τ ε) : Prop :=
  System.Reachable P.Step c0 c

variable {P}

theorem Step.trace_prefix {c c' : Config σ τ ε} (h : P.Step c c') : c.trace <+: c'.trace := by
  cases h with
  | env _ => exact List.prefix_append _ _
  | move _ _ => exact List.prefix_append _ _

/-- The history only grows along a run. -/
theorem trace_prefix_of_run {c c' : Config σ τ ε} (h : Relation.ReflTransGen P.Step c c') :
    c.trace <+: c'.trace :=
  reflTransGen_of_step (R := fun a b : Config σ τ ε => a.trace <+: b.trace)
    (fun a => List.prefix_refl a.trace) (fun _ _ _ h₁ h₂ => h₁.trans h₂)
    (fun _ _ h => h.trace_prefix) h

end GoProgram

end MinBFT.System
