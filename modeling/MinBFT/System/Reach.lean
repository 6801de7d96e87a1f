import Mathlib.Logic.Relation

/-!
# Reachability and inductive invariants

A transition system is a step relation `step : σ → σ → Prop` and an initial state. The states it
can reach are `Relation.ReflTransGen step init`. A property that holds initially and that every
step keeps (`Inductive`) holds in every reachable state (`Inductive.reachable`); this is the one
induction every safety result of the development goes through. A run chosen step by step by an
executable step function is a run of the relation when that function is sound for it
(`reflTransGen_of_runChoices`): fixed runs, such as counterexamples, are computed, not derived.

Nothing here is about a particular program.
-/

namespace MinBFT.System

variable {σ : Type}

/-- The states reachable from `init` by steps of `step`. -/
def Reachable (step : σ → σ → Prop) (init : σ) (s : σ) : Prop :=
  Relation.ReflTransGen step init s

/-- `P` holds initially and every step keeps it. -/
structure Inductive (step : σ → σ → Prop) (init : σ) (P : σ → Prop) : Prop where
  init : P init
  step : ∀ s s', P s → step s s' → P s'

variable {step : σ → σ → Prop} {init : σ}

theorem Reachable.refl : Reachable step init init := Relation.ReflTransGen.refl

theorem Reachable.tail {s s' : σ} (h : Reachable step init s) (hs : step s s') :
    Reachable step init s' :=
  Relation.ReflTransGen.tail h hs

/-- **The invariant rule**: an inductive property holds in every reachable state. -/
theorem Inductive.reachable {P : σ → Prop} (h : Inductive step init P) {s : σ}
    (hs : Reachable step init s) : P s := by
  induction hs with
  | refl => exact h.init
  | tail _ hst ih => exact h.step _ _ ih hst

/-- An inductive property, once it holds, holds along the rest of the run. -/
theorem Inductive.run {P : σ → Prop} (h : Inductive step init P) {s s' : σ} (hs : P s)
    (hr : Relation.ReflTransGen step s s') : P s' := by
  induction hr with
  | refl => exact hs
  | tail _ hst ih => exact h.step _ _ ih hst

/-- A consequence of an inductive property holds in every reachable state. -/
theorem Inductive.reachable_imp {P Q : σ → Prop} (h : Inductive step init P) (hPQ : ∀ s, P s → Q s)
    {s : σ} (hs : Reachable step init s) : Q s :=
  hPQ s (h.reachable hs)

/-- A property of one step (a value never decreases, a field is kept) whose hypothesis is an
inductive property holds for every step taken from a reachable state. -/
theorem Inductive.step_of_reachable {P : σ → Prop} {R : σ → σ → Prop} (h : Inductive step init P)
    (hR : ∀ s s', P s → step s s' → R s s') {s s' : σ} (hs : Reachable step init s)
    (hst : step s s') : R s s' :=
  hR s s' (h.reachable hs) hst

/-- A relation that is reflexive, transitive and respected by every step relates every state to
each state reachable from it. -/
theorem reflTransGen_of_step {R : σ → σ → Prop} (hrefl : ∀ s, R s s)
    (htrans : ∀ a b c, R a b → R b c → R a c) (hstep : ∀ s s', step s s' → R s s') {s s' : σ}
    (h : Relation.ReflTransGen step s s') : R s s' := by
  induction h with
  | refl => exact hrefl s
  | tail _ hst ih => exact htrans _ _ _ ih (hstep _ _ hst)

/-! ## Executable runs -/

section Run

variable {χ : Type}

/-- The state after the choices `xs` of an executable step function `next`, when each of them is
enabled in its turn. -/
def runChoices (next : σ → χ → Option σ) : σ → List χ → Option σ
  | s, [] => some s
  | s, x :: xs => (next s x).bind fun s' => runChoices next s' xs

/-- An executable step function that only takes steps of `step` runs along `step`. -/
theorem reflTransGen_of_runChoices {next : σ → χ → Option σ}
    (hnext : ∀ s x s', next s x = some s' → step s s') :
    ∀ (xs : List χ) {s s' : σ}, runChoices next s xs = some s' → Relation.ReflTransGen step s s'
  | [], s, s', h => by
    cases h
    exact Relation.ReflTransGen.refl
  | x :: xs, s, s', h => by
    obtain ⟨s₁, h₁, hrest⟩ := Option.bind_eq_some_iff.mp h
    exact Relation.ReflTransGen.head (hnext s x s₁ h₁) (reflTransGen_of_runChoices hnext xs hrest)

end Run

end MinBFT.System
