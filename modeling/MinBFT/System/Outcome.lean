import Mathlib.Logic.Basic

/-!
# Calls that return, panic or run forever

A call of a routine in a language with panics and unbounded loops ends in one of three ways: it
returns a value, it panics with a message (and the process stops), or it never returns. `Outcome`
is that result type with the monad that sequences calls: a panic or a call that does not return
ends the sequence.

A loop whose number of iterations is bounded only by the machine integers it counts with is
written with explicit fuel of the size of the integer type: when the fuel runs out, every value
of the loop variable has been visited and the loop would go on forever, so `hang` is its
outcome, not an artefact of the fuel.

## Results

* `bind_eq_ok`: the inversion rule of a sequence that returned; proofs about a routine peel its
  calls apart with it instead of unfolding the monad.
* `bind_ne_hang`: a sequence does not hang when none of its calls does.
-/

namespace MinBFT.System

/-- How a call ends. -/
inductive Outcome (α : Type) where
  /-- The call returns `a`. -/
  | ok (a : α)
  /-- The call panics with the message `msg`. -/
  | panic (msg : String)
  /-- The call never returns. -/
  | hang
  deriving DecidableEq, Repr

namespace Outcome

variable {α β : Type}

/-- Run `k` on what `x` returned; a panic or a hang of `x` is the outcome of the sequence. -/
def bind (x : Outcome α) (k : α → Outcome β) : Outcome β :=
  match x with
  | ok a => k a
  | panic msg => panic msg
  | hang => hang

instance : Monad Outcome where
  pure := ok
  bind := bind

@[simp] theorem pure_eq (a : α) : (pure a : Outcome α) = ok a := rfl

@[simp] theorem bind_eq (x : Outcome α) (k : α → Outcome β) : x >>= k = x.bind k := rfl

@[simp] theorem ok_bind (a : α) (k : α → Outcome β) : (ok a).bind k = k a := rfl

@[simp] theorem panic_bind (msg : String) (k : α → Outcome β) :
    (panic msg : Outcome α).bind k = panic msg := rfl

@[simp] theorem hang_bind (k : α → Outcome β) : (hang : Outcome α).bind k = hang := rfl

/-- A sequence that returned ran its first call to a value and its rest from there. -/
theorem bind_eq_ok {x : Outcome α} {k : α → Outcome β} {b : β} (h : x.bind k = ok b) :
    ∃ a, x = ok a ∧ k a = ok b := by
  cases x with
  | ok a => exact ⟨a, rfl, h⟩
  | panic msg => cases h
  | hang => cases h

/-- A sequence panics in its first call, or in its rest once the first returned. -/
theorem bind_eq_panic {x : Outcome α} {k : α → Outcome β} {msg : String}
    (h : x.bind k = panic msg) : x = panic msg ∨ ∃ a, x = ok a ∧ k a = panic msg := by
  cases x with
  | ok a => exact .inr ⟨a, rfl, h⟩
  | panic m =>
    rw [panic_bind, panic.injEq] at h
    exact .inl (h ▸ rfl)
  | hang => cases h

/-- A sequence hangs only if one of its calls does. -/
theorem bind_ne_hang {x : Outcome α} {k : α → Outcome β} (hx : x ≠ hang)
    (hk : ∀ a, x = ok a → k a ≠ hang) : x.bind k ≠ hang := by
  cases x with
  | ok a => exact hk a rfl
  | panic msg => simp
  | hang => exact absurd rfl hx

/-- The value of a call that returned. -/
def get? : Outcome α → Option α
  | ok a => some a
  | _ => none

@[simp] theorem get?_ok (a : α) : (ok a).get? = some a := rfl

theorem get?_eq_some {x : Outcome α} {a : α} : x.get? = some a ↔ x = ok a := by
  cases x <;> simp [get?]

end Outcome

end MinBFT.System
