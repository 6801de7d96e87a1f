import Mathlib.Data.List.Perm.Basic
import MinBFT.System.Outcome

/-!
# Loops over the keys of a map whose bodies touch only their own key

A Go `for k, v := range m` visits the keys of a map in an order the language leaves open. When
the body for key `k` reads and writes only the entry of `k` (and values that do not change), and
may stop the loop with an error or panic, the loop is `foldKeys`: the state is a function from
keys, and the body is a step on one entry.

Such a loop, when it returns without error, returns the same state whatever order it visits the
keys in: each entry is its step's result from its own initial value (`foldKeys_eq_ok_iff`), so
any two orders that visit the same keys once each agree (`foldKeys_perm`).

Nothing here is about a particular program.
-/

namespace MinBFT.System

variable {ι β ε : Type} [DecidableEq ι]

/-- Visit the keys in the order of the list; the step of key `k` maps the entry of `k` to its
new value, or to an error that ends the loop. -/
def foldKeys (step : ι → β → Outcome (Except ε β)) : List ι → (ι → β) → Outcome (Except ε (ι → β))
  | [], s => .ok (.ok s)
  | k :: ks, s =>
    (step k (s k)).bind fun
      | .error e => .ok (.error e)
      | .ok b => foldKeys step ks (Function.update s k b)

variable {step : ι → β → Outcome (Except ε β)}

@[simp] theorem foldKeys_nil (s : ι → β) : foldKeys step [] s = .ok (.ok s) := rfl

theorem foldKeys_cons (k : ι) (ks : List ι) (s : ι → β) :
    foldKeys step (k :: ks) s =
      (step k (s k)).bind fun
        | .error e => .ok (.error e)
        | .ok b => foldKeys step ks (Function.update s k b) := rfl

/-- A step of the loop that returned without error: the first key's step did, and so did the
loop over the rest from there. -/
theorem foldKeys_cons_eq_ok {k : ι} {ks : List ι} {s s' : ι → β}
    (h : foldKeys step (k :: ks) s = .ok (.ok s')) :
    ∃ b, step k (s k) = .ok (.ok b) ∧ foldKeys step ks (Function.update s k b) = .ok (.ok s') := by
  rw [foldKeys_cons] at h
  obtain ⟨r, hr, hk⟩ := Outcome.bind_eq_ok h
  rcases r with e | b
  · cases hk
  · exact ⟨b, hr, hk⟩

/-- A loop panics only in the step of one of its keys. -/
theorem foldKeys_eq_panic {ks : List ι} {s : ι → β} {msg : String}
    (h : foldKeys step ks s = .panic msg) : ∃ k ∈ ks, ∃ b, step k b = .panic msg := by
  induction ks generalizing s with
  | nil => cases h
  | cons k ks ih =>
    rw [foldKeys_cons] at h
    rcases Outcome.bind_eq_panic h with hk | ⟨r, hr, hrest⟩
    · exact ⟨k, List.mem_cons_self, s k, hk⟩
    · rcases r with e | b
      · cases hrest
      · obtain ⟨j, hj, b', hb'⟩ := ih hrest
        exact ⟨j, List.mem_cons_of_mem k hj, b', hb'⟩

/-- A loop whose steps always return returns. -/
theorem foldKeys_returns (hstep : ∀ k b, ∃ r, step k b = .ok r) (ks : List ι) (s : ι → β) :
    ∃ r, foldKeys step ks s = .ok r := by
  induction ks generalizing s with
  | nil => exact ⟨_, rfl⟩
  | cons k ks ih =>
    obtain ⟨r, hr⟩ := hstep k (s k)
    rw [foldKeys_cons, hr, Outcome.ok_bind]
    rcases r with e | b
    · exact ⟨_, rfl⟩
    · exact ih _

/-- A loop whose steps never hang never hangs. -/
theorem foldKeys_ne_hang (hstep : ∀ k b, step k b ≠ .hang) (ks : List ι) (s : ι → β) :
    foldKeys step ks s ≠ .hang := by
  induction ks generalizing s with
  | nil => simp
  | cons k ks ih =>
    rw [foldKeys_cons]
    refine Outcome.bind_ne_hang (hstep k (s k)) fun r _ => ?_
    rcases r with e | b
    · simp
    · exact ih _

/-- **What a loop that returned without error computed**: over keys visited once each, the
entry of a visited key is its step's result from that key's initial entry, and every other entry
is as it was. -/
theorem foldKeys_eq_ok_iff {ks : List ι} (hnd : ks.Nodup) {s s' : ι → β} :
    foldKeys step ks s = .ok (.ok s') ↔
      (∀ k ∈ ks, step k (s k) = .ok (.ok (s' k))) ∧ ∀ k, k ∉ ks → s' k = s k := by
  induction ks generalizing s with
  | nil =>
    simp only [foldKeys_nil, Outcome.ok.injEq, Except.ok.injEq, List.not_mem_nil,
      IsEmpty.forall_iff, implies_true, not_false_eq_true, forall_const, true_and]
    exact ⟨fun h k => h ▸ rfl, fun h => (funext h).symm⟩
  | cons k ks ih =>
    obtain ⟨hk, hnd'⟩ := List.nodup_cons.mp hnd
    constructor
    · intro h
      obtain ⟨b, hb, hrest⟩ := foldKeys_cons_eq_ok h
      obtain ⟨hvis, hother⟩ := (ih hnd').mp hrest
      -- the entry of `k` is not visited again, so it keeps the value its step gave
      have hsk : s' k = b := by rw [hother k hk, Function.update_self]
      refine ⟨fun j hj => ?_, fun j hj => ?_⟩
      · rcases List.mem_cons.mp hj with rfl | hj
        · rw [hsk]
          exact hb
        · have hne : j ≠ k := fun h' => hk (h' ▸ hj)
          rw [← Function.update_of_ne hne b s]
          exact hvis j hj
      · have hne : j ≠ k := fun h' => hj (h' ▸ List.mem_cons_self)
        rw [hother j fun h' => hj (List.mem_cons_of_mem k h'), Function.update_of_ne hne]
    · rintro ⟨hvis, hother⟩
      rw [foldKeys_cons, hvis k List.mem_cons_self, Outcome.ok_bind]
      refine (ih hnd').mpr ⟨fun j hj => ?_, fun j hj => ?_⟩
      · have hne : j ≠ k := fun h' => hk (h' ▸ hj)
        rw [Function.update_of_ne hne]
        exact hvis j (List.mem_cons_of_mem k hj)
      · by_cases hjk : j = k
        · subst hjk
          rw [Function.update_self]
        · rw [Function.update_of_ne hjk]
          exact hother j fun h' => (List.mem_cons.mp h').elim hjk hj

/-- **The order of the keys does not matter** to a loop that returns without error: visited in
any other order, the same keys give the same state. -/
theorem foldKeys_perm {ks ks' : List ι} (hperm : ks.Perm ks') (hnd : ks.Nodup) {s s' : ι → β}
    (h : foldKeys step ks s = .ok (.ok s')) : foldKeys step ks' s = .ok (.ok s') := by
  obtain ⟨hvis, hother⟩ := (foldKeys_eq_ok_iff hnd).mp h
  refine (foldKeys_eq_ok_iff (hperm.nodup_iff.mp hnd)).mpr ⟨fun k hk => ?_, fun k hk => ?_⟩
  · exact hvis k (hperm.mem_iff.mpr hk)
  · exact hother k fun h' => hk (hperm.mem_iff.mp h')

end MinBFT.System
