import MinBFT.Core.Commit
import MinBFT.Core.Validate
import MinBFT.System.Reach

/-!
# The commitment counter ends every call

`makeCommitmentCounter` (`core/commit.go`) over any sequence of calls whose Prepare carries a UI
counter of at least 1. `makeUIVerifier` (`core/usig-ui.go`) rejects a received message with
counter 0 (`validatePrepare_ui`, `validateCommit_prepare_ui`), and the USIG never assigns 0 to
the replica's own.

The skipped-commitment loop counts a `uint64` `cv` down from `prepareCV - 1` while
`cv >= firstCV`. Were `firstCV` ever 0 the condition would hold for every value of `cv` and the
loop would not end; were `prepareCV` 0, `prepareCV - 1` would wrap around to `2 ^ 64 - 1`.
`firstCV` starts at 1 and is reset only to the counter of a Prepare of a later view.

`scanCommitted` says what the loop is for: the first of the counters below `prepareCV` that has
an entry decides whether the replica skipped a commitment. The loop is that check over the
counters `prepareCV - 1`, …, `firstCV`.

## Results

* `skippedCommitmentLoop_eq_scan`: with `firstCV ≥ 1` and fuel for the values from `cv` down to
  `firstCV`, the loop is `scanCommitted` over `loopCounters firstCV cv`.
* `counterCall_firstCV`: every call keeps `firstCV ≥ 1`.
* `commitmentCounter_terminates`: in every reachable state `firstCV ≥ 1`; every call on a Prepare
  whose counter is at least 1 ends, and its loop visits the counters from `prepareCV - 1` down to
  `firstCV`: `prepareCV - firstCV` of them when that is positive, none otherwise, none wrapped
  around.
-/

namespace MinBFT.Core

open MinBFT.Messages MinBFT.Usig MinBFT.System

/-- The skipped-commitment check over the counters `cvs`, in order: the first of them with an
entry decides, and lets `r` through when `r` is among that entry's committers. -/
def scanCommitted (states : Nat → Option (Finset Nat)) (r : Nat) : List Nat → Except String Unit
  | [] => .ok ()
  | cv :: cvs =>
    match states cv with
    | some s => if r ∈ s then .ok () else .error "Skipped commitment"
    | none => scanCommitted states r cvs

/-- The counters from `cv` down to `firstCV`. -/
def loopCounters (firstCV cv : Nat) : List Nat := (List.range' firstCV (cv + 1 - firstCV)).reverse

/-- One call of the counter, on a Prepare whose UI decodes to a counter of at least 1. -/
inductive CounterCall (f : Nat) : CommitmentCounter → CommitmentCounter → Prop
  | call {s s' : CommitmentCounter} {r : Nat} {p : Prepare} {ui : UI} {ans : Except String Bool} :
      parseMessageUI (.prepare p) = some ui → 1 ≤ ui.counter →
      countCommitment f s r p = .ok (ans, s') → CounterCall f s s'

/-! ## The loop -/

section Loop

variable {states : Nat → Option (Finset Nat)} {r firstCV cv : Nat}

theorem loopCounters_of_le (h1 : 1 ≤ firstCV) (h : firstCV ≤ cv) :
    loopCounters firstCV cv = cv :: loopCounters firstCV (cv - 1) := by
  have hn : cv + 1 - firstCV = (cv - 1 + 1 - firstCV) + 1 := by omega
  have hlast : firstCV + 1 * (cv - 1 + 1 - firstCV) = cv := by omega
  rw [loopCounters, hn, List.range'_concat, hlast, List.reverse_append]
  rfl

theorem loopCounters_of_lt (h : cv < firstCV) : loopCounters firstCV cv = [] := by
  rw [loopCounters, show cv + 1 - firstCV = 0 by omega]
  rfl

theorem length_loopCounters : (loopCounters firstCV cv).length = cv + 1 - firstCV := by
  simp [loopCounters]

theorem mem_loopCounters {x : Nat} :
    x ∈ loopCounters firstCV cv ↔ firstCV ≤ x ∧ x ≤ cv := by
  rw [loopCounters, List.mem_reverse, List.mem_range'_1]
  omega

/-- With `firstCV ≥ 1` the loop from `cv` tests the counters `cv, cv - 1, …, firstCV` and stops
below `firstCV`: its result is `scanCommitted` over them once it has a test for each of them and
one more. -/
theorem skippedCommitmentLoop_eq_scan (h1 : 1 ≤ firstCV) :
    ∀ fuel cv, cv + 1 - firstCV < fuel →
      skippedCommitmentLoop states r firstCV fuel cv =
        .ok (scanCommitted states r (loopCounters firstCV cv))
  | 0, _, h => absurd h (Nat.not_lt_zero _)
  | fuel + 1, cv, h => by
    unfold skippedCommitmentLoop
    split_ifs with hle
    · rw [loopCounters_of_le h1 hle, scanCommitted]
      cases hs : states cv with
      | some S =>
        simp only
        split_ifs <;> rfl
      | none =>
        -- `cv ≥ firstCV ≥ 1`: `cv--` does not wrap around
        simp only
        rw [decCounter_of_pos (by omega)]
        exact skippedCommitmentLoop_eq_scan h1 fuel (cv - 1) (by omega)
    · rw [loopCounters_of_lt (by omega)]
      rfl

/-- The loop of a call on the counter `c` of a decoded UI, `1 ≤ c < 2 ^ 64`: `loopFuel` is more
than enough. -/
theorem skippedCommitmentLoop_call (h1 : 1 ≤ firstCV) {c : Nat} (hc : 1 ≤ c) (hc' : c < 2 ^ 64) :
    skippedCommitmentLoop states r firstCV loopFuel (decCounter c) =
      .ok (scanCommitted states r (List.range' firstCV (c - firstCV)).reverse) := by
  rw [decCounter_of_pos hc, skippedCommitmentLoop_eq_scan h1 _ _ (by rw [loopFuel]; omega),
    loopCounters, show c - 1 + 1 - firstCV = c - firstCV by omega]

end Loop

/-! ## A call -/

section Call

variable {f r c : Nat} {s s' : CommitmentCounter} {ans : Except String Bool}

/-- A call in its view keeps `firstCV`: it only writes entries and `lastDoneCV`. -/
theorem countInView_firstCV {p : Nat} (h : s.countInView f p r c = .ok (ans, s')) :
    s'.firstCV = s.firstCV := by
  rcases CommitmentCounter.countInView_cases h with ⟨-, -, rfl⟩ | ⟨-, -, -, rfl⟩ | ⟨-, -, hq⟩ |
    ⟨-, -, -, -, hq⟩
  · rfl
  · rfl
  all_goals
    rcases CommitmentCounter.checkQuorum_cases hq with ⟨-, -, rfl⟩ | ⟨-, -, rfl⟩ <;> rfl

/-- A call in its view with `firstCV ≥ 1` on a counter `1 ≤ c < 2 ^ 64` ends. -/
theorem countInView_ne_hang {p : Nat} (h1 : 1 ≤ s.firstCV) (hc : 1 ≤ c) (hc' : c < 2 ^ 64) :
    s.countInView f p r c ≠ .hang := by
  unfold CommitmentCounter.countInView
  split_ifs
  · simp
  · -- the loop ends; what follows it is a value
    dsimp only
    rw [CommitmentCounter.setEntry_firstCV, skippedCommitmentLoop_call h1 hc hc', Outcome.ok_bind]
    split
    · simp
    · split_ifs <;> simp
  · simp

/-- The state a call loops in: its own, or the one it resets to on a Prepare of a later view. -/
theorem countCommitment_eq_countInView {p : Prepare} {ui : UI}
    (hui : parseMessageUI (.prepare p) = some ui) (hview : ¬ p.view < s.view) :
    countCommitment f s r p =
      (if s.view < p.view then CommitmentCounter.enterView p.view ui.counter else s).countInView
        f p.replicaID r ui.counter := by
  rw [countCommitment_eq hui, if_neg hview]

/-- Every call keeps `firstCV ≥ 1`: the reset takes the Prepare's counter. -/
theorem counterCall_firstCV (h : CounterCall f s s') (h1 : 1 ≤ s.firstCV) : 1 ≤ s'.firstCV := by
  cases h with | @call r p ui ans hui hc hcall =>
  by_cases hold : p.view < s.view
  · rw [countCommitment_eq hui, if_pos hold] at hcall
    cases hcall
    exact h1
  · rw [countCommitment_eq_countInView hui hold] at hcall
    rw [countInView_firstCV hcall]
    split_ifs
    · exact hc
    · exact h1

/-- A Prepare that passed `validatePrepare`, or the Prepare of a Commit that passed
`validateCommit`, has a counter of at least 1: a call of the counter on it is a `CounterCall`. -/
theorem CounterCall.of_validated {sha256 : Bytes → Bytes}
    {verifyTag : AuthenRole → Nat → Bytes → Bytes → Except String Unit} {cfg : ReplicaConfig}
    {p : Prepare} (hv : validatePrepare sha256 verifyTag cfg p = .ok (.ok ()) ∨
      ∃ cm : Commit, cm.prepare = p ∧ validateCommit sha256 verifyTag cfg cm = .ok (.ok ()))
    (h : countCommitment f s r p = .ok (ans, s')) : CounterCall f s s' := by
  obtain ⟨ui, hui, hc⟩ : ∃ ui, parseMessageUI (.prepare p) = some ui ∧ ui.counter ≠ 0 := by
    rcases hv with hv | ⟨cm, rfl, hv⟩
    · exact validatePrepare_ui _ _ hv
    · exact validateCommit_prepare_ui _ _ hv
  exact .call hui (Nat.one_le_iff_ne_zero.mpr hc) h

end Call

/-! ## Every run -/

theorem firstCV_pos_inductive (f : Nat) :
    Inductive (CounterCall f) {} fun s => 1 ≤ s.firstCV where
  init := le_rfl
  step := fun _ _ h1 h => counterCall_firstCV h h1

/-- **The commitment counter ends every call.** In every state the counter reaches through calls
on Prepares with counters of at least 1, `firstCV ≥ 1`; and a call on such a Prepare ends, its
skipped-commitment loop being the check over the counters from `prepareCV - 1` down to the
`firstCV` of the state it loops in, `max(0, prepareCV - firstCV)` of them, none wrapped around. -/
theorem commitmentCounter_terminates {f : Nat} {s : CommitmentCounter}
    (hs : Reachable (CounterCall f) {} s) :
    1 ≤ s.firstCV ∧
    ∀ (r : Nat) (p : Prepare) (ui : UI), parseMessageUI (.prepare p) = some ui → 1 ≤ ui.counter →
      countCommitment f s r p ≠ .hang ∧
      let s₁ := if s.view < p.view then CommitmentCounter.enterView p.view ui.counter else s
      1 ≤ s₁.firstCV ∧
      ∀ states : Nat → Option (Finset Nat),
        skippedCommitmentLoop states r s₁.firstCV loopFuel (decCounter ui.counter) =
          .ok (scanCommitted states r
            (List.range' s₁.firstCV (ui.counter - s₁.firstCV)).reverse) := by
  have h1 := (firstCV_pos_inductive f).reachable hs
  refine ⟨h1, fun r p ui hui hc => ?_⟩
  -- a decoded counter is a `uint64`
  obtain ⟨b, -, hb⟩ := Option.bind_eq_some_iff.mp hui
  have hlt := UI.counter_lt_of_unmarshalBinary hb
  -- the state the call loops in has `firstCV ≥ 1` too
  have h1' : 1 ≤ (if s.view < p.view then
      CommitmentCounter.enterView p.view ui.counter else s).firstCV := by
    split_ifs
    · exact hc
    · exact h1
  refine ⟨?_, h1', fun states => skippedCommitmentLoop_call h1' hc hlt⟩
  by_cases hold : p.view < s.view
  · rw [countCommitment_eq hui, if_pos hold]
    simp
  · rw [countCommitment_eq_countInView hui hold]
    exact countInView_ne_hang h1' hc hlt

/-- The primary's Prepare of view `1` with the UI of counter `3`. -/
def viewOnePrepare : Prepare := ⟨some ⟨0, 1, some ⟨0, 1, [], []⟩, UI.marshalBinary ⟨3, []⟩⟩⟩

/-- The counter after the primary's commitment to `viewOnePrepare` on a new counter: it has
entered view `1`, with `firstCV = 3` and the primary's entry for counter `3`. -/
def viewOneCounter : CommitmentCounter :=
  (CommitmentCounter.enterView 1 3).setEntry 3 (some {0})

theorem commitmentCounter_terminates_viewOne :
    Reachable (CounterCall 1) {} viewOneCounter ∧ viewOneCounter.view = 1 ∧
    viewOneCounter.firstCV = 3 ∧ 1 ≤ viewOneCounter.firstCV ∧
    ∀ (r : Nat) (p : Prepare) (ui : UI), parseMessageUI (.prepare p) = some ui → 1 ≤ ui.counter →
      countCommitment 1 viewOneCounter r p ≠ .hang ∧
      let s₁ := if viewOneCounter.view < p.view then
        CommitmentCounter.enterView p.view ui.counter else viewOneCounter
      1 ≤ s₁.firstCV ∧
      ∀ states : Nat → Option (Finset Nat),
        skippedCommitmentLoop states r s₁.firstCV loopFuel (decCounter ui.counter) =
          .ok (scanCommitted states r
            (List.range' s₁.firstCV (ui.counter - s₁.firstCV)).reverse) := by
  -- the primary's own call on a Prepare of view `1` moves the counter to view `1`
  have hcall : countCommitment 1 {} 0 viewOnePrepare = .ok (.ok false, viewOneCounter) := rfl
  have hreach : Reachable (CounterCall 1) {} viewOneCounter :=
    Reachable.tail Reachable.refl
      (CounterCall.call (show parseMessageUI (.prepare viewOnePrepare) = some ⟨3, []⟩ by decide)
        (by decide) hcall)
  exact ⟨hreach, rfl, rfl, commitmentCounter_terminates hreach⟩

end MinBFT.Core
