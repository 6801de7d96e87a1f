import MinBFT.Core.Commit
import MinBFT.System.Reach
import MinBFT.System.Threads

/-!
# Quorums of the commitment counter, in order

A run of `makeCommitmentCollector` over its counter: a sequence of calls `collect(replicaID,
prepare)`, each one atomic under the collector's lock, that all return. The calls obey what a
replica's UI capture and embedded-message processing give the collector: every Prepare has the
same view and primary and a UI counter of at least `1`; the primary's own calls come with
increasing counters; a call of another replica for a counter comes after the primary's own call
for it. Other replicas' calls come in any order, repeated, with counters going down.

A run records each call (`CallRecord`) with the counter's answer `(done, err)` and the
`lastDoneCV` the call found. A *fresh* quorum is a call answered done for a counter above that
`lastDoneCV`.

The counter deletes an entry when it reaches its quorum, answers done for any counter at or
below `lastDoneCV` without looking, creates entries before its error checks, and checks for a
skipped commitment only against the entries that still exist. In-order counting rests on the
invariant `CountInv`: the live entries are the primary's counters above `lastDoneCV`, each with
at most `f` committers; a later live entry's committers are among every earlier one's (a backup
only gets into an entry after it is in the nearest one below, and the entries below have more);
and the fresh quorums so far are exactly the primary's counters up to `lastDoneCV`.

## Results

* `countInv_old`, `countInv_error`, `countInv_primary`, `countInv_counted`: each branch of the
  counter keeps the invariant.
* `orderInv_step`, `orderInv_reachable`: so does every call, and the invariant holds along
  every run.
* `freshQuorum_in_order`: every fresh quorum of every run counted at least `f + 1` distinct
  replicas, the primary among them, each by a call up to it; and the fresh quorums' counters are
  a prefix of the primary's counters: quorums come in the primary's order and skip none.
-/

namespace MinBFT.Core

open MinBFT.Messages MinBFT.Usig MinBFT.System

/-! ## Runs -/

/-- A call of a run as it is recorded: the replica it counts, its Prepare's counter, the
counter's answer and the `lastDoneCV` the call found. -/
structure CallRecord where
  replicaID : Nat
  cv : Nat
  answer : Except String Bool
  lastDoneCV : Nat
  deriving DecidableEq, Repr

namespace CallRecord

/-- The call counted its replica: it went past the done shortcut and returned no error. -/
def Counted (rec : CallRecord) : Prop := rec.lastDoneCV < rec.cv ∧ ∃ d, rec.answer = .ok d

/-- The call reported a fresh quorum. -/
def Fresh (rec : CallRecord) : Prop := rec.answer = .ok true ∧ rec.lastDoneCV < rec.cv

instance (rec : CallRecord) : Decidable rec.Fresh := inferInstanceAs (Decidable (_ ∧ _))

end CallRecord

/-- The counters of the primary's own calls, in call order. -/
def primaryCounters (primaryID : Nat) (h : List CallRecord) : List Nat :=
  (h.filter fun rec => rec.replicaID = primaryID).map CallRecord.cv

/-- The counters of the fresh quorums, in call order. -/
def freshCounters (h : List CallRecord) : List Nat :=
  (h.filter fun rec => decide rec.Fresh).map CallRecord.cv

/-- A run of the collector: its state and its calls so far. -/
structure CommitRun (α : Type) where
  state : CommitState α
  history : List CallRecord

variable {α : Type}

/-- A run before its first call: a fresh counter, and any client states, pending requests and
timers. -/
def CommitRun.init (clients : Nat → ClientState) (pendingReq : Nat → Option Request)
    (timers : Timers α) : CommitRun α :=
  ⟨{ clients := clients, pendingReq := pendingReq, timers := timers }, []⟩

/-- One call of a run, `collect(r, p)`, that returns, in view `view` with primary `primaryID`:
the Prepare's UI decodes to a counter of at least `1`, the primary's own calls have increasing
counters, and another replica's call for a counter follows the primary's own call for it. -/
inductive CollectStep (f view primaryID : Nat) : CommitRun α → CommitRun α → Prop
  | call {run : CommitRun α} {r : Nat} {p : Prepare} {ui : UI} {ans : Except String Bool}
      {res : Except String Unit} {s' : CommitState α} {ex : Option Request} :
      p.view = view → p.replicaID = primaryID →
      parseMessageUI (.prepare p) = some ui → 1 ≤ ui.counter →
      (r = primaryID → ∀ c ∈ primaryCounters primaryID run.history, c < ui.counter) →
      (r ≠ primaryID → ui.counter ∈ primaryCounters primaryID run.history) →
      collectCommitment f run.state r p = .ok (res, s', ex) →
      countCommitment f run.state.counter r p = .ok (ans, s'.counter) →
      CollectStep f view primaryID run
        ⟨s', run.history ++ [⟨r, ui.counter, ans, run.state.counter.lastDoneCV⟩]⟩

/-- The run after one more call `collect(r, p)`, recorded as `CollectStep` records it, when the
call returns. It does not check the discipline. -/
def CommitRun.call (f : Nat) (run : CommitRun α) (r : Nat) (p : Prepare) : Option (CommitRun α) :=
  match parseMessageUI (.prepare p), countCommitment f run.state.counter r p,
      collectCommitment f run.state r p with
  | some ui, .ok (ans, _), .ok (_, s', _) =>
    some ⟨s', run.history ++ [⟨r, ui.counter, ans, run.state.counter.lastDoneCV⟩]⟩
  | _, _, _ => none

/-- A call that returns and keeps the discipline is a step of the run. -/
theorem collectStep_of_call {f view primaryID : Nat} {run run' : CommitRun α} {r : Nat}
    {p : Prepare} {ui : UI} (hview : p.view = view) (hprim : p.replicaID = primaryID)
    (hui : parseMessageUI (.prepare p) = some ui) (hc1 : 1 ≤ ui.counter)
    (ha : r = primaryID → ∀ c ∈ primaryCounters primaryID run.history, c < ui.counter)
    (hb : r ≠ primaryID → ui.counter ∈ primaryCounters primaryID run.history)
    (hcall : run.call f r p = some run') : CollectStep f view primaryID run run' := by
  unfold CommitRun.call at hcall
  rw [hui] at hcall
  cases hcount : countCommitment f run.state.counter r p with
  | ok a =>
    cases hcol : collectCommitment f run.state r p with
    | ok res =>
      obtain ⟨e, s', ex⟩ := res
      obtain ⟨ans, hcount', -⟩ := collectCommitment_cases hcol
      rw [hcount', hcol] at hcall
      cases hcall
      exact .call hview hprim hui hc1 ha hb hcol hcount'
    | panic _ => rw [hcount, hcol] at hcall; cases hcall
    | hang => rw [hcount, hcol] at hcall; cases hcall
  | panic _ => rw [hcount] at hcall; cases hcall
  | hang => rw [hcount] at hcall; cases hcall

/-! ## The recorded counters -/

section Records

variable {p : Nat} {h : List CallRecord} {rec : CallRecord}

theorem primaryCounters_append_of_eq (hr : rec.replicaID = p) :
    primaryCounters p (h ++ [rec]) = primaryCounters p h ++ [rec.cv] := by
  simp [primaryCounters, hr]

theorem primaryCounters_append_of_ne (hr : rec.replicaID ≠ p) :
    primaryCounters p (h ++ [rec]) = primaryCounters p h := by
  simp [primaryCounters, hr]

theorem freshCounters_append_of_fresh (hf : rec.Fresh) :
    freshCounters (h ++ [rec]) = freshCounters h ++ [rec.cv] := by
  simp [freshCounters, hf]

theorem freshCounters_append_of_not_fresh (hf : ¬ rec.Fresh) :
    freshCounters (h ++ [rec]) = freshCounters h := by
  simp [freshCounters, hf]

end Records

/-! ## Sorted counters -/

section Sorted

variable {l : List Nat} {L c : Nat}

/-- On an increasing list, the values up to a bound are a prefix. -/
theorem filter_le_prefix (hl : l.Pairwise (· < ·)) (L : Nat) :
    l.filter (fun x => decide (x ≤ L)) <+: l := by
  induction l with
  | nil => exact List.nil_prefix
  | cons x xs ih =>
    rw [List.pairwise_cons] at hl
    by_cases hx : x ≤ L
    · rw [List.filter_cons_of_pos (by simpa using hx)]
      exact List.prefix_cons_inj x |>.mpr (ih hl.2)
    · -- everything after `x` is larger, so nothing is kept
      have hnil : xs.filter (fun x => decide (x ≤ L)) = [] := by
        rw [List.filter_eq_nil_iff]
        intro y hy
        have := hl.1 y hy
        simp only [decide_eq_true_eq]
        omega
      rw [List.filter_cons_of_neg (by simpa using hx), hnil]
      exact List.nil_prefix

/-- On an increasing list that holds `c` and nothing strictly between `L` and `c`, the values up
to `c` are those up to `L` followed by `c`. -/
theorem filter_le_of_gap (hl : l.Pairwise (· < ·)) (hc : c ∈ l) (hLc : L < c)
    (hgap : ∀ x ∈ l, x ≤ L ∨ c ≤ x) :
    l.filter (fun x => decide (x ≤ c)) = l.filter (fun x => decide (x ≤ L)) ++ [c] := by
  induction l with
  | nil => cases hc
  | cons x xs ih =>
    rw [List.pairwise_cons] at hl
    rcases hgap x List.mem_cons_self with hx | hx
    · -- `x` is kept by both filters
      have hxc : x ≤ c := by omega
      have hc' : c ∈ xs := by
        rcases List.mem_cons.mp hc with rfl | h
        · omega
        · exact h
      rw [List.filter_cons_of_pos (by simpa using hxc), List.filter_cons_of_pos (by simpa using hx),
        ih hl.2 hc' fun y hy => hgap y (List.mem_cons_of_mem x hy), List.cons_append]
    · -- `x` is `c` itself: nothing after it is kept
      have hxc : x = c := by
        rcases List.mem_cons.mp hc with h | h
        · exact h.symm
        · have := hl.1 c h
          omega
      subst hxc
      have hxs : ∀ B, B ≤ x → xs.filter (fun y => decide (y ≤ B)) = [] := by
        intro B hB
        rw [List.filter_eq_nil_iff]
        intro y hy
        have := hl.1 y hy
        simp only [decide_eq_true_eq]
        omega
      rw [List.filter_cons_of_pos (by simp), List.filter_cons_of_neg (by simpa using hLc),
        hxs x le_rfl, hxs L (by omega)]
      rfl

end Sorted

/-! ## The invariant -/

/-- At least `f + 1` distinct replicas, the primary among them, were counted for `c` by calls
up to the `i`-th. -/
def QuorumAt (f primaryID : Nat) (h : List CallRecord) (i c : Nat) : Prop :=
  ∃ S : Finset Nat, f + 1 ≤ S.card ∧ primaryID ∈ S ∧
    ∀ r ∈ S, ∃ j ≤ i, ∃ rec, h[j]? = some rec ∧ rec.replicaID = r ∧ rec.cv = c ∧ rec.Counted

/-- What a live entry `S` of `c` holds: the primary called for `c` and no quorum covers it; it
has at most `f` committers, the primary first, each counted by a call. -/
structure LiveEntry (f primaryID : Nat) (h : List CallRecord) (lastDoneCV c : Nat)
    (S : Finset Nat) : Prop where
  mem : c ∈ primaryCounters primaryID h
  above : lastDoneCV < c
  primary_mem : primaryID ∈ S
  card_le : S.card ≤ f
  counted : ∀ r ∈ S, ∃ rec ∈ h, rec.replicaID = r ∧ rec.cv = c ∧ rec.Counted

/-- The counter's invariant along a run with history `h`. -/
structure CountInv (f primaryID : Nat) (s : CommitmentCounter) (h : List CallRecord) : Prop where
  firstCV_pos : 1 ≤ s.firstCV
  firstCV_le : ∀ c ∈ primaryCounters primaryID h, s.firstCV ≤ c
  sorted : (primaryCounters primaryID h).Pairwise (· < ·)
  lastDone_mem : s.lastDoneCV = 0 ∨ s.lastDoneCV ∈ primaryCounters primaryID h
  fresh_eq : freshCounters h = (primaryCounters primaryID h).filter fun c => decide (c ≤ s.lastDoneCV)
  live : ∀ c S, s.prepareStates c = some S → LiveEntry f primaryID h s.lastDoneCV c S
  chain : ∀ a b A B, s.prepareStates a = some A → s.prepareStates b = some B → a < b → B ⊆ A
  pending : ∀ c ∈ primaryCounters primaryID h, s.lastDoneCV < c → ∃ S, s.prepareStates c = some S
  quorum : ∀ i rec, h[i]? = some rec → rec.Fresh → QuorumAt f primaryID h i rec.cv

/-- The invariant of a whole run: before the primary's first call the counter is fresh, after it
the counter is in the run's view. -/
structure OrderInv (f view primaryID : Nat) (s : CommitmentCounter) (h : List CallRecord) :
    Prop extends CountInv f primaryID s h where
  start : primaryCounters primaryID h = [] → s = {}
  view_eq : primaryCounters primaryID h ≠ [] → s.view = view

section Append

variable {f p : Nat} {h : List CallRecord} {x : CallRecord}

/-- A call of `h ++ [x]` is one of `h` or the new one. -/
theorem getElem?_append_singleton {i : Nat} {rec : CallRecord} (hi : (h ++ [x])[i]? = some rec) :
    (i < h.length ∧ h[i]? = some rec) ∨ (i = h.length ∧ rec = x) := by
  rcases Nat.lt_or_ge i h.length with hlt | hge
  · exact .inl ⟨hlt, by rwa [List.getElem?_append_left hlt] at hi⟩
  · rw [List.getElem?_append_right hge] at hi
    have hi0 : i - h.length = 0 := by
      by_contra hne
      rw [List.getElem?_eq_none (by simp; omega)] at hi
      cases hi
    rw [hi0] at hi
    exact .inr ⟨by omega, by simpa using hi.symm⟩

theorem mem_primaryCounters_append {c : Nat} (hc : c ∈ primaryCounters p h) :
    c ∈ primaryCounters p (h ++ [x]) := by
  unfold primaryCounters at *
  rw [List.filter_append, List.map_append]
  exact List.mem_append_left _ hc

theorem quorumAt_append {i c : Nat} (hq : QuorumAt f p h i c) : QuorumAt f p (h ++ [x]) i c := by
  obtain ⟨S, hcard, hp, hS⟩ := hq
  refine ⟨S, hcard, hp, fun r hr => ?_⟩
  obtain ⟨j, hj, rec, hrec, hrest⟩ := hS r hr
  have hjlt : j < h.length := (List.getElem?_eq_some_iff.mp hrec).1
  exact ⟨j, hj, rec, by rw [List.getElem?_append_left hjlt, hrec], hrest⟩

/-- The quorums recorded so far stay recorded when a call comes; the new call, if it is a fresh
quorum, brings its own. -/
theorem quorum_append
    (hq : ∀ i rec, h[i]? = some rec → rec.Fresh → QuorumAt f p h i rec.cv)
    (hx : x.Fresh → QuorumAt f p (h ++ [x]) h.length x.cv) :
    ∀ i rec, (h ++ [x])[i]? = some rec → rec.Fresh → QuorumAt f p (h ++ [x]) i rec.cv := by
  intro i rec hi hf
  rcases getElem?_append_singleton hi with ⟨-, hi⟩ | ⟨rfl, rfl⟩
  · exact quorumAt_append (hq i rec hi hf)
  · exact hx hf

theorem liveEntry_append {L c : Nat} {S : Finset Nat} (hl : LiveEntry f p h L c S) :
    LiveEntry f p (h ++ [x]) L c S where
  mem := mem_primaryCounters_append hl.mem
  above := hl.above
  primary_mem := hl.primary_mem
  card_le := hl.card_le
  counted r hr := by
    obtain ⟨rec, hmem, hrest⟩ := hl.counted r hr
    exact ⟨rec, List.mem_append_left _ hmem, hrest⟩

theorem getElem?_length_append : (h ++ [x])[h.length]? = some x := by
  simp

/-- A call recorded in `h` stands at an index of `h ++ [x]` before the new call's. -/
theorem exists_index_of_mem {rec : CallRecord} (hmem : rec ∈ h) :
    ∃ j ≤ h.length, (h ++ [x])[j]? = some rec := by
  obtain ⟨j, hj⟩ := List.mem_iff_getElem?.mp hmem
  have hjlt : j < h.length := (List.getElem?_eq_some_iff.mp hj).1
  exact ⟨j, by omega, by rw [List.getElem?_append_left hjlt, hj]⟩

end Append

/-! ## Each branch of the counter keeps the invariant -/

section Branches

variable {f p : Nat} {s s' : CommitmentCounter} {h : List CallRecord} {r c : Nat}
  {ans : Except String Bool}

/-- A call of another replica that is no fresh quorum and leaves the counter as it was. -/
theorem countInv_append_of_ne {x : CallRecord} (hinv : CountInv f p s h) (hr : x.replicaID ≠ p)
    (hx : ¬ x.Fresh) : CountInv f p s (h ++ [x]) := by
  have hP := primaryCounters_append_of_ne (h := h) hr
  exact
    { firstCV_pos := hinv.firstCV_pos
      firstCV_le := by rw [hP]; exact hinv.firstCV_le
      sorted := by rw [hP]; exact hinv.sorted
      lastDone_mem := by rw [hP]; exact hinv.lastDone_mem
      fresh_eq := by rw [hP, freshCounters_append_of_not_fresh hx]; exact hinv.fresh_eq
      live := fun a A hA => liveEntry_append (hinv.live a A hA)
      chain := hinv.chain
      pending := by rw [hP]; exact hinv.pending
      quorum := quorum_append hinv.quorum fun hf => absurd hf hx }

/-- A counter at or below `lastDoneCV` is done at once and changes nothing. -/
theorem countInv_old (hinv : CountInv f p s h) (hr : r ≠ p) (hc : c ≤ s.lastDoneCV) :
    CountInv f p s (h ++ [⟨r, c, .ok true, s.lastDoneCV⟩]) :=
  countInv_append_of_ne hinv hr fun hf => by
    have := hf.2
    dsimp only at this
    omega

/-- An error of the skipped-commitment loop or the duplicate check leaves the entry there was. -/
theorem countInv_error (hinv : CountInv f p s h) (hr : r ≠ p)
    (hc : c ∈ primaryCounters p h) (hL : s.lastDoneCV < c) {e : String} :
    CountInv f p (s.setEntry c (some (s.committers p c)))
      (h ++ [⟨r, c, .error e, s.lastDoneCV⟩]) := by
  obtain ⟨S, hS⟩ := hinv.pending c hc hL
  have hcomm : s.committers p c = S := by simp [CommitmentCounter.committers, hS]
  rw [hcomm, CommitmentCounter.setEntry_of_eq hS]
  exact countInv_append_of_ne hinv hr fun hf => by cases hf.1

/-- The primary's call for a counter above all its earlier ones finds no entry there. -/
theorem prepareStates_eq_none_of_gt (hinv : CountInv f p s h)
    (hgt : ∀ x ∈ primaryCounters p h, x < c) : s.prepareStates c = none := by
  cases hS : s.prepareStates c with
  | none => rfl
  | some S => exact absurd (hgt c (hinv.live c S hS).mem) (Nat.lt_irrefl c)

/-- ... and a counter above the last quorum's. -/
theorem lastDoneCV_lt_of_gt (hinv : CountInv f p s h) (hc1 : 1 ≤ c)
    (hgt : ∀ x ∈ primaryCounters p h, x < c) : s.lastDoneCV < c := by
  rcases hinv.lastDone_mem with h0 | hmem
  · omega
  · exact hgt _ hmem

/-- The primary's counters stay increasing and above `firstCV` with its new call. -/
theorem primaryCounters_append_sorted (hinv : CountInv f p s h)
    (hgt : ∀ x ∈ primaryCounters p h, x < c) :
    (primaryCounters p h ++ [c]).Pairwise (· < ·) := by
  rw [List.pairwise_append]
  exact ⟨hinv.sorted, List.pairwise_singleton _ _,
    fun a ha b hb => List.mem_singleton.mp hb ▸ hgt a ha⟩

/-- The primary's call, with `f ≥ 1`: a new entry with the primary alone. -/
theorem countInv_primary_open (hinv : CountInv f p s h) (hf : 1 ≤ f) (hc1 : 1 ≤ c)
    (hgt : ∀ x ∈ primaryCounters p h, x < c) (hfirst : s.firstCV ≤ c) :
    CountInv f p (s.setEntry c (some {p})) (h ++ [⟨p, c, .ok false, s.lastDoneCV⟩]) := by
  have hL := lastDoneCV_lt_of_gt hinv hc1 hgt
  have hP : primaryCounters p (h ++ [⟨p, c, .ok false, s.lastDoneCV⟩]) =
      primaryCounters p h ++ [c] := primaryCounters_append_of_eq rfl
  have hnf : ¬ (⟨p, c, .ok false, s.lastDoneCV⟩ : CallRecord).Fresh := fun hf => by cases hf.1
  -- the entries other than `c` are those of `s`
  have hne : ∀ a, a ≠ c → (s.setEntry c (some {p})).prepareStates a = s.prepareStates a :=
    fun a ha => s.setEntry_prepareStates_of_ne ha _
  refine
    { firstCV_pos := hinv.firstCV_pos
      firstCV_le := by
        rw [hP]
        exact System.forall_mem_append_singleton hinv.firstCV_le hfirst
      sorted := by rw [hP]; exact primaryCounters_append_sorted hinv hgt
      lastDone_mem := by
        rw [hP]
        exact hinv.lastDone_mem.imp_right (List.mem_append_left _)
      fresh_eq := by
        have hc : [c].filter (fun x => decide (x ≤ s.lastDoneCV)) = [] := by
          simp [Nat.not_le.mpr hL]
        rw [hP, freshCounters_append_of_not_fresh hnf, List.filter_append, hinv.fresh_eq,
          CommitmentCounter.setEntry_lastDoneCV, hc, List.append_nil]
      live := ?_
      chain := ?_
      pending := ?_
      quorum := quorum_append hinv.quorum fun hf => absurd hf hnf }
  · intro a A hA
    rcases CommitmentCounter.setEntry_prepareStates_eq_some hA with ⟨rfl, hnew⟩ | ⟨-, hA⟩
    · -- the new entry
      cases hnew
      exact
        { mem := by rw [hP]; exact List.mem_append_right _ (List.mem_singleton_self a)
          above := hL
          primary_mem := Finset.mem_singleton_self p
          card_le := by rw [Finset.card_singleton]; exact hf
          counted := fun r hr => ⟨_, List.mem_append_right _ (List.mem_singleton_self _),
            (Finset.mem_singleton.mp hr).symm, rfl, hL, _, rfl⟩ }
    · exact liveEntry_append (hinv.live a A hA)
  · intro a b A B hA hB hab
    rcases CommitmentCounter.setEntry_prepareStates_eq_some hB with ⟨rfl, hnew⟩ | ⟨-, hB⟩
    · -- the new entry is below nothing and holds only the primary
      rw [hne a (by omega)] at hA
      cases hnew
      exact Finset.singleton_subset_iff.mpr (hinv.live a A hA).primary_mem
    · have hbc' := hgt b (hinv.live b B hB).mem
      rw [hne a (by omega)] at hA
      exact hinv.chain a b A B hA hB hab
  · intro x hx hLx
    rw [hP] at hx
    rcases List.mem_append.mp hx with hx | hx
    · have hxc := hgt x hx
      rw [hne x (by omega)]
      exact hinv.pending x hx hLx
    · rw [List.mem_singleton.mp hx]
      exact ⟨{p}, CommitmentCounter.setEntry_prepareStates_self _ _ _⟩

/-- The primary's call, with `f = 0`: a quorum at once. Every entry below was done before, since
a live entry would have the primary and at most `0` committers. -/
theorem countInv_primary_done (hinv : CountInv f p s h) (hf : f = 0) (hc1 : 1 ≤ c)
    (hgt : ∀ x ∈ primaryCounters p h, x < c) (hfirst : s.firstCV ≤ c) :
    CountInv f p { s.setEntry c none with lastDoneCV := c }
      (h ++ [⟨p, c, .ok true, s.lastDoneCV⟩]) := by
  have hL := lastDoneCV_lt_of_gt hinv hc1 hgt
  have hP : primaryCounters p (h ++ [⟨p, c, .ok true, s.lastDoneCV⟩]) =
      primaryCounters p h ++ [c] := primaryCounters_append_of_eq rfl
  have hfr : (⟨p, c, .ok true, s.lastDoneCV⟩ : CallRecord).Fresh := ⟨rfl, hL⟩
  have hempty : ∀ a A, s.prepareStates a = some A → False := fun a A hA => by
    have hle := (hinv.live a A hA).card_le
    have hpos := Finset.card_pos.mpr ⟨p, (hinv.live a A hA).primary_mem⟩
    omega
  have hallL : ∀ x ∈ primaryCounters p h, x ≤ s.lastDoneCV := fun x hx => by
    by_contra hlt
    obtain ⟨A, hA⟩ := hinv.pending x hx (by omega)
    exact hempty x A hA
  have hnone : ∀ a, ({ s.setEntry c none with lastDoneCV := c } : CommitmentCounter).prepareStates a
      = none := fun a => by
    by_cases hac : a = c
    · subst hac
      exact CommitmentCounter.setEntry_prepareStates_self _ _ _
    · show (s.setEntry c none).prepareStates a = none
      rw [CommitmentCounter.setEntry_prepareStates_of_ne s hac]
      cases hA : s.prepareStates a with
      | none => rfl
      | some A => exact (hempty a A hA).elim
  refine
    { firstCV_pos := hinv.firstCV_pos
      firstCV_le := by
        rw [hP]
        exact System.forall_mem_append_singleton hinv.firstCV_le hfirst
      sorted := by rw [hP]; exact primaryCounters_append_sorted hinv hgt
      lastDone_mem := by
        rw [hP]
        exact .inr (List.mem_append_right _ (List.mem_singleton_self c))
      fresh_eq := ?_
      live := fun a A hA => by rw [hnone a] at hA; cases hA
      chain := fun a b A B hA => by rw [hnone a] at hA; cases hA
      pending := ?_
      quorum := quorum_append hinv.quorum fun _ => ?_ }
  · -- every earlier counter of the primary is done: the fresh quorums are all of them
    rw [hP, freshCounters_append_of_fresh hfr, hinv.fresh_eq, List.filter_append,
      List.filter_eq_self.mpr (fun x hx => by simpa using hallL x hx),
      List.filter_eq_self.mpr (fun x hx => by simpa using Nat.le_of_lt (hgt x hx))]
    simp
  · intro x hx hcx
    rw [hP] at hx
    rcases List.mem_append.mp hx with hx | hx
    · have := hgt x hx
      simp only at hcx
      omega
    · simp only [List.mem_singleton] at hx
      simp only at hcx
      omega
  · -- the primary alone is a quorum of `f + 1 = 1`
    refine ⟨{p}, by simp [hf], Finset.mem_singleton_self p, fun r hr => ?_⟩
    exact ⟨h.length, le_rfl, _, getElem?_length_append, (Finset.mem_singleton.mp hr).symm, rfl,
      hL, _, rfl⟩

/-- A backup that the skipped-commitment loop lets through for `c` is among the committers of
every live entry below `c`; with the entries' chain, the entry of `c` with it added is among
them too. -/
theorem insert_subset_below {S : Finset Nat} (hinv : CountInv f p s h) (hc1 : 1 ≤ c)
    (hS : s.prepareStates c = some S)
    (hloop : skippedCommitmentLoop s.prepareStates r s.firstCV loopFuel (decCounter c) =
      .ok (.ok ())) :
    ∀ a A, s.prepareStates a = some A → a < c → insert r S ⊆ A := by
  intro a A hA hac
  have hfirst := hinv.firstCV_le a (hinv.live a A hA).mem
  have hr : r ∈ A :=
    skippedCommitmentLoop_mem hinv.firstCV_pos hinv.chain loopFuel (decCounter c) hloop a A
      hfirst (by rw [decCounter_of_pos (by omega)]; omega) hA
  exact Finset.insert_subset_iff.mpr ⟨hr, hinv.chain a c A S hA hS hac⟩

/-- A backup counted for `c`, with no quorum yet. -/
theorem countInv_counted_open {S : Finset Nat} (hinv : CountInv f p s h) (hr : r ≠ p)
    (hL : s.lastDoneCV < c) (hS : s.prepareStates c = some S)
    (hbelow : ∀ a A, s.prepareStates a = some A → a < c → insert r S ⊆ A)
    (hcard : (insert r S).card ≤ f) :
    CountInv f p (s.setEntry c (some (insert r S))) (h ++ [⟨r, c, .ok false, s.lastDoneCV⟩]) := by
  have hP : primaryCounters p (h ++ [⟨r, c, .ok false, s.lastDoneCV⟩]) = primaryCounters p h :=
    primaryCounters_append_of_ne hr
  have hnf : ¬ (⟨r, c, .ok false, s.lastDoneCV⟩ : CallRecord).Fresh := fun hf => by cases hf.1
  have hne : ∀ a, a ≠ c → (s.setEntry c (some (insert r S))).prepareStates a = s.prepareStates a :=
    fun a ha => s.setEntry_prepareStates_of_ne ha _
  have hold := hinv.live c S hS
  refine
    { firstCV_pos := hinv.firstCV_pos
      firstCV_le := by rw [hP]; exact hinv.firstCV_le
      sorted := by rw [hP]; exact hinv.sorted
      lastDone_mem := by rw [hP]; exact hinv.lastDone_mem
      fresh_eq := by rw [hP, freshCounters_append_of_not_fresh hnf]; exact hinv.fresh_eq
      live := ?_
      chain := ?_
      pending := ?_
      quorum := quorum_append hinv.quorum fun hf => absurd hf hnf }
  · intro a A hA
    rcases CommitmentCounter.setEntry_prepareStates_eq_some hA with ⟨rfl, hnew⟩ | ⟨-, hA⟩
    · -- the entry of `c`, now with `r`
      cases hnew
      refine
        { mem := by rw [hP]; exact hold.mem
          above := hL
          primary_mem := Finset.mem_insert_of_mem hold.primary_mem
          card_le := hcard
          counted := fun r' hr' => ?_ }
      rcases Finset.mem_insert.mp hr' with rfl | hr'
      · exact ⟨_, List.mem_append_right _ (List.mem_singleton_self _), rfl, rfl, hL, _, rfl⟩
      · obtain ⟨rec, hmem, hrest⟩ := hold.counted r' hr'
        exact ⟨rec, List.mem_append_left _ hmem, hrest⟩
    · exact liveEntry_append (hinv.live a A hA)
  · intro a b A B hA hB hab
    rcases CommitmentCounter.setEntry_prepareStates_eq_some hB with ⟨rfl, hnew⟩ | ⟨-, hB₀⟩
    · rw [hne a (by omega)] at hA
      cases hnew
      exact hbelow a A hA hab
    · rcases CommitmentCounter.setEntry_prepareStates_eq_some hA with ⟨rfl, hnew⟩ | ⟨-, hA₀⟩
      · -- an entry above `c` had its committers among `S` already
        cases hnew
        exact (hinv.chain a b S B hS hB₀ hab).trans (Finset.subset_insert r S)
      · exact hinv.chain a b A B hA₀ hB₀ hab
  · intro x hx hLx
    rw [hP] at hx
    by_cases hxc : x = c
    · subst hxc
      exact ⟨_, CommitmentCounter.setEntry_prepareStates_self _ _ _⟩
    · rw [hne x hxc]
      exact hinv.pending x hx hLx

/-- A backup counted for `c` completes its quorum. No entry below `c` is live, since it would
hold the `f + 1` committers of `c`; so the primary's counters between the last quorum and `c`
were all done, and `c` is the next of them. -/
theorem countInv_counted_done {S : Finset Nat} (hinv : CountInv f p s h) (hr : r ≠ p)
    (hcP : c ∈ primaryCounters p h) (hL : s.lastDoneCV < c) (hS : s.prepareStates c = some S)
    (hbelow : ∀ a A, s.prepareStates a = some A → a < c → insert r S ⊆ A)
    (hcard : f < (insert r S).card) :
    CountInv f p { s.setEntry c none with lastDoneCV := c }
      (h ++ [⟨r, c, .ok true, s.lastDoneCV⟩]) := by
  have hP : primaryCounters p (h ++ [⟨r, c, .ok true, s.lastDoneCV⟩]) = primaryCounters p h :=
    primaryCounters_append_of_ne hr
  have hfr : (⟨r, c, .ok true, s.lastDoneCV⟩ : CallRecord).Fresh := ⟨rfl, hL⟩
  have hold := hinv.live c S hS
  have hnobelow : ∀ a A, s.prepareStates a = some A → a < c → False := fun a A hA hac => by
    have hle := Finset.card_le_card (hbelow a A hA hac)
    have := (hinv.live a A hA).card_le
    omega
  have hgap : ∀ x ∈ primaryCounters p h, x ≤ s.lastDoneCV ∨ c ≤ x := fun x hx => by
    by_contra hx'
    obtain ⟨A, hA⟩ := hinv.pending x hx (by omega)
    exact hnobelow x A hA (by omega)
  have hne : ∀ a, a ≠ c → (s.setEntry c none).prepareStates a = s.prepareStates a :=
    fun a ha => s.setEntry_prepareStates_of_ne ha _
  refine
    { firstCV_pos := hinv.firstCV_pos
      firstCV_le := by rw [hP]; exact hinv.firstCV_le
      sorted := by rw [hP]; exact hinv.sorted
      lastDone_mem := by rw [hP]; exact .inr hcP
      fresh_eq := by
        rw [hP, freshCounters_append_of_fresh hfr, hinv.fresh_eq]
        exact (filter_le_of_gap hinv.sorted hcP hL hgap).symm
      live := ?_
      chain := ?_
      pending := ?_
      quorum := quorum_append hinv.quorum fun _ => ?_ }
  · intro a A hA
    have hac : a ≠ c := by
      rintro rfl
      rw [show ({ s.setEntry a none with lastDoneCV := a } : CommitmentCounter).prepareStates a =
        none from CommitmentCounter.setEntry_prepareStates_self _ _ _] at hA
      cases hA
    have hA' : s.prepareStates a = some A := (hne a hac).symm.trans hA
    have hca : c < a := by
      rcases Nat.lt_or_gt_of_ne hac with hlt | hgt
      · exact (hnobelow a A hA' hlt).elim
      · exact hgt
    exact { liveEntry_append (hinv.live a A hA') with above := hca }
  · intro a b A B hA hB hab
    have hself : (s.setEntry c none).prepareStates c = none :=
      CommitmentCounter.setEntry_prepareStates_self _ _ _
    have hac : a ≠ c := by rintro rfl; rw [hself] at hA; cases hA
    have hbc : b ≠ c := by rintro rfl; rw [hself] at hB; cases hB
    exact hinv.chain a b A B ((hne a hac).symm.trans hA) ((hne b hbc).symm.trans hB) hab
  · intro x hx hcx
    rw [hP] at hx
    have hxc : x ≠ c := by
      simp only at hcx
      omega
    rw [show ({ s.setEntry c none with lastDoneCV := c } : CommitmentCounter).prepareStates x =
      s.prepareStates x from hne x hxc]
    exact hinv.pending x hx (by simp only at hcx; omega)
  · -- the quorum: the committers of `c` with `r`
    refine ⟨insert r S, by omega, Finset.mem_insert_of_mem hold.primary_mem, fun r' hr' => ?_⟩
    rcases Finset.mem_insert.mp hr' with rfl | hr'
    · exact ⟨h.length, le_rfl, _, getElem?_length_append, rfl, rfl, hL, _, rfl⟩
    · obtain ⟨rec, hmem, hid, hcv, hcnt⟩ := hold.counted r' hr'
      obtain ⟨j, hj, hjget⟩ := exists_index_of_mem (x := ⟨r, c, .ok true, s.lastDoneCV⟩) hmem
      exact ⟨j, hj, rec, hjget, hid, hcv, hcnt⟩

/-- A call of the counter in its view keeps the invariant, under the run's discipline: the
primary's call is above its earlier ones and `firstCV`, another replica's call follows the
primary's. -/
theorem countInv_call (hinv : CountInv f p s h) (hc1 : 1 ≤ c)
    (ha : r = p → (∀ x ∈ primaryCounters p h, x < c) ∧ s.firstCV ≤ c)
    (hb : r ≠ p → c ∈ primaryCounters p h)
    (hcall : s.countInView f p r c = .ok (ans, s')) :
    CountInv f p s' (h ++ [⟨r, c, ans, s.lastDoneCV⟩]) ∧ s'.view = s.view := by
  rcases CommitmentCounter.countInView_cases hcall with
    ⟨hc, rfl, rfl⟩ | ⟨hL, hr, ⟨e, rfl⟩, rfl⟩ | ⟨hL, hrp, hq⟩ | ⟨hL, hr, hloop, hrS, hq⟩
  · -- an old counter: only another replica's call can be at or below the last quorum
    by_cases hr : r = p
    · have := lastDoneCV_lt_of_gt hinv hc1 (ha hr).1
      omega
    · exact ⟨countInv_old hinv hr hc, rfl⟩
  · exact ⟨countInv_error hinv hr (hb hr) hL, rfl⟩
  · -- the primary: a new entry of the primary alone
    subst hrp
    obtain ⟨hgt, hfirst⟩ := ha rfl
    have hcomm : s.committers r c = {r} := by
      simp [CommitmentCounter.committers, prepareStates_eq_none_of_gt hinv hgt]
    rw [hcomm] at hq
    rcases CommitmentCounter.checkQuorum_cases hq with ⟨hcard, rfl, rfl⟩ | ⟨hcard, rfl, rfl⟩
    · exact ⟨countInv_primary_open hinv (by simpa using hcard) hc1 hgt hfirst, rfl⟩
    · rw [CommitmentCounter.setEntry_setEntry]
      exact ⟨countInv_primary_done hinv (by simpa using hcard) hc1 hgt hfirst, rfl⟩
  · -- another replica past the loop: its entry exists, since the primary called for `c`
    obtain ⟨S, hS⟩ := hinv.pending c (hb hr) hL
    have hcomm : s.committers p c = S := by simp [CommitmentCounter.committers, hS]
    rw [hcomm, CommitmentCounter.setEntry_of_eq hS] at hloop
    rw [hcomm] at hq
    have hbelow := insert_subset_below hinv hc1 hS hloop
    rcases CommitmentCounter.checkQuorum_cases hq with ⟨hcard, rfl, rfl⟩ | ⟨hcard, rfl, rfl⟩
    · exact ⟨countInv_counted_open hinv hr hL hS hbelow hcard, rfl⟩
    · rw [CommitmentCounter.setEntry_setEntry]
      exact ⟨countInv_counted_done hinv hr (hb hr) hL hS hbelow hcard, rfl⟩

/-- Entering the run's view before the primary's first call. -/
theorem countInv_enterView (hinv : CountInv f p s h) (hP : primaryCounters p h = [])
    (hc1 : 1 ≤ c) (view : Nat) : CountInv f p (CommitmentCounter.enterView view c) h where
  firstCV_pos := hc1
  firstCV_le := by rw [hP]; intro x hx; cases hx
  sorted := by rw [hP]; exact List.Pairwise.nil
  lastDone_mem := .inl rfl
  fresh_eq := by rw [hinv.fresh_eq, hP]; rfl
  live := fun a A hA => by cases hA
  chain := fun a b A B hA => by cases hA
  pending := by rw [hP]; intro x hx; cases hx
  quorum := hinv.quorum

end Branches

/-! ## Every run -/

section Run

variable {f view p : Nat}

theorem orderInv_init : OrderInv f view p {} [] where
  firstCV_pos := Nat.le_refl 1
  firstCV_le := fun x hx => by cases hx
  sorted := List.Pairwise.nil
  lastDone_mem := .inl rfl
  fresh_eq := rfl
  live := fun a A hA => by cases hA
  chain := fun a b A B hA => by cases hA
  pending := fun x hx => by cases hx
  quorum := fun i rec hi => by cases hi
  start := fun _ => rfl
  view_eq := fun hP => absurd rfl hP

/-- Every call of a run keeps the invariant. -/
theorem orderInv_step {run run' : CommitRun α}
    (hinv : OrderInv f view p run.state.counter run.history)
    (hstep : CollectStep f view p run run') :
    OrderInv f view p run'.state.counter run'.history := by
  cases hstep with
  | @call r prep ui ans res s' ex hview hprim hui hc1 ha hb _ hcount =>
    rw [countCommitment_eq hui, hview, hprim] at hcount
    by_cases hP : primaryCounters p run.history = []
    · -- the primary's first call, on a fresh counter, which enters the view if it is not `0`
      have hr : r = p := by
        by_contra hr
        have := hb hr
        rw [hP] at this
        cases this
      have hs := hinv.start hP
      have hinv0 : CountInv f p {} run.history := hs ▸ hinv.toCountInv
      rw [hs] at hcount ⊢
      have hP' : primaryCounters p (run.history ++ [⟨r, ui.counter, ans, 0⟩]) ≠ [] := by
        rw [primaryCounters_append_of_eq hr]
        simp
      have hnil : ∀ x ∈ primaryCounters p run.history, x < ui.counter := by
        rw [hP]
        intro x hx
        cases hx
      rw [if_neg (Nat.not_lt_zero _)] at hcount
      by_cases hv0 : 0 < view
      · rw [if_pos hv0] at hcount
        obtain ⟨hci, hv⟩ := countInv_call (countInv_enterView hinv0 hP hc1 view) hc1
          (fun _ => ⟨hnil, Nat.le_refl _⟩) (fun h' => absurd hr h') hcount
        exact { toCountInv := hci, start := fun h' => absurd h' hP', view_eq := fun _ => hv }
      · rw [if_neg hv0] at hcount
        obtain ⟨hci, hv⟩ := countInv_call hinv0 hc1 (fun _ => ⟨hnil, hc1⟩)
          (fun h' => absurd hr h') hcount
        exact { toCountInv := hci, start := fun h' => absurd h' hP',
                view_eq := fun _ => hv.trans (show 0 = view by omega) }
    · -- a later call, in the view the counter is in
      have hsv := hinv.view_eq hP
      rw [if_neg (by omega), if_neg (by omega)] at hcount
      obtain ⟨x, hx⟩ := List.exists_mem_of_ne_nil _ hP
      have hfirst := hinv.firstCV_le x hx
      obtain ⟨hci, hv⟩ := countInv_call hinv.toCountInv hc1
        (fun hr => ⟨ha hr, by have := ha hr x hx; omega⟩) hb hcount
      have hP' : primaryCounters p (run.history ++ [⟨r, ui.counter, ans,
          run.state.counter.lastDoneCV⟩]) ≠ [] :=
        List.ne_nil_of_mem (mem_primaryCounters_append hx)
      exact { toCountInv := hci, start := fun h' => absurd h' hP',
              view_eq := fun _ => hv.trans hsv }

/-- The invariant holds along every run. -/
theorem orderInv_reachable {clients : Nat → ClientState} {pendingReq : Nat → Option Request}
    {timers : Timers α} {run : CommitRun α}
    (hrun : Reachable (CollectStep f view p) (CommitRun.init clients pendingReq timers) run) :
    OrderInv f view p run.state.counter run.history :=
  Inductive.reachable (P := fun run => OrderInv f view p run.state.counter run.history)
    ⟨orderInv_init, fun _ _ hinv hstep => orderInv_step hinv hstep⟩ hrun

/-- Whenever a call of a run reports a fresh quorum for its counter `c`, at least `f + 1` distinct
replicas, the primary among them, were counted for `c` by calls up to that one; and the counters
of the fresh quorums are a prefix of the primary's own counters: the quorums come in the order of
the primary's calls, and none is skipped. -/
theorem freshQuorum_in_order {clients : Nat → ClientState} {pendingReq : Nat → Option Request}
    {timers : Timers α} {run : CommitRun α}
    (hrun : Reachable (CollectStep f view p) (CommitRun.init clients pendingReq timers) run) :
    (∀ (i : Nat) (rec : CallRecord), run.history[i]? = some rec → rec.answer = .ok true →
      rec.lastDoneCV < rec.cv →
      ∃ S : Finset Nat, f + 1 ≤ S.card ∧ p ∈ S ∧
        ∀ r ∈ S, ∃ j ≤ i, ∃ rec' : CallRecord, run.history[j]? = some rec' ∧ rec'.replicaID = r ∧
          rec'.cv = rec.cv ∧ rec'.lastDoneCV < rec'.cv ∧ ∃ d, rec'.answer = .ok d) ∧
    freshCounters run.history <+: primaryCounters p run.history := by
  have hinv := orderInv_reachable hrun
  refine ⟨fun i rec hi hdone hfresh => hinv.quorum i rec hi ⟨hdone, hfresh⟩, ?_⟩
  rw [hinv.fresh_eq]
  exact filter_le_prefix hinv.sorted _

end Run

/-- The primary's Prepare with UI counter `1`, for request `1` of client `5`. -/
def firstPrepare : Prepare :=
  ⟨some { replicaId := 0, view := 0, ui := UI.marshalBinary ⟨1, []⟩,
          request := some { clientId := 5, seq := 1, operation := [], signature := [] } }⟩

/-- Client `5` has prepared its request `1`. -/
def preparedClients : Nat → ClientState :=
  fun _ => { seq := { lastCapturedSeq := 1, lastReleasedSeq := 1, lastPreparedSeq := 1 } }

/-- With `f = 1`: the primary's call for counter `1`, then replica `1`'s, a fresh quorum. -/
def quorumRun : CommitRun Unit :=
  let run0 : CommitRun Unit := CommitRun.init preparedClients (fun _ => none) {}
  let run1 := (run0.call 1 0 firstPrepare).getD run0
  (run1.call 1 1 firstPrepare).getD run1

theorem quorumRun_reachable :
    Reachable (CollectStep 1 0 0) (CommitRun.init preparedClients (fun _ => none) {}) quorumRun := by
  let run0 : CommitRun Unit := CommitRun.init preparedClients (fun _ => none) {}
  let run1 := (run0.call 1 0 firstPrepare).getD run0
  have hui : parseMessageUI (.prepare firstPrepare) = some ⟨1, []⟩ := by decide
  have h1 : CollectStep 1 0 0 run0 run1 :=
    collectStep_of_call (r := 0) rfl rfl hui (Nat.le_refl 1) (fun _ c hc => by cases hc)
      (fun h => absurd rfl h) rfl
  have h2 : CollectStep 1 0 0 run1 quorumRun :=
    collectStep_of_call (r := 1) rfl rfl hui (Nat.le_refl 1) (fun h => by cases h)
      (fun _ => by decide) rfl
  exact .tail (.tail .refl h1) h2

theorem freshQuorum_in_order_quorumRun :
    (∀ (i : Nat) (rec : CallRecord), quorumRun.history[i]? = some rec →
      rec.answer = .ok true → rec.lastDoneCV < rec.cv →
      ∃ S : Finset Nat, 1 + 1 ≤ S.card ∧ 0 ∈ S ∧
        ∀ r ∈ S, ∃ j ≤ i, ∃ rec' : CallRecord, quorumRun.history[j]? = some rec' ∧
          rec'.replicaID = r ∧
          rec'.cv = rec.cv ∧ rec'.lastDoneCV < rec'.cv ∧ ∃ d, rec'.answer = .ok d) ∧
    freshCounters quorumRun.history <+: primaryCounters 0 quorumRun.history :=
  freshQuorum_in_order quorumRun_reachable

end MinBFT.Core
