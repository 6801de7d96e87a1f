import MinBFT.Core.Commit
import MinBFT.System.SeqFilter

/-!
# The collector over the primary's order

What `makeCommitmentCollector` and `makeCommitmentCounter` (`core/commit.go`) do to a replica's
counter and request sequences, measured against the primary's order: the list `ps` whose entry
`t - 1` is what the primary's UI counter `t` carries, the key of the Request of a Prepare of
view `0`, or nothing. A counter `t` is *new* (`NewAt`) when `PrepareRequestSeq` finds its
request new: its sequence is above every earlier one of its client in `ps` (`System.admitted`).
The counters up to `cut` have had the primary's own call of the collector, if new.

The invariant `CounterInv` is what makes quorums come in the primary's order while other
replicas' Commits come in any order, also for a Prepare that is not new, whose entry only
Commits create (the primary's call never comes):

* live entries hold the primary and are at most `cut`;
* a new counter above `lastDoneCV` has a live entry, with at most `f` committers;
* the committers of any live entry are among those of every live new entry below it.

A Commit can join an entry only past the skipped-commitment loop, which finds it in the nearest
entry below (`skippedCommitmentLoop_nearest`), and so in every live new entry below. A quorum at
`t` would then give a live new entry below `t` more than `f` committers: there is none, and the
quorum leaves nothing new behind it (`CounterInv.countInView_commit`).

## Results

* `CounterInv.countInView_primary`, `CounterInv.countInView_commit`: each kind of call keeps the
  invariant, and a quorum above `lastDoneCV` skips no new counter.
* `CollectInv.collect_primary`, `CollectInv.collect_commit`: the collector keeps the
  invariant, with each client's last retired sequence its last sequence in the primary's order
  up to `lastDoneCV`, and hands on for execution exactly the new requests as `lastDoneCV` passes
  them.
-/

namespace MinBFT.Core

open MinBFT.Messages MinBFT.Usig MinBFT.System

/-- What replicas agree on of a request: its client, its sequence and its operation's digest. -/
structure ReqKey where
  clientID : Nat
  sequence : Nat
  digest : Bytes
  deriving DecidableEq, Repr

/-- The key of a request. -/
def requestKey (sha256 : Bytes → Bytes) (r : Request) : ReqKey :=
  ⟨r.clientID, r.sequence, sha256 r.operation⟩

/-- The last sequence of each client in the primary's order up to counter `t`: what
`lastPreparedSeq` is once the Prepares up to `t` are prepared. -/
def seqsUpTo (ps : List (Option ReqKey)) (t : Nat) : Nat → Nat :=
  lastSeq ReqKey.clientID ReqKey.sequence (ps.take t)

/-- The requests new in the primary's order up to counter `t`, in order. -/
def newUpTo (ps : List (Option ReqKey)) (t : Nat) : List ReqKey :=
  admitted ReqKey.clientID ReqKey.sequence (ps.take t)

/-- The primary's counter `t` carries a request that `PrepareRequestSeq` finds new. -/
def NewAt (ps : List (Option ReqKey)) (t : Nat) : Prop :=
  1 ≤ t ∧ AdmittedAt ReqKey.clientID ReqKey.sequence ps (t - 1)

/-! ## The order -/

section Order

variable {ps : List (Option ReqKey)}

/-- The order read up to a new counter ends with its request. -/
theorem newUpTo_of_newAt {t : Nat} {k : ReqKey} (hk : ps[t - 1]? = some (some k))
    (hnew : NewAt ps t) :
    seqsUpTo ps t = Function.update (seqsUpTo ps (t - 1)) k.clientID k.sequence ∧
      newUpTo ps t = newUpTo ps (t - 1) ++ [k] := by
  obtain ⟨ht, k', hk', hlt⟩ := hnew
  rw [hk] at hk'
  cases hk'
  have hsucc : t - 1 + 1 = t := by omega
  have h := admitAll_take_succ_of_admittedAt hk hlt
  rw [hsucc] at h
  unfold seqsUpTo newUpTo lastSeq admitted
  rw [h]
  exact ⟨rfl, rfl⟩

/-- Counters that are not new leave the order as it was. -/
theorem upTo_of_not_new {a b : Nat} (hab : a ≤ b) (hb : b ≤ ps.length)
    (h : ∀ u, a < u → u ≤ b → ¬ NewAt ps u) :
    seqsUpTo ps b = seqsUpTo ps a ∧ newUpTo ps b = newUpTo ps a := by
  have heq : admitAll ReqKey.clientID ReqKey.sequence (ps.take b) =
      admitAll ReqKey.clientID ReqKey.sequence (ps.take a) :=
    admitAll_take_of_passed hab hb fun i hi hib hadm => h (i + 1) (by omega) (by omega) ⟨by omega, by simpa using hadm⟩
  unfold seqsUpTo newUpTo lastSeq admitted
  rw [heq]
  exact ⟨rfl, rfl⟩

/-- A request of the order up to `b` is at or below its client's last sequence there. -/
theorem sequence_le_seqsUpTo {t b : Nat} {k : ReqKey} (hk : ps[t - 1]? = some (some k))
    (ht : 1 ≤ t) (htb : t ≤ b) : k.sequence ≤ seqsUpTo ps b k.clientID :=
  le_lastSeq_of_getElem? hk (by omega)

/-- A counter that is not new has its request at or below its client's last sequence before
it. -/
theorem sequence_le_of_not_new {t : Nat} {k : ReqKey} (hk : ps[t - 1]? = some (some k))
    (ht : 1 ≤ t) (hnew : ¬ NewAt ps t) : k.sequence ≤ seqsUpTo ps (t - 1) k.clientID :=
  Nat.not_lt.mp fun hlt => hnew ⟨ht, k, hk, hlt⟩

/-- Whether a counter is new depends only on the order up to it. -/
theorem newAt_append_iff (o : Option ReqKey) {t : Nat} (ht : t ≤ ps.length) :
    NewAt (ps ++ [o]) t ↔ NewAt ps t := by
  unfold NewAt AdmittedAt
  by_cases h1 : 1 ≤ t
  · have hlt : t - 1 < ps.length := by omega
    rw [List.getElem?_append_left hlt, List.take_append_of_le_length (by omega)]
  · simp [h1]

/-- A new counter stays new as the order grows. -/
theorem NewAt.append {t : Nat} (h : NewAt ps t) (o : Option ReqKey) : NewAt (ps ++ [o]) t := by
  have hlt : t - 1 < ps.length := by
    obtain ⟨-, k, hk, -⟩ := h
    exact (List.getElem?_eq_some_iff.mp hk).1
  exact (newAt_append_iff o (by have := h.1; omega)).mpr h

/-- The order up to a counter reads the same in a longer order. -/
theorem upTo_append (o : Option ReqKey) {t : Nat} (ht : t ≤ ps.length) :
    seqsUpTo (ps ++ [o]) t = seqsUpTo ps t ∧ newUpTo (ps ++ [o]) t = newUpTo ps t := by
  unfold seqsUpTo newUpTo
  rw [List.take_append_of_le_length ht]
  exact ⟨rfl, rfl⟩

/-- A counter is new exactly when its request is above its client's last sequence before it. -/
theorem newAt_iff {t : Nat} {k : ReqKey} (hk : ps[t - 1]? = some (some k)) (ht : 1 ≤ t) :
    NewAt ps t ↔ seqsUpTo ps (t - 1) k.clientID < k.sequence := by
  constructor
  · rintro ⟨-, k', hk', hlt⟩
    rw [hk] at hk'
    cases hk'
    exact hlt
  · intro hlt
    exact ⟨ht, k, hk, hlt⟩

/-- A counter that carries nothing is not new. -/
theorem not_newAt_of_none {t : Nat} (h : ps[t - 1]? = some none) : ¬ NewAt ps t := by
  rintro ⟨-, k, hk, -⟩
  rw [h] at hk
  cases hk

end Order

/-! ## The counter -/

/-- **The counter's invariant against the primary's order**, with the primary's own calls made
for the counters up to `cut`. -/
structure CounterInv (f : Nat) (ps : List (Option ReqKey)) (cut : Nat) (k : CommitmentCounter) :
    Prop where
  view_eq : k.view = 0
  firstCV_eq : k.firstCV = 1
  done_le : k.lastDoneCV ≤ cut
  cut_le : cut ≤ ps.length
  /-- A live entry is of a counter up to `cut` and holds the primary. -/
  entry : ∀ t E, k.prepareStates t = some E → 1 ≤ t ∧ t ≤ cut ∧ 0 ∈ E
  /-- A live entry of a new counter has at most `f` committers. -/
  card_le : ∀ t E, k.prepareStates t = some E → NewAt ps t → k.lastDoneCV < t → E.card ≤ f
  /-- A new counter above `lastDoneCV` whose primary's call came has a live entry. -/
  pending : ∀ t, k.lastDoneCV < t → t ≤ cut → NewAt ps t → k.prepareStates t ≠ none
  /-- The committers of a live entry are among those of every live new entry below it. -/
  chain : ∀ u v U V, u < v → NewAt ps u → k.lastDoneCV < u → k.prepareStates u = some U →
    k.prepareStates v = some V → V ⊆ U

namespace CounterInv

variable {f cut : Nat} {ps : List (Option ReqKey)} {k : CommitmentCounter}

theorem init (f : Nat) (ps : List (Option ReqKey)) : CounterInv f ps 0 {} where
  view_eq := rfl
  firstCV_eq := rfl
  done_le := Nat.le_refl _
  cut_le := Nat.zero_le _
  entry _ _ h := by cases h
  card_le _ _ h := by cases h
  pending _ h h' := absurd (Nat.lt_of_lt_of_le h h') (Nat.lt_irrefl 0)
  chain _ _ _ _ _ _ _ h := by cases h

/-- A longer order: the counters up to `cut` keep what they carry. -/
theorem extend (h : CounterInv f ps cut k) (o : Option ReqKey) : CounterInv f (ps ++ [o]) cut k where
  view_eq := h.view_eq
  firstCV_eq := h.firstCV_eq
  done_le := h.done_le
  cut_le := by simpa using Nat.le_succ_of_le h.cut_le
  entry := h.entry
  card_le t E hE hnew hD := by
    have ht := (h.entry t E hE).2.1
    exact h.card_le t E hE ((newAt_append_iff o (ht.trans h.cut_le)).mp hnew) hD
  pending t hD ht hnew :=
    h.pending t hD ht ((newAt_append_iff o (ht.trans h.cut_le)).mp hnew)
  chain u v U V huv hnew hD hU hV := by
    have hu := (h.entry u U hU).2.1
    exact h.chain u v U V huv ((newAt_append_iff o (hu.trans h.cut_le)).mp hnew) hD hU hV

/-- The next counter is not new: no primary's call is due for it. -/
theorem raise (h : CounterInv f ps cut k) (hlen : cut + 1 ≤ ps.length)
    (hnew : ¬ NewAt ps (cut + 1)) : CounterInv f ps (cut + 1) k where
  view_eq := h.view_eq
  firstCV_eq := h.firstCV_eq
  done_le := Nat.le_succ_of_le h.done_le
  cut_le := hlen
  entry t E hE := by
    obtain ⟨h1, ht, h0⟩ := h.entry t E hE
    exact ⟨h1, Nat.le_succ_of_le ht, h0⟩
  card_le := h.card_le
  pending t hD ht hnew' := by
    rcases Nat.lt_or_eq_of_le ht with ht | rfl
    · exact h.pending t hD (by omega) hnew'
    · exact absurd hnew' hnew
  chain := h.chain

/-- A live new entry below a counter whose committers are all its own has at most `f`. -/
theorem card_le_of_subset (h : CounterInv f ps cut k) {u : Nat} {U S : Finset Nat}
    (hU : k.prepareStates u = some U) (hnew : NewAt ps u) (hD : k.lastDoneCV < u) (hS : S ⊆ U) :
    S.card ≤ f :=
  (Finset.card_le_card hS).trans (h.card_le u U hU hnew hD)

/-- Writing a live entry for a counter up to `cut` that holds the primary, with at most `f`
committers if new, among those of every live new entry below and holding every live entry's
above if new. -/
theorem setEntry {t : Nat} {E : Finset Nat} (h : CounterInv f ps cut k) (ht1 : 1 ≤ t)
    (htcut : t ≤ cut) (h0 : 0 ∈ E) (hcard : NewAt ps t → k.lastDoneCV < t → E.card ≤ f)
    (hbelow : ∀ u U, u < t → NewAt ps u → k.lastDoneCV < u → k.prepareStates u = some U → E ⊆ U)
    (habove : NewAt ps t → k.lastDoneCV < t → ∀ v V, t < v → k.prepareStates v = some V → V ⊆ E) :
    CounterInv f ps cut (k.setEntry t (some E)) where
  view_eq := h.view_eq
  firstCV_eq := h.firstCV_eq
  done_le := h.done_le
  cut_le := h.cut_le
  entry v V hV := by
    rcases CommitmentCounter.setEntry_prepareStates_eq_some hV with ⟨rfl, hE⟩ | ⟨-, hV⟩
    · cases hE
      exact ⟨ht1, htcut, h0⟩
    · exact h.entry v V hV
  card_le v V hV hnew hD := by
    rcases CommitmentCounter.setEntry_prepareStates_eq_some hV with ⟨rfl, hE⟩ | ⟨-, hV⟩
    · cases hE
      exact hcard hnew hD
    · exact h.card_le v V hV hnew hD
  pending v hD hv hnew := by
    by_cases hvt : v = t
    · subst hvt
      simp
    · rw [CommitmentCounter.setEntry_prepareStates_of_ne k hvt]
      exact h.pending v hD hv hnew
  chain u v U V huv hnew hD hU hV := by
    rcases CommitmentCounter.setEntry_prepareStates_eq_some hU with ⟨rfl, hE⟩ | ⟨-, hU'⟩ <;>
      rcases CommitmentCounter.setEntry_prepareStates_eq_some hV with ⟨rfl, hE'⟩ | ⟨-, hV'⟩
    · omega
    · -- the written entry is the lower one
      cases hE
      exact habove hnew hD v V huv hV'
    · -- the written entry is the upper one
      cases hE'
      exact hbelow u U huv hnew hD hU'
    · exact h.chain u v U V huv hnew hD hU' hV'

/-- A quorum at `t` above `lastDoneCV`: the entry goes, and `lastDoneCV` becomes `t`. -/
theorem advance {t : Nat} (h : CounterInv f ps cut k) (hD : k.lastDoneCV < t) (htcut : t ≤ cut) :
    CounterInv f ps cut { k.setEntry t none with lastDoneCV := t } where
  view_eq := h.view_eq
  firstCV_eq := h.firstCV_eq
  done_le := htcut
  cut_le := h.cut_le
  entry v V hV := by
    rcases CommitmentCounter.setEntry_prepareStates_eq_some hV with ⟨-, hE⟩ | ⟨-, hV⟩
    · cases hE
    · exact h.entry v V hV
  card_le v V hV hnew hv := by
    rcases CommitmentCounter.setEntry_prepareStates_eq_some hV with ⟨-, hE⟩ | ⟨-, hV⟩
    · cases hE
    · exact h.card_le v V hV hnew (by simp only at hv; omega)
  pending v hv hvcut hnew := by
    simp only at hv
    rw [CommitmentCounter.setEntry_prepareStates_of_ne k (by omega)]
    exact h.pending v (by omega) hvcut hnew
  chain u v U V huv hnew hu hU hV := by
    simp only at hu
    rcases CommitmentCounter.setEntry_prepareStates_eq_some hU with ⟨-, hE⟩ | ⟨-, hU⟩
    · cases hE
    · rcases CommitmentCounter.setEntry_prepareStates_eq_some hV with ⟨-, hE'⟩ | ⟨-, hV⟩
      · cases hE'
      · exact h.chain u v U V huv hnew (by omega) hU hV

/-- No entry above `cut`, so none for the next counter. -/
theorem prepareStates_next (h : CounterInv f ps cut k) : k.prepareStates (cut + 1) = none := by
  cases hE : k.prepareStates (cut + 1) with
  | none => rfl
  | some E => exact absurd (h.entry _ E hE).2.1 (by omega)

/-- The primary's call for the next counter writes its entry, with the primary alone. -/
theorem setEntry_next (h : CounterInv f ps cut k) (hlen : cut + 1 ≤ ps.length) (hf : 1 ≤ f) :
    CounterInv f ps (cut + 1) (k.setEntry (cut + 1) (some {0})) where
  view_eq := h.view_eq
  firstCV_eq := h.firstCV_eq
  done_le := Nat.le_succ_of_le h.done_le
  cut_le := hlen
  entry v V hV := by
    rcases CommitmentCounter.setEntry_prepareStates_eq_some hV with ⟨rfl, hE⟩ | ⟨-, hV⟩
    · cases hE
      exact ⟨by omega, Nat.le_refl _, Finset.mem_singleton_self 0⟩
    · obtain ⟨h1, hv, h0⟩ := h.entry v V hV
      exact ⟨h1, Nat.le_succ_of_le hv, h0⟩
  card_le v V hV hnew hD := by
    rcases CommitmentCounter.setEntry_prepareStates_eq_some hV with ⟨rfl, hE⟩ | ⟨-, hV⟩
    · cases hE
      simpa using hf
    · exact h.card_le v V hV hnew hD
  pending v hD hv hnew := by
    by_cases hvt : v = cut + 1
    · subst hvt
      simp
    · rw [CommitmentCounter.setEntry_prepareStates_of_ne k hvt]
      exact h.pending v hD (by omega) hnew
  chain u v U V huv hnew hD hU hV := by
    rcases CommitmentCounter.setEntry_prepareStates_eq_some hU with ⟨rfl, -⟩ | ⟨-, hU'⟩
    · -- nothing lives above the new entry
      rcases CommitmentCounter.setEntry_prepareStates_eq_some hV with ⟨rfl, -⟩ | ⟨-, hV'⟩
      · omega
      · exact absurd (h.entry v V hV').2.1 (by omega)
    · rcases CommitmentCounter.setEntry_prepareStates_eq_some hV with ⟨rfl, hE⟩ | ⟨-, hV'⟩
      · -- the new entry holds the primary, which every live entry holds
        cases hE
        exact Finset.singleton_subset_iff.mpr (h.entry u U hU').2.2
      · exact h.chain u v U V huv hnew hD hU' hV'

/-- A quorum at the next counter: nothing lives above it. -/
theorem advance_next (h : CounterInv f ps cut k) (hlen : cut + 1 ≤ ps.length) :
    CounterInv f ps (cut + 1) { k.setEntry (cut + 1) none with lastDoneCV := cut + 1 } where
  view_eq := h.view_eq
  firstCV_eq := h.firstCV_eq
  done_le := Nat.le_refl _
  cut_le := hlen
  entry v V hV := by
    rcases CommitmentCounter.setEntry_prepareStates_eq_some hV with ⟨-, hE⟩ | ⟨-, hV⟩
    · cases hE
    · obtain ⟨h1, hv, h0⟩ := h.entry v V hV
      exact ⟨h1, Nat.le_succ_of_le hv, h0⟩
  card_le v V hV _ hv := by
    rcases CommitmentCounter.setEntry_prepareStates_eq_some hV with ⟨-, hE⟩ | ⟨-, hV⟩
    · cases hE
    · exact absurd (h.entry v V hV).2.1 (by simp only at hv; omega)
  pending v hv hvcut _ := by
    simp only at hv
    omega
  chain u v U V _ _ hu hU _ := by
    simp only at hu
    rcases CommitmentCounter.setEntry_prepareStates_eq_some hU with ⟨-, hE⟩ | ⟨-, hU⟩
    · cases hE
    · exact absurd (h.entry u U hU).2.1 (by omega)

end CounterInv

/-! ## The skipped-commitment loop -/

/-- **When the loop lets a replica through, it is in the nearest entry** at or above any entry
from `firstCV` to `cv`: the loop stops at the first entry it meets going down. -/
theorem skippedCommitmentLoop_nearest {states : Nat → Option (Finset Nat)} {r firstCV : Nat}
    (h1 : 1 ≤ firstCV) : ∀ fuel cv, skippedCommitmentLoop states r firstCV fuel cv = .ok (.ok ()) →
      ∀ a A, firstCV ≤ a → a ≤ cv → states a = some A →
        ∃ w W, a ≤ w ∧ w ≤ cv ∧ states w = some W ∧ r ∈ W := by
  intro fuel
  induction fuel with
  | zero => intro cv h; cases h
  | succ fuel ih =>
    intro cv h a A ha hacv hA
    unfold skippedCommitmentLoop at h
    split_ifs at h with hle
    · cases hs : states cv with
      | some S =>
        -- the loop meets the entry of `cv` and lets `r` through only if `r` is in it
        rw [hs] at h
        simp only at h
        split_ifs at h with hrS
        · exact ⟨cv, S, hacv, Nat.le_refl _, hs, hrS⟩
        · cases h
      | none =>
        rw [hs] at h
        simp only at h
        rw [decCounter_of_pos (by omega)] at h
        rcases Nat.lt_or_eq_of_le hacv with hlt | rfl
        · obtain ⟨w, W, haw, hw, hW, hr⟩ := ih (cv - 1) h a A ha (by omega) hA
          exact ⟨w, W, haw, by omega, hW, hr⟩
        · rw [hs] at hA
          cases hA
    · omega

/-! ## Each call of the counter -/

namespace CounterInv

variable {f cut : Nat} {ps : List (Option ReqKey)} {k k' : CommitmentCounter}
  {ans : Except String Bool}

/-- **The primary's own call for the next counter**, a new one: it creates the entry with the
primary, which is a quorum only for `f = 0`; then no new counter was left behind. -/
theorem countInView_primary (h : CounterInv f ps cut k) (hlen : cut + 1 ≤ ps.length)
    (hc : k.countInView f 0 0 (cut + 1) = .ok (ans, k')) :
    CounterInv f ps (cut + 1) k' ∧
      ((ans = .ok false ∧ k'.lastDoneCV = k.lastDoneCV) ∨
        (ans = .ok true ∧ k.lastDoneCV < cut + 1 ∧ k'.lastDoneCV = cut + 1 ∧
          ∀ u, k.lastDoneCV < u → u < cut + 1 → ¬ NewAt ps u)) := by
  have hcomm : k.committers 0 (cut + 1) = {0} := by
    simp [CommitmentCounter.committers, h.prepareStates_next]
  rcases CommitmentCounter.countInView_cases hc with ⟨hold, -⟩ | ⟨-, hr, -⟩ | ⟨hD, -, hq⟩ |
    ⟨-, hr, -⟩
  · exact absurd hold (by have := h.done_le; omega)
  · exact absurd rfl hr
  · rw [hcomm] at hq
    rcases CommitmentCounter.checkQuorum_cases hq with ⟨hcard, rfl, rfl⟩ | ⟨hf, rfl, rfl⟩
    · -- no quorum: the entry of the primary alone
      exact ⟨h.setEntry_next hlen (by simpa using hcard), .inl ⟨rfl, rfl⟩⟩
    · -- `f = 0`: the primary alone is a quorum; a live new entry below would hold the primary
      -- with at most `f` committers
      refine ⟨by rw [CommitmentCounter.setEntry_setEntry]; exact h.advance_next hlen,
        .inr ⟨rfl, hD, rfl, fun u hu hut hnewu => ?_⟩⟩
      obtain ⟨U, hU⟩ := Option.ne_none_iff_exists'.mp (h.pending u hu (by omega) hnewu)
      have hcardU := h.card_le u U hU hnewu hu
      have hpos : 0 < U.card := Finset.card_pos.mpr ⟨0, (h.entry u U hU).2.2⟩
      simp only [Finset.card_singleton] at hf
      omega
  · exact absurd rfl hr

/-- What a call finds as the committers of `t`: the primary's entry, created if missing, which
for a new counter above `lastDoneCV` is its live entry. -/
theorem committers_subset (h : CounterInv f ps cut k) {t u : Nat} {U : Finset Nat} (hut : u < t)
    (hnew : NewAt ps u) (hD : k.lastDoneCV < u) (hU : k.prepareStates u = some U) :
    k.committers 0 t ⊆ U := by
  unfold CommitmentCounter.committers
  cases hE : k.prepareStates t with
  | none => exact Finset.singleton_subset_iff.mpr (h.entry u U hU).2.2
  | some E => exact h.chain u t U E hut hnew hD hU hE

theorem zero_mem_committers (h : CounterInv f ps cut k) (t : Nat) : 0 ∈ k.committers 0 t := by
  unfold CommitmentCounter.committers
  cases hE : k.prepareStates t with
  | none => exact Finset.mem_singleton_self 0
  | some E => exact (h.entry t E hE).2.2

theorem committers_of_new (h : CounterInv f ps cut k) {t : Nat} (htcut : t ≤ cut)
    (hnew : NewAt ps t) (hD : k.lastDoneCV < t) : k.prepareStates t = some (k.committers 0 t) := by
  obtain ⟨E, hE⟩ := Option.ne_none_iff_exists'.mp (h.pending t hD htcut hnew)
  simp [CommitmentCounter.committers, hE]

/-- A call that creates the missing entry of `t` with the primary and stops there. -/
theorem setEntry_committers (h : CounterInv f ps cut k) {t : Nat} (ht1 : 1 ≤ t)
    (htcut : t ≤ cut) : CounterInv f ps cut (k.setEntry t (some (k.committers 0 t))) :=
  h.setEntry ht1 htcut (h.zero_mem_committers t)
    (fun hnew hD => h.card_le t _ (h.committers_of_new htcut hnew hD) hnew hD)
    (fun _ _ hut hnew hD hU => h.committers_subset hut hnew hD hU)
    (fun hnew hD v V htv hV => h.chain t v _ V htv hnew hD (h.committers_of_new htcut hnew hD) hV)

/-- **A Commit past the skipped-commitment loop is among the committers of every live new entry
below**, with the committers it joins. -/
theorem insert_subset_of_loop (h : CounterInv f ps cut k) {r t u : Nat} {U : Finset Nat}
    (ht1 : 1 ≤ t)
    (hloop : skippedCommitmentLoop (k.setEntry t (some (k.committers 0 t))).prepareStates r
      k.firstCV loopFuel (decCounter t) = .ok (.ok ()))
    (hut : u < t) (hnew : NewAt ps u) (hD : k.lastDoneCV < u) (hU : k.prepareStates u = some U) :
    insert r (k.committers 0 t) ⊆ U := by
  rw [decCounter_of_pos (by omega), h.firstCV_eq] at hloop
  have hU' : (k.setEntry t (some (k.committers 0 t))).prepareStates u = some U := by
    rw [CommitmentCounter.setEntry_prepareStates_of_ne k (by omega)]
    exact hU
  obtain ⟨w, W, huw, hwt, hW, hrW⟩ :=
    skippedCommitmentLoop_nearest (Nat.le_refl 1) loopFuel (t - 1) hloop u U hnew.1 (by omega) hU'
  rw [CommitmentCounter.setEntry_prepareStates_of_ne k (by omega)] at hW
  -- the nearest entry is `u`'s, or one above whose committers are among `u`'s
  have hrU : r ∈ U := by
    rcases Nat.lt_or_eq_of_le huw with huw | rfl
    · exact h.chain u w U W huw hnew hD hU hW hrW
    · rw [hU] at hW
      cases hW
      exact hrW
  exact Finset.insert_subset hrU (h.committers_subset hut hnew hD hU)

/-- **A Commit of another replica for a counter up to `cut`**: the counter answers done at once
for a counter at or below `lastDoneCV`; otherwise it keeps the invariant, and a quorum above
`lastDoneCV` skips no new counter. -/
theorem countInView_commit (h : CounterInv f ps cut k) {r t : Nat} (ht1 : 1 ≤ t)
    (htcut : t ≤ cut) (hr : r ≠ 0) (hc : k.countInView f 0 r t = .ok (ans, k')) :
    (t ≤ k.lastDoneCV ∧ ans = .ok true ∧ k' = k) ∨
    (ans ≠ .ok true ∧ k'.lastDoneCV = k.lastDoneCV ∧ CounterInv f ps cut k') ∨
    (k.lastDoneCV < t ∧ ans = .ok true ∧ k'.lastDoneCV = t ∧ CounterInv f ps cut k' ∧
      ∀ u, k.lastDoneCV < u → u < t → ¬ NewAt ps u) := by
  rcases CommitmentCounter.countInView_cases hc with ⟨hold, hans, rfl⟩ | ⟨-, -, ⟨e, rfl⟩, rfl⟩ |
    ⟨-, hr', -⟩ | ⟨hD, -, hloop, hnotin, hq⟩
  · exact .inl ⟨hold, hans, rfl⟩
  · -- an error: the entry is created if missing, and nothing else changes
    exact .inr (.inl ⟨by simp, rfl, h.setEntry_committers ht1 htcut⟩)
  · exact absurd hr' hr
  · have hbelow : ∀ u U, u < t → NewAt ps u → k.lastDoneCV < u → k.prepareStates u = some U →
        insert r (k.committers 0 t) ⊆ U :=
      fun u U hut hnew hDu hU => h.insert_subset_of_loop ht1 hloop hut hnew hDu hU
    rcases CommitmentCounter.checkQuorum_cases hq with ⟨hcard, rfl, rfl⟩ | ⟨hf, rfl, rfl⟩
    · -- counted, no quorum
      refine .inr (.inl ⟨by simp, rfl, ?_⟩)
      exact h.setEntry ht1 htcut (Finset.mem_insert_of_mem (h.zero_mem_committers t))
        (fun _ _ => hcard) hbelow
        (fun hnew hD' v V htv hV => (h.chain t v _ V htv hnew hD'
          (h.committers_of_new htcut hnew hD') hV).trans (Finset.subset_insert _ _))
    · -- a quorum: a live new entry below would have more than `f` committers
      refine .inr (.inr ⟨hD, rfl, rfl, ?_, fun u hu hut hnew => ?_⟩)
      · rw [CommitmentCounter.setEntry_setEntry]
        exact h.advance hD htcut
      · obtain ⟨U, hU⟩ := Option.ne_none_iff_exists'.mp (h.pending u hu (by omega) hnew)
        have := h.card_le_of_subset hU hnew hu (hbelow u U hut hnew hu hU)
        omega

end CounterInv

/-! ## The collector -/

/-- `RetireRequestSeq` that does not fail: it retires exactly a sequence above the last
retired one, and changes nothing else. -/
theorem SeqState.retireRequestSeq_of_ok {s : SeqState} {seq : Nat} {new : Bool}
    (h : (s.retireRequestSeq seq).1 = .ok new) :
    (new = true ↔ s.lastRetiredSeq < seq) ∧
      (s.retireRequestSeq seq).2 = if new then { s with lastRetiredSeq := seq } else s := by
  unfold SeqState.retireRequestSeq at h ⊢
  by_cases h₁ : seq ≤ s.lastRetiredSeq
  · rw [if_pos h₁] at h ⊢
    cases h
    exact ⟨by simp; omega, rfl⟩
  · by_cases h₂ : seq > s.lastPreparedSeq
    · rw [if_neg h₁, if_pos h₂] at h
      cases h
    · rw [if_neg h₁, if_neg h₂] at h ⊢
      cases h
      exact ⟨by simp; omega, rfl⟩

section Collect

variable {α : Type} {f : Nat} {cs cs' : CommitState α} {r : Nat} {p : Prepare}
  {res : Except String Unit} {ex : Option Request} {ans : Except String Bool}
  {k' : CommitmentCounter}

/-- A call whose counter does not answer done changes the counter only, and executes nothing. -/
theorem collectCommitment_of_not_done (hc : countCommitment f cs.counter r p = .ok (ans, k'))
    (hans : ans ≠ .ok true) (h : collectCommitment f cs r p = .ok (res, cs', ex)) :
    cs' = { cs with counter := k' } ∧ ex = none := by
  unfold collectCommitment at h
  rw [hc, Outcome.ok_bind] at h
  rcases ans with e | _ | _
  · cases h
    exact ⟨rfl, rfl⟩
  · cases h
    exact ⟨rfl, rfl⟩
  · exact absurd rfl hans

/-- A call whose counter answers done retires the request, and executes it when it is new. -/
theorem collectCommitment_of_done (hc : countCommitment f cs.counter r p = .ok (.ok true, k'))
    (h : collectCommitment f cs r p = .ok (res, cs', ex)) :
    ∃ new, ((cs.clients p.request.clientID).seq.retireRequestSeq p.request.sequence).1 = .ok new ∧
      cs'.counter = k' ∧
      cs'.clients = Function.update cs.clients p.request.clientID
        { cs.clients p.request.clientID with
          seq := ((cs.clients p.request.clientID).seq.retireRequestSeq p.request.sequence).2 } ∧
      ex = if new then some p.request else none := by
  unfold collectCommitment at h
  rw [hc, Outcome.ok_bind] at h
  simp only at h
  obtain ⟨⟨new, clients⟩, hret, hk⟩ := Outcome.bind_eq_ok h
  obtain ⟨hnew, rfl⟩ := retireSeq_eq_ok hret
  refine ⟨new, hnew, ?_⟩
  simp only at hk
  split_ifs at hk with hn
  · cases hk
    exact ⟨rfl, rfl, by rw [if_pos hn]⟩
  · cases hk
    exact ⟨rfl, rfl, by rw [if_neg hn]⟩

/-- A call of the collector leaves every client's last prepared sequence as it was. -/
theorem collectCommitment_lastPreparedSeq (h : collectCommitment f cs r p = .ok (res, cs', ex))
    (cl : Nat) : (cs'.clients cl).seq.lastPreparedSeq = (cs.clients cl).seq.lastPreparedSeq := by
  rcases collectCommitment_clients h with hcl | ⟨new, hnew, hcl⟩
  · rw [hcl]
  · rw [hcl, Function.update_apply]
    split_ifs with hc
    · subst hc
      rw [(SeqState.retireRequestSeq_of_ok hnew).2]
      split_ifs <;> rfl
    · rfl

end Collect

/-- **The collector's invariant**: the counter's, and each client's last retired sequence is its
last sequence in the primary's order up to `lastDoneCV`. -/
structure CollectInv {α : Type} (f : Nat) (ps : List (Option ReqKey)) (cut : Nat)
    (cs : CommitState α) : Prop where
  counter : CounterInv f ps cut cs.counter
  retired : ∀ cl, (cs.clients cl).seq.lastRetiredSeq = seqsUpTo ps cs.counter.lastDoneCV cl

namespace CollectInv

variable {α : Type} {f cut : Nat} {ps : List (Option ReqKey)} {cs cs' : CommitState α} {r : Nat}
  {p : Prepare} {res : Except String Unit} {ex : Option Request} {k' : CommitmentCounter}
  {sha256 : Bytes → Bytes}

/-- The invariant reads only the counter and the last retired sequences. -/
theorem congr (h : CollectInv f ps cut cs) (hk : cs'.counter = cs.counter)
    (hr : ∀ cl, (cs'.clients cl).seq.lastRetiredSeq = (cs.clients cl).seq.lastRetiredSeq) :
    CollectInv f ps cut cs' :=
  ⟨hk ▸ h.counter, fun cl => by rw [hr, hk, h.retired]⟩

/-- A longer order: what the counters up to `cut` carry is kept. -/
theorem extend (h : CollectInv f ps cut cs) (o : Option ReqKey) :
    CollectInv f (ps ++ [o]) cut cs :=
  ⟨h.counter.extend o, fun cl => by
    rw [h.retired, (upTo_append o (h.counter.done_le.trans h.counter.cut_le)).1]⟩

/-- The next counter is not new: `cut` passes it with no call of the primary. -/
theorem raise (h : CollectInv f ps cut cs) (hlen : cut + 1 ≤ ps.length)
    (hnew : ¬ NewAt ps (cut + 1)) : CollectInv f ps (cut + 1) cs :=
  ⟨h.counter.raise hlen hnew, h.retired⟩

/-- A call that changes only the counter, to one with the same `lastDoneCV`. -/
theorem of_counter {cut' : Nat} (h : CollectInv f ps cut cs) (hk : CounterInv f ps cut' k')
    (hD : k'.lastDoneCV = cs.counter.lastDoneCV) : CollectInv f ps cut' { cs with counter := k' } :=
  ⟨hk, fun cl => by simpa [hD] using h.retired cl⟩

/-- The counter answered done for `t`, the counter of the Prepare whose request has key
`ps[t - 1]`, and `lastDoneCV` went from `D` to `D' ≥ t`, passing no new counter but `t`: the
retirement keeps the invariant and executes exactly the new request passed, if any. -/
theorem done {cut' t D' : Nat} (h : CollectInv f ps cut cs)
    (hc : countCommitment f cs.counter r p = .ok (.ok true, k')) (hk : CounterInv f ps cut' k')
    (hcol : collectCommitment f cs r p = .ok (res, cs', ex)) (ht1 : 1 ≤ t)
    (hkey : ps[t - 1]? = some (some (requestKey sha256 p.request)))
    (hD' : k'.lastDoneCV = D') (hDD' : cs.counter.lastDoneCV ≤ D') (hD'len : D' ≤ ps.length)
    (htD' : t ≤ D') (hgap : ∀ u, cs.counter.lastDoneCV < u → u ≤ D' → NewAt ps u → u = t) :
    CollectInv f ps cut' cs' ∧
      newUpTo ps cs'.counter.lastDoneCV =
        newUpTo ps cs.counter.lastDoneCV ++ ex.toList.map (requestKey sha256) := by
  obtain ⟨new, hnew, hcounter, hclients, hex⟩ := collectCommitment_of_done hc hcol
  obtain ⟨hnewiff, hseq⟩ := SeqState.retireRequestSeq_of_ok hnew
  set D := cs.counter.lastDoneCV
  have hret := h.retired p.request.clientID
  have hD'' : cs'.counter.lastDoneCV = D' := by rw [hcounter, hD']
  rw [hD'']
  -- the request passed is new exactly when its counter is new and above `D`
  have hpassed : NewAt ps t ∧ D < t →
      seqsUpTo ps D' = Function.update (seqsUpTo ps D) p.request.clientID p.request.sequence ∧
        newUpTo ps D' = newUpTo ps D ++ [requestKey sha256 p.request] ∧
        seqsUpTo ps D p.request.clientID < p.request.sequence := by
    rintro ⟨hnewt, hDt⟩
    obtain ⟨hbelow, hbelow'⟩ := upTo_of_not_new (a := D) (b := t - 1) (by omega)
      (by omega) fun u hu hut hnu => absurd (hgap u hu (by omega) hnu) (by omega)
    obtain ⟨hat, hat'⟩ := newUpTo_of_newAt hkey hnewt
    obtain ⟨habove, habove'⟩ := upTo_of_not_new (a := t) (b := D') htD' hD'len
      fun u hu huD hnu => absurd (hgap u (by omega) huD hnu) (by omega)
    obtain ⟨-, k₀, hk₀, hlt⟩ := hnewt
    rw [hkey] at hk₀
    cases hk₀
    refine ⟨by rw [habove, hat, hbelow]; rfl, by rw [habove', hat', hbelow'], ?_⟩
    rw [← hbelow]
    exact hlt
  have hkept : ¬ (NewAt ps t ∧ D < t) →
      seqsUpTo ps D' = seqsUpTo ps D ∧ newUpTo ps D' = newUpTo ps D ∧
        p.request.sequence ≤ seqsUpTo ps D p.request.clientID := by
    intro hnot
    obtain ⟨hall, hall'⟩ := upTo_of_not_new hDD' hD'len
      fun u hu huD hnu => hnot ⟨hgap u hu huD hnu ▸ hnu, hgap u hu huD hnu ▸ hu⟩
    refine ⟨hall, hall', ?_⟩
    by_cases htD : t ≤ D
    · exact sequence_le_seqsUpTo hkey ht1 htD
    · -- `t` is above `D` and not new: its request is at or below its client's last sequence
      have hnt : ¬ NewAt ps t := fun hnt => hnot ⟨hnt, by omega⟩
      obtain ⟨hbelow, -⟩ := upTo_of_not_new (a := D) (b := t - 1) (by omega)
        (by omega) fun u hu hut hnu => absurd (hgap u hu (by omega) hnu) (by omega)
      rw [← hbelow]
      exact sequence_le_of_not_new hkey ht1 hnt
  cases new with
  | true =>
    have hlt : seqsUpTo ps D p.request.clientID < p.request.sequence := by
      rw [← hret]
      exact hnewiff.mp rfl
    have hcase : NewAt ps t ∧ D < t := by
      by_contra hnot
      have := (hkept hnot).2.2
      omega
    obtain ⟨hseqs, hnewUp, -⟩ := hpassed hcase
    subst hex
    refine ⟨⟨hcounter ▸ hk, fun cl => ?_⟩, by rw [hnewUp]; rfl⟩
    rw [hclients, hD'', hseqs, Function.update_apply, Function.update_apply]
    split_ifs with hcl
    · subst hcl
      rw [hseq, if_pos rfl]
    · exact h.retired cl
  | false =>
    have hnot : ¬ (NewAt ps t ∧ D < t) := by
      intro hcase
      have := (hpassed hcase).2.2
      rw [← hret] at this
      exact absurd (hnewiff.mpr this) (by simp)
    obtain ⟨hseqs, hnewUp, -⟩ := hkept hnot
    subst hex
    refine ⟨⟨hcounter ▸ hk, fun cl => ?_⟩, by simp [hnewUp]⟩
    rw [hclients, hD'', hseqs, Function.update_apply]
    split_ifs with hcl
    · subst hcl
      rw [hseq, if_neg (by simp)]
      exact h.retired _
    · exact h.retired cl

/-- In view `0` the counter goes straight to the count in its view. -/
theorem countCommitment_view_zero {k : CommitmentCounter} {ui : UI} (hk : k.view = 0)
    (hview : p.view = 0) (hui : parseMessageUI (.prepare p) = some ui) :
    countCommitment f k r p = k.countInView f p.replicaID r ui.counter := by
  rw [countCommitment_eq hui, hview, hk]
  rfl

/-- **The primary's own call for the next counter**, a new one: the invariant moves `cut` up to
it, and a quorum executes its request. -/
theorem collect_primary {ui : UI} (h : CollectInv f ps cut cs) (hlen : cut + 1 ≤ ps.length)
    (hui : parseMessageUI (.prepare p) = some ui)
    (hcv : ui.counter = cut + 1) (hview : p.view = 0) (hp0 : p.replicaID = 0)
    (hkey : ps[cut]? = some (some (requestKey sha256 p.request)))
    (hcol : collectCommitment f cs p.replicaID p = .ok (res, cs', ex)) :
    CollectInv f ps (cut + 1) cs' ∧
      newUpTo ps cs'.counter.lastDoneCV =
        newUpTo ps cs.counter.lastDoneCV ++ ex.toList.map (requestKey sha256) := by
  obtain ⟨ans, hcount, -⟩ := collectCommitment_cases hcol
  have hc := hcount
  rw [countCommitment_view_zero h.counter.view_eq hview hui, hcv, hp0] at hc
  rcases h.counter.countInView_primary hlen hc with ⟨hk, ⟨rfl, hD⟩ | ⟨rfl, hD, hD', hgap⟩⟩
  · obtain ⟨hcs', rfl⟩ := collectCommitment_of_not_done hcount (by simp) hcol
    rw [hcs']
    exact ⟨h.of_counter hk hD, by simp [hD]⟩
  · exact h.done hcount hk hcol (t := cut + 1) (by omega) (by simpa using hkey) hD' (by omega)
      hlen (Nat.le_refl _) fun u hu huD hnu => by
        rcases Nat.lt_or_eq_of_le huD with hlt | heq
        · exact absurd hnu (hgap u hu hlt)
        · exact heq

/-- **A Commit of another replica** for a counter up to `cut`: the invariant stays, and a quorum
or a counter already passed executes only a new request passed. -/
theorem collect_commit {ui : UI} (h : CollectInv f ps cut cs)
    (hui : parseMessageUI (.prepare p) = some ui) (ht1 : 1 ≤ ui.counter) (htcut : ui.counter ≤ cut)
    (hview : p.view = 0) (hp0 : p.replicaID = 0) (hr : r ≠ 0)
    (hkey : ps[ui.counter - 1]? = some (some (requestKey sha256 p.request)))
    (hcol : collectCommitment f cs r p = .ok (res, cs', ex)) :
    CollectInv f ps cut cs' ∧
      newUpTo ps cs'.counter.lastDoneCV =
        newUpTo ps cs.counter.lastDoneCV ++ ex.toList.map (requestKey sha256) := by
  obtain ⟨ans, hcount, -⟩ := collectCommitment_cases hcol
  have hc := hcount
  rw [countCommitment_view_zero h.counter.view_eq hview hui, hp0] at hc
  have hlen := htcut.trans h.counter.cut_le
  rcases h.counter.countInView_commit ht1 htcut hr hc with ⟨hold, rfl, hk'⟩ | ⟨hans, hD, hk⟩ |
    ⟨hD, rfl, hD', hk, hgap⟩
  · -- a counter already passed
    rw [hk'] at hcount
    exact h.done hcount h.counter hcol ht1 hkey rfl (Nat.le_refl _)
      (h.counter.done_le.trans h.counter.cut_le) hold fun u hu huD => absurd huD (by omega)
  · obtain ⟨hcs', rfl⟩ := collectCommitment_of_not_done hcount hans hcol
    rw [hcs']
    exact ⟨h.of_counter hk hD, by simp [hD]⟩
  · exact h.done hcount hk hcol ht1 hkey hD' (by omega) hlen (Nat.le_refl _)
      fun u hu huD hnu => by
        rcases Nat.lt_or_eq_of_le huD with hlt | heq
        · exact absurd hnu (hgap u hu hlt)
        · exact heq

end CollectInv

end MinBFT.Core
