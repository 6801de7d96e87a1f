import Mathlib.Data.List.Basic
import Mathlib.Algebra.Group.Nat.Defs
import Mathlib.Algebra.BigOperators.Fin

/-!
# Fixed-width integers as bytes

`toBytesLE k x` is the `k` bytes of `x` least significant first, `toBytesBE k x` most significant
first, both of `x` modulo `256 ^ k` (an unsigned integer of `8 k` bits written out in full, as
`binary.Write` and `binary.Read` do with `binary.LittleEndian` and `binary.BigEndian`, or as a
little-endian machine lays out an unsigned integer in memory). `ofBytesLE` and `ofBytesBE` read
a byte string back as a number.

Results: the encodings have length `k` (`length_toBytesLE`), reading them back gives `x % 256 ^ k`
(`ofBytesLE_toBytesLE`), so they are injective below `256 ^ k` (`toBytesLE_inj`); reading a string
of length `k` and writing it again gives the string back (`toBytesLE_ofBytesLE`). A string
made of fixed-width limbs, the most significant limb first, reads as the sum of each limb's value
times its weight (`ofBytesBE_flatten_map_reverse`).

Nothing here is about a particular program.
-/

namespace MinBFT.Bytes

/-- The `k` bytes of `x % 256 ^ k`, least significant first. -/
def toBytesLE : Nat → Nat → List UInt8
  | 0, _ => []
  | k + 1, x => UInt8.ofNat (x % 256) :: toBytesLE k (x / 256)

/-- The `k` bytes of `x % 256 ^ k`, most significant first. -/
def toBytesBE (k x : Nat) : List UInt8 := (toBytesLE k x).reverse

/-- A byte string read as a number, least significant byte first. -/
def ofBytesLE : List UInt8 → Nat
  | [] => 0
  | b :: bs => b.toNat + 256 * ofBytesLE bs

/-- A byte string read as a number, most significant byte first. -/
def ofBytesBE (bs : List UInt8) : Nat := ofBytesLE bs.reverse

@[simp] theorem length_toBytesLE : ∀ k x, (toBytesLE k x).length = k
  | 0, _ => rfl
  | k + 1, x => by simp [toBytesLE, length_toBytesLE k]

@[simp] theorem length_toBytesBE (k x : Nat) : (toBytesBE k x).length = k := by
  simp [toBytesBE]

theorem toNat_ofNat_mod (x : Nat) : (UInt8.ofNat (x % 256)).toNat = x % 256 := by
  simp [Nat.mod_mod_of_dvd]

theorem ofBytesLE_toBytesLE : ∀ k x, ofBytesLE (toBytesLE k x) = x % 256 ^ k
  | 0, x => by simp [toBytesLE, ofBytesLE, Nat.mod_one]
  | k + 1, x => by
    simp only [toBytesLE, ofBytesLE, ofBytesLE_toBytesLE k, toNat_ofNat_mod]
    -- `x = x % 256 + 256 * (x / 256)`, and the high part is taken modulo `256 ^ k`
    rw [Nat.pow_succ, Nat.mul_comm (256 ^ k) 256, Nat.mod_mul]

theorem ofBytesBE_toBytesBE (k x : Nat) : ofBytesBE (toBytesBE k x) = x % 256 ^ k := by
  simp [ofBytesBE, toBytesBE, ofBytesLE_toBytesLE]

theorem ofBytesLE_lt : ∀ bs : List UInt8, ofBytesLE bs < 256 ^ bs.length
  | [] => by simp [ofBytesLE]
  | b :: bs => by
    have hb : b.toNat < 256 := b.toNat_lt
    have ih : 256 * (ofBytesLE bs + 1) ≤ 256 * 256 ^ bs.length :=
      Nat.mul_le_mul_left 256 (ofBytesLE_lt bs)
    simp only [ofBytesLE, List.length_cons, Nat.pow_succ]
    omega

theorem toBytesLE_ofBytesLE : ∀ bs : List UInt8, toBytesLE bs.length (ofBytesLE bs) = bs
  | [] => rfl
  | b :: bs => by
    have hb : b.toNat < 256 := b.toNat_lt
    have hmod : (b.toNat + 256 * ofBytesLE bs) % 256 = b.toNat := by omega
    have hdiv : (b.toNat + 256 * ofBytesLE bs) / 256 = ofBytesLE bs := by omega
    simp only [List.length_cons, toBytesLE, ofBytesLE, hmod, hdiv, toBytesLE_ofBytesLE bs,
      UInt8.ofNat_toNat]

theorem toBytesBE_ofBytesBE (bs : List UInt8) : toBytesBE bs.length (ofBytesBE bs) = bs := by
  have := toBytesLE_ofBytesLE bs.reverse
  rw [List.length_reverse] at this
  simp [toBytesBE, ofBytesBE, this]

theorem ofBytesLE_append : ∀ a b : List UInt8,
    ofBytesLE (a ++ b) = ofBytesLE a + 256 ^ a.length * ofBytesLE b
  | [], b => by simp [ofBytesLE]
  | x :: a, b => by
    simp only [List.cons_append, ofBytesLE, ofBytesLE_append a b, List.length_cons, Nat.pow_succ]
    rw [Nat.mul_add, Nat.add_assoc, Nat.mul_comm (256 ^ a.length) 256, Nat.mul_assoc]

theorem ofBytesBE_append (a b : List UInt8) :
    ofBytesBE (a ++ b) = ofBytesBE a * 256 ^ b.length + ofBytesBE b := by
  rw [ofBytesBE, List.reverse_append, ofBytesLE_append, List.length_reverse, ofBytesBE, ofBytesBE,
    Nat.add_comm, Nat.mul_comm]

/-- Limbs of `k` bytes each, written out from the last limb of `l` to the first and read
big-endian: the limb `l[i]` has the weight `256 ^ (k * i)`. -/
theorem ofBytesBE_flatten_map_reverse {α : Type} (f : α → List UInt8) {k : Nat}
    (hf : ∀ a, (f a).length = k) : ∀ l : List α,
    ofBytesBE (l.reverse.map f).flatten = ∑ i : Fin l.length, ofBytesBE (f l[i]) * 256 ^ (k * i)
  | [] => rfl
  | a :: l => by
    -- the limb `a` is written last: the others move up by `k` bytes
    rw [List.reverse_cons, List.map_append, List.flatten_append, ofBytesBE_append,
      ofBytesBE_flatten_map_reverse f hf l]
    erw [Fin.sum_univ_succ]
    rw [Finset.sum_mul]
    simp only [List.map_cons, List.map_nil, List.flatten_cons, List.flatten_nil, List.append_nil,
      hf, Fin.val_zero, Fin.val_succ, Nat.mul_zero, Nat.pow_zero, Nat.mul_one]
    have hzero : (a :: l)[(0 : Fin (l.length + 1))] = a := rfl
    have hsucc : ∀ x : Fin l.length, (a :: l)[x.succ] = l[x] := fun _ => rfl
    simp only [hzero, hsucc, Nat.mul_succ, Nat.pow_add, Nat.mul_assoc]
    exact Nat.add_comm _ _

/-- Below `256 ^ k` the little-endian encoding is injective. -/
theorem toBytesLE_inj {k x y : Nat} (hx : x < 256 ^ k) (hy : y < 256 ^ k)
    (h : toBytesLE k x = toBytesLE k y) : x = y := by
  have := congrArg ofBytesLE h
  rwa [ofBytesLE_toBytesLE, ofBytesLE_toBytesLE, Nat.mod_eq_of_lt hx, Nat.mod_eq_of_lt hy]
    at this

/-- Below `256 ^ k` the big-endian encoding is injective. -/
theorem toBytesBE_inj {k x y : Nat} (hx : x < 256 ^ k) (hy : y < 256 ^ k)
    (h : toBytesBE k x = toBytesBE k y) : x = y :=
  toBytesLE_inj hx hy (List.reverse_inj.mp h)

/-- A fixed-width field at the head of two byte strings: equal strings have equal fields
modulo `256 ^ k`, and equal rests. -/
theorem toBytesBE_append_inj {k x y : Nat} {a b : List UInt8}
    (h : toBytesBE k x ++ a = toBytesBE k y ++ b) : x % 256 ^ k = y % 256 ^ k ∧ a = b := by
  obtain ⟨hxy, hab⟩ := List.append_inj h (by simp)
  refine ⟨?_, hab⟩
  have := congrArg ofBytesBE hxy
  rwa [ofBytesBE_toBytesBE, ofBytesBE_toBytesBE] at this

end MinBFT.Bytes
