import MinBFT.Bytes.Endian
import MinBFT.Messages.Protobuf
import MinBFT.System.Outcome

/-!
# SGX's signatures and public keys in Go

Model of the conversions `usig/sgx/usig-enclave.go` makes from SGX's `sgx_ec256_signature_t` and
`sgx_ec256_public_t` to Go values: `sgxEC256SigToASN1`, `sgxEC256PubKeyToGo`,
`sgxUint32SliceToBigInt` and `sgxUint8SliceToBigInt`.

* SGX stores an integer as limbs, the least significant limb first: 32-bit words for the
  signature's `x` and `y`, bytes for the key's `gx` and `gy`. Both conversions loop over the limbs
  from the last to the first, append the bytes of each limb most significant first, and hand the
  result to `big.Int.SetBytes`, which reads it big-endian (`ofBytesBE`). The two loops differ only
  in the bytes of one limb, so both are `limbsToBigInt`, with `wordBytes` and with a single byte.
* Go's arrays are lists here; the code does the same for every length, and so do the results.
* `asn1.Marshal` of `struct{ R, S *big.Int }` is a parameter, and its error is the panic that
  follows it. A Go public key is its point `(X, Y)`; its curve is always `elliptic.P256()`.

## Results

* `limbsToBigInt_eq_sum`: when each limb has `k` bytes, the loop reads the limb `i` with the
  weight `256 ^ (k * i)`.
* `sgxBigInt_limbs`: `sgxUint32SliceToBigInt w` is the sum of `w[i] * 2 ^ (32 * i)` and
  `sgxUint8SliceToBigInt a` the sum of `a[i] * 2 ^ (8 * i)`: the signature's `R` and `S` and the
  key's `X` and `Y` are the integers SGX's limbs stand for.
-/

namespace MinBFT.Usig

open MinBFT.Bytes MinBFT.System MinBFT.Messages

/-- `sgx_ec256_signature_t`: `x` and `y` as 32-bit words, the least significant first. -/
structure SgxEc256Signature where
  x : List UInt32
  y : List UInt32

/-- `sgx_ec256_public_t`: `gx` and `gy` as bytes, the least significant first. -/
structure SgxEc256Public where
  gx : List UInt8
  gy : List UInt8

/-- `ecdsa.PublicKey` on `elliptic.P256()`: its point `(X, Y)`. -/
structure EcdsaPublicKey where
  x : Nat
  y : Nat
  deriving DecidableEq, Repr

variable {α : Type}

/-- The loop `for i := len(sgxArr); i > 0; i-- { … sgxArr[i-1] … }` from `i`: the bytes
`bytesOf` gives each limb are appended to `bytes`. -/
def appendLimbs (bytesOf : α → Bytes) (sgxArr : List α) :
    (i : Nat) → i ≤ sgxArr.length → Bytes → Bytes
  | 0, _, bytes => bytes
  | i + 1, h, bytes =>
    appendLimbs bytesOf sgxArr i (Nat.le_of_succ_le h) (bytes ++ bytesOf sgxArr[i])

/-- An array of limbs to a `big.Int`: the loop over every limb, from `make([]byte, 0, …)`, then
`new(big.Int).SetBytes(bytes)`. -/
def limbsToBigInt (bytesOf : α → Bytes) (sgxArr : List α) : Nat :=
  ofBytesBE (appendLimbs bytesOf sgxArr sgxArr.length le_rfl [])

/-- The bytes `sgxUint32SliceToBigInt` appends for a word `w`: `byte(w>>(3*8))`, `byte(w>>(2*8))`,
`byte(w>>(1*8))`, `byte(w>>(0*8))`. -/
def wordBytes (w : UInt32) : Bytes :=
  [(w >>> (3 * 8)).toUInt8, (w >>> (2 * 8)).toUInt8, (w >>> (1 * 8)).toUInt8,
    (w >>> (0 * 8)).toUInt8]

/-- `sgxUint32SliceToBigInt`. -/
def sgxUint32SliceToBigInt (sgxArr : List UInt32) : Nat := limbsToBigInt wordBytes sgxArr

/-- `sgxUint8SliceToBigInt`. -/
def sgxUint8SliceToBigInt (sgxArr : List UInt8) : Nat := limbsToBigInt (fun b => [b]) sgxArr

/-- `sgxEC256SigToASN1`, over `asn1.Marshal` of `(R, S)`. -/
def sgxEC256SigToASN1 (asn1Marshal : Nat → Nat → Except String Bytes)
    (sgxSig : SgxEc256Signature) : Outcome Bytes :=
  let r := sgxUint32SliceToBigInt sgxSig.x
  let s := sgxUint32SliceToBigInt sgxSig.y
  match asn1Marshal r s with
  | .ok ret => .ok ret
  | .error err => .panic err

/-- `sgxEC256PubKeyToGo`. -/
def sgxEC256PubKeyToGo (sgxPubKey : SgxEc256Public) : EcdsaPublicKey :=
  ⟨sgxUint8SliceToBigInt sgxPubKey.gx, sgxUint8SliceToBigInt sgxPubKey.gy⟩

/-! ## The loop -/

/-- From `i` the loop appends the first `i` limbs, the last of them first. -/
theorem appendLimbs_eq (bytesOf : α → Bytes) (sgxArr : List α) :
    ∀ i (h : i ≤ sgxArr.length) (bytes : Bytes),
      appendLimbs bytesOf sgxArr i h bytes = bytes ++ ((sgxArr.take i).reverse.map bytesOf).flatten
  | 0, _, bytes => by simp [appendLimbs]
  | i + 1, h, bytes => by
    have htake : sgxArr.take (i + 1) = sgxArr.take i ++ [sgxArr[i]] := by
      rw [List.take_add_one, List.getElem?_eq_getElem (Nat.lt_of_succ_le h), Option.toList_some]
    rw [appendLimbs, appendLimbs_eq bytesOf sgxArr i _ _, htake]
    simp only [List.reverse_append, List.reverse_cons, List.reverse_nil, List.nil_append,
      List.singleton_append, List.map_cons, List.flatten_cons, List.append_assoc]

/-- When each limb has `k` bytes, the limb `i` has the weight `256 ^ (k * i)`. -/
theorem limbsToBigInt_eq_sum (bytesOf : α → Bytes) {k : Nat} (hk : ∀ a, (bytesOf a).length = k)
    (sgxArr : List α) :
    limbsToBigInt bytesOf sgxArr =
      ∑ i : Fin sgxArr.length, ofBytesBE (bytesOf (sgxArr.get i)) * 256 ^ (k * i) := by
  rw [limbsToBigInt, appendLimbs_eq, List.nil_append, List.take_length,
    ofBytesBE_flatten_map_reverse bytesOf hk]
  rfl

/-- A word's four bytes read back as the word. -/
theorem ofBytesBE_wordBytes (w : UInt32) : ofBytesBE (wordBytes w) = w.toNat := by
  have hw := w.toNat_lt
  have h0 : (0 * 8 : UInt32).toNat % 32 = 0 := rfl
  have h1 : (1 * 8 : UInt32).toNat % 32 = 8 := rfl
  have h2 : (2 * 8 : UInt32).toNat % 32 = 16 := rfl
  have h3 : (3 * 8 : UInt32).toNat % 32 = 24 := rfl
  simp only [wordBytes, ofBytesBE, List.reverse_cons, List.reverse_nil, List.nil_append,
    List.cons_append, ofBytesLE, UInt32.toNat_toUInt8, UInt32.toNat_shiftRight,
    Nat.shiftRight_eq_div_pow, h0, h1, h2, h3, Nat.reducePow] at hw ⊢
  -- the bytes are `w / 256 ^ j % 256` for `j = 0, 1, 2, 3`, and `w < 2 ^ 32`
  omega

/-! ## Main result -/

/-- **SGX's limbs, read in Go.** The words of a `uint32_t` array stand for the sum of
`w[i] * 2 ^ (32 * i)`, the bytes of a `uint8_t` array for the sum of `a[i] * 2 ^ (8 * i)`, and
these are the integers `sgxEC256SigToASN1` encodes as `R` and `S` and `sgxEC256PubKeyToGo` makes
the key's `X` and `Y`. -/
theorem sgxBigInt_limbs :
    (∀ w : List UInt32,
      sgxUint32SliceToBigInt w = ∑ i : Fin w.length, w[i].toNat * 2 ^ (32 * (i : Nat))) ∧
    (∀ a : List UInt8,
      sgxUint8SliceToBigInt a = ∑ i : Fin a.length, a[i].toNat * 2 ^ (8 * (i : Nat))) ∧
    (∀ (asn1Marshal : Nat → Nat → Except String Bytes) (sgxSig : SgxEc256Signature),
      sgxEC256SigToASN1 asn1Marshal sgxSig =
        match asn1Marshal (∑ i : Fin sgxSig.x.length, sgxSig.x[i].toNat * 2 ^ (32 * (i : Nat)))
            (∑ i : Fin sgxSig.y.length, sgxSig.y[i].toNat * 2 ^ (32 * (i : Nat))) with
        | .ok ret => .ok ret
        | .error err => .panic err) ∧
    (∀ sgxPubKey : SgxEc256Public, sgxEC256PubKeyToGo sgxPubKey =
      ⟨∑ i : Fin sgxPubKey.gx.length, sgxPubKey.gx[i].toNat * 2 ^ (8 * (i : Nat)),
        ∑ i : Fin sgxPubKey.gy.length, sgxPubKey.gy[i].toNat * 2 ^ (8 * (i : Nat))⟩) := by
  have hwords : ∀ w : List UInt32,
      sgxUint32SliceToBigInt w = ∑ i : Fin w.length, w[i].toNat * 2 ^ (32 * (i : Nat)) := by
    intro w
    rw [sgxUint32SliceToBigInt, limbsToBigInt_eq_sum wordBytes (k := 4) fun _ => rfl]
    refine Finset.sum_congr rfl fun i _ => ?_
    rw [ofBytesBE_wordBytes, pow_mul, pow_mul]
    rfl
  have hbytes : ∀ a : List UInt8,
      sgxUint8SliceToBigInt a = ∑ i : Fin a.length, a[i].toNat * 2 ^ (8 * (i : Nat)) := by
    intro a
    rw [sgxUint8SliceToBigInt, limbsToBigInt_eq_sum (fun b => [b]) (k := 1) fun _ => rfl]
    refine Finset.sum_congr rfl fun i _ => ?_
    rw [pow_mul, pow_mul]
    simp [ofBytesBE, ofBytesLE]
  refine ⟨hwords, hbytes, fun asn1Marshal sgxSig => ?_, fun sgxPubKey => ?_⟩
  · rw [sgxEC256SigToASN1, hwords, hwords]
  · rw [sgxEC256PubKeyToGo, hbytes, hbytes]

/-- The first word is the least significant one, and each word keeps its own bytes in order. -/
example : sgxUint32SliceToBigInt [0x01020304, 5] = 5 * 2 ^ 32 + 0x01020304 := by decide

end MinBFT.Usig
