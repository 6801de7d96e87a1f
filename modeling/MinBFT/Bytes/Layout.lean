import MinBFT.Bytes.Endian

/-!
# Integers in memory and in byte buffers

How an unsigned integer of `k` bytes is laid out: in the memory of a machine of a given byte
order, as a field of a C struct (`packedImage`), and in a Go `bytes.Buffer` by `binary.Write` and
`binary.Read` with `binary.LittleEndian` or `binary.BigEndian` (`binaryWrite`, `binaryRead`).
Both are `ByteOrder.encode`, so a struct and a buffer built field by field in one order hold the
same bytes.

## Results

* `ByteOrder.encode_length`, `ByteOrder.decode_encode`, `ByteOrder.encode_inj`: an encoding has
  `k` bytes, reads back modulo `256 ^ k`, and is injective below it.
* `binaryRead_encode_append`: `binary.Read` of an integer written in the same order gives it
  back, and the rest of the buffer.
* `packedImage_cons`: the memory of a packed struct is its fields, one after the other.
* `readTag_append`: a tag at the head of a buffer is read off, and the rest is left.
* `goCopy_of_length_eq`, `readerRead_of_le`: Go's `copy` between slices of one length copies
  everything, and `bytes.Reader.Read` with enough bytes left fills its buffer.

Nothing here is about a particular program.
-/

namespace MinBFT.Bytes

/-- The order of the bytes of an unsigned integer: least significant first, or most. -/
inductive ByteOrder where
  | little
  | big
  deriving DecidableEq, Repr

namespace ByteOrder

/-- The `k` bytes of `x % 256 ^ k` in this order. -/
def encode : ByteOrder → Nat → Nat → List UInt8
  | .little, k, x => toBytesLE k x
  | .big, k, x => toBytesBE k x

/-- A byte string read as a number in this order. -/
def decode : ByteOrder → List UInt8 → Nat
  | .little, bs => ofBytesLE bs
  | .big, bs => ofBytesBE bs

@[simp] theorem encode_length (o : ByteOrder) (k x : Nat) : (o.encode k x).length = k := by
  cases o <;> simp [encode]

theorem decode_encode (o : ByteOrder) (k x : Nat) : o.decode (o.encode k x) = x % 256 ^ k := by
  cases o with
  | little => exact ofBytesLE_toBytesLE k x
  | big => exact ofBytesBE_toBytesBE k x

/-- Below `256 ^ k` an encoding is injective. -/
theorem encode_inj (o : ByteOrder) {k x y : Nat} (hx : x < 256 ^ k) (hy : y < 256 ^ k)
    (h : o.encode k x = o.encode k y) : x = y := by
  have hdec := congrArg o.decode h
  rwa [decode_encode, decode_encode, Nat.mod_eq_of_lt hx, Nat.mod_eq_of_lt hy] at hdec

end ByteOrder

/-! ## C structs in memory -/

/-- A field of a C struct with its value: an array of bytes, or an unsigned integer of `k`
bytes. -/
inductive CField where
  | bytes (b : List UInt8)
  | uint (k x : Nat)

/-- The memory of a field on a machine of byte order `o`. -/
def CField.image (o : ByteOrder) : CField → List UInt8
  | .bytes b => b
  | .uint k x => o.encode k x

/-- The memory of a struct declared `__attribute__((__packed__))` on a machine of byte order `o`:
its fields in declaration order, with no padding between them. -/
def packedImage (o : ByteOrder) (fields : List CField) : List UInt8 :=
  (fields.map (CField.image o)).flatten

@[simp] theorem packedImage_nil (o : ByteOrder) : packedImage o [] = [] := rfl

@[simp] theorem packedImage_cons (o : ByteOrder) (f : CField) (fields : List CField) :
    packedImage o (f :: fields) = f.image o ++ packedImage o fields := rfl

@[simp] theorem CField.image_bytes (o : ByteOrder) (b : List UInt8) : (CField.bytes b).image o = b :=
  rfl

@[simp] theorem CField.image_uint (o : ByteOrder) (k x : Nat) :
    (CField.uint k x).image o = o.encode k x := rfl

/-! ## Go byte buffers -/

/-- `binary.Write(buf, o, x)` of an unsigned integer of `k` bytes on a `bytes.Buffer` that holds
`buf`. -/
def binaryWrite (o : ByteOrder) (k : Nat) (buf : List UInt8) (x : Nat) : List UInt8 :=
  buf ++ o.encode k x

/-- `binary.Read(buf, o, &x)` into an unsigned integer of `k` bytes: the value and what is left of
the buffer, or, with fewer than `k` bytes, the error of `io.ReadFull`: `EOF` on an empty buffer,
`unexpected EOF` on a short one. -/
def binaryRead (o : ByteOrder) (k : Nat) (buf : List UInt8) : Except String (Nat × List UInt8) :=
  if buf.length < k then .error (if buf = [] then "EOF" else "unexpected EOF")
  else .ok (o.decode (buf.take k), buf.drop k)

/-- What `binary.Write` put at the head of a buffer, `binary.Read` in the same order reads back. -/
theorem binaryRead_encode_append (o : ByteOrder) (k x : Nat) (rest : List UInt8) :
    binaryRead o k (o.encode k x ++ rest) = .ok (x % 256 ^ k, rest) := by
  have hlen := o.encode_length k x
  have htake : (o.encode k x ++ rest).take k = o.encode k x := List.take_left' hlen
  have hdrop : (o.encode k x ++ rest).drop k = rest := List.drop_left' hlen
  simp [binaryRead, hlen, htake, hdrop, ByteOrder.decode_encode]

@[simp] theorem ByteOrder.encode_big (k x : Nat) : ByteOrder.big.encode k x = toBytesBE k x := rfl

@[simp] theorem binaryRead_toBytesBE_append (k x : Nat) (rest : List UInt8) :
    binaryRead .big k (toBytesBE k x ++ rest) = .ok (x % 256 ^ k, rest) :=
  binaryRead_encode_append .big k x rest

/-- The rest of a buffer after the bytes `tag`, when the buffer starts with them. -/
def readTag (tag buf : List UInt8) : Option (List UInt8) :=
  if buf.take tag.length = tag then some (buf.drop tag.length) else none

@[simp] theorem readTag_append (tag rest : List UInt8) : readTag tag (tag ++ rest) = some rest := by
  simp [readTag]

/-! ## Go slices, readers and hashes -/

section Slices

variable {α : Type}

/-- `copy(dst, src)`: `dst` with its first `min(len(dst), len(src))` elements replaced by those of
`src`. -/
def goCopy (dst src : List α) : List α := src.take dst.length ++ dst.drop src.length

@[simp] theorem length_goCopy (dst src : List α) : (goCopy dst src).length = dst.length := by
  simp only [goCopy, List.length_append, List.length_take, List.length_drop]
  omega

@[simp] theorem goCopy_nil (src : List α) : goCopy [] src = [] := by
  simp [goCopy]

@[simp] theorem goCopy_nil_right (dst : List α) : goCopy dst [] = dst := by
  simp [goCopy]

/-- A copy between slices of one length copies every element. -/
theorem goCopy_of_length_eq {dst src : List α} (h : dst.length = src.length) :
    goCopy dst src = src := by
  simp [goCopy, h]

end Slices

/-- `r.Read(p)` of a `bytes.Reader` that holds `r`, into a buffer `p` of `n` zero bytes: the
buffer, the count read, the bytes left and the error. A reader with nothing left reads nothing and
returns `io.EOF`; otherwise it reads as many bytes as fit, and no error. -/
def readerRead (n : Nat) (r : List UInt8) : List UInt8 × Nat × List UInt8 × Option String :=
  if r = [] then (List.replicate n 0, 0, [], some "EOF")
  else (goCopy (List.replicate n 0) r, min n r.length, r.drop n, none)

/-- With at least `n > 0` bytes left, `Read` fills its buffer. -/
theorem readerRead_of_le {n : Nat} {r : List UInt8} (hn : 0 < n) (h : n ≤ r.length) :
    readerRead n r = (r.take n, n, r.drop n, none) := by
  have hr : r ≠ [] := List.ne_nil_of_length_pos (by omega)
  have hzero : n - r.length = 0 := by omega
  simp [readerRead, hr, goCopy, Nat.min_eq_left h, hzero]

/-- A `hash.Hash` of a hash function: the bytes written to it so far. -/
structure HashState where
  written : List UInt8 := []

/-- `Write(b)`, which never fails. -/
def HashState.write (d : HashState) (b : List UInt8) : HashState := ⟨d.written ++ b⟩

/-- `Sum(b)` of a hash state of the function `h`: `b` with the hash of what was written appended.
`b` itself is not hashed. -/
def HashState.sum (h : List UInt8 → List UInt8) (d : HashState) (b : List UInt8) : List UInt8 :=
  b ++ h d.written

end MinBFT.Bytes
