import MinBFT.Bytes.Layout
import MinBFT.Messages.Protobuf

/-!
# The authenticated bytes of a message

Model of `AuthenBytes` and `writeAuthenBytes` (`messages/authen.go`): a type tag, then the
message's authenticated fields, nested messages written recursively.

* `binary.Write(buf, binary.BigEndian, x)` writes a `uint64` as 8 and a `uint32` as 4 big-endian
  bytes (`toBytesBE`).
* `hashsum` is SHA-256, a parameter `sha256` of every definition here.
* The tags are ASCII, whose UTF-8 bytes are the character codes (`asciiBytes`).
* A Commit writes its Prepare's UI bytes, read with `UIBytes()`, which dereferences the Prepare's
  pointer: `authenBytes` is `none` for the panic on a Commit without a Prepare. Every other field
  is read through a nil-safe getter.

What the bytes are for is said by `authenContent`: the type of a message and the fields it
covers. `AuthenContent.decode` reads them back, which makes the encoding injective.

## Results

* `authenBytes_eq_encode`: `AuthenBytes` is the encoding of the covered content.
* `AuthenContent.decode_encode`: the covered content is read back from its encoding, when its
  integers fit their Go types and a Commit's hash has the 32 bytes of SHA-256.
* `authenBytes_eq_iff`: two messages have the same authenticated bytes exactly when they have the
  same type and agree on every covered field.
-/

namespace MinBFT.Messages

open MinBFT.Bytes

/-- `[]byte(s)` for an ASCII string. -/
def asciiBytes (s : String) : Bytes := s.toList.map fun c => c.toNat.toUInt8

section

variable (sha256 : Bytes → Bytes)

/-- `writeAuthenBytes` of a Request: its sequence and the hash of its operation. -/
def Request.writeAuthenBytes (m : Request) : Bytes :=
  toBytesBE 8 m.sequence ++ sha256 m.operation

/-- `writeAuthenBytes` of a Reply: client, sequence and the hash of the result. -/
def Reply.writeAuthenBytes (m : Reply) : Bytes :=
  toBytesBE 4 m.clientID ++ toBytesBE 8 m.sequence ++ sha256 m.result

/-- `writeAuthenBytes` of a Prepare: view, the Request's client, then the Request. -/
def Prepare.writeAuthenBytes (m : Prepare) : Bytes :=
  toBytesBE 8 m.view ++ toBytesBE 4 m.request.clientID ++ m.request.writeAuthenBytes sha256

/-- `writeAuthenBytes` of a Commit: the Prepare's replica, the Prepare, and its UI bytes. -/
def Commit.writeAuthenBytes (m : Commit) : Option Bytes :=
  m.prepare.uiBytes.map fun ui =>
    toBytesBE 4 m.prepare.replicaID ++ m.prepare.writeAuthenBytes sha256 ++ ui

/-- `writeAuthenBytes` of a ReqViewChange: the new view. -/
def ReqViewChange.writeAuthenBytes (m : ReqViewChange) : Bytes :=
  toBytesBE 8 m.newView

/-- `AuthenBytes(m)`; `none` is the panic of a Commit without its Prepare. -/
def authenBytes : Message → Option Bytes
  | .request m => some (asciiBytes "REQUEST" ++ m.writeAuthenBytes sha256)
  | .reply m => some (asciiBytes "REPLY" ++ m.writeAuthenBytes sha256)
  | .prepare m => some (asciiBytes "PREPARE" ++ m.writeAuthenBytes sha256)
  | .commit m => (m.writeAuthenBytes sha256).map (asciiBytes "COMMIT" ++ ·)
  | .reqViewChange m => some (asciiBytes "REQ-VIEW-CHANGE" ++ m.writeAuthenBytes)

/-- Only a Commit without a Prepare has no authenticated bytes. -/
theorem authenBytes_eq_none_iff (m : Message) :
    authenBytes sha256 m = none ↔ ∃ c : Commit, m = .commit c ∧ c.prepare.uiBytes = none := by
  cases m with
  | commit c =>
    simp only [authenBytes, Commit.writeAuthenBytes, Option.map_eq_none_iff, Message.commit.injEq,
      exists_eq_left']
  | _ => simp [authenBytes]

/-! ## What the authenticated bytes determine -/

/-- The authenticated bytes of a Prepare determine its view and its Request's client and
sequence, when they fit their types. -/
theorem authenBytes_prepare_inj {p p' : Prepare} (hp : p.InRange) (hp' : p'.InRange)
    (h : authenBytes sha256 (.prepare p) = authenBytes sha256 (.prepare p')) :
    p.view = p'.view ∧ p.request.clientID = p'.request.clientID ∧
      p.request.sequence = p'.request.sequence := by
  simp only [authenBytes, Option.some.injEq, List.append_cancel_left_eq,
    Prepare.writeAuthenBytes, Request.writeAuthenBytes, List.append_assoc] at h
  obtain ⟨hv, h⟩ := toBytesBE_append_inj h
  obtain ⟨hc, h⟩ := toBytesBE_append_inj h
  obtain ⟨hs, -⟩ := toBytesBE_append_inj h
  obtain ⟨hpv, hpc, hps⟩ := hp
  obtain ⟨hpv', hpc', hps'⟩ := hp'
  refine ⟨?_, ?_, ?_⟩
  · rwa [Nat.mod_eq_of_lt (by simpa using hpv), Nat.mod_eq_of_lt (by simpa using hpv')] at hv
  · rwa [Nat.mod_eq_of_lt (by simpa using hpc), Nat.mod_eq_of_lt (by simpa using hpc')] at hc
  · rwa [Nat.mod_eq_of_lt (by simpa using hps), Nat.mod_eq_of_lt (by simpa using hps')] at hs

/-- A Commit and a Prepare never have the same authenticated bytes: their tags differ. -/
theorem authenBytes_commit_ne_prepare (c : Commit) (p : Prepare) :
    authenBytes sha256 (.commit c) ≠ authenBytes sha256 (.prepare p) := by
  simp only [authenBytes, Commit.writeAuthenBytes]
  cases c.prepare.uiBytes with
  | none => simp
  | some ui => simp [asciiBytes]

end

/-! ## The covered content -/

/-- What `AuthenBytes` covers of a message: its type, and the fields of that type it writes, with
the SHA-256 of an operation or a result in place of it. -/
inductive AuthenContent where
  | request (sequence : Nat) (operationHash : Bytes)
  | reply (clientID sequence : Nat) (resultHash : Bytes)
  | prepare (view clientID sequence : Nat) (operationHash : Bytes)
  | commit (replicaID view clientID sequence : Nat) (operationHash uiBytes : Bytes)
  | reqViewChange (newView : Nat)
  deriving DecidableEq, Repr

namespace AuthenContent

/-- The covered content in the layout of `AuthenBytes`: the type's tag, then the fields. -/
def encode : AuthenContent → Bytes
  | .request s h => asciiBytes "REQUEST" ++ toBytesBE 8 s ++ h
  | .reply c s h => asciiBytes "REPLY" ++ toBytesBE 4 c ++ toBytesBE 8 s ++ h
  | .prepare v c s h =>
    asciiBytes "PREPARE" ++ toBytesBE 8 v ++ toBytesBE 4 c ++ toBytesBE 8 s ++ h
  | .commit r v c s h ui =>
    asciiBytes "COMMIT" ++ toBytesBE 4 r ++ toBytesBE 8 v ++ toBytesBE 4 c ++ toBytesBE 8 s ++ h ++ ui
  | .reqViewChange nv => asciiBytes "REQ-VIEW-CHANGE" ++ toBytesBE 8 nv

/-- An unsigned big-endian integer of `k` bytes at the head of a buffer, and the rest. -/
def readBE (k : Nat) (buf : Bytes) : Option (Nat × Bytes) := (binaryRead .big k buf).toOption

@[simp] theorem readBE_toBytesBE_append (k x : Nat) (rest : Bytes) :
    readBE k (toBytesBE k x ++ rest) = some (x % 256 ^ k, rest) := by
  simp only [readBE, binaryRead_toBytesBE_append]
  rfl

@[simp] theorem readBE_toBytesBE (k x : Nat) : readBE k (toBytesBE k x) = some (x % 256 ^ k, []) := by
  simpa using readBE_toBytesBE_append k x []

/-- An integer below `256 ^ k` is read back as it is. -/
theorem readBE_toBytesBE_append_of_lt {k x : Nat} (hx : x < 256 ^ k) (rest : Bytes) :
    readBE k (toBytesBE k x ++ rest) = some (x, rest) := by
  rw [readBE_toBytesBE_append, Nat.mod_eq_of_lt hx]

/-- Reads covered content back: the tag the bytes start with, then the integers of that type one
by one, and the hash, which ends the bytes except in a Commit, whose hash has 32 bytes and is
followed by the UI. -/
def decode (b : Bytes) : Option AuthenContent :=
  match readTag (asciiBytes "REQUEST") b, readTag (asciiBytes "REPLY") b,
      readTag (asciiBytes "PREPARE") b, readTag (asciiBytes "COMMIT") b,
      readTag (asciiBytes "REQ-VIEW-CHANGE") b with
  | some b, _, _, _, _ => do
    let (s, h) ← readBE 8 b
    pure (.request s h)
  | none, some b, _, _, _ => do
    let (c, b) ← readBE 4 b
    let (s, h) ← readBE 8 b
    pure (.reply c s h)
  | none, none, some b, _, _ => do
    let (v, b) ← readBE 8 b
    let (c, b) ← readBE 4 b
    let (s, h) ← readBE 8 b
    pure (.prepare v c s h)
  | none, none, none, some b, _ => do
    let (r, b) ← readBE 4 b
    let (v, b) ← readBE 8 b
    let (c, b) ← readBE 4 b
    let (s, b) ← readBE 8 b
    pure (.commit r v c s (b.take 32) (b.drop 32))
  | none, none, none, none, some b => do
    let (nv, _) ← readBE 8 b
    pure (.reqViewChange nv)
  | none, none, none, none, none => none

/-- The integers of the content fit their Go types, and a Commit's hash has 32 bytes. -/
def Fits : AuthenContent → Prop
  | .request s _ => s < 2 ^ 64
  | .reply c s _ => c < 2 ^ 32 ∧ s < 2 ^ 64
  | .prepare v c s _ => v < 2 ^ 64 ∧ c < 2 ^ 32 ∧ s < 2 ^ 64
  | .commit r v c s h _ => r < 2 ^ 32 ∧ v < 2 ^ 64 ∧ c < 2 ^ 32 ∧ s < 2 ^ 64 ∧ h.length = 32
  | .reqViewChange nv => nv < 2 ^ 64

/-- **The round trip**: content that fits is read back from its encoding. -/
theorem decode_encode {a : AuthenContent} (ha : a.Fits) : decode a.encode = some a := by
  cases a with
  | request s h =>
    have hs : s < 256 ^ 8 := ha
    simp [decode, encode, readTag, readBE_toBytesBE_append_of_lt hs, -readBE_toBytesBE_append]
  | reply c s h =>
    obtain ⟨hc, hs⟩ := ha
    have hc' : c < 256 ^ 4 := hc
    have hs' : s < 256 ^ 8 := hs
    simp [decode, encode, readTag, asciiBytes, readBE_toBytesBE_append_of_lt hc',
      readBE_toBytesBE_append_of_lt hs', -readBE_toBytesBE_append]
  | prepare v c s h =>
    obtain ⟨hv, hc, hs⟩ := ha
    have hv' : v < 256 ^ 8 := hv
    have hc' : c < 256 ^ 4 := hc
    have hs' : s < 256 ^ 8 := hs
    simp [decode, encode, readTag, asciiBytes, readBE_toBytesBE_append_of_lt hv',
      readBE_toBytesBE_append_of_lt hc', readBE_toBytesBE_append_of_lt hs',
      -readBE_toBytesBE_append]
  | commit r v c s h ui =>
    obtain ⟨hr, hv, hc, hs, hh⟩ := ha
    have hr' : r < 256 ^ 4 := hr
    have hv' : v < 256 ^ 8 := hv
    have hc' : c < 256 ^ 4 := hc
    have hs' : s < 256 ^ 8 := hs
    simp [decode, encode, readTag, asciiBytes, readBE_toBytesBE_append_of_lt hr',
      readBE_toBytesBE_append_of_lt hv', readBE_toBytesBE_append_of_lt hc',
      readBE_toBytesBE_append_of_lt hs', List.take_left' hh, List.drop_left' hh,
      -readBE_toBytesBE_append]
  | reqViewChange nv =>
    have hnv : nv < 256 ^ 8 := ha
    have hread := readBE_toBytesBE_append_of_lt hnv []
    rw [List.append_nil] at hread
    simp [decode, encode, readTag, asciiBytes, hread, -readBE_toBytesBE]

/-- Content that fits is determined by its encoding. -/
theorem encode_inj {a b : AuthenContent} (ha : a.Fits) (hb : b.Fits) (h : a.encode = b.encode) :
    a = b := by
  have hdec : decode a.encode = decode b.encode := by rw [h]
  rw [decode_encode ha, decode_encode hb] at hdec
  exact Option.some.inj hdec

end AuthenContent

/-- The fields `AuthenBytes` writes fit their Go types: `uint32` for a client or replica, `uint64`
for a sequence or view. Every message a Go program holds satisfies it. -/
def Message.AuthenInRange : Message → Prop
  | .request m => m.InRange
  | .reply m => m.clientID < 2 ^ 32 ∧ m.sequence < 2 ^ 64
  | .prepare m => m.InRange
  | .commit m => m.prepare.replicaID < 2 ^ 32 ∧ m.prepare.InRange
  | .reqViewChange m => m.newView < 2 ^ 64

section

variable (sha256 : Bytes → Bytes)

/-- What the authenticated bytes of a message cover: a Request its sequence and the hash of its
operation; a Reply its client, its sequence and the hash of its result; a Prepare its view, its
Request's client and the Request's covered fields; a Commit its Prepare's replica, the Prepare's
covered fields and the Prepare's UI bytes; a ReqViewChange its new view. A Commit without a
Prepare has none, as `AuthenBytes` panics on it. -/
def authenContent : Message → Option AuthenContent
  | .request m => some (.request m.sequence (sha256 m.operation))
  | .reply m => some (.reply m.clientID m.sequence (sha256 m.result))
  | .prepare m =>
    some (.prepare m.view m.request.clientID m.request.sequence (sha256 m.request.operation))
  | .commit m =>
    m.prepare.uiBytes.map fun ui =>
      .commit m.prepare.replicaID m.prepare.view m.prepare.request.clientID
        m.prepare.request.sequence (sha256 m.prepare.request.operation) ui
  | .reqViewChange m => some (.reqViewChange m.newView)

/-- `AuthenBytes` is the encoding of the covered content. -/
theorem authenBytes_eq_encode (m : Message) :
    authenBytes sha256 m = (authenContent sha256 m).map AuthenContent.encode := by
  cases m with
  | commit c =>
    cases h : c.prepare.uiBytes <;>
      simp [authenBytes, authenContent, Commit.writeAuthenBytes, Prepare.writeAuthenBytes,
        Request.writeAuthenBytes, AuthenContent.encode, h]
  | _ =>
    simp [authenBytes, authenContent, Request.writeAuthenBytes, Reply.writeAuthenBytes,
      Prepare.writeAuthenBytes, ReqViewChange.writeAuthenBytes, AuthenContent.encode]

/-- The covered content of a message whose fields fit their types fits, when SHA-256 makes
32 bytes. -/
theorem authenContent_fits (hlen : ∀ b, (sha256 b).length = 32) {m : Message}
    (hm : m.AuthenInRange) {a : AuthenContent} (ha : authenContent sha256 m = some a) : a.Fits := by
  cases m with
  | request r =>
    cases ha
    exact hm.2
  | reply r =>
    cases ha
    exact hm
  | prepare p =>
    cases ha
    exact ⟨hm.1, hm.2.1, hm.2.2⟩
  | commit c =>
    obtain ⟨ui, -, rfl⟩ := Option.map_eq_some_iff.mp ha
    exact ⟨hm.1, hm.2.1, hm.2.2.1, hm.2.2.2, hlen _⟩
  | reqViewChange v =>
    cases ha
    exact hm

/-- **`AuthenBytes` is injective on authenticated content**: two messages whose fields fit their
types have the same authenticated bytes exactly when they are of one type and agree on every
field it covers, SHA-256 being any function with 32-byte values. -/
theorem authenBytes_eq_iff (hlen : ∀ b, (sha256 b).length = 32) {m₁ m₂ : Message}
    (h₁ : m₁.AuthenInRange) (h₂ : m₂.AuthenInRange) :
    authenBytes sha256 m₁ = authenBytes sha256 m₂ ↔
      authenContent sha256 m₁ = authenContent sha256 m₂ := by
  rw [authenBytes_eq_encode, authenBytes_eq_encode]
  constructor
  · intro h
    cases ha₁ : authenContent sha256 m₁ with
    | none =>
      cases ha₂ : authenContent sha256 m₂ with
      | none => rfl
      | some a₂ => simp [ha₁, ha₂] at h
    | some a₁ =>
      cases ha₂ : authenContent sha256 m₂ with
      | none => simp [ha₁, ha₂] at h
      | some a₂ =>
        simp only [ha₁, ha₂, Option.map_some, Option.some.injEq] at h
        rw [AuthenContent.encode_inj (authenContent_fits sha256 hlen h₁ ha₁)
          (authenContent_fits sha256 hlen h₂ ha₂) h]
  · intro h
    rw [h]

/-- Two Requests that differ in their operation, under a stand-in for SHA-256 that keeps the last
32 bytes of its input. -/
theorem authenBytes_eq_iff_twoRequests :
    (∀ b, (toBytesBE 32 (ofBytesBE b)).length = 32) ∧
    (Message.request (newRequest 1 2 [3])).AuthenInRange ∧
    (Message.request (newRequest 1 2 [4])).AuthenInRange ∧
    (authenBytes (fun b => toBytesBE 32 (ofBytesBE b)) (.request (newRequest 1 2 [3])) =
        authenBytes (fun b => toBytesBE 32 (ofBytesBE b)) (.request (newRequest 1 2 [4])) ↔
      authenContent (fun b => toBytesBE 32 (ofBytesBE b)) (.request (newRequest 1 2 [3])) =
        authenContent (fun b => toBytesBE 32 (ofBytesBE b)) (.request (newRequest 1 2 [4]))) :=
  have hlen : ∀ b, (toBytesBE 32 (ofBytesBE b)).length = 32 := fun b => length_toBytesBE 32 _
  have h₁ : (Message.request (newRequest 1 2 [3])).AuthenInRange := ⟨by decide, by decide⟩
  have h₂ : (Message.request (newRequest 1 2 [4])).AuthenInRange := ⟨by decide, by decide⟩
  ⟨hlen, h₁, h₂, authenBytes_eq_iff _ hlen h₁ h₂⟩

end

end MinBFT.Messages
