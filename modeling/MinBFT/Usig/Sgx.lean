import MinBFT.Bytes.Layout
import MinBFT.Usig.UI
import MinBFT.System.Outcome
import MinBFT.System.Reach

/-!
# The SGX USIG

The USIG of `usig/sgx`: the enclave (`enclave/usig.c`), which keeps a key pair, an epoch and a
counter and signs `usig_cert_data_t`, and its Go side (`usig-enclave.go`, `sgx-usig.go`), which
wraps the signatures in certificates and verifies them. The two sides are written in two
languages: the enclave signs the memory of a packed C struct on the little-endian SGX target, the
verifier hashes a buffer it builds with `binary.Write` in `binary.LittleEndian`, and the
certificate and the identity carry the epoch in `binary.BigEndian`.

What the code takes from outside `src/` is a parameter (`SgxCrypto`): SHA-256, the SGX key and
signing calls, `sgxEC256SigToASN1` with Go's `asn1.Unmarshal`, `ecdsa.Verify`, and the PKIX
encoding of public keys. `SgxCrypto.Sound` names what is assumed of them.

Each `USIG` has an enclave of its own: `usig_init` of the shim creates a new enclave before it
calls `ecall_usig_init`, so the statics of `usig.c` start afresh for each (`Enclave.new`). The
lock `ecallLock` makes each ecall one atomic step.

## Results

* `usigCertData_eq_verifyBuffer`: the bytes `ecall_usig_create_ui` signs are the bytes
  `VerifySignature` hashes, the digest, then the epoch and the counter in 8 little-endian bytes.
* `usigOk_inductive`: in every run the USIG's enclave is initialised, and the Go `epoch` is the
  enclave's `usig_epoch`.
* `createUI_verifyUI`: a UI `CreateUI` makes passes `VerifyUI` under the USIG's `ID()`, with the
  enclave's epoch in its certificate, and the same certificate with another epoch or counter
  fails it.
-/

namespace MinBFT.Usig

open MinBFT.Bytes MinBFT.System MinBFT.Messages

/-- `sgx_sha256_hash_t`, and Go's `[sha256.Size]byte`: 32 bytes. -/
abbrev Digest := {b : Bytes // b.length = 32}

/-- A public key as `x509.ParsePKIXPublicKey` returns it: an ECDSA key, or a key of another
kind. -/
inductive GoPubKey (Pub : Type) where
  | ecdsa (k : Pub)
  | other

/-- What the USIG takes from outside `src/`: `Priv` is an SGX key pair, `Pub` a Go
`*ecdsa.PublicKey` and `Sig` a signature `(R, S)`. -/
structure SgxCrypto (Priv Pub Sig : Type) where
  /-- `sha256.Sum256`. -/
  sum256 : Bytes → Digest
  /-- The key pair the statics `usig_priv_key` and `usig_pub_key` hold before `ecall_usig_init`. -/
  zeroKey : Priv
  /-- `unseal_key` of sealed data: the key pair, or the SGX status of its failure. -/
  unsealKey : Bytes → Except Nat Priv
  /-- `sgx_ecdsa_sign` of a byte string, in a new ECC context: the signature, or an SGX status. -/
  sgxSign : Priv → Bytes → Except Nat Sig
  /-- The public half of a key pair, as `sgxEC256PubKeyToGo` makes it. -/
  pubOf : Priv → Pub
  /-- `sgxEC256SigToASN1`. -/
  toASN1 : Sig → Bytes
  /-- `asn1.Unmarshal` into `struct{ R, S *big.Int }`: the signature and the bytes left, or the
  error. -/
  asn1Unmarshal : Bytes → Except String (Sig × Bytes)
  /-- `ecdsa.Verify` of a hash. -/
  ecdsaVerify : Pub → Bytes → Sig → Bool
  /-- `x509.MarshalPKIXPublicKey`. -/
  marshalPKIX : Pub → Except String Bytes
  /-- `x509.ParsePKIXPublicKey`. -/
  parsePKIX : Bytes → Except String (GoPubKey Pub)

variable {Priv Pub Sig : Type}

/-- What the results assume of the code outside `src/`. -/
structure SgxCrypto.Sound (C : SgxCrypto Priv Pub Sig) : Prop where
  /-- `sgx_ecdsa_sign` signs the SHA-256 of its input: its signature verifies, under the public
  half of the key, against that hash and against no other. -/
  sign_verify : ∀ k data sig, C.sgxSign k data = .ok sig →
    ∀ hash, C.ecdsaVerify (C.pubOf k) hash sig = true ↔ hash = (C.sum256 data).1
  /-- `sgxEC256SigToASN1` converts faithfully: `asn1.Unmarshal` reads the signature back and
  leaves no byte. -/
  asn1 : ∀ sig, C.asn1Unmarshal (C.toASN1 sig) = .ok (sig, [])
  /-- `x509.ParsePKIXPublicKey` reads back the ECDSA key `MarshalPKIXPublicKey` wrote. -/
  pkix : ∀ pub b, C.marshalPKIX pub = .ok b → C.parsePKIX b = .ok (.ecdsa pub)

variable (C : SgxCrypto Priv Pub Sig)

/-! ## The enclave -/

/-- `SGX_ERROR_UNEXPECTED`. -/
def sgxErrorUnexpected : Nat := 0x0001

/-- The statics of `usig.c`. -/
structure Enclave (Priv : Type) where
  /-- `usig_priv_key`, with `usig_pub_key`. -/
  key : Priv
  /-- `usig_epoch`. -/
  epoch : UInt64
  /-- `usig_counter`, the static of `ecall_usig_create_ui`. -/
  counter : UInt64
  initialized : Bool

/-- The statics of a new enclave. -/
def Enclave.new : Enclave Priv := ⟨C.zeroKey, 0, 1, false⟩

/-- `ecall_usig_init` of the sealed data (`none` for `NULL`), with what `sgx_read_rand` and
`generate_key` return: the status, and the statics after the call. A failure after
`sgx_read_rand` leaves the new epoch behind, with `initialized` still false. -/
def ecallUsigInit (enc : Enclave Priv) (sealed : Option Bytes) (rand : Except Nat UInt64)
    (generated : Except Nat Priv) : Except Nat Unit × Enclave Priv :=
  if enc.initialized then (.error sgxErrorUnexpected, enc)
  else
    match rand with
    | .error s => (.error s, enc)
    | .ok epoch =>
      let key := match sealed with
        | some data => C.unsealKey data
        | none => generated
      match key with
      | .error s => (.error s, { enc with epoch := epoch })
      | .ok k => (.ok (), { enc with key := k, epoch := epoch, initialized := true })

variable {C}

/-- `ecall_usig_get_epoch`. -/
def ecallUsigGetEpoch (enc : Enclave Priv) : Except Nat UInt64 :=
  if enc.initialized then .ok enc.epoch else .error sgxErrorUnexpected

variable (C) in
/-- `ecall_usig_get_pub_key`, with `sgxEC256PubKeyToGo`. -/
def ecallUsigGetPubKey (enc : Enclave Priv) : Except Nat Pub :=
  if enc.initialized then .ok (C.pubOf enc.key) else .error sgxErrorUnexpected

/-- `usig_cert_data_t {digest, epoch, counter}`, packed, as it lies in the memory of the
little-endian SGX target: the bytes `sgx_ecdsa_sign((uint8_t *)&data, sizeof(data), ...)`
signs. -/
def usigCertData (digest : Digest) (epoch counter : UInt64) : Bytes :=
  packedImage .little [.bytes digest.1, .uint 8 epoch.toNat, .uint 8 counter.toNat]

variable (C) in
/-- `ecall_usig_create_ui`: sign the digest with the epoch and the counter, and step the counter
just before the signature is handed out, so that no counter value signs two digests. -/
def ecallUsigCreateUI (enc : Enclave Priv) (digest : Digest) :
    Except Nat (Enclave Priv × UInt64 × Sig) :=
  if enc.initialized = false then .error sgxErrorUnexpected
  else
    match C.sgxSign enc.key (usigCertData digest enc.epoch enc.counter) with
    | .error s => .error s
    | .ok sig => .ok ({ enc with counter := enc.counter + 1 }, enc.counter, sig)

/-! ## The Go side -/

/-- The error `sgxError` makes of an SGX status: `SGX error: %x`. -/
def sgxError (status : Nat) : String := "SGX error: " ++ String.ofList (Nat.toDigits 16 status)

/-- `USIG` with its `USIGEnclave`: the enclave it created, and the `epoch` it read from it. -/
structure USIG (Priv : Type) where
  enclave : Enclave Priv
  epoch : UInt64

variable (C) in
/-- `New(enclaveFile, sealedKey)`, with what `sgx_create_enclave`, `sgx_read_rand` and
`generate_key` return: a new enclave is created and initialised (an empty `sealedKey` passes
`NULL`, which asks for a new key), and its epoch is read. -/
def newUSIG (sealedKey : Bytes) (created : Except Nat Unit) (rand : Except Nat UInt64)
    (generated : Except Nat Priv) : Outcome (Except String (USIG Priv)) :=
  match created with
  | .error s => .ok (.error ("failed to create USIG enclave: " ++ sgxError s))
  | .ok () =>
    let sealed := if sealedKey.length ≠ 0 then some sealedKey else none
    match ecallUsigInit C (Enclave.new C) sealed rand generated with
    | (.error s, _) => .ok (.error ("failed to create USIG enclave: " ++ sgxError s))
    | (.ok (), enc) =>
      -- `sgxSuccessOrPanic` on `call_usig_get_epoch`
      match ecallUsigGetEpoch enc with
      | .error s => .panic (sgxError s)
      | .ok epoch => .ok (.ok ⟨enc, epoch⟩)

/-- `MakeCert`: the epoch in 8 big-endian bytes, then the signature. -/
def makeCert (epoch : UInt64) (signature : Bytes) : Bytes :=
  binaryWrite .big 8 [] epoch.toNat ++ signature

/-- `ParseCert`: the epoch, and the rest of the certificate as the signature. -/
def parseCert (cert : Bytes) : Except String (UInt64 × Bytes) :=
  match binaryRead .big 8 cert with
  | .error err => .error ("failed to extract epoch from USIG cert: " ++ err)
  | .ok (epoch, signature) => .ok (UInt64.ofNat epoch, signature)

variable (C) in
/-- `MakeID`: the epoch in 8 big-endian bytes, then the PKIX encoding of the public key. -/
def makeID (epoch : UInt64) (publicKey : Pub) : Except String Bytes :=
  match C.marshalPKIX publicKey with
  | .error err => .error ("failed to serialize public key: " ++ err)
  | .ok b => .ok (binaryWrite .big 8 [] epoch.toNat ++ b)

variable (C) in
/-- `ParseID`: the epoch, and the public key the rest encodes. -/
def parseID (usigID : Bytes) : Except String (UInt64 × GoPubKey Pub) :=
  match binaryRead .big 8 usigID with
  | .error err => .error ("failed to extract epoch from USIG ID: " ++ err)
  | .ok (epoch, rest) =>
    match C.parsePKIX rest with
    | .error err => .error ("failed to parse public key: " ++ err)
    | .ok pubKey => .ok (UInt64.ofNat epoch, pubKey)

/-- The buffer `VerifySignature` hashes: `bytes.NewBuffer(digest[:])`, then `binary.Write` of the
epoch and of the counter in `binary.LittleEndian`. -/
def verifyBuffer (digest : Digest) (epoch counter : UInt64) : Bytes :=
  binaryWrite .little 8 (binaryWrite .little 8 digest.1 epoch.toNat) counter.toNat

variable (C) in
/-- `VerifySignature`. -/
def verifySignature (pubKey : GoPubKey Pub) (digest : Digest) (epoch counter : UInt64)
    (signature : Bytes) : Except String Unit :=
  match pubKey with
  | .other => .error "invalid USIG ID format: expected ECDSA public key"
  | .ecdsa k =>
    let hash := C.sum256 (verifyBuffer digest epoch counter)
    match C.asn1Unmarshal signature with
    | .error err => .error ("failed to unmarshal USIG signature: " ++ err)
    | .ok (sig, rest) =>
      if rest ≠ [] then .error "extra bytes in USIG signature"
      else if C.ecdsaVerify k hash.1 sig then .ok () else .error "signature not valid"

variable (C) in
/-- `VerifyUI`: the epoch of the certificate must be the identity's, and the signature must
verify for the digest of the message, that epoch and the UI's counter. -/
def verifyUI (message : Bytes) (ui : UI) (usigID : Bytes) : Except String Unit :=
  match parseID C usigID with
  | .error err => .error ("failed to parse USIG ID: " ++ err)
  | .ok (epoch, pubKey) =>
    match parseCert ui.cert with
    | .error err => .error ("failed to parse UI cert: " ++ err)
    | .ok (uiEpoch, signature) =>
      if uiEpoch ≠ epoch then .error "epoch value mismatch"
      else verifySignature C pubKey (C.sum256 message) epoch (UInt64.ofNat ui.counter) signature

variable (C) in
/-- `USIG.CreateUI(message)`. -/
def USIG.createUI (u : USIG Priv) (message : Bytes) : Except String (USIG Priv × UI) :=
  match ecallUsigCreateUI C u.enclave (C.sum256 message) with
  | .error s => .error (sgxError s)
  | .ok (enc, counter, sig) =>
    .ok ({ u with enclave := enc }, ⟨counter.toNat, makeCert u.epoch (C.toASN1 sig)⟩)

variable (C) in
/-- `USIG.ID()`: `MakeID(u.Epoch(), u.PublicKey())`, which panics when `MakeID` fails. -/
def USIG.id (u : USIG Priv) : Outcome Bytes :=
  match ecallUsigGetPubKey C u.enclave with
  | .error s => .panic (sgxError s)
  | .ok pub =>
    match makeID C u.epoch pub with
    | .error err => .panic err
    | .ok id => .ok id

/-! ## The runs of a USIG -/

variable (C) in
/-- The life of one USIG: `New` makes it, then `CreateUI` is called on it any number of times. Its
other methods read it and change nothing. -/
inductive UsigStep : Option (USIG Priv) → Option (USIG Priv) → Prop
  | new {sealedKey : Bytes} {created : Except Nat Unit} {rand : Except Nat UInt64}
      {generated : Except Nat Priv} {u : USIG Priv} :
      newUSIG C sealedKey created rand generated = .ok (.ok u) → UsigStep none (some u)
  | createUI {u u' : USIG Priv} {message : Bytes} {ui : UI} :
      u.createUI C message = .ok (u', ui) → UsigStep (some u) (some u')

/-- What holds of a USIG in every run: its enclave is initialised, and the Go `epoch` is the
enclave's `usig_epoch`. -/
structure UsigOk (u : USIG Priv) : Prop where
  initialized : u.enclave.initialized = true
  epoch : u.epoch = u.enclave.epoch

/-- `UsigOk` of the USIG, once there is one. -/
def UsigInv : Option (USIG Priv) → Prop
  | none => True
  | some u => UsigOk u

/-- What `ecall_usig_create_ui` does when it returns a signature. -/
theorem ecallUsigCreateUI_eq_ok {enc enc' : Enclave Priv} {digest : Digest} {counter : UInt64}
    {sig : Sig} (h : ecallUsigCreateUI C enc digest = .ok (enc', counter, sig)) :
    enc.initialized = true ∧ C.sgxSign enc.key (usigCertData digest enc.epoch enc.counter) = .ok sig ∧
      enc' = { enc with counter := enc.counter + 1 } ∧ counter = enc.counter := by
  unfold ecallUsigCreateUI at h
  split_ifs at h with hinit
  split at h
  · cases h
  · next sig' hsig =>
    cases h
    exact ⟨by simpa using hinit, hsig, rfl, rfl⟩

/-- What `CreateUI` does when it returns a UI: the enclave signs the digest of the message with its
epoch and counter, steps the counter, and the UI carries the counter and the certificate. -/
theorem USIG.createUI_eq_ok {u u' : USIG Priv} {message : Bytes} {ui : UI}
    (h : u.createUI C message = .ok (u', ui)) :
    ∃ sig, C.sgxSign u.enclave.key
        (usigCertData (C.sum256 message) u.enclave.epoch u.enclave.counter) = .ok sig ∧
      u' = { u with enclave := { u.enclave with counter := u.enclave.counter + 1 } } ∧
      ui = ⟨u.enclave.counter.toNat, makeCert u.epoch (C.toASN1 sig)⟩ := by
  unfold USIG.createUI at h
  split at h
  · cases h
  · next enc counter sig hcall =>
    cases h
    obtain ⟨-, hsign, rfl, rfl⟩ := ecallUsigCreateUI_eq_ok hcall
    exact ⟨sig, hsign, rfl, rfl⟩

/-- `ID()`, when it returns, is `MakeID` of the epoch and the enclave's public key. -/
theorem USIG.id_eq_ok {u : USIG Priv} {usigID : Bytes} (h : u.id C = .ok usigID) :
    makeID C u.epoch (C.pubOf u.enclave.key) = .ok usigID := by
  unfold USIG.id at h
  split at h
  · cases h
  · next pub hpub =>
    unfold ecallUsigGetPubKey at hpub
    split_ifs at hpub
    cases hpub
    split at h
    · cases h
    · next usigID' hid =>
      cases h
      exact hid

/-- `New` returns an initialised USIG whose epoch is its enclave's: it reads it with
`ecall_usig_get_epoch` right after `ecall_usig_init`. -/
theorem usigOk_of_newUSIG {sealedKey : Bytes} {created : Except Nat Unit}
    {rand : Except Nat UInt64} {generated : Except Nat Priv} {u : USIG Priv}
    (h : newUSIG C sealedKey created rand generated = .ok (.ok u)) : UsigOk u := by
  unfold newUSIG at h
  split at h
  · cases h
  · -- `ecall_usig_init` succeeded, then `ecall_usig_get_epoch`
    dsimp only at h
    generalize (if sealedKey.length ≠ 0 then some sealedKey else none) = sealed at h
    rcases hinit : ecallUsigInit C (Enclave.new C) sealed rand generated with ⟨_ | _, enc⟩
    · rw [hinit] at h
      cases h
    · rw [hinit] at h
      dsimp only at h
      split at h
      · cases h
      · next epoch hepoch =>
        cases h
        unfold ecallUsigGetEpoch at hepoch
        split_ifs at hepoch with henc
        cases hepoch
        exact ⟨henc, rfl⟩

/-- `CreateUI` changes only the counter. -/
theorem UsigOk.createUI {u u' : USIG Priv} {message : Bytes} {ui : UI} (hu : UsigOk u)
    (h : u.createUI C message = .ok (u', ui)) : UsigOk u' := by
  obtain ⟨-, -, rfl, -⟩ := USIG.createUI_eq_ok h
  exact ⟨hu.initialized, hu.epoch⟩

/-- **The epoch agreement**: in every run the Go `epoch` is the enclave's `usig_epoch`. -/
theorem usigOk_inductive : Inductive (UsigStep C) none UsigInv where
  init := trivial
  step := fun _ _ hinv hs => by
    cases hs with
    | new h => exact usigOk_of_newUSIG h
    | createUI h => exact UsigOk.createUI hinv h

/-! ## The bytes signed and the bytes hashed -/

theorem toNat_lt_256_pow (x : UInt64) : x.toNat < 256 ^ 8 :=
  lt_of_lt_of_eq x.toNat_lt (by decide)

/-- The buffer `VerifySignature` hashes, field by field. -/
theorem verifyBuffer_eq (digest : Digest) (epoch counter : UInt64) :
    verifyBuffer digest epoch counter =
      digest.1 ++ toBytesLE 8 epoch.toNat ++ toBytesLE 8 counter.toNat := by
  simp [verifyBuffer, binaryWrite, ByteOrder.encode]

/-- **The layout agreement**: the packed `usig_cert_data_t` the enclave signs, in the memory of the
little-endian target, is the buffer the verifier hashes. -/
theorem usigCertData_eq_verifyBuffer (digest : Digest) (epoch counter : UInt64) :
    usigCertData digest epoch counter = verifyBuffer digest epoch counter := by
  rw [verifyBuffer_eq]
  simp [usigCertData, ByteOrder.encode]

/-- The buffer determines the epoch and the counter. -/
theorem verifyBuffer_inj {digest : Digest} {e e' c c' : UInt64}
    (h : verifyBuffer digest e c = verifyBuffer digest e' c') : e = e' ∧ c = c' := by
  rw [verifyBuffer_eq, verifyBuffer_eq, List.append_assoc, List.append_assoc] at h
  obtain ⟨he, hc⟩ := List.append_inj (List.append_cancel_left h) (by simp)
  exact ⟨UInt64.toNat_inj.mp (toBytesLE_inj (toNat_lt_256_pow e) (toNat_lt_256_pow e') he),
    UInt64.toNat_inj.mp (toBytesLE_inj (toNat_lt_256_pow c) (toNat_lt_256_pow c') hc)⟩

/-! ## Certificates and identities -/

theorem parseCert_makeCert (epoch : UInt64) (signature : Bytes) :
    parseCert (makeCert epoch signature) = .ok (epoch, signature) := by
  simp [parseCert, makeCert, binaryWrite]

/-- `ParseID` reads back what `MakeID` wrote, when `x509.ParsePKIXPublicKey` inverts
`x509.MarshalPKIXPublicKey`. -/
theorem parseID_makeID
    (hpkix : ∀ pub b, C.marshalPKIX pub = .ok b → C.parsePKIX b = .ok (.ecdsa pub))
    {epoch : UInt64} {pub : Pub} {usigID : Bytes} (h : makeID C epoch pub = .ok usigID) :
    parseID C usigID = .ok (epoch, .ecdsa pub) := by
  unfold makeID at h
  split at h
  · cases h
  · next b hb =>
    cases h
    simp [parseID, binaryWrite, hpkix pub b hb]

/-- `ParseID` reads back what `MakeID` wrote. -/
theorem parseID_of_makeID (hC : C.Sound) {epoch : UInt64} {pub : Pub} {usigID : Bytes}
    (h : makeID C epoch pub = .ok usigID) : parseID C usigID = .ok (epoch, .ecdsa pub) :=
  parseID_makeID hC.pkix h

/-- The epoch `ParseID` reads from an identity `MakeID` made is the epoch it was made with,
whatever the key's encoding. -/
theorem parseID_makeID_epoch {epoch : UInt64} {pub : Pub} {usigID : Bytes}
    (h : makeID C epoch pub = .ok usigID) {epoch' : UInt64} {pubKey : GoPubKey Pub}
    (h' : parseID C usigID = .ok (epoch', pubKey)) : epoch' = epoch := by
  unfold makeID at h
  split at h
  · cases h
  · next b _ =>
    cases h
    have hread : binaryRead .big 8 (binaryWrite .big 8 [] epoch.toNat ++ b) =
        .ok (epoch.toNat, b) := by
      rw [binaryWrite, List.nil_append, binaryRead_encode_append,
        Nat.mod_eq_of_lt (toNat_lt_256_pow epoch)]
    unfold parseID at h'
    rw [hread] at h'
    -- the epoch is read back; only the key's encoding is left to parse
    dsimp only at h'
    split at h'
    · cases h'
    · cases h'
      exact UInt64.ofNat_toNat

variable (C) in
/-- **The USIG's byte encodings invert each other.** A UI's encoding decodes to the UI; a byte
string fails to decode exactly when it has fewer than 8 bytes, and otherwise encodes back to
itself; a certificate parses to the epoch and signature it was made of; and an identity parses
to the epoch it was made with, and to its key when the PKIX encoding of keys parses back. -/
theorem usig_encodings_inverse :
    (∀ ui : UI, ui.counter < 2 ^ 64 → UI.unmarshalBinary ui.marshalBinary = some ui) ∧
    (∀ b : Bytes, UI.unmarshalBinary b = none ↔ b.length < 8) ∧
    (∀ (b : Bytes) (ui : UI), UI.unmarshalBinary b = some ui → ui.marshalBinary = b) ∧
    (∀ (epoch : UInt64) (signature : Bytes),
      parseCert (makeCert epoch signature) = .ok (epoch, signature)) ∧
    (∀ (epoch : UInt64) (pub : Pub) (usigID : Bytes), makeID C epoch pub = .ok usigID →
      ∀ epoch' pubKey, parseID C usigID = .ok (epoch', pubKey) → epoch' = epoch) ∧
    ((∀ pub b, C.marshalPKIX pub = .ok b → C.parsePKIX b = .ok (.ecdsa pub)) →
      ∀ (epoch : UInt64) (pub : Pub) (usigID : Bytes), makeID C epoch pub = .ok usigID →
        parseID C usigID = .ok (epoch, .ecdsa pub)) :=
  ⟨UI.unmarshalBinary_marshalBinary, UI.unmarshalBinary_eq_none_iff,
    fun _ _ => UI.marshalBinary_of_unmarshalBinary, parseCert_makeCert,
    fun _ _ _ h _ _ h' => parseID_makeID_epoch h h', fun hpkix _ _ _ => parseID_makeID hpkix⟩

/-- What `VerifyUI` checked when it accepts a UI: the identity parses, the certificate parses
with the identity's epoch, and the signature verifies. -/
theorem verifyUI_eq_ok {message : Bytes} {ui : UI} {usigID : Bytes}
    (h : verifyUI C message ui usigID = .ok ()) :
    ∃ epoch pubKey signature, parseID C usigID = .ok (epoch, pubKey) ∧
      parseCert ui.cert = .ok (epoch, signature) ∧
      verifySignature C pubKey (C.sum256 message) epoch (UInt64.ofNat ui.counter) signature =
        .ok () := by
  unfold verifyUI at h
  split at h
  · cases h
  · next epoch pubKey hid =>
    split at h
    · cases h
    · next uiEpoch signature hcert =>
      split_ifs at h with hne
      rw [not_not] at hne
      subst hne
      exact ⟨uiEpoch, pubKey, signature, hid, hcert, h⟩

/-- `VerifyUI` of a certificate `MakeCert` made, under an identity that parses: the epochs are
compared, then the signature checked. -/
theorem verifyUI_makeCert {message usigID : Bytes} {epoch : UInt64} {pubKey : GoPubKey Pub}
    (hparse : parseID C usigID = .ok (epoch, pubKey)) (epoch' counter : UInt64)
    (signature : Bytes) :
    verifyUI C message ⟨counter.toNat, makeCert epoch' signature⟩ usigID =
      if epoch' ≠ epoch then .error "epoch value mismatch"
      else verifySignature C pubKey (C.sum256 message) epoch counter signature := by
  simp [verifyUI, hparse, parseCert_makeCert]

/-- `VerifySignature` of a signature of the enclave accepts a buffer exactly when its hash is the
hash of the bytes signed. -/
theorem verifySignature_toASN1 (hC : C.Sound) {k : Priv} {data : Bytes} {sig : Sig}
    (hsign : C.sgxSign k data = .ok sig) (digest : Digest) (epoch counter : UInt64) :
    verifySignature C (.ecdsa (C.pubOf k)) digest epoch counter (C.toASN1 sig) = .ok () ↔
      C.sum256 (verifyBuffer digest epoch counter) = C.sum256 data := by
  rw [Subtype.ext_iff, ← hC.sign_verify k data sig hsign]
  simp [verifySignature, hC.asn1 sig]

/-- **A UI of the SGX USIG verifies** (`CreateUI`, `VerifyUI`): the bytes the enclave signs are the
bytes the verifier hashes; the certificate carries the enclave's `usig_epoch`, which is the USIG's
`epoch`; the UI passes `VerifyUI` under the USIG's `ID()`; and the same certificate with another
epoch or counter fails it, when SHA-256 does not map the two buffers to one hash. -/
theorem createUI_verifyUI (hC : C.Sound) {u : USIG Priv}
    (hreach : Reachable (UsigStep C) none (some u)) {message : Bytes} {u' : USIG Priv} {ui : UI}
    (hcreate : u.createUI C message = .ok (u', ui)) {usigID : Bytes} (hid : u.id C = .ok usigID) :
    (∀ digest epoch counter, usigCertData digest epoch counter = verifyBuffer digest epoch counter) ∧
    u.epoch = u.enclave.epoch ∧ ui.counter = u.enclave.counter.toNat ∧
    ∃ signature, ui.cert = makeCert u.enclave.epoch signature ∧
      parseCert ui.cert = .ok (u.enclave.epoch, signature) ∧
      verifyUI C message ui usigID = .ok () ∧
      ∀ epoch counter : UInt64, (epoch, counter) ≠ (u.enclave.epoch, u.enclave.counter) →
        (C.sum256 (verifyBuffer (C.sum256 message) epoch counter) =
            C.sum256 (verifyBuffer (C.sum256 message) u.enclave.epoch u.enclave.counter) →
          verifyBuffer (C.sum256 message) epoch counter =
            verifyBuffer (C.sum256 message) u.enclave.epoch u.enclave.counter) →
        verifyUI C message ⟨counter.toNat, makeCert epoch signature⟩ usigID ≠ .ok () := by
  have hu : UsigOk u := usigOk_inductive.reachable hreach
  obtain ⟨sig, hsign, -, rfl⟩ := USIG.createUI_eq_ok hcreate
  have hparse := parseID_of_makeID hC (USIG.id_eq_ok hid)
  rw [hu.epoch] at hparse ⊢
  refine ⟨usigCertData_eq_verifyBuffer, rfl, rfl, C.toASN1 sig, rfl, parseCert_makeCert _ _, ?_, ?_⟩
  · -- the enclave signed the very buffer the verifier hashes
    rw [verifyUI_makeCert hparse, if_neg (not_not.mpr rfl), verifySignature_toASN1 hC hsign,
      usigCertData_eq_verifyBuffer]
  · intro epoch counter hne hcoll hok
    rw [verifyUI_makeCert hparse] at hok
    split_ifs at hok with hepoch
    -- the epochs agree, so the signature verified for another counter
    rw [not_not] at hepoch
    subst hepoch
    rw [verifySignature_toASN1 hC hsign, usigCertData_eq_verifyBuffer] at hok
    obtain ⟨-, hc⟩ := verifyBuffer_inj (hcoll hok)
    exact hne (by rw [hc])

/-! ## A USIG -/

/-- A stand-in for the code outside `src/` that meets `SgxCrypto.Sound`: the hash of a string is
its last 32 bytes, and a signature is the key followed by the hash it signs. -/
def toyCrypto : SgxCrypto Bytes Bytes Bytes where
  sum256 b := ⟨toBytesBE 32 (ofBytesBE b), length_toBytesBE 32 _⟩
  zeroKey := []
  unsealKey b := .ok b
  sgxSign k data := .ok (k ++ toBytesBE 32 (ofBytesBE data))
  pubOf k := k
  toASN1 sig := sig
  asn1Unmarshal b := .ok (b, [])
  ecdsaVerify pub hash sig := decide (sig = pub ++ hash)
  marshalPKIX pub := .ok pub
  parsePKIX b := .ok (.ecdsa b)

theorem toyCrypto_sound : toyCrypto.Sound where
  sign_verify := by
    intro k data sig hsig hash
    cases hsig
    simp [toyCrypto, eq_comm]
  asn1 := fun _ => rfl
  pkix := by
    intro pub b h
    cases h
    rfl

/-- The USIG `New` makes with a new key `[9]` and epoch `5`. -/
def toyUsig : USIG Bytes := ⟨⟨[9], 5, 1, true⟩, 5⟩

theorem toyUsig_reachable : Reachable (UsigStep toyCrypto) none (some toyUsig) := by
  have hnew : newUSIG toyCrypto [] (.ok ()) (.ok 5) (.ok [9]) = .ok (.ok toyUsig) := rfl
  exact .single (.new hnew)

/-- The UI `CreateUI` makes for the message `[7]`: counter `1`, and a certificate with epoch `5`. -/
def toyUI : UI :=
  ⟨1, makeCert 5 ([9] ++ toBytesBE 32 (ofBytesBE (usigCertData (toyCrypto.sum256 [7]) 5 1)))⟩

theorem createUI_verifyUI_toy :
    (∀ digest epoch counter, usigCertData digest epoch counter = verifyBuffer digest epoch counter) ∧
    toyUsig.epoch = toyUsig.enclave.epoch ∧ toyUI.counter = toyUsig.enclave.counter.toNat ∧
    ∃ signature, toyUI.cert = makeCert toyUsig.enclave.epoch signature ∧
      parseCert toyUI.cert = .ok (toyUsig.enclave.epoch, signature) ∧
      verifyUI toyCrypto [7] toyUI (binaryWrite .big 8 [] 5 ++ [9]) = .ok () ∧
      ∀ epoch counter : UInt64, (epoch, counter) ≠ (toyUsig.enclave.epoch, toyUsig.enclave.counter) →
        (toyCrypto.sum256 (verifyBuffer (toyCrypto.sum256 [7]) epoch counter) =
            toyCrypto.sum256
              (verifyBuffer (toyCrypto.sum256 [7]) toyUsig.enclave.epoch toyUsig.enclave.counter) →
          verifyBuffer (toyCrypto.sum256 [7]) epoch counter =
            verifyBuffer (toyCrypto.sum256 [7]) toyUsig.enclave.epoch toyUsig.enclave.counter) →
        verifyUI toyCrypto [7] ⟨counter.toNat, makeCert epoch signature⟩
          (binaryWrite .big 8 [] 5 ++ [9]) ≠ .ok () :=
  createUI_verifyUI toyCrypto_sound toyUsig_reachable
    (show toyUsig.createUI toyCrypto [7] = .ok (⟨⟨[9], 5, 2, true⟩, 5⟩, toyUI) from rfl)
    (show toyUsig.id toyCrypto = .ok (binaryWrite .big 8 [] 5 ++ [9]) from rfl)

end MinBFT.Usig
