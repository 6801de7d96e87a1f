import MinBFT.Usig.Sgx
import MinBFT.Core.Validate

/-!
# The sample authenticator

Model of `sample/authentication` as the replicas and clients of the sample use it to check
tags: `Authenticator.VerifyMessageAuthenTag` (`authenticator.go`), the key store lookup
`SimpleKeyStore.NodePublicKey` (`keymanager.go`), and the two schemes of `crypto.go`:
`PublicAuthenScheme` with `EcdsaSigCipher` for the replica and client roles, and
`SGXUSIGAuthenticationScheme` for the USIG role.

* What the code takes from Go's libraries is `AuthenCrypto`: the SGX USIG's parameters
  (`SgxCrypto`: SHA-256, `asn1.Unmarshal`, `ecdsa.Verify`, the PKIX encoding) and `ecdsa.Sign`,
  `asn1.Marshal` and the length of a curve's order. `AuthenCrypto.EcdsaSound` names what the
  results assume of them; in particular that `ecdsa.Verify` reads a hash only up to the order's
  length (`hashToInt`).
* `HashScheme.New().Sum(m)` is `sha256NewSum`: `hash.Hash.Sum(b)` appends the hash of the data
  written so far, here none, to `b`.
* A key of the key store is an `interface{}`: an ECDSA key, or `nil` for a node ID the role's key
  set lacks (`Option`). A private key is an ECDSA key or another value.
* The USIG scheme's map `epoch` is a function from fingerprints; its lock makes each call one
  step, so a run of calls is a sequence (`verifyCalls`).

## Results

* `verifyMessageAuthenTag_panic_iff`: `VerifyMessageAuthenTag` never hangs, and it panics exactly
  when the role's scheme is `PublicAuthenScheme`, the role has a key set, and the tag is not
  DER: `EcdsaSigCipher.Verify` panics before it looks at the key.
* `generateAuthenticationTag_verifies`: a tag `PublicAuthenScheme` makes for a message verifies
  for every message with the same first bytes, as many as the curve's order has: the digest
  signed is the message followed by the hash of nothing.
* `verifyCalls_epochs`: over any sequence of calls, all UIs the USIG scheme accepts under one
  key fingerprint carry the epoch of the first one, which has counter `1` or epoch `0`; a
  rejected call leaves the map as it was (`verifyAuthenticationTag_error`).
* `verifyAuthenticationTag_local`, `verifyAuthenticationTag_other`: the USIG scheme keeps its
  state per key, so calls for keys of other fingerprints neither change a call's answer nor are
  changed by it. This is why a replica's validation of one message, whose calls are for
  different signers, may be answered from the messages it validated before (`ReplicaParams`).
-/

namespace MinBFT.Sample

open MinBFT.Bytes MinBFT.System MinBFT.Messages MinBFT.Usig MinBFT.Core

/-- What the sample authenticator takes from Go's libraries: `Key` is a `*ecdsa.PrivateKey`, and
`Priv`, `Pub`, `Sig` are as for the SGX USIG. -/
structure AuthenCrypto (Key Priv Pub Sig : Type) extends SgxCrypto Priv Pub Sig where
  /-- The length in bytes of the order of a key's curve: 32 for P-256. -/
  orderBytes : Pub → Nat
  /-- The public half of a private key. -/
  publicKey : Key → Pub
  /-- `ecdsa.Sign(rand.Reader, priv, hash)`. -/
  ecdsaSign : Key → Bytes → Except String Sig
  /-- `asn1.Marshal(ecdsaSignature{r, s})`. -/
  asn1Marshal : Sig → Except String Bytes

variable {Key Priv Pub Sig : Type}

/-- What the results about `PublicAuthenScheme` assume of Go's ECDSA. -/
structure AuthenCrypto.EcdsaSound (A : AuthenCrypto Key Priv Pub Sig) : Prop where
  /-- `hashToInt`: `ecdsa.Verify` reads a hash only up to the length of the curve's order. -/
  verify_take : ∀ pub hash sig,
    A.ecdsaVerify pub hash sig = A.ecdsaVerify pub (hash.take (A.orderBytes pub)) sig
  /-- A signature `ecdsa.Sign` made verifies for the hash it signed. -/
  sign_verify : ∀ k hash sig, A.ecdsaSign k hash = .ok sig →
    A.ecdsaVerify (A.publicKey k) hash sig = true
  /-- `asn1.Unmarshal` reads back what `asn1.Marshal` wrote, and leaves no byte. -/
  asn1 : ∀ sig b, A.asn1Marshal sig = .ok b → A.asn1Unmarshal b = .ok (sig, [])

/-- `AuthenticationRole.String()`. -/
def roleString : AuthenRole → String
  | .replica => "replica"
  | .usig => "usig"
  | .client => "client"

/-! ## The key store -/

/-- `SimpleKeyStore` as `VerifyMessageAuthenTag` reads it: for each role that has a key set, the
public key of each node ID, `none` where the set has none (the map's zero value, a `nil`
`interface{}`). The key specs are read only when the authenticator is made. -/
structure SimpleKeyStore (Pub : Type) where
  nodePublicKeys : AuthenRole → Option (Nat → Option Pub)

/-- `NodePublicKey(role, id)`: an ID without a key has the `nil` key and no error. -/
def SimpleKeyStore.nodePublicKey (ks : SimpleKeyStore Pub) (role : AuthenRole) (id : Nat) :
    Except String (Option Pub) :=
  match ks.nodePublicKeys role with
  | some keys => .ok (keys id)
  | none => .error ("key set not found for role=" ++ roleString role ++ ", id=" ++ toString id)

section

variable (A : AuthenCrypto Key Priv Pub Sig)

/-! ## `PublicAuthenScheme` with `EcdsaSigCipher` -/

/-- `crypto.SHA256.New().Sum(m)`: `Sum` appends to `m` the hash of what was written to the new
hash, which is nothing. -/
def sha256NewSum (m : Bytes) : Bytes := m ++ (A.sum256 []).1

/-- `EcdsaSigCipher.Sign(md, privKey)`. -/
def EcdsaSigCipher.sign (md : Bytes) (privKey : Option Key) : Except String Bytes :=
  match privKey with
  | none => .error "incompatible format of ECDSA private key"
  | some k =>
    match A.ecdsaSign k md with
    | .error err => .error ("ECDSA signing error: " ++ err)
    | .ok sig =>
      match A.asn1Marshal sig with
      | .error err => .error ("ECDSA signature ASN1-DER marshal error: " ++ err)
      | .ok b => .ok b

/-- `EcdsaSigCipher.Verify(md, sig, pubKey)`: a signature that does not decode panics, before the
key is looked at. -/
def EcdsaSigCipher.verify (md sig : Bytes) (pubKey : Option Pub) : Outcome Bool :=
  match A.asn1Unmarshal sig with
  | .error err => .panic ("ECDSA signature is not ASN.1-DER encoded: " ++ err)
  | .ok (s, _) =>
    match pubKey with
    | some k => .ok (A.ecdsaVerify k md s)
    | none => .ok false

/-- `PublicAuthenScheme.GenerateAuthenticationTag(m, privKey)`. -/
def PublicAuthenScheme.generateAuthenticationTag (m : Bytes) (privKey : Option Key) :
    Except String Bytes :=
  EcdsaSigCipher.sign A (sha256NewSum A m) privKey

/-- `PublicAuthenScheme.VerifyAuthenticationTag(m, sig, pubKey)`. -/
def PublicAuthenScheme.verifyAuthenticationTag (m sig : Bytes) (pubKey : Option Pub) :
    Outcome (Except String Unit) :=
  (EcdsaSigCipher.verify A (sha256NewSum A m) sig pubKey).bind fun ok =>
    .ok (if ok then .ok () else .error "invalid signature")

/-! ## `SGXUSIGAuthenticationScheme` -/

/-- The scheme's `epoch`: the epoch captured for each USIG key fingerprint. -/
abbrev EpochMap := Bytes → Option UInt64

/-- `x509.MarshalPKIXPublicKey` of an `interface{}` key. -/
def marshalPKIXPublicKey (pubKey : Option Pub) : Except String Bytes :=
  match pubKey with
  | none => .error "x509: unsupported public key type: <nil>"
  | some k => A.marshalPKIX k

/-- `makeUSIGKeyFingerprint`: the first 8 bytes of the SHA-256 of the key's PKIX encoding. -/
def makeUSIGKeyFingerprint (pubKey : Option Pub) : Except String Bytes :=
  (marshalPKIXPublicKey A pubKey).map fun b => (A.sum256 b).1.take 8

/-- `sgxusig.MakeID(epoch, pubKey)` of an `interface{}` key. -/
def makeIDOf (epoch : UInt64) (pubKey : Option Pub) : Except String Bytes :=
  match pubKey with
  | none => .error ("failed to serialize public key: " ++ "x509: unsupported public key type: <nil>")
  | some k => makeID A.toSgxCrypto epoch k

/-- The epoch `VerifyAuthenticationTag` builds the identity with: the captured one, else the
epoch of a counter-1 UI's certificate, else `0`. -/
def capturedEpoch (epochs : EpochMap) (fingerprint : Bytes) (ui : UI) : Except String UInt64 :=
  match epochs fingerprint with
  | some epoch => .ok epoch
  | none => if ui.counter = 1 then (parseCert ui.cert).map Prod.fst else .ok 0

/-- `SGXUSIGAuthenticationScheme.VerifyAuthenticationTag(m, sig, pubKey)` on the map `epochs`:
the result and the map after the call. The map gets the epoch only when `VerifyUI` accepts. -/
def SGXUSIGAuthenticationScheme.verifyAuthenticationTag (epochs : EpochMap) (m sig : Bytes)
    (pubKey : Option Pub) : Except String Unit × EpochMap :=
  match UI.unmarshalBinary sig with
  | none => (.error ("failed to unmarshal UI: " ++ UI.unmarshalError sig), epochs)
  | some ui =>
    match makeUSIGKeyFingerprint A pubKey with
    | .error err => (.error ("Failed to calculate USIG key fingerprint: " ++ err), epochs)
    | .ok fingerprint =>
      match capturedEpoch epochs fingerprint ui with
      | .error err => (.error ("Failed to parse UI certificate: " ++ err), epochs)
      | .ok epoch =>
        match makeIDOf A epoch pubKey with
        | .error err => (.error ("Failed to construct USIG identity: " ++ err), epochs)
        | .ok usigID =>
          match verifyUI A.toSgxCrypto m ui usigID with
          | .error err => (.error err, epochs)
          | .ok () => (.ok (), Function.update epochs fingerprint (some epoch))

/-! ## The authenticator -/

/-- The schemes `new` makes: `PublicAuthenScheme{crypto.SHA256, &EcdsaSigCipher{}}` for the
`ECDSA` key spec, `SGXUSIGAuthenticationScheme` for `SGX_ECDSA`, with its map. -/
inductive AuthenticationScheme where
  | publicAuthen
  | sgxUsig (epoch : EpochMap)

/-- `Authenticator`: its key store and its scheme for each role, `none` for a role without. -/
structure Authenticator (Pub : Type) where
  ks : SimpleKeyStore Pub
  authschemes : AuthenRole → Option AuthenticationScheme

/-- The error `VerifyMessageAuthenTag` returns for a scheme's error. -/
def invalidTag : Except String Unit → Except String Unit
  | .error err => .error ("Invalid authentication tag: " ++ err)
  | .ok () => .ok ()

/-- `Authenticator.VerifyMessageAuthenTag(role, id, msg, authenTag)`: the result, and the
authenticator after the call (the USIG scheme's map may have grown). -/
def Authenticator.verifyMessageAuthenTag (a : Authenticator Pub) (role : AuthenRole) (id : Nat)
    (msg authenTag : Bytes) : Outcome (Except String Unit × Authenticator Pub) :=
  match a.ks.nodePublicKey role id with
  | .error err => .ok (.error err, a)
  | .ok pk =>
    match a.authschemes role with
    | none => .ok (.error ("Unknown role: " ++ roleString role), a)
    | some .publicAuthen =>
      (PublicAuthenScheme.verifyAuthenticationTag A msg authenTag pk).bind fun res =>
        .ok (invalidTag res, a)
    | some (.sgxUsig epochs) =>
      let (res, epochs') :=
        SGXUSIGAuthenticationScheme.verifyAuthenticationTag A epochs msg authenTag pk
      .ok (invalidTag res,
        { a with authschemes := Function.update a.authschemes role (some (.sgxUsig epochs')) })

/-! ## Which calls panic -/

/-- What `EcdsaSigCipher.Verify` does with a signature that does not decode. -/
theorem EcdsaSigCipher.verify_of_error {md sig : Bytes} {err : String}
    (h : A.asn1Unmarshal sig = .error err) (pubKey : Option Pub) :
    EcdsaSigCipher.verify A md sig pubKey = .panic ("ECDSA signature is not ASN.1-DER encoded: " ++ err) := by
  simp [EcdsaSigCipher.verify, h]

/-- `EcdsaSigCipher.Verify` of a signature that decodes returns. -/
theorem EcdsaSigCipher.verify_of_ok {md sig : Bytes} {s : Sig} {rest : Bytes}
    (h : A.asn1Unmarshal sig = .ok (s, rest)) (pubKey : Option Pub) :
    ∃ ok, EcdsaSigCipher.verify A md sig pubKey = .ok ok := by
  cases pubKey <;> simp [EcdsaSigCipher.verify, h]

/-- **Which calls of `VerifyMessageAuthenTag` panic**: none hangs, and one panics exactly when the
role has a key set, its scheme is `PublicAuthenScheme` and the tag is not DER. The message and
the signer play no part: a signer without a key is no exception, and the USIG scheme never
panics. -/
theorem verifyMessageAuthenTag_panic_iff (a : Authenticator Pub) (role : AuthenRole) (id : Nat)
    (msg tag : Bytes) :
    a.verifyMessageAuthenTag A role id msg tag ≠ .hang ∧
    ((∃ e, a.verifyMessageAuthenTag A role id msg tag = .panic e) ↔
      (a.ks.nodePublicKeys role).isSome ∧ a.authschemes role = some .publicAuthen ∧
        ∃ err, A.asn1Unmarshal tag = .error err) := by
  unfold Authenticator.verifyMessageAuthenTag SimpleKeyStore.nodePublicKey
  cases hks : a.ks.nodePublicKeys role with
  | none => simp
  | some keys =>
    cases hs : a.authschemes role with
    | none => simp
    | some scheme =>
      cases scheme with
      | sgxUsig epochs => simp
      | publicAuthen =>
        -- the only call that can panic: `EcdsaSigCipher.Verify`, on the tag alone
        simp only [PublicAuthenScheme.verifyAuthenticationTag]
        cases hder : A.asn1Unmarshal tag with
        | error err =>
          rw [EcdsaSigCipher.verify_of_error A hder]
          simp
        | ok r =>
          obtain ⟨ok, hok⟩ := EcdsaSigCipher.verify_of_ok A hder (keys id)
          rw [hok]
          simp

/-! ## What `PublicAuthenScheme` signs -/

/-- The digest `HashScheme.New().Sum(m)` begins with the message. -/
theorem sha256NewSum_take {m : Bytes} {n : Nat} (h : n ≤ m.length) :
    (sha256NewSum A m).take n = m.take n := by
  simp [sha256NewSum, List.take_append_of_le_length h]

/-- What `EcdsaSigCipher.Sign` does when it returns a tag. -/
theorem EcdsaSigCipher.sign_eq_ok {md tag : Bytes} {k : Key}
    (h : EcdsaSigCipher.sign A md (some k) = .ok tag) :
    ∃ sig, A.ecdsaSign k md = .ok sig ∧ A.asn1Marshal sig = .ok tag := by
  unfold EcdsaSigCipher.sign at h
  dsimp only at h
  split at h
  · cases h
  · next sig hsig =>
    split at h
    · cases h
    · next b hb =>
      cases h
      exact ⟨sig, hsig, hb⟩

/-- **A tag verifies for every message with the same first bytes**: the digest
`PublicAuthenScheme` signs is the message followed by the hash of nothing, and `ecdsa.Verify`
reads it only up to the length of the curve's order, so a tag made for `m` verifies for any `m'`
that agrees with `m` on that many bytes. -/
theorem generateAuthenticationTag_verifies (hA : A.EcdsaSound) {k : Key} {m tag : Bytes}
    (hgen : PublicAuthenScheme.generateAuthenticationTag A m (some k) = .ok tag) {m' : Bytes}
    (hlen : A.orderBytes (A.publicKey k) ≤ m.length)
    (hlen' : A.orderBytes (A.publicKey k) ≤ m'.length)
    (hsame : m.take (A.orderBytes (A.publicKey k)) = m'.take (A.orderBytes (A.publicKey k))) :
    PublicAuthenScheme.verifyAuthenticationTag A m' tag (some (A.publicKey k)) = .ok (.ok ()) := by
  obtain ⟨sig, hsign, hder⟩ := EcdsaSigCipher.sign_eq_ok A hgen
  -- the digests of `m` and `m'` agree on all that `ecdsa.Verify` reads
  have hverify : A.ecdsaVerify (A.publicKey k) (sha256NewSum A m') sig = true := by
    rw [hA.verify_take, sha256NewSum_take A hlen', ← hsame, ← sha256NewSum_take A hlen,
      ← hA.verify_take]
    exact hA.sign_verify k _ sig hsign
  simp [PublicAuthenScheme.verifyAuthenticationTag, EcdsaSigCipher.verify, hA.asn1 sig tag hder,
    hverify]

/-! ## Runs of the USIG scheme -/

/-- A call of `VerifyAuthenticationTag`: the message, the tag and the signer's key. -/
structure TagCall (Pub : Type) where
  m : Bytes
  sig : Bytes
  pubKey : Option Pub

/-- One call, under the scheme's lock: the map after it, and the calls accepted so far. -/
def verifyCall (st : EpochMap × List (TagCall Pub)) (c : TagCall Pub) :
    EpochMap × List (TagCall Pub) :=
  match SGXUSIGAuthenticationScheme.verifyAuthenticationTag A st.1 c.m c.sig c.pubKey with
  | (.ok (), epochs) => (epochs, st.2 ++ [c])
  | (.error _, epochs) => (epochs, st.2)

/-- Calls one after another on the scheme `NewSGXUSIGAuthenticationScheme` made, whose map is
empty: the map at the end, and the calls accepted, in order. -/
def verifyCalls (calls : List (TagCall Pub)) : EpochMap × List (TagCall Pub) :=
  calls.foldl (verifyCall A) (fun _ => none, [])

/-- The fingerprint of a call's key. -/
def TagCall.fingerprint (c : TagCall Pub) : Option Bytes :=
  (makeUSIGKeyFingerprint A c.pubKey).toOption

/-- The epoch in the certificate of a call's UI. -/
def TagCall.certEpoch (c : TagCall Pub) : Option UInt64 :=
  (UI.unmarshalBinary c.sig).bind fun ui => (parseCert ui.cert).toOption.map Prod.fst

/-- The accepted calls under the key fingerprint `fp`, in order. -/
def acceptedUnder (fp : Bytes) (accepted : List (TagCall Pub)) : List (TagCall Pub) :=
  accepted.filter fun c => c.fingerprint A = some fp

/-- A rejected call leaves the map as it was. -/
theorem verifyAuthenticationTag_error {epochs epochs' : EpochMap} {m sig : Bytes}
    {pubKey : Option Pub} {err : String}
    (h : SGXUSIGAuthenticationScheme.verifyAuthenticationTag A epochs m sig pubKey =
      (.error err, epochs')) : epochs' = epochs := by
  unfold SGXUSIGAuthenticationScheme.verifyAuthenticationTag at h
  repeat' split at h
  all_goals (cases h <;> rfl)

/-- What an accepted call did: it read the UI and the key's fingerprint, took the epoch it
captured or the certificate's, found that epoch in the certificate (`VerifyUI` compares it with
the identity's), and recorded it. -/
theorem verifyAuthenticationTag_ok {epochs epochs' : EpochMap} {m sig : Bytes}
    {pubKey : Option Pub}
    (h : SGXUSIGAuthenticationScheme.verifyAuthenticationTag A epochs m sig pubKey =
      (.ok (), epochs')) :
    ∃ ui fp epoch signature, UI.unmarshalBinary sig = some ui ∧
      makeUSIGKeyFingerprint A pubKey = .ok fp ∧ capturedEpoch epochs fp ui = .ok epoch ∧
      parseCert ui.cert = .ok (epoch, signature) ∧
      epochs' = Function.update epochs fp (some epoch) := by
  unfold SGXUSIGAuthenticationScheme.verifyAuthenticationTag at h
  split at h
  · cases h
  · next ui hui =>
    split at h
    · cases h
    · next fp hfp =>
      split at h
      · cases h
      · next epoch hepoch =>
        split at h
        · cases h
        · next usigID hid =>
          split at h
          · cases h
          · next hverify =>
            cases h
            -- the identity was made with `epoch`, so the certificate carries it
            obtain ⟨epoch', pubKey', signature, hparse, hcert, -⟩ := Usig.verifyUI_eq_ok hverify
            cases pubKey with
            | none => cases hid
            | some k =>
              rw [Usig.parseID_makeID_epoch hid hparse] at hcert
              exact ⟨ui, fp, epoch, signature, hui, hfp, hepoch, hcert, rfl⟩

/-- The epoch a call builds the identity with reads the map only at the call's fingerprint. -/
theorem capturedEpoch_congr {epochs₁ epochs₂ : EpochMap} {fp : Bytes} (h : epochs₁ fp = epochs₂ fp)
    (ui : UI) : capturedEpoch epochs₁ fp ui = capturedEpoch epochs₂ fp ui := by
  simp only [capturedEpoch, h]

/-- **The scheme answers per key**: a call's result reads the map only at the fingerprint of its
key. -/
theorem verifyAuthenticationTag_local {epochs₁ epochs₂ : EpochMap} {m sig fp : Bytes}
    {pubKey : Option Pub} (hfp : makeUSIGKeyFingerprint A pubKey = .ok fp)
    (h : epochs₁ fp = epochs₂ fp) :
    (SGXUSIGAuthenticationScheme.verifyAuthenticationTag A epochs₁ m sig pubKey).1 =
      (SGXUSIGAuthenticationScheme.verifyAuthenticationTag A epochs₂ m sig pubKey).1 := by
  unfold SGXUSIGAuthenticationScheme.verifyAuthenticationTag
  cases UI.unmarshalBinary sig with
  | none => rfl
  | some ui =>
    -- both calls take the same epoch; what follows reads the map no more
    simp only [hfp, capturedEpoch_congr h ui]
    split <;> try rfl
    split <;> try rfl
    split <;> rfl

/-- **The scheme records per key**: a call leaves the map as it was at every other fingerprint. -/
theorem verifyAuthenticationTag_other {epochs : EpochMap} {m sig fp fp' : Bytes}
    {pubKey : Option Pub} (hfp : makeUSIGKeyFingerprint A pubKey = .ok fp) (hne : fp' ≠ fp) :
    (SGXUSIGAuthenticationScheme.verifyAuthenticationTag A epochs m sig pubKey).2 fp' =
      epochs fp' := by
  rcases hcall : SGXUSIGAuthenticationScheme.verifyAuthenticationTag A epochs m sig pubKey with
    ⟨_ | ⟨⟩, epochs'⟩
  · rw [verifyAuthenticationTag_error A hcall]
  · obtain ⟨ui, fp₀, epoch, -, -, hfp₀, -, -, rfl⟩ := verifyAuthenticationTag_ok A hcall
    rw [hfp] at hfp₀
    cases hfp₀
    exact Function.update_of_ne hne _ _

/-- What the map says of the accepted calls: a fingerprint has an epoch exactly when a call was
accepted under it; then the first such call has counter `1` or the epoch is `0`, and the
certificate of every such call carries the epoch. -/
structure EpochsOk (st : EpochMap × List (TagCall Pub)) : Prop where
  none_iff : ∀ fp, st.1 fp = none ↔ acceptedUnder A fp st.2 = []
  first : ∀ fp e, st.1 fp = some e → ∃ c₀ rest ui₀,
    acceptedUnder A fp st.2 = c₀ :: rest ∧ UI.unmarshalBinary c₀.sig = some ui₀ ∧
      (ui₀.counter = 1 ∨ e = 0) ∧ ∀ c ∈ c₀ :: rest, c.certEpoch = some e

/-- The accepted calls under a fingerprint, after one more accepted call. -/
theorem acceptedUnder_append (fp : Bytes) (accepted : List (TagCall Pub)) (c : TagCall Pub) :
    acceptedUnder A fp (accepted ++ [c]) =
      acceptedUnder A fp accepted ++ if c.fingerprint A = some fp then [c] else [] := by
  by_cases h : c.fingerprint A = some fp <;> simp [acceptedUnder, List.filter_append, h]

/-- **One call keeps `EpochsOk`**: a rejected one changes nothing; an accepted one records, under
its fingerprint, the epoch already there, or that of a first UI with counter `1`, or `0`, and its
certificate carries it. -/
theorem EpochsOk.call {st : EpochMap × List (TagCall Pub)} (h : EpochsOk A st)
    (c : TagCall Pub) : EpochsOk A (verifyCall A st c) := by
  unfold verifyCall
  rcases hcall : SGXUSIGAuthenticationScheme.verifyAuthenticationTag A st.1 c.m c.sig c.pubKey
    with ⟨_ | ⟨⟩, epochs'⟩
  · rw [verifyAuthenticationTag_error A hcall]
    exact h
  obtain ⟨ui, fp, epoch, signature, hui, hfp, hepoch, hcert, rfl⟩ :=
    verifyAuthenticationTag_ok A hcall
  have hcfp : c.fingerprint A = some fp := by simp [TagCall.fingerprint, hfp, Except.toOption]
  have hcepoch : c.certEpoch = some epoch := by
    simp [TagCall.certEpoch, hui, hcert, Except.toOption]
  show EpochsOk A (Function.update st.1 fp (some epoch), st.2 ++ [c])
  constructor
  · intro fp'
    by_cases hfp' : fp' = fp
    · subst hfp'
      simp [acceptedUnder_append, hcfp]
    · have hne : c.fingerprint A ≠ some fp' := by rw [hcfp]; simpa using Ne.symm hfp'
      simp only [Function.update_of_ne hfp', acceptedUnder_append, hne, if_false,
        List.append_nil]
      exact h.none_iff fp'
  · intro fp' e he
    by_cases hfp' : fp' = fp
    · subst hfp'
      simp only [Function.update_self, Option.some.injEq] at he
      subst he
      rw [acceptedUnder_append, if_pos hcfp]
      unfold capturedEpoch at hepoch
      cases hold : st.1 fp' with
      | some e =>
        -- the epoch captured before, which every earlier call's certificate carries
        rw [hold] at hepoch
        cases hepoch
        obtain ⟨c₀, rest, ui₀, hacc, hui₀, hfirst, hall⟩ := h.first fp' _ hold
        refine ⟨c₀, rest ++ [c], ui₀, by rw [hacc]; rfl, hui₀, hfirst, ?_⟩
        intro c' hc'
        rcases List.mem_cons.mp hc' with rfl | hc'
        · exact hall _ List.mem_cons_self
        · rcases List.mem_append.mp hc' with hc' | hc'
          · exact hall c' (List.mem_cons_of_mem _ hc')
          · rw [List.mem_singleton.mp hc']
            exact hcepoch
      | none =>
        -- the first call under this key: a counter-1 UI's epoch, or `0`
        rw [(h.none_iff fp').mp hold]
        rw [hold] at hepoch
        refine ⟨c, [], ui, rfl, hui, ?_, by simpa using hcepoch⟩
        by_cases hone : ui.counter = 1
        · exact .inl hone
        · rw [if_neg hone] at hepoch
          cases hepoch
          exact .inr rfl
    · have hne : c.fingerprint A ≠ some fp' := by rw [hcfp]; simpa using Ne.symm hfp'
      simp only [Function.update_of_ne hfp'] at he
      simp only [acceptedUnder_append, hne, if_false, List.append_nil]
      exact h.first fp' e he

/-- `EpochsOk` holds after any calls from a state where it holds. -/
theorem EpochsOk.foldl {st : EpochMap × List (TagCall Pub)} (h : EpochsOk A st)
    (calls : List (TagCall Pub)) : EpochsOk A (calls.foldl (verifyCall A) st) := by
  induction calls generalizing st with
  | nil => exact h
  | cons c calls ih => exact ih (h.call A c)

theorem epochsOk_empty : EpochsOk A ((fun _ => none : EpochMap), ([] : List (TagCall Pub))) :=
  ⟨fun _ => by simp [acceptedUnder], fun _ _ h => by cases h⟩

/-- **The USIG scheme pins one epoch per key**: a rejected call leaves the map as it was; and
after any sequence of calls, the calls accepted under one key fingerprint are none, and the map
has no epoch for it, or the first of them has counter `1` or epoch `0`, and the certificates of
all of them carry that epoch, which the map holds. -/
theorem verifyCalls_epochs :
    (∀ (epochs epochs' : EpochMap) (m sig : Bytes) (pubKey : Option Pub) (err : String),
      SGXUSIGAuthenticationScheme.verifyAuthenticationTag A epochs m sig pubKey =
        (.error err, epochs') → epochs' = epochs) ∧
    ∀ (calls : List (TagCall Pub)) (fp : Bytes),
      (acceptedUnder A fp (verifyCalls A calls).2 = [] ∧ (verifyCalls A calls).1 fp = none) ∨
      ∃ c₀ rest ui₀ e, acceptedUnder A fp (verifyCalls A calls).2 = c₀ :: rest ∧
        (verifyCalls A calls).1 fp = some e ∧ UI.unmarshalBinary c₀.sig = some ui₀ ∧
        (ui₀.counter = 1 ∨ e = 0) ∧ ∀ c ∈ c₀ :: rest, c.certEpoch = some e := by
  refine ⟨fun _ _ _ _ _ _ h => verifyAuthenticationTag_error A h, fun calls fp => ?_⟩
  have hok := (epochsOk_empty A).foldl A calls
  cases he : (verifyCalls A calls).1 fp with
  | none => exact .inl ⟨(hok.none_iff fp).mp he, rfl⟩
  | some e =>
    obtain ⟨c₀, rest, ui₀, hacc, hui₀, hfirst, hall⟩ := hok.first fp e he
    exact .inr ⟨c₀, rest, ui₀, e, hacc, rfl, hui₀, hfirst, hall⟩

end

/-! ## A key store -/

/-- A stand-in for Go's libraries: the curve's order has 32 bytes, a hash is the last 32 bytes of
its input (the hash of `Usig.toyCrypto`), a signature is the key followed by the first 32 bytes of the hash signed, and its DER
encoding is the byte `0x30` followed by it. -/
def toyAuthen : AuthenCrypto Bytes Bytes Bytes Bytes where
  sum256 := Usig.toyCrypto.sum256
  zeroKey := []
  unsealKey b := .ok b
  sgxSign k data := .ok (k ++ (toBytesBE 32 (ofBytesBE data)))
  pubOf k := k
  toASN1 sig := 0x30 :: sig
  asn1Unmarshal
    | 0x30 :: sig => .ok (sig, [])
    | _ => .error "asn1: syntax error: sequence truncated"
  ecdsaVerify pub hash sig := decide (sig = pub ++ hash.take 32)
  marshalPKIX pub := .ok pub
  parsePKIX b := .ok (.ecdsa b)
  orderBytes _ := 32
  publicKey k := k
  ecdsaSign k hash := .ok (k ++ hash.take 32)
  asn1Marshal sig := .ok (0x30 :: sig)

theorem toyAuthen_ecdsaSound : toyAuthen.EcdsaSound where
  verify_take := by
    intro pub hash sig
    simp [toyAuthen, List.take_take]
  sign_verify := by
    intro k hash sig h
    cases h
    simp [toyAuthen]
  asn1 := by
    intro sig b h
    cases h
    rfl

/-- Two messages of 33 bytes that differ in their last byte. -/
def toyMessage (last : UInt8) : Bytes := List.replicate 32 0 ++ [last]

theorem generateAuthenticationTag_verifies_toyMessage :
    toyAuthen.EcdsaSound ∧
    PublicAuthenScheme.generateAuthenticationTag toyAuthen (toyMessage 0) (some [7]) =
      .ok (0x30 :: 7 :: List.replicate 32 0) ∧
    toyAuthen.orderBytes (toyAuthen.publicKey [7]) ≤ (toyMessage 0).length ∧
    toyAuthen.orderBytes (toyAuthen.publicKey [7]) ≤ (toyMessage 1).length ∧
    (toyMessage 0).take (toyAuthen.orderBytes (toyAuthen.publicKey [7])) =
      (toyMessage 1).take (toyAuthen.orderBytes (toyAuthen.publicKey [7])) ∧
    toyMessage 0 ≠ toyMessage 1 ∧
    PublicAuthenScheme.verifyAuthenticationTag toyAuthen (toyMessage 1) (0x30 :: 7 :: List.replicate 32 0)
      (some (toyAuthen.publicKey [7])) = .ok (.ok ()) :=
  have hgen : PublicAuthenScheme.generateAuthenticationTag toyAuthen (toyMessage 0) (some [7]) =
      .ok (0x30 :: 7 :: List.replicate 32 0) := by decide
  ⟨toyAuthen_ecdsaSound, hgen, by decide, by decide, by decide, by decide,
    generateAuthenticationTag_verifies toyAuthen toyAuthen_ecdsaSound hgen (by decide) (by decide)
      (by decide)⟩

/-- An authenticator whose client role has a key set with a key for client `0` only, checked
with `PublicAuthenScheme`. -/
def toyAuthenticator : Authenticator Bytes :=
  ⟨⟨fun | .client => some (fun | 0 => some [7] | _ => none) | _ => none⟩,
    fun | .client => some .publicAuthen | _ => none⟩

/-- The tag of no byte from client `5`, which has no key, stops the process. -/
example : (toyAuthenticator.verifyMessageAuthenTag toyAuthen .client 5 [1] []).bind
      (fun r => .ok r.1) =
    .panic "ECDSA signature is not ASN.1-DER encoded: asn1: syntax error: sequence truncated" := by
  decide

end MinBFT.Sample
