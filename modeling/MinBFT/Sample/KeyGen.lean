import MinBFT.Sample.Setup

/-!
# Generating a testnet key store, and loading it

Model of `GenerateTestnetKeys` and `generateKeySet` (`sample/authentication/keymanager.go`), which
`keytool generate` calls to write the key store file of a testnet, and the round trip to what the
nodes of the sample make of that file: `LoadSimpleKeyStore` for each node's ID, and
`NewWithSGXUSIG` for the replicas.

* `generateKeyPair` of the two specs draws keys at random (`ecdsa.GenerateKey`, or the SGX
  enclave's key). It is a parameter, `KeyGen`, giving the result of the `k`-th call of a run: the
  ECDSA spec reads the security parameter, the SGX spec its enclave file. Its two panics, on a
  failing `x509.Marshal…` of a fresh key, are left out.
* `yaml.NewEncoder(w).Encode(keys)` is a parameter too; the bytes it writes to `w` are what a
  node's reader returns later. The error of `enc.Close()` is left out.
* `KeyGen.Sound` names what the round trip assumes of these parameters: YAML decodes what it
  encodes, and the keys `generateKeyPair` makes parse back, as its comment in the code says.

The proof meets in the middle at `KeyStoreFileOk`: the loader accepts every well-formed file
(`loadSimpleKeyStore_of_fileOk`), and the generator writes only well-formed ones.

## Results

* `generateTestnetKeys_load`: for every node whose ID is below the number of keys of each of its
  roles, the file `GenerateTestnetKeys` wrote loads, whatever the order of the loops. For each
  role and node ID the store holds the public key generated for it, and for each role of the node
  its own generated keys.
* `generateTestnetKeys_newWithSGXUSIG`: with the `ECDSA` spec for replicas and clients, as
  `keytool` has by default, every replica gets its authenticator from the file once its SGX USIG
  is created: `PublicAuthenScheme` for the replica and client roles, and the SGX USIG's scheme
  for the USIG role, over the loaded public keys.
-/

namespace MinBFT.Sample.Keymanager

open MinBFT.Messages MinBFT.System MinBFT.Core

/-- `TestnetKeyOpts`. -/
structure TestnetKeyOpts where
  numberReplicas : Int
  replicaKeySpec : String
  replicaSecParam : Int
  numberClients : Int
  clientKeySpec : String
  clientSecParam : Int
  usigEnclaveFile : String

/-- What key generation takes from Go's libraries and the SGX enclave. -/
structure KeyGen where
  /-- `ecdsaKeySpec.generateKeyPair(securityParam)` as the `k`-th call of a run: the base64 texts
  of the private and the public key. -/
  generateEcdsa : Nat → Int → Except String (String × String)
  /-- `sgxEcdsaKeySpec.generateKeyPair` with the spec's enclave file, as the `k`-th call. -/
  generateSgx : Nat → String → Except String (String × String)
  /-- `yaml.NewEncoder(w).Encode(keys)`: the bytes written to `w`. -/
  yamlEncode : SimpleKeyStoreFile → Except String Bytes

/-- `spec.generateKeyPair(securityParam)` as the `k`-th call of a run; the SGX spec reads the
enclave file `generateKeySet` gave it. -/
def KeySpec.generateKeyPair (G : KeyGen) (k : Nat) (securityParam : Int) (enclaveFile : String) :
    KeySpec → Except String (String × String)
  | .sgxEcdsa => G.generateSgx k enclaveFile
  | .ecdsa => G.generateEcdsa k securityParam

/-- The panic of `make([]*keyPair, nrKeys)` with a negative length. -/
def makesliceLen : String := "runtime error: makeslice: len out of range"

/-- The loop `for id := range keyset.Keys` of `generateKeySet` over the IDs `ids`, its calls of
`generateKeyPair` numbered from `start`: a key pair for each ID, or the first error. -/
def generateKeyPairs (G : KeyGen) (spec : KeySpec) (secParam : Int) (enclaveFile : String)
    (start : Nat) : List Nat → Except String (List (Option KeyPair))
  | [] => .ok []
  | id :: ids =>
    match spec.generateKeyPair G (start + id) secParam enclaveFile with
    | .error err => .error err
    | .ok (privKey, pubKey) =>
      (generateKeyPairs G spec secParam enclaveFile start ids).map fun keys =>
        some ⟨id, privKey, pubKey⟩ :: keys

/-- `generateKeySet(nrKeys, keySpec, secParam, enclaveFile)`, its calls of `generateKeyPair`
numbered from `start`. -/
def generateKeySet (G : KeyGen) (start : Nat) (nrKeys : Int) (keySpec : String) (secParam : Int)
    (enclaveFile : String) : Outcome (Except String KeySet) :=
  if nrKeys < 0 then .panic makesliceLen
  else
    match getKeySpec keySpec with
    | .error err => .ok (.error err)
    | .ok spec =>
      .ok ((generateKeyPairs G spec secParam enclaveFile start (List.range nrKeys.toNat)).map
        fun keys => ⟨keySpec, keys⟩)

/-- The key store `GenerateTestnetKeys` builds before it encodes it: the replicas' key set, the
USIG key set with the replicas' IDs, and the clients' key set. -/
def testnetKeyStoreFile (G : KeyGen) (opts : TestnetKeyOpts) :
    Outcome (Except String SimpleKeyStoreFile) :=
  (generateKeySet G 0 opts.numberReplicas opts.replicaKeySpec opts.replicaSecParam "").bind fun
    | .error err => .ok (.error err)
    | .ok rKeySet =>
      (generateKeySet G opts.numberReplicas.toNat opts.numberReplicas keySpecSgxEcdsa 0
          opts.usigEnclaveFile).bind fun
        | .error err => .ok (.error err)
        | .ok uKeySet =>
          (generateKeySet G (2 * opts.numberReplicas.toNat) opts.numberClients opts.clientKeySpec
              opts.clientSecParam "").bind fun
            | .error err => .ok (.error err)
            | .ok cKeySet => .ok (.ok ⟨some rKeySet, some uKeySet, some cKeySet⟩)

/-- `GenerateTestnetKeys(w, opts)`: the bytes written to `w`. -/
def generateTestnetKeys (G : KeyGen) (opts : TestnetKeyOpts) : Outcome (Except String Bytes) :=
  (testnetKeyStoreFile G opts).bind fun
    | .error err => .ok (.error err)
    | .ok keys =>
      match G.yamlEncode keys with
      | .error err => .ok (.error ("Failed to marshal simpleKeyStoreFile to yaml: " ++ err))
      | .ok fileBytes => .ok (.ok fileBytes)

/-! ## What a key set is generated from -/

/-- The arguments `GenerateTestnetKeys` gives `generateKeySet` for a role's key set, with the
number of its first call of `generateKeyPair`. -/
structure KeySetArgs where
  start : Nat
  nrKeys : Int
  keySpec : String
  secParam : Int
  enclaveFile : String

/-- The arguments of each role's key set. -/
def TestnetKeyOpts.keySetArgs (opts : TestnetKeyOpts) : AuthenRole → KeySetArgs
  | .replica => ⟨0, opts.numberReplicas, opts.replicaKeySpec, opts.replicaSecParam, ""⟩
  | .usig => ⟨opts.numberReplicas.toNat, opts.numberReplicas, keySpecSgxEcdsa, 0,
      opts.usigEnclaveFile⟩
  | .client => ⟨2 * opts.numberReplicas.toNat, opts.numberClients, opts.clientKeySpec,
      opts.clientSecParam, ""⟩

variable {Key Pub : Type}

/-- The public key generated for node `j` of a key set, as the key store parses it. -/
def generatedPublicKey (G : KeyGen) (C : KeyCodec Key Pub) (keyspec : KeySpec) (args : KeySetArgs)
    (j : Nat) : Option Pub :=
  match keyspec.generateKeyPair G (args.start + j) args.secParam args.enclaveFile with
  | .ok (_, pubKey) => (parsePublicKey C pubKey).toOption
  | .error _ => none

/-- The private key generated for node `j` of a key set, as the key store parses it. -/
def generatedPrivateKey (G : KeyGen) (C : KeyCodec Key Pub) (keyspec : KeySpec)
    (args : KeySetArgs) (j : Nat) : Option (PrivKey Key) :=
  match keyspec.generateKeyPair G (args.start + j) args.secParam args.enclaveFile with
  | .ok (privKey, _) => (keyspec.parsePrivateKey C privKey).toOption
  | .error _ => none

/-- What the round trip assumes of the parameters. -/
structure KeyGen.Sound (G : KeyGen) (C : KeyCodec Key Pub) : Prop where
  /-- YAML decodes what it encodes. -/
  yaml : ∀ keys fileBytes, G.yamlEncode keys = .ok fileBytes → C.yamlUnmarshal fileBytes = .ok keys
  /-- A generated public key parses. -/
  publicKey : ∀ (keyspec : KeySpec) k secParam enclaveFile privKey pubKey,
    keyspec.generateKeyPair G k secParam enclaveFile = .ok (privKey, pubKey) →
      (parsePublicKey C pubKey).toOption.isSome
  /-- A generated private key parses under its spec. -/
  privateKey : ∀ (keyspec : KeySpec) k secParam enclaveFile privKey pubKey,
    keyspec.generateKeyPair G k secParam enclaveFile = .ok (privKey, pubKey) →
      (keyspec.parsePrivateKey C privKey).toOption.isSome

/-- A key set of `count` pairs with the IDs `0 … count - 1` under `keyspec`, each with the keys of
the call `args.start + id`. -/
structure GeneratedKeySet (G : KeyGen) (args : KeySetArgs) (keyset : KeySet) (keyspec : KeySpec)
    (pairs : List KeyPair) : Prop where
  keySpec : keyset.keySpec = args.keySpec
  spec : getKeySpec keyset.keySpec = .ok keyspec
  keys : keyset.keys = pairs.map some
  ids : pairs.map KeyPair.id = List.range args.nrKeys.toNat
  generated : ∀ kp ∈ pairs, keyspec.generateKeyPair G (args.start + kp.id) args.secParam
    args.enclaveFile = .ok (kp.privateKey, kp.publicKey)

variable {G : KeyGen}

/-- The loop of `generateKeySet`, on success: a pair for each ID, in order, with the keys of its
call. -/
theorem generateKeyPairs_eq_ok {keyspec : KeySpec} {secParam : Int} {enclaveFile : String}
    {start : Nat} {ids : List Nat} {keys : List (Option KeyPair)}
    (h : generateKeyPairs G keyspec secParam enclaveFile start ids = .ok keys) :
    ∃ pairs : List KeyPair, keys = pairs.map some ∧ pairs.map KeyPair.id = ids ∧
      ∀ kp ∈ pairs, keyspec.generateKeyPair G (start + kp.id) secParam enclaveFile =
        .ok (kp.privateKey, kp.publicKey) := by
  induction ids generalizing keys with
  | nil =>
    cases h
    exact ⟨[], rfl, rfl, by simp⟩
  | cons id ids ih =>
    simp only [generateKeyPairs] at h
    cases hgen : keyspec.generateKeyPair G (start + id) secParam enclaveFile with
    | error e => simp [hgen] at h
    | ok keyPair =>
      obtain ⟨privKey, pubKey⟩ := keyPair
      cases hrest : generateKeyPairs G keyspec secParam enclaveFile start ids with
      | error e => simp [hgen, hrest, Except.map] at h
      | ok rest =>
        simp only [hgen, hrest, Except.map, Except.ok.injEq] at h
        obtain ⟨pairs, rfl, hids, hgens⟩ := ih hrest
        refine ⟨⟨id, privKey, pubKey⟩ :: pairs, by rw [← h, List.map_cons], by simp [hids], ?_⟩
        intro kp hkp
        rcases List.mem_cons.mp hkp with rfl | hkp
        · exact hgen
        · exact hgens kp hkp

/-- A key set `generateKeySet` returned is generated from its arguments. -/
theorem generateKeySet_eq_ok {args : KeySetArgs} {keyset : KeySet}
    (h : generateKeySet G args.start args.nrKeys args.keySpec args.secParam args.enclaveFile =
      .ok (.ok keyset)) :
    ∃ keyspec pairs, GeneratedKeySet G args keyset keyspec pairs := by
  unfold generateKeySet at h
  split_ifs at h
  split at h
  · cases h
  next keyspec hspec =>
    cases hkeys : generateKeyPairs G keyspec args.secParam args.enclaveFile args.start
        (List.range args.nrKeys.toNat) with
    | error e => simp [hkeys, Except.map] at h
    | ok keys =>
      simp only [hkeys, Except.map, Outcome.ok.injEq, Except.ok.injEq] at h
      subst h
      obtain ⟨pairs, hpairs, hids, hgen⟩ := generateKeyPairs_eq_ok hkeys
      exact ⟨keyspec, pairs, rfl, hspec, hpairs, hids, hgen⟩

/-- Each role's key set of the file `GenerateTestnetKeys` builds is generated from the role's
arguments. -/
theorem testnetKeyStoreFile_eq_ok {opts : TestnetKeyOpts} {keys : SimpleKeyStoreFile}
    (h : testnetKeyStoreFile G opts = .ok (.ok keys)) (role : AuthenRole) :
    ∃ keyset, keys.keySet role = some keyset ∧
      ∃ keyspec pairs, GeneratedKeySet G (opts.keySetArgs role) keyset keyspec pairs := by
  unfold testnetKeyStoreFile at h
  obtain ⟨r₁, h₁, h⟩ := Outcome.bind_eq_ok h
  rcases r₁ with e | rKeySet
  · cases h
  obtain ⟨r₂, h₂, h⟩ := Outcome.bind_eq_ok h
  rcases r₂ with e | uKeySet
  · cases h
  obtain ⟨r₃, h₃, h⟩ := Outcome.bind_eq_ok h
  rcases r₃ with e | cKeySet
  · cases h
  simp only [Outcome.ok.injEq, Except.ok.injEq] at h
  subst h
  cases role with
  | replica => exact ⟨rKeySet, rfl, generateKeySet_eq_ok h₁⟩
  | usig => exact ⟨uKeySet, rfl, generateKeySet_eq_ok h₂⟩
  | client => exact ⟨cKeySet, rfl, generateKeySet_eq_ok h₃⟩

/-- Among pairs with the IDs `0 … count - 1`, there is a last one with ID `j` exactly when
`j < count`. -/
theorem lastPair_of_ids {pairs : List KeyPair} {count j : Nat}
    (hids : pairs.map KeyPair.id = List.range count) :
    (j < count → ∃ kp, lastPair pairs j = some kp ∧ kp ∈ pairs ∧ kp.id = j) ∧
      (count ≤ j → lastPair pairs j = none) := by
  refine ⟨fun hj => ?_, fun hj => ?_⟩
  · have hmem : j ∈ pairs.map KeyPair.id := by simpa [hids] using hj
    obtain ⟨kp, hkp, hid⟩ := List.mem_map.mp hmem
    obtain ⟨kp', hlast⟩ := Option.isSome_iff_exists.mp (lastPair_isSome hkp hid)
    exact ⟨kp', hlast, lastPair_mem hlast⟩
  · cases hlast : lastPair pairs j with
    | none => rfl
    | some kp =>
      obtain ⟨hmem, hid⟩ := lastPair_mem hlast
      have : kp.id ∈ pairs.map KeyPair.id := List.mem_map_of_mem hmem
      rw [hids, List.mem_range] at this
      omega

/-! ## A testnet of one replica and one client -/

/-- The options of a testnet of one replica and one client, with `keytool`'s default specs. -/
def testnetOpts : TestnetKeyOpts :=
  ⟨1, keySpecEcdsa, 256, 1, keySpecEcdsa, 256, "libusig.signed.so"⟩

/-- The key store that `testnetGen` makes for `testnetOpts`. -/
def testnetFile : SimpleKeyStoreFile :=
  ⟨some ⟨keySpecEcdsa, [some ⟨0, "sk0", "pk0"⟩]⟩,
    some ⟨keySpecSgxEcdsa, [some ⟨0, "sealed1", "usig1"⟩]⟩,
    some ⟨keySpecEcdsa, [some ⟨0, "sk2", "pk2"⟩]⟩⟩

/-- Key generation that numbers its keys by call, with a YAML encoder that writes
`testnetFile`, the one file `sampleCodec testnetFile` reads. -/
def testnetGen : KeyGen where
  generateEcdsa k _ := .ok ("sk" ++ toString k, "pk" ++ toString k)
  generateSgx k _ := .ok ("sealed" ++ toString k, "usig" ++ toString k)
  yamlEncode keys := if keys = testnetFile then .ok [] else .error "unexpected key store"

theorem testnetGen_sound : testnetGen.Sound (sampleCodec testnetFile) where
  yaml keys fileBytes h := by
    by_cases hkeys : keys = testnetFile
    · subst hkeys
      rfl
    · simp [testnetGen, hkeys] at h
  publicKey _ _ _ _ _ _ _ := by
    simp [parsePublicKey, sampleCodec, Except.toOption]
  privateKey keyspec _ _ _ _ _ _ := by
    cases keyspec <;> simp [KeySpec.parsePrivateKey, sampleCodec, Except.toOption, Except.map]

/-! ## The round trip -/

variable {C : KeyCodec Key Pub}

/-- The bytes `GenerateTestnetKeys` wrote parse to the key store it built. -/
theorem generateTestnetKeys_eq_ok (hG : G.Sound C) {opts : TestnetKeyOpts} {fileBytes : Bytes}
    (h : generateTestnetKeys G opts = .ok (.ok fileBytes)) :
    ∃ keys, testnetKeyStoreFile G opts = .ok (.ok keys) ∧
      parseSimpleKeyStoreFile C (.ok fileBytes) = .ok keys := by
  unfold generateTestnetKeys at h
  obtain ⟨r, hr, h⟩ := Outcome.bind_eq_ok h
  rcases r with e | keys
  · cases h
  refine ⟨keys, hr, ?_⟩
  cases henc : G.yamlEncode keys with
  | error e => simp [henc] at h
  | ok written =>
    simp only [henc, Outcome.ok.injEq, Except.ok.injEq] at h
    subst h
    simp [parseSimpleKeyStoreFile, hG.yaml keys written henc]

/-- The keys of a generated key set parse. -/
theorem GeneratedKeySet.parses (hG : G.Sound C) {args : KeySetArgs} {keyset : KeySet}
    {keyspec : KeySpec} {pairs : List KeyPair} (hgen : GeneratedKeySet G args keyset keyspec pairs)
    (id : Nat) (owned : Bool) : ∀ kp ∈ pairs, PairParses C id keyspec owned kp := fun kp hkp =>
  ⟨hG.publicKey _ _ _ _ _ _ (hgen.generated kp hkp),
    fun _ _ => hG.privateKey _ _ _ _ _ _ (hgen.generated kp hkp)⟩

/-- In a generated key set, the key of each node ID is the one generated for it, and none past
the number of keys. -/
theorem GeneratedKeySet.lastPair_publicKey {args : KeySetArgs} {keyset : KeySet}
    {keyspec : KeySpec} {pairs : List KeyPair} (hgen : GeneratedKeySet G args keyset keyspec pairs)
    (j : Nat) :
    (lastPair pairs j).bind (pairPublicKey C) =
      if (j : Int) < args.nrKeys then generatedPublicKey G C keyspec args j else none := by
  by_cases hj : (j : Int) < args.nrKeys
  · obtain ⟨kp, hlast, hmem, rfl⟩ := (lastPair_of_ids (j := j) hgen.ids).1 (by omega)
    simp [hj, hlast, pairPublicKey, generatedPublicKey, hgen.generated kp hmem]
  · rw [(lastPair_of_ids (j := j) hgen.ids).2 (by omega), if_neg hj]
    rfl

/-- The file `GenerateTestnetKeys` builds is well formed for a node whose ID is below the number
of keys of each of its roles. -/
theorem testnetKeyStoreFile_fileOk (hG : G.Sound C) {opts : TestnetKeyOpts}
    {keys : SimpleKeyStoreFile} (hkeys : testnetKeyStoreFile G opts = .ok (.ok keys))
    {roles : List AuthenRole} {id : Nat}
    (hid : ∀ role ∈ roles, (id : Int) < (opts.keySetArgs role).nrKeys) :
    KeyStoreFileOk C keys roles id := by
  refine ⟨fun role keyset hset => ?_, fun role hrole => ?_⟩
  · obtain ⟨keyset', hset', keyspec, pairs, hgen⟩ := testnetKeyStoreFile_eq_ok hkeys role
    rw [hset, Option.some.injEq] at hset'
    subst hset'
    exact ⟨keyspec, hgen.spec, pairs, hgen.keys, hgen.parses hG id _⟩
  · obtain ⟨keyset, hset, keyspec, pairs, hgen⟩ := testnetKeyStoreFile_eq_ok hkeys role
    have hlt : id < (opts.keySetArgs role).nrKeys.toNat := by
      have := hid role hrole
      omega
    obtain ⟨kp, -, hmem, hkpid⟩ := (lastPair_of_ids hgen.ids).1 hlt
    exact ⟨keyset, hset, kp, by rw [hgen.keys]; exact List.mem_map_of_mem hmem, hkpid⟩

/-- **Every node loads the file `GenerateTestnetKeys` wrote, with the keys generated for it**:
for a node whose ID is below the number of keys of each of its roles, and whatever the order of
the loop over the roles, `LoadSimpleKeyStore` returns a key store. For each role and node ID it
holds the public key generated for that ID, and none past the number of keys; for each role of
the node, its own generated private and public key. -/
theorem generateTestnetKeys_load (hG : G.Sound C) {opts : TestnetKeyOpts} {fileBytes : Bytes}
    (h : generateTestnetKeys G opts = .ok (.ok fileBytes)) {order roles : List AuthenRole}
    {id : Nat} (horder : order.Perm allRoles)
    (hid : ∀ role ∈ roles, (id : Int) < (opts.keySetArgs role).nrKeys) :
    ∃ ks : SimpleKeyStore Key Pub,
      loadSimpleKeyStore C (.ok fileBytes) order roles id = .ok (.ok ks) ∧
      ∀ role, ∃ keyspec, getKeySpec (opts.keySetArgs role).keySpec = .ok keyspec ∧
        (∀ j, ks.view.nodePublicKey role j =
          .ok (if (j : Int) < (opts.keySetArgs role).nrKeys then
            generatedPublicKey G C keyspec (opts.keySetArgs role) j else none)) ∧
        (role ∈ roles →
          ks.privateKey role = generatedPrivateKey G C keyspec (opts.keySetArgs role) id ∧
          ks.publicKey role = generatedPublicKey G C keyspec (opts.keySetArgs role) id) := by
  obtain ⟨keys, hkeys, hfile⟩ := generateTestnetKeys_eq_ok hG h
  obtain ⟨ks, hload⟩ := loadSimpleKeyStore_of_fileOk horder hfile (testnetKeyStoreFile_fileOk hG hkeys hid)
  refine ⟨ks, hload, fun role => ?_⟩
  obtain ⟨keyset, hset, keyspec, pairs, hgen⟩ := testnetKeyStoreFile_eq_ok hkeys role
  obtain ⟨keyspec', hspec', pairs', hkeys', -, howner, hnode⟩ :=
    loaded_roleKeys_some horder hfile hload hset
  -- the loader found the generated spec and pairs
  rw [hgen.spec, Except.ok.injEq] at hspec'
  subst hspec'
  have hpairs : pairs' = pairs :=
    List.map_injective_iff.mpr (Option.some_injective _) (hkeys'.symm.trans hgen.keys)
  subst hpairs
  refine ⟨keyspec, hgen.keySpec ▸ hgen.spec, fun j => ?_, fun hrole => ?_⟩
  · simp [SimpleKeyStore.view, Sample.SimpleKeyStore.nodePublicKey, hnode,
      hgen.lastPair_publicKey j]
  · have hlt : id < (opts.keySetArgs role).nrKeys.toNat := by
      have := hid role hrole
      omega
    obtain ⟨kp, hlast, hmem, rfl⟩ := (lastPair_of_ids hgen.ids).1 hlt
    have hinit : (initialRoleKeys roles role : RoleKeys Key Pub).owner = some {} := by
      simp [initialRoleKeys, hrole]
    have hgenkp := hgen.generated kp hmem
    constructor
    · simp [SimpleKeyStore.privateKey, howner, hinit, hlast, pairOwnerKey, generatedPrivateKey,
        hgenkp]
    · simp [SimpleKeyStore.publicKey, howner, hinit, hlast, pairOwnerKey, pairPublicKey,
        generatedPublicKey, hgenkp]

theorem generateTestnetKeys_load_testnet :
    ∃ ks : SimpleKeyStore Bytes Bytes,
      loadSimpleKeyStore (sampleCodec testnetFile) (.ok []) allRoles [.replica, .usig] 0 =
        .ok (.ok ks) ∧
      ∀ role, ∃ keyspec, getKeySpec (testnetOpts.keySetArgs role).keySpec = .ok keyspec ∧
        (∀ j, ks.view.nodePublicKey role j =
          .ok (if (j : Int) < (testnetOpts.keySetArgs role).nrKeys then
            generatedPublicKey testnetGen (sampleCodec testnetFile) keyspec
              (testnetOpts.keySetArgs role) j else none)) ∧
        (role ∈ [.replica, .usig] →
          ks.privateKey role = generatedPrivateKey testnetGen (sampleCodec testnetFile) keyspec
            (testnetOpts.keySetArgs role) 0 ∧
          ks.publicKey role = generatedPublicKey testnetGen (sampleCodec testnetFile) keyspec
            (testnetOpts.keySetArgs role) 0) :=
  generateTestnetKeys_load testnetGen_sound rfl (List.Perm.refl _) (by decide)

/-- **Every replica gets its authenticator from the generated file**: with the `ECDSA` spec for
replicas and clients, for a replica whose ID is below the number of replicas, the loaded key
store gives the node its own sealed USIG key, and whatever the order of its loops and whatever
`sgxusig.New` does with other keys, `NewWithSGXUSIG` returns an authenticator over the loaded key
store's public keys, with `PublicAuthenScheme` for the replica and client roles and the SGX USIG's
scheme for the USIG role, once `sgxusig.New` accepts that sealed key; and the error
`failed to create USIG` when it does not. -/
theorem generateTestnetKeys_newWithSGXUSIG (hG : G.Sound C) {opts : TestnetKeyOpts}
    {fileBytes : Bytes} (h : generateTestnetKeys G opts = .ok (.ok fileBytes))
    (hreplica : opts.replicaKeySpec = keySpecEcdsa) (hclient : opts.clientKeySpec = keySpecEcdsa)
    {order nodeOrder : List AuthenRole} (horder : order.Perm allRoles)
    (hnodeOrder : nodeOrder.Perm allRoles) {id : Nat} (hid : (id : Int) < opts.numberReplicas) :
    ∃ (ks : SimpleKeyStore Key Pub) (sealedKey : Bytes),
      loadSimpleKeyStore C (.ok fileBytes) order [.replica, .usig] id = .ok (.ok ks) ∧
      (∃ owner, (ks.roleKeys .usig).owner = some owner ∧
        owner.privateKey = some (.sealed sealedKey)) ∧
      ∀ sgxusigNew : Bytes → Except String Unit,
        (sgxusigNew sealedKey = .ok () →
          ∃ au, newWithSGXUSIG C (.ok fileBytes) order nodeOrder [.replica, .usig] id sgxusigNew =
            .ok (.ok au) ∧ au.ks = ks.view ∧ ∀ role, au.authschemes role = roleScheme .sgx role) ∧
        ∀ err, sgxusigNew sealedKey = .error err →
          newWithSGXUSIG C (.ok fileBytes) order nodeOrder [.replica, .usig] id sgxusigNew =
            .ok (.error ("failed to create USIG: " ++ err)) := by
  obtain ⟨keys, hkeys, hfile⟩ := generateTestnetKeys_eq_ok hG h
  have hid' : ∀ role ∈ [AuthenRole.replica, .usig], (id : Int) < (opts.keySetArgs role).nrKeys := by
    simpa [TestnetKeyOpts.keySetArgs] using hid
  obtain ⟨ks, hload⟩ :=
    loadSimpleKeyStore_of_fileOk horder hfile (testnetKeyStoreFile_fileOk hG hkeys hid')
  -- each key set has its role's spec, so `new` gives each role its scheme
  have hspecs : ∀ role keyset, keys.keySet role = some keyset →
      (role = .usig ↔ keyset.keySpec = keySpecSgxEcdsa) ∧
        (role = .usig → SuppliedUSIG.sgx ≠ .other) := by
    intro role keyset hset
    obtain ⟨keyset', hset', _, _, hgen⟩ := testnetKeyStoreFile_eq_ok hkeys role
    rw [hset, Option.some.injEq] at hset'
    subst hset'
    rw [hgen.keySpec]
    cases role <;> simp [TestnetKeyOpts.keySetArgs, hreplica, hclient, keySpecEcdsa, keySpecSgxEcdsa]
  have hnew := new_of_specs horder hfile hload hnodeOrder hspecs
  -- the node's USIG key is the sealed key of its pair in the USIG key set
  obtain ⟨keyset, keyspec, hset, hspec, pairs, kp, -, hlast, hparses, howner, -⟩ :=
    loaded_owner horder hfile hload (show AuthenRole.usig ∈ [AuthenRole.replica, .usig] by simp)
  obtain ⟨keyset', hset', keyspec', _, hgen⟩ := testnetKeyStoreFile_eq_ok hkeys .usig
  rw [hset, Option.some.injEq] at hset'
  subst hset'
  have hsgxSpec : keyspec = .sgxEcdsa := by
    have hname := getSpecName_of_getKeySpec hspec
    rw [hgen.keySpec] at hname
    cases keyspec
    · rfl
    · simp [KeySpec.getSpecName, TestnetKeyOpts.keySetArgs, keySpecEcdsa, keySpecSgxEcdsa] at hname
  subst hsgxSpec
  obtain ⟨priv, hpriv⟩ :=
    exists_eq_ok_of_toOption_isSome (hparses.privateKey rfl (lastPair_mem hlast).2)
  obtain ⟨sealedKey, rfl⟩ := parsePrivateKey_sgxEcdsa C hpriv
  refine ⟨ks, sealedKey, hload, ⟨_, howner, by simp [pairOwnerKey, hpriv, Except.toOption]⟩,
    fun sgxusigNew => ⟨fun hsgx => ?_, fun err hsgx => ?_⟩⟩
  · -- `sgxusig.New` accepts the node's key: `new` builds the authenticator
    refine ⟨⟨ks.view, fun role => (keys.keySet role).bind fun _ => roleScheme .sgx role⟩, ?_,
      rfl, fun role => ?_⟩
    · simp [newWithSGXUSIG, hload, howner, pairOwnerKey, hpriv, Except.toOption, hsgx, hnew]
    · obtain ⟨keyset, hset, -⟩ := testnetKeyStoreFile_eq_ok hkeys role
      simp [hset]
  · simp [newWithSGXUSIG, hload, howner, pairOwnerKey, hpriv, Except.toOption, hsgx]

theorem generateTestnetKeys_newWithSGXUSIG_testnet :
    ∃ (ks : SimpleKeyStore Bytes Bytes) (sealedKey : Bytes),
      loadSimpleKeyStore (sampleCodec testnetFile) (.ok []) allRoles [.replica, .usig] 0 =
        .ok (.ok ks) ∧
      (∃ owner, (ks.roleKeys .usig).owner = some owner ∧
        owner.privateKey = some (.sealed sealedKey)) ∧
      ∀ sgxusigNew : Bytes → Except String Unit,
        (sgxusigNew sealedKey = .ok () →
          ∃ au, newWithSGXUSIG (sampleCodec testnetFile) (.ok []) allRoles allRoles
            [.replica, .usig] 0 sgxusigNew = .ok (.ok au) ∧ au.ks = ks.view ∧
            ∀ role, au.authschemes role = roleScheme .sgx role) ∧
        ∀ err, sgxusigNew sealedKey = .error err →
          newWithSGXUSIG (sampleCodec testnetFile) (.ok []) allRoles allRoles [.replica, .usig] 0
            sgxusigNew = .ok (.error ("failed to create USIG: " ++ err)) :=
  generateTestnetKeys_newWithSGXUSIG testnetGen_sound
    (show generateTestnetKeys testnetGen testnetOpts = .ok (.ok []) from rfl) rfl rfl
    (List.Perm.refl _) (List.Perm.refl _) (by decide)

end MinBFT.Sample.Keymanager
