import MinBFT.Sample.Authentication
import MinBFT.System.KeyedFold

/-!
# Loading the sample key store

Model of `LoadSimpleKeyStore` (`sample/authentication/keymanager.go`). It reads a YAML key store
file and, for each role with a key set, parses the key spec and every key pair. It keeps every
node's public key and, for the roles the node plays, its own key pair. Then it checks that the
node has a private key for each of its roles.

* The file is what `ioutil.ReadAll` returns; an error there is the reader's. `yaml.Unmarshal`,
  `base64.StdEncoding.DecodeString` and the `x509` parsers are parameters (`KeyCodec`). A YAML
  null among the pairs of a key set is a nil `*keyPair` (`none`).
* The loop over the roles ranges over the map `keySets`, whose order Go leaves open. It is the
  parameter `order`, a permutation of the three roles. Its body for a role reads and writes only
  that role's entries of `ownerKeys` and `nodePublicKeys` (`RoleKeys`) and the store's `id`, so
  the loop is `System.foldKeys` over the roles.
* The store's public key sets are what `Authentication` models as `Sample.SimpleKeyStore`
  (`SimpleKeyStore.view`), the key store `VerifyMessageAuthenTag` reads.

## Results

* `loadSimpleKeyStore_perm`: a load that succeeds gives the same key store in whatever order
  Go's map iteration visits the roles. A load that fails may fail differently
  (`loadSimpleKeyStore_failure_order`).
* `loadSimpleKeyStore_node_keys`: a loaded store holds each role's key set of the file, with its
  spec and, for each node ID, the public key of the last pair the set lists for that ID.
* `loadSimpleKeyStore_own_keys`: for each role the node plays, the store holds the keys of the
  last pair with the node's ID. Its public key is the node's own entry in the role's key set.
* `loadSimpleKeyStore_panic`: the load never hangs. It panics only on a file one of whose key
  sets lists a null key pair.
-/

namespace MinBFT.Sample.Keymanager

open MinBFT.Messages MinBFT.System MinBFT.Core

/-! ## The key store file -/

/-- `keyPair`: a node's ID and its keys, as text. -/
structure KeyPair where
  id : Nat
  privateKey : String
  publicKey : String
  deriving DecidableEq, Repr

/-- `keySet`: a key spec name and the key pairs, `none` for a nil `*keyPair`. -/
structure KeySet where
  keySpec : String
  keys : List (Option KeyPair)
  deriving DecidableEq, Repr

/-- `simpleKeyStoreFile`: the key set of each role, `none` where the file has none. -/
structure SimpleKeyStoreFile where
  replica : Option KeySet
  usig : Option KeySet
  client : Option KeySet
  deriving DecidableEq, Repr

/-- The map `keySets` of `LoadSimpleKeyStore`. -/
def SimpleKeyStoreFile.keySet (f : SimpleKeyStoreFile) : AuthenRole → Option KeySet
  | .replica => f.replica
  | .usig => f.usig
  | .client => f.client

/-- The keys of the map `keySets`, in one of the orders a `range` over it may take. -/
def allRoles : List AuthenRole := [.replica, .usig, .client]

theorem allRoles_nodup : allRoles.Nodup := by decide

/-- What the key store takes from Go's libraries. -/
structure KeyCodec (Key Pub : Type) where
  /-- `base64.StdEncoding.DecodeString`. -/
  base64Decode : String → Except String Bytes
  /-- `x509.ParseECPrivateKey`. -/
  parseECPrivateKey : Bytes → Except String Key
  /-- `x509.ParsePKIXPublicKey`, then the assertion to `*ecdsa.PublicKey`: `none` for a key of
  another type. -/
  parsePKIXPublicKey : Bytes → Except String (Option Pub)
  /-- `yaml.Unmarshal` into a `simpleKeyStoreFile`. -/
  yamlUnmarshal : Bytes → Except String SimpleKeyStoreFile

variable {Key Pub : Type} (C : KeyCodec Key Pub)

/-- `parseSimpleKeyStoreFile`, from what `ioutil.ReadAll` returned. -/
def parseSimpleKeyStoreFile (read : Except String Bytes) : Except String SimpleKeyStoreFile :=
  match read with
  | .error e => .error ("read error: " ++ e)
  | .ok fileBytes =>
    match C.yamlUnmarshal fileBytes with
    | .error e => .error ("yaml parse error: " ++ e)
    | .ok keyStoreFile => .ok keyStoreFile

/-! ## Key specs -/

def keySpecSgxEcdsa : String := "SGX_ECDSA"

def keySpecEcdsa : String := "ECDSA"

/-- The two implementations of the interface `keySpec`. -/
inductive KeySpec where
  | sgxEcdsa
  | ecdsa
  deriving DecidableEq, Repr

/-- `getKeySpec(keySpecStr)`. -/
def getKeySpec (keySpecStr : String) : Except String KeySpec :=
  if keySpecStr = keySpecSgxEcdsa then .ok .sgxEcdsa
  else if keySpecStr = keySpecEcdsa then .ok .ecdsa
  else .error ("unknown KeySpec: " ++ keySpecStr)

/-- `getSpecName()`. -/
def KeySpec.getSpecName : KeySpec → String
  | .sgxEcdsa => keySpecSgxEcdsa
  | .ecdsa => keySpecEcdsa

/-- A spec that `getKeySpec` finds has the name it was found by. -/
theorem getSpecName_of_getKeySpec {keySpecStr : String} {keyspec : KeySpec}
    (h : getKeySpec keySpecStr = .ok keyspec) : keyspec.getSpecName = keySpecStr := by
  unfold getKeySpec at h
  split_ifs at h with hsgx hecdsa
  · cases h
    exact hsgx.symm
  · cases h
    exact hecdsa.symm

/-- A private key as `parsePrivateKey` returns it in an `interface{}`: an ECDSA key, or the
sealed key of an SGX USIG enclave. -/
inductive PrivKey (Key : Type) where
  | ecdsa (k : Key)
  | sealed (b : Bytes)

/-- `parsePrivateKey(privKeyStr)` of each spec. The SGX spec's returns the decoded bytes, and
the decoder's error as it is. -/
def KeySpec.parsePrivateKey : KeySpec → String → Except String (PrivKey Key)
  | .sgxEcdsa, privKeyStr => (C.base64Decode privKeyStr).map .sealed
  | .ecdsa, privKeyStr =>
    match C.base64Decode privKeyStr with
    | .error e => .error ("base64 decode error (ECDSA private key): " ++ e)
    | .ok der =>
      match C.parseECPrivateKey der with
      | .error e => .error ("parse error (ECDSA private key): " ++ e)
      | .ok privKey => .ok (.ecdsa privKey)

theorem parsePrivateKey_sgxEcdsa {privKeyStr : String} {privKey : PrivKey Key}
    (h : KeySpec.sgxEcdsa.parsePrivateKey C privKeyStr = .ok privKey) : ∃ b, privKey = .sealed b := by
  simp only [KeySpec.parsePrivateKey] at h
  cases hdec : C.base64Decode privKeyStr with
  | error e => simp [hdec, Except.map] at h
  | ok b =>
    simp only [hdec, Except.map, Except.ok.injEq] at h
    exact ⟨b, h.symm⟩

theorem parsePrivateKey_ecdsa {privKeyStr : String} {privKey : PrivKey Key}
    (h : KeySpec.ecdsa.parsePrivateKey C privKeyStr = .ok privKey) : ∃ k, privKey = .ecdsa k := by
  simp only [KeySpec.parsePrivateKey] at h
  cases hdec : C.base64Decode privKeyStr with
  | error e => simp [hdec] at h
  | ok der =>
    cases hkey : C.parseECPrivateKey der with
    | error e => simp [hdec, hkey] at h
    | ok k =>
      simp only [hdec, hkey, Except.ok.injEq] at h
      exact ⟨k, h.symm⟩

/-- `parsePublicKey(pubKeyStr)` of `ecdsaKeySpec`, which `sgxEcdsaKeySpec` embeds: a
DER-encoded ECDSA public key in base64. -/
def parsePublicKey (pubKeyStr : String) : Except String Pub :=
  match C.base64Decode pubKeyStr with
  | .error e => .error ("base64 decode error (ECDSA public key): " ++ e)
  | .ok der =>
    match C.parsePKIXPublicKey der with
    | .error e => .error ("parse error (ECDSA public Key): " ++ e)
    | .ok none => .error "public key format error: expect ECDSA"
    | .ok (some pubKey) => .ok pubKey

/-! ## The key store -/

/-- `ownerKey`: the key spec and keys of the node for a role it plays. -/
structure OwnerKey (Key Pub : Type) where
  keyspec : String := ""
  privateKey : Option (PrivKey Key) := none
  publicKey : Option Pub := none

/-- `publicKeySet`: the key spec of a role and the public key of each node ID, `none` for an ID
without one. -/
structure PublicKeySet (Pub : Type) where
  keyspec : String
  keys : Nat → Option Pub

/-- The entries of one role in the maps `ownerKeys` and `nodePublicKeys`, `none` where a map
has none. -/
structure RoleKeys (Key Pub : Type) where
  owner : Option (OwnerKey Key Pub)
  nodeKeys : Option (PublicKeySet Pub)

/-- `SimpleKeyStore`: the node's ID, and the entries of its two maps by role. -/
structure SimpleKeyStore (Key Pub : Type) where
  id : Nat
  roleKeys : AuthenRole → RoleKeys Key Pub

namespace SimpleKeyStore

variable (ks : SimpleKeyStore Key Pub) (role : AuthenRole)

/-- `KeySpec(role)`. -/
def keySpec : String := ((ks.roleKeys role).owner.map OwnerKey.keyspec).getD ""

/-- `PrivateKey(role)`. -/
def privateKey : Option (PrivKey Key) := (ks.roleKeys role).owner.bind OwnerKey.privateKey

/-- `PublicKey(role)`. -/
def publicKey : Option Pub := (ks.roleKeys role).owner.bind OwnerKey.publicKey

/-- `NodeKeySpec(role)`. -/
def nodeKeySpec : String := ((ks.roleKeys role).nodeKeys.map PublicKeySet.keyspec).getD ""

/-- The public key sets, which `NodePublicKey` reads: the store as `VerifyMessageAuthenTag`
sees it. -/
def view : Sample.SimpleKeyStore Pub :=
  ⟨fun r => (ks.roleKeys r).nodeKeys.map PublicKeySet.keys⟩

end SimpleKeyStore

/-! ## Loading -/

/-- `parseKeyPair(role, keyspec, keypair)` on the entries of `role`, for the node `id`. The
public key goes to the role's set. When the node plays the role and the pair is its own, the
private key is parsed too, and both become its owner key. The set is read from the map; a nil
set would be dereferenced, but `LoadSimpleKeyStore` always sets it first. -/
def parseKeyPair (id : Nat) (keyspec : KeySpec) (keypair : KeyPair) (rk : RoleKeys Key Pub) :
    Outcome (Except String (RoleKeys Key Pub)) :=
  match rk.nodeKeys with
  | none => .panic nilDereference
  | some pubkeyMap =>
    match parsePublicKey C keypair.publicKey with
    | .error e => .ok (.error e)
    | .ok pubKey =>
      let rk : RoleKeys Key Pub := { rk with nodeKeys := some { pubkeyMap with
        keys := Function.update pubkeyMap.keys keypair.id (some pubKey) } }
      match rk.owner with
      | some _ =>
        if keypair.id = id then
          match keyspec.parsePrivateKey C keypair.privateKey with
          | .error e => .ok (.error e)
          | .ok privKey =>
            .ok (.ok { rk with owner := some ⟨keyspec.getSpecName, some privKey, some pubKey⟩ })
        else .ok (.ok rk)
      | none => .ok (.ok rk)

/-- `for _, keypair := range keyset.Keys`: a nil pair panics where `parseKeyPair` reads its
`PublicKey`; an error ends the load. -/
def parseKeyPairs (id : Nat) (keyspec : KeySpec) :
    List (Option KeyPair) → RoleKeys Key Pub → Outcome (Except String (RoleKeys Key Pub))
  | [], rk => .ok (.ok rk)
  | none :: _, _ => .panic nilDereference
  | some keypair :: keypairs, rk =>
    (parseKeyPair C id keyspec keypair rk).bind fun
      | .error e => .ok (.error e)
      | .ok rk => parseKeyPairs id keyspec keypairs rk

/-- The body of `LoadSimpleKeyStore`'s loop for one role: nothing for a role without a key set;
else its key spec, a new public key set, and each key pair. -/
def loadKeySet (id : Nat) (keyset : Option KeySet) (rk : RoleKeys Key Pub) :
    Outcome (Except String (RoleKeys Key Pub)) :=
  match keyset with
  | none => .ok (.ok rk)
  | some keyset =>
    match getKeySpec keyset.keySpec with
    | .error e => .ok (.error e)
    | .ok keyspec =>
      parseKeyPairs C id keyspec keyset.keys
        { rk with nodeKeys := some ⟨keyspec.getSpecName, fun _ => none⟩ }

/-- The store before the loop: an empty owner key for each role the node plays. -/
def initialRoleKeys (roles : List AuthenRole) (role : AuthenRole) : RoleKeys Key Pub :=
  ⟨if role ∈ roles then some {} else none, none⟩

/-- The check after the loop: the node has a private key for each of its roles. -/
def checkOwnKeys (ks : SimpleKeyStore Key Pub) (roles : List AuthenRole) :
    Except String (SimpleKeyStore Key Pub) :=
  match roles.find? fun r => (ks.privateKey r).isNone with
  | some r => .error ("missing key: cannot find node's own key (role=" ++ roleString r ++
      ", id=" ++ toString ks.id ++ ")")
  | none => .ok ks

/-- `LoadSimpleKeyStore(reader, roles, id)`, with `read` what `ioutil.ReadAll` returns and
`order` the order in which the loop visits the roles of `keySets`. -/
def loadSimpleKeyStore (read : Except String Bytes) (order roles : List AuthenRole) (id : Nat) :
    Outcome (Except String (SimpleKeyStore Key Pub)) :=
  match parseSimpleKeyStoreFile C read with
  | .error e => .ok (.error e)
  | .ok keys =>
    (foldKeys (fun role => loadKeySet C id (keys.keySet role)) order
      (initialRoleKeys roles)).bind fun
        | .error e => .ok (.error e)
        | .ok roleKeys => .ok (checkOwnKeys ⟨id, roleKeys⟩ roles)

theorem mem_allRoles (role : AuthenRole) : role ∈ allRoles := by
  cases role <;> decide

/-! ## What a load that succeeds computes -/

/-- The last pair of a list of key pairs with the node ID `j`. -/
def lastPair (pairs : List KeyPair) (j : Nat) : Option KeyPair :=
  (pairs.filter fun kp => kp.id = j).getLast?

theorem lastPair_cons (kp : KeyPair) (pairs : List KeyPair) (j : Nat) :
    lastPair (kp :: pairs) j = (lastPair pairs j).or (if kp.id = j then some kp else none) := by
  unfold lastPair
  by_cases hj : kp.id = j
  · rw [List.filter_cons, if_pos (decide_eq_true hj), List.getLast?_cons, if_pos hj]
    cases (pairs.filter fun kp => kp.id = j).getLast? <;> rfl
  · rw [List.filter_cons, if_neg (by simpa using hj), if_neg hj, Option.or_none]

theorem lastPair_mem {pairs : List KeyPair} {j : Nat} {kp : KeyPair}
    (h : lastPair pairs j = some kp) : kp ∈ pairs ∧ kp.id = j := by
  have hfilter := List.mem_filter.mp (List.mem_of_getLast? h)
  exact ⟨hfilter.1, of_decide_eq_true hfilter.2⟩

/-- The public key a pair gives its node, `none` where it does not parse. -/
def pairPublicKey (kp : KeyPair) : Option Pub := (parsePublicKey C kp.publicKey).toOption

/-- The owner key a pair with the node's ID gives it under a spec. -/
def pairOwnerKey (keyspec : KeySpec) (kp : KeyPair) : OwnerKey Key Pub :=
  ⟨keyspec.getSpecName, (keyspec.parsePrivateKey C kp.privateKey).toOption, pairPublicKey C kp⟩

/-- What `parseKeyPair` does to a role's entries when the pair's keys parse. -/
def addKeyPair (id : Nat) (keyspec : KeySpec) (rk : RoleKeys Key Pub) (kp : KeyPair) :
    RoleKeys Key Pub :=
  ⟨rk.owner.map fun o => if kp.id = id then pairOwnerKey C keyspec kp else o,
    rk.nodeKeys.map fun set =>
      { set with keys := Function.update set.keys kp.id (pairPublicKey C kp) }⟩

/-- The keys of a pair that `parseKeyPair` parses: the public key, and the private key where the
pair is the node's own in a role it plays (`owned`). -/
structure PairParses (id : Nat) (keyspec : KeySpec) (owned : Bool) (kp : KeyPair) : Prop where
  publicKey : (pairPublicKey C kp).isSome
  privateKey : owned → kp.id = id → (keyspec.parsePrivateKey C kp.privateKey).toOption.isSome

/-- A parse whose result as an option is present returned a value. -/
theorem exists_eq_ok_of_toOption_isSome {ε α : Type} {x : Except ε α} (h : x.toOption.isSome) :
    ∃ a, x = .ok a := by
  cases x with
  | error e => simp [Except.toOption] at h
  | ok a => exact ⟨a, rfl⟩

variable {C}

/-- `parseKeyPair` returns without error only on a role with a public key set and a pair whose
keys parse, and then it adds the pair as `addKeyPair` does. -/
theorem parseKeyPair_eq_ok {id : Nat} {keyspec : KeySpec} {kp : KeyPair}
    {rk rk' : RoleKeys Key Pub} (h : parseKeyPair C id keyspec kp rk = .ok (.ok rk')) :
    rk.nodeKeys.isSome ∧ PairParses C id keyspec rk.owner.isSome kp ∧
      rk' = addKeyPair C id keyspec rk kp := by
  unfold parseKeyPair at h
  rcases hset : rk.nodeKeys with _ | set
  · simp [hset] at h
  rcases hpub : parsePublicKey C kp.publicKey with e | pub
  · simp [hset, hpub] at h
  have hpk : pairPublicKey C kp = some pub := by simp [pairPublicKey, hpub, Except.toOption]
  -- the private key is parsed only for a role the node plays and a pair with its ID
  rcases ho : rk.owner with _ | o
  · simp only [hset, hpub, ho, Outcome.ok.injEq, Except.ok.injEq] at h
    subst h
    exact ⟨rfl, ⟨by simp [hpk], fun h => by simp at h⟩, by simp [addKeyPair, ho, hset, hpk]⟩
  by_cases hid : kp.id = id
  · rcases hpriv : keyspec.parsePrivateKey C kp.privateKey with e | priv
    · simp [hset, hpub, ho, hid, hpriv] at h
    simp only [hset, hpub, ho, hid, hpriv, if_true, Outcome.ok.injEq, Except.ok.injEq] at h
    subst h
    refine ⟨rfl, ⟨by simp [hpk], fun _ _ => by simp [hpriv, Except.toOption]⟩, ?_⟩
    simp [addKeyPair, ho, hset, hid, pairOwnerKey, hpk, hpriv, Except.toOption]
  · simp only [hset, hpub, ho, hid, if_false, Outcome.ok.injEq, Except.ok.injEq] at h
    subst h
    exact ⟨rfl, ⟨by simp [hpk], fun _ h => absurd h hid⟩, by simp [addKeyPair, ho, hset, hid, hpk]⟩

/-- **The loop over a key set, on success**: the set lists no null pair, every pair's keys parse,
and the entries are the pairs added in order. -/
theorem parseKeyPairs_eq_ok {id : Nat} {keyspec : KeySpec} {kps : List (Option KeyPair)}
    {rk rk' : RoleKeys Key Pub} (h : parseKeyPairs C id keyspec kps rk = .ok (.ok rk')) :
    ∃ pairs : List KeyPair, kps = pairs.map some ∧ (∀ kp ∈ pairs, PairParses C id keyspec rk.owner.isSome kp) ∧
      rk' = pairs.foldl (addKeyPair C id keyspec) rk := by
  induction kps generalizing rk with
  | nil =>
    cases h
    exact ⟨[], rfl, by simp, rfl⟩
  | cons okp kps ih =>
    rcases okp with _ | kp
    · cases h
    rw [parseKeyPairs] at h
    obtain ⟨r, hr, hrest⟩ := Outcome.bind_eq_ok h
    rcases r with e | rk₁
    · cases hrest
    obtain ⟨-, hparses, rfl⟩ := parseKeyPair_eq_ok hr
    obtain ⟨pairs, rfl, hall, rfl⟩ := ih hrest
    -- adding a pair keeps the role's owner entry, so the rest are owned as the first is
    have howned : (addKeyPair C id keyspec rk kp).owner.isSome = rk.owner.isSome := by
      simp [addKeyPair]
    refine ⟨kp :: pairs, rfl, fun kp' hkp' => ?_, rfl⟩
    rcases List.mem_cons.mp hkp' with rfl | hkp'
    · exact hparses
    · exact howned ▸ hall kp' hkp'

variable (C)

/-- After the pairs, the owner entry holds the keys of the last pair with the node's ID. -/
theorem foldl_addKeyPair_owner (id : Nat) (keyspec : KeySpec) (pairs : List KeyPair)
    (rk : RoleKeys Key Pub) :
    (pairs.foldl (addKeyPair C id keyspec) rk).owner =
      rk.owner.map fun o => ((lastPair pairs id).map (pairOwnerKey C keyspec)).getD o := by
  induction pairs generalizing rk with
  | nil => simp [lastPair]
  | cons kp pairs ih =>
    rw [List.foldl_cons, ih]
    simp only [addKeyPair, Option.map_map]
    congr 1
    funext o
    simp only [Function.comp_apply, lastPair_cons]
    cases lastPair pairs id with
    | some x => rfl
    | none => by_cases hid : kp.id = id <;> simp [hid]

/-- After the pairs, each node ID's public key is that of the last pair with that ID. -/
theorem foldl_addKeyPair_nodeKeys (id : Nat) (keyspec : KeySpec) (pairs : List KeyPair)
    (rk : RoleKeys Key Pub) :
    (pairs.foldl (addKeyPair C id keyspec) rk).nodeKeys =
      rk.nodeKeys.map fun set =>
        { set with keys := fun j => ((lastPair pairs j).map (pairPublicKey C)).getD (set.keys j) } := by
  induction pairs generalizing rk with
  | nil => simp [lastPair]
  | cons kp pairs ih =>
    rw [List.foldl_cons, ih]
    simp only [addKeyPair, Option.map_map]
    congr 1
    funext set
    simp only [Function.comp_apply, lastPair_cons]
    congr 1
    funext j
    cases lastPair pairs j with
    | some x => rfl
    | none =>
      by_cases hj : kp.id = j
      · subst hj
        simp
      · simp [hj, Function.update_of_ne (Ne.symm hj)]

variable {C}

theorem loadKeySet_none (id : Nat) (rk : RoleKeys Key Pub) :
    loadKeySet C id none rk = .ok (.ok rk) := rfl

/-- The loop body for a role with a key set, on success: the spec is known, and the entries are
its pairs added to a new public key set. -/
theorem loadKeySet_some_eq_ok {id : Nat} {keyset : KeySet} {rk rk' : RoleKeys Key Pub}
    (h : loadKeySet C id (some keyset) rk = .ok (.ok rk')) :
    ∃ keyspec, getKeySpec keyset.keySpec = .ok keyspec ∧ ∃ pairs : List KeyPair,
      keyset.keys = pairs.map some ∧ (∀ kp ∈ pairs, PairParses C id keyspec rk.owner.isSome kp) ∧
      rk' = pairs.foldl (addKeyPair C id keyspec)
        { rk with nodeKeys := some ⟨keyspec.getSpecName, fun _ => none⟩ } := by
  simp only [loadKeySet] at h
  split at h
  · cases h
  next keyspec hspec =>
    exact ⟨keyspec, hspec, parseKeyPairs_eq_ok h⟩

/-- The final check passes only when the node has a private key for each of its roles, and
returns the store as it is. -/
theorem checkOwnKeys_eq_ok {ks ks' : SimpleKeyStore Key Pub} {roles : List AuthenRole}
    (h : checkOwnKeys ks roles = .ok ks') : ks' = ks ∧ ∀ r ∈ roles, (ks.privateKey r).isSome := by
  unfold checkOwnKeys at h
  split at h
  · cases h
  next hfind =>
    cases h
    refine ⟨rfl, fun r hr => ?_⟩
    simpa [Option.isSome_iff_ne_none] using List.find?_eq_none.mp hfind r hr

/-- `LoadSimpleKeyStore` succeeds exactly when the file parses, the loop over the roles runs
without error, and the final check passes. -/
theorem loadSimpleKeyStore_eq_ok_iff {read : Except String Bytes} {order roles : List AuthenRole}
    {id : Nat} {ks : SimpleKeyStore Key Pub} :
    loadSimpleKeyStore C read order roles id = .ok (.ok ks) ↔
      ∃ keys roleKeys, parseSimpleKeyStoreFile C read = .ok keys ∧
        foldKeys (fun role => loadKeySet C id (keys.keySet role)) order (initialRoleKeys roles) =
          .ok (.ok roleKeys) ∧
        checkOwnKeys ⟨id, roleKeys⟩ roles = .ok ks := by
  unfold loadSimpleKeyStore
  constructor
  · intro h
    split at h
    · cases h
    next keys hfile =>
      obtain ⟨r, hr, hcheck⟩ := Outcome.bind_eq_ok h
      rcases r with e | roleKeys
      · cases hcheck
      exact ⟨keys, roleKeys, hfile, hr, Outcome.ok.inj hcheck⟩
  · rintro ⟨keys, roleKeys, hfile, hfold, hcheck⟩
    simp only [hfile, hfold, Outcome.ok_bind, hcheck]

/-- **A loaded store, role by role**: each role's entries are what the loop body made of the
role's key set, whatever the order of the loop; and the node has a private key for each of its
roles. -/
theorem loadSimpleKeyStore_eq_ok {read : Except String Bytes} {order roles : List AuthenRole}
    {id : Nat} {keys : SimpleKeyStoreFile} {ks : SimpleKeyStore Key Pub}
    (horder : order.Perm allRoles) (hfile : parseSimpleKeyStoreFile C read = .ok keys)
    (h : loadSimpleKeyStore C read order roles id = .ok (.ok ks)) :
    ks.id = id ∧
      (∀ role, loadKeySet C id (keys.keySet role) (initialRoleKeys roles role) =
        .ok (.ok (ks.roleKeys role))) ∧
      ∀ role ∈ roles, (ks.privateKey role).isSome := by
  obtain ⟨keys', roleKeys, hfile', hfold, hcheck⟩ := loadSimpleKeyStore_eq_ok_iff.mp h
  rw [hfile, Except.ok.injEq] at hfile'
  subst hfile'
  obtain ⟨rfl, hown⟩ := checkOwnKeys_eq_ok hcheck
  -- every role is visited, once
  obtain ⟨hvis, -⟩ := (foldKeys_eq_ok_iff (horder.nodup_iff.mpr allRoles_nodup)).mp hfold
  exact ⟨rfl, fun role => hvis role (horder.mem_iff.mpr (mem_allRoles role)), hown⟩

/-- A loaded store keeps the initial entries of a role without a key set in the file. -/
theorem loaded_roleKeys_none {read : Except String Bytes} {order roles : List AuthenRole}
    {id : Nat} {keys : SimpleKeyStoreFile} {ks : SimpleKeyStore Key Pub}
    (horder : order.Perm allRoles) (hfile : parseSimpleKeyStoreFile C read = .ok keys)
    (h : loadSimpleKeyStore C read order roles id = .ok (.ok ks)) {role : AuthenRole}
    (hnone : keys.keySet role = none) : ks.roleKeys role = initialRoleKeys roles role := by
  have hrk := (loadSimpleKeyStore_eq_ok horder hfile h).2.1 role
  rw [hnone, loadKeySet_none, Outcome.ok.injEq, Except.ok.injEq] at hrk
  exact hrk.symm

/-- A loaded store's entries for a role with a key set in the file: the owner entry, if any,
holds the keys of the last pair with the node's ID; the public key set has the set's spec and,
for each node ID, the key of the last pair with the ID. -/
theorem loaded_roleKeys_some {read : Except String Bytes} {order roles : List AuthenRole}
    {id : Nat} {keys : SimpleKeyStoreFile} {ks : SimpleKeyStore Key Pub}
    (horder : order.Perm allRoles) (hfile : parseSimpleKeyStoreFile C read = .ok keys)
    (h : loadSimpleKeyStore C read order roles id = .ok (.ok ks)) {role : AuthenRole}
    {keyset : KeySet} (hsome : keys.keySet role = some keyset) :
    ∃ keyspec, getKeySpec keyset.keySpec = .ok keyspec ∧ ∃ pairs : List KeyPair,
      keyset.keys = pairs.map some ∧
      (∀ kp ∈ pairs, PairParses C id keyspec (initialRoleKeys roles role : RoleKeys Key Pub).owner.isSome kp) ∧
      (ks.roleKeys role).owner = (initialRoleKeys roles role).owner.map
        (fun o => ((lastPair pairs id).map (pairOwnerKey C keyspec)).getD o) ∧
      (ks.roleKeys role).nodeKeys =
        some ⟨keyset.keySpec, fun j => (lastPair pairs j).bind (pairPublicKey C)⟩ := by
  obtain ⟨keyspec, hspec, pairs, hkeys, hall, hrk⟩ :=
    loadKeySet_some_eq_ok (hsome ▸ (loadSimpleKeyStore_eq_ok horder hfile h).2.1 role)
  refine ⟨keyspec, hspec, pairs, hkeys, hall, ?_, ?_⟩
  · rw [hrk, foldl_addKeyPair_owner]
  · rw [hrk, foldl_addKeyPair_nodeKeys, ← getSpecName_of_getKeySpec hspec, Option.map_some]
    congr
    funext j
    cases lastPair pairs j <;> rfl

/-- A loaded store's owner entry for a role the node plays: the file has a key set for the role
with a pair with the node's ID, and the entry holds the keys of the last such pair. -/
theorem loaded_owner {read : Except String Bytes} {order roles : List AuthenRole}
    {id : Nat} {keys : SimpleKeyStoreFile} {ks : SimpleKeyStore Key Pub}
    (horder : order.Perm allRoles) (hfile : parseSimpleKeyStoreFile C read = .ok keys)
    (h : loadSimpleKeyStore C read order roles id = .ok (.ok ks)) {role : AuthenRole}
    (hrole : role ∈ roles) :
    ∃ keyset keyspec, keys.keySet role = some keyset ∧ getKeySpec keyset.keySpec = .ok keyspec ∧
      ∃ (pairs : List KeyPair) (kp : KeyPair), keyset.keys = pairs.map some ∧
        lastPair pairs id = some kp ∧ PairParses C id keyspec true kp ∧
        (ks.roleKeys role).owner = some (pairOwnerKey C keyspec kp) ∧
        (ks.roleKeys role).nodeKeys =
          some ⟨keyset.keySpec, fun j => (lastPair pairs j).bind (pairPublicKey C)⟩ := by
  have hpriv := (loadSimpleKeyStore_eq_ok horder hfile h).2.2 role hrole
  have hinit : (initialRoleKeys roles role : RoleKeys Key Pub).owner = some {} := by
    simp [initialRoleKeys, hrole]
  cases hset : keys.keySet role with
  | none =>
    -- without a key set the owner entry stays empty, which the final check rejects
    simp [SimpleKeyStore.privateKey, loaded_roleKeys_none horder hfile h hset, hinit] at hpriv
  | some keyset =>
    obtain ⟨keyspec, hspec, pairs, hkeys, hall, howner, hnode⟩ :=
      loaded_roleKeys_some horder hfile h hset
    rw [hinit, Option.map_some] at howner
    cases hlast : lastPair pairs id with
    | none =>
      -- no pair with the node's ID: the owner entry stays empty again
      simp [SimpleKeyStore.privateKey, howner, hlast] at hpriv
    | some kp =>
      have hparses := hall kp (lastPair_mem hlast).1
      rw [hinit, Option.isSome_some] at hparses
      exact ⟨keyset, keyspec, rfl, hspec, pairs, kp, hkeys, hlast, hparses,
        by rw [howner, hlast]; rfl, hnode⟩

/-! ## A sample key store file -/

/-- A codec that reads any bytes as `file`, decodes a key's text to its length, and takes a key's
bytes as the key. -/
def sampleCodec (file : SimpleKeyStoreFile) : KeyCodec Bytes Bytes :=
  ⟨fun s => .ok [s.length.toUInt8], .ok, fun b => .ok (some b), fun _ => .ok file⟩

/-- The ECDSA keys of replicas 0 and 1, where replica 0 has a second pair, and the USIG key of
replica 0. -/
def sampleFile : SimpleKeyStoreFile :=
  ⟨some ⟨keySpecEcdsa, [some ⟨0, "priv0", "pub0"⟩, some ⟨1, "priv1", "pub1"⟩,
      some ⟨0, "privzero", "pubzero"⟩]⟩,
    some ⟨keySpecSgxEcdsa, [some ⟨0, "sealed0", "usig0"⟩]⟩, none⟩

/-- Replica 0 loads `sampleFile` for its two roles, visiting the roles in `order`. -/
def sampleLoad (order : List AuthenRole) : Outcome (Except String (SimpleKeyStore Bytes Bytes)) :=
  loadSimpleKeyStore (sampleCodec sampleFile) (.ok []) order [.replica, .usig] 0

theorem sampleLoad_ok : ∃ ks, sampleLoad allRoles = .ok (.ok ks) := ⟨_, rfl⟩

/-- Key sets of two roles with unknown specs. -/
def badSpecFile : SimpleKeyStoreFile := ⟨some ⟨"RSA", []⟩, none, some ⟨"DSA", []⟩⟩

/-- **The loaded store does not depend on the order of the loop over the roles**: a load that
succeeds visiting the roles in one order succeeds with the same store in any other. -/
theorem loadSimpleKeyStore_perm {read : Except String Bytes} {order order' roles : List AuthenRole}
    {id : Nat} {ks : SimpleKeyStore Key Pub} (horder : order.Perm allRoles)
    (horder' : order'.Perm allRoles) (h : loadSimpleKeyStore C read order roles id = .ok (.ok ks)) :
    loadSimpleKeyStore C read order' roles id = .ok (.ok ks) := by
  obtain ⟨keys, roleKeys, hfile, hfold, hcheck⟩ := loadSimpleKeyStore_eq_ok_iff.mp h
  -- the loop over the roles ends in the same entries in the other order
  exact loadSimpleKeyStore_eq_ok_iff.mpr ⟨keys, roleKeys, hfile,
    foldKeys_perm (horder.trans horder'.symm) (horder.nodup_iff.mpr allRoles_nodup) hfold, hcheck⟩

theorem loadSimpleKeyStore_perm_sample :
    ∃ ks, sampleLoad allRoles = .ok (.ok ks) ∧ sampleLoad [.client, .usig, .replica] = .ok (.ok ks) := by
  obtain ⟨ks, hks⟩ := sampleLoad_ok
  exact ⟨ks, hks, loadSimpleKeyStore_perm (List.Perm.refl _) (by decide) hks⟩

/-- A load that fails may fail with another error in another order: of two unknown key specs,
the error names the spec of the role the loop visits first. -/
theorem loadSimpleKeyStore_failure_order :
    loadSimpleKeyStore (sampleCodec badSpecFile) (.ok []) allRoles [] 0 =
        (.ok (.error "unknown KeySpec: RSA") : Outcome (Except String (SimpleKeyStore Bytes Bytes))) ∧
      loadSimpleKeyStore (sampleCodec badSpecFile) (.ok []) [.client, .usig, .replica] [] 0 =
        .ok (.error "unknown KeySpec: DSA") :=
  ⟨rfl, rfl⟩

/-- **The public keys of a loaded store**: a role without a key set in the file has no public key
set. A role with one has its spec, every pair of it parses, and the key of each node ID is that
of the last pair with the ID, `nil` for an ID the set does not list. -/
theorem loadSimpleKeyStore_node_keys {read : Except String Bytes} {order roles : List AuthenRole}
    {id : Nat} {keys : SimpleKeyStoreFile} {ks : SimpleKeyStore Key Pub}
    (horder : order.Perm allRoles) (hfile : parseSimpleKeyStoreFile C read = .ok keys)
    (h : loadSimpleKeyStore C read order roles id = .ok (.ok ks)) (role : AuthenRole) :
    (keys.keySet role = none → ks.view.nodePublicKeys role = none) ∧
      ∀ keyset, keys.keySet role = some keyset →
        ks.nodeKeySpec role = keyset.keySpec ∧ ∃ pairs : List KeyPair,
          keyset.keys = pairs.map some ∧ (∀ kp ∈ pairs, (pairPublicKey C kp).isSome) ∧
          ∀ j, ks.view.nodePublicKey role j = .ok ((lastPair pairs j).bind (pairPublicKey C)) := by
  refine ⟨fun hnone => ?_, fun keyset hsome => ?_⟩
  · simp [SimpleKeyStore.view, loaded_roleKeys_none horder hfile h hnone, initialRoleKeys]
  · obtain ⟨_, -, pairs, hkeys, hall, -, hnode⟩ := loaded_roleKeys_some horder hfile h hsome
    refine ⟨by simp [SimpleKeyStore.nodeKeySpec, hnode], pairs, hkeys,
      fun kp hkp => (hall kp hkp).publicKey, fun j => ?_⟩
    simp [SimpleKeyStore.view, Sample.SimpleKeyStore.nodePublicKey, hnode]

theorem loadSimpleKeyStore_node_keys_sample :
    ∃ ks, sampleLoad allRoles = .ok (.ok ks) ∧
      (sampleFile.keySet .replica = none → ks.view.nodePublicKeys .replica = none) ∧
      ∀ keyset, sampleFile.keySet .replica = some keyset →
        ks.nodeKeySpec .replica = keyset.keySpec ∧ ∃ pairs : List KeyPair,
          keyset.keys = pairs.map some ∧
          (∀ kp ∈ pairs, (pairPublicKey (sampleCodec sampleFile) kp).isSome) ∧
          ∀ j, ks.view.nodePublicKey .replica j =
            .ok ((lastPair pairs j).bind (pairPublicKey (sampleCodec sampleFile))) := by
  obtain ⟨ks, hks⟩ := sampleLoad_ok
  exact ⟨ks, hks, loadSimpleKeyStore_node_keys (List.Perm.refl _) rfl hks .replica⟩

/-- **The node's own keys in a loaded store**: for each role the node plays, the file has a key
set with a pair with the node's ID. The store holds the spec of the set and the keys of the last
such pair, both parsed. Its public key is the node's entry in the role's public key set, the key
other nodes check the node's messages with. -/
theorem loadSimpleKeyStore_own_keys {read : Except String Bytes} {order roles : List AuthenRole}
    {id : Nat} {keys : SimpleKeyStoreFile} {ks : SimpleKeyStore Key Pub}
    (horder : order.Perm allRoles) (hfile : parseSimpleKeyStoreFile C read = .ok keys)
    (h : loadSimpleKeyStore C read order roles id = .ok (.ok ks)) {role : AuthenRole}
    (hrole : role ∈ roles) :
    ks.id = id ∧ ∃ keyset keyspec, keys.keySet role = some keyset ∧
      getKeySpec keyset.keySpec = .ok keyspec ∧ ∃ (pairs : List KeyPair) (kp : KeyPair),
        keyset.keys = pairs.map some ∧ lastPair pairs id = some kp ∧
        ks.keySpec role = keyset.keySpec ∧
        (ks.privateKey role).isSome ∧
        ks.privateKey role = (keyspec.parsePrivateKey C kp.privateKey).toOption ∧
        (ks.publicKey role).isSome ∧ ks.publicKey role = pairPublicKey C kp ∧
        ks.view.nodePublicKey role id = .ok (ks.publicKey role) := by
  obtain ⟨hid, -, hown⟩ := loadSimpleKeyStore_eq_ok horder hfile h
  obtain ⟨keyset, keyspec, hset, hspec, pairs, kp, hkeys, hlast, hparses, howner, hnode⟩ :=
    loaded_owner horder hfile h hrole
  have hpub : ks.publicKey role = pairPublicKey C kp := by
    simp [SimpleKeyStore.publicKey, howner, pairOwnerKey]
  refine ⟨hid, keyset, keyspec, hset, hspec, pairs, kp, hkeys, hlast, ?_, hown role hrole, ?_,
    hpub ▸ hparses.publicKey, hpub, ?_⟩
  · simp [SimpleKeyStore.keySpec, howner, pairOwnerKey, getSpecName_of_getKeySpec hspec]
  · simp [SimpleKeyStore.privateKey, howner, pairOwnerKey]
  · simp [SimpleKeyStore.view, Sample.SimpleKeyStore.nodePublicKey, hnode, hlast, hpub]

theorem loadSimpleKeyStore_own_keys_sample :
    ∃ ks, sampleLoad allRoles = .ok (.ok ks) ∧ ks.id = 0 ∧ ∃ keyset keyspec,
      sampleFile.keySet .usig = some keyset ∧ getKeySpec keyset.keySpec = .ok keyspec ∧
      ∃ (pairs : List KeyPair) (kp : KeyPair),
        keyset.keys = pairs.map some ∧ lastPair pairs 0 = some kp ∧
        ks.keySpec .usig = keyset.keySpec ∧
        (ks.privateKey .usig).isSome ∧
        ks.privateKey .usig = (keyspec.parsePrivateKey (sampleCodec sampleFile) kp.privateKey).toOption ∧
        (ks.publicKey .usig).isSome ∧ ks.publicKey .usig = pairPublicKey (sampleCodec sampleFile) kp ∧
        ks.view.nodePublicKey .usig 0 = .ok (ks.publicKey .usig) := by
  obtain ⟨ks, hks⟩ := sampleLoad_ok
  exact ⟨ks, hks, loadSimpleKeyStore_own_keys (List.Perm.refl _) rfl hks (by decide)⟩

/-! ## Which files load -/

variable (C) in
/-- What `LoadSimpleKeyStore` accepts of a parsed file, for the node `id` playing `roles`: each
key set has a known spec and no null pair, and the keys of its pairs parse (the private key where
the pair is the node's own in a role it plays); each role of the node has a key set with a pair
with the node's ID. -/
def KeyStoreFileOk (keys : SimpleKeyStoreFile) (roles : List AuthenRole) (id : Nat) : Prop :=
  (∀ role keyset, keys.keySet role = some keyset →
    ∃ keyspec, getKeySpec keyset.keySpec = .ok keyspec ∧ ∃ pairs : List KeyPair,
      keyset.keys = pairs.map some ∧
      ∀ kp ∈ pairs, PairParses C id keyspec (decide (role ∈ roles)) kp) ∧
  ∀ role ∈ roles, ∃ keyset, keys.keySet role = some keyset ∧ ∃ kp, some kp ∈ keyset.keys ∧ kp.id = id

theorem initialRoleKeys_owner_isSome (roles : List AuthenRole) (role : AuthenRole) :
    (initialRoleKeys roles role : RoleKeys Key Pub).owner.isSome = decide (role ∈ roles) := by
  by_cases h : role ∈ roles <;> simp [initialRoleKeys, h]

theorem lastPair_isSome {pairs : List KeyPair} {j : Nat} {kp : KeyPair} (hkp : kp ∈ pairs)
    (hid : kp.id = j) : (lastPair pairs j).isSome := by
  unfold lastPair
  rw [List.getLast?_isSome]
  exact List.ne_nil_of_mem (List.mem_filter.mpr ⟨hkp, decide_eq_true hid⟩)

/-- `parseKeyPair` on a role with a public key set and a pair whose keys parse adds the pair. -/
theorem parseKeyPair_of_parses {id : Nat} {keyspec : KeySpec} {kp : KeyPair}
    {rk : RoleKeys Key Pub} (hset : rk.nodeKeys.isSome)
    (hparses : PairParses C id keyspec rk.owner.isSome kp) :
    parseKeyPair C id keyspec kp rk = .ok (.ok (addKeyPair C id keyspec rk kp)) := by
  obtain ⟨set, hs⟩ := Option.isSome_iff_exists.mp hset
  obtain ⟨pub, hpub⟩ := exists_eq_ok_of_toOption_isSome hparses.publicKey
  unfold parseKeyPair
  rcases ho : rk.owner with _ | o
  · simp [hs, hpub, ho, addKeyPair, pairPublicKey, Except.toOption]
  by_cases hid : kp.id = id
  · obtain ⟨priv, hpriv⟩ := exists_eq_ok_of_toOption_isSome (hparses.privateKey (by simp [ho]) hid)
    simp [hs, hpub, ho, hid, hpriv, addKeyPair, pairOwnerKey, pairPublicKey, Except.toOption]
  · simp [hs, hpub, ho, hid, addKeyPair, pairPublicKey, Except.toOption]

/-- The loop over a key set whose pairs' keys parse adds them all, in order. -/
theorem parseKeyPairs_of_parses {id : Nat} {keyspec : KeySpec} {pairs : List KeyPair}
    {rk : RoleKeys Key Pub} (hset : rk.nodeKeys.isSome)
    (hparses : ∀ kp ∈ pairs, PairParses C id keyspec rk.owner.isSome kp) :
    parseKeyPairs C id keyspec (pairs.map some) rk =
      .ok (.ok (pairs.foldl (addKeyPair C id keyspec) rk)) := by
  induction pairs generalizing rk with
  | nil => rfl
  | cons kp pairs ih =>
    -- adding a pair keeps the public key set and the owner entry
    have hset' : (addKeyPair C id keyspec rk kp).nodeKeys.isSome := by simpa [addKeyPair] using hset
    have howned : (addKeyPair C id keyspec rk kp).owner.isSome = rk.owner.isSome := by
      simp [addKeyPair]
    rw [List.map_cons, parseKeyPairs, parseKeyPair_of_parses hset (hparses kp List.mem_cons_self),
      Outcome.ok_bind, List.foldl_cons]
    exact ih hset' fun kp' hkp' => howned ▸ hparses kp' (List.mem_cons_of_mem kp hkp')

/-- The final check passes a store with a private key for each role of the node. -/
theorem checkOwnKeys_of_isSome {ks : SimpleKeyStore Key Pub} {roles : List AuthenRole}
    (h : ∀ r ∈ roles, (ks.privateKey r).isSome) : checkOwnKeys ks roles = .ok ks := by
  have hfind : roles.find? (fun r => (ks.privateKey r).isNone) = none := by
    rw [List.find?_eq_none]
    intro r hr
    simpa [Option.isSome_iff_ne_none] using h r hr
  simp [checkOwnKeys, hfind]

/-- **A well-formed file loads**: whatever the order of the loop over the roles,
`LoadSimpleKeyStore` succeeds on a file that parses to a `KeyStoreFileOk` key store. -/
theorem loadSimpleKeyStore_of_fileOk {read : Except String Bytes} {order roles : List AuthenRole}
    {id : Nat} {keys : SimpleKeyStoreFile} (horder : order.Perm allRoles)
    (hfile : parseSimpleKeyStoreFile C read = .ok keys) (hok : KeyStoreFileOk C keys roles id) :
    ∃ ks : SimpleKeyStore Key Pub, loadSimpleKeyStore C read order roles id = .ok (.ok ks) := by
  obtain ⟨hsets, hown⟩ := hok
  -- the loop body returns without error for each role, with the node's private key for its own
  have hstep : ∀ role, ∃ rk : RoleKeys Key Pub,
      loadKeySet C id (keys.keySet role) (initialRoleKeys roles role) = .ok (.ok rk) ∧
      (role ∈ roles → (rk.owner.bind OwnerKey.privateKey).isSome) := by
    intro role
    cases hset : keys.keySet role with
    | none =>
      refine ⟨_, loadKeySet_none id _, fun hrole => ?_⟩
      obtain ⟨keyset, hset', -⟩ := hown role hrole
      rw [hset] at hset'
      cases hset'
    | some keyset =>
      obtain ⟨keyspec, hspec, pairs, hkeys, hparses⟩ := hsets role keyset hset
      have hparses' : ∀ kp ∈ pairs,
          PairParses C id keyspec (initialRoleKeys roles role : RoleKeys Key Pub).owner.isSome kp := by
        simpa [initialRoleKeys_owner_isSome] using hparses
      refine ⟨pairs.foldl (addKeyPair C id keyspec)
        { initialRoleKeys roles role with nodeKeys := some ⟨keyspec.getSpecName, fun _ => none⟩ },
        ?_, fun hrole => ?_⟩
      · simp only [loadKeySet, hspec, hkeys]
        exact parseKeyPairs_of_parses rfl hparses'
      -- the last pair with the node's ID gives it its private key
      obtain ⟨keyset', hset', kp, hkp, hkpid⟩ := hown role hrole
      rw [hset, Option.some.injEq] at hset'
      subst hset'
      have hmem : kp ∈ pairs := by simpa [hkeys] using hkp
      obtain ⟨kp', hlast⟩ := Option.isSome_iff_exists.mp (lastPair_isSome hmem hkpid)
      obtain ⟨hmem', hid'⟩ := lastPair_mem hlast
      have hinit : (initialRoleKeys roles role : RoleKeys Key Pub).owner = some {} := by
        simp [initialRoleKeys, hrole]
      have hparse := (hparses kp' hmem').privateKey (by simp [hrole]) hid'
      simp [foldl_addKeyPair_owner, hinit, hlast, pairOwnerKey, hparse]
  choose roleKeys hroleKeys using hstep
  have hfold : foldKeys (fun role => loadKeySet C id (keys.keySet role)) order
      (initialRoleKeys roles) = .ok (.ok roleKeys) :=
    (foldKeys_eq_ok_iff (horder.nodup_iff.mpr allRoles_nodup)).mpr
      ⟨fun role _ => (hroleKeys role).1,
        fun role hrole => absurd (horder.mem_iff.mpr (mem_allRoles role)) hrole⟩
  exact ⟨⟨id, roleKeys⟩, loadSimpleKeyStore_eq_ok_iff.mpr
    ⟨keys, roleKeys, hfile, hfold, checkOwnKeys_of_isSome fun role hrole => (hroleKeys role).2 hrole⟩⟩

/-- **`LoadSimpleKeyStore` accepts exactly the well-formed files**: whatever the order of the
loop over the roles, it returns a key store exactly when the file parses to a
`KeyStoreFileOk` key store. -/
theorem loadSimpleKeyStore_ok_iff {read : Except String Bytes} {order roles : List AuthenRole}
    {id : Nat} (horder : order.Perm allRoles) :
    (∃ ks : SimpleKeyStore Key Pub, loadSimpleKeyStore C read order roles id = .ok (.ok ks)) ↔
      ∃ keys, parseSimpleKeyStoreFile C read = .ok keys ∧ KeyStoreFileOk C keys roles id := by
  constructor
  · rintro ⟨ks, h⟩
    obtain ⟨keys, -, hfile, -, -⟩ := loadSimpleKeyStore_eq_ok_iff.mp h
    refine ⟨keys, hfile, fun role keyset hset => ?_, fun role hrole => ?_⟩
    · obtain ⟨keyspec, hspec, pairs, hkeys, hparses, -, -⟩ := loaded_roleKeys_some horder hfile h hset
      exact ⟨keyspec, hspec, pairs, hkeys, fun kp hkp => by
        simpa [initialRoleKeys_owner_isSome] using hparses kp hkp⟩
    · obtain ⟨keyset, -, hset, -, pairs, kp, hkeys, hlast, -⟩ := loaded_owner horder hfile h hrole
      obtain ⟨hmem, hid⟩ := lastPair_mem hlast
      exact ⟨keyset, hset, kp, by simpa [hkeys] using hmem, hid⟩
  · rintro ⟨keys, hfile, hok⟩
    exact loadSimpleKeyStore_of_fileOk horder hfile hok

theorem loadSimpleKeyStore_ok_iff_sample :
    allRoles.Perm allRoles ∧
      ((∃ ks, sampleLoad allRoles = .ok (.ok ks)) ↔
        ∃ keys, parseSimpleKeyStoreFile (sampleCodec sampleFile) (.ok []) = .ok keys ∧
          KeyStoreFileOk (sampleCodec sampleFile) keys [.replica, .usig] 0) :=
  ⟨List.Perm.refl _, loadSimpleKeyStore_ok_iff (List.Perm.refl _)⟩

/-! ## Panics -/

/-- `parseKeyPair` on a role with a public key set returns. -/
theorem parseKeyPair_returns {id : Nat} {keyspec : KeySpec} {kp : KeyPair} {rk : RoleKeys Key Pub}
    (hset : rk.nodeKeys.isSome) : ∃ r, parseKeyPair C id keyspec kp rk = .ok r := by
  obtain ⟨set, hs⟩ := Option.isSome_iff_exists.mp hset
  unfold parseKeyPair
  -- past the read of the set, every branch returns an error or the new entries
  rcases parsePublicKey C kp.publicKey with e | pub
  · simp [hs]
  rcases rk.owner with _ | o
  · simp [hs]
  by_cases hid : kp.id = id
  · rcases keyspec.parsePrivateKey C kp.privateKey with e | priv <;> simp [hs, hid]
  · simp [hs, hid]

/-- The loop over a key set, from entries with a public key set, returns, or panics at a null
pair of the set. -/
theorem parseKeyPairs_returns_or_panics (id : Nat) (keyspec : KeySpec)
    (kps : List (Option KeyPair)) {rk : RoleKeys Key Pub} (hset : rk.nodeKeys.isSome) :
    (∃ r, parseKeyPairs C id keyspec kps rk = .ok r) ∨
      (parseKeyPairs C id keyspec kps rk = .panic nilDereference ∧ none ∈ kps) := by
  induction kps generalizing rk with
  | nil => exact .inl ⟨_, rfl⟩
  | cons okp kps ih =>
    rcases okp with _ | kp
    · exact .inr ⟨rfl, List.mem_cons_self⟩
    obtain ⟨r, hr⟩ := parseKeyPair_returns hset
    rw [parseKeyPairs, hr, Outcome.ok_bind]
    rcases r with e | rk₁
    · exact .inl ⟨_, rfl⟩
    -- the pair keeps the public key set for the next
    obtain ⟨-, -, rfl⟩ := parseKeyPair_eq_ok hr
    have hset₁ : (addKeyPair C id keyspec rk kp).nodeKeys.isSome := by
      simpa [addKeyPair] using hset
    rcases ih hset₁ with hok | ⟨hpanic, hnull⟩
    · exact .inl hok
    · exact .inr ⟨hpanic, List.mem_cons_of_mem _ hnull⟩

/-- The loop body for a role returns, or panics at a null pair of the role's key set. -/
theorem loadKeySet_returns_or_panics (id : Nat) (keyset : Option KeySet) (rk : RoleKeys Key Pub) :
    (∃ r, loadKeySet C id keyset rk = .ok r) ∨
      (loadKeySet C id keyset rk = .panic nilDereference ∧
        ∃ ks, keyset = some ks ∧ none ∈ ks.keys) := by
  rcases keyset with _ | keyset
  · exact .inl ⟨_, rfl⟩
  simp only [loadKeySet]
  split
  · exact .inl ⟨_, rfl⟩
  next keyspec _ =>
    refine (parseKeyPairs_returns_or_panics id keyspec keyset.keys rfl).imp (fun h => h) ?_
    rintro ⟨hpanic, hnull⟩
    exact ⟨hpanic, keyset, rfl, hnull⟩

/-- **The load never hangs, and panics only on a null key pair**: a panic is the nil dereference
of a null pair in the key set of a role that the loop visits. -/
theorem loadSimpleKeyStore_panic (read : Except String Bytes) (order roles : List AuthenRole)
    (id : Nat) :
    loadSimpleKeyStore C read order roles id ≠ .hang ∧
      ∀ msg, loadSimpleKeyStore C read order roles id = .panic msg →
        msg = nilDereference ∧ ∃ keys role keyset, parseSimpleKeyStoreFile C read = .ok keys ∧
          role ∈ order ∧ keys.keySet role = some keyset ∧ none ∈ keyset.keys := by
  unfold loadSimpleKeyStore
  cases hfile : parseSimpleKeyStoreFile C read with
  | error e => simp
  | ok keys =>
    simp only
    -- each role's step returns or panics, and what follows the loop returns
    have hstep : ∀ role rk, loadKeySet C id (keys.keySet role) rk ≠ .hang := by
      intro role rk
      rcases loadKeySet_returns_or_panics (C := C) id (keys.keySet role) rk with ⟨r, hr⟩ | ⟨hp, -⟩
      · simp [hr]
      · simp [hp]
    refine ⟨Outcome.bind_ne_hang (foldKeys_ne_hang hstep _ _) fun r _ => ?_, fun msg h => ?_⟩
    · rcases r with e | roleKeys <;> simp
    rcases Outcome.bind_eq_panic h with hfold | ⟨r, -, hr⟩
    · obtain ⟨role, hrole, rk, hrk⟩ := foldKeys_eq_panic hfold
      rcases loadKeySet_returns_or_panics (C := C) id (keys.keySet role) rk with
        ⟨r, hr⟩ | ⟨hp, keyset, hks, hnull⟩
      · rw [hr] at hrk
        cases hrk
      · rw [hp, Outcome.panic.injEq] at hrk
        exact ⟨hrk.symm, keys, role, keyset, rfl, hrole, hks, hnull⟩
    · rcases r with e | roleKeys <;> cases hr

/-- A key set with a null pair. -/
def nullPairFile : SimpleKeyStoreFile := ⟨some ⟨keySpecEcdsa, [none]⟩, none, none⟩

example :
    loadSimpleKeyStore (sampleCodec nullPairFile) (.ok []) allRoles [] 0 = .panic nilDereference :=
  rfl

end MinBFT.Sample.Keymanager
