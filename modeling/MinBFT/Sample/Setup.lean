import MinBFT.Sample.KeyStore

/-!
# Setting up the sample authenticator

Model of `new` and `NewWithSGXUSIG` (`sample/authentication/authenticator.go`). The authenticator
of a node has a scheme for each role with a public key set in its key store, chosen by the spec
of the set. `NewWithSGXUSIG`, which the replicas of the sample call, first loads the key store
and creates the SGX USIG from the node's sealed USIG key.

* `new`'s loop ranges over `NodeRoles()`, itself a range over the map `nodePublicKeys`. Its order
  is the parameter `order`, a permutation of the roles, of which the loop visits those with a
  key set. Its body for a role reads the spec of the role's set and writes the role's scheme, so
  it is `System.foldKeys` again.
* The USIG `new` is given is `nil`, an SGX USIG, or one of another type (`SuppliedUSIG`).
  `sgxusig.New(enclaveFile, sealedKey)` is a parameter: an error, or a USIG.
* The authenticator keeps the key store's public key sets (`SimpleKeyStore.view`), which is what
  `VerifyMessageAuthenTag` reads; its `id` is read by no call modelled.

## Results

* `new_loaded`: on a loaded key store, `new` succeeds exactly when each key set of the file has
  its role's spec (`SGX_ECDSA` for the USIG role, `ECDSA` for the others) and the USIG supplied,
  if the USIG role has a key set, is not of another type. The authenticator then has
  `PublicAuthenScheme` for the replica and client roles with a key set, and the SGX USIG's scheme
  for the USIG role if it was given one.
* `newWithSGXUSIG_panic`: for a node with the USIG role whose key store file loads,
  `NewWithSGXUSIG` panics exactly when the file's USIG key set has the `ECDSA` spec: the node's
  USIG key is then an ECDSA key, and the assertion `usigKey.([]byte)` fails. It never hangs.
-/

namespace MinBFT.Sample.Keymanager

open MinBFT.Messages MinBFT.System MinBFT.Core

/-- The USIG given to `new`: `nil`, an SGX USIG, or a USIG of another type. -/
inductive SuppliedUSIG where
  | nil
  | sgx
  | other
  deriving DecidableEq, Repr

variable {Key Pub : Type}

/-- `NodeRoles()`: the roles with a public key set, in the order `order` of the range over
`nodePublicKeys`. -/
def SimpleKeyStore.nodeRoles (ks : SimpleKeyStore Key Pub) (order : List AuthenRole) :
    List AuthenRole :=
  order.filter fun r => (ks.roleKeys r).nodeKeys.isSome

/-- The body of `new`'s loop for the role `r`: the role's scheme, from the spec of its key set.
A `nil` USIG leaves the scheme of an `SGX_ECDSA` set as it was (`continue`). -/
def newRoleScheme (ks : SimpleKeyStore Key Pub) (usig : SuppliedUSIG) (r : AuthenRole)
    (scheme : Option AuthenticationScheme) :
    Outcome (Except String (Option AuthenticationScheme)) :=
  let ksName := ks.nodeKeySpec r
  if (r == .usig) != (ksName == keySpecSgxEcdsa) then
    .ok (.error ("Cannot use " ++ ksName ++ " keyspec for " ++ roleString r ++ " role"))
  else if ksName = keySpecEcdsa then .ok (.ok (some .publicAuthen))
  else if ksName = keySpecSgxEcdsa then
    match usig with
    | .nil => .ok (.ok scheme)
    | .sgx => .ok (.ok (some (.sgxUsig fun _ => none)))
    | .other =>
      .ok (.error ("Cannot use supplied USIG: " ++ ksName ++ " keyspec requires SGX USIG"))
  else
    .ok (.error ("Cannot find an authentication scheme corresponding to the keyspec \x27" ++
      ks.keySpec r ++ "\x27"))

/-- `new(roles, id, ks, usig)`, its loop visiting `NodeRoles()` in `order`. -/
def new (order : List AuthenRole) (ks : SimpleKeyStore Key Pub) (usig : SuppliedUSIG) :
    Outcome (Except String (Authenticator Pub)) :=
  (foldKeys (newRoleScheme ks usig) (ks.nodeRoles order) fun _ => none).bind fun
    | .error e => .ok (.error e)
    | .ok authschemes => .ok (.ok ⟨ks.view, authschemes⟩)

/-- The panic of the type assertion `usigKey.([]byte)` on an ECDSA private key. -/
def interfaceConversion : String :=
  "interface conversion: interface \x7b\x7d is *ecdsa.PrivateKey, not []uint8"

/-- `NewWithSGXUSIG(roles, id, keystoreFileReader, enclaveFile)`: `read` and `order` as for
`LoadSimpleKeyStore`, `nodeOrder` the order of `new`'s loop, and `sgxusigNew` what
`sgxusig.New(enclaveFile, usigKey)` returns. -/
def newWithSGXUSIG (C : KeyCodec Key Pub) (read : Except String Bytes)
    (order nodeOrder roles : List AuthenRole) (id : Nat) (sgxusigNew : Bytes → Except String Unit) :
    Outcome (Except String (Authenticator Pub)) :=
  (loadSimpleKeyStore C read order roles id).bind fun
    | .error err => .ok (.error ("failed to load keystore: " ++ err))
    | .ok ks =>
      match (ks.roleKeys .usig).owner with
      | none => .panic nilDereference
      | some usigOwner =>
        match usigOwner.privateKey with
        | none => .ok (.error "failed to get USIG sealed key")
        | some (.ecdsa _) => .panic interfaceConversion
        | some (.sealed usigKey) =>
          match sgxusigNew usigKey with
          | .error err => .ok (.error ("failed to create USIG: " ++ err))
          | .ok () =>
            (new nodeOrder ks .sgx).bind fun
              | .error err => .ok (.error ("failed to create authenticator: " ++ err))
              | .ok au => .ok (.ok au)

/-! ## The scheme of each role -/

/-- The scheme `new` gives a role whose key set has the role's spec. -/
def roleScheme (usig : SuppliedUSIG) : AuthenRole → Option AuthenticationScheme
  | .usig => if usig = .sgx then some (.sgxUsig fun _ => none) else none
  | _ => some .publicAuthen

/-- Where the loop body returns a scheme, it is the role's. -/
theorem newRoleScheme_eq_ok {ks : SimpleKeyStore Key Pub} {usig : SuppliedUSIG} {r : AuthenRole}
    {scheme : Option AuthenticationScheme} (h : newRoleScheme ks usig r none = .ok (.ok scheme)) :
    scheme = roleScheme usig r := by
  unfold newRoleScheme at h
  dsimp only at h
  split_ifs at h with hmatch hecdsa hsgx
  · cases h
  · -- an `ECDSA` set passed the first check, so the role is not the USIG's
    cases h
    have hr : r ≠ .usig := by
      rintro rfl
      simp [hecdsa, keySpecEcdsa, keySpecSgxEcdsa] at hmatch
    cases r <;> simp_all [roleScheme]
  · have hr : r = .usig := by
      simpa [hsgx] using hmatch
    subst hr
    cases usig <;> simp_all [roleScheme]
  · cases h

/-- The loop body for a role whose set has one of the two specs returns a scheme exactly when the
spec is the role's and a USIG of another type is not given for an `SGX_ECDSA` set. -/
theorem newRoleScheme_ok_iff {ks : SimpleKeyStore Key Pub} {usig : SuppliedUSIG} {r : AuthenRole}
    {keyspec : KeySpec} (hspec : getKeySpec (ks.nodeKeySpec r) = .ok keyspec) :
    (∃ scheme, newRoleScheme ks usig r none = .ok (.ok scheme)) ↔
      (r = .usig ↔ ks.nodeKeySpec r = keySpecSgxEcdsa) ∧ (r = .usig → usig ≠ .other) := by
  have hname := getSpecName_of_getKeySpec hspec
  unfold newRoleScheme
  cases keyspec with
  | sgxEcdsa =>
    rw [← hname]
    cases r <;> cases usig <;> simp [KeySpec.getSpecName, keySpecEcdsa, keySpecSgxEcdsa]
  | ecdsa =>
    rw [← hname]
    cases r <;> simp [KeySpec.getSpecName, keySpecEcdsa, keySpecSgxEcdsa]

/-- **What `new` computes**: the key store's public key sets, and for each role with a key set the
loop body's scheme; no scheme for the others. -/
theorem new_eq_ok_iff {order : List AuthenRole} (horder : order.Perm allRoles)
    {ks : SimpleKeyStore Key Pub} {usig : SuppliedUSIG} {au : Authenticator Pub} :
    new order ks usig = .ok (.ok au) ↔ au.ks = ks.view ∧
      (∀ r, (ks.roleKeys r).nodeKeys.isSome →
        newRoleScheme ks usig r none = .ok (.ok (au.authschemes r))) ∧
      ∀ r, (ks.roleKeys r).nodeKeys = none → au.authschemes r = none := by
  have hnd : (ks.nodeRoles order).Nodup := (horder.nodup_iff.mpr allRoles_nodup).filter _
  have hmem : ∀ r, r ∈ ks.nodeRoles order ↔ (ks.roleKeys r).nodeKeys.isSome := by
    intro r
    simp [SimpleKeyStore.nodeRoles, horder.mem_iff.mpr (mem_allRoles r)]
  constructor
  · intro h
    obtain ⟨r, hr, hau⟩ := Outcome.bind_eq_ok h
    rcases r with e | authschemes
    · cases hau
    cases hau
    obtain ⟨hvis, hother⟩ := (foldKeys_eq_ok_iff hnd).mp hr
    refine ⟨rfl, fun r hr' => hvis r ((hmem r).mpr hr'), fun r hr' => hother r ?_⟩
    simp [hmem, hr']
  · rintro ⟨hks, hvis, hother⟩
    have hfold : foldKeys (newRoleScheme ks usig) (ks.nodeRoles order) (fun _ => none) =
        .ok (.ok au.authschemes) := by
      refine (foldKeys_eq_ok_iff hnd).mpr ⟨fun r hr => hvis r ((hmem r).mp hr), fun r hr => ?_⟩
      exact hother r (by simpa [hmem] using hr)
    rw [new, hfold, Outcome.ok_bind]
    cases au
    simp_all

/-- The loop body returns, whatever the spec. -/
theorem newRoleScheme_returns (ks : SimpleKeyStore Key Pub) (usig : SuppliedUSIG) (r : AuthenRole)
    (scheme : Option AuthenticationScheme) : ∃ res, newRoleScheme ks usig r scheme = .ok res := by
  unfold newRoleScheme
  dsimp only
  split_ifs
  · exact ⟨_, rfl⟩
  · exact ⟨_, rfl⟩
  · cases usig <;> exact ⟨_, rfl⟩
  · exact ⟨_, rfl⟩

/-- `new` returns: it neither panics nor hangs. -/
theorem new_returns (order : List AuthenRole) (ks : SimpleKeyStore Key Pub) (usig : SuppliedUSIG) :
    ∃ res, new order ks usig = .ok res := by
  obtain ⟨res, hres⟩ := foldKeys_returns (newRoleScheme_returns ks usig) (ks.nodeRoles order)
    fun _ => none
  rw [new, hres, Outcome.ok_bind]
  rcases res with e | authschemes <;> exact ⟨_, rfl⟩

/-! ## `new` on a loaded key store -/

variable {C : KeyCodec Key Pub}

/-- A loaded store has a public key set for a role exactly when the file has a key set for it,
and the set's spec is that of the file. -/
theorem loaded_nodeKeySpec {read : Except String Bytes} {order roles : List AuthenRole}
    {id : Nat} {keys : SimpleKeyStoreFile} {ks : SimpleKeyStore Key Pub}
    (horder : order.Perm allRoles) (hfile : parseSimpleKeyStoreFile C read = .ok keys)
    (h : loadSimpleKeyStore C read order roles id = .ok (.ok ks)) (role : AuthenRole) :
    (keys.keySet role = none → (ks.roleKeys role).nodeKeys = none) ∧
      ∀ keyset, keys.keySet role = some keyset →
        (ks.roleKeys role).nodeKeys.isSome ∧ ks.nodeKeySpec role = keyset.keySpec ∧
          ∃ keyspec, getKeySpec keyset.keySpec = .ok keyspec := by
  refine ⟨fun hnone => ?_, fun keyset hsome => ?_⟩
  · simp [loaded_roleKeys_none horder hfile h hnone, initialRoleKeys]
  · obtain ⟨keyspec, hspec, _, -, -, -, hnode⟩ := loaded_roleKeys_some horder hfile h hsome
    exact ⟨by simp [hnode], by simp [SimpleKeyStore.nodeKeySpec, hnode], keyspec, hspec⟩

/-- `new` on a loaded store whose key sets have their roles' specs, given a USIG of a type it
takes: the authenticator has the store's public keys and each role with a key set its scheme. -/
theorem new_of_specs {read : Except String Bytes} {order roles : List AuthenRole}
    {id : Nat} {keys : SimpleKeyStoreFile} {ks : SimpleKeyStore Key Pub}
    (horder : order.Perm allRoles) (hfile : parseSimpleKeyStoreFile C read = .ok keys)
    (h : loadSimpleKeyStore C read order roles id = .ok (.ok ks)) {nodeOrder : List AuthenRole}
    (hnodeOrder : nodeOrder.Perm allRoles) {usig : SuppliedUSIG}
    (hspecs : ∀ role keyset, keys.keySet role = some keyset →
      (role = .usig ↔ keyset.keySpec = keySpecSgxEcdsa) ∧ (role = .usig → usig ≠ .other)) :
    new nodeOrder ks usig =
      .ok (.ok ⟨ks.view, fun role => (keys.keySet role).bind fun _ => roleScheme usig role⟩) := by
  have hroles := loaded_nodeKeySpec horder hfile h
  refine (new_eq_ok_iff hnodeOrder).mpr ⟨rfl, fun role hsome => ?_, fun role hnone => ?_⟩
  · -- each role with a key set gets its scheme
    cases hset : keys.keySet role with
    | none => simp [(hroles role).1 hset] at hsome
    | some keyset =>
      obtain ⟨-, hname, keyspec, hspec⟩ := (hroles role).2 keyset hset
      rw [← hname] at hspec
      obtain ⟨scheme, hscheme⟩ := (newRoleScheme_ok_iff hspec).mpr (hname ▸ hspecs role keyset hset)
      rw [hscheme, newRoleScheme_eq_ok hscheme]
      simp [hset]
  · cases hset : keys.keySet role with
    | none => simp [hset]
    | some keyset =>
      exact absurd hnone (Option.isSome_iff_ne_none.mp ((hroles role).2 keyset hset).1)

/-- **`new` on a loaded key store**: it succeeds exactly when each key set of the file has its
role's spec and the USIG supplied for a USIG key set is not of another type; the authenticator
then has the store's public key sets, and each role with a key set has the role's scheme. -/
theorem new_loaded {read : Except String Bytes} {order roles : List AuthenRole}
    {id : Nat} {keys : SimpleKeyStoreFile} {ks : SimpleKeyStore Key Pub}
    (horder : order.Perm allRoles) (hfile : parseSimpleKeyStoreFile C read = .ok keys)
    (h : loadSimpleKeyStore C read order roles id = .ok (.ok ks)) {nodeOrder : List AuthenRole}
    (hnodeOrder : nodeOrder.Perm allRoles) (usig : SuppliedUSIG) :
    ((∃ au, new nodeOrder ks usig = .ok (.ok au)) ↔
      ∀ role keyset, keys.keySet role = some keyset →
        (role = .usig ↔ keyset.keySpec = keySpecSgxEcdsa) ∧ (role = .usig → usig ≠ .other)) ∧
    ∀ au, new nodeOrder ks usig = .ok (.ok au) →
      au.ks = ks.view ∧ ∀ role, au.authschemes role = (keys.keySet role).bind fun _ => roleScheme usig role := by
  have hroles := loaded_nodeKeySpec horder hfile h
  -- the schemes of a successful `new`, role by role
  have hshape : ∀ au, new nodeOrder ks usig = .ok (.ok au) →
      au.ks = ks.view ∧ ∀ role, au.authschemes role = (keys.keySet role).bind fun _ => roleScheme usig role := by
    intro au hau
    obtain ⟨hks, hvis, hother⟩ := (new_eq_ok_iff hnodeOrder).mp hau
    refine ⟨hks, fun role => ?_⟩
    cases hset : keys.keySet role with
    | none => exact hother role ((hroles role).1 hset)
    | some keyset => exact newRoleScheme_eq_ok (hvis role ((hroles role).2 keyset hset).1)
  refine ⟨⟨fun hnew role keyset hsome => ?_, fun hspecs => ?_⟩, hshape⟩
  · obtain ⟨au, hau⟩ := hnew
    obtain ⟨hsome', hname, keyspec, hspec⟩ := (hroles role).2 keyset hsome
    rw [← hname] at hspec ⊢
    exact (newRoleScheme_ok_iff hspec).mp ⟨_, (new_eq_ok_iff hnodeOrder).mp hau |>.2.1 role hsome'⟩
  · exact ⟨_, new_of_specs horder hfile h hnodeOrder hspecs⟩

theorem new_loaded_sample :
    ∃ ks, sampleLoad allRoles = .ok (.ok ks) ∧
      ((∃ au, new allRoles ks .sgx = .ok (.ok au)) ↔
        ∀ role keyset, sampleFile.keySet role = some keyset →
          (role = .usig ↔ keyset.keySpec = keySpecSgxEcdsa) ∧
            (role = .usig → SuppliedUSIG.sgx ≠ .other)) ∧
      ∀ au, new allRoles ks .sgx = .ok (.ok au) →
        au.ks = ks.view ∧
          ∀ role, au.authschemes role = (sampleFile.keySet role).bind fun _ => roleScheme .sgx role := by
  obtain ⟨ks, hks⟩ := sampleLoad_ok
  exact ⟨ks, hks, new_loaded (List.Perm.refl _) rfl hks (List.Perm.refl _) .sgx⟩

/-! ## `NewWithSGXUSIG` -/

/-- **`NewWithSGXUSIG` panics on an `ECDSA` USIG key set**: for a node with the USIG role whose key
store file loads, it never hangs, panics only on the failed assertion `usigKey.([]byte)`, and
does so exactly when the file's USIG key set has the `ECDSA` spec. -/
theorem newWithSGXUSIG_panic {read : Except String Bytes} {order roles : List AuthenRole}
    {id : Nat} {keys : SimpleKeyStoreFile} {ks : SimpleKeyStore Key Pub}
    (horder : order.Perm allRoles) (hfile : parseSimpleKeyStoreFile C read = .ok keys)
    (h : loadSimpleKeyStore C read order roles id = .ok (.ok ks)) (husig : AuthenRole.usig ∈ roles)
    (nodeOrder : List AuthenRole) (sgxusigNew : Bytes → Except String Unit) :
    newWithSGXUSIG C read order nodeOrder roles id sgxusigNew ≠ .hang ∧
      (∀ msg, newWithSGXUSIG C read order nodeOrder roles id sgxusigNew = .panic msg →
        msg = interfaceConversion) ∧
      ((∃ msg, newWithSGXUSIG C read order nodeOrder roles id sgxusigNew = .panic msg) ↔
        ∃ keyset, keys.keySet .usig = some keyset ∧ keyset.keySpec = keySpecEcdsa) := by
  obtain ⟨keyset, keyspec, hset, hspec, _, kp, -, -, -, howner, -⟩ := loaded_owner horder hfile h husig
  -- the final check of the load found the node's USIG key, as the key set's spec parses it
  have hpriv := (loadSimpleKeyStore_eq_ok horder hfile h).2.2 .usig husig
  obtain ⟨priv, hparse⟩ : ∃ priv, keyspec.parsePrivateKey C kp.privateKey = .ok priv := by
    cases hp : keyspec.parsePrivateKey C kp.privateKey with
    | error e => simp [SimpleKeyStore.privateKey, howner, pairOwnerKey, hp, Except.toOption] at hpriv
    | ok priv => exact ⟨priv, rfl⟩
  have hname := getSpecName_of_getKeySpec hspec
  cases keyspec with
  | ecdsa =>
    obtain ⟨k, rfl⟩ := parsePrivateKey_ecdsa C hparse
    have hpanic : newWithSGXUSIG C read order nodeOrder roles id sgxusigNew =
        .panic interfaceConversion := by
      simp [newWithSGXUSIG, h, howner, pairOwnerKey, hparse, Except.toOption]
    refine ⟨by simp [hpanic], fun msg hmsg => ?_, fun _ => ⟨keyset, hset, hname.symm⟩,
      fun _ => ⟨_, hpanic⟩⟩
    rw [hpanic, Outcome.panic.injEq] at hmsg
    exact hmsg.symm
  | sgxEcdsa =>
    -- a sealed key: `sgxusig.New` and `new` return
    obtain ⟨b, rfl⟩ := parsePrivateKey_sgxEcdsa C hparse
    obtain ⟨res, hres⟩ : ∃ res, newWithSGXUSIG C read order nodeOrder roles id sgxusigNew =
        .ok res := by
      obtain ⟨au, hau⟩ := new_returns nodeOrder ks .sgx
      cases hnew : sgxusigNew b with
      | error e => simp [newWithSGXUSIG, h, howner, pairOwnerKey, hparse, Except.toOption, hnew]
      | ok u =>
        rcases au with e | au <;>
          simp [newWithSGXUSIG, h, howner, pairOwnerKey, hparse, Except.toOption, hnew, hau]
    refine ⟨by simp [hres], fun msg hmsg => by simp [hres] at hmsg,
      fun hpanic => by obtain ⟨msg, hmsg⟩ := hpanic; simp [hres] at hmsg, ?_⟩
    rintro ⟨keyset', hset', hecdsa⟩
    rw [hset, Option.some.injEq] at hset'
    subst hset'
    simp [← hname, KeySpec.getSpecName, keySpecEcdsa, keySpecSgxEcdsa] at hecdsa

/-- A key store file whose USIG key set has the `ECDSA` spec. -/
def ecdsaUsigFile : SimpleKeyStoreFile :=
  ⟨some ⟨keySpecEcdsa, [some ⟨0, "priv0", "pub0"⟩]⟩,
    some ⟨keySpecEcdsa, [some ⟨0, "usigpriv0", "usigpub0"⟩]⟩, none⟩

theorem newWithSGXUSIG_panic_ecdsaUsig :
    ∃ ks, loadSimpleKeyStore (sampleCodec ecdsaUsigFile) (.ok []) allRoles [.replica, .usig] 0 =
        .ok (.ok ks) ∧
      newWithSGXUSIG (sampleCodec ecdsaUsigFile) (.ok []) allRoles allRoles [.replica, .usig] 0
          (fun _ => .ok ()) ≠ .hang ∧
      (∀ msg, newWithSGXUSIG (sampleCodec ecdsaUsigFile) (.ok []) allRoles allRoles [.replica, .usig] 0
          (fun _ => .ok ()) = .panic msg → msg = interfaceConversion) ∧
      ((∃ msg, newWithSGXUSIG (sampleCodec ecdsaUsigFile) (.ok []) allRoles allRoles
          [.replica, .usig] 0 (fun _ => .ok ()) = .panic msg) ↔
        ∃ keyset, ecdsaUsigFile.keySet .usig = some keyset ∧ keyset.keySpec = keySpecEcdsa) := by
  obtain ⟨ks, hks⟩ : ∃ ks, loadSimpleKeyStore (sampleCodec ecdsaUsigFile) (.ok []) allRoles
      [.replica, .usig] 0 = .ok (.ok ks) := ⟨_, rfl⟩
  exact ⟨ks, hks, newWithSGXUSIG_panic (List.Perm.refl _) rfl hks (by decide) allRoles _⟩

end MinBFT.Sample.Keymanager
