import MinBFT.Usig.Sgx

/-!
# Runs of the USIG enclave

Any sequence of `ecall_usig_init` and `ecall_usig_create_ui` calls on one enclave
(`enclave/usig.c`), one at a time as the shim's `ecallLock` makes them, with the SGX primitives
they call (`sgx_read_rand`, `unseal_key` or `generate_key`, `sgx_ecc256_open_context`,
`sgx_ecdsa_sign`) doing anything in each call: each call takes its own `SgxCrypto`, and any
of them may fail at any call (`EcallStep`). The untrusted side sees each call's status and,
from `create_ui`, the counter and signature (`EcallResult`).

`usig_counter` is a `uint64_t` that `ecall_usig_create_ui` steps with `usig_counter++` on the
success path only, just before the signature leaves the enclave; like every `uint64_t` it wraps
around at `2 ^ 64`.

## Results

* `usig_counters_consecutive`: in every run, `init` succeeds at most once, no `create_ui`
  succeeds before it, and the counters of the successful `create_ui` calls are `1, 2, 3, …`
  taken modulo `2 ^ 64`, with no value skipped; failed calls expose no signature and step
  nothing. So the UIs successive successful `USIG.CreateUI` calls return carry the counters
  `1, 2, 3, …` modulo `2 ^ 64`.
* `ecallRun_counter_repeats`: after `2 ^ 64` successful `create_ui` calls the counter `1` comes
  again, with the same epoch, although the increment is there to make sure "the counter value
  cannot be reused to sign another message" (`usig.c`).
-/

namespace MinBFT.Usig

open MinBFT.Bytes MinBFT.System MinBFT.Messages

variable {Priv Sig : Type}

/-- What an ecall hands to the untrusted side: the status of `ecall_usig_init`, or the status
of `ecall_usig_create_ui` with, on success, the counter and the signature. -/
inductive EcallResult (Sig : Type) where
  | init (status : Except Nat Unit)
  | createUI (res : Except Nat (UInt64 × Sig))

/-- One ecall on the enclave's statics, under the `ecallLock`, with `C` what the SGX primitives
it calls do in this call. A failed `create_ui` leaves the statics as they were. -/
inductive EcallStep : Enclave Priv → Enclave Priv → EcallResult Sig → Prop
  | init {Pub : Type} (C : SgxCrypto Priv Pub Sig) (enc : Enclave Priv) (sealed : Option Bytes)
      (rand : Except Nat UInt64) (generated : Except Nat Priv) :
      EcallStep enc (ecallUsigInit C enc sealed rand generated).2
        (.init (ecallUsigInit C enc sealed rand generated).1)
  | createUIOk {Pub : Type} (C : SgxCrypto Priv Pub Sig) {enc enc' : Enclave Priv}
      {digest : Digest} {counter : UInt64} {sig : Sig} :
      ecallUsigCreateUI C enc digest = .ok (enc', counter, sig) →
      EcallStep enc enc' (.createUI (.ok (counter, sig)))
  | createUIError {Pub : Type} (C : SgxCrypto Priv Pub Sig) {enc : Enclave Priv}
      {digest : Digest} {status : Nat} :
      ecallUsigCreateUI C enc digest = .error status → EcallStep enc enc (.createUI (.error status))

/-- A run of ecalls from `enc` to `enc'`, with what each call handed out, in order. -/
inductive EcallRun : Enclave Priv → List (EcallResult Sig) → Enclave Priv → Prop
  | nil (enc : Enclave Priv) : EcallRun enc [] enc
  | snoc {enc enc' enc'' : Enclave Priv} {rs : List (EcallResult Sig)} {r : EcallResult Sig} :
      EcallRun enc rs enc' → EcallStep enc' enc'' r → EcallRun enc (rs ++ [r]) enc''

namespace EcallResult

/-- The call was a successful `ecall_usig_init`. -/
def initOk : EcallResult Sig → Bool
  | .init (.ok ()) => true
  | _ => false

/-- The counter a successful `ecall_usig_create_ui` handed out. -/
def counter? : EcallResult Sig → Option UInt64
  | .createUI (.ok (counter, _)) => some counter
  | _ => none

end EcallResult

/-- The counters of the successful `create_ui` calls of a run, in order. -/
def counters (rs : List (EcallResult Sig)) : List UInt64 := rs.filterMap EcallResult.counter?

/-- The first `k` counter values of a fresh enclave: `1, 2, …, k`, modulo `2 ^ 64`. -/
def counterSeq (k : Nat) : List UInt64 := (List.range k).map fun i => UInt64.ofNat (i + 1)

theorem counterSeq_succ (k : Nat) : counterSeq (k + 1) = counterSeq k ++ [UInt64.ofNat (k + 1)] := by
  simp [counterSeq, List.range_succ]

/-- What holds after every run from a new enclave: `init` succeeded once if the enclave is
initialised and never otherwise; the counters handed out are the first ones of the sequence, and
`usig_counter` is the next; and every successful `create_ui` came after the successful `init`. -/
structure EcallsOk (enc : Enclave Priv) (rs : List (EcallResult Sig)) : Prop where
  initOks : rs.countP EcallResult.initOk = if enc.initialized then 1 else 0
  seq : counters rs = counterSeq (counters rs).length
  counter : enc.counter = UInt64.ofNat ((counters rs).length + 1)
  after_init : ∀ pre r post, rs = pre ++ r :: post → r.counter?.isSome →
    pre.countP EcallResult.initOk = 1

theorem ecallsOk_new {Pub : Type} (C : SgxCrypto Priv Pub Sig) :
    EcallsOk (Enclave.new C) ([] : List (EcallResult Sig)) where
  initOks := rfl
  seq := rfl
  counter := rfl
  after_init := fun pre r post h => by simp at h

/-- What `ecall_usig_init` does: nothing on an initialised enclave; otherwise it may leave a new
epoch behind, and it initialises the enclave exactly when it succeeds. The counter is never
touched. -/
theorem ecallUsigInit_spec {Pub : Type} (C : SgxCrypto Priv Pub Sig) (enc : Enclave Priv)
    (sealed : Option Bytes) (rand : Except Nat UInt64) (generated : Except Nat Priv) :
    (ecallUsigInit C enc sealed rand generated).2.counter = enc.counter ∧
    ((ecallUsigInit C enc sealed rand generated).1 = .ok () ↔
      enc.initialized = false ∧ (ecallUsigInit C enc sealed rand generated).2.initialized = true) ∧
    ((ecallUsigInit C enc sealed rand generated).1 ≠ .ok () →
      (ecallUsigInit C enc sealed rand generated).2.initialized = enc.initialized) := by
  unfold ecallUsigInit
  by_cases hinit : enc.initialized = true
  · simp [hinit]
  · simp only [hinit]
    cases rand with
    | error s => simp [hinit]
    | ok epoch =>
      -- the key pair unsealed or generated
      cases sealed with
      | some data => rcases hkey : C.unsealKey data with _ | k <;> simp [hkey]
      | none => cases generated <;> simp

/-- Where a call of a run with one more call stands: it is the last one, or a call of the run. -/
theorem snoc_eq_append_cons {α : Type} {rs pre post : List α} {r r' : α}
    (h : rs ++ [r] = pre ++ r' :: post) :
    (pre = rs ∧ r' = r) ∨ ∃ post', rs = pre ++ r' :: post' := by
  rcases List.eq_nil_or_concat post with rfl | ⟨post', x, rfl⟩
  · obtain ⟨hpre, hr⟩ := List.append_inj' h rfl
    exact .inl ⟨hpre.symm, (List.cons.inj hr).1.symm⟩
  · have h' : rs ++ [r] = (pre ++ r' :: post') ++ [x] := by simpa using h
    exact .inr ⟨post', (List.append_inj' h' rfl).1⟩

/-- The counters of a run with one more call. -/
theorem counters_append (rs : List (EcallResult Sig)) (r : EcallResult Sig) :
    counters (rs ++ [r]) = counters rs ++ r.counter?.toList := by
  cases h : r.counter? <;> simp [counters, List.filterMap_append, h]

/-- **One ecall keeps `EcallsOk`**: an `init` step counts a success only on an uninitialised
enclave, a successful `create_ui` hands out `usig_counter` and steps it, and a failed one hands out
nothing. -/
theorem EcallsOk.step {enc enc' : Enclave Priv} {rs : List (EcallResult Sig)}
    {r : EcallResult Sig} (h : EcallsOk enc rs) (hs : EcallStep enc enc' r) :
    EcallsOk enc' (rs ++ [r]) := by
  -- a call that hands out no counter
  have hafter_none : r.counter? = none → ∀ pre r' post, rs ++ [r] = pre ++ r' :: post →
      r'.counter?.isSome → pre.countP EcallResult.initOk = 1 := by
    intro hr pre r' post hsplit hsome
    rcases snoc_eq_append_cons hsplit with ⟨-, rfl⟩ | ⟨post', hrs⟩
    · simp [hr] at hsome
    · exact h.after_init pre r' post' hrs hsome
  cases hs with
  | init C enc sealed rand generated =>
    obtain ⟨hcounter, hok, hfail⟩ := ecallUsigInit_spec C enc sealed rand generated
    have hc : counters (rs ++ [EcallResult.init (ecallUsigInit C enc sealed rand generated).1]) =
        counters rs := by simp [counters_append, EcallResult.counter?]
    refine ⟨?_, by rw [hc]; exact h.seq, by rw [hc, hcounter]; exact h.counter,
      hafter_none rfl⟩
    rw [List.countP_append, h.initOks]
    by_cases hres : (ecallUsigInit C enc sealed rand generated).1 = .ok ()
    · obtain ⟨hold, hnew⟩ := hok.mp hres
      simp [hres, hold, hnew, EcallResult.initOk]
    · rw [hfail hres]
      cases hr : (ecallUsigInit C enc sealed rand generated).1 with
      | error s => simp [EcallResult.initOk]
      | ok u => exact absurd hr hres
  | @createUIOk _ C enc _ digest counter sig hcall =>
    obtain ⟨hinit, -, rfl, rfl⟩ := ecallUsigCreateUI_eq_ok hcall
    have hc := counters_append rs (EcallResult.createUI (.ok (enc.counter, sig)))
    simp only [EcallResult.counter?, Option.toList_some] at hc
    refine ⟨?_, ?_, ?_, ?_⟩
    · rw [List.countP_append, h.initOks]
      simp [EcallResult.initOk]
    · rw [hc, List.length_append, List.length_singleton, counterSeq_succ, ← h.seq, h.counter]
    · rw [hc, List.length_append, List.length_singleton]
      show enc.counter + 1 = _
      rw [h.counter, UInt64.ofNat_add ((counters rs).length + 1) 1]
      rfl
    · -- the new counter comes after the successful `init`, which the enclave's flag records
      intro pre r' post hsplit hsome
      rcases snoc_eq_append_cons hsplit with ⟨rfl, -⟩ | ⟨post', hrs⟩
      · have := h.initOks
        rw [hinit, if_pos rfl] at this
        exact this
      · exact h.after_init pre r' post' hrs hsome
  | @createUIError _ C enc digest status hcall =>
    have hc := counters_append rs (EcallResult.createUI (.error status) : EcallResult Sig)
    simp only [EcallResult.counter?, Option.toList_none, List.append_nil] at hc
    refine ⟨?_, by rw [hc]; exact h.seq, by rw [hc]; exact h.counter, hafter_none rfl⟩
    rw [List.countP_append, h.initOks]
    simp [EcallResult.initOk]

/-- `EcallsOk` holds along every run from a state where it holds. -/
theorem EcallsOk.run {enc enc' : Enclave Priv} {rs rs' : List (EcallResult Sig)}
    (h : EcallsOk enc rs) (hrun : EcallRun enc rs' enc') : EcallsOk enc' (rs ++ rs') := by
  induction hrun with
  | nil => simpa using h
  | snoc _ hs ih => simpa [List.append_assoc] using ih.step hs

/-- Two runs one after the other. -/
theorem EcallRun.append {enc enc' enc'' : Enclave Priv} {rs rs' : List (EcallResult Sig)}
    (h : EcallRun enc rs enc') (h' : EcallRun enc' rs' enc'') : EcallRun enc (rs ++ rs') enc'' := by
  induction h' with
  | nil => simpa using h
  | snoc _ hs ih => simpa [List.append_assoc] using ih.snoc hs

/-! ## The USIG's calls -/

variable {Pub : Type}

/-- Calls of `USIG.CreateUI` one after another on a USIG, each returning a UI or an error, with
the UIs returned in order. A failed call changes nothing. -/
inductive UsigCalls (C : SgxCrypto Priv Pub Sig) : USIG Priv → List UI → USIG Priv → Prop
  | nil (u : USIG Priv) : UsigCalls C u [] u
  | ok {u u' u'' : USIG Priv} {message : Bytes} {ui : UI} {uis : List UI} :
      UsigCalls C u uis u' → u'.createUI C message = .ok (u'', ui) →
      UsigCalls C u (uis ++ [ui]) u''
  | error {u u' : USIG Priv} {message : Bytes} {err : String} {uis : List UI} :
      UsigCalls C u uis u' → u'.createUI C message = .error err → UsigCalls C u uis u'

/-- `New` runs `ecall_usig_init` on a new enclave, and it succeeded when `New` returns a USIG. -/
theorem newUSIG_eq_ok {C : SgxCrypto Priv Pub Sig} {sealedKey : Bytes} {created : Except Nat Unit}
    {rand : Except Nat UInt64} {generated : Except Nat Priv} {u : USIG Priv}
    (h : newUSIG C sealedKey created rand generated = .ok (.ok u)) :
    ∃ sealed, ecallUsigInit C (Enclave.new C) sealed rand generated = (.ok (), u.enclave) := by
  unfold newUSIG at h
  split at h
  · cases h
  · dsimp only at h
    generalize (if sealedKey.length ≠ 0 then some sealedKey else none) = sealed at h
    rcases hinit : ecallUsigInit C (Enclave.new C) sealed rand generated with ⟨_ | _, enc⟩
    · rw [hinit] at h
      cases h
    · rw [hinit] at h
      dsimp only at h
      split at h
      · cases h
      · cases h
        exact ⟨sealed, hinit⟩

/-- A failed `CreateUI` is a failed `ecall_usig_create_ui`. -/
theorem USIG.createUI_eq_error {C : SgxCrypto Priv Pub Sig} {u : USIG Priv} {message : Bytes}
    {err : String} (h : u.createUI C message = .error err) :
    ∃ status, ecallUsigCreateUI C u.enclave (C.sum256 message) = .error status := by
  unfold USIG.createUI at h
  split at h
  · next status hcall => exact ⟨status, hcall⟩
  · cases h

/-- **The USIG refines its enclave**: the enclave of a USIG goes through a run of ecalls from a new
enclave, `init` then one `create_ui` per call, and the UIs carry the counters that run handed
out. -/
theorem ecallRun_of_usigCalls {C : SgxCrypto Priv Pub Sig} {sealedKey : Bytes}
    {created : Except Nat Unit} {rand : Except Nat UInt64} {generated : Except Nat Priv}
    {u : USIG Priv} (hnew : newUSIG C sealedKey created rand generated = .ok (.ok u))
    {uis : List UI} {u' : USIG Priv} (hcalls : UsigCalls C u uis u') :
    ∃ rs : List (EcallResult Sig), EcallRun (Enclave.new C) rs u'.enclave ∧
      uis.map UI.counter = (counters rs).map UInt64.toNat := by
  induction hcalls with
  | nil =>
    obtain ⟨sealed, hinit⟩ := newUSIG_eq_ok hnew
    have hstep := EcallStep.init C (Enclave.new C) sealed rand generated
    rw [hinit] at hstep
    exact ⟨[.init (.ok ())], by simpa using (EcallRun.nil _).snoc hstep, rfl⟩
  | @ok u₂ u₃ message ui uis _ hcall ih =>
    obtain ⟨rs, hrun, hmap⟩ := ih
    unfold USIG.createUI at hcall
    split at hcall
    · cases hcall
    · next enc counter sig hecall =>
      cases hcall
      obtain ⟨-, -, -, rfl⟩ := ecallUsigCreateUI_eq_ok hecall
      refine ⟨rs ++ [.createUI (.ok (u₂.enclave.counter, sig))], hrun.snoc (.createUIOk C hecall),
        ?_⟩
      rw [counters_append, List.map_append, hmap]
      simp [EcallResult.counter?]
  | error _ hcall ih =>
    obtain ⟨rs, hrun, hmap⟩ := ih
    obtain ⟨status, hecall⟩ := USIG.createUI_eq_error hcall
    exact ⟨rs ++ [.createUI (.error status)], hrun.snoc (.createUIError C hecall),
      by rw [counters_append]; simpa [EcallResult.counter?] using hmap⟩

/-! ## The counters -/

/-- **The counters of the USIG** (`ecall_usig_create_ui`, `USIG.CreateUI`): in every run of ecalls
on a new enclave, whatever the SGX primitives do in each call, `init` succeeds at most once, no
`create_ui` succeeds before it, and the successful `create_ui` calls hand out the counters
`1, 2, 3, …` modulo `2 ^ 64`, in order: a failed call hands out no counter and no signature, and
uses up none. So the UIs successive successful `USIG.CreateUI` calls return carry the counters
`1, 2, 3, …` modulo `2 ^ 64`. -/
theorem usig_counters_consecutive (C : SgxCrypto Priv Pub Sig) :
    (∀ (rs : List (EcallResult Sig)) (enc : Enclave Priv), EcallRun (Enclave.new C) rs enc →
      rs.countP EcallResult.initOk ≤ 1 ∧ counters rs = counterSeq (counters rs).length ∧
      ∀ pre r post, rs = pre ++ r :: post → r.counter?.isSome →
        pre.countP EcallResult.initOk = 1) ∧
    ∀ (sealedKey : Bytes) (created : Except Nat Unit) (rand : Except Nat UInt64)
      (generated : Except Nat Priv) (u : USIG Priv) (uis : List UI) (u' : USIG Priv),
      newUSIG C sealedKey created rand generated = .ok (.ok u) → UsigCalls C u uis u' →
      uis.map UI.counter = (List.range uis.length).map fun i => (i + 1) % 2 ^ 64 := by
  refine ⟨fun rs enc hrun => ?_, fun sealedKey created rand generated u uis u' hnew hcalls => ?_⟩
  · have h := (ecallsOk_new C).run hrun
    rw [List.nil_append] at h
    refine ⟨?_, h.seq, h.after_init⟩
    rw [h.initOks]
    split <;> omega
  · -- the UIs carry the counters of the enclave's run
    obtain ⟨rs, hrun, hmap⟩ := ecallRun_of_usigCalls hnew hcalls
    have h := (ecallsOk_new C).run hrun
    rw [List.nil_append] at h
    have hlen : uis.length = (counters rs).length := by simpa using congrArg List.length hmap
    rw [hmap, hlen, h.seq]
    simp [counterSeq, UInt64.toNat_ofNat]

/-- The enclave of the toy USIG: key `[9]`, epoch `5`, counter `1`, initialised. -/
def toyEnclave : Enclave Bytes := ⟨[9], 5, 1, true⟩

/-- `n` successful `create_ui` calls on an initialised enclave, when `sgx_ecdsa_sign` always signs. -/
theorem exists_createUI_run (C : SgxCrypto Priv Pub Sig)
    (hsign : ∀ k data, ∃ sig, C.sgxSign k data = .ok sig) (digest : Digest) {enc : Enclave Priv}
    (hinit : enc.initialized = true) (n : Nat) :
    ∃ (rs : List (EcallResult Sig)) (enc' : Enclave Priv),
      EcallRun enc rs enc' ∧ enc'.initialized = true ∧ (counters rs).length = n := by
  induction n with
  | zero => exact ⟨[], enc, .nil enc, hinit, rfl⟩
  | succ n ih =>
    obtain ⟨rs, enc', hrun, hinit', hlen⟩ := ih
    obtain ⟨sig, hsig⟩ := hsign enc'.key (usigCertData digest enc'.epoch enc'.counter)
    have hcall : ecallUsigCreateUI C enc' digest =
        .ok ({ enc' with counter := enc'.counter + 1 }, enc'.counter, sig) := by
      simp [ecallUsigCreateUI, hinit', hsig]
    refine ⟨rs ++ [.createUI (.ok (enc'.counter, sig))], { enc' with counter := enc'.counter + 1 },
      hrun.snoc (.createUIOk C hcall), hinit', ?_⟩
    simp [counters_append, EcallResult.counter?, hlen]

/-- **The counter comes round**: `usig_counter` is a `uint64_t`, so after `init` and `2 ^ 64`
successful `create_ui` calls the next one hands out the counter `1` again, which the first one
handed out, under the same epoch. -/
theorem ecallRun_counter_repeats : ∃ (rs : List (EcallResult Bytes)) (enc : Enclave Bytes),
    EcallRun (Enclave.new toyCrypto) rs enc ∧ (counters rs)[0]? = some 1 ∧
      (counters rs)[2 ^ 64]? = some 1 := by
  have hinit : EcallStep (Enclave.new toyCrypto) toyEnclave (.init (.ok ())) :=
    EcallStep.init toyCrypto (Enclave.new toyCrypto) none (.ok 5) (.ok [9])
  obtain ⟨rs, enc, hrun, -, hlen⟩ := exists_createUI_run toyCrypto (fun _ _ => ⟨_, rfl⟩)
    (toyCrypto.sum256 []) (show toyEnclave.initialized = true from rfl) (2 ^ 64 + 1)
  have hfull := ((EcallRun.nil _).snoc hinit).append hrun
  -- the counters of the whole run are `1, 2, 3, …` modulo `2 ^ 64`
  have hseq := ((usig_counters_consecutive toyCrypto).1 _ _ hfull).2.1
  -- `init` hands out no counter
  have hc : counters ([] ++ [EcallResult.init (.ok ())] ++ rs) = counters rs := rfl
  rw [hc, hlen] at hseq
  refine ⟨_, enc, hfull, ?_, ?_⟩
  · rw [hc, hseq]
    simp [counterSeq]
  · rw [hc, hseq]
    simp [counterSeq]

end MinBFT.Usig
