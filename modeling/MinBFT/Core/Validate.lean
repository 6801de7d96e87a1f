import MinBFT.Messages.Authen
import MinBFT.System.Outcome
import MinBFT.Usig.UI

/-!
# Validation of incoming messages

Model of the stateless checks an incoming message goes through before it is processed:
`makeMessageValidator` (`core/message-handling.go`), `makeRequestValidator`
(`core/request.go`), `makePrepareValidator` (`core/prepare.go`), `makeCommitValidator`
(`core/commit.go`), `makeUIVerifier` (`core/usig-ui.go`), `makeMessageSignatureVerifier` and
`isPrimary` (`core/utils.go`); and of what `messages.Stringify` (`messages/utils.go`) reads of a
message before the handler sees it.

* The external `api.Authenticator` enters through its verification, `VerifyMessageAuthenTag`, a
  parameter `verifyTag` that answers with an error or `nil`; it is assumed not to panic.
  SHA-256 is the parameter `sha256` of `AuthenBytes`.
* Each check returns an `Outcome` of an `Except`: the error it returns, with the text the source
  formats, or a panic. The panics are the validator's `default:` case and the dereference of an
  absent sub-message by `Signature()` or `UIBytes()`.
* `Stringify` only formats text for the log; its model keeps what it dereferences, the UI bytes
  of a certified message and of a Commit's Prepare, and leaves the text out.
* The replica's configuration is `ReplicaConfig`; `n ≥ 1` is a field, so the `view % n` of
  `isPrimary` never divides by zero.

## Results

* `validateMessage_reply`: a Reply makes the validator panic.
* `stringify_eq_panic_iff`: `Stringify` panics exactly on a Commit whose Prepare is absent, or
  on a certified message whose own pointer is nil.
* `validateCommit_prepare_ui`: a Commit that passes validation carries a Prepare whose UI
  decodes, with a counter above `0` (`verifyUI_eq_ok`, `validatePrepare_ui`).
-/

namespace MinBFT.Core

open MinBFT.Messages MinBFT.Usig MinBFT.System

/-- `api.AuthenticationRole`. -/
inductive AuthenRole where
  | replica
  | usig
  | client
  deriving DecidableEq, Repr

/-- The protocol parameters of a replica (`api.Configer`): `n` replicas, of which `f` may be
faulty. -/
structure ReplicaConfig where
  n : Nat
  f : Nat
  n_pos : 0 < n

/-- `isPrimary(view, id, n)`. -/
def isPrimary (view id n : Nat) : Bool := id = view % n

/-! ## `Stringify` -/

/-- What `Stringify(m)` dereferences: the UI bytes of a certified message, then, for a Commit,
those of its Prepare (`Stringify(msg.Prepare())`). -/
def stringify : Message → Outcome Unit
  | .prepare m => if m.uiBytes.isSome then .ok () else .panic nilDereference
  | .commit m =>
    if m.uiBytes.isSome ∧ m.prepare.uiBytes.isSome then .ok () else .panic nilDereference
  | _ => .ok ()

theorem stringify_eq_panic_iff (m : Message) :
    (∃ msg, stringify m = .panic msg) ↔
      (∃ p : Prepare, m = .prepare p ∧ p.pbMsg = none) ∨
      (∃ c : Commit, m = .commit c ∧ (c.pbMsg = none ∨ c.prepare.pbMsg = none)) := by
  cases m with
  | prepare p =>
    cases hp : p.pbMsg <;> simp [stringify, Prepare.uiBytes, hp]
  | commit c =>
    cases hc : c.pbMsg <;> cases hq : c.prepare.pbMsg <;>
      simp [stringify, Commit.uiBytes, Prepare.uiBytes, hc, hq]
  | _ => simp [stringify]

section Checks

variable (sha256 : Bytes → Bytes) (verifyTag : AuthenRole → Nat → Bytes → Bytes → Except String Unit)

/-- `makeMessageSignatureVerifier`: a Request is signed by its client, any other message by its
replica. -/
def verifyMessageSignature (m : Message) : Outcome (Except String Unit) :=
  let (role, id) := match m with
    | .request r => (AuthenRole.client, r.clientID)
    | _ => (AuthenRole.replica, m.replicaID)
  match authenBytes sha256 m, m.signature with
  | some bytes, some sig => .ok (verifyTag role id bytes sig)
  | _, _ => .panic nilDereference

/-- `makeRequestValidator`. -/
def validateRequest (request : Request) : Outcome (Except String Unit) :=
  verifyMessageSignature sha256 verifyTag (.request request)

/-- `makeUIVerifier`: the UI decodes, has a counter above `0`, and its certificate verifies
for the message. -/
def verifyUI (m : Message) : Outcome (Except String UI) :=
  match m.uiBytes with
  | none => .panic nilDereference
  | some b =>
    match UI.unmarshalBinary b with
    | none => .ok (.error ("Failed unmarshaling UI: " ++ UI.unmarshalError b))
    | some ui =>
      if ui.counter = 0 then .ok (.error "Invalid (zero) counter value")
      else
        match authenBytes sha256 m with
        | none => .panic nilDereference
        | some bytes =>
          match verifyTag .usig m.replicaID bytes b with
          | .error e => .ok (.error ("Failed verifying USIG certificate: " ++ e))
          | .ok () => .ok (.ok ui)

/-- `makePrepareValidator(n, …)`. -/
def validatePrepare (cfg : ReplicaConfig) (prepare : Prepare) : Outcome (Except String Unit) :=
  if ¬ isPrimary prepare.view prepare.replicaID cfg.n then
    .ok (.error ("Prepare from backup " ++ toString prepare.replicaID ++ " for view " ++
      toString prepare.view))
  else
    (validateRequest sha256 verifyTag prepare.request).bind fun
      | .error e => .ok (.error ("Request invalid: " ++ e))
      | .ok () =>
        (verifyUI sha256 verifyTag (.prepare prepare)).bind fun
          | .error e => .ok (.error ("UI not valid: " ++ e))
          | .ok _ => .ok (.ok ())

/-- `makeCommitValidator`. -/
def validateCommit (cfg : ReplicaConfig) (commit : Commit) : Outcome (Except String Unit) :=
  let prepare := commit.prepare
  if commit.replicaID = prepare.replicaID then .ok (.error "Commit from primary")
  else
    (validatePrepare sha256 verifyTag cfg prepare).bind fun
      | .error e => .ok (.error ("Invalid Prepare: " ++ e))
      | .ok () =>
        (verifyUI sha256 verifyTag (.commit commit)).bind fun
          | .error e => .ok (.error ("UI is not valid: " ++ e))
          | .ok _ => .ok (.ok ())

/-- `makeMessageValidator`: a type switch whose `default:` case panics. -/
def validateMessage (cfg : ReplicaConfig) : Message → Outcome (Except String Unit)
  | .request m => validateRequest sha256 verifyTag m
  | .prepare m => validatePrepare sha256 verifyTag cfg m
  | .commit m => validateCommit sha256 verifyTag cfg m
  | .reqViewChange _ => .ok (.error "Not implemented")
  | .reply _ => .panic "Unknown message type"

theorem validateMessage_reply (cfg : ReplicaConfig) (m : Reply) :
    validateMessage sha256 verifyTag cfg (.reply m) = .panic "Unknown message type" := rfl

/-- A UI that verifies decodes, with a counter above `0`. -/
theorem verifyUI_eq_ok {m : Message} {ui : UI} (h : verifyUI sha256 verifyTag m = .ok (.ok ui)) :
    parseMessageUI m = some ui ∧ ui.counter ≠ 0 := by
  unfold verifyUI at h
  split at h
  · cases h
  · next b hb =>
    split at h
    · cases h
    · next ui' hui =>
      split_ifs at h with h0
      · cases h
      · split at h
        · cases h
        · split at h
          · cases h
          · cases h
            exact ⟨by simp [parseMessageUI, hb, hui], h0⟩

/-- A Prepare that passes validation has a UI that verifies. -/
theorem validatePrepare_ui {cfg : ReplicaConfig} {p : Prepare}
    (h : validatePrepare sha256 verifyTag cfg p = .ok (.ok ())) :
    ∃ ui, parseMessageUI (.prepare p) = some ui ∧ ui.counter ≠ 0 := by
  unfold validatePrepare at h
  by_cases hp : isPrimary p.view p.replicaID cfg.n = true
  · rw [if_neg (not_not.mpr hp)] at h
    obtain ⟨r, -, h⟩ := Outcome.bind_eq_ok h
    cases r with
    | error e => cases h
    | ok _ =>
      obtain ⟨v, hv, h⟩ := Outcome.bind_eq_ok h
      cases v with
      | error e => cases h
      | ok ui => exact ⟨ui, verifyUI_eq_ok sha256 verifyTag hv⟩
  · rw [if_pos hp] at h
    cases h

/-- A Commit that passes validation carries a Prepare whose UI verifies. -/
theorem validateCommit_prepare_ui {cfg : ReplicaConfig} {c : Commit}
    (h : validateCommit sha256 verifyTag cfg c = .ok (.ok ())) :
    ∃ ui, parseMessageUI (.prepare c.prepare) = some ui ∧ ui.counter ≠ 0 := by
  unfold validateCommit at h
  dsimp only at h
  split_ifs at h
  · cases h
  · obtain ⟨r, hr, h⟩ := Outcome.bind_eq_ok h
    cases r with
    | error e => cases h
    | ok _ => exact validatePrepare_ui sha256 verifyTag hr

end Checks

end MinBFT.Core
