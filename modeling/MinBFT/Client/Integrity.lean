import MinBFT.Client.Request
import MinBFT.Core.Validity

/-!
# A client's result comes from a correct replica that executed its request

The client of `client/request.go` delivers a result once `f + 1` replicas sent Replies with
matching results (`collectReplies`). A correct replica (`core/`) sends only its own Replies, each
for a request it executed before, and executes only requests whose client signature verified.
This module puts the two models together over a deployment: one client and the replicas it
talks to, of which at most `f` are faulty and may do anything, the others running
`replicaProgram`.

What links the two is an assumption on the channels and the replicas' signatures: a Reply the
client authenticates as a correct replica's is one that replica sent
(`Deployment.Admissible.unforgeable`). As in `collectReplies_result`, SHA-256 is assumed to have
no collision among the results of the authenticated Replies.

## Results

* `exists_correct_of_nodup`: among `f + 1` Replies of distinct replicas, one is from a replica
  that is not faulty.
* `delivered_result_executed`: a result the client delivers for a request is the result of a
  Reply that some correct replica sent. That replica executed, before it, a request of this
  client with the request's sequence, and that request passed its `makeRequestValidator`.
-/

namespace MinBFT.Client

open MinBFT.Messages MinBFT.System MinBFT.Core

/-- A client and the replicas it talks to: their parameters, their configurations, and the
replicas that may be faulty. -/
structure Deployment where
  client : ClientParams
  clientConfig : Config ClientState ClientCall ClientEvent
  params : Nat → ReplicaParams
  replicas : Nat → Config Replica Goroutine ReplicaEvent
  faulty : Finset Nat

/-- What the results assume of a deployment. -/
structure Deployment.Admissible (d : Deployment) : Prop where
  /-- At most `f` replicas are faulty. -/
  faulty_card : d.faulty.card ≤ d.client.f
  /-- The client runs its program. -/
  client_reach : (clientProgram d.client).Reachable ClientState.init d.clientConfig
  /-- Every correct replica runs its program. -/
  replica_reach : ∀ i, i ∉ d.faulty →
    (replicaProgram (d.params i)).Reachable replicaInit (d.replicas i)
  /-- A Reply the client authenticates as a correct replica's is one that replica sent. -/
  unforgeable : ∀ rep, ClientEvent.authenticated rep ∈ d.clientConfig.trace →
    rep.replicaID ∉ d.faulty → ReplicaEvent.replied rep ∈ (d.replicas rep.replicaID).trace
  /-- SHA-256 has no collision among the results of the authenticated Replies. -/
  sha256_inj : ∀ rep₁ rep₂, ClientEvent.authenticated rep₁ ∈ d.clientConfig.trace →
    ClientEvent.authenticated rep₂ ∈ d.clientConfig.trace →
    d.client.sha256 rep₁.result = d.client.sha256 rep₂.result → rep₁.result = rep₂.result

/-- Among `f + 1` Replies of pairwise distinct replicas, one is from a replica outside a set of
at most `f`. -/
theorem exists_correct_of_nodup {reps : List Reply} {faulty : Finset Nat} {f : Nat}
    (hlen : f + 1 ≤ reps.length) (hnodup : (reps.map Reply.replicaID).Nodup)
    (hcard : faulty.card ≤ f) : ∃ rep ∈ reps, rep.replicaID ∉ faulty := by
  by_contra hall
  -- the replicas of the Replies would be `f + 1` faulty ones
  have hsub : (reps.map Reply.replicaID).toFinset ⊆ faulty := by
    intro i hi
    obtain ⟨rep, hrep, rfl⟩ := List.mem_map.mp (List.mem_toFinset.mp hi)
    exact Classical.byContradiction fun hnot => hall ⟨rep, hrep, hnot⟩
  have hle := Finset.card_le_card hsub
  rw [List.toFinset_card_of_nodup hnodup, List.length_map] at hle
  omega

/-- **A delivered result comes from a correct replica that executed the request.** In every
admissible deployment, a result the client delivers for a request is the result of a Reply some
correct replica sent. That Reply is the replica's, signed by it, for a request of this client
with the request's sequence, which the replica executed before it sent the Reply and whose
client signature it verified, with its authenticator after a prefix of the messages it validated. -/
theorem delivered_result_executed {d : Deployment} (hd : d.Admissible) {req : Request}
    {result : Bytes} (hdel : ClientEvent.delivered req result ∈ d.clientConfig.trace) :
    ∃ i, i ∉ d.faulty ∧ ∃ (j k : Nat) (r : Request) (reply : Reply), j < k ∧
      (d.replicas i).trace[j]? = some (ReplicaEvent.executed r) ∧
      (d.replicas i).trace[k]? = some (ReplicaEvent.replied reply) ∧
      r.clientID = d.client.id ∧ r.sequence = req.sequence ∧
      (∃ hist, hist <+: (d.replicas i).shared.validated ∧
        validateRequest (d.params i).sha256 ((d.params i).verifyTag hist) r = .ok (.ok ())) ∧
      SignedReplyFor (d.params i) r reply ∧ reply.result = result := by
  have hinv := clientInv_inductive.reachable hd.client_reach
  obtain ⟨reps, hlen, hnodup, hres, hreps⟩ := hinv.delivered req result hdel
  -- one of the `f + 1` Replies is from a correct replica
  obtain ⟨rep, hrep, hcorrect⟩ := exists_correct_of_nodup hlen hnodup hd.faulty_card
  obtain ⟨hauth, hseq, hhash⟩ := hreps rep hrep
  have hresult : rep.result = result := by
    obtain ⟨rep₀, hrep₀, rfl⟩ := List.mem_map.mp hres
    exact hd.sha256_inj rep rep₀ hauth (hreps rep₀ hrep₀).1 hhash
  -- that replica sent it, after executing the request it is for
  have hreach := hd.replica_reach _ hcorrect
  obtain ⟨k, hk⟩ := List.mem_iff_getElem?.mp (hd.unforgeable rep hauth hcorrect)
  obtain ⟨j, r, hjk, hj, hfor⟩ :=
    ((execOk_inductive _).reachable hreach).executed_before_replied hk
  have hvalid := (((validInv_inductive _).reachable hreach).executed_proposed
    (List.mem_of_getElem? hj)).1
  have hcl : r.clientID = d.client.id :=
    hfor.2.1 ▸ clientID_of_replyAuthenticator (hinv.authentic rep hauth)
  exact ⟨rep.replicaID, hcorrect, j, k, r, rep, hjk, hj, hk, hcl, hfor.2.2.1 ▸ hseq, hvalid, hfor,
    hresult⟩

/-! ## A deployment of one replica -/

/-- A client of a system of one replica (`f = 0`), whose replica's signature verifies, with
SHA-256 the identity. -/
def soloClient : ClientParams := ⟨0, 0, id, fun _ _ _ _ => .ok ()⟩

/-- The client calls `Request` for request `1` and submits it; the replica's Reply arrives and
is authenticated and added; `supplyReplies` forwards it; `collectReplies` removes the request and
delivers the result. -/
def soloClientChoices : List ClientSched :=
  [.call (soloRequest 1), .run 0 .step, .arrive soloReply, .run 1 .step, .run 1 .step,
    .run 1 .step, .run 0 (.supplier .first), .run 0 (.supplier .first), .run 0 .step,
    .run 0 .step]

/-- The client's configuration at the end of that run. -/
def soloClientRun : Config ClientState ClientCall ClientEvent :=
  (runChoices (clientSchedStep soloClient) (Config.initial ClientState.init)
    soloClientChoices).getD (Config.initial ClientState.init)

theorem soloClientRun_trace :
    soloClientRun.trace =
      [.authenticated soloReply, .received 0 soloReply, .delivered (soloRequest 1) [7]] := by
  decide +kernel

/-- The client of `soloClientRun` with `soloParams`' replica in configuration `c`, none faulty. -/
def soloDeployment (c : Config Replica Goroutine ReplicaEvent) : Deployment :=
  ⟨soloClient, soloClientRun, fun _ => soloParams 0, fun _ => c, ∅⟩

theorem delivered_result_executed_solo :
    ∃ c, (soloDeployment c).Admissible ∧
      ClientEvent.delivered (soloRequest 1) [7] ∈ (soloDeployment c).clientConfig.trace ∧
      ∃ i, i ∉ (soloDeployment c).faulty ∧ ∃ (j k : Nat) (r : Request) (reply : Reply), j < k ∧
        ((soloDeployment c).replicas i).trace[j]? = some (ReplicaEvent.executed r) ∧
        ((soloDeployment c).replicas i).trace[k]? = some (ReplicaEvent.replied reply) ∧
        r.clientID = (soloDeployment c).client.id ∧ r.sequence = (soloRequest 1).sequence ∧
        (∃ hist, hist <+: ((soloDeployment c).replicas i).shared.validated ∧
          validateRequest ((soloDeployment c).params i).sha256
            (((soloDeployment c).params i).verifyTag hist) r = .ok (.ok ())) ∧
        SignedReplyFor ((soloDeployment c).params i) r reply ∧ reply.result = [7] := by
  obtain ⟨c, hreach, htr⟩ := repliedSchedule_run
  have hd : (soloDeployment c).Admissible := by
    refine ⟨by simp [soloDeployment, soloClient], ?_, fun _ _ => hreach, ?_, ?_⟩
    · exact reflTransGen_of_runChoices (clientSchedStep_sound soloClient) soloClientChoices rfl
    · -- the one Reply the client authenticated is the one the replica sent
      intro rep hrep _
      simp only [soloDeployment, soloClientRun_trace, List.mem_cons, ClientEvent.authenticated.injEq,
        List.not_mem_nil, reduceCtorEq, or_false] at hrep
      subst hrep
      simp [soloDeployment, htr]
    · intro _ _ _ _ h
      exact h
  have hdel : ClientEvent.delivered (soloRequest 1) [7] ∈ (soloDeployment c).clientConfig.trace := by
    simp [soloDeployment, soloClientRun_trace]
  exact ⟨c, hd, hdel, delivered_result_executed hd hdel⟩

end MinBFT.Client
