import MinBFT.Messages.Protobuf
import Mathlib.Data.List.Nodup

/-!
# The client's request buffer

`requestbuffer.T` of `client/internal/requestbuffer/requestbuffer.go`: the one Request a client
has in flight, and the Replies the replicas sent for it. Each operation here is one critical
section of the source, under the lock it takes, so it is one atomic step of the goroutine that
calls it (`Client/Request.lean`).

* A `request` object is never freed while a goroutine holds it: `AddReply` reads `rb.request`
  under the read lock and adds the Reply to that object after releasing it, so the object may
  have been removed meanwhile. The objects are therefore kept in a list, `requests`, by the order
  made, and `rb.request` is an index into it.
* `replySet` carries what `addReply` keeps of it: its `replicas` set holds exactly the replica
  IDs of its Replies, and no two of its Replies have one replica ID (`ReplySet.nodup`).
* The notification channels `rb.newAdded` and the stream `RequestStream` that reads them feed
  the outgoing Requests to the replicas, which no result depends on; they are left out.

## Results

* `ReplySet.addReply_cases`: `addReply` drops a Reply of a replica it has, and appends any other
  with a notification.
* `RequestBuffer.addReply_cases`, `RequestBuffer.removeRequest_requests`: a Reply is added only
  to the object read, and only when its sequence is the object's; removing only closes
  `removed`.
-/

namespace MinBFT.Client

open MinBFT.Messages

/-! ## The Replies of one Request -/

/-- `replySet`: the replica IDs of its Replies, its Replies in the order added, and its
notification channel `newAdded` (capacity 1), which holds a notification or not. -/
structure ReplySet where
  replicas : List Nat
  msgs : List Reply
  newAdded : Bool
  replicas_iff : ∀ r, r ∈ replicas ↔ r ∈ msgs.map Reply.replicaID
  nodup : (msgs.map Reply.replicaID).Nodup

namespace ReplySet

/-- `newReplySet()`. -/
def new : ReplySet := ⟨[], [], false, by simp, List.nodup_nil⟩

/-- The replica set after adding a Reply of a new replica. -/
theorem replicas_iff_add (rs : ReplySet) (msg : Reply) :
    ∀ r, r ∈ msg.replicaID :: rs.replicas ↔ r ∈ (rs.msgs ++ [msg]).map Reply.replicaID := by
  intro r
  rw [List.mem_cons, rs.replicas_iff, List.map_append, List.mem_append]
  simp [or_comm]

/-- The Replies stay of distinct replicas after adding a Reply of a new replica. -/
theorem nodup_add (rs : ReplySet) {msg : Reply} (h : msg.replicaID ∉ rs.replicas) :
    ((rs.msgs ++ [msg]).map Reply.replicaID).Nodup := by
  rw [List.map_append, List.nodup_append]
  refine ⟨rs.nodup, List.nodup_singleton _, ?_⟩
  intro a ha b hb
  simp only [List.map_cons, List.map_nil, List.mem_singleton] at hb
  rintro rfl
  exact h ((rs.replicas_iff _).mpr (hb ▸ ha))

/-- `addReply(msg)`: a Reply of a replica already in the set is dropped (`false`); any other is
added, and the notification channel gets a non-blocking send, after which it holds a
notification whether the send took place or the `default` case did. -/
def addReply (rs : ReplySet) (msg : Reply) : Bool × ReplySet :=
  if h : msg.replicaID ∈ rs.replicas then (false, rs)
  else (true, ⟨msg.replicaID :: rs.replicas, rs.msgs ++ [msg], true, rs.replicas_iff_add msg,
    rs.nodup_add h⟩)

/-- What `addReply` does: drop a Reply of a replica it has, or append the Reply and notify. -/
theorem addReply_cases {rs rs' : ReplySet} {msg : Reply} {ok : Bool}
    (h : rs.addReply msg = (ok, rs')) :
    (ok = false ∧ rs' = rs) ∨ (ok = true ∧ rs'.msgs = rs.msgs ++ [msg] ∧ rs'.newAdded = true) := by
  unfold addReply at h
  split_ifs at h
  · cases h
    exact .inl ⟨rfl, rfl⟩
  · cases h
    exact .inr ⟨rfl, rfl, rfl⟩

/-- The content of the notification channel after a step of `supplyReplies`. -/
def setNote (rs : ReplySet) (note : Bool) : ReplySet := { rs with newAdded := note }

@[simp] theorem setNote_msgs (rs : ReplySet) (note : Bool) : (rs.setNote note).msgs = rs.msgs := rfl

@[simp] theorem setNote_newAdded (rs : ReplySet) (note : Bool) :
    (rs.setNote note).newAdded = note := rfl

end ReplySet

/-! ## The buffer -/

/-- `request`: the Request message, whether its channel `removed` is closed, and its Replies. -/
structure RequestObj where
  msg : Request
  removed : Bool
  replies : ReplySet

/-- What `addReply` may make of an object: its Request is kept, and its Replies are kept or gain
`msg`, whose sequence is the Request's, with a notification. -/
def RequestObj.AddedTo (msg : Reply) (obj obj' : RequestObj) : Prop :=
  obj'.msg = obj.msg ∧ (obj'.replies = obj.replies ∨
    obj'.replies.msgs = obj.replies.msgs ++ [msg] ∧ obj'.replies.newAdded = true ∧
      msg.sequence = obj.msg.sequence)

/-- `newRequest(msg)`. -/
def newRequest (msg : Request) : RequestObj := ⟨msg, false, ReplySet.new⟩

/-- `requestbuffer.T`: `lastSeq`, the request in the buffer (an index into `requests`, `none` for
`nil`), and every request object made so far. -/
structure RequestBuffer where
  lastSeq : Nat
  request : Option Nat
  requests : List RequestObj

namespace RequestBuffer

/-- `New()`. -/
def new : RequestBuffer := ⟨0, none, []⟩

/-- `AddRequest(msg)` once `rb.request` is `nil` (until then the call waits for `removed` to be
closed): `none` when the sequence is not above `lastSeq`, else the buffer with the new request
and the index of its object. -/
def addRequest (rb : RequestBuffer) (msg : Request) : Option (RequestBuffer × Nat) :=
  if msg.sequence ≤ rb.lastSeq then none
  else some (⟨msg.sequence, some rb.requests.length, rb.requests ++ [newRequest msg]⟩,
    rb.requests.length)

/-- The part of `AddReply(msg)` after it has read `request` from the buffer: nothing for a `nil`
request or another sequence, else `addReply` on that request's Replies. -/
def addReply (rb : RequestBuffer) (request : Option Nat) (msg : Reply) : Bool × RequestBuffer :=
  match request with
  | none => (false, rb)
  | some k =>
    match rb.requests[k]? with
    | none => (false, rb)
    | some obj =>
      if obj.msg.sequence ≠ msg.sequence then (false, rb)
      else
        let (ok, rs') := obj.replies.addReply msg
        (ok, { rb with requests := rb.requests.set k { obj with replies := rs' } })

/-- `RemoveRequest(seq)`: closes `removed` of the request in the buffer and empties the buffer,
when that request has sequence `seq`. -/
def removeRequest (rb : RequestBuffer) (seq : Nat) : RequestBuffer :=
  match rb.request with
  | none => rb
  | some k =>
    match rb.requests[k]? with
    | none => rb
    | some obj =>
      if obj.msg.sequence ≠ seq then rb
      else { rb with request := none, requests := rb.requests.set k { obj with removed := true } }

/-- The content of the notification channel of the Replies of object `k` after a step of its
`supplyReplies`. -/
def setNote (rb : RequestBuffer) (k : Nat) (note : Bool) : RequestBuffer :=
  { rb with requests := rb.requests.modify k fun obj => { obj with replies := obj.replies.setNote note } }

/-- The object of the notifying `supplyReplies` after its step. -/
theorem setNote_getElem?_self {rb : RequestBuffer} {k : Nat} {obj : RequestObj}
    (h : rb.requests[k]? = some obj) (note : Bool) :
    (rb.setNote k note).requests[k]? = some { obj with replies := obj.replies.setNote note } := by
  simp [setNote, h]

/-- The other objects after a step of `supplyReplies`. -/
theorem setNote_getElem?_of_ne {rb : RequestBuffer} {j k : Nat} (h : j ≠ k) (note : Bool) :
    (rb.setNote k note).requests[j]? = rb.requests[j]? := by
  simp [setNote, List.getElem?_modify_ne _ _ (Ne.symm h)]

/-- A step of `supplyReplies` of object `k` replaces that object by itself with the new content of
its notification channel. -/
theorem setNote_eq_set {rb : RequestBuffer} {k : Nat} {obj : RequestObj}
    (h : rb.requests[k]? = some obj) (note : Bool) :
    rb.setNote k note =
      { rb with requests := rb.requests.set k { obj with replies := obj.replies.setNote note } } := by
  unfold setNote
  congr 1
  apply List.ext_getElem?
  intro j
  by_cases hjk : j = k
  · subst hjk
    simp [List.getElem?_set_self (List.getElem?_eq_some_iff.mp h).1, h]
  · simp [List.getElem?_set_ne (Ne.symm hjk), List.getElem?_modify_ne _ _ (Ne.symm hjk)]

/-- An object after a step of `supplyReplies` of object `k` is that object with the new content
of its notification channel, or another object as it was. -/
theorem setNote_getElem?_cases {rb : RequestBuffer} {j k : Nat} {obj obj' : RequestObj}
    (hk : rb.requests[k]? = some obj) {note : Bool} (h : (rb.setNote k note).requests[j]? = some obj') :
    (j = k ∧ obj' = { obj with replies := obj.replies.setNote note }) ∨
      (j ≠ k ∧ rb.requests[j]? = some obj') := by
  by_cases hjk : j = k
  · subst hjk
    rw [setNote_getElem?_self hk] at h
    exact .inl ⟨rfl, (Option.some.inj h).symm⟩
  · rw [setNote_getElem?_of_ne hjk] at h
    exact .inr ⟨hjk, h⟩

/-- What `addRequest` does. -/
theorem addRequest_eq_some {rb rb' : RequestBuffer} {msg : Request} {k : Nat}
    (h : rb.addRequest msg = some (rb', k)) :
    rb.lastSeq < msg.sequence ∧ k = rb.requests.length ∧
      rb' = ⟨msg.sequence, some k, rb.requests ++ [newRequest msg]⟩ := by
  unfold addRequest at h
  split_ifs at h with hle
  cases h
  exact ⟨Nat.lt_of_not_le hle, rfl, rfl⟩

/-- `addRequest` rejects exactly a sequence not above `lastSeq`. -/
theorem addRequest_eq_none {rb : RequestBuffer} {msg : Request} (h : rb.addRequest msg = none) :
    msg.sequence ≤ rb.lastSeq := by
  unfold addRequest at h
  split_ifs at h with hle
  exact hle

/-- What `addReply` does: nothing, or `ReplySet.addReply` on the object read, whose sequence is the
Reply's. -/
theorem addReply_cases {rb rb' : RequestBuffer} {request : Option Nat} {msg : Reply} {ok : Bool}
    (h : rb.addReply request msg = (ok, rb')) :
    rb' = rb ∨ ∃ k obj rs', request = some k ∧ rb.requests[k]? = some obj ∧
      obj.msg.sequence = msg.sequence ∧ obj.replies.addReply msg = (ok, rs') ∧
      rb' = { rb with requests := rb.requests.set k { obj with replies := rs' } } := by
  unfold addReply at h
  split at h
  · cases h; exact .inl rfl
  · next k =>
    split at h
    · cases h; exact .inl rfl
    · next obj hobj =>
      split_ifs at h with hseq
      · cases h; exact .inl rfl
      · rcases hrs : obj.replies.addReply msg with ⟨ok', rs'⟩
        rw [hrs] at h
        cases h
        exact .inr ⟨k, obj, rs', rfl, hobj, not_not.mp hseq, hrs, rfl⟩

/-- `addReply` returns `true` only when it appended the Reply, with a notification, to the Replies
of the object it read, whose sequence is the Reply's. -/
theorem addReply_eq_true {rb rb' : RequestBuffer} {request : Option Nat} {msg : Reply}
    (h : rb.addReply request msg = (true, rb')) :
    ∃ k obj rs', request = some k ∧ rb.requests[k]? = some obj ∧
      obj.msg.sequence = msg.sequence ∧ rs'.msgs = obj.replies.msgs ++ [msg] ∧
      rs'.newAdded = true ∧
      rb' = { rb with requests := rb.requests.set k { obj with replies := rs' } } := by
  unfold addReply at h
  split at h
  · cases h
  · next k =>
    split at h
    · cases h
    · next obj hobj =>
      split_ifs at h with hseq
      · cases h
      · rcases hrs : obj.replies.addReply msg with ⟨ok, rs'⟩
        rw [hrs] at h
        cases h
        rcases ReplySet.addReply_cases hrs with ⟨hok, -⟩ | ⟨-, hmsgs, hnote⟩
        · cases hok
        · exact ⟨k, obj, rs', rfl, hobj, not_not.mp hseq, hmsgs, hnote, rfl⟩

/-- `addReply` that returns `false` leaves the buffer as it is. -/
theorem addReply_eq_false {rb rb' : RequestBuffer} {request : Option Nat} {msg : Reply}
    (h : rb.addReply request msg = (false, rb')) : rb' = rb := by
  rcases addReply_cases h with rfl | ⟨k, obj, rs', -, hobj, -, hrs, rfl⟩
  · rfl
  · rcases ReplySet.addReply_cases hrs with ⟨-, rfl⟩ | ⟨hok, -⟩
    · obtain ⟨hk, rfl⟩ := List.getElem?_eq_some_iff.mp hobj
      simp [List.set_getElem_self hk]
    · cases hok

/-- `addReply` changes each object as `AddedTo` says, and makes or drops none. -/
theorem addReply_rel (rb : RequestBuffer) (request : Option Nat) (msg : Reply) (j : Nat) :
    Option.Rel (RequestObj.AddedTo msg) rb.requests[j]? (rb.addReply request msg).2.requests[j]? := by
  -- an object the call leaves alone
  have hrefl : Option.Rel (RequestObj.AddedTo msg) rb.requests[j]? rb.requests[j]? := by
    cases rb.requests[j]? with
    | none => exact .none
    | some obj => exact .some ⟨rfl, .inl rfl⟩
  rcases h : rb.addReply request msg with ⟨ok, rb'⟩
  rcases addReply_cases h with rfl | ⟨k, obj, rs', -, hobj, hseq, hrs, rfl⟩
  · exact hrefl
  · dsimp only
    by_cases hjk : j = k
    · subst hjk
      rw [List.getElem?_set_self (List.getElem?_eq_some_iff.mp hobj).1, hobj]
      refine .some ⟨rfl, ?_⟩
      rcases ReplySet.addReply_cases hrs with ⟨-, rfl⟩ | ⟨-, hmsgs, hnote⟩
      · exact .inl rfl
      · exact .inr ⟨hmsgs, hnote, hseq.symm⟩
    · rw [List.getElem?_set_ne (Ne.symm hjk)]
      exact hrefl

/-- An object before `addReply` is there after it. -/
theorem addReply_getElem?_of {rb : RequestBuffer} {j : Nat} {obj : RequestObj}
    (h : rb.requests[j]? = some obj) (request : Option Nat) (msg : Reply) :
    ∃ obj', (rb.addReply request msg).2.requests[j]? = some obj' ∧ obj.AddedTo msg obj' := by
  have hrel := addReply_rel rb request msg j
  rw [h] at hrel
  cases h' : (rb.addReply request msg).2.requests[j]? with
  | none => rw [h'] at hrel; simp at hrel
  | some obj' => rw [h'] at hrel; exact ⟨obj', rfl, Option.rel_some_some.mp hrel⟩

/-- An object after `addReply` was there before it. -/
theorem getElem?_of_addReply_getElem? {rb : RequestBuffer} {request : Option Nat} {msg : Reply}
    {j : Nat} {obj' : RequestObj} (h : (rb.addReply request msg).2.requests[j]? = some obj') :
    ∃ obj, rb.requests[j]? = some obj ∧ obj.AddedTo msg obj' := by
  have hrel := addReply_rel rb request msg j
  rw [h] at hrel
  cases h' : rb.requests[j]? with
  | none => rw [h'] at hrel; simp at hrel
  | some obj => rw [h'] at hrel; exact ⟨obj, rfl, Option.rel_some_some.mp hrel⟩

/-- An object after a step of `supplyReplies` was there before it, with its Request and Replies. -/
theorem getElem?_of_setNote_getElem? {rb : RequestBuffer} {j k : Nat} {note : Bool}
    {obj' : RequestObj} (h : (rb.setNote k note).requests[j]? = some obj') :
    ∃ obj, rb.requests[j]? = some obj ∧ obj'.msg = obj.msg ∧ obj'.replies.msgs = obj.replies.msgs := by
  by_cases hjk : j = k
  · subst hjk
    cases hobj : rb.requests[j]? with
    | none => simp [setNote, hobj] at h
    | some obj =>
      rw [setNote_getElem?_self hobj] at h
      cases h
      exact ⟨obj, rfl, rfl, rfl⟩
  · rw [setNote_getElem?_of_ne hjk] at h
    exact ⟨obj', h, rfl, rfl⟩

/-- What `removeRequest` does: nothing, or it closes `removed` of the request in the buffer, whose
sequence is `seq`, and empties the buffer. -/
theorem removeRequest_cases (rb : RequestBuffer) (seq : Nat) :
    rb.removeRequest seq = rb ∨ ∃ k obj, rb.request = some k ∧ rb.requests[k]? = some obj ∧
      obj.msg.sequence = seq ∧ rb.removeRequest seq =
        { rb with request := none, requests := rb.requests.set k { obj with removed := true } } := by
  unfold removeRequest
  split
  · exact .inl rfl
  · next k hreq =>
    split
    · exact .inl rfl
    · next obj hobj =>
      split_ifs with hseq
      · exact .inl rfl
      · exact .inr ⟨k, obj, hreq, hobj, not_not.mp hseq, rfl⟩

/-- `removeRequest` changes no object but for closing `removed`. -/
theorem removeRequest_requests (rb : RequestBuffer) (seq k : Nat) :
    ((rb.removeRequest seq).requests[k]?).map (fun obj => (obj.msg, obj.replies)) =
      (rb.requests[k]?).map (fun obj => (obj.msg, obj.replies)) := by
  unfold removeRequest
  split
  · rfl
  · next _ k' _ =>
    split
    · rfl
    · next obj hobj =>
      split_ifs
      · rfl
      · by_cases hk : k' = k
        · subst hk
          simp [List.getElem?_set_self (List.getElem?_eq_some_iff.mp hobj).1, hobj]
        · simp [List.getElem?_set_ne hk]

/-- An object before `removeRequest` is there after it, with its Request and Replies. -/
theorem removeRequest_getElem?_of {rb : RequestBuffer} {k : Nat} {obj : RequestObj}
    (h : rb.requests[k]? = some obj) (seq : Nat) :
    ∃ obj', (rb.removeRequest seq).requests[k]? = some obj' ∧ obj'.msg = obj.msg ∧
      obj'.replies = obj.replies := by
  have hv := removeRequest_requests rb seq k
  rw [h, Option.map_some] at hv
  obtain ⟨obj', h', hview⟩ := Option.map_eq_some_iff.mp hv
  simp only [Prod.mk.injEq] at hview
  exact ⟨obj', h', hview⟩

/-- An object after `removeRequest` was there before it, with its Request and Replies. -/
theorem getElem?_of_removeRequest_getElem? {rb : RequestBuffer} {seq k : Nat} {obj' : RequestObj}
    (h : (rb.removeRequest seq).requests[k]? = some obj') :
    ∃ obj, rb.requests[k]? = some obj ∧ obj'.msg = obj.msg ∧ obj'.replies = obj.replies := by
  have hv := removeRequest_requests rb seq k
  rw [h, Option.map_some] at hv
  obtain ⟨obj, h', hview⟩ := Option.map_eq_some_iff.mp hv.symm
  simp only [Prod.mk.injEq] at hview
  exact ⟨obj, h', hview.1.symm, hview.2.symm⟩

end RequestBuffer

end MinBFT.Client
