import MinBFT.Bytes.Layout
import MinBFT.Messages.Protobuf
import MinBFT.System.Outcome
import MinBFT.System.Threads

/-!
# The sample's ledger

Model of `sample/requestconsumer/simpleledger.go`: `SimpleBlock` with `MarshalBinary`,
`UnmarshalBinary` and `Hash`, and `SimpleLedger` with the goroutine `NewSimpleLedger` starts,
`Deliver`, `StateDigest` and `appendBlock`.

* `MarshalBinary` writes the height in 8 big-endian bytes, the previous block's hash copied into
  32 zero bytes (`copy(prevBlockHash[:], b.PrevBlockHash)`), then the payload. Its three error
  branches cannot be taken: writes to a `bytes.Buffer` do not fail.
* `UnmarshalBinary` works on its receiver. It sets the height, reads 32 bytes and copies them
  into the receiver's own `PrevBlockHash` slice (`copy(b.PrevBlockHash, prevBlockHash[:])`, which
  copies no more bytes than that slice has), then takes every byte left as the payload. It
  returns the receiver and the error; a failed read leaves what was set before it.
* SHA-256 is a parameter `H`, and `hash.Hash` is `HashState` (`Bytes/Layout`): `Sum(b)` appends
  the hash of what was written to `b`. `json.Marshal` of a block is a parameter too; it does not
  fail on a `SimpleBlock`.
* The ledger's goroutine is `Consumer`: it receives a message on `acceptedMsgQueue` (the handoff
  a `Deliver` call makes), appends a block under the lock, and sends the block's JSON on the
  caller's result channel, one message at a time. `LedgerStep` is one of these three steps, and
  the history records each handoff and each result sent. `StateDigest` reads the ledger under
  the read lock, between two steps. A nil slice is `[]`: no slice of the ledger is empty without
  being nil.
* `l.blocks[l.length-1]` panics when out of range: `appendBlock` and `stateDigest` return that
  panic, and the invariant shows that it never happens.

## Results

* `unmarshalBinary_of_le`: `UnmarshalBinary` of at least 40 bytes succeeds, with the hash bytes
  copied into the receiver's slice; `unmarshalBinary_error_iff`: it fails on fewer.
* `unmarshalBinary_marshalBinary`, `marshalBinary_unmarshalBinary`: into a receiver whose
  `PrevBlockHash` already has 32 bytes, the two encodings invert each other.
* `simpleBlock_unmarshal_fresh`: into `&SimpleBlock{}` they do not: a block with a 32-byte hash
  comes back without it, and 40 bytes or more encode back with zeros in place of the hash.
* `ledgerOk_reachable`: in every reachable state `length = len(blocks)`, `blocks[i].Height = i + 1`,
  the first block has no previous hash and every other one its predecessor's `Hash()`, and the
  results sent so far are the JSON of the blocks in order, each block carrying the payload
  handed over in its place.
* `simpleLedger_stateDigest`: with that, `StateDigest()` of a nonempty ledger is the last block's
  encoding followed by the SHA-256 of nothing, never the block's `Hash()`.
-/

namespace MinBFT.Sample

open MinBFT.Bytes MinBFT.Messages MinBFT.System

/-- `hashSize`: `sha256.Size`. -/
def hashSize : Nat := 32

/-- `SimpleBlock`. -/
structure SimpleBlock where
  height : Nat
  prevBlockHash : Bytes
  payload : Bytes
  deriving DecidableEq, Repr

namespace SimpleBlock

/-- `&SimpleBlock{}`. -/
def fresh : SimpleBlock := ⟨0, [], []⟩

/-- `MarshalBinary`. -/
def marshalBinary (b : SimpleBlock) : Bytes :=
  binaryWrite .big 8 [] b.height ++ goCopy (List.replicate hashSize 0) b.prevBlockHash ++ b.payload

/-- `UnmarshalBinary(marshaled)` on the receiver `b`: the receiver afterwards, and the error. -/
def unmarshalBinary (b : SimpleBlock) (marshaled : Bytes) : SimpleBlock × Option String :=
  match binaryRead .big 8 marshaled with
  | .error err => (b, some ("SimpleBlock binary.Read failed in b.height: " ++ err))
  | .ok (height, r) =>
    let b := { b with height := height }
    match readerRead hashSize r with
    | (prevBlockHash, n, r, err) =>
      if err.isSome ∨ n ≠ hashSize then
        -- `%v` of a nil error prints `<nil>`
        (b, some ("SimpleBlock binary.Read failed in b.prevBlockHash: " ++ err.getD "<nil>"))
      else
        -- `ioutil.ReadAll` of a `bytes.Reader` does not fail
        ({ b with prevBlockHash := goCopy b.prevBlockHash prevBlockHash, payload := r }, none)

/-- `Hash()`: the SHA-256 of the block's encoding. -/
def hash (H : Bytes → Bytes) (b : SimpleBlock) : Bytes :=
  (({} : HashState).write b.marshalBinary).sum H []

/-! ### The encoding -/

theorem marshalBinary_eq (b : SimpleBlock) :
    b.marshalBinary =
      toBytesBE 8 b.height ++ goCopy (List.replicate hashSize 0) b.prevBlockHash ++ b.payload := by
  simp [marshalBinary, binaryWrite]

theorem length_marshalBinary (b : SimpleBlock) :
    b.marshalBinary.length = 40 + b.payload.length := by
  simp only [marshalBinary_eq, List.length_append, length_toBytesBE, length_goCopy,
    List.length_replicate, hashSize]

@[simp] theorem hash_eq (H : Bytes → Bytes) (b : SimpleBlock) : b.hash H = H b.marshalBinary := by
  simp [hash, HashState.write, HashState.sum]

/-- `UnmarshalBinary` of at least 40 bytes: the height, the next 32 bytes copied into the
receiver's slice, and the rest as the payload. -/
theorem unmarshalBinary_of_le (b : SimpleBlock) {s : Bytes} (hs : 40 ≤ s.length) :
    b.unmarshalBinary s =
      (⟨ofBytesBE (s.take 8), goCopy b.prevBlockHash ((s.drop 8).take hashSize), s.drop 40⟩,
        none) := by
  have h8 : binaryRead .big 8 s = .ok (ofBytesBE (s.take 8), s.drop 8) := by
    rw [binaryRead, if_neg (by omega)]
    rfl
  have hread : readerRead hashSize (s.drop 8) =
      ((s.drop 8).take hashSize, hashSize, s.drop 40, none) := by
    rw [readerRead_of_le (by decide) (by simp only [hashSize, List.length_drop]; omega),
      List.drop_drop]
    rfl
  simp only [unmarshalBinary, h8, hread]
  rfl

/-- `UnmarshalBinary` fails exactly on fewer than 40 bytes. -/
theorem unmarshalBinary_error_iff (b : SimpleBlock) (s : Bytes) :
    (b.unmarshalBinary s).2.isSome ↔ s.length < 40 := by
  by_cases hs : 40 ≤ s.length
  · rw [unmarshalBinary_of_le b hs]
    simp only [Option.isSome_none, Bool.false_eq_true, false_iff]
    omega
  · refine iff_of_true ?_ (by omega)
    unfold unmarshalBinary
    split
    · rfl
    · next height r hread =>
      -- 8 bytes were read, so fewer than 32 are left
      have hr : r.length < hashSize := by
        unfold binaryRead at hread
        split_ifs at hread
        cases hread
        simp only [List.length_drop, hashSize]
        omega
      unfold readerRead
      split_ifs with hnil
      · rfl
      · dsimp only
        rw [if_pos (Or.inr (by rw [Nat.min_eq_right (Nat.le_of_lt hr)]; omega))]
        rfl

/-- A byte string is its 8 height bytes, its 32 hash bytes and the rest. -/
theorem take_append_hash_append_drop (s : Bytes) :
    s.take 8 ++ (s.drop 8).take hashSize ++ s.drop 40 = s := by
  rw [show 40 = 8 + hashSize from rfl, ← List.drop_drop, List.append_assoc, List.take_append_drop,
    List.take_append_drop]

/-- A decoded block encodes its height as the 8 bytes it was read from. -/
theorem marshalBinary_decoded {s : Bytes} (hs : 8 ≤ s.length) (prevBlockHash : Bytes) :
    (⟨ofBytesBE (s.take 8), prevBlockHash, s.drop 40⟩ : SimpleBlock).marshalBinary =
      s.take 8 ++ goCopy (List.replicate hashSize 0) prevBlockHash ++ s.drop 40 := by
  have hheight := toBytesBE_ofBytesBE (s.take 8)
  rw [List.length_take, Nat.min_eq_left hs] at hheight
  rw [marshalBinary_eq, hheight]

/-- Into a receiver whose slice has 32 bytes, `UnmarshalBinary` restores a block with a 32-byte
hash from its encoding. -/
theorem unmarshalBinary_marshalBinary {r b : SimpleBlock} (hr : r.prevBlockHash.length = hashSize)
    (hb : b.prevBlockHash.length = hashSize) (hh : b.height < 2 ^ 64) :
    r.unmarshalBinary b.marshalBinary = (b, none) := by
  have hcopy : goCopy (List.replicate hashSize 0) b.prevBlockHash = b.prevBlockHash :=
    goCopy_of_length_eq (by rw [List.length_replicate, hb])
  have henc : b.marshalBinary = toBytesBE 8 b.height ++ (b.prevBlockHash ++ b.payload) := by
    rw [marshalBinary_eq, hcopy, List.append_assoc]
  have hlen : (toBytesBE 8 b.height).length = 8 := length_toBytesBE 8 _
  rw [unmarshalBinary_of_le r (by rw [length_marshalBinary]; omega), henc, List.take_left' hlen,
    List.drop_left' hlen, ofBytesBE_toBytesBE, Nat.mod_eq_of_lt (by simpa using hh),
    List.take_left' hb, goCopy_of_length_eq (by rw [hr, hb])]
  -- the payload is what is left after the 40 bytes of height and hash
  have hdrop : (toBytesBE 8 b.height ++ (b.prevBlockHash ++ b.payload)).drop 40 = b.payload := by
    rw [show 40 = 8 + hashSize from rfl, ← List.drop_drop, List.drop_left' hlen,
      List.drop_left' hb]
  rw [hdrop]

/-- Into a receiver whose slice has 32 bytes, a string of at least 40 bytes decodes to a block
that encodes back to it. -/
theorem marshalBinary_unmarshalBinary {r : SimpleBlock} (hr : r.prevBlockHash.length = hashSize)
    {s : Bytes} (hs : 40 ≤ s.length) : (r.unmarshalBinary s).1.marshalBinary = s := by
  have hhash : ((s.drop 8).take hashSize).length = hashSize := by
    simp only [List.length_take, List.length_drop, hashSize]
    omega
  -- the 32 bytes read fill the receiver's slice, and the encoding copies them back
  have hinner : goCopy r.prevBlockHash ((s.drop 8).take hashSize) = (s.drop 8).take hashSize :=
    goCopy_of_length_eq (by rw [hr, hhash])
  have houter : goCopy (List.replicate hashSize 0) ((s.drop 8).take hashSize) =
      (s.drop 8).take hashSize :=
    goCopy_of_length_eq (by rw [List.length_replicate, hhash])
  rw [unmarshalBinary_of_le r hs, marshalBinary_decoded (by omega), hinner, houter,
    take_append_hash_append_drop]

/-- Into `&SimpleBlock{}`, whose slice is nil, `UnmarshalBinary` of at least 40 bytes keeps the
nil slice: the hash is read and dropped. -/
theorem unmarshalBinary_fresh {s : Bytes} (hs : 40 ≤ s.length) :
    fresh.unmarshalBinary s = (⟨ofBytesBE (s.take 8), [], s.drop 40⟩, none) := by
  rw [unmarshalBinary_of_le fresh hs, fresh, goCopy_nil]

end SimpleBlock

/-- **`SimpleBlock`'s encodings do not round-trip through a fresh block.** Into
`&SimpleBlock{}`, `UnmarshalBinary` of a block's encoding restores its height and payload but not
its 32-byte hash, which stays nil; and a string of at least 40 bytes decodes, but encodes back
with 32 zero bytes in place of its hash bytes, so to itself only when those are zero. -/
theorem simpleBlock_unmarshal_fresh :
    (∀ b : SimpleBlock, b.height < 2 ^ 64 → b.prevBlockHash.length = hashSize →
      SimpleBlock.fresh.unmarshalBinary b.marshalBinary = ({ b with prevBlockHash := [] }, none) ∧
      (SimpleBlock.fresh.unmarshalBinary b.marshalBinary).1 ≠ b) ∧
    (∀ s : Bytes, 40 ≤ s.length →
      (SimpleBlock.fresh.unmarshalBinary s).2 = none ∧
      (SimpleBlock.fresh.unmarshalBinary s).1.marshalBinary =
        s.take 8 ++ List.replicate hashSize 0 ++ s.drop 40 ∧
      ((SimpleBlock.fresh.unmarshalBinary s).1.marshalBinary = s ↔
        (s.drop 8).take hashSize = List.replicate hashSize 0)) := by
  refine ⟨fun b hh hb => ?_, fun s hs => ?_⟩
  · -- a receiver with a 32-byte slice restores `b`; the fresh one differs only in its slice
    have hr : ({ b with prevBlockHash := List.replicate hashSize 0 } :
        SimpleBlock).prevBlockHash.length = hashSize := List.length_replicate
    have hm : 40 ≤ b.marshalBinary.length := by
      rw [SimpleBlock.length_marshalBinary]
      omega
    have hrestore := SimpleBlock.unmarshalBinary_marshalBinary hr hb hh
    rw [SimpleBlock.unmarshalBinary_of_le _ hm, Prod.mk.injEq] at hrestore
    have hheight := congrArg SimpleBlock.height hrestore.1
    have hpayload := congrArg SimpleBlock.payload hrestore.1
    dsimp only at hheight hpayload
    rw [SimpleBlock.unmarshalBinary_fresh hm, hheight, hpayload]
    refine ⟨rfl, fun heq => ?_⟩
    -- the decoded hash is nil, `b`'s has 32 bytes
    have hnil := congrArg SimpleBlock.prevBlockHash heq
    dsimp only at hnil
    rw [← hnil, List.length_nil, hashSize] at hb
    cases hb
  · rw [SimpleBlock.unmarshalBinary_fresh hs, SimpleBlock.marshalBinary_decoded (by omega),
      goCopy_nil_right]
    refine ⟨rfl, rfl, ?_⟩
    -- `s` is its first 8 bytes, its 32 hash bytes and the rest
    have hsplit := (SimpleBlock.take_append_hash_append_drop s).symm
    constructor
    · intro h
      have hlen : (s.take 8 ++ List.replicate hashSize (0 : UInt8)).length =
          (s.take 8 ++ (s.drop 8).take hashSize).length := by
        simp only [List.length_append, List.length_replicate, List.length_take, List.length_drop,
          hashSize]
        omega
      exact (List.append_cancel_left (List.append_inj (h.trans hsplit) hlen).1).symm
    · intro h
      conv_rhs => rw [hsplit, h]

/-- A block with the hash `[1, …, 1]` comes back from its encoding without it. -/
theorem simpleBlock_unmarshal_fresh_hashOnes :
    SimpleBlock.fresh.unmarshalBinary
        ({ height := 1, prevBlockHash := List.replicate 32 1, payload := [7] } :
          SimpleBlock).marshalBinary =
      ({ height := 1, prevBlockHash := [], payload := [7] }, none) ∧
    (SimpleBlock.fresh.unmarshalBinary
        ({ height := 1, prevBlockHash := List.replicate 32 1, payload := [7] } :
          SimpleBlock).marshalBinary).1 ≠
      { height := 1, prevBlockHash := List.replicate 32 1, payload := [7] } :=
  simpleBlock_unmarshal_fresh.1 _ (by decide) rfl

/-! ## The ledger -/

/-- `SimpleLedger`, without its lock and its channel. -/
structure SimpleLedger where
  blocks : List SimpleBlock := []
  length : Nat := 0

namespace SimpleLedger

variable (H : Bytes → Bytes)

/-- `appendBlock(payload)`: the ledger afterwards and the block appended, `none` for the panic of
`l.blocks[l.length-1]` out of range. -/
def appendBlock (l : SimpleLedger) (payload : Bytes) : Option (SimpleLedger × SimpleBlock) :=
  let prevBlockHash : Option Bytes :=
    if 0 < l.length then (l.blocks[l.length - 1]?).map (SimpleBlock.hash H) else some []
  prevBlockHash.map fun prevBlockHash =>
    let length := l.length + 1
    let block : SimpleBlock := ⟨length, prevBlockHash, payload⟩
    (⟨l.blocks ++ [block], length⟩, block)

/-- `StateDigest()`: `nil` for an empty ledger, otherwise `New().Sum` of the last block's
encoding. -/
def stateDigest (l : SimpleLedger) : Outcome (Option Bytes) :=
  if l.length = 0 then .ok none
  else
    match l.blocks[l.length - 1]? with
    | none => .panic "index out of range"
    | some b => .ok (some (({} : HashState).sum H b.marshalBinary))

variable {H}

/-- What `appendBlock` does when `length` counts the blocks: it appends the block of height
`length + 1` with the payload, and the hash of the last block before it, nil for the first. -/
theorem appendBlock_eq {l : SimpleLedger} (h : l.length = l.blocks.length) (payload : Bytes) :
    l.appendBlock H payload =
      some (⟨l.blocks ++ [⟨l.length + 1, (l.blocks.getLast?.map (SimpleBlock.hash H)).getD [],
        payload⟩], l.length + 1⟩,
        ⟨l.length + 1, (l.blocks.getLast?.map (SimpleBlock.hash H)).getD [], payload⟩) := by
  unfold appendBlock
  split_ifs with hpos
  · -- the last block is at `length - 1`
    have hlast : l.blocks[l.length - 1]? = l.blocks.getLast? := by
      rw [List.getLast?_eq_getElem?, h]
    rw [hlast]
    obtain ⟨b, hb⟩ : ∃ b, l.blocks.getLast? = some b :=
      Option.isSome_iff_exists.mp
        (List.getLast?_isSome.mpr (List.ne_nil_of_length_pos (h ▸ hpos)))
    rw [hb]
    rfl
  · have hnil : l.blocks = [] := List.eq_nil_of_length_eq_zero (by omega)
    rw [hnil]
    rfl

/-- `StateDigest` when `length` counts the blocks: `nil` when there is none, otherwise the last
block's encoding followed by the hash of nothing. -/
theorem stateDigest_eq {l : SimpleLedger} (h : l.length = l.blocks.length) :
    l.stateDigest H = .ok (l.blocks.getLast?.map fun b => b.marshalBinary ++ H []) := by
  unfold stateDigest
  split_ifs with hzero
  · have hnil : l.blocks = [] := List.eq_nil_of_length_eq_zero (by omega)
    rw [hnil]
    rfl
  · have hlt : l.length - 1 < l.blocks.length := by omega
    rw [List.getLast?_eq_getElem?, ← h, List.getElem?_eq_getElem hlt]
    rfl

end SimpleLedger

/-! ## The goroutine and its runs -/

/-- Where the goroutine of `NewSimpleLedger` is in its loop: waiting on `acceptedMsgQueue`,
holding a message's payload before `appendBlock`, or holding the block before sending its JSON. -/
inductive Consumer where
  | receiving
  | accepted (requestPayload : Bytes)
  | sending (block : SimpleBlock)

/-- What the ledger's callers see: a `Deliver` call hands its payload over; the goroutine sends a
result. -/
inductive LedgerEvent where
  | delivered (payload : Bytes)
  | result (blockJSON : Bytes)

/-- The ledger, its goroutine and the history. -/
structure LedgerConfig where
  ledger : SimpleLedger := {}
  consumer : Consumer := .receiving
  trace : List LedgerEvent := []

section Steps

variable (H : Bytes → Bytes) (jsonMarshal : SimpleBlock → Bytes)

/-- One step of the goroutine: a `Deliver` call's handoff, `appendBlock`, or the send of the
result. -/
inductive LedgerStep : LedgerConfig → LedgerConfig → Prop
  | deliver {c : LedgerConfig} (msg : Bytes) : c.consumer = .receiving →
      LedgerStep c { c with consumer := .accepted msg, trace := c.trace ++ [.delivered msg] }
  | append {c : LedgerConfig} {payload : Bytes} {l : SimpleLedger} {block : SimpleBlock} :
      c.consumer = .accepted payload → c.ledger.appendBlock H payload = some (l, block) →
      LedgerStep c { c with ledger := l, consumer := .sending block }
  | send {c : LedgerConfig} {block : SimpleBlock} : c.consumer = .sending block →
      LedgerStep c
        { c with consumer := .receiving, trace := c.trace ++ [.result (jsonMarshal block)] }

end Steps

/-- The payload of a handoff. -/
def LedgerEvent.deliveredPayload : LedgerEvent → Option Bytes
  | .delivered payload => some payload
  | .result _ => none

/-- The JSON of a result sent. -/
def LedgerEvent.resultSent : LedgerEvent → Option Bytes
  | .result blockJSON => some blockJSON
  | .delivered _ => none

/-- The payloads handed over, in order. -/
def deliveredPayloads (trace : List LedgerEvent) : List Bytes :=
  trace.filterMap LedgerEvent.deliveredPayload

/-- The results sent, in order. -/
def resultsSent (trace : List LedgerEvent) : List Bytes :=
  trace.filterMap LedgerEvent.resultSent

@[simp] theorem deliveredPayloads_append (trace trace' : List LedgerEvent) :
    deliveredPayloads (trace ++ trace') = deliveredPayloads trace ++ deliveredPayloads trace' :=
  List.filterMap_append

@[simp] theorem resultsSent_append (trace trace' : List LedgerEvent) :
    resultsSent (trace ++ trace') = resultsSent trace ++ resultsSent trace' :=
  List.filterMap_append

@[simp] theorem deliveredPayloads_delivered (payload : Bytes) :
    deliveredPayloads [.delivered payload] = [payload] := rfl

@[simp] theorem deliveredPayloads_result (blockJSON : Bytes) :
    deliveredPayloads [.result blockJSON] = [] := rfl

@[simp] theorem resultsSent_delivered (payload : Bytes) :
    resultsSent [.delivered payload] = [] := rfl

@[simp] theorem resultsSent_result (blockJSON : Bytes) :
    resultsSent [.result blockJSON] = [blockJSON] := rfl

/-- The payload the goroutine holds and has not appended yet. -/
def Consumer.pendingPayload : Consumer → List Bytes
  | .receiving => []
  | .accepted payload => [payload]
  | .sending _ => []

/-- The JSON of the block the goroutine holds and has not sent yet. -/
def Consumer.pendingResult (jsonMarshal : SimpleBlock → Bytes) : Consumer → List Bytes
  | .receiving => []
  | .accepted _ => []
  | .sending block => [jsonMarshal block]

section Invariant

variable (H : Bytes → Bytes) (jsonMarshal : SimpleBlock → Bytes)

/-- The ledger against its history: `length` counts the blocks, the heights count from 1, the
hashes chain the blocks, the block being sent is the last one, every payload handed over is
in a block or held by the goroutine, and every result sent is the JSON of the block in its
place. -/
structure LedgerOk (c : LedgerConfig) : Prop where
  length_eq : c.ledger.length = c.ledger.blocks.length
  height : ∀ i (b : SimpleBlock), c.ledger.blocks[i]? = some b → b.height = i + 1
  first : ∀ b, c.ledger.blocks[0]? = some b → b.prevBlockHash = []
  chain : ∀ i (b b' : SimpleBlock), c.ledger.blocks[i]? = some b →
    c.ledger.blocks[i + 1]? = some b' → b'.prevBlockHash = b.hash H
  sending : ∀ b, c.consumer = .sending b → c.ledger.blocks.getLast? = some b
  payloads : deliveredPayloads c.trace =
    c.ledger.blocks.map SimpleBlock.payload ++ c.consumer.pendingPayload
  results : resultsSent c.trace ++ c.consumer.pendingResult jsonMarshal =
    c.ledger.blocks.map jsonMarshal

variable {H jsonMarshal}

theorem ledgerOk_init : LedgerOk H jsonMarshal {} where
  length_eq := rfl
  height := fun _ _ h => by cases h
  first := fun _ h => by cases h
  chain := fun _ _ _ h => by cases h
  sending := fun _ h => by cases h
  payloads := rfl
  results := rfl

/-- A handoff: the goroutine now holds the payload. -/
theorem LedgerOk.deliver {c : LedgerConfig} (h : LedgerOk H jsonMarshal c) (msg : Bytes)
    (hc : c.consumer = .receiving) :
    LedgerOk H jsonMarshal
      { c with consumer := .accepted msg, trace := c.trace ++ [.delivered msg] } where
  length_eq := h.length_eq
  height := h.height
  first := h.first
  chain := h.chain
  sending := fun _ hs => by cases hs
  payloads := by
    have hp := h.payloads
    rw [hc] at hp
    simp only [deliveredPayloads_append, hp, deliveredPayloads_delivered, Consumer.pendingPayload,
      List.append_nil]
  results := by
    have hr := h.results
    rw [hc] at hr
    simp only [resultsSent_append, resultsSent_delivered, Consumer.pendingResult,
      List.append_nil] at hr ⊢
    exact hr

/-- `appendBlock`: the new block has the next height, the last block's hash, and the payload
the goroutine held. -/
theorem LedgerOk.append {c : LedgerConfig} (h : LedgerOk H jsonMarshal c) {payload : Bytes}
    {l : SimpleLedger} {block : SimpleBlock} (hc : c.consumer = .accepted payload)
    (ha : c.ledger.appendBlock H payload = some (l, block)) :
    LedgerOk H jsonMarshal { c with ledger := l, consumer := .sending block } := by
  rw [SimpleLedger.appendBlock_eq h.length_eq, Option.some.injEq, Prod.mk.injEq] at ha
  obtain ⟨rfl, rfl⟩ := ha
  have hlen := h.length_eq
  refine
    { length_eq := by simp [hlen]
      height := fun i b hb => ?_
      first := fun b hb => ?_
      chain := fun i b b' hb hb' => ?_
      sending := fun b hb => ?_
      payloads := ?_
      results := ?_ }
  · rcases getElem?_append_singleton_eq_some hb with hb | ⟨rfl, rfl⟩
    · exact h.height i b hb
    · simp [hlen]
  · rcases getElem?_append_singleton_eq_some hb with hb | ⟨hi, rfl⟩
    · exact h.first b hb
    · -- the first block appended has no previous block
      have hnil : c.ledger.blocks = [] := List.eq_nil_of_length_eq_zero hi.symm
      simp [hnil]
  · -- the block before `b'` is an old one
    have hi : i < c.ledger.blocks.length := by
      have := (List.getElem?_eq_some_iff.mp hb').1
      rw [List.length_append, List.length_singleton] at this
      omega
    rw [List.getElem?_append_left hi] at hb
    rcases getElem?_append_singleton_eq_some hb' with hb' | ⟨hi, rfl⟩
    · exact h.chain i b b' hb hb'
    · -- and `b'` is the new block, whose hash is that of the last block
      have hlast : c.ledger.blocks.getLast? = some b := by
        rw [List.getLast?_eq_getElem?, ← hi]
        exact hb
      simp [hlast]
  · cases hb
    simp
  · have hp := h.payloads
    rw [hc] at hp
    simp [hp, Consumer.pendingPayload]
  · have hr := h.results
    rw [hc] at hr
    simp only [Consumer.pendingResult, List.append_nil] at hr
    simp [hr, Consumer.pendingResult]

/-- The send: the result is the JSON of the block the goroutine held. -/
theorem LedgerOk.send {c : LedgerConfig} (h : LedgerOk H jsonMarshal c) {block : SimpleBlock}
    (hc : c.consumer = .sending block) :
    LedgerOk H jsonMarshal
      { c with consumer := .receiving, trace := c.trace ++ [.result (jsonMarshal block)] } where
  length_eq := h.length_eq
  height := h.height
  first := h.first
  chain := h.chain
  sending := fun _ hs => by cases hs
  payloads := by
    have hp := h.payloads
    rw [hc] at hp
    simp only [deliveredPayloads_append, hp, deliveredPayloads_result, Consumer.pendingPayload,
      List.append_nil]
  results := by
    have hr := h.results
    rw [hc] at hr
    simp only [resultsSent_append, resultsSent_result, Consumer.pendingResult,
      List.append_nil] at hr ⊢
    exact hr

theorem ledgerOk_inductive :
    Inductive (LedgerStep H jsonMarshal) {} (LedgerOk H jsonMarshal) where
  init := ledgerOk_init
  step := fun _ _ h hs => by
    cases hs with
    | deliver msg hc => exact h.deliver msg hc
    | append hc ha => exact h.append hc ha
    | send hc => exact h.send hc

/-- `LedgerOk` holds in every reachable state. -/
theorem ledgerOk_reachable {c : LedgerConfig} (hc : Reachable (LedgerStep H jsonMarshal) {} c) :
    LedgerOk H jsonMarshal c :=
  ledgerOk_inductive.reachable hc

/-- The goroutine never panics in `appendBlock`: from every reachable state it can append. -/
theorem appendBlock_isSome {c : LedgerConfig} (hc : Reachable (LedgerStep H jsonMarshal) {} c)
    (payload : Bytes) : (c.ledger.appendBlock H payload).isSome := by
  rw [SimpleLedger.appendBlock_eq (ledgerOk_reachable hc).length_eq]
  rfl

end Invariant

/-! ## Main result -/

/-- **The chain `SimpleLedger` builds, and the digest it reports.** In every reachable state:
`length = len(blocks)`; `blocks[i].Height = i + 1`; the first block has a nil previous hash and
every other one its predecessor's `Hash()`; the `k`-th result sent is the JSON of `blocks[k]`,
which carries the `k`-th payload handed over (counting from 0); `StateDigest()` is nil for the
empty ledger; and for a nonempty one it is the last block's encoding followed by the SHA-256 of
nothing, which is never that block's `Hash()` when SHA-256 has 32 bytes. -/
theorem simpleLedger_stateDigest {H : Bytes → Bytes} {jsonMarshal : SimpleBlock → Bytes}
    {c : LedgerConfig} (hc : Reachable (LedgerStep H jsonMarshal) {} c) :
    c.ledger.length = c.ledger.blocks.length ∧
    (∀ i (b : SimpleBlock), c.ledger.blocks[i]? = some b → b.height = i + 1) ∧
    (∀ b, c.ledger.blocks[0]? = some b → b.prevBlockHash = []) ∧
    (∀ i (b b' : SimpleBlock), c.ledger.blocks[i]? = some b →
      c.ledger.blocks[i + 1]? = some b' → b'.prevBlockHash = b.hash H) ∧
    (∀ (k : Nat) (blockJSON : Bytes), (resultsSent c.trace)[k]? = some blockJSON →
      ∃ b, c.ledger.blocks[k]? = some b ∧ blockJSON = jsonMarshal b ∧
        (deliveredPayloads c.trace)[k]? = some b.payload) ∧
    (c.ledger.length = 0 → c.ledger.stateDigest H = .ok none) ∧
    (∀ b, c.ledger.blocks.getLast? = some b →
      c.ledger.stateDigest H = .ok (some (b.marshalBinary ++ H [])) ∧
      ((∀ x, (H x).length = hashSize) → c.ledger.stateDigest H ≠ .ok (some (b.hash H)))) := by
  have h := ledgerOk_reachable hc
  refine ⟨h.length_eq, h.height, h.first, h.chain, fun k blockJSON hk => ?_, fun h0 => ?_,
    fun b hb => ?_⟩
  · -- a result sent is in the prefix `blocks.map jsonMarshal` starts with
    have hk' : k < (resultsSent c.trace).length := (List.getElem?_eq_some_iff.mp hk).1
    have hmap : (c.ledger.blocks.map jsonMarshal)[k]? = some blockJSON := by
      rw [← h.results, List.getElem?_append_left hk', hk]
    rw [List.getElem?_map] at hmap
    obtain ⟨b, hb, hjson⟩ := Option.map_eq_some_iff.mp hmap
    have hkb : k < (c.ledger.blocks.map SimpleBlock.payload).length := by
      rw [List.length_map]
      exact (List.getElem?_eq_some_iff.mp hb).1
    refine ⟨b, hb, hjson.symm, ?_⟩
    rw [h.payloads, List.getElem?_append_left hkb, List.getElem?_map, hb]
    rfl
  · have hnil : c.ledger.blocks = [] := List.eq_nil_of_length_eq_zero (by rw [← h.length_eq, h0])
    rw [SimpleLedger.stateDigest_eq h.length_eq, hnil]
    rfl
  · have hdigest : c.ledger.stateDigest H = .ok (some (b.marshalBinary ++ H [])) := by
      rw [SimpleLedger.stateDigest_eq h.length_eq, hb]
      rfl
    refine ⟨hdigest, fun hH heq => ?_⟩
    -- the digest has the block's 40 bytes and more; a hash has 32
    rw [hdigest] at heq
    have hlen := congrArg List.length (Option.some.inj (Outcome.ok.inj heq))
    rw [List.length_append, SimpleBlock.length_marshalBinary, SimpleBlock.hash_eq, hH, hH] at hlen
    omega

/-- One `Deliver([7])` served: handed over, appended as block 1, and its result sent. -/
def oneBlockServed : LedgerConfig where
  ledger := ⟨[⟨1, [], [7]⟩], 1⟩
  trace := [.delivered [7], .result [7]]

theorem oneBlockServed_reachable :
    Reachable (LedgerStep (fun _ => List.replicate 32 0) SimpleBlock.payload) {}
      oneBlockServed := by
  have happended : Reachable (LedgerStep (fun _ => List.replicate 32 0) SimpleBlock.payload) {} _ :=
    (Reachable.refl.tail (.deliver [7] rfl)).tail (.append rfl rfl)
  -- the block being sent is given, so that its JSON can be matched against the trace
  exact happended.tail (@LedgerStep.send _ _ _ ⟨1, [], [7]⟩ rfl)

/-- After one `Deliver`, with SHA-256 returning 32 bytes, `StateDigest()` is the block's encoding
and 32 more bytes, not the block's `Hash()`. -/
theorem simpleLedger_stateDigest_oneBlock :
    Reachable (LedgerStep (fun _ => List.replicate 32 0) SimpleBlock.payload) {} oneBlockServed ∧
    oneBlockServed.ledger.stateDigest (fun _ => List.replicate 32 0) =
      .ok (some ((⟨1, [], [7]⟩ : SimpleBlock).marshalBinary ++ List.replicate 32 0)) ∧
    oneBlockServed.ledger.stateDigest (fun _ => List.replicate 32 0) ≠
      .ok (some ((⟨1, [], [7]⟩ : SimpleBlock).hash fun _ => List.replicate 32 0)) := by
  obtain ⟨-, -, -, -, -, -, hdigest⟩ := simpleLedger_stateDigest oneBlockServed_reachable
  exact ⟨oneBlockServed_reachable, (hdigest _ rfl).1, (hdigest _ rfl).2 fun _ => rfl⟩

end MinBFT.Sample
