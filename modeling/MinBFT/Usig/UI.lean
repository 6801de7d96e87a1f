import MinBFT.Bytes.Endian
import MinBFT.Messages.Protobuf

/-!
# USIG unique identifiers

Model of `usig.UI` and its byte encoding (`usig/usig.go`): a UI is a counter and the certificate
the USIG made for it. `MarshalBinary` writes the counter as 8 big-endian bytes, then the
certificate bytes. `UnmarshalBinary` reads the counter with `binary.Read`, which fails when fewer
than 8 bytes are left, and takes every remaining byte as the certificate.

`parseMessageUI` (`core/usig-ui.go`) decodes the UI of a certified message into a fresh `UI`.
Counters are `uint64`; the only arithmetic the core does on them is `cv - 1` (`decCounter`), which
wraps around at zero.
-/

namespace MinBFT.Usig

open MinBFT.Bytes MinBFT.Messages

/-- `usig.UI`. -/
structure UI where
  counter : Nat
  cert : Bytes
  deriving DecidableEq, Repr

/-- `UI.MarshalBinary`. -/
def UI.marshalBinary (ui : UI) : Bytes := toBytesBE 8 ui.counter ++ ui.cert

/-- `UI.UnmarshalBinary` into a fresh `UI`: `none` is the error of `binary.Read` on fewer than
8 bytes. -/
def UI.unmarshalBinary (b : Bytes) : Option UI :=
  if b.length < 8 then none else some ⟨ofBytesBE (b.take 8), b.drop 8⟩

/-- The error of `binary.Read` when `UnmarshalBinary` fails: `io.EOF` on no byte at all,
`io.ErrUnexpectedEOF` on fewer than 8. -/
def UI.unmarshalError (b : Bytes) : String :=
  if b = [] then "EOF" else "unexpected EOF"

theorem UI.unmarshalBinary_marshalBinary (ui : UI) (h : ui.counter < 2 ^ 64) :
    UI.unmarshalBinary ui.marshalBinary = some ui := by
  have hlen : (toBytesBE 8 ui.counter).length = 8 := length_toBytesBE 8 ui.counter
  have hc : ofBytesBE (toBytesBE 8 ui.counter) = ui.counter := by
    rw [ofBytesBE_toBytesBE, Nat.mod_eq_of_lt (by simpa using h)]
  simp [UI.unmarshalBinary, UI.marshalBinary, hlen, hc]

/-- `UnmarshalBinary` fails exactly on a string of fewer than 8 bytes. -/
theorem UI.unmarshalBinary_eq_none_iff (b : Bytes) :
    UI.unmarshalBinary b = none ↔ b.length < 8 := by
  unfold UI.unmarshalBinary
  split_ifs with h
  · exact iff_of_true rfl h
  · exact iff_of_false (by simp) h

/-- A UI read from a byte string writes back to that string: the counter takes its first 8 bytes
and the certificate all the others. -/
theorem UI.marshalBinary_of_unmarshalBinary {b : Bytes} {ui : UI}
    (h : UI.unmarshalBinary b = some ui) : ui.marshalBinary = b := by
  unfold UI.unmarshalBinary at h
  split at h
  · cases h
  · next hlen =>
    cases h
    have h8 : (b.take 8).length = 8 := by
      rw [List.length_take]
      omega
    have hcounter := toBytesBE_ofBytesBE (b.take 8)
    rw [h8] at hcounter
    rw [UI.marshalBinary, hcounter, List.take_append_drop]

/-- A UI read from a byte string has a counter below `2 ^ 64`. -/
theorem UI.counter_lt_of_unmarshalBinary {b : Bytes} {ui : UI} (h : UI.unmarshalBinary b = some ui) :
    ui.counter < 2 ^ 64 := by
  unfold UI.unmarshalBinary at h
  split at h
  · cases h
  · cases h
    have := ofBytesLE_lt (b.take 8).reverse
    simp only [List.length_reverse, List.length_take] at this
    have h8 : min 8 b.length = 8 := by omega
    rw [h8] at this
    exact this

/-- `cv - 1` on a `uint64` counter below `2 ^ 64`: it wraps around to `2 ^ 64 - 1` at `0`. -/
def decCounter (cv : Nat) : Nat := if cv = 0 then 2 ^ 64 - 1 else cv - 1

theorem decCounter_of_pos {cv : Nat} (h : 0 < cv) : decCounter cv = cv - 1 := by
  simp [decCounter, Nat.pos_iff_ne_zero.mp h]

/-- `parseMessageUI`: the UI of a certified message, `none` when its UI bytes do not decode.
A wrapper around a nil pointer has no UI bytes to read (`UIBytes` dereferences it). -/
def parseMessageUI (m : Message) : Option UI :=
  m.uiBytes.bind UI.unmarshalBinary

/-- What a caller of `parseMessageUI` panics with when the UI does not decode: the error
`parseMessageUI` returns, `Failed unmarshaling UI: <err>` with the error of `binary.Read`. A
message whose protobuf body is nil has no `Ui` field to read (`m.pbMsg.Ui`). -/
def parseMessageUIPanic (m : Message) : String :=
  match m.uiBytes with
  | none => nilDereference
  | some b => "Failed unmarshaling UI: " ++ UI.unmarshalError b

end MinBFT.Usig
