import TextCodec.Base64.Sink
/-!
# Reservoir of bits

Symbols bring six bits each and bytes take eight. In between, bits wait in a reservoir: a word of 32
bits and the number of its low bits that are in use. The bit that came first is the highest.
-/

namespace TextCodec.Base64

/-- Bits that wait for the rest of their byte. -/
structure Reservoir where
  /-- The bits, above them zeros. -/
  bits : UInt32 := 0
  size : UInt8 := 0
deriving DecidableEq, Repr

namespace Reservoir

/-- Whether a whole byte waits. -/
def hasByte (r : Reservoir) : Bool := 8 ≤ r.size

theorem hasByte_iff {r : Reservoir} : r.hasByte = true ↔ 8 ≤ r.size.toNat := by
  simp [hasByte, UInt8.le_iff_toNat_le]

/-- Adds the six bits of a symbol. -/
def push (r : Reservoir) (value : Nat) : Reservoir where
  bits := (r.bits <<< 6) ||| UInt32.ofNat value
  size := r.size + 6

/-- Drops the last bits, those beyond whole bytes. -/
def dropPartial (r : Reservoir) : Reservoir where
  bits := r.bits >>> (r.size % 8).toUInt32
  size := r.size - r.size % 8

/-- The first eight bits. -/
def firstByte (r : Reservoir) : UInt8 := (r.bits >>> (r.size - 8).toUInt32).toUInt8

/-- Removes the first eight bits. -/
def dropByte (r : Reservoir) : Reservoir where
  bits := r.bits &&& ((1 <<< (r.size - 8).toUInt32) - 1)
  size := r.size - 8

end Reservoir

/-! ## Draining -/

/-- Writes the bytes that wait, while there is room. -/
def Reservoir.drain (r : Reservoir) (written : Array UInt8) : (room : Bytes) → Reservoir × Sink
  | [] => (r, ⟨written, []⟩)
  | old :: room =>
    if r.hasByte then r.dropByte.drain (written.push r.firstByte) room
    else (r, ⟨written, old :: room⟩)

theorem length_buffer_drain (r : Reservoir) (written : Array UInt8) (room : Bytes) :
    (r.drain written room).2.buffer.length = written.size + room.length := by
  induction room generalizing r written with
  | nil => simp [Reservoir.drain, Sink.buffer]
  | cons old room ih =>
    unfold Reservoir.drain
    split
    · rw [ih, Array.size_push, List.length_cons]
      omega
    · simp [Sink.buffer]

end TextCodec.Base64
