import TextCodec.Base64.Alphabet
import TextCodec.Base64.Error
import TextCodec.Base64.Reservoir
/-!
# Incremental decoding

A decoder takes encoded text in pieces of any size and writes decoded bytes to buffers of any size.
`Decoder.convert` feeds it a piece; it stops early where a byte does not fit, and says how much of
the piece it took. `Decoder.finish` ends the text and checks its last group. A call that fails makes
the decoder refuse all later ones, except where only room was missing. `Decoder.reset` starts again.
-/

namespace TextCodec.Base64

/-- How encoded text is read. -/
structure Options where
  alphabet : Alphabet := .basic
  /-- Whether `=` completes the last group. If not, `=` is refused and the last group may be
  short. -/
  isPadded : Bool := true
  /-- Whether bytes are refused that are neither symbols nor blanks. If not, they are skipped and
  the last group may be short. -/
  isStrict : Bool := true
deriving DecidableEq, Repr

namespace Options

instance : Inhabited Options := ⟨{}⟩

def skips (o : Options) (b : UInt8) : Bool :=
  if o.isStrict then isBlank b else o.alphabet.isForeign b

/-- Whether a last group of two or three symbols has to be padded. -/
def requiresPadding (o : Options) : Bool := o.isPadded && o.isStrict

end Options

/-- How far a text has come. -/
inductive Stage where
  | failed
  | initial
  /-- The last group has so many symbols. It is complete with 4, which count as 0. -/
  | symbols (count : Nat)
  /-- The last group has two symbols and one `=`, and needs another. -/
  | halfPadded
  /-- The last group has been padded. -/
  | padded
  | finished
deriving DecidableEq, Repr

namespace Stage

/-- The number of symbols of the last group, if more may follow. -/
def count? : Stage → Option Nat
  | initial => some 0
  | symbols n => some n
  | _ => none

def text : Stage → String
  | failed => "Error"
  | initial => "Initial"
  | symbols n => Report.group "Input" (toString n)
  | halfPadded => "NeedEqual"
  | padded => "SoftDone"
  | finished => "Done"

end Stage

/-- A decoder between two calls. -/
structure Decoder where
  options : Options := {}
  stage : Stage := .initial
  /-- The bits that have not been written yet. -/
  reservoir : Reservoir := {}
  outputLength : Nat := 0
deriving DecidableEq, Repr

namespace Decoder

instance : Inhabited Decoder := ⟨{}⟩

/-- A decoder for a new text. -/
def new (options : Options) : Decoder := { options }

/-- The decoder for a new text, read in the same way. -/
def reset (d : Decoder) : Decoder := new d.options

/-! ## Queries -/

/-- Whether the text so far is a complete encoding. -/
def isAccepting (d : Decoder) : Bool :=
  match d.stage with
  | .finished | .initial | .symbols 0 | .padded => true
  | .symbols 2 | .symbols 3 => !d.options.requiresPadding
  | .failed | .symbols _ | .halfPadded => false

def isFinished (d : Decoder) : Bool := d.stage = .finished

def isFailed (d : Decoder) : Bool := d.stage = .failed

def isInitial (d : Decoder) : Bool := d.stage = .initial

/-- Whether the text is complete and no symbol may follow. -/
def isMaximal (d : Decoder) : Bool := d.stage = .finished || d.stage = .padded

/-- Why the decoder takes no more calls, if it does not. -/
def refusal? (d : Decoder) : Option Error :=
  match d.stage with
  | .finished => some .alreadyFinished
  | .failed => some .sticky
  | _ => none

/-- Why the text cannot end here, if it cannot. -/
def ending? (d : Decoder) : Option Error :=
  match d.stage with
  | .halfPadded => some .missingPadding
  | .symbols 1 => some .incompleteQuantum
  | .symbols 2 | .symbols 3 => if d.options.requiresPadding then some .missingPadding else none
  | _ => none

/-! ## Steps -/

/-- Drops the bits of a short last group that do not make a byte. -/
def settle (d : Decoder) : Decoder :=
  match d.stage with
  | .symbols 2 | .symbols 3 => { d with reservoir := d.reservoir.dropPartial }
  | _ => d

/-- The decoder after a symbol. -/
def takeSymbol (d : Decoder) (value : Nat) : Except Error Decoder :=
  match d.stage.count? with
  | some n =>
    .ok { d with stage := .symbols ((n + 1) % 4), reservoir := d.reservoir.push value }
  | none => .error .dataAfterPadding

/-- The decoder after a `=`. -/
def takePad (d : Decoder) : Except Error Decoder :=
  match d.stage with
  | .symbols 2 => .ok { d with stage := .halfPadded, reservoir := d.reservoir.dropPartial }
  | .symbols 3 => .ok { d with stage := .padded, reservoir := d.reservoir.dropPartial }
  | .halfPadded => .ok { d with stage := .padded }
  | _ => .error .misplacedPadding

/-- The decoder after one byte of text. -/
def take (d : Decoder) (b : UInt8) : Except Error Decoder :=
  match d.options.alphabet.value? b with
  | some value => d.takeSymbol value
  | none =>
    if b = pad ∧ d.options.isPadded then d.takePad
    else if d.options.skips b then .ok d
    else if b = pad then .error .misplacedPadding
    else .error (.unrecognizedCharacter b)

end Decoder

/-! ## Calls -/

/-- What a call leaves behind. -/
structure Outcome (α : Type) where
  decoder : Decoder
  /-- The buffer after the call, which a failing call may have written to. -/
  buffer : Bytes
  result : Except Error α

/-- How far a call has come. -/
structure Progress where
  consumed : Nat
  written : Nat
deriving DecidableEq, Repr

/-- A decoder in the middle of a call, and the buffer it writes to. -/
structure Transfer where
  decoder : Decoder
  sink : Sink

namespace Transfer

/-- Writes the bytes that wait, while there is room. -/
def flush (t : Transfer) : Transfer :=
  let (reservoir, sink) := t.decoder.reservoir.drain t.sink.written t.sink.room
  { decoder := { t.decoder with reservoir }, sink }

/-- Whether a byte waits for room. -/
def isBlocked (t : Transfer) : Bool := t.decoder.reservoir.hasByte

variable {α : Type}

/-- Ends the call at a stage. -/
def close (t : Transfer) (stage : Stage) (result : Except Error α) : Outcome α where
  decoder := { t.decoder with stage, outputLength := t.sink.count }
  buffer := t.sink.buffer
  result := result

/-- Ends the call and leaves the decoder ready for the next one. -/
def stop (t : Transfer) (result : Except Error α) : Outcome α := t.close t.decoder.stage result

/-- Ends the call with an error after which the decoder takes no more calls. -/
def fail (t : Transfer) (e : Error) : Outcome α := t.close .failed (.error e)

end Transfer

namespace Decoder

/-- Takes bytes of text one by one. Bytes are written as soon as they are complete, so at most one
waits, and then the next byte of text is left where it is. -/
def feed (t : Transfer) (consumed : Nat) : (text : Bytes) → Outcome Progress
  | [] => t.flush.stop (.ok ⟨consumed, t.flush.sink.count⟩)
  | b :: text =>
    let t := t.flush
    if t.isBlocked then t.stop (.ok ⟨consumed, t.sink.count⟩)
    else
      match t.decoder.take b with
      | .error e => t.fail e
      | .ok decoder => feed { t with decoder } (consumed + 1) text

/-- Decodes a piece of text into a buffer. -/
def convert (d : Decoder) (buffer text : Bytes) : Outcome Progress :=
  let t : Transfer := ⟨d, .ofBuffer buffer⟩
  match d.refusal? with
  | some e => t.fail e
  | none => feed t 0 text

/-- Ends the text, and writes what still waits. If the buffer has no room for it, the call can be
made again. -/
def finish (d : Decoder) (buffer : Bytes) : Outcome Nat :=
  let t : Transfer := ⟨d, .ofBuffer buffer⟩
  match d.refusal?, d.ending? with
  | some e, _ => t.fail e
  | none, some e => t.fail e
  | none, none =>
    let t := { t with decoder := d.settle }.flush
    if t.isBlocked then t.stop (.error .insufficientOutput)
    else t.close .finished (.ok t.sink.count)

end Decoder

end TextCodec.Base64
