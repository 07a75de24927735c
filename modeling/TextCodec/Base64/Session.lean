import TextCodec.Base64.Decoder
/-!
# Sessions

A session is a list of calls on one decoder, each with a buffer of its own.
-/

namespace TextCodec.Base64

/-- A call on a decoder. -/
inductive Call where
  | convert (buffer text : Bytes)
  | finish (buffer : Bytes)
  | reset
deriving DecidableEq, Repr

/-- The answer of a call. -/
inductive Answer where
  | converted (progress : Progress)
  | finished (written : Nat)
  | reset
deriving DecidableEq, Repr

namespace Decoder

def call (d : Decoder) : Call → Outcome Answer
  | .convert buffer text =>
    let o := d.convert buffer text
    { o with result := o.result.map .converted }
  | .finish buffer =>
    let o := d.finish buffer
    { o with result := o.result.map .finished }
  | .reset => { decoder := d.reset, buffer := [], result := .ok .reset }

/-- Makes calls in turn, and collects what each of them leaves behind. -/
def session (d : Decoder) : List Call → List (Outcome Answer)
  | [] => []
  | c :: calls => d.call c :: (d.call c).decoder.session calls

def after (d : Decoder) (calls : List Call) : Decoder :=
  calls.foldl (fun d c => (d.call c).decoder) d

end Decoder

end TextCodec.Base64
