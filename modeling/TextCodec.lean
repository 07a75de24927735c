import TextCodec.Base64.Length
import TextCodec.Base64.Session
import TextCodec.Base64.Stream
import TextCodec.Calendar.Steps
import TextCodec.Interchange.Values
import TextCodec.Proofs.Base64.Reservoir
import TextCodec.Proofs.Base64.Content
import TextCodec.Proofs.Base64.Tracking
import TextCodec.Proofs.Base64.Schedule
import TextCodec.Proofs.Base64.Language
import TextCodec.Proofs.Calendar.DayCount
import TextCodec.Proofs.Calendar.Instant
import TextCodec.Proofs.Iso8601.Fields
import TextCodec.Proofs.Iso8601.Texts
import TextCodec.Proofs.Iso8601.InstantTexts
import TextCodec.Proofs.Iso8601.RoundTrip
import TextCodec.Proofs.Base64.RoundTrip
import TextCodec.Proofs.Base64.Sessions
import TextCodec.Proofs.Base64.Retrying
import TextCodec.Proofs.Calendar.Succession
import TextCodec.Proofs.Calendar.Words
import TextCodec.Proofs.Calendar.Arithmetic
import TextCodec.Proofs.Iso8601.ClockTexts
import TextCodec.Proofs.Iso8601.Agreement
import TextCodec.Proofs.Base64.Overflow
import TextCodec.Proofs.Calendar.Narrowing
import TextCodec.Proofs.Iso8601.Narrowing
import TextCodec.Proofs.Interchange.Calculations
import TextCodec.Proofs.Base64.Refusals
import TextCodec.Proofs.Iso8601.Families
import TextCodec.Proofs.Base64.Canonical
import TextCodec.Proofs.Base64.Failures
import TextCodec.Proofs.Base64.Lockstep
import TextCodec.Proofs.Base64.Strictness
import TextCodec.Proofs.Base64.Symmetry
import TextCodec.Proofs.Calendar.DayCarry
import TextCodec.Proofs.Calendar.Offsets
import TextCodec.Proofs.Calendar.DayShifts
import TextCodec.Proofs.Iso8601.Writer
import TextCodec.Proofs.Interchange.Writing
import TextCodec.Proofs.Iso8601.Parts
import TextCodec.Proofs.Calendar.Chronology
import TextCodec.Proofs.Iso8601.DateTexts
import TextCodec.Proofs.Iso8601.Refusals
import TextCodec.Proofs.Iso8601.Sorting
import TextCodec.Proofs.Base64.Progress
import TextCodec.Proofs.Base64.Output
import TextCodec.Proofs.Base64.Queries
import TextCodec.Proofs.Base64.LengthBounds
import TextCodec.Proofs.Calendar.SpanSteps
import TextCodec.Proofs.Iso8601.Numbers
import TextCodec.Proofs.Iso8601.Fractions
