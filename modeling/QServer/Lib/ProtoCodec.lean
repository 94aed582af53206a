import Mathlib.Data.List.Basic

/-
This file names what a program can rely on when it serialises and parses a message.
-/

namespace Wire

/-- The bytes of a `std::string`. -/
abbrev Bytes := List UInt8

def ascii (text : String) : Bytes := text.toUTF8.data.toList

/-- `Parse` fills the message as far as it comes, and tells whether it came to the end. -/
structure ProtoCodec (Message Text : Type) where
  serialize : Message → Text
  parse : Text → Message × Bool

namespace ProtoCodec

variable {Message Text : Type} (codec : ProtoCodec Message Text)

/-- The reading of a caller that checks the result of `Parse`. -/
def read (text : Text) : Option Message :=
  if (codec.parse text).2 then some (codec.parse text).1 else none

/-- The message comes back whole. -/
def RoundTrips (message : Message) : Prop := codec.parse (codec.serialize message) = (message, true)

variable {codec}

theorem RoundTrips.read {message : Message} (roundTrips : codec.RoundTrips message) :
    codec.read (codec.serialize message) = some message := by
  rw [ProtoCodec.read, roundTrips]
  rfl

end ProtoCodec

end Wire
