import Sirikata.Network.SendStatus

/-!
# The frame `TCPStream::send` builds

`TCPStream::send` (TCPStream.cpp, lines 67-89) serializes the stream id, adds its length to the
payload's into `totalSize`, narrows that to a `uint30`, serializes it, allocates one `Chunk` of
`totalSize + packetHeaderLength` bytes, and copies the length, the stream id and the payload into it
with three `memcpy`s.

`StreamID::serialize`, `uint30::serialize`, their `MAX_SERIALIZED_LENGTH`s and the receiving side
are outside `src/`; they are modelled from the spec's wire format (a byte holds seven bits of
magnitude above a continuation bit, lowest group first). The constructor `uint30(size_t)` is outside
`src/` too and the spec does not describe it: it is a parameter, `Uint30Ctor`, that keeps every size
below `2 ^ 30`.
-/

namespace Sirikata.Network

/-! ## The wire format -/

/-- Modelled from the spec: the variable-length encoding of `StreamID::serialize` and
`uint30::serialize` (§3, "StreamID"), `n` in groups of seven bits, lowest first, each group shifted
up by one with the low bit set on every byte but the last. -/
def serializeVarint (n : Nat) : List UInt8 :=
  if n < 128 then [UInt8.ofNat (2 * n)]
  else UInt8.ofNat (2 * (n % 128) + 1) :: serializeVarint (n / 128)
termination_by n
decreasing_by omega

/-- Modelled from the spec: the receiver's varint decoding (§4.1, "Decode from a byte stream"), the
number at the front of `bytes`, read in at most `cap` bytes, and the bytes after it; `none` when the
bytes end first or `cap` bytes all carry the continuation bit. -/
def unserializeVarint : Nat → List UInt8 → Option (Nat × List UInt8)
  | 0, _ => none
  | _ + 1, [] => none
  | cap + 1, b :: rest =>
    if b.toNat % 2 = 0 then some (b.toNat / 2, rest)
    else (unserializeVarint cap rest).map fun r => (b.toNat / 2 + 128 * r.1, r.2)

/-- A logical stream's id. -/
structure StreamID where
  /-- The id's value. -/
  val : Nat
  deriving DecidableEq, Repr

namespace StreamID

/-- Modelled from the spec: `StreamID::MAX_SERIALIZED_LENGTH` (§3). -/
def MAX_SERIALIZED_LENGTH : Nat := 9

/-- Modelled from the spec: the bytes `StreamID::serialize` writes (§3), given room for them; their
number is what it returns. -/
def serialize (sid : StreamID) : List UInt8 := serializeVarint sid.val

end StreamID

/-- `uint30`: a packet length below `2 ^ 30`. -/
abbrev Uint30 := Fin (2 ^ 30)

namespace Uint30

/-- Modelled from the spec: `uint30::MAX_SERIALIZED_LENGTH` (§3, "PacketLength"). -/
def MAX_SERIALIZED_LENGTH : Nat := 5

/-- Modelled from the spec: the bytes `uint30::serialize` writes (§3). -/
def serialize (n : Uint30) : List UInt8 := serializeVarint n.val

end Uint30

/-- The constructor `uint30(size_t)`: whatever it makes of a size from `2 ^ 30` on, it keeps a size
below `2 ^ 30`. -/
structure Uint30Ctor where
  /-- `uint30(totalSize)`. -/
  ofSize : Nat → Uint30
  /-- A size below `2 ^ 30` is kept. -/
  ofSize_of_lt : ∀ n (h : n < 2 ^ 30), ofSize n = ⟨n, h⟩

/-! ## Building the chunk -/

/-- `std::memcpy(dst+off,src,src.size())`: `none` when it would write past the end of `dst`. -/
def memcpy (dst : List UInt8) (off : Nat) (src : List UInt8) : Option (List UInt8) :=
  if off + src.length ≤ dst.length then some (dst.take off ++ src ++ dst.drop (off + src.length))
  else none

/-- The chunk `TCPStream::send` builds for `data` on stream `sid` (lines 67-89), or `none` when the
`assert` on the stream id's length fails. -/
def frame (ctor : Uint30Ctor) (sid : StreamID) (data : List UInt8) : Option (List UInt8) :=
  let serializedStreamId := sid.serialize
  if serializedStreamId.length ≤ StreamID.MAX_SERIALIZED_LENGTH then
    let streamIdLength := serializedStreamId.length
    let totalSize := data.length + streamIdLength
    let packetLengthSerialized := (ctor.ofSize totalSize).serialize
    let packetHeaderLength := packetLengthSerialized.length
    let outputBuffer := List.replicate (totalSize + packetHeaderLength) 0
    (memcpy outputBuffer 0 packetLengthSerialized).bind fun outputBuffer =>
      (memcpy outputBuffer packetHeaderLength serializedStreamId).bind fun outputBuffer =>
        if data.length ≠ 0 then memcpy outputBuffer (packetHeaderLength + streamIdLength) data
        else some outputBuffer
  else none

/-- `StreamReliability`, the three values `send` switches on. -/
inductive StreamReliability where
  | Unreliable
  | ReliableOrdered
  | ReliableUnordered
  deriving DecidableEq, Repr

/-- The fields of `MultiplexedSocket::RawRequest` that `send` fills. -/
structure RawRequest where
  /-- `unordered`. -/
  unordered : Bool
  /-- `unreliable`. -/
  unreliable : Bool
  /-- `originStream`. -/
  originStream : StreamID
  /-- `*data`: the chunk. -/
  data : List UInt8
  deriving DecidableEq, Repr

/-- The request `TCPStream::send` builds for `data` on the stream `id` (lines 51-89), before it
touches the send-status word; the switch allows three of the four settings of the two flags. -/
def rawRequest (ctor : Uint30Ctor) (id : StreamID) (data : List UInt8)
    (reliability : StreamReliability) : Option RawRequest :=
  let flags : Bool × Bool := match reliability with
    | .Unreliable => (true, true)
    | .ReliableOrdered => (false, false)
    | .ReliableUnordered => (true, false)
  (frame ctor id data).map fun chunk => ⟨flags.1, flags.2, id, chunk⟩

/-- Modelled from the spec: the receiving side's frame decoding (§4.1, "Decode from a byte
stream"), which reads the length prefix, takes that many bytes, and splits them into the stream id
and the payload; the bytes after the frame are returned as well. -/
def readFrame (bytes : List UInt8) : Option ((StreamID × List UInt8) × List UInt8) :=
  (unserializeVarint Uint30.MAX_SERIALIZED_LENGTH bytes).bind fun (total, rest) =>
    if total ≤ rest.length then
      (unserializeVarint StreamID.MAX_SERIALIZED_LENGTH (rest.take total)).map
        fun (sid, payload) => ((⟨sid⟩, payload), rest.drop total)
    else none

/-- `TCPStream::send` with no other call on the stream, whose send-status word is `w`: the chunk it
hands to `MultiplexedSocket::sendBytes`, if any. It builds the chunk, increments the word and tests
the value read back (`SendStatus.sendStep`). -/
def send (K : Nat) (ctor : Uint30Ctor) (w : Int) (sid : StreamID) (data : List UInt8) :
    Option (List UInt8) :=
  (frame ctor sid data).bind fun chunk =>
    match (SendStatus.sendStep K w .increment .idle).bind
        fun r => SendStatus.sendStep K r.1 .test r.2 with
    | some (_, .sending) => some chunk
    | _ => none

end Sirikata.Network
