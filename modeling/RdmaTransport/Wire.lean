import RdmaTransport.Buffer
import RdmaTransport.Internal.Codec

/-!
# What travels between the peers

The three serialised types and their bincode format: integers of fixed width, least significant
byte first; an `Option` as one tag byte; a `Vec` as a `u64` length and its elements. Top-level
`bincode::deserialize` allows bytes after the value, so `deserialize` drops what the codec hands
on. `serialized_size` is the length of the encoding.

An immediate crosses the wire in network byte order. The hosts are little-endian, so `htonl` and
`ntohl` both reverse the four bytes.

## Main results

* `Notification.deserialize_serialize`, `Connections.deserialize_serialize` — the round trips
* `Notification.serializedSize_some` — `13 + n` bytes for a request id of `n` bytes
* `Connections.serializedSize_eq` — `8 + 12 * n` bytes for `n` connections
* `ntohl_htonl`
-/

namespace RdmaTransport

open Interaction

/-! ### Fixed-width fields -/

/-- `u8`, one byte. -/
def u8Codec : Codec UInt8 where
  encode b := [b]
  decode
    | [] => .error .eof
    | b :: rest => .ok (b, rest)
  Fits _ := True
  decode_encode _ _ _ := rfl

/-- `u32`, four bytes, least significant first. -/
def u32Codec : Codec UInt32 :=
  (Codec.le 4).map UInt32.toNat UInt32.ofNat fun _ => UInt32.ofNat_toNat

/-- `u64`, eight bytes, least significant first. -/
def u64Codec : Codec UInt64 :=
  (Codec.le 8).map UInt64.toNat UInt64.ofNat fun _ => UInt64.ofNat_toNat

theorem fits_u32Codec (x : UInt32) : u32Codec.Fits x := by
  have := x.toNat_lt
  change x.toNat < 256 ^ 4
  omega

theorem fits_u64Codec (x : UInt64) : u64Codec.Fits x := by
  have := x.toNat_lt
  change x.toNat < 256 ^ 8
  omega

@[simp] theorem length_encode_u32 (x : UInt32) : (u32Codec.encode x).length = 4 :=
  Codec.length_encode_le 4 _

@[simp] theorem length_encode_u64 (x : UInt64) : (u64Codec.encode x).length = 8 :=
  Codec.length_encode_le 8 _

/-! ### Connections -/

/-- Where a peer's memory is, and the key that opens it. -/
structure Connection where
  /-- The first address. -/
  basePtr : UInt64
  /-- The remote key of the memory region registered there. -/
  mrRkey : UInt32
  deriving DecidableEq, Repr, Inhabited

/-- `std::mem::size_of::<Connection>()`: eight bytes, four bytes and four of padding. -/
def Connection.sizeOf : ℕ := 16

/-- `Connection::default()`. -/
def Connection.zero : Connection := ⟨0, 0⟩

/-- The format of a `Connection`. -/
def Connection.codec : Codec Connection :=
  (u64Codec.prod u32Codec).map (fun c => (c.basePtr, c.mrRkey)) (fun p => ⟨p.1, p.2⟩) fun _ => rfl

theorem Connection.fits (c : Connection) : Connection.codec.Fits c :=
  ⟨fits_u64Codec _, fits_u32Codec _⟩

theorem Connection.length_encode (c : Connection) : (Connection.codec.encode c).length = 12 := by
  change (u64Codec.encode c.basePtr ++ u32Codec.encode c.mrRkey).length = 12
  simp

/-- The buffers a server offers, in the order in which it registered them. -/
structure Connections where
  /-- One connection for each buffer. -/
  conns : List Connection
  deriving DecidableEq, Repr

namespace Connections

/-- `Connections::add`. -/
def add (cs : Connections) (c : Connection) : Connections := ⟨cs.conns ++ [c]⟩

/-- The format of `Connections`. -/
def codec : Codec Connections := (Codec.seq Connection.codec).map conns mk fun _ => rfl

/-- `bincode::serialize_into`, the bytes. -/
def serialize (cs : Connections) : List UInt8 := codec.encode cs

/-- `bincode::serialized_size`. -/
def serializedSize (cs : Connections) : ℕ := cs.serialize.length

/-- `bincode::deserialize::<Connections>`. -/
def deserialize (bs : List UInt8) : Except DecodeError Connections :=
  (codec.decode bs).map Prod.fst

theorem serializedSize_eq (cs : Connections) : cs.serializedSize = 8 + 12 * cs.conns.length :=
  Codec.length_encode_seq Connection.length_encode cs.conns

/-- A list whose encoding fits a page is read back from its encoding. -/
theorem deserialize_serialize {cs : Connections} (h : cs.serializedSize ≤ cpuBufferBaseSize) :
    deserialize cs.serialize = .ok cs := by
  rw [serializedSize_eq, cpuBufferBaseSize] at h
  have hfits : codec.Fits cs := ⟨by omega, fun c _ => c.fits⟩
  rw [deserialize, serialize, codec.decode_encode_nil hfits]
  rfl

end Connections

/-! ### Notifications -/

/-- What a client tells the server through its page. -/
structure Notification where
  /-- `1` closes the connection, `0` carries data. -/
  done : UInt32
  /-- The request that is complete. -/
  reqId : Option (List UInt8)
  deriving DecidableEq, Repr

namespace Notification

/-- `Notification::default()`. -/
def zero : Notification := ⟨0, none⟩

/-- `Notification::complete()`. -/
def complete : Notification := { zero with done := 1 }

/-- The format of a `Notification`. -/
def codec : Codec Notification :=
  (u32Codec.prod (Codec.seq u8Codec).option).map (fun n => (n.done, n.reqId))
    (fun p => ⟨p.1, p.2⟩) fun _ => rfl

/-- `bincode::serialize_into`, the bytes. -/
def serialize (n : Notification) : List UInt8 := codec.encode n

/-- `bincode::serialized_size`. -/
def serializedSize (n : Notification) : ℕ := n.serialize.length

/-- `bincode::deserialize::<Notification>`. -/
def deserialize (bs : List UInt8) : Except DecodeError Notification :=
  (codec.decode bs).map Prod.fst

theorem serializedSize_some (done : UInt32) (req : List UInt8) :
    (⟨done, some req⟩ : Notification).serializedSize = 13 + req.length := by
  change (u32Codec.encode done ++ 1 :: (Codec.seq u8Codec).encode req).length = _
  rw [List.length_append, List.length_cons, length_encode_u32,
    Codec.length_encode_seq (w := 1) fun _ => rfl]
  omega

theorem serializedSize_none (done : UInt32) :
    (⟨done, none⟩ : Notification).serializedSize = 5 := by
  change (u32Codec.encode done ++ [0]).length = _
  simp

/-- A request id is a `Vec`, so its length is below `2 ^ 64`. -/
theorem fits_of_length {n : Notification} (h : n.serializedSize ≤ 2 ^ 64) : codec.Fits n := by
  obtain ⟨done, reqId⟩ := n
  refine ⟨fits_u32Codec _, fun req hreq => ⟨?_, fun _ _ => trivial⟩⟩
  obtain rfl : reqId = some req := hreq
  rw [serializedSize_some] at h
  omega

/-- A notification whose encoding fits a page is read back from its encoding. -/
theorem deserialize_serialize {n : Notification} (h : n.serializedSize ≤ cpuBufferBaseSize) :
    deserialize n.serialize = .ok n := by
  have hfits : codec.Fits n := fits_of_length (h.trans (by decide))
  rw [deserialize, serialize, codec.decode_encode_nil hfits]
  rfl

end Notification

/-! ### Network byte order -/

/-- The four bytes of `x` in the opposite order. -/
def swapBytes (x : UInt32) : UInt32 :=
  UInt32.ofNat (Codec.leValue (Codec.leBytes 4 x.toNat).reverse)

/-- `htonl`. -/
def htonl (x : UInt32) : UInt32 := swapBytes x

/-- `ntohl`. -/
def ntohl (x : UInt32) : UInt32 := swapBytes x

@[simp] theorem ntohl_htonl (x : UInt32) : ntohl (htonl x) = x := by
  have hback : Codec.leValue (Codec.leBytes 4 x.toNat) = x.toNat :=
    Codec.leValue_leBytes (by have := x.toNat_lt; omega)
  generalize hbs : Codec.leBytes 4 x.toNat = bs at hback
  have hlen : bs.length = 4 := by rw [← hbs, Codec.length_leBytes]
  have hlt : Codec.leValue bs.reverse < 2 ^ 32 := by
    have := Codec.leValue_lt bs.reverse
    rw [List.length_reverse, hlen] at this
    omega
  have hswap : Codec.leBytes 4 (Codec.leValue bs.reverse) = bs.reverse := by
    have := Codec.leBytes_leValue bs.reverse
    rwa [List.length_reverse, hlen] at this
  rw [ntohl, htonl, swapBytes, swapBytes, hbs, UInt32.toNat_ofNat_of_lt' hlt, hswap,
    List.reverse_reverse, hback, UInt32.ofNat_toNat]

end RdmaTransport
