import Sirikata.Network.Frame
import Sirikata.Network.Proofs.SendStatusProofs

/-!
# The frame `TCPStream::send` builds: layout and round trip

`frame_eq`: for every stream id and payload, the three `memcpy`s stay inside the allocated chunk and
leave it holding the serialized length, the serialized stream id and the payload, in that order;
every stream id below `2 ^ 63` passes the `assert` (`frame_inBounds`). With the spec's wire format a
reader recovers the stream id and the payload from it and stops at its end (`frame_readFrame`). Past
`2 ^ 30` nothing refuses the payload: the chunk is built, and sent, with a prefix that cannot hold its
length (`send_oversized`).
-/

namespace Sirikata.Network

/-! ## The varint codec -/

theorem serializeVarint_of_lt {n : Nat} (h : n < 128) : serializeVarint n = [UInt8.ofNat (2 * n)] := by
  rw [serializeVarint, if_pos h]

theorem serializeVarint_of_le {n : Nat} (h : 128 ≤ n) :
    serializeVarint n = UInt8.ofNat (2 * (n % 128) + 1) :: serializeVarint (n / 128) := by
  rw [serializeVarint, if_neg (by omega)]

/-- Reading back what `serializeVarint` wrote, with room for it, gives the number and the bytes
after it. -/
theorem unserializeVarint_serializeVarint (n : Nat) :
    ∀ cap rest, (serializeVarint n).length ≤ cap →
      unserializeVarint cap (serializeVarint n ++ rest) = some (n, rest) := by
  induction n using Nat.strong_induction_on with
  | _ n ih =>
    intro cap rest hcap
    by_cases hn : n < 128
    · rw [serializeVarint_of_lt hn] at hcap ⊢
      obtain ⟨cap, rfl⟩ : ∃ c, cap = c + 1 := ⟨cap - 1, by rw [List.length_singleton] at hcap; omega⟩
      have hb : (UInt8.ofNat (2 * n)).toNat = 2 * n := UInt8.toNat_ofNat_of_lt (by simp [UInt8.size]; omega)
      simp [unserializeVarint, hb]
    · rw [serializeVarint_of_le (by omega)] at hcap ⊢
      obtain ⟨cap, rfl⟩ : ∃ c, cap = c + 1 := ⟨cap - 1, by rw [List.length_cons] at hcap; omega⟩
      have hb : (UInt8.ofNat (2 * (n % 128) + 1)).toNat = 2 * (n % 128) + 1 :=
        UInt8.toNat_ofNat_of_lt (by simp [UInt8.size]; omega)
      simp only [List.length_cons, Nat.add_le_add_iff_right] at hcap
      rw [List.cons_append, unserializeVarint, hb, if_neg (by omega),
        ih (n / 128) (by omega) cap rest hcap, Option.map_some', Option.some.injEq, Prod.mk.injEq]
      exact ⟨by omega, rfl⟩

/-- A number below `2 ^ (7 * (k + 1))` takes at most `k + 1` bytes. -/
theorem serializeVarint_length_le (k : Nat) :
    ∀ n, n < 2 ^ (7 * (k + 1)) → (serializeVarint n).length ≤ k + 1 := by
  induction k with
  | zero => intro n hn; rw [serializeVarint_of_lt (by simpa using hn)]; simp
  | succ k ih =>
    intro n hn
    by_cases h : n < 128
    · rw [serializeVarint_of_lt h]; simp
    · rw [serializeVarint_of_le (by omega), List.length_cons]
      have : n / 128 < 2 ^ (7 * (k + 1)) := by
        rw [Nat.div_lt_iff_lt_mul (by decide)]
        rw [show 7 * (k + 1 + 1) = 7 * (k + 1) + 7 by ring, Nat.pow_add] at hn
        simpa using hn
      have := ih _ this
      omega

/-- A `uint30` takes at most `uint30::MAX_SERIALIZED_LENGTH` bytes. -/
theorem Uint30.serialize_length_le (n : Uint30) : n.serialize.length ≤ Uint30.MAX_SERIALIZED_LENGTH :=
  serializeVarint_length_le 4 n.val (lt_of_lt_of_le n.isLt (by norm_num))

/-! ## The chunk -/

/-- A `memcpy` into the zeroed tail of a buffer, that fits there. -/
theorem memcpy_replicate (pre src : List UInt8) {n : Nat} (h : src.length ≤ n) :
    memcpy (pre ++ List.replicate n 0) pre.length src =
      some (pre ++ src ++ List.replicate (n - src.length) 0) := by
  rw [memcpy, if_pos (by simp; omega)]
  simp [List.drop_append_eq_append_drop, List.drop_replicate]

/-- The three `memcpy`s of `send` stay inside the chunk and leave it holding the serialized length,
the serialized stream id and the payload. -/
theorem frame_eq (ctor : Uint30Ctor) (sid : StreamID) (data : List UInt8) :
    frame ctor sid data =
      if sid.serialize.length ≤ StreamID.MAX_SERIALIZED_LENGTH then
        some ((ctor.ofSize (data.length + sid.serialize.length)).serialize ++ sid.serialize ++ data)
      else none := by
  unfold frame
  dsimp only
  by_cases hS : sid.serialize.length ≤ StreamID.MAX_SERIALIZED_LENGTH
  · rw [if_pos hS, if_pos hS]
    set hdr := (ctor.ofSize (data.length + sid.serialize.length)).serialize
    have h₁ := memcpy_replicate [] hdr (n := data.length + sid.serialize.length + hdr.length) (by omega)
    have h₂ := memcpy_replicate hdr sid.serialize (n := data.length + sid.serialize.length)
      (by omega)
    have h₃ := memcpy_replicate (hdr ++ sid.serialize) data (n := data.length) le_rfl
    simp only [List.nil_append, List.length_nil, Nat.add_sub_cancel] at h₁
    simp only [Nat.add_sub_cancel, List.length_append, Nat.sub_self, List.replicate_zero,
      List.append_nil] at h₂ h₃
    rw [h₁, Option.some_bind, h₂, Option.some_bind]
    by_cases hd : data.length = 0
    · simp [List.length_eq_zero.mp hd]
    · rw [if_pos hd, h₃]
  · rw [if_neg hS, if_neg hS]

/-- A reader given a frame in the spec's format, and whatever follows it, gets the stream id and the
payload back and stops at the end of the frame. -/
theorem readFrame_frame (sid : StreamID) (data rest : List UInt8) (n : Uint30)
    (hn : n.val = data.length + sid.serialize.length)
    (hS : sid.serialize.length ≤ StreamID.MAX_SERIALIZED_LENGTH) :
    readFrame (n.serialize ++ sid.serialize ++ data ++ rest) = some ((sid, data), rest) := by
  have hlen : (sid.serialize ++ data).length = n.val := by simp [hn, Nat.add_comm]
  unfold readFrame
  rw [List.append_assoc, List.append_assoc, Uint30.serialize,
    unserializeVarint_serializeVarint _ _ _ (Uint30.serialize_length_le n), Option.some_bind]
  dsimp only
  rw [if_pos (by simp; omega), ← List.append_assoc, List.take_left' hlen, List.drop_left' hlen,
    StreamID.serialize, unserializeVarint_serializeVarint _ _ _ hS]
  rfl

/-- For a stream id that serializes within `StreamID::MAX_SERIALIZED_LENGTH` bytes and a payload
with `|data| + S < 2 ^ 30`, `send` builds the chunk `hdr ++ sidBytes ++ data` of
`H + S + |data|` bytes, `hdr` serializing the `uint30` `|data| + S`; a reader recovers the stream id
and the payload from it and stops at its end. -/
theorem frame_readFrame (ctor : Uint30Ctor) (sid : StreamID) (data : List UInt8)
    (hS : sid.serialize.length ≤ StreamID.MAX_SERIALIZED_LENGTH)
    (hT : data.length + sid.serialize.length < 2 ^ 30) :
    frame ctor sid data = some (Uint30.serialize ⟨_, hT⟩ ++ sid.serialize ++ data) ∧
      (Uint30.serialize ⟨_, hT⟩ ++ sid.serialize ++ data).length =
        (Uint30.serialize ⟨_, hT⟩).length + sid.serialize.length + data.length ∧
      ∀ rest, readFrame (Uint30.serialize ⟨_, hT⟩ ++ sid.serialize ++ data ++ rest) =
        some ((sid, data), rest) := by
  refine ⟨?_, by simp [Nat.add_assoc], fun rest => readFrame_frame sid data rest _ rfl hS⟩
  rw [frame_eq, if_pos hS, ctor.ofSize_of_lt _ hT]

/-- `uint30(size_t)` taken modulo `2 ^ 30`. -/
def Uint30Ctor.wrap : Uint30Ctor where
  ofSize n := ⟨n % 2 ^ 30, Nat.mod_lt _ (by norm_num)⟩
  ofSize_of_lt n h := Fin.ext (Nat.mod_eq_of_lt h)

/-- `"hello"` on stream `1`. -/
theorem frame_readFrame_hello :
    (StreamID.serialize ⟨1⟩).length ≤ StreamID.MAX_SERIALIZED_LENGTH ∧
      [104, 101, 108, 108, 111].length + (StreamID.serialize ⟨1⟩).length < 2 ^ 30 ∧
      frame Uint30Ctor.wrap ⟨1⟩ [104, 101, 108, 108, 111] = some [12, 2, 104, 101, 108, 108, 111] ∧
      readFrame [12, 2, 104, 101, 108, 108, 111] = some ((⟨1⟩, [104, 101, 108, 108, 111]), []) := by
  have hS : (StreamID.serialize ⟨1⟩).length ≤ StreamID.MAX_SERIALIZED_LENGTH := by
    simp [StreamID.serialize, serializeVarint_of_lt, StreamID.MAX_SERIALIZED_LENGTH]
  have hT : [104, 101, 108, 108, 111].length + (StreamID.serialize ⟨1⟩).length < 2 ^ 30 := by
    simp [StreamID.serialize, serializeVarint_of_lt]
  obtain ⟨h₁, -, h₂⟩ := frame_readFrame Uint30Ctor.wrap ⟨1⟩ [104, 101, 108, 108, 111] hS hT
  have e : Uint30.serialize ⟨_, hT⟩ ++ StreamID.serialize ⟨1⟩ ++ [104, 101, 108, 108, 111] =
      [12, 2, 104, 101, 108, 108, 111] := by
    simp [Uint30.serialize, StreamID.serialize, serializeVarint_of_lt]
  have h₃ := h₂ []
  rw [List.append_nil] at h₃
  exact ⟨hS, hT, e ▸ h₁, e ▸ h₃⟩

/-! ## Every payload fits its chunk -/

/-- A stream id below `2 ^ 63` passes the `assert` on its serialized length. -/
theorem StreamID.serialize_length_le {sid : StreamID} (hsid : sid.val < 2 ^ 63) :
    sid.serialize.length ≤ StreamID.MAX_SERIALIZED_LENGTH :=
  serializeVarint_length_le 8 sid.val (by simpa using hsid)

/-- For every stream id below `2 ^ 63`, every payload of any size and every `uint30(size_t)`, the
`assert` on the stream id's length holds, and the three `memcpy`s of `send` write inside the chunk
it allocates and fill it: the serialized `uint30(totalSize)`, the stream id, then the payload. -/
theorem frame_inBounds (ctor : Uint30Ctor) (sid : StreamID) (data : List UInt8)
    (hsid : sid.val < 2 ^ 63) :
    sid.serialize.length ≤ StreamID.MAX_SERIALIZED_LENGTH ∧
      frame ctor sid data =
        some ((ctor.ofSize (data.length + sid.serialize.length)).serialize ++ sid.serialize ++ data) := by
  have hS := StreamID.serialize_length_le hsid
  exact ⟨hS, by rw [frame_eq, if_pos hS]⟩

/-- Two bytes on stream `200`, whose id takes two bytes: each of the three copies writes. -/
theorem frame_inBounds_hi :
    (StreamID.mk 200).val < 2 ^ 63 ∧
      (StreamID.serialize ⟨200⟩).length ≤ StreamID.MAX_SERIALIZED_LENGTH ∧
      frame Uint30Ctor.wrap ⟨200⟩ [104, 105] =
        some ((Uint30Ctor.wrap.ofSize ([104, 105].length + (StreamID.serialize ⟨200⟩).length)).serialize ++
          StreamID.serialize ⟨200⟩ ++ [104, 105]) ∧
      frame Uint30Ctor.wrap ⟨200⟩ [104, 105] = some [8, 145, 2, 104, 105] := by
  obtain ⟨hS, h⟩ := frame_inBounds Uint30Ctor.wrap ⟨200⟩ [104, 105] (by norm_num)
  refine ⟨by norm_num, hS, h, h.trans (congrArg some ?_)⟩
  simp [Uint30.serialize, StreamID.serialize, serializeVarint_of_lt, serializeVarint_of_le,
    Uint30Ctor.wrap, Fin.coe_ofNat_eq_mod]

/-- The request `send` builds never asks for unreliable ordered delivery, names the stream and
carries the chunk. -/
theorem rawRequest_eq_some {ctor : Uint30Ctor} {id : StreamID} {data : List UInt8}
    {reliability : StreamReliability} {req : RawRequest}
    (h : rawRequest ctor id data reliability = some req) :
    (req.unreliable → req.unordered) ∧ req.originStream = id ∧ frame ctor id data = some req.data := by
  obtain ⟨chunk, hc, rfl⟩ := Option.map_eq_some'.mp h
  cases reliability <;> simp [hc]

/-! ## Oversized payloads -/

/-- `send` alone on a stream hands over the chunk it built exactly when the value it reads back
after its increment has no closing bit set. -/
theorem send_eq (K : Nat) (ctor : Uint30Ctor) (w : Int) (sid : StreamID) (data : List UInt8) :
    send K ctor w sid data =
      (frame ctor sid data).bind fun chunk =>
        if SendStatus.closingBits K (w + 1) = 0 then some chunk else none := by
  unfold send
  congr 1
  funext chunk
  by_cases h : SendStatus.closingBits K (w + 1) = 0 <;> simp [SendStatus.sendStep, h]

/-- With `SendStatusClosing = 2 ^ (k + 1)`, on a fresh stream, for every `uint30(size_t)`, `send`
hands `sendBytes` a chunk for a payload of `2 ^ 30 - 1` bytes on stream `1`, whose `totalSize` is
`2 ^ 30`: nothing refuses it, and the chunk is the bytes of `uint30(2 ^ 30)`, the stream id and the
payload. The defect is this first conjunct. The second only records what the type `Uint30` gives, a
value below `2 ^ 30`, so that the prefix cannot be the `2 ^ 30` bytes that follow it. -/
theorem send_oversized (ctor : Uint30Ctor) (k : Nat) :
    send (2 ^ (k + 1)) ctor 0 ⟨1⟩ (List.replicate (2 ^ 30 - 1) 0) =
      some ((ctor.ofSize (2 ^ 30)).serialize ++ [2] ++ List.replicate (2 ^ 30 - 1) 0) ∧
    (ctor.ofSize (2 ^ 30)).val ≠ 2 ^ 30 := by
  have hsid : StreamID.serialize ⟨1⟩ = [2] := by simp [StreamID.serialize, serializeVarint_of_lt]
  have hbits : SendStatus.closingBits (2 ^ (k + 1)) (0 + 1) = 0 := by
    have := SendStatus.closingBits_eq (K := 2 ^ (k + 1)) (c := 0) (a := 1) rfl (by omega)
      (Nat.one_lt_two_pow (by omega))
    simpa using this
  have hlen : (List.replicate (2 ^ 30 - 1) (0 : UInt8)).length + [(2 : UInt8)].length = 2 ^ 30 := by
    rw [List.length_replicate, List.length_singleton, Nat.sub_add_cancel Nat.one_le_two_pow]
  refine ⟨?_, (ctor.ofSize (2 ^ 30)).isLt.ne⟩
  rw [send_eq, frame_eq, hsid, if_pos (by decide), Option.some_bind, if_pos hbits, hlen]

end Sirikata.Network
