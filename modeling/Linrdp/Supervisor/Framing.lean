import Linrdp.Lib.Panics
import Linrdp.Rdpeudp.Handshake
import Linrdp.Supervisor.Run

/-!
# The messages between the supervisor and its workers

A worker sends its registration and the supervisor one message for each datagram: the tag `D`, the
client's address, and the datagram. `split_at` and indexing can panic, so a decoder stops in two
ways, `Stop.none` for the `None` it returns and `Stop.panic`. What comes back of a datagram is the
address without the flow label and the scope of an IPv6 client (`decode_encode`);
`framesFaithfully_iff` says when it is the same.
-/

namespace Linrdp.Supervisor.UdpStore

def SocketAddr.port : SocketAddr → BitVec 16
  | .v4 _ port => port
  | .v6 _ port _ _ => port

def SocketAddr.new : IpAddr → BitVec 16 → SocketAddr
  | .v4 bits, port => .v4 bits port
  | .v6 bits, port => .v6 bits port 0 0

end Linrdp.Supervisor.UdpStore

namespace Linrdp.Supervisor.Framing

open List Lib.Bytes Lib.Panics Rdpeudp.Handshake Supervisor.UdpStore

/-! ### Slices -/

def splitAt (src : List UInt8) (mid : ℕ) : Decoded (List UInt8 × List UInt8) :=
  if mid ≤ src.length then .ok (src.take mid, src.drop mid) else .error .panic

def tryInto (n : ℕ) (src : List UInt8) : Decoded {bytes : List UInt8 // bytes.length = n} :=
  if h : src.length = n then .ok ⟨src, h⟩ else .error .none

/-! ### Addresses -/

variable (bits : BitVec 128)

def octets : List UInt8 := toBe 16 bits.toNat

def ofOctets (bytes : List UInt8) : BitVec 128 := BitVec.ofNat 128 (uintBe 16 bytes)

def toIpv6Mapped (bits : BitVec 32) : BitVec 128 := (0xffff#96) ++ bits

def toIpv4Mapped : Option (BitVec 32) :=
  if bits.extractLsb' 32 96 = 0xffff#96 then some (bits.extractLsb' 0 32) else none

/-! ### The messages -/

def addrLen : ℕ := 1 + 16 + 2

def encodeRegister (hash : CookieHash) : List UInt8 := 0x52 :: hash.val

variable (message : List UInt8)

def decodeRegister : Decoded CookieHash :=
  match message with
  | tag :: hash => if tag = 0x52 then tryInto 32 hash else .error .none
  | [] => .error .none

def encodeIp : IpAddr → List UInt8
  | .v4 bits => 4 :: octets (toIpv6Mapped bits)
  | .v6 bits => 6 :: octets bits

variable (peer : SocketAddr) (payload : List UInt8)

def encodeDatagram : List UInt8 := 0x44 :: (encodeIp peer.ip ++ toBe 2 peer.port.toNat ++ payload)

def decodeIp (family : UInt8) (v6 : BitVec 128) : Decoded IpAddr :=
  if family = 4 then
    match toIpv4Mapped v6 with
    | some bits => .ok (.v4 bits)
    | none => .error .none
  else if family = 6 then .ok (.v6 v6)
  else .error .none

def decodeDatagram : Decoded (SocketAddr × List UInt8) :=
  match message with
  | [] => .error .none
  | tag :: rest =>
    if tag ≠ 0x44 then .error .none
    else if rest.length < addrLen then .error .none
    else do
      let (addr, payload) ← splitAt rest addrLen
      let bytes ← tryInto 16 (← slice addr 1 17)
      let ip ← decodeIp (← index addr 0) (ofOctets bytes.val)
      let port := BitVec.ofNat 16 (uintBe 2 [← index addr 17, ← index addr 18])
      return (.new ip port, payload)

/-! ### Addresses come back -/

theorem uintBe_toBe {w n : ℕ} (h : n < 256 ^ w) (rest : List UInt8) :
    uintBe w (toBe w n ++ rest) = n := by
  rw [uintBe, take_left' (length_toBe w n), toBe, reverse_reverse, ofLe_toLe h]

@[simp] theorem length_octets : (octets bits).length = 16 := length_toBe ..

theorem ofOctets_octets : ofOctets (octets bits) = bits := by
  have hread : uintBe 16 (octets bits) = bits.toNat := by
    have := uintBe_toBe (w := 16) bits.isLt []
    rwa [append_nil] at this
  rw [ofOctets, hread, BitVec.ofNat_toNat, BitVec.setWidth_eq]

theorem toIpv4Mapped_toIpv6Mapped (bits : BitVec 32) :
    toIpv4Mapped (toIpv6Mapped bits) = some bits := by
  rw [toIpv4Mapped, toIpv6Mapped, if_pos BitVec.extractLsb'_append_eq_left,
    BitVec.extractLsb'_append_eq_right]

theorem encodeIp_eq (ip : IpAddr) :
    ∃ family v6, encodeIp ip = family :: octets v6 ∧ decodeIp family v6 = .ok ip := by
  cases ip with
  | v4 bits => exact ⟨4, toIpv6Mapped bits, rfl, by simp [decodeIp, toIpv4Mapped_toIpv6Mapped]⟩
  | v6 bits => exact ⟨6, bits, rfl, by simp [decodeIp]⟩

theorem ends_decodeIp (family : UInt8) (v6 : BitVec 128) :
    Ends (decodeIp family v6) fun _ => True := by
  unfold decodeIp
  split_ifs
  · cases toIpv4Mapped v6
    · rfl
    · trivial
  · trivial
  · rfl

/-! ### The decoder -/

theorem decodeDatagram_eq {family p q : UInt8} {bytes payload : List UInt8}
    (hbytes : bytes.length = 16) :
    decodeDatagram (0x44 :: family :: (bytes ++ p :: q :: payload)) =
      (decodeIp family (ofOctets bytes)).map fun ip =>
        (.new ip (BitVec.ofNat 16 (uintBe 2 [p, q])), payload) := by
  have hrest : family :: (bytes ++ p :: q :: payload) =
      (family :: (bytes ++ [p, q])) ++ payload := by simp
  have haddr : (family :: (bytes ++ [p, q])).length = addrLen := by simp [hbytes, addrLen]
  have hsplit : splitAt (family :: (bytes ++ p :: q :: payload)) addrLen =
      .ok (family :: (bytes ++ [p, q]), payload) := by
    rw [hrest, splitAt, if_pos (by rw [length_append]; omega), take_left' haddr,
      drop_left' haddr]
  have hslice : slice (family :: (bytes ++ [p, q])) 1 17 = .ok bytes := by
    rw [slice, if_pos (by rw [haddr]; decide), take_succ_cons, drop_succ_cons,
      drop_zero, take_left' hbytes]
  have hfamily : index (family :: (bytes ++ [p, q])) 0 = .ok family := by simp [index]
  have hp : index (family :: (bytes ++ [p, q])) 17 = .ok p := by simp [index, hbytes]
  have hq : index (family :: (bytes ++ [p, q])) 18 = .ok q := by simp [index, hbytes]
  have hlong : ¬ (family :: (bytes ++ p :: q :: payload)).length < addrLen := by
    rw [hrest, length_append]
    omega
  simp only [decodeDatagram, ne_eq, not_true_eq_false, if_false, hlong, hsplit, hslice, tryInto,
    hbytes, hfamily, hp, hq, bind, Except.bind, dif_pos, pure, Except.pure]
  cases decodeIp family (ofOctets bytes) <;> rfl

theorem ends_tryInto (n : ℕ) (src : List UInt8) : Ends (tryInto n src) fun _ => True := by
  unfold tryInto
  split_ifs
  · trivial
  · rfl

theorem decodeDatagram_ne_panic : decodeDatagram message ≠ .error .panic := by
  rcases message with _ | ⟨tag, rest⟩
  · simp [decodeDatagram]
  rw [decodeDatagram]
  split_ifs with htag hlen
  · simp
  · simp
  have haddr : (rest.take addrLen).length = 19 := length_take_of_le (Nat.le_of_not_lt hlen)
  rw [splitAt, if_pos (Nat.le_of_not_lt hlen)]
  refine (bind_slice (by decide) (by omega) ?_ : Ends _ fun _ => True).ne_panic
  refine ends_bind (ends_tryInto 16 _) fun _ _ => ?_
  refine ends_bind (ends_index (by omega) 0) fun family _ => ?_
  refine ends_bind (ends_decodeIp family _) fun ip _ => ?_
  refine ends_bind (ends_index (by omega) 0) fun _ _ => ?_
  exact ends_bind (ends_index (by omega) 0) fun _ _ => trivial

theorem decodeRegister_ne_panic : decodeRegister message ≠ .error .panic := by
  rcases message with _ | ⟨tag, hash⟩
  · simp [decodeRegister]
  · by_cases htag : tag = 0x52
    · by_cases hlen : hash.length = 32
      all_goals simp [decodeRegister, tryInto, htag, hlen]
    · simp [decodeRegister, htag]

/-! ### The round trip -/

theorem decode_encode :
    decodeDatagram (encodeDatagram peer payload) = .ok (.new peer.ip peer.port, payload) := by
  obtain ⟨family, v6, hencode, hdecode⟩ := encodeIp_eq peer.ip
  obtain ⟨p, q, hport⟩ : ∃ p q, toBe 2 peer.port.toNat = [p, q] := length_eq_two.1 (by simp)
  have hread : uintBe 2 [p, q] = peer.port.toNat := by
    have := uintBe_toBe (w := 2) peer.port.isLt []
    rwa [append_nil, hport] at this
  have hmessage : encodeDatagram peer payload =
      0x44 :: family :: (octets v6 ++ p :: q :: payload) := by
    simp [encodeDatagram, hencode, hport]
  rw [hmessage, decodeDatagram_eq (length_octets v6), ofOctets_octets, hdecode, hread]
  simp [Except.map]

theorem decodeRegister_encodeDatagram :
    decodeRegister (encodeDatagram peer payload) = .error .none := by
  simp [decodeRegister, encodeDatagram]

theorem decodeDatagram_encodeRegister (hash : CookieHash) :
    decodeDatagram (encodeRegister hash) = .error .none := by simp [decodeDatagram, encodeRegister]

def Unscoped : SocketAddr → Prop
  | .v4 _ _ => True
  | .v6 _ _ flowinfo scopeId => flowinfo = 0 ∧ scopeId = 0

instance : (peer : SocketAddr) → Decidable (Unscoped peer)
  | .v4 _ _ => inferInstanceAs (Decidable True)
  | .v6 _ _ flowinfo scopeId => inferInstanceAs (Decidable (flowinfo = 0 ∧ scopeId = 0))

theorem new_eq_iff : SocketAddr.new peer.ip peer.port = peer ↔ Unscoped peer := by
  cases peer with
  | v4 bits port => simp [SocketAddr.new, SocketAddr.ip, SocketAddr.port, Unscoped]
  | v6 bits port flowinfo scopeId =>
    simp only [SocketAddr.new, SocketAddr.ip, SocketAddr.port, Unscoped, SocketAddr.v6.injEq,
      true_and]
    exact and_congr eq_comm eq_comm

structure FramesFaithfully (peer : SocketAddr) (payload : List UInt8) : Prop where
  roundTrip : decodeDatagram (encodeDatagram peer payload) = .ok (peer, payload)
  notRegistration : decodeRegister (encodeDatagram peer payload) = .error .none
  notDatagram : ∀ hash, decodeDatagram (encodeRegister hash) = .error .none
  noPanic : ∀ message,
    decodeDatagram message ≠ .error .panic ∧ decodeRegister message ≠ .error .panic

/-- **The framing keeps a client's address** unless it has a flow label or a scope. -/
theorem framesFaithfully_iff (peer : SocketAddr) (payload : List UInt8) :
    FramesFaithfully peer payload ↔ Unscoped peer := by
  constructor
  · intro h
    have hsame := h.roundTrip
    rw [decode_encode] at hsame
    rw [← new_eq_iff]
    simpa using hsame
  · intro h
    refine ⟨?_, decodeRegister_encodeDatagram peer payload, decodeDatagram_encodeRegister,
      fun message => ⟨decodeDatagram_ne_panic message, decodeRegister_ne_panic message⟩⟩
    rw [decode_encode, (new_eq_iff peer).2 h]

def linkLocal : SocketAddr := .v6 0xfe800000000000000000000000000001 50000 0 2

/-- It comes back without its interface. -/
theorem linkLocal_loses_scope :
    decodeDatagram (encodeDatagram linkLocal [1, 2, 3]) =
        .ok (.v6 0xfe800000000000000000000000000001 50000 0 0, [1, 2, 3]) ∧
      ¬ FramesFaithfully linkLocal [1, 2, 3] := by
  refine ⟨decode_encode linkLocal [1, 2, 3], fun h => ?_⟩
  have hsame := h.roundTrip
  rw [decode_encode] at hsame
  exact absurd hsame (by decide)

end Linrdp.Supervisor.Framing
