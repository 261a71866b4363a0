import TrustTunnel.AddressForms
import TrustTunnel.Lib.Items
import TrustTunnel.Socks5Client

/-!
# The messages of the SOCKS5 client (`socks5_client.rs`)

The credentials it sends, with parsers of their formats, and the datagrams of an association.
-/

namespace TrustTunnel.Socks5Client

open Io NetUtils HttpUdpCodec List Option
open Lib.Http1 (utf8)

/-! ## Credentials -/

inductive ExtendedAuthenticationValue where
  | domain (x : String)
  | clientAddress (x : IpAddr)
  | userAgent (x : String)
  | basicProxyAuth (x : String)
  | sniAuth

def ExtendedAuthenticationValue.typeCode : ExtendedAuthenticationValue → UInt8
  | .domain _ => 0x01
  | .clientAddress _ => 0x02
  | .userAgent _ => 0x03
  | .basicProxyAuth _ => 0x04
  | .sniAuth => 0x05

inductive Authentication where
  | usernamePassword (username password : String)
  | extended (values : List ExtendedAuthenticationValue)

/-- The length of a text and its bytes. -/
def sizedText (what x : String) : Except Error Bytes :=
  if (utf8 x).length > 0xffff then .error (.protocol ("Too long " ++ what))
  else .ok (putU16 (UInt16.ofNat (utf8 x).length) ++ utf8 x)

/-- The length of a value and its bytes. -/
def sizedValue : ExtendedAuthenticationValue → Except Error Bytes
  | .domain x => sizedText "domain name" x
  | .clientAddress x => .ok (putU16 (UInt16.ofNat x.octets.length) ++ x.octets)
  | .userAgent x => sizedText "User-Agent" x
  | .basicProxyAuth x => sizedText "Proxy-Authorization" x
  | .sniAuth => .ok (putU16 0)

def writeExtendedAuthenticationValue (buf : Bytes) (value : ExtendedAuthenticationValue) :
    Except Error Bytes :=
  (sizedValue value).map fun sized => buf ++ value.typeCode :: sized

/-- What `write_authentication_message` sends, if it does not fail. -/
def writeAuthenticationMessage : Authentication → Except Error Bytes
  | .usernamePassword username password =>
    .ok (0x01 :: UInt8.ofNat (utf8 username).length :: (utf8 username ++
      UInt8.ofNat (utf8 password).length :: utf8 password))
  | .extended values =>
    (values.foldlM writeExtendedAuthenticationValue [0x01]).map (· ++ 0x00 :: putU16 0)

/-! ## Parsers of the formats -/

/-- A length of one byte and so many bytes, at least `least`. -/
def takeSized (least : Nat) : Bytes → Option (Bytes × Bytes)
  | n :: rest =>
    if least ≤ n.toNat ∧ n.toNat ≤ rest.length then some (rest.take n.toNat, rest.drop n.toNat)
    else none
  | [] => none

/-- The request of RFC 1929; there `least` is one. -/
def parseUsernamePassword (least : Nat) : Bytes → Option Authentication
  | [] => none
  | version :: bytes => do
    let (username, bytes) ← takeSized least bytes
    let (password, bytes) ← takeSized least bytes
    if version = 0x01 ∧ bytes = [] then
      return .usernamePassword (← fromUtf8 username) (← fromUtf8 password)
    else none

def parseValue (typeCode : UInt8) (value : Bytes) : Option ExtendedAuthenticationValue :=
  match typeCode.toNat with
  | 1 => (fromUtf8 value).map .domain
  | 2 => (ipOfOctets value).map .clientAddress
  | 3 => (fromUtf8 value).map .userAgent
  | 4 => (fromUtf8 value).map .basicProxyAuth
  | 5 => if value = [] then some .sniAuth else none
  | _ => none

/-- Extensions up to the terminator, with nothing behind it. -/
def parseValues : Nat → Bytes → Option (List ExtendedAuthenticationValue)
  | fuel + 1, typeCode :: hi :: lo :: bytes =>
    let length := (beU16 hi lo).toNat
    if typeCode = 0x00 then if length = 0 ∧ bytes = [] then some [] else none
    else if bytes.length < length then none
    else do
      let value ← parseValue typeCode (bytes.take length)
      return value :: (← parseValues fuel (bytes.drop length))
  | _, _ => none

def parseExtended : Bytes → Option Authentication
  | [] => none
  | version :: bytes =>
    if version = 0x01 then (parseValues bytes.length bytes).map .extended else none

/-- The parser of the format that the method stands for. -/
def Authentication.parse (least : Nat) : Authentication → Bytes → Option Authentication
  | .usernamePassword .. => parseUsernamePassword least
  | .extended _ => parseExtended

/-! ## Reading credentials back -/

def Fits (least : Nat) (s : String) : Prop := least ≤ (utf8 s).length ∧ (utf8 s).length ≤ 255

section

variable {least : Nat} {s username password : String} {bytes rest : Bytes}

lemma takeSized_of_fits (h : Fits least s) (rest : Bytes) :
    takeSized least (UInt8.ofNat (utf8 s).length :: (utf8 s ++ rest)) = some (utf8 s, rest) := by
  have hn : (UInt8.ofNat (utf8 s).length).toNat = (utf8 s).length := by
    rw [UInt8.toNat_ofNat', Nat.mod_eq_of_lt (by have := h.2; omega)]
  simp [takeSized, hn, h.1]

lemma fits_of_takeSized
    (h : takeSized least (UInt8.ofNat (utf8 s).length :: bytes) = some (utf8 s, rest)) :
    Fits least s := by
  obtain ⟨⟨hl, hle⟩, h⟩ := ite_none_right_eq_some.mp h
  have hlen := congrArg (·.1.length) (Option.some.inj h)
  simp only [length_take, Nat.min_eq_left hle] at hlen
  have hlt := (UInt8.ofNat (utf8 s).length).toNat_lt
  exact ⟨hlen ▸ hl, by omega⟩

lemma parseUsernamePassword_iff :
    parseUsernamePassword least (0x01 :: UInt8.ofNat (utf8 username).length :: (utf8 username ++
        UInt8.ofNat (utf8 password).length :: utf8 password)) =
        some (.usernamePassword username password) ↔ Fits least username ∧ Fits least password := by
  constructor
  · intro h
    simp only [parseUsernamePassword, bind_eq_bind, bind_eq_some_iff] at h
    obtain ⟨⟨u, rest⟩, hu, ⟨p, rest'⟩, hp, h⟩ := h
    simp only [ite_none_right_eq_some, bind_eq_some_iff] at h
    obtain ⟨-, _, hu', _, hp', h⟩ := h
    cases h
    obtain rfl := Lib.Http1.utf8_of_fromUTF8 hu'
    obtain rfl := Lib.Http1.utf8_of_fromUTF8 hp'
    have hf := fits_of_takeSized hu
    rw [takeSized_of_fits hf] at hu
    cases hu
    exact ⟨hf, fits_of_takeSized hp⟩
  · rintro ⟨hu, hp⟩
    have hl := takeSized_of_fits hp []
    rw [append_nil] at hl
    simp [parseUsernamePassword, takeSized_of_fits hu, hl, fromUtf8_utf8]

end

lemma sizedText_eq_ok (h : sizedText what x = .ok sized) :
    sized = putU16 (UInt16.ofNat (utf8 x).length) ++ utf8 x ∧ (utf8 x).length ≤ 0xffff := by
  obtain ⟨hle, h⟩ := Lib.ite_error_eq_ok.mp h
  cases h
  exact ⟨rfl, Nat.not_lt.mp hle⟩

/-- A length, and as many bytes that give the value back. -/
lemma sizedValue_eq_ok (h : sizedValue value = .ok sized) :
    ∃ bytes, sized = putU16 (UInt16.ofNat bytes.length) ++ bytes ∧ bytes.length ≤ 0xffff ∧
      parseValue value.typeCode bytes = some value := by
  have ht (f : String → ExtendedAuthenticationValue) (x : String) :
      (fromUtf8 (utf8 x)).map f = some (f x) := by
    rw [fromUtf8_utf8, map_some]
  cases value with
  | domain x =>
    obtain ⟨rfl, hle⟩ := sizedText_eq_ok h
    exact ⟨utf8 x, rfl, hle, ht .domain x⟩
  | clientAddress x =>
    cases h
    have hle : x.octets.length ≤ 0xffff := by cases x <;> simp [IpAddr.octets, Ipv4Addr.octets,
      Ipv6Addr.octets, putU16]
    exact ⟨x.octets, rfl, hle, congrArg (Option.map ExtendedAuthenticationValue.clientAddress)
      (ipOfOctets_octets x)⟩
  | userAgent x =>
    obtain ⟨rfl, hle⟩ := sizedText_eq_ok h
    exact ⟨utf8 x, rfl, hle, ht .userAgent x⟩
  | basicProxyAuth x =>
    obtain ⟨rfl, hle⟩ := sizedText_eq_ok h
    exact ⟨utf8 x, rfl, hle, ht .basicProxyAuth x⟩
  | sniAuth =>
    cases h
    exact ⟨[], rfl, by decide, rfl⟩

lemma parseValues_cons
    (hle : bytes.length ≤ 0xffff) (h : parseValue value.typeCode bytes = some value) (fuel : Nat)
    (rest : Bytes) : parseValues (fuel + 1)
        (value.typeCode :: (putU16 (UInt16.ofNat bytes.length) ++ (bytes ++ rest))) =
      (parseValues fuel rest).map (value :: ·) := by
  have hcode : value.typeCode ≠ 0x00 := by
    cases value <;> simp [ExtendedAuthenticationValue.typeCode]
  have hl : (UInt16.ofNat bytes.length).toNat = bytes.length := by
    rw [UInt16.toNat_ofNat', Nat.mod_eq_of_lt (by omega)]
  generalize UInt16.ofNat bytes.length = n at hl ⊢
  simp only [parseValues, putU16, cons_append, nil_append, beU16_putU16, hl, hcode,
    if_false, take_left, drop_left, h, bind_eq_bind, bind_some]
  rw [if_neg (by simp)]
  cases parseValues fuel rest <;> rfl

lemma parseValues_written (h : values.foldlM writeExtendedAuthenticationValue buf = .ok out) :
    ∃ body, out = buf ++ body ∧ values.length ≤ body.length ∧
      ∀ fuel, values.length < fuel → parseValues fuel (body ++ 0x00 :: putU16 0) = some values := by
  induction values generalizing buf with
  | nil =>
    cases h
    refine ⟨[], by simp, Nat.le_refl _, fun fuel hf => ?_⟩
    obtain ⟨fuel, rfl⟩ : ∃ n, fuel = n + 1 := ⟨fuel - 1, by simp at hf; omega⟩
    rfl
  | cons value values ih =>
    rw [foldlM_cons] at h
    obtain ⟨buf', hv, h⟩ := Lib.bind_eq_ok.mp h
    obtain ⟨sized, hs, rfl⟩ := Lib.map_eq_ok_iff.mp hv
    obtain ⟨bytes, rfl, hle, hp⟩ := sizedValue_eq_ok hs
    obtain ⟨body, rfl, hlen, hb⟩ := ih h
    refine ⟨value.typeCode :: (putU16 (UInt16.ofNat bytes.length) ++ (bytes ++ body)), by simp, ?_,
      fun fuel hf => ?_⟩
    · simp
      omega
    · simp only [length_cons] at hf
      obtain ⟨fuel, rfl⟩ : ∃ n, fuel = n + 1 := ⟨fuel - 1, by omega⟩
      have hr := hb fuel (by omega)
      have hc := parseValues_cons hle hp fuel (body ++ 0x00 :: putU16 0)
      rw [hr] at hc
      simpa using hc

/-- **Credentials are sent faithfully**, unless a name or a password does not fit its length
byte. -/
theorem authentication_read_back_iff (least : Nat) (auth : Authentication) :
    (∀ bytes, writeAuthenticationMessage auth = .ok bytes → auth.parse least bytes = some auth) ↔
      ∀ username password, auth = .usernamePassword username password →
        Fits least username ∧ Fits least password := by
  cases auth with
  | usernamePassword =>
    simp only [writeAuthenticationMessage, Except.ok.injEq, forall_eq', Authentication.parse,
      parseUsernamePassword_iff, Authentication.usernamePassword.injEq]
    exact ⟨by rintro h _ _ ⟨rfl, rfl⟩; exact h, fun h => h _ _ ⟨rfl, rfl⟩⟩
  | extended =>
    refine ⟨fun _ _ _ h => (nomatch h), fun _ bytes h => ?_⟩
    obtain ⟨buf, hb, rfl⟩ := Lib.map_eq_ok_iff.mp h
    obtain ⟨body, rfl, hlen, hbo⟩ := parseValues_written hb
    have hp := hbo (body ++ 0x00 :: putU16 0).length (by simp; omega)
    exact congrArg (Option.map Authentication.extended) hp

/-- A name of 256 bytes is announced as one of none. -/
theorem long_username_misread : ∃ bytes, writeAuthenticationMessage
        (.usernamePassword (String.ofList (List.replicate 256 'a')) "b") = .ok bytes ∧
      parseUsernamePassword 0 bytes ≠
        some (.usernamePassword (String.ofList (List.replicate 256 'a')) "b") := by
  refine ⟨_, rfl, fun h => ?_⟩
  have hl := (parseUsernamePassword_iff.mp h).1.2
  revert hl
  decide +kernel

/-! ## Datagrams -/

def addressType : IpAddr → UInt8
  | .v4 _ => 0x01
  | .v6 _ => 0x04

/-- The datagram of `UdpAssociation::send_to`. -/
def sendTo (data : Bytes) (destination : SocketAddr) : Bytes :=
  [0x00, 0x00, 0x00] ++ addressType destination.ip ::
    (destination.ip.octets ++ (putU16 destination.port ++ data))

def udpBufferSize (addressSize dataCap : Nat) : Nat := 2 + 1 + 1 + addressSize + 2 + dataCap

/-- `copy_to_slice` of `n` bytes. -/
def copyToSlice (n : Nat) (buf : Bytes) : Option (Bytes × Bytes) :=
  if n ≤ buf.length then some (buf.take n, buf.drop n) else none

/-- The end of `recv_from`, once the address is read. -/
def recvData (cap : Nat) (source : Bytes) (buf : Bytes) :
    Option (Except Error (Nat × SocketAddr × Bytes)) := do
  let ip ← ipOfOctets source
  if buf.length < 2 then some (.error (.protocol "Too short packet"))
  else
    let (port, buf) ← getU16 buf
    let (data, _) ← copyToSlice (min buf.length cap) buf
    return .ok (buf.length, .new ip port, data)

/-- `UdpAssociation::recv_from` with room for `cap` bytes; a longer datagram is cut. -/
def recvFrom (cap : Nat) (datagram : Bytes) : Option (Except Error (Nat × SocketAddr × Bytes)) := do
  let buf := datagram.take (udpBufferSize 16 cap)
  if buf.length < udpBufferSize 4 0 then some (.error (.protocol "Too short packet"))
  else
    let (high, buf) ← getU8 buf
    let (low, buf) ← getU8 buf
    if high ≠ 0x00 ∨ low ≠ 0x00 then some (.error (.protocol "Unexpected reserved bytes"))
    else
      let (frag, buf) ← getU8 buf
      if frag ≠ 0x00 then some (.error (.protocol "Unexpected fragmentation byte"))
      else
        let (type, buf) ← getU8 buf
        match type.toNat with
        | 0x01 =>
          let (octets, buf) ← copyToSlice 4 buf
          recvData cap octets buf
        | 0x04 =>
          if buf.length < 16 then
            some (.error (.protocol "Packet length doesn't conform to announced address type"))
          else
            let (octets, buf) ← copyToSlice 16 buf
            recvData cap octets buf
        | x => some (.error (.protocol ("Unexpected address type: " ++ toString x)))

lemma recvData_isSome (cap : Nat) (buf : Bytes)
    (h : source.length = 4 ∨ source.length = 16) : ∃ r, recvData cap source buf = some r := by
  obtain ⟨ip, hip⟩ := ipOfOctets_isSome h
  match buf with
  | [] | [_] => exact ⟨.error (.protocol "Too short packet"), by simp [recvData, hip]⟩
  | hi :: lo :: rest =>
    have hc : copyToSlice (min rest.length cap) rest = some _ := if_pos (Nat.min_le_left _ _)
    exact ⟨_, by simp only [recvData, hip, getU16, hc, bind_eq_bind, bind_some]; rfl⟩

lemma copyToSlice_eq (h : n ≤ buf.length) :
    copyToSlice n buf = some (buf.take n, buf.drop n) := if_pos h

lemma recvFrom_isSome (cap : Nat) (datagram : Bytes) : ∃ r, recvFrom cap datagram = some r := by
  unfold recvFrom
  generalize datagram.take (udpBufferSize 16 cap) = buf
  by_cases hle : buf.length < udpBufferSize 4 0
  · exact ⟨_, if_pos hle⟩
  · simp only [hle, if_false]
    match buf with
    | [] | [_] | [_, _] | [_, _, _] => exact absurd (Nat.lt_of_lt_of_le (by simp) (Nat.le_refl 10)) hle
    | high :: low :: frag :: type :: buf =>
      simp only [getU8, bind_eq_bind, bind_some]
      split
      · exact ⟨_, rfl⟩
      · split
        · exact ⟨_, rfl⟩
        · split
          · rw [copyToSlice_eq (by simp [udpBufferSize] at hle; omega)]
            exact recvData_isSome cap _ (.inl (by simp [udpBufferSize] at hle ⊢; omega))
          · split
            · exact ⟨_, rfl⟩
            · rename_i hl
              rw [copyToSlice_eq (Nat.not_lt.mp hl)]
              exact recvData_isSome cap _ (.inr (by simp; omega))
          · exact ⟨_, rfl⟩

/-- **Datagrams of an association** arrive as they were sent, and none makes `recv_from` read
past its end. -/
theorem recvFrom_sendTo (data : Bytes) (destination : SocketAddr) (cap : Nat)
    (h : data.length ≤ cap) :
    recvFrom cap (sendTo data destination) =
        some (.ok (data.length, .new destination.ip destination.port, data)) ∧
      ∀ cap datagram, ∃ r, recvFrom cap datagram = some r := by
  refine ⟨?_, recvFrom_isSome⟩
  have hd : ∀ ip : IpAddr, recvData cap ip.octets (putU16 destination.port ++ data) =
      some (.ok (data.length, .new ip destination.port, data)) := by
    intro ip
    have hp := getU16_putU16 destination.port data
    have hc := copyToSlice_eq (Nat.min_le_left data.length cap)
    rw [Nat.min_eq_left h, take_length] at hc
    simp only [recvData, ipOfOctets_octets, hp, Nat.min_eq_left h, hc, bind_eq_bind,
      bind_some]
    rw [if_neg (by simp [putU16])]
    rfl
  have ht : (sendTo data destination).take (udpBufferSize 16 cap) = sendTo data destination := by
    refine take_of_length_le ?_
    cases destination <;> simp [sendTo, SocketAddr.ip, IpAddr.octets, Ipv4Addr.octets,
      Ipv6Addr.octets, putU16, udpBufferSize] <;> omega
  rw [recvFrom, ht, if_neg]
  · cases destination with
    | v4 ip => exact hd (.v4 ip)
    | v6 ip => exact hd (.v6 ip)
  · cases destination <;> simp [sendTo, SocketAddr.ip, IpAddr.octets, Ipv4Addr.octets,
      Ipv6Addr.octets, putU16, udpBufferSize]

theorem recvFrom_sendTo_dns : recvFrom 3 (sendTo [1, 2, 3] (.v4 ⟨8, 8, 8, 8⟩ 53)) =
        some (.ok (3, .v4 ⟨8, 8, 8, 8⟩ 53, [1, 2, 3])) ∧
      ∀ cap datagram, ∃ r, recvFrom cap datagram = some r :=
  recvFrom_sendTo [1, 2, 3] (.v4 ⟨8, 8, 8, 8⟩ 53) 3 (by decide)

end TrustTunnel.Socks5Client
