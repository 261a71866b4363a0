import TrustTunnel.IcmpUtils

/-!
# Reading ICMP messages (`icmp_utils.rs`, `net_utils.rs`)

The length is checked, code and checksum taken off, and the parser of the type gets the rest.
`none` is a panic.
-/

namespace TrustTunnel.IcmpUtils

open Io HttpUdpCodec List Option NetUtils

inductive DeserializeError where
  | invalidLength (text : String)
  | messageType (typeId : UInt8)
  | destinationUnreachableCode (code : UInt8)
  | timeExceededCode (code : UInt8)

inductive LengthCheck where
  | exact (n : Nat)
  | lowerBound (n : Nat)

def LengthCheck.error (check : LengthCheck) (m : Nat) : Option DeserializeError :=
  match check with
  | .exact n =>
    if n ≠ m then
      some (.invalidLength ("Expected length: " ++ toString n ++ ", packet length: " ++ toString m))
    else none
  | .lowerBound n =>
    if m < n then
      some (.invalidLength
        ("Expected length at least: " ++ toString n ++ ", packet length: " ++ toString m))
    else none

abbrev Parser (μ : Type) := UInt8 → Bytes → Option (Except DeserializeError μ)

/-- `deserialize_packet!`, after the type. -/
def deserializePacket {μ : Type} (check : LengthCheck) (parse : Parser μ) (packet : Bytes) :
    Option (Except DeserializeError μ) :=
  match check.error (1 + packet.length) with
  | some e => some (.error e)
  | none => do
    let (code, packet) ← getU8 packet
    let packet ← advance 2 packet
    parse code packet

/-- `deserialize`: the parsers are found by the type. -/
def deserializeBy {μ : Type} (parsers : UInt8 → Option (LengthCheck × Parser μ)) (packet : Bytes) :
    Option (Except DeserializeError μ) :=
  match packet with
  | [] => some (.error (.invalidLength "Empty packet"))
  | typeId :: packet =>
    match parsers typeId with
    | some (check, parse) => deserializePacket check parse packet
    | none => some (.error (.messageType typeId))

/-! ## The parsers -/

section

variable {μ : Type}

def parsedEcho (make : Echo → μ) : Parser μ := fun code packet =>
  (parseEcho code packet).map (fun x => .ok (make x))

def parseData (make : UInt8 → Bytes → μ) : Parser μ := fun code packet =>
  (advance 4 packet).map (fun data => .ok (make code data))

def parseDestinationUnreachable (codes : List UInt8) (make : UInt8 → Bytes → μ) : Parser μ :=
  fun code packet =>
    if code ∈ codes then parseData make code packet
    else some (.error (.destinationUnreachableCode code))

def parseTimeExceeded (make : UInt8 → Bytes → μ) : Parser μ := fun code packet =>
  if code ∈ [0, 1] then parseData make code packet else some (.error (.timeExceededCode code))

def parseNumber (make : UInt8 → UInt32 → Bytes → μ) : Parser μ := fun code packet => do
  let (number, data) ← getU32 packet
  some (.ok (make code (UInt32.ofNat number) data))

def parseTimestamp (make : Timestamp → μ) : Parser μ := fun code packet => do
  let (identifier, packet) ← getU16 packet
  let (sequenceNumber, packet) ← getU16 packet
  let (originate, packet) ← getU32 packet
  let (receive, packet) ← getU32 packet
  let (transmit, _) ← getU32 packet
  some (.ok (make ⟨code, identifier, sequenceNumber, UInt32.ofNat originate, UInt32.ofNat receive,
    UInt32.ofNat transmit⟩))

def parseInformation (make : Information → μ) : Parser μ := fun code packet => do
  let (identifier, packet) ← getU16 packet
  let (sequenceNumber, _) ← getU16 packet
  some (.ok (make ⟨code, identifier, sequenceNumber⟩))

end

def icmpMinCommonHeaderSize : Nat := 8

namespace MessageV4

def parseParameterProblem : Parser MessageV4 := fun code packet => do
  let (pointer, packet) ← getU8 packet
  let data ← advance 3 packet
  some (.ok (.parameterProblem code pointer data))

def quotingCheck : LengthCheck := .lowerBound (icmpMinCommonHeaderSize + (20 + 8))

def parsers (typeId : UInt8) : Option (LengthCheck × Parser MessageV4) :=
  if typeId = 0 then some (.lowerBound 8, parsedEcho .echoReply)
  else if typeId = 3 then
    some (quotingCheck, parseDestinationUnreachable [0, 1, 2, 3, 4, 5] .destinationUnreachable)
  else if typeId = 4 then some (quotingCheck, parseData .sourceQuench)
  else if typeId = 5 then some (quotingCheck, parseNumber .redirect)
  else if typeId = 8 then some (.lowerBound 8, parsedEcho .echo)
  else if typeId = 11 then some (quotingCheck, parseTimeExceeded .timeExceeded)
  else if typeId = 12 then some (quotingCheck, parseParameterProblem)
  else if typeId = 13 then some (.exact 20, parseTimestamp .timestamp)
  else if typeId = 14 then some (.exact 20, parseTimestamp .timestampReply)
  else if typeId = 15 then some (.exact 20, parseInformation .informationRequest)
  else if typeId = 16 then some (.exact 20, parseInformation .informationReply)
  else none

def deserialize : Bytes → Option (Except DeserializeError MessageV4) := deserializeBy parsers

def typeId : MessageV4 → UInt8
  | destinationUnreachable _ _ => 3
  | timeExceeded _ _ => 11
  | parameterProblem _ _ _ => 12
  | sourceQuench _ _ => 4
  | redirect _ _ _ => 5
  | echo _ => 8
  | echoReply _ => 0
  | timestamp _ => 13
  | timestampReply _ => 14
  | informationRequest _ => 15
  | informationReply _ => 16

def code : MessageV4 → UInt8
  | destinationUnreachable code _ | timeExceeded code _ | parameterProblem code _ _
  | sourceQuench code _ | redirect code _ _ => code
  | echo x | echoReply x => x.code
  | timestamp x | timestampReply x => x.code
  | informationRequest x | informationReply x => x.code

def len (m : MessageV4) : Nat :=
  icmpMinCommonHeaderSize + match m with
    | destinationUnreachable _ data | timeExceeded _ data | parameterProblem _ _ data
    | sourceQuench _ data | redirect _ _ data => data.length
    | echo x | echoReply x => x.data.length
    | timestamp _ | timestampReply _ => 4 + 4 + 4
    | informationRequest _ | informationReply _ => 0

def icmpData : MessageV4 → Option Bytes
  | destinationUnreachable _ data | timeExceeded _ data | parameterProblem _ _ data
  | sourceQuench _ data | redirect _ _ data => some data
  | _ => none

end MessageV4

namespace MessageV6

def quotingCheck : LengthCheck := .lowerBound (icmpMinCommonHeaderSize + 40)

def parsers (typeId : UInt8) : Option (LengthCheck × Parser MessageV6) :=
  if typeId = 1 then
    some (quotingCheck, parseDestinationUnreachable [0, 1, 2, 3, 4, 5, 6] .destinationUnreachable)
  else if typeId = 2 then some (quotingCheck, parseNumber .packetTooBig)
  else if typeId = 3 then some (quotingCheck, parseTimeExceeded .timeExceeded)
  else if typeId = 4 then some (quotingCheck, parseNumber .parameterProblem)
  else if typeId = 128 then some (.lowerBound icmpMinCommonHeaderSize, parsedEcho .echoRequest)
  else if typeId = 129 then some (.lowerBound icmpMinCommonHeaderSize, parsedEcho .echoReply)
  else none

def deserialize : Bytes → Option (Except DeserializeError MessageV6) := deserializeBy parsers

def typeId : MessageV6 → UInt8
  | destinationUnreachable _ _ => 1
  | packetTooBig _ _ _ => 2
  | timeExceeded _ _ => 3
  | parameterProblem _ _ _ => 4
  | echoRequest _ => 128
  | echoReply _ => 129

def code : MessageV6 → UInt8
  | destinationUnreachable code _ | packetTooBig code _ _ | timeExceeded code _
  | parameterProblem code _ _ => code
  | echoRequest x | echoReply x => x.code

def len (m : MessageV6) : Nat :=
  icmpMinCommonHeaderSize + match m with
    | destinationUnreachable _ data | packetTooBig _ _ data | timeExceeded _ data
    | parameterProblem _ _ data => data.length
    | echoRequest x | echoReply x => x.data.length

def icmpData : MessageV6 → Option Bytes
  | destinationUnreachable _ data | packetTooBig _ _ data | timeExceeded _ data
  | parameterProblem _ _ data => some data
  | _ => none

end MessageV6

/-! ## What was read -/

section

variable {μ : Type} {P : UInt8 → Nat → μ → Prop} {check : LengthCheck} {parse : Parser μ}
  {code : UInt8} {packet : Bytes}

/-- It is read without a panic, and `P` holds of code, length and message. -/
def Reads (check : LengthCheck) (parse : Parser μ) (P : UInt8 → Nat → μ → Prop) : Prop :=
  ∀ code packet, check.error (4 + packet.length) = none →
    ∃ r, parse code packet = some r ∧ ∀ m, r = .ok m → P code (4 + packet.length) m

def LengthCheck.minimum : LengthCheck → Nat
  | .exact n => n
  | .lowerBound n => n

lemma minimum_le_of_error (h : check.error m = none) : check.minimum ≤ m := by
  cases check with
  | exact =>
    simp only [LengthCheck.error, ite_eq_right_iff, reduceCtorEq, imp_false, not_not] at h
    exact Nat.le_of_eq h
  | lowerBound =>
    simp only [LengthCheck.error, ite_eq_right_iff, reduceCtorEq, imp_false] at h
    exact Nat.not_lt.mp h

lemma eq_of_error_exact (h : (LengthCheck.exact n).error m = none) : m = n := by
  simp only [LengthCheck.error, ite_eq_right_iff, reduceCtorEq, imp_false, not_not] at h
  exact h.symm

lemma advance_eq (h : n ≤ packet.length) : advance n packet = some (packet.drop n) :=
  if_pos h

/-- After the common header of eight bytes. -/
lemma reads_of_header (hc : 8 ≤ check.minimum)
    (hP : ∀ code a b c d data, ∃ r, parse code (a :: b :: c :: d :: data) = some r ∧
      ∀ m, r = .ok m → P code (8 + data.length) m) : Reads check parse P := by
  intro code packet h
  have hl : 8 ≤ 4 + packet.length := Nat.le_trans hc (minimum_le_of_error h)
  match packet, hl with
  | a :: b :: c :: d :: data, _ =>
    have hd := hP code a b c d data
    rwa [show 8 + data.length = 4 + (a :: b :: c :: d :: data).length by
      simp only [length_cons]; omega] at hd

lemma reads_parseData (hc : 8 ≤ check.minimum)
    (hP : ∀ code data, P code (8 + data.length) (make code data)) :
      Reads check (parseData make) P := by
  refine reads_of_header hc fun code a b c d data => ⟨.ok (make code data), ?_, ?_⟩
  · rw [parseData, advance_eq (by simp)]
    rfl
  · rintro _ ⟨⟩
    exact hP code data

lemma reads_of_code {codes : List UInt8} {error : UInt8 → DeserializeError}
    (h : Reads check parse P) :
    Reads check (fun code packet => if code ∈ codes then parse code packet else some
      (.error (error code))) P := by
  intro code packet hl
  by_cases hcode : code ∈ codes
  · simp only [if_pos hcode]
    exact h code packet hl
  · simp only [if_neg hcode]
    exact ⟨_, rfl, fun m hm => by cases hm⟩

lemma reads_parsedEcho (hc : 8 ≤ check.minimum)
    (hP : ∀ x : Echo, P x.code (8 + x.data.length) (make x)) : Reads check (parsedEcho make) P := by
  refine reads_of_header hc fun code a b c d data => ⟨_, rfl, ?_⟩
  rintro _ ⟨⟩
  exact hP ⟨code, beU16 a b, beU16 c d, data⟩

lemma reads_parseNumber (hc : 8 ≤ check.minimum)
    (hP : ∀ code number data, P code (8 + data.length) (make code number data)) :
    Reads check (parseNumber make) P := by
  refine reads_of_header hc fun code a b c d data => ⟨_, rfl, ?_⟩
  rintro _ ⟨⟩
  exact hP code (UInt32.ofNat (beU32 a b c d)) data

lemma reads_parseTimestamp (hP : ∀ x : Timestamp, P x.code 20 (make x)) :
    Reads (.exact 20) (parseTimestamp make) P := by
  intro code packet h
  have hl : 4 + packet.length = 20 := eq_of_error_exact h
  match packet, hl with
  | _ :: _ :: _ :: _ :: _ :: _ :: _ :: _ :: _ :: _ :: _ :: _ :: _ :: _ :: _ :: _ :: _, hl =>
    refine ⟨_, rfl, ?_⟩
    rintro _ ⟨⟩
    rw [hl]
    exact hP ⟨code, _, _, _, _, _⟩

lemma reads_parseInformation (hP : ∀ x : Information, P x.code 20 (make x)) :
    Reads (.exact 20) (parseInformation make) P := by
  intro code packet h
  have hl : 4 + packet.length = 20 := eq_of_error_exact h
  match packet, hl with
  | a :: b :: c :: d :: rest, hl =>
    refine ⟨_, rfl, ?_⟩
    rintro _ ⟨⟩
    rw [hl]
    exact hP ⟨code, beU16 a b, beU16 c d⟩

lemma reads_parseParameterProblem {P : UInt8 → Nat → MessageV4 → Prop} (hc : 8 ≤ check.minimum)
    (hP : ∀ code pointer data, P code (8 + data.length) (.parameterProblem code pointer data)) :
    Reads check MessageV4.parseParameterProblem P := by
  refine reads_of_header hc fun code a b c d data => ⟨.ok (.parameterProblem code a data), ?_, ?_⟩
  · have hd : advance 3 (b :: c :: d :: data) = some data :=
      advance_eq (by simp only [length_cons]; omega)
    simp only [MessageV4.parseParameterProblem, getU8, hd, bind_eq_bind, bind_some]
  · rintro _ ⟨⟩
    exact hP code a data

/-- **Reading a message**: nothing panics. -/
lemma deserializeBy_reads {parsers : UInt8 → Option (LengthCheck × Parser μ)}
    {Q : UInt8 → UInt8 → Nat → μ → Prop}
    (hp : ∀ typeId check parse, parsers typeId = some (check, parse) →
      4 ≤ check.minimum ∧ Reads check parse (Q typeId)) (packet : Bytes) :
    ∃ r, deserializeBy parsers packet = some r ∧ ∀ m, r = .ok m →
      ∃ typeId code rest, packet = typeId :: code :: rest ∧ Q typeId code packet.length m := by
  have he : ∀ e : DeserializeError, ∃ r : Except DeserializeError μ, some (.error e) = some r ∧
      ∀ m, r = .ok m →
        ∃ typeId code rest, packet = typeId :: code :: rest ∧ Q typeId code packet.length m :=
    fun e => ⟨_, rfl, fun m hm => by cases hm⟩
  cases packet with
  | nil => exact he _
  | cons typeId packet =>
    simp only [deserializeBy]
    cases hpa : parsers typeId with
    | none => exact he _
    | some parser =>
      obtain ⟨check, parse⟩ := parser
      obtain ⟨hc, hre⟩ := hp typeId check parse hpa
      simp only [deserializePacket]
      cases hl : check.error (1 + packet.length) with
      | some e => exact he e
      | none =>
        have hle : 4 ≤ 1 + packet.length := Nat.le_trans hc (minimum_le_of_error hl)
        match packet, hle with
        | code :: c :: d :: rest, _ =>
          have ht : 1 + (code :: c :: d :: rest).length = 4 + rest.length := by
            simp only [length_cons]
            omega
          rw [ht] at hl
          obtain ⟨r, hr, hm⟩ := hre code rest hl
          refine ⟨r, ?_, fun m h => ⟨typeId, code, c :: d :: rest, rfl, ?_⟩⟩
          · show (advance 2 (c :: d :: rest)).bind (parse code) = some r
            rw [advance_eq (by simp only [length_cons]; omega)]
            exact hr
          · rw [length_cons, Nat.add_comm, ht]
            exact hm m h

end

/-- What the accessors say of a message. -/
structure MessageV4.Agrees (t c : UInt8) (n : Nat) (m : MessageV4) : Prop where
  typeId : m.typeId = t
  code : m.code = c
  len : m.len = n ↔ t ≠ 15 ∧ t ≠ 16

structure MessageV6.Agrees (t c : UInt8) (n : Nat) (m : MessageV6) : Prop where
  typeId : m.typeId = t
  code : m.code = c
  len : m.len = n

lemma some_of_ite {α : Type} {c : Prop} [Decidable c] {a b : α} {rest : Option α}
    (h : (if c then some a else rest) = some b) : (c ∧ a = b) ∨ rest = some b := by
  by_cases hc : c
  · exact .inl ⟨hc, some.inj ((if_pos hc).symm.trans h)⟩
  · exact .inr ((if_neg hc).symm.trans h)

lemma MessageV4.reads_parsers (t : UInt8) (check : LengthCheck) (parse : Parser MessageV4)
    (h : parsers t = some (check, parse)) : 4 ≤ check.minimum ∧ Reads check parse (Agrees t) := by
  have hq : 8 ≤ quotingCheck.minimum := by decide
  have hec : 8 ≤ (LengthCheck.lowerBound 8).minimum := by decide
  have he : icmpMinCommonHeaderSize + 0 ≠ 20 := by decide
  obtain ⟨rfl, ⟨⟩⟩ | h := some_of_ite h
  · exact ⟨by decide, reads_parsedEcho hec fun _ => ⟨rfl, rfl, iff_of_true rfl (by decide)⟩⟩
  obtain ⟨rfl, ⟨⟩⟩ | h := some_of_ite h
  · exact ⟨by decide, reads_of_code (reads_parseData hq fun _ _ =>
      ⟨rfl, rfl, iff_of_true rfl (by decide)⟩)⟩
  obtain ⟨rfl, ⟨⟩⟩ | h := some_of_ite h
  · exact ⟨by decide, reads_parseData hq fun _ _ => ⟨rfl, rfl, iff_of_true rfl (by decide)⟩⟩
  obtain ⟨rfl, ⟨⟩⟩ | h := some_of_ite h
  · exact ⟨by decide, reads_parseNumber hq fun _ _ _ => ⟨rfl, rfl, iff_of_true rfl (by decide)⟩⟩
  obtain ⟨rfl, ⟨⟩⟩ | h := some_of_ite h
  · exact ⟨by decide, reads_parsedEcho hec fun _ => ⟨rfl, rfl, iff_of_true rfl (by decide)⟩⟩
  obtain ⟨rfl, ⟨⟩⟩ | h := some_of_ite h
  · exact ⟨by decide, reads_of_code (reads_parseData hq fun _ _ =>
      ⟨rfl, rfl, iff_of_true rfl (by decide)⟩)⟩
  obtain ⟨rfl, ⟨⟩⟩ | h := some_of_ite h
  · exact ⟨by decide, reads_parseParameterProblem hq fun _ _ _ =>
      ⟨rfl, rfl, iff_of_true rfl (by decide)⟩⟩
  obtain ⟨rfl, ⟨⟩⟩ | h := some_of_ite h
  · exact ⟨by decide, reads_parseTimestamp fun _ => ⟨rfl, rfl, iff_of_true rfl (by decide)⟩⟩
  obtain ⟨rfl, ⟨⟩⟩ | h := some_of_ite h
  · exact ⟨by decide, reads_parseTimestamp fun _ => ⟨rfl, rfl, iff_of_true rfl (by decide)⟩⟩
  -- the twelve bytes that follow the numbers are not counted
  obtain ⟨rfl, ⟨⟩⟩ | h := some_of_ite h
  · exact ⟨by decide, reads_parseInformation fun _ => ⟨rfl, rfl, iff_of_false he (by decide)⟩⟩
  obtain ⟨rfl, ⟨⟩⟩ | h := some_of_ite h
  · exact ⟨by decide, reads_parseInformation fun _ => ⟨rfl, rfl, iff_of_false he (by decide)⟩⟩
  cases h

lemma MessageV6.reads_parsers (t : UInt8) (check : LengthCheck) (parse : Parser MessageV6)
    (h : parsers t = some (check, parse)) : 4 ≤ check.minimum ∧ Reads check parse (Agrees t) := by
  have hq : 8 ≤ quotingCheck.minimum := by decide
  have he : 8 ≤ (LengthCheck.lowerBound icmpMinCommonHeaderSize).minimum := by decide
  obtain ⟨rfl, ⟨⟩⟩ | h := some_of_ite h
  · exact ⟨by decide, reads_of_code (reads_parseData hq fun _ _ => ⟨rfl, rfl, rfl⟩)⟩
  obtain ⟨rfl, ⟨⟩⟩ | h := some_of_ite h
  · exact ⟨by decide, reads_parseNumber hq fun _ _ _ => ⟨rfl, rfl, rfl⟩⟩
  obtain ⟨rfl, ⟨⟩⟩ | h := some_of_ite h
  · exact ⟨by decide, reads_of_code (reads_parseData hq fun _ _ => ⟨rfl, rfl, rfl⟩)⟩
  obtain ⟨rfl, ⟨⟩⟩ | h := some_of_ite h
  · exact ⟨by decide, reads_parseNumber hq fun _ _ _ => ⟨rfl, rfl, rfl⟩⟩
  obtain ⟨rfl, ⟨⟩⟩ | h := some_of_ite h
  · exact ⟨by decide, reads_parsedEcho he fun _ => ⟨rfl, rfl, rfl⟩⟩
  obtain ⟨rfl, ⟨⟩⟩ | h := some_of_ite h
  · exact ⟨by decide, reads_parsedEcho he fun _ => ⟨rfl, rfl, rfl⟩⟩
  cases h

/-- **The accessors**, of every packet that is accepted. -/
theorem accessors_iff (b : Bytes) :
    (∀ m, MessageV4.deserialize b = some (.ok m) → b.head? = some m.typeId ∧
      b.tail.head? = some m.code ∧
      (m.len = b.length ↔ m.typeId ≠ 15 ∧ m.typeId ≠ 16)) ∧
    ∀ m, MessageV6.deserialize b = some (.ok m) → b.head? = some m.typeId ∧
      b.tail.head? = some m.code ∧
      m.len = b.length := by
  constructor
  · intro m hm
    obtain ⟨r, hr, hre⟩ := deserializeBy_reads MessageV4.reads_parsers b
    cases hr.symm.trans hm
    obtain ⟨t, c, rest, rfl, ht, hcode, hl⟩ := hre m rfl
    rw [ht, hcode]
    exact ⟨rfl, rfl, hl⟩
  · intro m hm
    obtain ⟨r, hr, hre⟩ := deserializeBy_reads MessageV6.reads_parsers b
    cases hr.symm.trans hm
    obtain ⟨t, c, rest, rfl, ht, hcode, hl⟩ := hre m rfl
    rw [ht, hcode]
    exact ⟨rfl, rfl, hl⟩

/-- It has twenty bytes, and says eight. -/
theorem information_length : ∃ m, MessageV4.deserialize (15 :: replicate 19 0) = some (.ok m) ∧
    m.len = 8 :=
  ⟨_, rfl, rfl⟩

/-! ## Headers of quoted packets -/

section

variable {packet : Bytes}

lemma skipIpv4Header_reads (packet : Bytes) : ∃ r, skipIpv4Header packet = some r ∧
    ∀ proto payload, r = some (proto, payload) → payload <:+ packet := by
  unfold skipIpv4Header
  split
  · exact ⟨none, rfl, fun _ _ h => by cases h⟩
  · rename_i hle
    match packet, hle with
    | x :: packet, hle =>
      simp only [getU8, bind_eq_bind, bind_some]
      split
      · exact ⟨none, rfl, fun _ _ h => by cases h⟩
      · rename_i hh
        simp only [Bool.or_eq_true, decide_eq_true_eq, not_or, Nat.not_lt] at hh
        simp only [length_cons, Nat.not_lt] at hle
        rw [advance_eq (by omega), bind_some]
        obtain ⟨proto, tail, ht⟩ : ∃ proto tail, packet.drop 8 = proto :: tail :=
          exists_cons_of_length_pos (by rw [length_drop]; omega)
        have hl := congrArg length ht
        rw [length_drop, length_cons] at hl
        simp only [ht, bind_some]
        rw [advance_eq (by omega), bind_some]
        refine ⟨_, rfl, ?_⟩
        rintro _ _ ⟨⟩
        have ht' : tail <:+ packet := (suffix_cons proto tail).trans (ht ▸ drop_suffix 8 packet)
        exact ((drop_suffix _ tail).trans ht').trans (suffix_cons x packet)

def isOptions (proto : UInt8) : Bool := proto == 0 || proto == 43 || proto == 60

inductive Overruns : UInt8 → Bytes → Prop
  | here {proto next len : UInt8} {rest : Bytes} : isOptions proto = true → rest.length < len.toNat →
      Overruns proto (next :: len :: rest)
  | options {proto next len : UInt8} {rest : Bytes} : isOptions proto = true → len.toNat ≤ rest.length →
      Overruns next (rest.drop len.toNat) → Overruns proto (next :: len :: rest)
  | fragment {next a b c d e f g : UInt8} {rest : Bytes} : Overruns next rest →
      Overruns 44 (next :: a :: b :: c :: d :: e :: f :: g :: rest)

/-- **Extension headers** end in the packet or overrun it. -/
lemma skipIpv6Extensions_reads (proto : UInt8) (packet : Bytes) :
    (skipIpv6Extensions proto packet = none ↔ Overruns proto packet) ∧
      ∀ proto' payload, skipIpv6Extensions proto packet = some (some (proto', payload)) →
        payload <:+ packet := by
  fun_induction skipIpv6Extensions proto packet with
  | case1 proto hp next len rest hle ih =>
    refine ⟨ih.1.trans ⟨.options hp hle, fun h => ?_⟩, fun proto' payload h => ?_⟩
    · cases h with
      | here _ hlt => exact absurd hle (Nat.not_le.mpr hlt)
      | options _ _ h => exact h
      | fragment => cases hp
    · have hsu := (ih.2 proto' payload h).trans (drop_suffix _ rest)
      exact hsu.trans ((suffix_cons len rest).trans (suffix_cons next _))
  | case2 proto hp next len rest hlt =>
    exact ⟨iff_of_true rfl (.here hp (Nat.not_le.mp hlt)), fun _ _ h => by cases h⟩
  | case3 proto packet hp hs =>
    refine ⟨iff_of_false (fun h => by cases h) fun h => ?_, fun _ _ h => by cases h⟩
    cases h with
    | here | options => exact hs _ _ _ rfl
    | fragment => cases hp
  | case4 proto hp hf next a b c d e f g rest ih =>
    obtain rfl := eq_of_beq hf
    refine ⟨ih.1.trans ⟨.fragment, fun h => ?_⟩, fun proto' payload h =>
      (ih.2 proto' payload h).trans ?_⟩
    · cases h with
      | here ho | options ho => exact absurd ho hp
      | fragment h => exact h
    · exact drop_suffix 8 (next :: a :: b :: c :: d :: e :: f :: g :: rest)
  | case5 proto packet hp hf hs =>
    refine ⟨iff_of_false (fun h => by cases h) fun h => ?_, fun _ _ h => by cases h⟩
    cases h with
    | here ho | options ho => exact hp ho
    | fragment => exact hs _ _ _ _ _ _ _ _ _ rfl
  | case6 proto packet hp hf =>
    refine ⟨iff_of_false (fun h => by cases h) fun h => ?_, ?_⟩
    · cases h with
      | here ho | options ho => exact hp ho
      | fragment => exact hf rfl
    · rintro _ _ ⟨⟩
      exact suffix_rfl

lemma skipIpv6Header_eq (h : 40 ≤ packet.length) :
    skipIpv6Header packet = skipIpv6Extensions (packet.getD 6 0) (packet.drop 40) := by
  obtain ⟨proto, tail, ht⟩ : ∃ proto tail, packet.drop 6 = proto :: tail :=
    exists_cons_of_length_pos (by rw [length_drop]; omega)
  have hp : packet.getD 6 0 = proto := by
    rw [getD_eq_getElem?_getD, ← head?_drop, ht]
    rfl
  have hd : tail.drop 33 = packet.drop 40 := by
    rw [← drop_succ_cons (a := proto), ← ht, drop_drop]
  have hl := congrArg length ht
  rw [length_drop, length_cons] at hl
  have ha : advance 33 tail = some (tail.drop 33) := advance_eq (by omega)
  simp only [skipIpv6Header, if_neg (Nat.not_lt.mpr h),
    advance_eq (show 4 + 2 ≤ packet.length by omega),
    bind_eq_bind, bind_some, ht, getU8, Nat.reduceAdd, ha, hd, hp]

def Ipv6Overruns (packet : Bytes) : Prop :=
  40 ≤ packet.length ∧ Overruns (packet.getD 6 0) (packet.drop 40)

lemma skipIpv6Header_reads (packet : Bytes) :
    (skipIpv6Header packet = none ↔ Ipv6Overruns packet) ∧
    ∀ proto payload, skipIpv6Header packet = some (some (proto, payload)) → payload <:+ packet := by
  by_cases h : 40 ≤ packet.length
  · rw [skipIpv6Header_eq h]
    obtain ⟨hn, hs⟩ := skipIpv6Extensions_reads (packet.getD 6 0) (packet.drop 40)
    refine ⟨hn.trans (and_iff_right h).symm, fun proto payload hso => ?_⟩
    exact (hs proto payload hso).trans (drop_suffix 40 packet)
  · rw [skipIpv6Header, if_pos (Nat.not_le.mp h)]
    exact ⟨iff_of_false (fun h => by cases h) fun ho => h ho.1, fun _ _ h => by cases h⟩

/-! ## The echo that is quoted -/

lemma deserializeEcho_ne_none (packet : Bytes) : deserializeEcho packet ≠ none := by
  unfold deserializeEcho
  split
  · exact fun h => by cases h
  · rename_i hl
    obtain ⟨a, b, c, d, e, f, g, data, rfl⟩ : ∃ a b c d e f g data,
        packet = a :: b :: c :: d :: e :: f :: g :: data := by
      match packet, Nat.not_lt.mp hl with
      | a :: b :: c :: d :: e :: f :: g :: data, _ => exact ⟨a, b, c, d, e, f, g, data, rfl⟩
    have ha : advance 2 (b :: c :: d :: e :: f :: g :: data) = some (d :: e :: f :: g :: data) :=
      advance_eq (by simp only [length_cons]; omega)
    simp only [getU8, ha, bind_eq_bind, bind_some]
    exact fun h => by cases h

lemma quotedEcho_ne_none (icmp echoRequest : UInt8) (header : Option (UInt8 × Bytes)) :
    quotedEcho icmp echoRequest header ≠ none := by
  unfold quotedEcho
  split
  · split
    · exact fun h => by cases h
    · exact deserializeEcho_ne_none _
  · exact fun h => by cases h

lemma bind_quotedEcho_eq_none : o >>= quotedEcho icmp echoRequest = none ↔ o = none := by
  cases o with
  | none => exact iff_of_true rfl rfl
  | some header => exact iff_of_false (quotedEcho_ne_none icmp echoRequest header) fun h => by cases h

lemma MessageV4.respondedEchoRequest_of_icmpData {m : MessageV4}
    (h : m.icmpData = some data) : m.respondedEchoRequest =
      skipIpv4Header data >>= quotedEcho 1 8 := by
  cases m <;> cases h <;> rfl

lemma MessageV6.respondedEchoRequest_of_icmpData {m : MessageV6}
    (h : m.icmpData = some data) : m.respondedEchoRequest =
      skipIpv6Header data >>= quotedEcho 58 128 := by
  cases m <;> cases h <;> rfl

lemma MessageV4.respondedEchoRequest_ne_none (m : MessageV4) : m.respondedEchoRequest ≠ none := by
  cases hd : m.icmpData with
  | none => cases m <;> cases hd <;> exact fun h => by cases h
  | some data =>
    rw [respondedEchoRequest_of_icmpData hd, Ne, bind_quotedEcho_eq_none]
    obtain ⟨r, hr, -⟩ := skipIpv4Header_reads data
    rw [hr]
    exact fun h => by cases h

lemma MessageV6.respondedEchoRequest_eq_none_iff (m : MessageV6) :
    m.respondedEchoRequest = none ↔ ∃ data, m.icmpData = some data ∧ Ipv6Overruns data := by
  cases hd : m.icmpData with
  | none =>
    refine iff_of_false ?_ (fun ⟨_, h, _⟩ => by cases h)
    cases m <;> cases hd <;> exact fun h => by cases h
  | some data =>
    rw [respondedEchoRequest_of_icmpData hd, bind_quotedEcho_eq_none, (skipIpv6Header_reads data).1]
    constructor
    · exact fun h => ⟨data, rfl, h⟩
    · rintro ⟨_, ⟨⟩, h⟩
      exact h

/-- **Safe reading.** Only a chain of extension headers that overruns its packet makes the
readers panic. -/
theorem parsing_safe_iff (packet : Bytes) :
    (∃ r, MessageV4.deserialize packet = some r ∧ ∀ m, r = .ok m → m.respondedEchoRequest ≠ none) ∧
    (∃ r, MessageV6.deserialize packet = some r ∧ ∀ m, r = .ok m →
      (m.respondedEchoRequest ≠ none ↔ ¬ ∃ data, m.icmpData = some data ∧ Ipv6Overruns data)) ∧
    (∃ r, skipIpv4Header packet = some r ∧ ∀ proto payload, r = some (proto, payload) →
      payload <:+ packet) ∧
    (skipIpv6Header packet ≠ none ↔ ¬ Ipv6Overruns packet) ∧
    ∀ proto payload, skipIpv6Header packet = some (some (proto, payload)) → payload <:+ packet := by
  refine ⟨?_, ?_, skipIpv4Header_reads packet, (skipIpv6Header_reads packet).1.not,
    (skipIpv6Header_reads packet).2⟩
  · obtain ⟨r, hr, -⟩ := deserializeBy_reads MessageV4.reads_parsers packet
    exact ⟨r, hr, fun m _ => m.respondedEchoRequest_ne_none⟩
  · obtain ⟨r, hr, -⟩ := deserializeBy_reads MessageV6.reads_parsers packet
    exact ⟨r, hr, fun m _ => m.respondedEchoRequest_eq_none_iff.not⟩

def overrunningQuote : Bytes := replicate 6 0 ++ 0 :: replicate 33 0 ++ [58, 255]

theorem overrunningQuote_panics :
    (∃ m, MessageV6.deserialize ([1, 0, 0, 0, 0, 0, 0, 0] ++ overrunningQuote) = some (.ok m) ∧
      m.respondedEchoRequest = none) ∧ skipIpv6Header overrunningQuote = none := by
  have ho : Ipv6Overruns overrunningQuote := ⟨by decide, .here rfl (by decide)⟩
  refine ⟨⟨.destinationUnreachable 0 overrunningQuote, rfl, ?_⟩, (skipIpv6Header_reads _).1.mpr ho⟩
  exact (MessageV6.respondedEchoRequest_eq_none_iff _).mpr ⟨_, rfl, ho⟩

end

end TrustTunnel.IcmpUtils
