import TrustTunnel.Lib.Dialogue
import TrustTunnel.Socks5Messages

/-!
# The SOCKS5 handshake (`socks5_client.rs`)

`connect_inner` with its bytes, as a dialogue with the server.
-/

namespace TrustTunnel.Socks5Client.Handshake

open Io NetUtils HttpUdpCodec
open Lib Lib.Dialogue
open Lib.Http1 (utf8)

/-! ## Methods, requests and outcomes -/

inductive AuthenticationMethod where
  | noAuth
  | usernamePassword
  | extendedAuth
  | noAcceptable

def AuthenticationMethod.toU8 : AuthenticationMethod → UInt8
  | .noAuth => 0x00
  | .usernamePassword => 0x02
  | .extendedAuth => 0x80
  | .noAcceptable => 0xff

def AuthenticationMethod.fromU8 (x : UInt8) : Option AuthenticationMethod :=
  match x.toNat with
  | 0x00 => some .noAuth
  | 0x02 => some .usernamePassword
  | 0x80 => some .extendedAuth
  | 0xff => some .noAcceptable
  | _ => none

def toMethod : Authentication → AuthenticationMethod
  | .usernamePassword .. => .usernamePassword
  | .extended _ => .extendedAuth

inductive Request where
  | connect (destination : Address) (port : UInt16)
  | udpAssociate

def Request.commandCode : Request → UInt8
  | .connect .. => 0x01
  | .udpAssociate => 0x03

def replyCodeFromU8 (x : UInt8) : Option ReplyCode :=
  match x.toNat with
  | 0x00 => some .succeeded
  | 0x01 => some .generalFailure
  | 0x02 => some .notAllowed
  | 0x03 => some .networkUnreachable
  | 0x04 => some .hostUnreachable
  | 0x05 => some .connectionRefused
  | 0x06 => some .ttlExpired
  | 0x07 => some .commandNotSupported
  | 0x08 => some .addressTypeNotSupported
  | _ => none

/-- `ConnectResult`. -/
inductive Outcome where
  | tcpConnection
  | udpAssociation
  | failure (code : ReplyCode)

inductive Message where
  | selection
  | authentication
  | request

/-- What the UDP socket calls give, and the text of a `Utf8Error`. -/
structure System where
  bind : Except IoError SocketAddr
  connect : SocketAddr → Except IoError Unit
  utf8Error : Bytes → String

abbrev Step := Dialogue Message Error Outcome

def fail (e : Error) : Step := .done (.error e)

/-! ## Writing (`SocksWriter`) -/

/-- Nothing is written where the message cannot be made. -/
def send (kind : Message) (message : Except Error Bytes) (next : Step) : Step :=
  match message with
  | .error e => fail e
  | .ok bytes => .write kind bytes next

def selectionMessage (methods : List AuthenticationMethod) : Except Error Bytes :=
  if methods.length > 255 then .error (.protocol "Too many methods")
  else .ok (0x05 :: UInt8.ofNat methods.length :: methods.map AuthenticationMethod.toU8)

def requestMessage (command : UInt8) (destination : Address) (port : UInt16) : Except Error Bytes :=
  match destination with
  | .ipAddress ip => .ok ([0x05, command, 0x00, addressType ip] ++ ip.octets ++ putU16 port)
  | .domainName name =>
    if (utf8 name).length ≤ maxDomainNameLength then
      .ok ([0x05, command, 0x00, 0x03, UInt8.ofNat (utf8 name).length] ++ utf8 name ++ putU16 port)
    else .error (.protocol "Too long domain name")

/-! ## Reading (`SocksReader`) -/

def readU8 (next : UInt8 → Step) : Step := .read 1 fun bytes => next (bytes.headD 0)

def readU16 (next : UInt16 → Step) : Step :=
  .read 2 fun bytes => next (beU16 (bytes.headD 0) (bytes.getLastD 0))

/-- A byte that has to be `expected`. -/
def expectU8 (expected : UInt8) (unexpected : String → Error) (next : Step) : Step :=
  readU8 fun x => if x ≠ expected then fail (unexpected (toString x.toNat)) else next

def readVersion : Step → Step :=
  expectU8 0x05 fun x => .protocol ("Unexpected protocol version: " ++ x)

def readSelectionResponse (next : AuthenticationMethod → Step) : Step :=
  readVersion <| readU8 fun method =>
    match AuthenticationMethod.fromU8 method with
    | some method => next method
    | none => fail (.protocol ("Unexpected authentication method: " ++ toString method.toNat))

def readAuthenticationResponse (next : Step) : Step :=
  expectU8 0x01 (fun x => .protocol ("Unexpected authentication version: " ++ x)) <|
    expectU8 0x00 (fun x => .authentication ("Status=" ++ x)) next

def readIp (length : Nat) (next : Address → Step) : Step :=
  .read length fun bytes =>
    match ipOfOctets bytes with
    | some ip => next (.ipAddress ip)
    -- not for the lengths of addresses
    | none => fail (.protocol "")

def readAddress (system : System) (next : Address → Step) : Step :=
  readU8 fun type =>
    match type.toNat with
    | 0x01 => readIp 4 next
    | 0x04 => readIp 16 next
    | 0x03 => readU8 fun length => .read length.toNat fun buf =>
      match fromUtf8 buf with
      | some name => next (.domainName name)
      | none => fail (.protocol ("Domain name parse failure: " ++ system.utf8Error buf))
    | x => fail (.protocol ("Unexpected address type: " ++ toString x))

def readReply (system : System) (next : ReplyCode → Address → UInt16 → Step) : Step :=
  readVersion <| readU8 fun code =>
    match replyCodeFromU8 code with
    | none => fail (.protocol ("Unexpected reply code: " ++ toString code.toNat))
    | some code =>
      expectU8 0x00 (fun x => .protocol ("Unexpected reserved field value: " ++ x)) <|
        readAddress system fun address => readU16 fun port => next code address port

/-! ## The handshake -/

/-- The end of `connect_inner`, once the reply is read. -/
def finish (system : System) (request : Request) (code : ReplyCode) (boundAddress : Address)
    (boundPort : UInt16) : Step :=
  if code ≠ .succeeded then .done (.ok (.failure code))
  else
    match request, boundAddress with
    | .connect .., _ => .done (.ok .tcpConnection)
    | .udpAssociate, .domainName name => fail (.protocol ("Unexpected bound address: " ++ name))
    | .udpAssociate, .ipAddress ip =>
      match system.connect (.new ip boundPort) with
      | .error e => fail (.io e)
      | .ok () => .done (.ok .udpAssociation)

/-- `connect_inner` from where the request is made. -/
def sendRequest (system : System) (request : Request) : Step :=
  let send destination port := send .request (requestMessage request.commandCode destination port) <|
    readReply system (finish system request)
  match request with
  | .connect destination port => send destination port
  | .udpAssociate =>
    match system.bind with
    | .error e => fail (.io e)
    | .ok bound => send (.ipAddress bound.ip) bound.port

def authenticate (auth : Authentication) (next : Step) : Step :=
  send .authentication (writeAuthenticationMessage auth) (readAuthenticationResponse next)

def connectInner (system : System) (auth : Option Authentication) (request : Request) : Step :=
  send .selection (selectionMessage [(auth.map toMethod).getD .noAuth, .noAuth]) <|
    readSelectionResponse fun method =>
      match method, auth with
      | .noAuth, _ => sendRequest system request
      | .usernamePassword, some (.usernamePassword username password) =>
        authenticate (.usernamePassword username password) (sendRequest system request)
      | .extendedAuth, some (.extended values) =>
        authenticate (.extended values) (sendRequest system request)
      | .noAcceptable, _ => fail (.authentication "Server rejected offered authentication methods")
      | _, _ => fail (.authentication "Server selected non-offered authentication method")

/-! ## Its order -/

/-- The server wants no authentication, or accepted the credentials. -/
def Admitted (auth : Option Authentication) (got : Bytes) : Prop :=
  got = [0x05, 0x00] ∨ ∃ a, auth = some a ∧ got = [0x05, (toMethod a).toU8, 0x01, 0x00]

def May (auth : Option Authentication) (got : Bytes) : Message → Prop
  | .selection => got = []
  | .authentication => ∃ a, auth = some a ∧ got = [0x05, (toMethod a).toU8]
  | .request => Admitted auth got

/-- A type, and as many bytes as it or the next byte says. -/
def IsAddress (bytes : Bytes) : Prop :=
  (∃ ip, bytes = 0x01 :: ip ∧ ip.length = 4) ∨ (∃ ip, bytes = 0x04 :: ip ∧ ip.length = 16) ∨
    ∃ n name, bytes = 0x03 :: n :: name ∧ name.length = n.toNat

/-- A complete reply that says the request succeeded. -/
def IsSuccess (reply : Bytes) : Prop :=
  ∃ address port, reply = [0x05, 0x00, 0x00] ++ (address ++ port) ∧ IsAddress address ∧
    port.length = 2

def Ends (auth : Option Authentication) (got : Bytes) (outcome : Outcome) : Prop :=
  outcome = .tcpConnection → ∃ hello reply, got = hello ++ reply ∧ Admitted auth hello ∧ IsSuccess reply

section

variable {system : System} {auth : Option Authentication} {got : Bytes} {request : Request}

lemma respects_readU8 (h : ∀ x, Respects (May auth) (Ends auth) (got ++ [x]) (next x)) :
    Respects (May auth) (Ends auth) got (readU8 next) := by
  intro bytes hl
  match bytes, hl with
  | [x], _ => exact h x

lemma respects_expectU8 (h : Respects (May auth) (Ends auth) (got ++ [expected]) next) :
    Respects (May auth) (Ends auth) got (expectU8 expected unexpected next) := by
  refine respects_readU8 fun x => ?_
  split
  · trivial
  · rename_i hx
    exact not_not.mp hx ▸ h

lemma respects_readIp (h : ∀ ip bytes, bytes.length = length →
      Respects (May auth) (Ends auth) (got ++ bytes) (next (.ipAddress ip))) :
    Respects (May auth) (Ends auth) got (readIp length next) := by
  intro bytes hl
  simp only
  split
  · exact h _ bytes hl
  · trivial

lemma respects_readAddress (h : ∀ address bytes, IsAddress bytes →
      Respects (May auth) (Ends auth) (got ++ bytes) (next address)) :
    Respects (May auth) (Ends auth) got (readAddress system next) := by
  refine respects_readU8 fun type => ?_
  split
  · rename_i ht
    obtain rfl : type = 0x01 := UInt8.toNat_inj.mp ht
    refine respects_readIp fun ip bytes hl => ?_
    rw [List.append_assoc]
    exact h _ _ (.inl ⟨bytes, rfl, hl⟩)
  · rename_i ht
    obtain rfl : type = 0x04 := UInt8.toNat_inj.mp ht
    refine respects_readIp fun ip bytes hl => ?_
    rw [List.append_assoc]
    exact h _ _ (.inr (.inl ⟨bytes, rfl, hl⟩))
  · rename_i ht
    obtain rfl : type = 0x03 := UInt8.toNat_inj.mp ht
    refine respects_readU8 fun n name hl => ?_
    simp only
    split
    · rw [List.append_assoc, List.append_assoc]
      exact h _ _ (.inr (.inr ⟨n, name, rfl, hl⟩))
    · trivial
  · trivial

lemma replyCode_succeeded (h : replyCodeFromU8 x = some .succeeded) : x = 0x00 := by
  unfold replyCodeFromU8 at h
  split at h
  all_goals first
    | exact UInt8.toNat_inj.mp ‹_›
    | cases h

lemma respects_sendRequest (hg : Admitted auth got) :
    Respects (May auth) (Ends auth) got (sendRequest system request) := by
  have hr : Respects (May auth) (Ends auth) got (readReply system (finish system request)) := by
    unfold readReply readVersion
    refine respects_expectU8 (respects_readU8 fun x => ?_)
    split
    · trivial
    · rename_i hcode
      refine respects_expectU8 (respects_readAddress fun address bytes ha port hp => ?_)
      unfold finish
      split
      · exact fun h => (nomatch h)
      · rename_i hs
        obtain rfl := not_not.mp hs
        obtain rfl := replyCode_succeeded hcode
        split
        · refine fun _ => ⟨got, [0x05, 0x00, 0x00] ++ (bytes ++ port), ?_, hg, bytes, port, rfl,
            ha, hp⟩
          simp
        · trivial
        · dsimp only
          split
          · trivial
          · exact fun h => (nomatch h)
  have hse : ∀ message, Respects (May auth) (Ends auth) got
      (send .request message (readReply system (finish system request))) := by
    intro message
    cases message with
    | error => trivial
    | ok => exact ⟨hg, hr⟩
  unfold sendRequest
  split
  · exact hse _
  · split
    · trivial
    · exact hse _

lemma respects_authenticate (ha : auth = some a) :
    Respects (May auth) (Ends auth) [0x05, (toMethod a).toU8]
      (authenticate a (sendRequest system request)) := by
  unfold authenticate
  cases writeAuthenticationMessage a with
  | error => trivial
  | ok =>
    refine ⟨⟨a, ha, rfl⟩, respects_expectU8 (respects_expectU8 (respects_sendRequest ?_))⟩
    exact .inr ⟨a, ha, rfl⟩

lemma method_of_fromU8 (h : AuthenticationMethod.fromU8 x = some method) : x = method.toU8 := by
  unfold AuthenticationMethod.fromU8 at h
  split at h
  all_goals first
    | cases h; exact UInt8.toNat_inj.mp ‹_›
    | cases h

lemma respects_connectInner (system : System) (auth : Option Authentication) (request : Request) :
    Respects (May auth) (Ends auth) [] (connectInner system auth request) := by
  unfold connectInner readSelectionResponse readVersion
  refine ⟨rfl, respects_expectU8 (respects_readU8 fun x => ?_)⟩
  split
  · rename_i hm
    obtain rfl := method_of_fromU8 hm
    dsimp only
    split
    · exact respects_sendRequest (.inl rfl)
    · exact respects_authenticate rfl
    · exact respects_authenticate rfl
    · trivial
    · trivial
  · trivial

end

/-- **Order of the handshake**, with any server, pieces and failures: messages come after what
must come before, and a connection after a complete reply, exactly read. -/
theorem connectInner_ordered (system : System) (auth : Option Authentication) (request : Request)
    (fails : Message → Option Error) (ended : Error) (pieces : List Bytes) :
    let x := run fails ended (connectInner system auth request) pieces
    (∀ before kind bytes after, x.1 = before ++ .wrote kind bytes :: after →
        May auth (received before) kind) ∧
      (x.2.1 = .ok .tcpConnection → ∃ hello reply, received x.1 = hello ++ reply ∧
        Admitted auth hello ∧ IsSuccess reply ∧
        pieces.flatten = hello ++ (reply ++ x.2.2.flatten)) := by
  obtain ⟨hw, he⟩ := run_respects fails ended
    (respects_connectInner system auth request) pieces
  refine ⟨hw, fun hd => ?_⟩
  obtain ⟨hf, hfl⟩ := he _ hd
  obtain ⟨hello, reply, hg, hh, hr⟩ := hf rfl
  rw [List.nil_append] at hg
  exact ⟨hello, reply, hg, hh, hr, by rw [hfl, hg, List.append_assoc]⟩

end TrustTunnel.Socks5Client.Handshake
