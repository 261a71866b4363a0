import TrustTunnel.Authentication
import TrustTunnel.Lib.BigEndian
import TrustTunnel.Lib.Items
import TrustTunnel.Text

/-!
# Deep links (`deeplink/src`)

Entries with tag, length and value, as base64url text. The readers return what follows instead of
an offset; `hex` and `base64` are parameters (`Crates`).
-/

namespace TrustTunnel.DeepLink

open Io Lib
open Lib.Http1 (utf8)

/-- `hex::decode` and the engine `URL_SAFE_NO_PAD`. -/
structure Crates where
  hexDecode : String → Except String Bytes
  base64Encode : Bytes → String
  base64Decode : String → Except String Bytes

inductive DeepLinkError where
  | invalidBase64 (text : String)
  | truncatedTlv (tag : UInt8) (expected got : Nat)
  | missingRequiredField (field : String)
  | invalidSubscriptionUrl (url : String)
  | invalidProtocol (byte : UInt8)
  | unsupportedVersion (found maxSupported : Nat)
  | truncatedListEntry (expected got : Nat)
  | varintOverflow (value : Nat)
  | invalidCertificate (text : String)
  | invalidUtf8 (bytes : Bytes)
  | invalidAddress (text : String)
  | invalidBoolean (byte : UInt8)
  | invalidScheme (text : String)
  | io (e : IoError)
  deriving DecidableEq

/-! ## Types (`types.rs`) -/

inductive TlvTag where
  | version
  | hostname
  | address
  | customSni
  | hasIpv6
  | username
  | password
  | skipVerification
  | certificate
  | upstreamProtocol
  | antiDpi
  | clientRandomPrefix
  | name
  | dnsUpstreams
  | subscriptionUrl
  | clientRandomAuthKey
  deriving DecidableEq

namespace TlvTag

def asU8 : TlvTag → UInt8
  | version => 0x00
  | hostname => 0x01
  | address => 0x02
  | customSni => 0x03
  | hasIpv6 => 0x04
  | username => 0x05
  | password => 0x06
  | skipVerification => 0x07
  | certificate => 0x08
  | upstreamProtocol => 0x09
  | antiDpi => 0x0a
  | clientRandomPrefix => 0x0b
  | name => 0x0c
  | dnsUpstreams => 0x0d
  | subscriptionUrl => 0x0e
  | clientRandomAuthKey => 0x0f

def fromU8 (value : UInt8) : Option TlvTag :=
  match value.toNat with
  | 0x00 => some version
  | 0x01 => some hostname
  | 0x02 => some address
  | 0x03 => some customSni
  | 0x04 => some hasIpv6
  | 0x05 => some username
  | 0x06 => some password
  | 0x07 => some skipVerification
  | 0x08 => some certificate
  | 0x09 => some upstreamProtocol
  | 0x0a => some antiDpi
  | 0x0b => some clientRandomPrefix
  | 0x0c => some name
  | 0x0d => some dnsUpstreams
  | 0x0e => some subscriptionUrl
  | 0x0f => some clientRandomAuthKey
  | _ => none

end TlvTag

inductive Protocol where
  | http2
  | http3
  deriving DecidableEq

def Protocol.asU8 : Protocol → UInt8
  | http2 => 0x01
  | http3 => 0x02

def Protocol.fromU8 (value : UInt8) : Except DeepLinkError Protocol :=
  match value.toNat with
  | 0x01 => .ok .http2
  | 0x02 => .ok .http3
  | _ => .error (.invalidProtocol value)

def currentVersion : Nat := 2

structure DeepLinkConfig where
  hostname : Option String
  addresses : List String
  username : Option String
  password : Option String
  clientRandomPrefix : Option String
  clientRandomAuthKey : Option String
  customSni : Option String
  hasIpv6 : Bool
  skipVerification : Bool
  certificate : Option Bytes
  upstreamProtocol : Protocol
  antiDpi : Bool
  name : Option String
  dnsUpstreams : List String
  subscriptionUrl : Option String
  deriving DecidableEq

/-- `is_none_or(str::is_empty)`. -/
def isMissing (field : Option String) : Bool := field.all (fun s => s.isEmpty)

def DeepLinkConfig.validate (config : DeepLinkConfig) : Except DeepLinkError Unit :=
  match config.subscriptionUrl with
  | some url =>
    if Text.startsWith "https://" url then .ok () else .error (.invalidSubscriptionUrl url)
  | none =>
    if isMissing config.hostname then .error (.missingRequiredField "hostname")
    else if config.addresses.isEmpty then .error (.missingRequiredField "addresses")
    else if isMissing config.username then .error (.missingRequiredField "username")
    else if isMissing config.password then .error (.missingRequiredField "password")
    else .ok ()

structure DeepLinkConfigBuilder where
  hostname : Option String
  addresses : Option (List String)
  username : Option String
  password : Option String
  clientRandomPrefix : Option String
  clientRandomAuthKey : Option String
  customSni : Option String
  hasIpv6 : Option Bool
  skipVerification : Option Bool
  certificate : Option Bytes
  upstreamProtocol : Option Protocol
  antiDpi : Option Bool
  name : Option String
  dnsUpstreams : Option (List String)
  subscriptionUrl : Option String

def checkHex (x : Crates) (what : String) (field : Option String) : Except DeepLinkError Unit :=
  match field with
  | none => .ok ()
  | some text =>
    if text.isEmpty then .ok ()
    else
      match x.hexDecode text with
      | .ok _ => .ok ()
      | .error e => .error (.invalidAddress (what ++ " must be valid hex: " ++ e))

/-- The configuration `build` makes of the fields. -/
def DeepLinkConfigBuilder.config (b : DeepLinkConfigBuilder) : DeepLinkConfig :=
  { hostname := b.hostname
    addresses := b.addresses.getD []
    username := b.username
    password := b.password
    clientRandomPrefix := b.clientRandomPrefix
    clientRandomAuthKey := b.clientRandomAuthKey
    customSni := b.customSni
    hasIpv6 := b.hasIpv6.getD true
    skipVerification := b.skipVerification.getD false
    certificate := b.certificate
    upstreamProtocol := b.upstreamProtocol.getD .http2
    antiDpi := b.antiDpi.getD false
    name := b.name
    dnsUpstreams := b.dnsUpstreams.getD []
    subscriptionUrl := b.subscriptionUrl }

def DeepLinkConfigBuilder.build (x : Crates) (b : DeepLinkConfigBuilder) :
    Except DeepLinkError DeepLinkConfig := do
  checkHex x "client_random_prefix" b.clientRandomPrefix
  checkHex x "client_random_auth_key" b.clientRandomAuthKey
  b.config.validate
  return b.config

/-! ## Integers (`varint.rs`) -/

def encodeVarint (value : Nat) : Except DeepLinkError Bytes :=
  if value ≤ 0x3f then .ok [UInt8.ofNat value]
  else if value ≤ 0x3fff then .ok (bigEndian 2 (value ||| 0x4000))
  else if value ≤ 0x3fffffff then .ok (bigEndian 4 (value ||| 0x80000000))
  else if value ≤ 0x3fffffffffffffff then .ok (bigEndian 8 (value ||| 0xc000000000000000))
  else .error (.varintOverflow value)

def decodeVarintOf (size mask : Nat) (truncated : String) (data : Bytes) :
    Except IoError (Nat × Bytes) :=
  if data.length < size then .error ⟨.unexpectedEof, truncated⟩
  else .ok (ofBigEndian (data.take size) &&& mask, data.drop size)

def decodeVarint (data : Bytes) : Except IoError (Nat × Bytes) :=
  match data with
  | [] => .error ⟨.unexpectedEof, "unexpected end of data while reading varint"⟩
  | first :: rest =>
    match (first >>> 6).toNat with
    | 0 => .ok ((first &&& 0x3f).toNat, rest)
    | 1 => decodeVarintOf 2 0x3fff "truncated 2-byte varint" data
    | 2 => decodeVarintOf 4 0x3fffffff "truncated 4-byte varint" data
    | _ => decodeVarintOf 8 0x3fffffffffffffff "truncated 8-byte varint" data

/-! ## Encoding (`encode.rs`) -/

def encodeTlv (tag : TlvTag) (value : Bytes) : Except DeepLinkError Bytes := do
  let result ← encodeVarint tag.asU8.toNat
  let length ← encodeVarint value.length
  return result ++ length ++ value

def encodeStringField (tag : TlvTag) (value : String) : Except DeepLinkError Bytes :=
  encodeTlv tag (utf8 value)

def encodeBoolField (tag : TlvTag) (value : Bool) : Except DeepLinkError Bytes :=
  encodeTlv tag (if value then [0x01] else [0x00])

def encodeProtocolField (protocol : Protocol) : Except DeepLinkError Bytes :=
  encodeTlv .upstreamProtocol [protocol.asU8]

def encodeStringArray (strings : List String) : Except DeepLinkError Bytes :=
  strings.foldlM (fun buf s => do return buf ++ (← encodeVarint (utf8 s).length) ++ utf8 s) []

/-- The fields in their order; each is one `payload.extend`. -/
def sections (config : DeepLinkConfig) : List (Except DeepLinkError Bytes) :=
  [(encodeVarint currentVersion) >>= encodeTlv .version]
    ++ (config.hostname.map (encodeStringField .hostname)).toList
    ++ (config.username.map (encodeStringField .username)).toList
    ++ (config.password.map (encodeStringField .password)).toList
    ++ config.addresses.map (encodeStringField .address)
    ++ ((config.clientRandomPrefix.filter (fun s => !s.isEmpty)).map
        (encodeStringField .clientRandomPrefix)).toList
    ++ ((config.clientRandomAuthKey.filter (fun s => !s.isEmpty)).map
        (encodeStringField .clientRandomAuthKey)).toList
    ++ (config.customSni.map (encodeStringField .customSni)).toList
    ++ (if config.hasIpv6 then [] else [encodeBoolField .hasIpv6 false])
    ++ (if config.skipVerification then [encodeBoolField .skipVerification true] else [])
    ++ (if config.antiDpi then [encodeBoolField .antiDpi true] else [])
    ++ (config.certificate.map (encodeTlv .certificate)).toList
    ++ (if config.upstreamProtocol ≠ .http2 then [encodeProtocolField config.upstreamProtocol] else [])
    ++ (config.name.map (encodeStringField .name)).toList
    ++ (if config.dnsUpstreams.isEmpty then []
        else [encodeStringArray config.dnsUpstreams >>= encodeTlv .dnsUpstreams])
    ++ (config.subscriptionUrl.map (encodeStringField .subscriptionUrl)).toList

def extendAll {ε : Type} (parts : List (Except ε Bytes)) : Except ε Bytes :=
  parts.foldlM (fun payload part => do return payload ++ (← part)) []

def encodeTlvPayload (config : DeepLinkConfig) : Except DeepLinkError Bytes := do
  config.validate
  extendAll (sections config)

def encode (x : Crates) (config : DeepLinkConfig) : Except DeepLinkError String := do
  let payload ← encodeTlvPayload config
  return "tt://?" ++ x.base64Encode payload

/-! ## Decoding (`decode.rs`) -/

/-- `String::from_utf8`. -/
def decodeString (data : Bytes) : Except DeepLinkError String :=
  match String.fromUTF8? ⟨data.toArray⟩ with
  | some s => .ok s
  | none => .error (.invalidUtf8 data)

/-- The body of the loop in `decode_string_array`, up to the slice. -/
def nextListEntry (data : Bytes) : Except DeepLinkError (Bytes × Bytes) := do
  let (len, data) ← (decodeVarint data).mapError .io
  if data.length < len then .error (.truncatedListEntry len data.length)
  else return (data.take len, data.drop len)

def decodeStringArray (data : Bytes) : Except DeepLinkError (List String) :=
  Items.loop nextListEntry (fun result entry => do return result ++ [← decodeString entry])
    data.length [] data

def decodeBool (data : Bytes) : Except DeepLinkError Bool :=
  match data with
  | [byte] =>
    match byte.toNat with
    | 0x00 => .ok false
    | 0x01 => .ok true
    | _ => .error (.invalidBoolean byte)
  | _ => .error (.invalidBoolean (data.headD 0xff))

def decodeProtocol (data : Bytes) : Except DeepLinkError Protocol :=
  match data with
  | [byte] => Protocol.fromU8 byte
  | _ => .error (.invalidProtocol (data.headD 0xff))

/-- `TlvParser::next_field`, where there is something left. -/
def nextField (data : Bytes) : Except DeepLinkError ((Option TlvTag × Bytes) × Bytes) := do
  let (tagU64, data) ← (decodeVarint data).mapError .io
  let tag := TlvTag.fromU8 (UInt8.ofNat tagU64)
  let (length, data) ← (decodeVarint data).mapError .io
  if data.length < length then .error (.truncatedTlv (UInt8.ofNat tagU64) length data.length)
  else return ((tag, data.take length), data.drop length)

/-- The values the variables of `decode_tlv_payload` start with. -/
def initial : DeepLinkConfig :=
  { hostname := none
    addresses := []
    username := none
    password := none
    clientRandomPrefix := none
    clientRandomAuthKey := none
    customSni := none
    hasIpv6 := true
    skipVerification := false
    certificate := none
    upstreamProtocol := .http2
    antiDpi := false
    name := none
    dnsUpstreams := []
    subscriptionUrl := none }

def requireHex (x : Crates) (what text : String) : Except DeepLinkError Unit :=
  match x.hexDecode text with
  | .ok _ => .ok ()
  | .error e => .error (.invalidAddress (what ++ " must be valid hex: " ++ e))

/-- The arm of `Version`. -/
def decodeVersionField (value : Bytes) : Except DeepLinkError Unit := do
  let (v, _) ← (decodeVarint value).mapError .io
  if currentVersion < v then .error (.unsupportedVersion v currentVersion) else return ()

/-- The arm of `ClientRandomPrefix`. -/
def decodePrefixField (x : Crates) (value : Bytes) : Except DeepLinkError String := do
  let text ← decodeString value
  let (prefixPart, maskPart) := (Text.splitOnce '/' text).getD (text, "")
  requireHex x "client_random_prefix" prefixPart
  requireHex x "client_random_prefix mask" maskPart
  return text

/-- The arm of `ClientRandomAuthKey`. -/
def decodeAuthKeyField (x : Crates) (value : Bytes) : Except DeepLinkError String := do
  let authKey ← decodeString value
  requireHex x "client_random_auth_key" authKey
  return authKey

/-- The body of the loop in `decode_tlv_payload`; unknown tags are ignored. -/
def onField (x : Crates) (config : DeepLinkConfig) (field : Option TlvTag × Bytes) :
    Except DeepLinkError DeepLinkConfig :=
  let value := field.2
  match field.1 with
  | none => .ok config
  | some .version => do
    decodeVersionField value
    return config
  | some .hostname => do return { config with hostname := some (← decodeString value) }
  | some .address => do
    return { config with addresses := config.addresses ++ [← decodeString value] }
  | some .customSni => do return { config with customSni := some (← decodeString value) }
  | some .hasIpv6 => do return { config with hasIpv6 := ← decodeBool value }
  | some .username => do return { config with username := some (← decodeString value) }
  | some .password => do return { config with password := some (← decodeString value) }
  | some .skipVerification => do return { config with skipVerification := ← decodeBool value }
  | some .certificate => .ok { config with certificate := some value }
  | some .upstreamProtocol => do return { config with upstreamProtocol := ← decodeProtocol value }
  | some .antiDpi => do return { config with antiDpi := ← decodeBool value }
  | some .clientRandomPrefix => do
    return { config with clientRandomPrefix := some (← decodePrefixField x value) }
  | some .clientRandomAuthKey => do
    return { config with clientRandomAuthKey := some (← decodeAuthKeyField x value) }
  | some .name => do return { config with name := some (← decodeString value) }
  | some .dnsUpstreams => do return { config with dnsUpstreams := ← decodeStringArray value }
  | some .subscriptionUrl => do
    return { config with subscriptionUrl := some (← decodeString value) }

def decodeTlvPayload (x : Crates) (payload : Bytes) : Except DeepLinkError DeepLinkConfig := do
  let config ← Items.loop nextField (onField x) payload.length initial payload
  config.validate
  return config

def decode (x : Crates) (uri : String) : Except DeepLinkError DeepLinkConfig := do
  if !Text.startsWith "tt://" uri then
    .error (.invalidScheme (String.ofList (uri.toList.take 20)))
  else
    match (Authentication.stripPrefix "tt://?" uri).or (Authentication.stripPrefix "tt://" uri) with
    | none => .error (.invalidScheme uri)
    | some encoded => do
      let payload ← (x.base64Decode encoded).mapError .invalidBase64
      decodeTlvPayload x payload

end TrustTunnel.DeepLink
