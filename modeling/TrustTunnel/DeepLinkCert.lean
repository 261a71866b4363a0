import TrustTunnel.DeepLink

/-!
# Certificates in links

`deeplink/src/cert.rs`, with a `usize` of 64 bits and the rest of the data for its offset.
-/

namespace TrustTunnel.DeepLink

open Io Lib

/-- `{:02X}`. -/
def hexUpper (n : Nat) : String :=
  let digits := (Nat.toDigits 16 n).map Char.toUpper
  String.ofList (List.replicate (2 - digits.length) '0' ++ digits)

def readAsn1Length (data : Bytes) : Except DeepLinkError (Nat × Bytes) :=
  match data with
  | [] => .error (.invalidCertificate "unexpected end of data in ASN.1 length")
  | first :: rest =>
    if first < 0x80 then .ok (first.toNat, rest)
    else
      let numBytes := (first &&& 0x7f).toNat
      if numBytes = 0 ∨ rest.length < numBytes then
        .error (.invalidCertificate "invalid ASN.1 length encoding")
      else
        let length := (rest.take numBytes).foldl
          (fun length b => (length <<< 8) % 2 ^ 64 ||| b.toNat) 0
        .ok (length, rest.drop numBytes)

/-- The body of the loop in `split_der_certs`. -/
def nextCert (total : Nat) (data : Bytes) : Except DeepLinkError (Bytes × Bytes) :=
  match data with
  | [] => .error (.invalidCertificate "unexpected end of data")
  | first :: rest =>
    if first ≠ 0x30 then
      .error (.invalidCertificate ("expected ASN.1 SEQUENCE (0x30) at offset "
        ++ toString (total - data.length) ++ ", got 0x" ++ hexUpper first.toNat))
    else do
      let (bodyLen, body) ← readAsn1Length rest
      let hdrEnd := total - body.length
      if 2 ^ 64 ≤ hdrEnd + bodyLen then .error (.invalidCertificate "certificate length overflow")
      else if total < hdrEnd + bodyLen then .error (.invalidCertificate "truncated DER certificate")
      else return (data.take (data.length - body.length + bodyLen), body.drop bodyLen)

def splitDerCerts (data : Bytes) : Except DeepLinkError (List Bytes) :=
  Items.loop (nextCert data.length) (fun certs cert => .ok (certs ++ [cert])) data.length [] data

def pemBlock (base64 : Bytes → String) (der : Bytes) : String :=
  let lines := ((base64 der).toList.toChunks 64).map String.ofList
  "-----BEGIN CERTIFICATE-----\n" ++ "\n".intercalate lines ++ "\n-----END CERTIFICATE-----"

def derToPem (base64 : Bytes → String) (der : Bytes) : Except DeepLinkError String := do
  let certs ← splitDerCerts der
  return "\n".intercalate (certs.map (pemBlock base64)) ++ "\n"

def beginLine : String := "-----BEGIN CERTIFICATE-----"

def endLine : String := "-----END CERTIFICATE-----"

/-- `certs` is `rustls_pemfile::certs`. -/
def pemToDer (certs : String → Except String (List Bytes)) (pem : String) :
    Except DeepLinkError Bytes :=
  match certs pem with
  | .error e => .error (.invalidCertificate ("PEM parsing failed: " ++ e))
  | .ok [] => .error (.invalidCertificate "no PEM blocks found in certificate field")
  | .ok certs => .ok certs.flatten

/-- **Lengths in the arithmetic of `usize`**: the high bits are lost. -/
lemma ofBigEndian_wrapped (bytes : Bytes) (n : Nat) :
    bytes.foldl (fun length b => (length <<< 8) % 2 ^ 64 ||| b.toNat) (n % 2 ^ 64) =
      bytes.foldl (fun n b => n * 256 + b.toNat) n % 2 ^ 64 := by
  induction bytes generalizing n with
  | nil => rfl
  | cons b bytes ih =>
    have hb : b.toNat < 2 ^ 8 := b.toNat_lt
    have hs : ((n % 2 ^ 64) <<< 8) % 2 ^ 64 ||| b.toNat = (n * 256 + b.toNat) % 2 ^ 64 := by
      have hh : ((n % 2 ^ 64) <<< 8) % 2 ^ 64 = 2 ^ 8 * (n % 2 ^ 56) := by
        rw [Nat.shiftLeft_eq]
        omega
      rw [hh, Nat.or_comm, or_eq_add hb]
      omega
    rw [List.foldl_cons, List.foldl_cons, hs, ih]

end TrustTunnel.DeepLink
