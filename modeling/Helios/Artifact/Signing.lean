import Helios.Library.LittleEndian
import Mathlib.Data.Vector.Basic

/-!
# Signed artifacts

A signed artifact is its payload, an encoded signature trailer, the length of the trailer and a
magic number.  The trailer names the signer, whose key is certified by an issuer; it verifies
when the issuer is trusted, the certificate is signed by the issuer and the payload by the
signer.  The signatures themselves are not part of the artifact format: a scheme is a parameter.

The trailer is encoded by postcard: a byte as itself, a variant by its number as a varint, an
array by its bytes.
-/

namespace Helios.Artifact

abbrev Bytes := List UInt8

/-- The bytes of a public key. -/
abbrev Key := Vector UInt8 32

/-- The bytes of a signature. -/
abbrev Signature := Vector UInt8 64

structure SignatureScheme where
  SigningKey : Type
  /-- The bytes of the verifying key. -/
  publicKey : SigningKey → Key
  /-- Whether the bytes are those of a verifying key. -/
  validKey : Key → Bool
  sign : SigningKey → Bytes → Signature
  verify : Key → Bytes → Signature → Bool

/-- The bytes of an ASCII text. -/
def ascii (text : List Char) : Bytes :=
  text.map fun c => UInt8.ofNat c.toNat

def trailerMagic : Bytes := ascii [ 'H', 'L', 'C', 'W', 'S', 'G', '0', '1']

def trailerVersion : UInt8 := 1

inductive SignatureAlgorithm where
  | ed25519
deriving DecidableEq, Repr

structure SignerCertificate where
  publicKey : Key
  issuerPublicKey : Key
  issuerSignature : Signature
deriving DecidableEq

structure SignatureTrailer where
  version : UInt8
  algorithm : SignatureAlgorithm
  signer : SignerCertificate
  payloadSignature : Signature
deriving DecidableEq

def SignatureTrailer.new (algorithm : SignatureAlgorithm) (signer : SignerCertificate)
    (payloadSignature : Signature) : SignatureTrailer :=
  { version := trailerVersion, algorithm, signer, payloadSignature }

inductive PostcardError where
  | deserializeUnexpectedEnd
  | deserializeBadVarint
  | serdeDeCustom
deriving DecidableEq, Repr

inductive TrailerError where
  | missingTrailer
  | truncatedFooter
  | truncatedTrailer
  | lengthOverflow
  | unsupportedVersion (version : UInt8)
  | decode (error : PostcardError)
  | invalidSignerKey
  | invalidIssuerKey
  | invalidCertificateSignature
  | untrustedSigner
  | invalidPayloadSignature
deriving DecidableEq, Repr

/-! ### Postcard -/

namespace Postcard

def takeByte : Bytes → Except PostcardError (UInt8 × Bytes)
  | [] => .error .deserializeUnexpectedEnd
  | byte :: rest => .ok (byte, rest)

def takeArray (n : Nat) (bytes : Bytes) : Except PostcardError (Vector UInt8 n × Bytes) :=
  if h : n ≤ bytes.length then
    .ok (⟨(bytes.take n).toArray, by simp [h]⟩, bytes.drop n)
  else
    .error .deserializeUnexpectedEnd

/-- Takes a 32-bit varint off the input, of at most five bytes; `i` of them have been read, which
spell `out`. -/
def takeVarintU32 (out : Nat) (i : Nat) : Nat → Bytes → Except PostcardError (Nat × Bytes)
  | 0, _ => .error .deserializeBadVarint
  | _ + 1, [] => .error .deserializeUnexpectedEnd
  | left + 1, byte :: rest =>
    let out := out + (byte.toNat % 128) * 2 ^ (7 * i)
    if byte.toNat < 128 then
      -- the fifth byte has room for four bits only
      if i = 4 ∧ 15 < byte.toNat then .error .deserializeBadVarint else .ok (out, rest)
    else
      takeVarintU32 out (i + 1) left rest

def takeAlgorithm (bytes : Bytes) : Except PostcardError (SignatureAlgorithm × Bytes) := do
  let (variant, rest) ← takeVarintU32 0 0 5 bytes
  if variant = 0 then .ok (.ed25519, rest) else .error .serdeDeCustom

def takeCertificate (bytes : Bytes) : Except PostcardError (SignerCertificate × Bytes) := do
  let (publicKey, rest) ← takeArray 32 bytes
  let (issuerPublicKey, rest) ← takeArray 32 rest
  let (issuerSignature, rest) ← takeArray 64 rest
  .ok (⟨publicKey, issuerPublicKey, issuerSignature⟩, rest)

def fromBytes (bytes : Bytes) : Except PostcardError SignatureTrailer := do
  let (version, rest) ← takeByte bytes
  let (algorithm, rest) ← takeAlgorithm rest
  let (signer, rest) ← takeCertificate rest
  let (payloadSignature, _) ← takeArray 64 rest
  .ok ⟨version, algorithm, signer, payloadSignature⟩

def toAllocvec (trailer : SignatureTrailer) : Bytes :=
  trailer.version :: (match trailer.algorithm with | .ed25519 => [0])
    ++ trailer.signer.publicKey.toList ++ trailer.signer.issuerPublicKey.toList
    ++ trailer.signer.issuerSignature.toList ++ trailer.payloadSignature.toList

end Postcard

/-! ### Artifacts -/

structure ParsedArtifact where
  payload : Bytes
  trailer : SignatureTrailer
deriving DecidableEq

def appendSignatureTrailer (payload : Bytes) (trailer : SignatureTrailer) :
    Except TrailerError Bytes :=
  let encoded := Postcard.toAllocvec trailer
  if encoded.length < 2 ^ 32 then
    .ok (payload ++ encoded ++ LittleEndian.encode 4 encoded.length ++ trailerMagic)
  else
    .error .lengthOverflow

def footerLen : Nat := 12

def parseSignedArtifact (bytes : Bytes) : Except TrailerError ParsedArtifact :=
  if bytes.length < footerLen then
    .error .truncatedFooter
  else
    let footer := bytes.drop (bytes.length - footerLen)
    if footer.drop 4 ≠ trailerMagic then
      .error .missingTrailer
    else
      let trailerLen := LittleEndian.decode (footer.take 4)
      let trailerEnd := bytes.length - footerLen
      if trailerLen > trailerEnd then
        .error .truncatedTrailer
      else
        let trailerStart := trailerEnd - trailerLen
        let payload := bytes.take trailerStart
        match Postcard.fromBytes ((bytes.drop trailerStart).take trailerLen) with
        | .error error => .error (.decode error)
        | .ok trailer =>
          if trailer.version ≠ trailerVersion then
            .error (.unsupportedVersion trailer.version)
          else
            .ok { payload, trailer }

def certificateMessage (publicKey : Key) : Bytes :=
  ascii [ 'h', 'e', 'l', 'i', 'o', 's', '-', 'c', 'e', 'r', 't', '-', 'v', '0', '1', ':']
    ++ publicKey.toList

section Scheme

variable (scheme : SignatureScheme)

def signPayloadWithKey (payload : Bytes) (signingKey : scheme.SigningKey) :
    Except TrailerError Bytes :=
  let publicKey := scheme.publicKey signingKey
  appendSignatureTrailer payload
    (SignatureTrailer.new .ed25519
      { publicKey
        issuerPublicKey := publicKey
        issuerSignature := scheme.sign signingKey (certificateMessage publicKey) }
      (scheme.sign signingKey payload))

def verifySignedPayload (bytes : Bytes) (trustedRootPublicKeys : List Key) :
    Except TrailerError ParsedArtifact :=
  match parseSignedArtifact bytes with
  | .error error => .error error
  | .ok parsed =>
    let signer := parsed.trailer.signer
    if !scheme.validKey signer.publicKey then
      .error .invalidSignerKey
    else if !scheme.validKey signer.issuerPublicKey then
      .error .invalidIssuerKey
    else if !scheme.verify signer.issuerPublicKey (certificateMessage signer.publicKey)
        signer.issuerSignature then
      .error .invalidCertificateSignature
    else if !trustedRootPublicKeys.any (· == signer.issuerPublicKey) then
      .error .untrustedSigner
    else if !scheme.verify signer.publicKey parsed.payload parsed.trailer.payloadSignature then
      .error .invalidPayloadSignature
    else
      .ok parsed

end Scheme

end Helios.Artifact
