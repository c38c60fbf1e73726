import Helios.Artifact.Signing

/-!
# Which payloads verify

An artifact that a key signed verifies under that key and gives back its payload.  With
signatures that nobody else can make, an accepted artifact's payload was signed by a key that
the root certified; the root signs payloads and certificates alike, so that what it certified
are its own key and every key whose certificate it signed as a payload.
-/

namespace Helios.Artifact

open LittleEndian

variable {authorised : Set Bytes} {bytes : Bytes}

/-! ### Trailers -/

namespace Postcard

theorem takeArray_append {n : Nat} (v : Vector UInt8 n) (rest : Bytes) :
  takeArray n (v.toList ++ rest) = .ok (v, rest)
  := by
  have htake : (v.toList ++ rest).take n = v.toList := by simp
  have hdrop : (v.toList ++ rest).drop n = rest := by simp
  rw [takeArray, dif_pos (by simp)]
  simp only [htake, hdrop, Vector.toArray_toList]

theorem length_toAllocvec (trailer : SignatureTrailer) :
  (toAllocvec trailer).length = 194
  := by
  cases trailer.algorithm
  simp [toAllocvec]

theorem fromBytes_toAllocvec (trailer : SignatureTrailer) :
  fromBytes (toAllocvec trailer) = .ok trailer
  := by
  obtain ⟨version, ⟨⟩, ⟨publicKey, issuerPublicKey, issuerSignature⟩, payloadSignature⟩ := trailer
  have hlast := takeArray_append payloadSignature []
  rw [List.append_nil] at hlast
  simp only [fromBytes, toAllocvec, takeByte, List.cons_append, List.append_assoc,
    List.nil_append, bind, Except.bind]
  have halgorithm : ∀ rest, takeAlgorithm (0 :: rest) = .ok (.ed25519, rest) := fun _ => rfl
  rw [halgorithm]
  simp only [takeCertificate, takeArray_append, hlast, bind, Except.bind]

end Postcard

theorem parseSignedArtifact_append {payload : Bytes} {trailer : SignatureTrailer}
    (hversion : trailer.version = trailerVersion)
    (h : appendSignatureTrailer payload trailer = .ok bytes) :
  parseSignedArtifact bytes = .ok ⟨payload, trailer⟩
  := by
  have hlength := Postcard.length_toAllocvec trailer
  have hmagic : trailerMagic.length = 8 := rfl
  have hcount : (encode 4 194).length = 4 := length_encode _ _
  simp only [appendSignatureTrailer, hlength] at h
  cases h
  generalize hencoded : Postcard.toAllocvec trailer = encoded at *
  have htotal : (payload ++ encoded ++ encode 4 194 ++ trailerMagic).length
      = payload.length + 194 + 12 := by
    simp only [List.length_append, hlength, hcount, hmagic]
  have hfooter : (payload ++ encoded ++ encode 4 194 ++ trailerMagic).drop
      (payload.length + 194) = encode 4 194 ++ trailerMagic := by
    rw [List.append_assoc (payload ++ encoded), List.drop_left' (by simp [hlength])]
  have hpayload : (payload ++ encoded ++ encode 4 194 ++ trailerMagic).take
      payload.length = payload := by
    rw [List.append_assoc, List.append_assoc, List.take_left]
  have htrailer : ((payload ++ encoded ++ encode 4 194 ++ trailerMagic).drop
      payload.length).take 194 = encoded := by
    rw [List.append_assoc, List.append_assoc, List.drop_left, List.take_left' hlength]
  have hdecode : decode (encode 4 194) = 194 :=
    decode_encode (by decide)
  have hstart : payload.length + 194 + 12 - footerLen = payload.length + 194 := rfl
  simp only [parseSignedArtifact, htotal]
  rw [if_neg (by simp [footerLen])]
  simp only [hstart, hfooter]
  rw [List.drop_left' hcount, if_neg (not_not.mpr rfl), List.take_left' hcount, hdecode,
    if_neg (by omega), Nat.add_sub_cancel, hpayload, htrailer, ← hencoded,
    Postcard.fromBytes_toAllocvec]
  simp only [hversion, ne_eq, not_true_eq_false, if_false]

/-! ### Verification -/

section Scheme

variable {scheme : SignatureScheme} {parsed : ParsedArtifact}

/-- What an accepted artifact has been checked for. -/
theorem verifySignedPayload_eq_ok {roots : List Key} :
  verifySignedPayload scheme bytes roots = .ok parsed
    ↔ parseSignedArtifact bytes = .ok parsed
      ∧ scheme.validKey parsed.trailer.signer.publicKey = true
      ∧ scheme.validKey parsed.trailer.signer.issuerPublicKey = true
      ∧ scheme.verify parsed.trailer.signer.issuerPublicKey
          (certificateMessage parsed.trailer.signer.publicKey)
          parsed.trailer.signer.issuerSignature = true
      ∧ parsed.trailer.signer.issuerPublicKey ∈ roots
      ∧ scheme.verify parsed.trailer.signer.publicKey parsed.payload
          parsed.trailer.payloadSignature = true
  := by
  rw [verifySignedPayload]
  cases hparse : parseSignedArtifact bytes with
  | error error => simp
  | ok parsed' =>
    simp only [Except.ok.injEq]
    constructor
    · intro h
      repeat' split at h
      all_goals cases h
      simp_all
    · rintro ⟨rfl, hsigner, hissuer, hcertificate, hroot, hpayload⟩
      simp [hsigner, hissuer, hcertificate, hpayload, hroot]

/-- The messages that signing the payload has the key sign, with their signatures. -/
def signedBy (scheme : SignatureScheme) (root : scheme.SigningKey) (payload : Bytes) :
    List (Bytes × Signature) :=
  [(certificateMessage (scheme.publicKey root),
      scheme.sign root (certificateMessage (scheme.publicKey root))),
    (payload, scheme.sign root payload)]

/-- A signature of the root verifies exactly if the root made it, and it made those for the
payloads of the set only. -/
structure SignatureScheme.Ideal (scheme : SignatureScheme) (root : scheme.SigningKey)
    (authorised : Set Bytes) : Prop where
  valid : scheme.validKey (scheme.publicKey root) = true
  verifies : ∀ message signature,
    scheme.verify (scheme.publicKey root) message signature = true
      ↔ ∃ payload ∈ authorised, (message, signature) ∈ signedBy scheme root payload

variable {root : scheme.SigningKey}

/-- What the root signs for a payload of the set is the payload or its own certificate. -/
theorem SignatureScheme.Ideal.message (h : scheme.Ideal root authorised) {message : Bytes}
    {signature : Signature}
    (hverify : scheme.verify (scheme.publicKey root) message signature = true) :
  message = certificateMessage (scheme.publicKey root) ∨ message ∈ authorised
  := by
  obtain ⟨payload, hpayload, hmem⟩ := (h.verifies message signature).mp hverify
  simp only [signedBy, List.mem_cons, List.not_mem_nil, or_false] at hmem
  rcases hmem with ⟨rfl, _⟩ | ⟨rfl, _⟩
  · exact Or.inl rfl
  · exact Or.inr hpayload

theorem certificateMessage_injective {k k' : Key}
    (h : certificateMessage k = certificateMessage k') :
  k = k'
  := by
  have hlist := List.append_cancel_left h
  apply Vector.toList_inj.mp hlist

/-- The payload of an accepted artifact was authorised, or is the certificate of the root, or was
signed by another key whose certificate was authorised as a payload. -/
theorem payload_of_accepted (hideal : scheme.Ideal root authorised)
    (h : verifySignedPayload scheme bytes [scheme.publicKey root] = .ok parsed) :
  parsed.payload ∈ authorised
    ∨ parsed.payload = certificateMessage (scheme.publicKey root)
    ∨ ∃ k, k ≠ scheme.publicKey root ∧ certificateMessage k ∈ authorised
  := by
  obtain ⟨_, _, _, hcertificate, hroot, hpayload⟩ := verifySignedPayload_eq_ok.mp h
  rw [List.mem_singleton] at hroot
  rw [hroot] at hcertificate
  by_cases hsigner : parsed.trailer.signer.publicKey = scheme.publicKey root
  · rw [hsigner] at hpayload
    rcases hideal.message hpayload with hmessage | hmessage
    · exact Or.inr (Or.inl hmessage)
    · exact Or.inl hmessage
  · right
    right
    refine ⟨_, hsigner, ?_⟩
    rcases hideal.message hcertificate with hmessage | hmessage
    · exact absurd (certificateMessage_injective hmessage) hsigner
    · exact hmessage

theorem appendSignatureTrailer_ok (payload : Bytes) (trailer : SignatureTrailer) :
  ∃ bytes, appendSignatureTrailer payload trailer = .ok bytes
  := by
  simp only [appendSignatureTrailer, Postcard.length_toAllocvec]
  exact ⟨_, if_pos (by decide)⟩

/-- A payload is accepted with a certificate of the root and a signature by the certified key. -/
theorem exists_accepted {root : scheme.SigningKey} {k : Key} {payload : Bytes}
    {issuerSignature payloadSignature : Signature}
    (hvalid : scheme.validKey (scheme.publicKey root) = true) (hkey : scheme.validKey k = true)
    (hcertificate :
      scheme.verify (scheme.publicKey root) (certificateMessage k) issuerSignature = true)
    (hpayload : scheme.verify k payload payloadSignature = true) :
  ∃ bytes parsed, appendSignatureTrailer payload (SignatureTrailer.new .ed25519
      ⟨k, scheme.publicKey root, issuerSignature⟩ payloadSignature) = .ok bytes
    ∧ verifySignedPayload scheme bytes [scheme.publicKey root] = .ok parsed
    ∧ parsed.payload = payload
  := by
  obtain ⟨bytes, hbytes⟩ := appendSignatureTrailer_ok payload
    (SignatureTrailer.new .ed25519 ⟨k, scheme.publicKey root, issuerSignature⟩ payloadSignature)
  have hparsed := parseSignedArtifact_append rfl hbytes
  exact ⟨bytes, _, hbytes, verifySignedPayload_eq_ok.mpr
    ⟨hparsed, hkey, hvalid, hcertificate, List.mem_singleton_self _, hpayload⟩, rfl⟩

/-- An artifact that the root signed verifies and gives back its payload. -/
theorem verifySignedPayload_sign {payload : Bytes}
    (hvalid : scheme.validKey (scheme.publicKey root) = true) (hverifies : ∀ m ∈ signedBy scheme
      root payload, scheme.verify (scheme.publicKey root) m.1 m.2 = true) :
  ∃ bytes parsed, signPayloadWithKey scheme payload root = .ok bytes
    ∧ verifySignedPayload scheme bytes [scheme.publicKey root] = .ok parsed
    ∧ parsed.payload = payload
  := by
  simp only [signedBy, List.mem_cons, List.not_mem_nil, or_false, forall_eq_or_imp,
    forall_eq] at hverifies
  exact exists_accepted hvalid hvalid hverifies.1 hverifies.2

/-! ### Forged artifacts -/

/-- Once the root has signed anything, its certificate is accepted as a payload. -/
theorem SignatureScheme.Ideal.certificate_accepted (h : scheme.Ideal root authorised)
    (hsome : authorised.Nonempty) :
  ∃ bytes parsed, verifySignedPayload scheme bytes [scheme.publicKey root] = .ok parsed
    ∧ parsed.payload = certificateMessage (scheme.publicKey root)
  := by
  obtain ⟨payload, hpayload⟩ := hsome
  have hcertificate := (h.verifies (certificateMessage (scheme.publicKey root))
    (scheme.sign root (certificateMessage (scheme.publicKey root)))).mpr
    ⟨payload, hpayload, List.mem_cons_self⟩
  obtain ⟨bytes, parsed, _, haccepted⟩ := exists_accepted h.valid h.valid hcertificate hcertificate
  exact ⟨bytes, parsed, haccepted⟩

end Scheme

/-- A key signs with zeros what is authorised; what another key signs is anyone's. -/
noncomputable def zeroScheme (root : Key) (authorised : Set Bytes) : SignatureScheme where
  SigningKey := Unit
  publicKey _ := root
  validKey _ := true
  sign _ _ := Vector.replicate 64 0
  verify k message signature := by
    classical
    exact decide (k = root → signature = Vector.replicate 64 0
      ∧ ∃ payload ∈ authorised, message = certificateMessage root ∨ message = payload)

theorem zeroScheme_ideal (root : Key) (authorised : Set Bytes) :
  (zeroScheme root authorised).Ideal () authorised
  := by
  constructor
  · rfl
  · intro message signature
    simp only [zeroScheme, signedBy, forall_const, decide_eq_true_eq, List.mem_cons,
      Prod.mk.injEq, List.not_mem_nil, or_false]
    constructor
    · rintro ⟨hsignature, payload, hpayload, hmessage⟩
      exact ⟨payload, hpayload, hmessage.imp (⟨·, hsignature⟩) (⟨·, hsignature⟩)⟩
    · rintro ⟨payload, hpayload, ⟨hmessage, hsignature⟩ | ⟨hmessage, hsignature⟩⟩
      · exact ⟨hsignature, payload, hpayload, Or.inl hmessage⟩
      · exact ⟨hsignature, payload, hpayload, Or.inr hmessage⟩

/-- A key whose certificate is authorised as a payload has everything accepted. -/
theorem zeroScheme_accepts {root k : Key} (hne : k ≠ root)
    (hcertificate : certificateMessage k ∈ authorised) (payload : Bytes) :
  ∃ bytes parsed, verifySignedPayload (zeroScheme root authorised) bytes [root] = .ok parsed
    ∧ parsed.payload = payload
  := by
  have hsigned : (zeroScheme root authorised).verify root (certificateMessage k)
      (Vector.replicate 64 0) = true := by
    simp only [zeroScheme, decide_eq_true_eq, true_and]
    exact fun _ => ⟨_, hcertificate, Or.inr rfl⟩
  have hanyone : (zeroScheme root authorised).verify k payload (Vector.replicate 64 0) = true := by
    simp only [zeroScheme, decide_eq_true_eq]
    exact fun heq => absurd heq hne
  obtain ⟨bytes, parsed, _, haccepted⟩ :=
    @exists_accepted (zeroScheme root authorised) () _ _ _ _ rfl rfl hsigned hanyone
  exact ⟨bytes, parsed, haccepted⟩

end Helios.Artifact
