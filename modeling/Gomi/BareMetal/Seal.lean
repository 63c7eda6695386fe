import Gomi.Api.Claims
import Gomi.Go.Base64
import Gomi.Go.Json

/-!
# Sealed bootstraps

The Cluster API provider seals the bootstrap of a claimed host for the key that the host was enrolled
with (`Gomi.SealedSeed.sealBootstrap`), and the server checks the envelope before it deploys it
(`Gomi.validateEnvelope`). They are two programs with checks of their own: the provider has limits on
the characters of names, the server on the sizes of the parts and of the whole, and an enrollment
(`Gomi.registerBareMetalHost`) has neither. The cryptography, the random source and the JSON decoder
are parameters, which succeed and give outputs of the standard lengths
(`Gomi.SealedSeed.Crypto.Standard`).

A host that was enrolled can be sealed to exactly if its name has no line break and no NUL, its key
has at most 16384 bits, and the envelope is not too large for its name
(`Gomi.SealedSeed.sealed_iff`). The context that is authenticated with the bootstrap tells all claims
apart.
-/

namespace Gomi.SealedSeed

open Go

variable {pool publicKeyPEM owner name : String} {bytes der : Bytes} {e : Envelope}
  {bits length : ℕ}

/-! ### The provider -/

/-- `Algorithm`. -/
def algorithm : String := "RSA-OAEP-SHA256+A256GCM"

/-- `MaxPlaintext`. -/
def maxPlaintext : ℕ := 4 * 2 ^ 20

/-- The bytes of a text. -/
def textBytes (s : String) : Bytes := s.toUTF8.data.toList

/-- `contextData`. -/
def contextData (host owner : String) : Bytes :=
  textBytes ("gomi-capi-bootstrap/v1\x00" ++ host ++ "\x00" ++ owner)

/-- What one call of `Seal` gets from the libraries of cryptography. -/
structure Crypto where
  /-- The random bytes for the symmetric key. -/
  symmetric : Except Err Bytes
  /-- `aes.NewCipher` and `cipher.NewGCM`: how a nonce, a plaintext and additional data are sealed. -/
  newGCM : Bytes → Except Err (Bytes → Bytes → Bytes → Bytes)
  /-- The random bytes for the nonce. -/
  nonce : Except Err Bytes
  /-- `rsa.EncryptOAEP`, of the key in some bytes, a message and a label. -/
  encryptOAEP : Bytes → Bytes → Bytes → Except Err Bytes

/-- `json.Marshal` of an envelope. -/
def marshalEnvelope (e : Envelope) : String :=
  "\x7b\"version\":" ++ toString e.version ++ ",\"algorithm\":" ++ jsonString e.algorithm ++
    ",\"host\":" ++ jsonString e.host ++ ",\"owner\":" ++ jsonString e.owner ++
    ",\"keyFingerprint\":" ++ jsonString e.keyFingerprint ++
    ",\"wrappedKey\":" ++ jsonString e.wrappedKey ++ ",\"nonce\":" ++ jsonString e.nonce ++
    ",\"ciphertext\":" ++ jsonString e.ciphertext ++ "\x7d"

/-- The characters that `Seal` does not accept in names. -/
def isBreak (c : Char) : Bool := c = '\x00' ∨ c = '\r' ∨ c = '\n'

section Seal

variable (lib : Lib) (crypto : Crypto)

/-- The envelope that `Seal` makes. -/
def sealEnvelope (publicKeyPEM host owner : String) (plaintext : Bytes) : Except Err Envelope :=
  if host = "" ∨ !hasPrefix owner "capi-" ∨ (host ++ owner).toList.any isBreak then
    .error (.msg "host and claim owner are required")
  else if plaintext.length = 0 ∨ plaintext.length > maxPlaintext then
    .error (.msg "invalid bootstrap size")
  else match lib.pemDecode publicKeyPEM with
  | none => .error (.msg "expected one PEM public key")
  | some (block, rest) =>
    if block.type ≠ "PUBLIC KEY" ∨ trimSpace rest ≠ "" then
      .error (.msg "expected one PEM public key")
    else match lib.parsePKIXPublicKey block.bytes with
    | none => .error (.msg "invalid enrollment public key")
    | some .other => .error (.msg "enrollment requires RSA with at least 2048 bits")
    | some (.rsa bits) =>
      if bits < 2048 then .error (.msg "enrollment requires RSA with at least 2048 bits")
      else do
        let symmetric ← crypto.symmetric
        let gcm ← crypto.newGCM symmetric
        let nonce ← crypto.nonce
        let label := contextData host owner
        let wrapped ← crypto.encryptOAEP block.bytes symmetric label
        return {
          version := 1, algorithm, host, owner
          keyFingerprint := hexEncode (lib.sha256 block.bytes)
          wrappedKey := base64Encode wrapped, nonce := base64Encode nonce
          ciphertext := base64Encode (gcm nonce plaintext label) }

/-- `Seal`. -/
def sealBootstrap (publicKeyPEM host owner : String) (plaintext : Bytes) : Except Err String :=
  (sealEnvelope lib crypto publicKeyPEM host owner plaintext).map marshalEnvelope

/-- **The libraries of cryptography succeed**, with outputs of the standard lengths, and base 64 is
read back as it was written. -/
structure Crypto.Standard : Prop where
  symmetric : ∃ key, crypto.symmetric = .ok key ∧ key.length = 32
  nonce : ∃ nonce, crypto.nonce = .ok nonce ∧ nonce.length = 12
  gcm : ∀ key, key.length = 32 → ∃ gcm, crypto.newGCM key = .ok gcm ∧
    ∀ nonce plaintext label, (gcm nonce plaintext label).length = plaintext.length + 16
  oaep : ∀ der bits msg label, lib.parsePKIXPublicKey der = some (.rsa bits) → 2048 ≤ bits →
    msg.length = 32 → ∃ wrapped, crypto.encryptOAEP der msg label = .ok wrapped ∧
      wrapped.length = (bits + 7) / 8
  sha256 : ∀ bytes, (lib.sha256 bytes).length = 32
  base64 : ∀ bytes, lib.base64Decode (base64Encode bytes) = some bytes

/-- The bits of an enrolled key. -/
def keyBits (publicKeyPEM : String) : ℕ :=
  match lib.pemDecode publicKeyPEM with
  | none => 0
  | some (block, _) => match lib.parsePKIXPublicKey block.bytes with
    | some (.rsa bits) => bits
    | _ => 0

end Seal

/-! ### Sizes -/

/-- A text that takes two bytes more in JSON than it has characters. -/
def Plain (s : String) : Prop := ∀ c ∈ s.toList, c.toNat < 128 ∧ jsonEscape c = [c]

theorem Plain.size {s : String} (h : Plain s) : (jsonString s).utf8ByteSize = s.length + 2 := by
  rw [jsonString_of_plain fun c hc => (h c hc).2, String.utf8ByteSize_append,
    String.utf8ByteSize_append, utf8ByteSize_ascii fun c hc => (h c hc).1]
  have : ("\"" : String).utf8ByteSize = 1 := by decide
  omega

theorem plain_base64Encode : Plain (base64Encode bytes) := by
  unfold Plain base64Encode
  rw [String.toList_ofList]
  refine forall_mem_base64Digits ?_ (by decide)
  intro n hn
  have hall : ∀ n : Fin 64, (base64Digit n).toNat < 128 ∧ jsonEscape (base64Digit n) = [base64Digit n] := by
    decide
  exact hall ⟨n, hn⟩

theorem length_base64Encode :
    (base64Encode bytes).length = 4 * ((bytes.length + 2) / 3) := by
  rw [base64Encode, String.length_ofList, length_base64Digits]

theorem plain_hexEncode : Plain (hexEncode bytes) := fun _ =>
  forall_mem_hexEncode (P := fun c => c.toNat < 128 ∧ jsonEscape c = [c]) (by decide)

theorem length_hexEncode (bytes : Bytes) : (hexEncode bytes).length = 2 * bytes.length := by
  rw [hexEncode, String.length_ofList]
  induction bytes with
  | nil => rfl
  | cons b bytes ih =>
    rw [List.flatMap_cons, List.length_append, ih, List.length_cons]
    simp [hexPair]
    omega

/-- **The size of an envelope.** -/
theorem size_marshalEnvelope (hversion : e.version = 1) (halgorithm : e.algorithm = algorithm)
    (howner : Plain e.owner) (hfingerprint : Plain e.keyFingerprint) (hwrapped : Plain e.wrappedKey)
    (hnonce : Plain e.nonce) (hciphertext : Plain e.ciphertext) :
    (marshalEnvelope e).utf8ByteSize = 133 + (jsonString e.host).utf8ByteSize + e.owner.length +
      e.keyFingerprint.length + e.wrappedKey.length + e.nonce.length + e.ciphertext.length := by
  have halg : (jsonString algorithm).utf8ByteSize = 25 := by decide
  have hone : (toString (1 : ℤ)).utf8ByteSize = 1 := by decide
  unfold marshalEnvelope
  iterate 16 rw [String.utf8ByteSize_append]
  rw [hversion, halgorithm, halg, hone, howner.size, hfingerprint.size, hwrapped.size, hnonce.size,
    hciphertext.size]
  have h₁ : ("\x7b\"version\":" : String).utf8ByteSize = 11 := by decide
  have h₂ : (",\"algorithm\":" : String).utf8ByteSize = 13 := by decide
  have h₃ : (",\"host\":" : String).utf8ByteSize = 8 := by decide
  have h₄ : (",\"owner\":" : String).utf8ByteSize = 9 := by decide
  have h₅ : (",\"keyFingerprint\":" : String).utf8ByteSize = 18 := by decide
  have h₆ : (",\"wrappedKey\":" : String).utf8ByteSize = 14 := by decide
  have h₇ : (",\"nonce\":" : String).utf8ByteSize = 9 := by decide
  have h₈ : (",\"ciphertext\":" : String).utf8ByteSize = 14 := by decide
  have h₉ : ("\x7d" : String).utf8ByteSize = 1 := by decide
  omega

/-! ### Enrollments and claims -/

section Accepted

variable {lib : Lib}

/-- An enrolled key: one PEM block with an RSA key of enough bits. -/
structure Key (lib : Lib) (publicKeyPEM : String) (der : Bytes) (bits : ℕ) : Prop where
  decode : ∃ block rest, lib.pemDecode publicKeyPEM = some (block, rest) ∧
    block.type = "PUBLIC KEY" ∧ trimSpace rest = "" ∧ block.bytes = der
  parse : lib.parsePKIXPublicKey der = some (.rsa bits)
  size : 2048 ≤ bits

theorem Key.keyBits (h : Key lib publicKeyPEM der bits) : keyBits lib publicKeyPEM = bits := by
  obtain ⟨⟨block, rest, hdecode, -, -, rfl⟩, hparse, -⟩ := h
  simp [SealedSeed.keyBits, hdecode, hparse]

/-- **A key has a fingerprint exactly if it can be enrolled.** -/
theorem key_of_fingerprint {fingerprint : String}
    (h : enrollmentFingerprint lib publicKeyPEM = .ok fingerprint) :
    ∃ der bits, Key lib publicKeyPEM der bits ∧ fingerprint = hexEncode (lib.sha256 der) := by
  unfold enrollmentFingerprint at h
  split at h
  · cases h
  · rename_i block rest hdecode
    split at h
    · cases h
    · rename_i hblock
      obtain ⟨htype, hrest⟩ := not_or.mp hblock
      split at h
      · cases h
      · rename_i bits hparse
        split at h
        · cases h
        · rename_i hsize
          cases h
          exact ⟨block.bytes, bits, ⟨⟨block, rest, hdecode, not_not.mp htype, not_not.mp hrest, rfl⟩,
            hparse, not_lt.mp hsize⟩, rfl⟩
      · cases h

theorem Key.fingerprint (h : Key lib publicKeyPEM der bits) :
    enrollmentFingerprint lib publicKeyPEM = .ok (hexEncode (lib.sha256 der)) := by
  obtain ⟨⟨block, rest, hdecode, htype, hrest, rfl⟩, hparse, hsize⟩ := h
  simp [enrollmentFingerprint, hdecode, htype, hrest, hparse, not_lt.mpr hsize]

/-- `RegisterBareMetalHost` accepts a host: some replies of the stores lead to a response with it. -/
def Accepts (lib : Lib) (s : Server) (name : String) (req : RegisterReq) (h : Host) : Prop :=
  ∃ cs, Prog.Path (registerBareMetalHost lib s name (some req)) cs
    (.ret { status := 200, body := .host h })

/-- What an accepted host is known to have: a name and the key of the request, which can be enrolled. -/
structure Enrolled (lib : Lib) (name : String) (req : RegisterReq) (h : Host) : Prop where
  name_ne : name ≠ ""
  publicKey : h.publicKey = req.publicKey
  key : ∃ der bits, Key lib req.publicKey der bits

/-- The key of a host that `Register` returns. -/
theorem register_obeys {publicKey targetDisk : String} {cs : List (Call Res)} :
    (register lib name pool publicKey targetDisk).Obeys (fun _ _ => True)
      (fun _ r => ∀ h, r = .ok h → h.publicKey = publicKey) cs := by
  have herror : ∀ (e : Err) (cs : List (Call Res)),
      (pure (.error e) : Prog Res (Except Err Host)).Obeys (fun _ _ => True)
        (fun _ r => ∀ h, r = .ok h → h.publicKey = publicKey) cs :=
    fun e cs => .pure fun h heq => by cases heq
  unfold register
  split
  · exact herror _ _
  refine .ite (fun _ => herror _ _) fun _ => ?_
  split
  · exact herror _ _
  refine .perform_bind trivial fun inserted => ?_
  cases inserted with
  | error => exact herror _ _
  | ok _ =>
    refine .perform_bind trivial fun found => ?_
    cases found with
    | error => exact herror _ _
    | ok =>
      refine .ite (fun _ => herror _ _) fun hsame => .pure ?_
      rintro h' heq
      cases heq
      exact not_not.mp fun hne => hsame (Or.inr (Or.inl hne))

theorem Accepts.enrolled {s : Server} {name : String} {req : RegisterReq} {h : Host}
    (haccept : Accepts lib s name req h) : Enrolled lib name req h := by
  obtain ⟨cs, hpath⟩ := haccept
  suffices hspec : (registerBareMetalHost lib s name (some req)).Obeys (fun _ _ => True)
      (fun _ a => ∀ h, a = { status := 200, body := .host h } → Enrolled lib name req h) [] from
    hspec.of_path_ret hpath h rfl
  have hrefused : ∀ {a : Response} {cs : List (Call Res)}, a.status ≠ 200 →
      (pure a : Prog Res Response).Obeys (fun _ _ => True)
        (fun _ a => ∀ h, a = { status := 200, body := .host h } → Enrolled lib name req h) cs :=
    fun hne => .pure fun h heq => absurd (congrArg Response.status heq) hne
  have hfailed : ∀ {text : String}, (Response.failed 400 text).status ≠ 200 := by
    simp [Response.failed]
  have hstatus : ∀ e, (bareMetalError e).status ≠ 200 := fun e => by
    cases e <;> simp [bareMetalError, Response.failed]
  refine .ite (fun _ => hrefused (by decide)) fun _ => ?_
  dsimp only
  split
  · exact hrefused hfailed
  rename_i fingerprint hfingerprint
  obtain ⟨der, bits, hkey, -⟩ := key_of_fingerprint hfingerprint
  refine .ite (fun _ => hrefused (by decide)) fun _ => ?_
  split
  · exact hrefused hfailed
  rename_i hregistration
  have hname : name ≠ "" := by
    rintro rfl
    simp [validateRegistration, show trimSpace "" = "" by decide] at hregistration
  refine .perform_bind trivial fun found => ?_
  split
  · rename_i existing
    refine .ite (fun _ => hrefused (hstatus _)) fun hsame => .pure ?_
    rintro h heq
    obtain rfl := Body.host.inj (congrArg Response.body heq)
    exact ⟨hname, not_not.mp fun hne => hsame (Or.inr (Or.inl hne)), der, bits, hkey⟩
  · refine .perform_bind trivial fun machine => ?_
    split
    · exact hrefused (by decide)
    · exact hrefused (by decide)
    split
    · exact hrefused hfailed
    refine .ite (fun _ => hrefused (by decide)) fun _ => ?_
    refine register_obeys.bind fun cs r _ hr => ?_
    cases r with
    | error e => exact hrefused (hstatus e)
    | ok =>
      refine .pure ?_
      rintro h heq
      obtain rfl := Body.host.inj (congrArg Response.body heq)
      exact ⟨hname, hr _ rfl, der, bits, hkey⟩
  · exact hrefused (hstatus _)

/-- The characters of an owner. -/
theorem owner_chars (h : validateAcquire pool owner = .ok ()) :
    hasPrefix owner "capi-" = true ∧
      ∀ c ∈ owner.toList, isLower c = true ∨ isDigit c = true ∨ c = '-' := by
  have hpattern : ownerPattern owner = true := by
    unfold validateAcquire at h
    split at h
    · cases h
    · rename_i hchecks
      simpa using (not_or.mp hchecks).2
  unfold ownerPattern afterStart at hpattern
  split at hpattern
  · cases hpattern
  · rename_i rest hrest
    split at hrest
    · rename_i hstart
      cases hrest
      obtain ⟨rest, hrest⟩ := List.isPrefixOf_iff_prefix.mp hstart
      rw [← hrest, List.drop_left] at hpattern
      refine ⟨hstart, fun c hc => ?_⟩
      rw [← hrest] at hc
      rcases List.mem_append.mp hc with hc | hc
      · have hall : ("capi-".toList.all fun c =>
            decide (isLower c = true ∨ isDigit c = true ∨ c = '-')) = true := by decide
        exact of_decide_eq_true (List.all_eq_true.mp hall c hc)
      · have := List.all_eq_true.mp (Bool.and_eq_true_iff.mp hpattern).2 c hc
        simpa [or_assoc] using this
    · cases hrest

/-- The characters of an owner are written as they are, and none of them is a break. -/
theorem owner_plain (h : validateAcquire pool owner = .ok ()) :
    Plain owner ∧ ∀ c ∈ owner.toList, isBreak c = false := by
  have hall : ∀ n : Fin 128, isLower (Char.ofNat n) = true ∨ isDigit (Char.ofNat n) = true ∨
      Char.ofNat n = '-' → jsonEscape (Char.ofNat n) = [Char.ofNat n] ∧
        isBreak (Char.ofNat n) = false := by decide
  have hchar : ∀ c ∈ owner.toList, c.toNat < 128 ∧ jsonEscape c = [c] ∧ isBreak c = false := by
    intro c hc
    have hkind := (owner_chars h).2 c hc
    have hlt : c.toNat < 128 := by
      rcases hkind with hlower | hdigit | rfl
      · have := (Bool.and_eq_true_iff.mp hlower).2
        have hle : c.toNat ≤ 'z'.toNat := of_decide_eq_true this
        have : 'z'.toNat = 122 := rfl
        omega
      · have := (Bool.and_eq_true_iff.mp hdigit).2
        have hle : c.toNat ≤ '9'.toNat := of_decide_eq_true this
        have : '9'.toNat = 57 := rfl
        omega
      · decide
    have := hall ⟨c.toNat, hlt⟩
    rw [Char.ofNat_toNat] at this
    exact ⟨hlt, this hkind⟩
  exact ⟨fun c hc => ⟨(hchar c hc).1, (hchar c hc).2.1⟩, fun c hc => (hchar c hc).2.2⟩

end Accepted

/-! ### The context -/

/-- What is before the last place of a value. -/
theorem eq_nil_of_last {α : Type} {x : α} {tail tail' front : List α}
    (h : x :: tail = front ++ x :: tail') (hx : x ∉ tail) : front = [] := by
  cases front with
  | nil => rfl
  | cons =>
    obtain ⟨-, rfl⟩ := List.cons.inj h
    exact absurd (List.mem_append_right _ List.mem_cons_self) hx

/-- **The context tells the claims apart**: there is no NUL in an owner, so the last one is before
it. -/
theorem contextData_inj {host host' owner' pool' : String}
    (howner : validateAcquire pool owner = .ok ()) (howner' : validateAcquire pool' owner' = .ok ())
    (h : contextData host owner = contextData host' owner') : host = host' ∧ owner = owner' := by
  have htext := congrArg String.toList (String.toByteArray_inj.mp (ByteArray.ext (Array.toList_inj.mp h)))
  simp only [String.toList_append, List.append_assoc, List.append_cancel_left_eq] at htext
  have hnul : ∀ {pool owner : String}, validateAcquire pool owner = .ok () → '\x00' ∉ owner.toList :=
    fun h hc => absurd ((owner_plain h).2 _ hc) (by decide)
  obtain ⟨front, hfront, htail⟩ | ⟨front, hfront, htail⟩ := List.append_eq_append_iff.mp htext
  · obtain rfl : front = [] := eq_nil_of_last htail (hnul howner)
    exact ⟨String.toList_inj.mp (by simpa using hfront.symm),
      String.toList_inj.mp (List.cons.inj htail).2⟩
  · obtain rfl : front = [] := eq_nil_of_last htail (hnul howner')
    exact ⟨String.toList_inj.mp (by simpa using hfront),
      String.toList_inj.mp (List.cons.inj htail).2.symm⟩

/-! ### The envelope -/

section Envelopes

variable {lib : Lib} {crypto : Crypto} {publicKeyPEM host owner pool : String} {der : Bytes} {bits : ℕ}

/-- An envelope with parts of the standard lengths. -/
structure Sealed (lib : Lib) (der : Bytes) (bits : ℕ) (host owner : String) (length : ℕ)
    (e : Envelope) : Prop where
  version : e.version = 1
  algorithm : e.algorithm = SealedSeed.algorithm
  host : e.host = host
  owner : e.owner = owner
  keyFingerprint : e.keyFingerprint = hexEncode (lib.sha256 der)
  wrappedKey : ∃ wrapped : Bytes, e.wrappedKey = base64Encode wrapped ∧
    wrapped.length = (bits + 7) / 8
  nonce : ∃ nonce : Bytes, e.nonce = base64Encode nonce ∧ nonce.length = 12
  ciphertext : ∃ ciphertext : Bytes, e.ciphertext = base64Encode ciphertext ∧
    ciphertext.length = length + 16

/-- The size of what `Seal` returns. -/
def sealedSize (host owner : String) (bits length : ℕ) : ℕ :=
  213 + (jsonString host).utf8ByteSize + owner.length + 4 * (((bits + 7) / 8 + 2) / 3) +
    4 * ((length + 18) / 3)

variable (hstd : crypto.Standard lib) (hkey : Key lib publicKeyPEM der bits)
  (howner : validateAcquire pool owner = .ok ())

include hstd howner in
theorem Sealed.size (h : Sealed lib der bits host owner length e) :
    (marshalEnvelope e).utf8ByteSize = sealedSize host owner bits length := by
  obtain ⟨wrapped, hwrapped, hwrappedLength⟩ := h.wrappedKey
  obtain ⟨nonce, hnonce, hnonceLength⟩ := h.nonce
  obtain ⟨ciphertext, hciphertext, hciphertextLength⟩ := h.ciphertext
  have hsize := size_marshalEnvelope h.version h.algorithm (h.owner ▸ (owner_plain howner).1)
    (h.keyFingerprint ▸ plain_hexEncode) (hwrapped ▸ plain_base64Encode)
    (hnonce ▸ plain_base64Encode) (hciphertext ▸ plain_base64Encode)
  rw [h.host, h.owner, h.keyFingerprint, hwrapped, hnonce, hciphertext, length_hexEncode,
    length_base64Encode, length_base64Encode, length_base64Encode, hstd.sha256, hwrappedLength,
    hnonceLength, hciphertextLength] at hsize
  rw [hsize, sealedSize]
  omega

include hstd hkey howner in
/-- **The server accepts what was sealed** exactly if it is not too large, and the key is not. -/
theorem validateEnvelope_sealed {row : Host} (hname : row.name = host)
    (hrowKey : row.publicKey = publicKeyPEM) (hrowOwner : row.owner = owner) (hpos : 1 ≤ length)
    (hmax : length ≤ maxPlaintext) (h : Sealed lib der bits host owner length e)
    (hjson : lib.decodeEnvelope (marshalEnvelope e) = some (e, false)) :
    validateEnvelope lib (marshalEnvelope e) row = .ok () ↔
      bits ≤ 16384 ∧ sealedSize host owner bits length ≤ 6 * 2 ^ 20 := by
  have hsize := h.size hstd howner
  obtain ⟨wrapped, hwrapped, hwrappedLength⟩ := h.wrappedKey
  obtain ⟨nonce, hnonce, hnonceLength⟩ := h.nonce
  obtain ⟨ciphertext, hciphertext, hciphertextLength⟩ := h.ciphertext
  have hfingerprint : enrollmentFingerprint lib row.publicKey = .ok (hexEncode (lib.sha256 der)) :=
    hrowKey ▸ hkey.fingerprint
  have hleast := hkey.size
  have hpositive : 0 < sealedSize host owner bits length := by
    unfold sealedSize
    omega
  unfold maxPlaintext at hmax
  simp only [validateEnvelope, check_bind_eq_ok, failIf_eq_ok, hjson, hfingerprint, hsize,
    h.version, h.algorithm, h.host, h.owner, h.keyFingerprint, hname, hrowOwner, hwrapped, hnonce,
    hciphertext, hstd.base64, hwrappedLength, hnonceLength, hciphertextLength]
  rw [show ∀ f : String → Except Err Unit, (Except.ok (hexEncode (lib.sha256 der)) >>= f) =
    f (hexEncode (lib.sha256 der)) from fun _ => rfl]
  simp only [check_bind_eq_ok, failIf_eq_ok, algorithm, ne_eq, not_true_eq_false, or_self,
    not_false_eq_true, true_and, Bool.false_eq_true, false_or]
  omega

include hkey howner in
/-- **The provider seals** exactly if there is no break in the name. -/
theorem sealEnvelope_eq (hstd : crypto.Standard lib) {plaintext : Bytes} (hhost : host ≠ "")
    (hpos : 1 ≤ plaintext.length) (hmax : plaintext.length ≤ maxPlaintext) :
    if host.toList.any isBreak then
      sealEnvelope lib crypto publicKeyPEM host owner plaintext =
        .error (.msg "host and claim owner are required")
    else ∃ e, sealEnvelope lib crypto publicKeyPEM host owner plaintext = .ok e ∧
      Sealed lib der bits host owner plaintext.length e := by
  obtain ⟨⟨block, rest, hdecode, htype, hrest, rfl⟩, hparse, hleast⟩ := hkey
  have hbreaks : (host ++ owner).toList.any isBreak = host.toList.any isBreak := by
    have howner : owner.toList.any isBreak = false :=
      List.any_eq_false.mpr fun c hc => by simp [(owner_plain howner).2 c hc]
    rw [String.toList_append, List.any_append, howner, Bool.or_false]
  unfold sealEnvelope
  rw [hbreaks, (owner_chars howner).1]
  split
  · rename_i hbreak
    rw [if_pos (Or.inr (Or.inr hbreak))]
  · rename_i hbreak
    obtain ⟨key, hsymmetric, hkeyLength⟩ := hstd.symmetric
    obtain ⟨nonce, hnonce, hnonceLength⟩ := hstd.nonce
    obtain ⟨gcm, hgcm, hgcmLength⟩ := hstd.gcm key hkeyLength
    obtain ⟨wrapped, hwrapped, hwrappedLength⟩ :=
      hstd.oaep block.bytes bits key (contextData host owner) hparse hleast hkeyLength
    rw [if_neg (by simp [hhost, hbreak]), if_neg (by omega), hdecode]
    dsimp only
    rw [if_neg (by simp [htype, hrest]), hparse]
    dsimp only
    rw [if_neg (by omega)]
    simp only [hsymmetric, hgcm, hnonce, hwrapped, bind, Except.bind, pure, Except.pure]
    exact ⟨_, rfl, rfl, rfl, rfl, rfl, rfl, ⟨_, rfl, hwrappedLength⟩, ⟨_, rfl, hnonceLength⟩,
      ⟨_, rfl, hgcmLength _ _ _⟩⟩

end Envelopes

/-- **The limits of the provider and of the server**: no break in the name of the host, no more than
16384 bits in its key, and an envelope that is not too large. -/
structure Fits (lib : Lib) (publicKeyPEM host owner : String) (plaintext : Bytes) : Prop where
  name : host.toList.any isBreak = false
  key : keyBits lib publicKeyPEM ≤ 16384
  size : sealedSize host owner (keyBits lib publicKeyPEM) plaintext.length ≤ 6 * 2 ^ 20

/-- **An enrolled host can be sealed to exactly within these limits**, and the context of its claim is
the one of no other claim. -/
theorem sealed_iff {lib : Lib} {crypto : Crypto} {s : Server} {name owner pool : String}
    {req : RegisterReq} {h row : Host} {plaintext : Bytes} (hstd : crypto.Standard lib)
    (haccept : Accepts lib s name req h) (howner : validateAcquire pool owner = .ok ())
    (hpos : 1 ≤ plaintext.length) (hmax : plaintext.length ≤ maxPlaintext)
    (hname : row.name = name) (hkey : row.publicKey = h.publicKey) (hrow : row.owner = owner)
    (hjson : ∀ e, sealEnvelope lib crypto h.publicKey name owner plaintext = .ok e →
      lib.decodeEnvelope (marshalEnvelope e) = some (e, false)) :
    ((∃ raw, sealBootstrap lib crypto h.publicKey name owner plaintext = .ok raw ∧
      validateEnvelope lib raw row = .ok ()) ↔ Fits lib h.publicKey name owner plaintext) ∧
    ∀ host' owner' pool', validateAcquire pool' owner' = .ok () →
      contextData name owner = contextData host' owner' → name = host' ∧ owner = owner' := by
  refine ⟨?_, fun host' owner' pool' howner' => contextData_inj howner howner'⟩
  obtain ⟨hne, hreq, der, bits, hder⟩ := haccept.enrolled
  rw [← hreq] at hder
  have hsealing := sealEnvelope_eq hder howner hstd hne hpos hmax
  unfold sealBootstrap
  split at hsealing
  · rename_i hbreak
    rw [hsealing]
    constructor
    · rintro ⟨raw, hraw, -⟩
      cases hraw
    · rintro ⟨hnone, -, -⟩
      rw [hbreak] at hnone
      cases hnone
  · rename_i hbreak
    obtain ⟨e, he, hsealed⟩ := hsealing
    have hvalid := validateEnvelope_sealed hstd hder howner hname hkey hrow hpos hmax hsealed
      (hjson e he)
    rw [he]
    constructor
    · rintro ⟨raw, hraw, hok⟩
      cases hraw
      obtain ⟨hbits, hsize⟩ := hvalid.mp hok
      exact ⟨by simpa using hbreak, hder.keyBits ▸ hbits, hder.keyBits ▸ hsize⟩
    · rintro ⟨-, hbits, hsize⟩
      rw [hder.keyBits] at hbits hsize
      exact ⟨_, rfl, hvalid.mpr ⟨hbits, hsize⟩⟩

/-! ### Two hosts -/

/-- The result of `Seal` for the sample key, with zeros from the libraries of cryptography. -/
def sampleEnvelope : Envelope :=
  { version := 1, algorithm, host := "m1", owner := "capi-a"
    keyFingerprint := hexEncode sampleKeyDigest
    wrappedKey := base64Encode (List.replicate 256 0)
    nonce := base64Encode (List.replicate 12 0)
    ciphertext := base64Encode (List.replicate 17 0) }

/-- The libraries of the sample. -/
def sampleLib : Lib :=
  { Lib.sample [(marshalEnvelope sampleEnvelope, sampleEnvelope)] with
    sha256 bytes := if bytes = sampleKeyBytes then sampleKeyDigest else List.replicate 32 0
    base64Decode := base64Decode }

theorem sampleLib_decodeEnvelope {raw : String} : sampleLib.decodeEnvelope raw =
    ([(marshalEnvelope sampleEnvelope, sampleEnvelope)].lookup raw).map fun e => (e, false) := rfl

/-- Cryptography with outputs of the standard lengths. -/
def sampleCrypto : Crypto where
  symmetric := .ok (List.replicate 32 0)
  newGCM _ := .ok fun _ plaintext _ => plaintext ++ List.replicate 16 0
  nonce := .ok (List.replicate 12 0)
  encryptOAEP _ _ _ := .ok (List.replicate 256 0)

theorem sampleCrypto_standard : sampleCrypto.Standard sampleLib where
  symmetric := ⟨_, rfl, List.length_replicate⟩
  nonce := ⟨_, rfl, List.length_replicate⟩
  gcm key _ := ⟨_, rfl, fun nonce plaintext label => by simp⟩
  oaep der bits msg label hparse _ _ := by
    refine ⟨_, rfl, ?_⟩
    have hbits : (if der = sampleKeyBytes then some (PublicKey.rsa 2048) else none) =
      some (PublicKey.rsa bits) := hparse
    split at hbits
    · obtain rfl := PublicKey.rsa.inj (Option.some.inj hbits)
      exact List.length_replicate
    · cases hbits
  sha256 bytes := by
    show (if bytes = sampleKeyBytes then sampleKeyDigest else List.replicate 32 0).length = 32
    split <;> rfl
  base64 := base64Decode_base64Encode

/-- An enrollment with the sample key. -/
def sampleRegister : RegisterReq :=
  { pool := "pool", publicKey := sampleKey, targetDisk := "/dev/sda" }

/-- What an enrollment of a machine of the sample returns. -/
def sampleHost (name : String) : Host :=
  { name, pool := "pool", publicKey := sampleKey, targetDisk := "/dev/sda", revision := 1 }

/-- The row of the host after it was claimed. -/
def sampleRow : Host := { sampleHost "m1" with owner := "capi-a", state := .claimed, revision := 2 }

/-- The enrollment of a machine, alone. -/
def enroll (name : String) : Option (List (Event Res) × (ℕ → Prog Res Response) × World) :=
  play (step sampleLib) (List.replicate 4 (0, World.answer sampleLib Query.silent))
    ([], fun _ => registerBareMetalHost sampleLib {} name (some sampleRegister),
      { db := Database.empty.setMachine name ((Machine.sample name).toRow sampleLib 0) })

theorem accepts_of_enroll {h : Host} (heval : ((enroll name).any fun x =>
      (x.2.1 0).answer? = some { status := 200, body := .host h }) = true) :
    Accepts sampleLib {} name sampleRegister h := by
  obtain ⟨T, c, w, hrun, hcheck⟩ := exists_run_of_play heval
  have hdone : c 0 = .ret _ := Prog.answer?_eq_some.mp (of_decide_eq_true hcheck)
  exact ⟨_, hdone ▸ hrun.path 0⟩

/-- A host with a usual name is within the limits. -/
theorem sealed_plain : ∃ raw,
    sealBootstrap sampleLib sampleCrypto (sampleHost "m1").publicKey "m1" "capi-a" [0] = .ok raw ∧
      validateEnvelope sampleLib raw sampleRow = .ok () := by
  have hseal : sealEnvelope sampleLib sampleCrypto (sampleHost "m1").publicKey "m1" "capi-a" [0] =
      .ok sampleEnvelope := by decide +kernel
  have howner : validateAcquire "pool" "capi-a" = .ok () := by decide
  have hfits : Fits sampleLib (sampleHost "m1").publicKey "m1" "capi-a" [0] :=
    ⟨by decide +kernel, by decide +kernel, by decide +kernel⟩
  have hjson : ∀ e, sealEnvelope sampleLib sampleCrypto (sampleHost "m1").publicKey "m1" "capi-a" [0] =
      .ok e → sampleLib.decodeEnvelope (marshalEnvelope e) = some (e, false) := by
    intro e he
    obtain rfl : sampleEnvelope = e := Except.ok.inj (hseal.symm.trans he)
    rw [sampleLib_decodeEnvelope, List.lookup_cons_self, Option.map_some]
  have hmax : ([0] : Bytes).length ≤ maxPlaintext := by decide
  have haccept : Accepts sampleLib {} "m1" sampleRegister (sampleHost "m1") :=
    accepts_of_enroll (by decide +kernel)
  have hrow : sampleRow.publicKey = (sampleHost "m1").publicKey := rfl
  exact (sealed_iff sampleCrypto_standard haccept howner (le_refl 1) hmax
    (show sampleRow.name = "m1" from rfl) hrow rfl hjson).1.mpr hfits

/-- A machine may have a line break in its name, and is enrolled with it, but nothing can be sealed
for it. -/
theorem sealed_break :
    validateMachine (Machine.sample "a\nb") = .ok () ∧ validateAcquire "pool" "capi-a" = .ok () ∧
      Accepts sampleLib {} "a\nb" sampleRegister (sampleHost "a\nb") ∧
      ∀ crypto : Crypto,
        sealBootstrap sampleLib crypto (sampleHost "a\nb").publicKey "a\nb" "capi-a" [0] =
          .error (.msg "host and claim owner are required") :=
  ⟨by decide, by decide, accepts_of_enroll (by decide +kernel), fun _ => rfl⟩

end Gomi.SealedSeed
