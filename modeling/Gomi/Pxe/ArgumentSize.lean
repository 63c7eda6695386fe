import Gomi.Pxe.Installer

/-!
# The size of an installer command

The server takes an envelope of up to six mebibytes for a claimed host (`Gomi.validateEnvelope`). To
hand it to the installer, it writes the envelope in base64 into the text of a command
(`Gomi.configureSealedBootstrap`), and that text is one argument of `sh -c`. The kernel of the
installer takes an argument only if it has, with the byte that ends it, at most 131072 bytes.

This file computes the size of the command from the sizes of what is written into it, through both
encodings and the quotes, and compares: the commands of an accepted envelope can be executed
exactly if `Gomi.Installer.commandSize` is below the limit
(`Gomi.Installer.accepted_fits_iff`). An envelope of 98304 bytes is too large already.
-/

namespace Gomi.Installer

open Go SealedSeed

variable {length : ℕ} {bytes : Bytes} {s : String}

/-- The bytes that an argument of a command may have, with the one that ends it. -/
def maxArgument : ℕ := 131072

/-! ### Sizes -/

/-- The bytes of a text. -/
def byteSize (l : List Char) : ℕ := (String.ofList l).utf8ByteSize

theorem byteSize_toList : byteSize s.toList = s.utf8ByteSize := by
  rw [byteSize, String.ofList_toList]

theorem byteSize_append (a b : List Char) : byteSize (a ++ b) = byteSize a + byteSize b := by
  rw [byteSize, String.ofList_append, String.utf8ByteSize_append]
  rfl

/-- The bytes of a quoted text. -/
def quotedSize (s : String) : ℕ := s.utf8ByteSize + 4 * s.toList.count '\'' + 2

theorem byteSize_quoteChar (c : Char) :
    byteSize (Shell.quoteChar c) = byteSize [c] + if c = '\'' then 4 else 0 := by
  rw [Shell.quoteChar]
  split
  · rename_i hc
    rw [hc]
    decide
  · rfl

/-- **A quote takes four more bytes.** -/
theorem byteSize_quote : byteSize (Shell.quote s.toList) = quotedSize s := by
  have hmiddle : ∀ l : List Char,
      byteSize (l.flatMap Shell.quoteChar) = byteSize l + 4 * l.count '\'' := by
    intro l
    induction l with
    | nil => decide
    | cons c l ih =>
      rw [List.flatMap_cons, byteSize_append, byteSize_quoteChar, ih,
        show byteSize (c :: l) = byteSize [c] + byteSize l from byteSize_append [c] l,
        List.count_cons]
      split <;> simp_all <;> omega
  have hone : byteSize ['\''] = 1 := by decide
  rw [Shell.quote, List.cons_append, ← List.singleton_append, byteSize_append, byteSize_append,
    hmiddle, hone, byteSize_toList, quotedSize]
  omega

/-- The size of a text without quotes. -/
theorem quotedSize_of_plain (hplain : SealedSeed.Plain s) (hquote : '\'' ∉ s.toList) :
    quotedSize s = s.length + 2 := by
  rw [quotedSize, utf8ByteSize_ascii fun c hc => (hplain c hc).1, List.count_eq_zero.mpr hquote]

/-- The size of an envelope between quotes, in base64. -/
theorem quotedSize_base64 :
    quotedSize (base64Encode bytes) = 4 * ((bytes.length + 2) / 3) + 2 := by
  rw [quotedSize_of_plain (plain_base64Encode), length_base64Encode]
  rw [base64Encode, String.toList_ofList]
  have hall : ∀ c ∈ base64Digits bytes, c ≠ '\'' := by
    refine forall_mem_base64Digits (fun n hn => ?_) (by decide)
    exact (show ∀ n : Fin 64, base64Digit n ≠ '\'' by decide) ⟨n, hn⟩
  exact fun hmem => hall _ hmem rfl

theorem quotedSize_hex : quotedSize (hexEncode bytes) = 2 * bytes.length + 2 := by
  rw [quotedSize_of_plain (plain_hexEncode), length_hexEncode]
  exact fun hmem => forall_mem_hexEncode (P := (· ≠ '\'')) (by decide) hmem rfl

theorem length_textBytes : (textBytes s).length = s.utf8ByteSize := rfl

/-! ### The commands -/

/-- A text in ASCII. -/
def isText (l : List Char) (size : ℕ) : Bool := l.length = size ∧ l.all fun c => c.toNat < 128

theorem byteSize_of_isText {l : List Char} {size : ℕ} (h : isText l size = true) :
    byteSize l = size := by
  obtain ⟨hlength, hascii⟩ := of_decide_eq_true h
  rw [byteSize, utf8ByteSize_ascii, String.length_ofList, hlength]
  intro c hc
  rw [String.toList_ofList] at hc
  exact of_decide_eq_true (List.all_eq_true.mp hascii c hc)

set_option maxRecDepth 4096 in
/-- The fixed texts of the early command, and of the late one. -/
theorem text_sizes :
    (isText beforeDisk 96 ∧ isText beforeFingerprint 15 ∧ isText afterFingerprint 45 ∧
      isText beforeEnvelope 14 ∧ isText beforeHost 145 ∧ isText beforeOwner 9 ∧
      isText afterOwner 100) ∧ isText identityText 280 ∧ isText mergeText 141 := by
  rw [show beforeDisk = _ from String.toList_ofList, show afterFingerprint = _ from String.toList_ofList,
    show beforeHost = _ from toList_two, show afterOwner = _ from toList_two,
    show identityText = _ from toList_three, show mergeText = _ from toList_two]
  decide

/-- **The size of the early command**, from the sizes of the envelope, the disk, the name of the host
and the owner. -/
def commandSize (envelope disk name owner : String) : ℕ :=
  492 + 4 * ((envelope.utf8ByteSize + 2) / 3) + quotedSize disk + quotedSize name + quotedSize owner

section Sizes

variable {name disk : String} {seed : SealedBootstrap} (hcleanup : seed.cleanup = false)
include hcleanup

theorem size_earlyCommand {digest : Bytes} (hfingerprint : seed.keyFingerprint = hexEncode digest)
    (hdigest : digest.length = 32) :
    (earlyCommand name disk seed).utf8ByteSize = commandSize seed.envelope disk name seed.owner := by
  obtain ⟨hdisk, hprint, hoption, henvelope, hhost, howner, hinput⟩ := text_sizes.1
  rw [← byteSize_toList, earlyCommand, if_neg (by rw [hcleanup]; simp), String.toList_append,
    toList_preserve, toList_unseal]
  simp only [byteSize_append, byteSize_quote]
  rw [byteSize_of_isText hdisk, byteSize_of_isText hprint, byteSize_of_isText hoption,
    byteSize_of_isText henvelope, byteSize_of_isText hhost, byteSize_of_isText howner,
    byteSize_of_isText hinput, quotedSize_base64, hfingerprint, quotedSize_hex, hdigest, length_textBytes, commandSize]
  omega

theorem size_lateCommand : (lateCommand seed).utf8ByteSize = 421 + quotedSize seed.owner := by
  obtain ⟨hidentity, hmerge⟩ := text_sizes.2
  rw [← byteSize_toList, lateCommand, if_neg (by rw [hcleanup]; simp), String.toList_append,
    toList_identity, toList_merge, byteSize_append, byteSize_append, byteSize_quote,
    byteSize_of_isText hidentity, byteSize_of_isText hmerge]
  omega

end Sizes

/-! ### Accepted envelopes -/

section Accepted

variable {lib : Lib} {raw : String} {h : Host}

/-- The fingerprint of a host for which an envelope is accepted. -/
theorem fingerprint_of_valid (hvalid : validateEnvelope lib raw h = .ok ()) :
    raw.utf8ByteSize ≠ 0 ∧ ∃ der, fingerprintOrEmpty lib h.publicKey = hexEncode (lib.sha256 der) := by
  rw [validateEnvelope, check_bind_eq_ok, failIf_eq_ok] at hvalid
  obtain ⟨hsize, hvalid⟩ := hvalid
  refine ⟨(not_or.mp hsize).1, ?_⟩
  cases hdecode : lib.decodeEnvelope raw with
  | none =>
    rw [hdecode] at hvalid
    cases hvalid
  | some result =>
    obtain ⟨envelope, trailing⟩ := result
    rw [hdecode] at hvalid
    obtain ⟨-, hvalid⟩ := check_bind_eq_ok.mp hvalid
    obtain ⟨fingerprint, hfingerprint, -⟩ := bind_eq_ok.mp hvalid
    obtain ⟨der, bits, -, rfl⟩ := key_of_fingerprint hfingerprint
    exact ⟨der, by rw [fingerprintOrEmpty, hfingerprint]⟩

/-- A digest in hexadecimal is a fingerprint. -/
theorem fingerprintPattern_hex {digest : Bytes} (hdigest : digest.length = 32) :
    fingerprintPattern (hexEncode digest) = true := by
  refine decide_eq_true ⟨?_, List.all_eq_true.mpr fun c hc => ?_⟩
  · have hlength := length_hexEncode digest
    rw [hdigest] at hlength
    rw [String.length_toList]
    exact hlength
  · exact forall_mem_hexEncode
      (P := fun c => decide (isDigit c = true ∨ ('a' ≤ c ∧ c ≤ 'f')) = true) (by decide) hc

/-- An owner that can claim a host passes the check of the installer. -/
theorem claimOwnerPattern_of_acquire {pool owner : String}
    (howner : validateAcquire pool owner = .ok ()) : claimOwnerPattern owner = true := by
  have hpattern : ownerPattern owner = true := by
    unfold validateAcquire at howner
    split at howner
    · cases howner
    · rename_i hchecks
      simpa using (not_or.mp hchecks).2
  rw [ownerPattern] at hpattern
  rw [claimOwnerPattern]
  cases hrest : afterStart "capi-" owner.toList with
  | none =>
    rw [hrest] at hpattern
    cases hpattern
  | some rest =>
    rw [hrest] at hpattern
    dsimp only at hpattern
    obtain ⟨hlength, hchars⟩ := Bool.and_eq_true_iff.mp hpattern
    refine decide_eq_true ⟨?_, ?_⟩
    · rintro rfl
      cases hlength
    · simpa [or_assoc] using hchars

/-- The bootstrap that a deployment stores. -/
def sealedFor (lib : Lib) (h : Host) (raw : String) : SealedBootstrap :=
  { owner := h.owner, keyFingerprint := fingerprintOrEmpty lib h.publicKey, envelope := raw }

/-- The commands that `configureSealedBootstrap` puts into a configuration. -/
def Puts (cfg' : CurtinConfig) (command : List String) : Prop :=
  (∃ key : String, cfg'.earlyCommands[key]? = some command) ∨
    cfg'.lateCommands["99-gomi-sealed-bootstrap"]? = some command

/-- **The configuration for an accepted envelope**, and the sizes of its commands. -/
theorem accepted_commands (hsha : ∀ bytes, (lib.sha256 bytes).length = 32)
    (hvalid : validateEnvelope lib raw h = .ok ()) {pool : String}
    (howner : validateAcquire pool h.owner = .ok ()) {m : Machine} (hname : m.name = h.name)
    (img : OSImage) (cloudInitRef : String) (cfg : CurtinConfig) (disk : String) :
    ∃ cfg' early late,
      configureSealedBootstrap cfg (deployedMachine lib h m img cloudInitRef raw) disk = .ok cfg' ∧
      (∀ command, Puts cfg' command ↔ command = ["sh", "-c", early] ∨ command = ["sh", "-c", late]) ∧
      early.utf8ByteSize = commandSize raw disk h.name h.owner ∧
      late.utf8ByteSize = 421 + quotedSize h.owner := by
  obtain ⟨hsize, der, hder⟩ := fingerprint_of_valid hvalid
  have hdigest := hsha der
  have hseed : (deployedMachine lib h m img cloudInitRef raw).sealedBootstrap =
      some (sealedFor lib h raw) := rfl
  have hpattern : fingerprintPattern (sealedFor lib h raw).keyFingerprint = true := by
    show fingerprintPattern (fingerprintOrEmpty lib h.publicKey) = true
    rw [hder]
    exact fingerprintPattern_hex hdigest
  obtain ⟨cfg', hok⟩ := configureSealedBootstrap_ok cfg disk hseed
    ⟨hpattern, claimOwnerPattern_of_acquire howner, fun _ => hsize⟩
  obtain ⟨-, hearly, hlate⟩ := (configureSealedBootstrap_eq_ok hseed).mp hok
  refine ⟨cfg', earlyCommand m.name disk (sealedFor lib h raw), lateCommand (sealedFor lib h raw), hok,
    fun command => ?_, ?_, size_lateCommand rfl⟩
  · rw [Puts, hearly, hlate, Table.get_insert, if_pos rfl]
    refine or_congr ?_ ⟨fun hcommand => (Option.some.inj hcommand).symm, fun hcommand => hcommand ▸ rfl⟩
    constructor
    · rintro ⟨key, hcommand⟩
      exact ((Table.insert_cases hcommand).resolve_right (by simp)).2.symm
    · rintro rfl
      refine ⟨"00-gomi-preserve-bootstrap", ?_⟩
      rw [Table.get_insert, if_pos rfl]
      rfl
  · rw [hname]
    exact size_earlyCommand rfl hder hdigest

/-- **An accepted envelope can be installed exactly if the command is not too large.** For a claimed
host and an envelope that is accepted for it, the configuration is written; and all arguments of its
commands are below the limit of the kernel exactly if the size of the envelope in base64, with the
other arguments, is. -/
theorem accepted_fits_iff (hsha : ∀ bytes, (lib.sha256 bytes).length = 32)
    (hvalid : validateEnvelope lib raw h = .ok ()) {pool : String}
    (howner : validateAcquire pool h.owner = .ok ()) {m : Machine} (hname : m.name = h.name)
    (img : OSImage) (cloudInitRef : String) (cfg : CurtinConfig) (disk : String) :
    ∃ cfg', configureSealedBootstrap cfg (deployedMachine lib h m img cloudInitRef raw) disk = .ok cfg' ∧
      ((∀ command, Puts cfg' command → ∀ arg ∈ command, arg.utf8ByteSize < maxArgument) ↔
        commandSize raw disk h.name h.owner < maxArgument) := by
  obtain ⟨cfg', early, late, hok, hputs, hearly, hlate⟩ :=
    accepted_commands hsha hvalid howner hname img cloudInitRef cfg disk
  have hargs : ∀ x : String, x.utf8ByteSize < maxArgument →
      ∀ arg ∈ ["sh", "-c", x], arg.utf8ByteSize < maxArgument := by
    intro x hx
    simp only [List.forall_mem_cons]
    exact ⟨by decide, by decide, hx, by simp⟩
  refine ⟨cfg', hok, fun hall => ?_, fun hlimit command hcommand arg harg => ?_⟩
  · exact hearly ▸ hall _ ((hputs _).mpr (Or.inl rfl)) early (by simp)
  · rcases (hputs command).mp hcommand with rfl | rfl
    · exact hargs early (hearly ▸ hlimit) arg harg
    · -- the late command is always the smaller one
      refine hargs late ?_ arg harg
      rw [hlate]
      rw [commandSize] at hlimit
      omega

end Accepted

/-! ### A small envelope and a large one -/

/-- The result of `Seal` for a plaintext of the given size, with zeros from the libraries of
cryptography. -/
def envelopeOf (length : ℕ) : Envelope :=
  { sampleEnvelope with ciphertext := base64Encode (List.replicate (length + 16) 0) }

/-- The libraries, which read this envelope. -/
def libOf (length : ℕ) : Lib :=
  { sampleLib with
    decodeEnvelope raw :=
      if raw = marshalEnvelope (envelopeOf length) then some (envelopeOf length, false) else none }

theorem decode_libOf {raw : String} : (libOf length).decodeEnvelope raw =
    if raw = marshalEnvelope (envelopeOf length) then some (envelopeOf length, false) else none := rfl

theorem sha256_libOf (length : ℕ) (bytes : Bytes) : ((libOf length).sha256 bytes).length = 32 :=
  sampleCrypto_standard.sha256 bytes

theorem standard_libOf : sampleCrypto.Standard (libOf length) :=
  { sampleCrypto_standard with }

theorem pemDecode_libOf {text : String} : (libOf length).pemDecode text =
    if text = sampleKey then some (⟨"PUBLIC KEY", sampleKeyBytes⟩, "") else none := rfl

theorem parse_libOf : (libOf length).parsePKIXPublicKey bytes =
    if bytes = sampleKeyBytes then some (.rsa 2048) else none := rfl

theorem digest_libOf : (libOf length).sha256 bytes =
    if bytes = sampleKeyBytes then sampleKeyDigest else List.replicate 32 0 := rfl

theorem key_libOf : Key (libOf length) sampleKey sampleKeyBytes 2048 := by
  refine ⟨⟨⟨"PUBLIC KEY", sampleKeyBytes⟩, "", ?_, rfl, by decide, rfl⟩, ?_, le_refl _⟩
  · rw [pemDecode_libOf, if_pos (Eq.refl sampleKey)]
  · rw [parse_libOf, if_pos (Eq.refl sampleKeyBytes)]

theorem sealed_envelopeOf :
    Sealed (libOf length) sampleKeyBytes 2048 "m1" "capi-a" length (envelopeOf length) where
  version := rfl
  algorithm := rfl
  host := rfl
  owner := rfl
  keyFingerprint := by
    rw [digest_libOf, if_pos (Eq.refl sampleKeyBytes)]
    rfl
  wrappedKey := ⟨_, rfl, List.length_replicate⟩
  nonce := ⟨_, rfl, List.length_replicate⟩
  ciphertext := ⟨_, rfl, List.length_replicate⟩

/-- The envelope of a plaintext that is not too large is accepted, and how large it is. -/
theorem valid_envelopeOf (hpos : 1 ≤ length) (hmax : length ≤ maxPlaintext) :
    validateEnvelope (libOf length) (marshalEnvelope (envelopeOf length)) sampleRow = .ok () ∧
      (marshalEnvelope (envelopeOf length)).utf8ByteSize = 567 + 4 * ((length + 18) / 3) := by
  have howner : validateAcquire "pool" "capi-a" = .ok () := by decide
  have hname : (jsonString "m1").utf8ByteSize = 4 := by decide
  have hlength : ("capi-a" : String).length = 6 := by decide
  have hsize : sealedSize "m1" "capi-a" 2048 length = 567 + 4 * ((length + 18) / 3) := by
    rw [sealedSize, hname, hlength]
  have hjson : (libOf length).decodeEnvelope (marshalEnvelope (envelopeOf length)) =
      some (envelopeOf length, false) := by
    rw [decode_libOf, if_pos rfl]
  have haccept : validateEnvelope (libOf length) (marshalEnvelope (envelopeOf length)) sampleRow =
      .ok () ↔ 2048 ≤ 16384 ∧ sealedSize "m1" "capi-a" 2048 length ≤ 6 * 2 ^ 20 :=
    validateEnvelope_sealed (standard_libOf) (key_libOf) howner rfl rfl rfl hpos hmax
      (sealed_envelopeOf) hjson
  rw [maxPlaintext] at hmax
  refine ⟨haccept.mpr ⟨by omega, ?_⟩, ?_⟩
  · rw [hsize]
    omega
  · rw [sealed_envelopeOf.size (standard_libOf) howner, hsize]

/-- The owner of the sample may claim a host. -/
theorem sampleRow_owner : validateAcquire "pool" sampleRow.owner = .ok () := by decide

/-- A small envelope can be installed. -/
theorem accepted_fits_small :
    validateEnvelope (libOf 1000) (marshalEnvelope (envelopeOf 1000)) sampleRow = .ok () ∧
      ∃ cfg', configureSealedBootstrap {} (deployedMachine (libOf 1000) sampleRow (Machine.sample "m1")
          {} "" (marshalEnvelope (envelopeOf 1000))) "/dev/sda" = .ok cfg' ∧
        ∀ command, Puts cfg' command → ∀ arg ∈ command, arg.utf8ByteSize < maxArgument := by
  obtain ⟨hvalid, hsize⟩ := @valid_envelopeOf 1000 (by decide) (by decide)
  obtain ⟨cfg', hok, hiff⟩ := accepted_fits_iff (sha256_libOf 1000) hvalid sampleRow_owner
    (show (Machine.sample "m1").name = sampleRow.name from rfl) {} "" {} "/dev/sda"
  refine ⟨hvalid, cfg', hok, hiff.mpr ?_⟩
  have hrest : quotedSize "/dev/sda" + quotedSize sampleRow.name + quotedSize sampleRow.owner = 22 := by
    decide
  rw [commandSize, hsize, maxArgument]
  omega

/-- **An envelope that is accepted and cannot be installed**, from a bootstrap of 100000 bytes. -/
theorem accepted_too_large :
    validateEnvelope (libOf 100000) (marshalEnvelope (envelopeOf 100000)) sampleRow = .ok () ∧
      ∃ cfg' command arg, configureSealedBootstrap {} (deployedMachine (libOf 100000) sampleRow
          (Machine.sample "m1") {} "" (marshalEnvelope (envelopeOf 100000))) "/dev/sda" = .ok cfg' ∧
        Puts cfg' command ∧ arg ∈ command ∧ maxArgument ≤ arg.utf8ByteSize := by
  obtain ⟨hvalid, hsize⟩ := @valid_envelopeOf 100000 (by decide) (by decide)
  obtain ⟨cfg', early, late, hok, hputs, hearly, -⟩ := accepted_commands (sha256_libOf 100000) hvalid
    sampleRow_owner (show (Machine.sample "m1").name = sampleRow.name from rfl) {} "" {} "/dev/sda"
  refine ⟨hvalid, cfg', ["sh", "-c", early], early, hok, (hputs _).mpr (Or.inl rfl), by simp, ?_⟩
  rw [hearly, commandSize, hsize, maxArgument]
  omega

end Gomi.Installer
