import Gomi.Machine.Types

/-!
# The libraries that are not embedded

`Gomi.Lib` collects the functions of the Go standard library that the modelled code
calls and that are too large to embed: the PEM, PKIX and SHA-256 functions behind
an enrolled key, the JSON codec and base64 behind a sealed envelope, and the texts
of instants and floating-point numbers. A development about the code is about every
value of this structure, so nothing is assumed of these functions but the two facts
about JSON texts that are its fields.
-/

namespace Gomi

/-- A PEM block: its type and its bytes. -/
structure PEMBlock where
  type : String
  bytes : List UInt8
  deriving DecidableEq

/-- A public key, as far as the code looks at it: `*rsa.PublicKey` with the bit
length of its modulus, or a key of another kind. -/
inductive PublicKey where
  | rsa (bits : ℕ)
  | other
  deriving DecidableEq

/-- The fields of a sealed envelope. -/
structure Envelope where
  version : ℤ := 0
  algorithm : String := ""
  host : String := ""
  owner : String := ""
  keyFingerprint : String := ""
  wrappedKey : String := ""
  nonce : String := ""
  ciphertext : String := ""
  deriving DecidableEq

/-- The library functions that are not embedded. -/
structure Lib where
  /-- `pem.Decode`: the first block of a text and what follows it. -/
  pemDecode : String → Option (PEMBlock × String)
  /-- `x509.ParsePKIXPublicKey`. -/
  parsePKIXPublicKey : List UInt8 → Option PublicKey
  /-- `sha256.Sum256`. -/
  sha256 : List UInt8 → List UInt8
  /-- The first JSON value of a text, decoded strictly into an envelope, and whether
  anything follows it. -/
  decodeEnvelope : String → Option (Envelope × Bool)
  /-- `base64.StdEncoding.Strict().DecodeString`. -/
  base64Decode : String → Option (List UInt8)
  /-- What `json.Marshal` writes for a `json.RawMessage` that holds a JSON text, and
  `json.Unmarshal` reads back: the same value without insignificant space, and `null` for an
  empty message. -/
  marshalRaw : String → String
  /-- `json.Marshal` of a text. -/
  marshalText : String → String
  /-- `t.Format(time.RFC3339)`. -/
  formatRFC3339 : Time → String
  /-- `time.Parse(time.RFC3339, s)`. -/
  parseRFC3339 : String → Option Time
  /-- `time.Parse(time.RFC3339Nano, s)`. -/
  parseRFC3339Nano : String → Option Time
  /-- `strconv.ParseFloat(s, 64)`. -/
  parseFloat : String → Option ℚ
  /-- `strconv.FormatFloat(v, 'f', -1, 64)`. -/
  formatFloat : ℚ → String
  /-- A text that `json.Marshal` wrote is written back as it is. -/
  marshalRaw_marshalRaw : ∀ text, marshalRaw (marshalRaw text) = marshalRaw text
  /-- An empty message is written as `null`. -/
  marshalRaw_empty : marshalRaw "" = "null"

/-! ### A library for concrete runs

Runs on concrete data need concrete values of these functions. `Gomi.Lib.sample` has
them for the enrolled key of the repository's tests, for JSON texts without
insignificant space, for base64 texts of zero bytes, and for the epoch. -/

/-- `internal/baremetal/testdata/host-public.pem`. -/
def sampleKey : String :=
    "-----BEGIN PUBLIC KEY-----\n" ++
    "MIIBIjANBgkqhkiG9w0BAQEFAAOCAQ8AMIIBCgKCAQEA6N40LMlLPPmTXPfc9+oP\n" ++
    "abFt9TMz6teqapyWfJ891vnhSdZsmsHmKYIZ77UXsSaB16NSi0syec1xDvu8ye1b\n" ++
    "ijMn7PQeh3ukG1KOpPdj/qLVoVWHXZmFnx9MRYn7DBfeYHa/Cj/Vr5+NEGdTRCkz\n" ++
    "bB1lkImMGkydfru5X0sIxvrJ3jGgVhpt93oKiA/cPl7RWY7zCCJm4yVnJwgfmoD+\n" ++
    "fXVh9tQp0j13CMcAAq+yzGuqW72jKhJ1cmna05QNHyjUO/EvuodHZ1XgYAWx2vmE\n" ++
    "fPrOv4baI3F0sJiQAvptDkfdcqytCwbO9SJtSZ5xNieSKaeesBgaYRAXtzzaQItZ\n" ++
    "fQIDAQAB\n" ++
    "-----END PUBLIC KEY-----\n"

/-- The bytes of the PEM block of `Gomi.sampleKey`. -/
def sampleKeyBytes : List UInt8 :=
   [48, 130, 1, 34, 48, 13, 6, 9, 42, 134, 72, 134, 247, 13, 1, 1, 1, 5, 0, 3, 130, 1, 15, 0, 48,
    130, 1, 10, 2, 130, 1, 1, 0, 232, 222, 52, 44, 201, 75, 60, 249, 147, 92, 247, 220, 247, 234,
    15, 105, 177, 109, 245, 51, 51, 234, 215, 170, 106, 156, 150, 124, 159, 61, 214, 249, 225, 73,
    214, 108, 154, 193, 230, 41, 130, 25, 239, 181, 23, 177, 38, 129, 215, 163, 82, 139, 75, 50,
    121, 205, 113, 14, 251, 188, 201, 237, 91, 138, 51, 39, 236, 244, 30, 135, 123, 164, 27, 82,
    142, 164, 247, 99, 254, 162, 213, 161, 85, 135, 93, 153, 133, 159, 31, 76, 69, 137, 251, 12,
    23, 222, 96, 118, 191, 10, 63, 213, 175, 159, 141, 16, 103, 83, 68, 41, 51, 108, 29, 101, 144,
    137, 140, 26, 76, 157, 126, 187, 185, 95, 75, 8, 198, 250, 201, 222, 49, 160, 86, 26, 109,
    247, 122, 10, 136, 15, 220, 62, 94, 209, 89, 142, 243, 8, 34, 102, 227, 37, 103, 39, 8, 31,
    154, 128, 254, 125, 117, 97, 246, 212, 41, 210, 61, 119, 8, 199, 0, 2, 175, 178, 204, 107,
    170, 91, 189, 163, 42, 18, 117, 114, 105, 218, 211, 148, 13, 31, 40, 212, 59, 241, 47, 186,
    135, 71, 103, 85, 224, 96, 5, 177, 218, 249, 132, 124, 250, 206, 191, 134, 218, 35, 113, 116,
    176, 152, 144, 2, 250, 109, 14, 71, 221, 114, 172, 173, 11, 6, 206, 245, 34, 109, 73, 158,
    113, 54, 39, 146, 41, 167, 158, 176, 24, 26, 97, 16, 23, 183, 60, 218, 64, 139, 89, 125, 2, 3,
    1, 0, 1]

/-- The SHA-256 digest of `Gomi.sampleKeyBytes`. -/
def sampleKeyDigest : List UInt8 :=
   [97, 73, 239, 43, 95, 246, 91, 178, 174, 12, 222, 150, 244, 70, 98, 78, 70, 137, 103, 0, 122,
    26, 210, 130, 242, 238, 31, 255, 60, 112, 96, 35]

/-- The library functions on the data of concrete runs, with the sealed envelopes that
the run is about. -/
def Lib.sample (envelopes : List (String × Envelope)) : Lib where
  pemDecode text := if text = sampleKey then some (⟨"PUBLIC KEY", sampleKeyBytes⟩, "") else none
  parsePKIXPublicKey bytes := if bytes = sampleKeyBytes then some (.rsa 2048) else none
  sha256 bytes := if bytes = sampleKeyBytes then sampleKeyDigest else []
  decodeEnvelope text := (envelopes.lookup text).map fun envelope => (envelope, false)
  base64Decode text :=
    if text.toList.all (· == 'A') ∧ text.toList.length % 4 = 0 then
      some (List.replicate (3 * (text.toList.length / 4)) 0)
    else none
  marshalRaw text := if text = "" then "null" else text
  marshalText text := "\"" ++ text ++ "\""
  formatRFC3339 t := if t = 0 then "1970-01-01T00:00:00Z" else ""
  parseRFC3339 text := if text = "1970-01-01T00:00:00Z" then some 0 else none
  parseRFC3339Nano text := if text = "1970-01-01T00:00:00Z" then some 0 else none
  parseFloat text := if text = "0" then some 0 else none
  formatFloat v := if v = 0 then "0" else ""
  marshalRaw_marshalRaw text := by
    by_cases h : text = "" <;> simp [h]
  marshalRaw_empty := rfl

/-- A machine that can be installed and enrolled. -/
def Machine.sample (name : String) : Machine :=
  { name, hostname := name, mac := "52:54:00:12:34:56", arch := "amd64", firmware := .uefi
    power := { type := .ipmi, ipmi := some { host := "10.0.0.9" } }
    osPreset := { family := "ubuntu", version := "24.04", imageRef := "ubuntu" }
    phase := .ready }

end Gomi
