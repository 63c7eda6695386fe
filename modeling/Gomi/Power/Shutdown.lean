import Gomi.Go.Bytes
import Gomi.Go.Clock
import Gomi.Go.Strings
import Gomi.Retention

/-!
# Shutdown requests on the wire

A host that is powered by Wake-on-LAN is shut down by a datagram: the server builds and signs it
(`Gomi.Power.buildShutdownPacketWithRequestID`), a daemon on the host checks its form, its
signature and its age (`Gomi.Power.parseAndVerifyShutdownPacket`). What the server builds is read
back as it was meant, on any host whose clock is within the time to live of the server's
(`Gomi.Power.parse_build`). HMAC-SHA256 is a parameter; of it, only the length of its output is
used.

The daemon remembers the nonces of the requests it has honoured
(`Gomi.Power.ShutdownReplayCache`), for twice the time to live.
-/

namespace Gomi.Power

open Go

/-- `ShutdownPacket`. -/
structure ShutdownPacket where
  machineName : Bytes
  token : Bytes
  timestamp : Time
  nonce : Bytes
  deriving DecidableEq, Repr

/-- `RequestID`. -/
def ShutdownPacket.requestID (p : ShutdownPacket) : String := hexEncode p.nonce

/-- The errors of the parser: a fixed text, or the text that names the skew and the time to live. -/
inductive PacketError where
  | text (s : String)
  | outsideWindow (skew ttl : Duration)
  deriving DecidableEq, Repr

/-! ### Building and parsing -/

section Packet

/-- The four bytes of `GOMI`. -/
def magic : Bytes := [0x47, 0x4f, 0x4d, 0x49]

def magicLen : ℕ := 4
def timestampLen : ℕ := 8
def nonceLen : ℕ := 12
def sigLen : ℕ := 32
def headerLen : ℕ := magicLen + timestampLen + nonceLen

variable (hmac : Bytes → Bytes → Bytes)

/-- The part of a packet that is signed. -/
def packetBody (machineName token : Bytes) (now : Time) (nonce : Bytes) : Bytes :=
  magic ++ putUint64 (uint64 (unix now)) ++ nonce ++ [UInt8.ofNat machineName.length] ++
    machineName ++ [UInt8.ofNat token.length] ++ token

/-- `buildShutdownPacketWithRequestID`. The source of random bytes gives twelve, or an error. -/
def buildShutdownPacketWithRequestID (machineName token secret : Bytes) (now : Time)
    (rand : Except String Bytes) : Except String (Bytes × String) :=
  if machineName.length > 255 ∨ token.length > 255 then .error "machineName/token too long"
  else do
    let nonce ← rand
    let body := packetBody machineName token now nonce
    return (body ++ hmac secret body, hexEncode nonce)

/-- `ParseAndVerifyShutdownPacket`. The positions at which a length is read are within the packet,
by the check before. -/
def parseAndVerifyShutdownPacket (data secret : Bytes) (now : Time) (ttl : Duration) :
    Except PacketError ShutdownPacket :=
  if data.length < headerLen + 2 + sigLen then .error (.text "packet too short")
  else if slice data 0 magicLen ≠ magic then .error (.text "invalid magic")
  else
    let tsRaw := bigEndianUint64 (slice data magicLen (magicLen + timestampLen))
    let ts := ofUnix (int64 tsRaw)
    let nonce := slice data (magicLen + timestampLen) headerLen
    let pos := headerLen
    let nameLen := (data.getD pos 0).toNat
    let pos := pos + 1
    if pos + nameLen > data.length - sigLen then .error (.text "invalid name length")
    else
      let machineName := slice data pos (pos + nameLen)
      let pos := pos + nameLen
      let tokenLen := (data.getD pos 0).toNat
      let pos := pos + 1
      if pos + tokenLen > data.length - sigLen then .error (.text "invalid token length")
      else
        let token := slice data pos (pos + tokenLen)
        let pos := pos + tokenLen
        let body := slice data 0 pos
        let sig := slice data pos (pos + sigLen)
        if hmac secret body ≠ sig then .error (.text "invalid signature")
        else
          let diff := sub now ts
          if diff < ttl.neg ∨ diff > ttl then .error (.outsideWindow diff ttl)
          else .ok { machineName, token, timestamp := ts, nonce }

variable {hmac}

theorem toNat_ofNat_length {l : Bytes} (h : ¬ l.length > 255) :
    (UInt8.ofNat l.length).toNat = l.length := by
  rw [UInt8.toNat_ofNat']
  exact Nat.mod_eq_of_lt (by omega)

/-- A number of seconds counts only in 64 bits. -/
theorem ofUnix_int64 (sec : ℤ) : ofUnix (int64 sec) = ofUnix sec := by
  unfold ofUnix int64
  rw [Int.bmod_add_bmod]

/-- **Round trip.** What the server builds is read back by every host that has the secret and whose
clock is close enough. -/
theorem parse_build {machineName token secret nonce data : Bytes} {now received : Time}
    {ttl : Duration} {id : String} (hhmac : ∀ key msg, (hmac key msg).length = sigLen)
    (hnonce : nonce.length = nonceLen)
    (hbuild : buildShutdownPacketWithRequestID hmac machineName token secret now (.ok nonce) =
      .ok (data, id))
    (hwindow : ¬ (sub received (ofUnix (unix now)) < ttl.neg ∨
      sub received (ofUnix (unix now)) > ttl)) :
    parseAndVerifyShutdownPacket hmac data secret received ttl =
      .ok { machineName, token, timestamp := ofUnix (unix now), nonce } := by
  unfold buildShutdownPacketWithRequestID at hbuild
  split at hbuild
  · cases hbuild
  rename_i hshort
  obtain ⟨hname, htoken⟩ := not_or.mp hshort
  obtain ⟨rfl, -⟩ := Prod.mk.inj (Except.ok.inj hbuild)
  set body := packetBody machineName token now nonce with hbody
  set sig := hmac secret body with hsig
  set stamp := putUint64 (uint64 (unix now)) with hstamp
  have hlen : body.length = headerLen + 2 + machineName.length + token.length := by
    simp [hbody, packetBody, magic, headerLen, magicLen, timestampLen, hnonce]
    omega
  have hsiglen : sig.length = sigLen := hhmac _ _
  -- the parts of the packet, one after the other
  have hdata : body ++ sig = magic ++ stamp ++ nonce ++ [UInt8.ofNat machineName.length] ++
      machineName ++ [UInt8.ofNat token.length] ++ token ++ sig := rfl
  have hpre : (magic ++ stamp ++ nonce).length = headerLen := by
    rw [List.length_append, List.length_append, hnonce]
    rfl
  have hmagic : slice (body ++ sig) 0 magicLen = magic :=
    slice_eq [] magic _ (by simp only [hdata, List.append_assoc, List.nil_append]; rfl) rfl rfl
  have hts : slice (body ++ sig) magicLen (magicLen + timestampLen) = stamp :=
    slice_eq magic stamp _ (by simp only [hdata, List.append_assoc]; rfl) rfl rfl
  have hnon : slice (body ++ sig) (magicLen + timestampLen) headerLen = nonce :=
    slice_eq (magic ++ stamp) nonce _ (by simp only [hdata, List.append_assoc]; rfl) rfl
      (by rw [hnonce]; rfl)
  have hnameLen : (body ++ sig).getD headerLen 0 = UInt8.ofNat machineName.length :=
    getD_eq (magic ++ stamp ++ nonce) _ (by simp only [hdata, List.append_assoc]; rfl) hpre.symm
  have hnm : slice (body ++ sig) (headerLen + 1) (headerLen + 1 + machineName.length) =
      machineName :=
    slice_eq (magic ++ stamp ++ nonce ++ [UInt8.ofNat machineName.length]) machineName _
      (by simp only [hdata, List.append_assoc]; rfl) (by rw [List.length_append, hpre]; rfl) rfl
  have htokenLen : (body ++ sig).getD (headerLen + 1 + machineName.length) 0 =
      UInt8.ofNat token.length :=
    getD_eq (magic ++ stamp ++ nonce ++ [UInt8.ofNat machineName.length] ++ machineName) _
      (by simp only [hdata, List.append_assoc]; rfl)
      (by rw [List.length_append, List.length_append, hpre]; rfl)
  have htok : slice (body ++ sig) (headerLen + 1 + machineName.length + 1)
      (headerLen + 1 + machineName.length + 1 + token.length) = token :=
    slice_eq (magic ++ stamp ++ nonce ++ [UInt8.ofNat machineName.length] ++ machineName ++
      [UInt8.ofNat token.length]) token sig hdata
      (by rw [List.length_append, List.length_append, List.length_append, hpre]; rfl) rfl
  have hend : headerLen + 1 + machineName.length + 1 + token.length = body.length := by omega
  rw [hend] at htok
  have hbod : slice (body ++ sig) 0 body.length = body :=
    slice_eq [] body sig rfl rfl (Nat.zero_add _).symm
  have hsg : slice (body ++ sig) body.length (body.length + sigLen) = sig :=
    slice_eq body sig [] (by simp) rfl (by rw [hsiglen])
  have hseconds : ofUnix (int64 (bigEndianUint64 stamp)) = ofUnix (unix now) := by
    rw [hstamp, bigEndianUint64_putUint64 (uint64_lt _), int64_uint64, ofUnix_int64]
  have hfull : (body ++ sig).length = body.length + sigLen := by
    rw [List.length_append, hsiglen]
  unfold parseAndVerifyShutdownPacket
  simp only [hmagic, hts, hnon, hnameLen, toNat_ofNat_length hname, hnm, htokenLen,
    toNat_ofNat_length htoken, htok, hend, hbod, hsg, hseconds, hfull]
  rw [if_neg (by omega), if_neg (by simp), if_neg (by omega), if_neg (by omega),
    if_neg (not_not.mpr hsig.symm), if_neg hwindow]

end Packet

/-! ### The memory of nonces -/

/-- `ShutdownReplayCache`. -/
structure ShutdownReplayCache where
  retention : Duration
  seen : Bytes → Option Time

/-- `NewShutdownReplayCache`. -/
def newShutdownReplayCache (ttl : Duration) : ShutdownReplayCache where
  retention := ttl.mul 2
  seen := fun _ => none

/-- `Seen`: whether the nonce was used already, and the cache afterwards. -/
def ShutdownReplayCache.haveSeen (c : ShutdownReplayCache) (nonce : Bytes) (now : Time) :
    Bool × ShutdownReplayCache :=
  let (known, seen) := Retention.ask sub c.retention c.seen nonce now
  (known, { c with seen })

end Gomi.Power
