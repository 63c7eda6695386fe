import Gomi.Power.Shutdown

/-!
# The codec of shutdown requests

The parser of `Gomi.Power.parseAndVerifyShutdownPacket` walks along two lengths that anyone may have
written. This file settles what it can be made to do by them.

* It never reads outside the packet: with every access checked
  (`Gomi.Power.parseChecked`) it is the same function.
* What it accepts starts with what the server would have built from the fields that it returns, followed
  by the signature of exactly these bytes (`Gomi.Power.parse_sound`).
* Different fields are never signed as the same bytes (`Gomi.Power.packetBody_inj`).

Together with the round trip (`Gomi.Power.parse_build`) they are `Gomi.Power.shutdown_codec`. HMAC is any
function; the round trip wants outputs of 32 bytes.
-/

namespace Gomi.Power

open Go

/-! ### Reading within the bounds -/

section Checked

variable (hmac : Bytes → Bytes → Bytes)

/-- `ParseAndVerifyShutdownPacket` with every access checked: nothing, where one is out of range. -/
def parseChecked (data secret : Bytes) (now : Time) (ttl : Duration) :
    Option (Except PacketError ShutdownPacket) :=
  if data.length < headerLen + 2 + sigLen then some (.error (.text "packet too short"))
  else do
    let front ← sliceChecked data 0 magicLen
    if front ≠ magic then return .error (.text "invalid magic") else
    let tsBytes ← sliceChecked data magicLen (magicLen + timestampLen)
    let ts := ofUnix (int64 (bigEndianUint64 tsBytes))
    let nonce ← sliceChecked data (magicLen + timestampLen) headerLen
    let pos := headerLen
    let nameLen := (← data[pos]?).toNat
    let pos := pos + 1
    if pos + nameLen > data.length - sigLen then return .error (.text "invalid name length") else
    let machineName ← sliceChecked data pos (pos + nameLen)
    let pos := pos + nameLen
    let tokenLen := (← data[pos]?).toNat
    let pos := pos + 1
    if pos + tokenLen > data.length - sigLen then return .error (.text "invalid token length") else
    let token ← sliceChecked data pos (pos + tokenLen)
    let pos := pos + tokenLen
    let body ← sliceChecked data 0 pos
    let sig ← sliceChecked data pos (pos + sigLen)
    if hmac secret body ≠ sig then return .error (.text "invalid signature") else
    let diff := sub now ts
    if diff < ttl.neg ∨ diff > ttl then return .error (.outsideWindow diff ttl)
    else return .ok { machineName, token, timestamp := ts, nonce }

theorem getElem?_eq_getD {data : Bytes} {i : ℕ} (hi : i < data.length) :
    data[i]? = some (data.getD i 0) := by
  rw [List.getD_eq_getElem?_getD, List.getElem?_eq_getElem hi, Option.getD_some]

/-- **No access is out of range.** -/
theorem parseChecked_eq (data secret : Bytes) (now : Time) (ttl : Duration) :
    parseChecked hmac data secret now ttl =
      some (parseAndVerifyShutdownPacket hmac data secret now ttl) := by
  unfold parseChecked parseAndVerifyShutdownPacket
  by_cases hshort : data.length < headerLen + 2 + sigLen
  · rw [if_pos hshort, if_pos hshort]
  rw [if_neg hshort, if_neg hshort]
  have hlen : headerLen + 2 + sigLen ≤ data.length := not_lt.mp hshort
  have hheader : headerLen = 24 := rfl
  have hsig : sigLen = 32 := rfl
  have hmagicLen : magicLen = 4 := rfl
  have hstamp : timestampLen = 8 := rfl
  dsimp only
  rw [sliceChecked_eq (Nat.zero_le _) (by omega), sliceChecked_eq (Nat.le_add_right _ _) (by omega),
    sliceChecked_eq (by omega) (show headerLen ≤ data.length by omega),
    getElem?_eq_getD (show headerLen < data.length by omega)]
  simp only [Option.bind_eq_bind, Option.bind_some, Option.pure_def]
  by_cases hmagic : slice data 0 magicLen ≠ magic
  · rw [if_pos hmagic, if_pos hmagic]
  rw [if_neg hmagic, if_neg hmagic]
  generalize (data.getD headerLen 0).toNat = nameLen
  by_cases hname : headerLen + 1 + nameLen > data.length - sigLen
  · rw [if_pos hname, if_pos hname]
  -- the name ends before the signature, so there is a byte after it
  rw [if_neg hname, if_neg hname, sliceChecked_eq (Nat.le_add_right _ _) (by omega),
    getElem?_eq_getD (show headerLen + 1 + nameLen < data.length by omega)]
  simp only [Option.bind_some]
  generalize (data.getD (headerLen + 1 + nameLen) 0).toNat = tokenLen
  by_cases htoken : headerLen + 1 + nameLen + 1 + tokenLen > data.length - sigLen
  · rw [if_pos htoken, if_pos htoken]
  rw [if_neg htoken, if_neg htoken, sliceChecked_eq (Nat.le_add_right _ _) (by omega),
    sliceChecked_eq (Nat.zero_le _) (by omega), sliceChecked_eq (Nat.le_add_right _ _) (by omega)]
  simp only [Option.bind_some]
  split_ifs <;> rfl

end Checked

/-! ### What is accepted -/

section Sound

variable {hmac : Bytes → Bytes → Bytes}

/-- The fields that a packet can carry. -/
structure Encodable (machineName token nonce : Bytes) : Prop where
  machineName : machineName.length ≤ 255
  token : token.length ≤ 255
  nonce : nonce.length = nonceLen

/-- The seconds that were read are written again. -/
theorem uint64_unix_ofUnix {n : ℕ} (hn : n < 2 ^ 64) : uint64 (unix (ofUnix (int64 n))) = n := by
  rw [ofUnix_int64, unix, ofUnix, Int.mul_ediv_cancel _ (by decide), uint64, Int.bmod_def]
  split <;> omega

/-- The bytes up to the end of the token, as they are written. -/
theorem body_eq_slice {data : Bytes} {nameLen tokenLen : ℕ}
    (hmagic : slice data 0 magicLen = magic) (hname : (data.getD headerLen 0).toNat = nameLen)
    (htoken : (data.getD (headerLen + 1 + nameLen) 0).toNat = tokenLen)
    (hlen : headerLen + 1 + nameLen + 1 + tokenLen ≤ data.length) :
    packetBody (slice data (headerLen + 1) (headerLen + 1 + nameLen))
      (slice data (headerLen + 1 + nameLen + 1) (headerLen + 1 + nameLen + 1 + tokenLen))
      (ofUnix (int64 (bigEndianUint64 (slice data magicLen (magicLen + timestampLen)))))
      (slice data (magicLen + timestampLen) headerLen) =
    slice data 0 (headerLen + 1 + nameLen + 1 + tokenLen) := by
  have hheader : headerLen = 24 := rfl
  have hmagicLen : magicLen = 4 := rfl
  have htsLen : timestampLen = 8 := rfl
  have hstamp : (slice data magicLen (magicLen + timestampLen)).length = 8 := by
    rw [length_slice (by omega)]
    omega
  have hname' : UInt8.ofNat (slice data (headerLen + 1) (headerLen + 1 + nameLen)).length =
      data.getD headerLen 0 := by
    rw [length_slice (by omega), Nat.add_sub_cancel_left, ← hname, UInt8.ofNat_toNat]
  have htoken' : UInt8.ofNat (slice data (headerLen + 1 + nameLen + 1)
      (headerLen + 1 + nameLen + 1 + tokenLen)).length = data.getD (headerLen + 1 + nameLen) 0 := by
    rw [length_slice (by omega), Nat.add_sub_cancel_left, ← htoken, UInt8.ofNat_toNat]
  unfold packetBody
  rw [hname', htoken', uint64_unix_ofUnix (bigEndianUint64_lt hstamp),
    putUint64_bigEndianUint64 hstamp, ← hmagic, ← slice_succ (by omega), ← slice_succ (by omega)]
  -- the parts are read one after the other
  rw [slice_append_slice (by omega) (by omega), slice_append_slice (by omega) (by omega),
    slice_append_slice (by omega) (by omega), slice_append_slice (by omega) (by omega),
    slice_append_slice (by omega) (by omega), slice_append_slice (by omega) (by omega)]

/-- **What is accepted was signed**: a packet starts with what the server builds from the fields that
are returned, and with the signature of this. -/
theorem parse_sound {data secret : Bytes} {now : Time} {ttl : Duration} {p : ShutdownPacket}
    (h : parseAndVerifyShutdownPacket hmac data secret now ttl = .ok p) :
    Encodable p.machineName p.token p.nonce ∧
      ∃ rest, data = packetBody p.machineName p.token p.timestamp p.nonce ++
        hmac secret (packetBody p.machineName p.token p.timestamp p.nonce) ++ rest ∧
      (hmac secret (packetBody p.machineName p.token p.timestamp p.nonce)).length = sigLen := by
  unfold parseAndVerifyShutdownPacket at h
  dsimp only at h
  split_ifs at h with hshort hmagic hname htoken hsig hwindow
  cases h
  generalize hn : (data.getD headerLen 0).toNat = nameLen at *
  generalize ht : (data.getD (headerLen + 1 + nameLen) 0).toNat = tokenLen at *
  have hheader : headerLen = 24 := rfl
  have hsigLen : sigLen = 32 := rfl
  have hnameLt : nameLen < 256 := hn ▸ (data.getD headerLen 0).toNat_lt
  have htokenLt : tokenLen < 256 := ht ▸ (data.getD (headerLen + 1 + nameLen) 0).toNat_lt
  have hbody := body_eq_slice (not_not.mp hmagic) hn ht (by omega)
  rw [hbody, not_not.mp hsig, length_slice (by omega)]
  refine ⟨⟨?_, ?_, ?_⟩, data.drop (headerLen + 1 + nameLen + 1 + tokenLen + sigLen), ?_, by omega⟩
  · rw [length_slice (by omega)]
    omega
  · rw [length_slice (by omega)]
    omega
  · rw [length_slice (by omega)]
    rfl
  · rw [slice_append_slice (Nat.zero_le _) (Nat.le_add_right _ _), slice, Nat.sub_zero,
      List.drop_zero, List.take_append_drop]

/-- **Different fields are never signed as the same bytes.** -/
theorem packetBody_inj {machineName token nonce machineName' token' nonce' : Bytes} {now now' : Time}
    (h : Encodable machineName token nonce) (h' : Encodable machineName' token' nonce')
    (heq : packetBody machineName token now nonce = packetBody machineName' token' now' nonce') :
    machineName = machineName' ∧ token = token' ∧ nonce = nonce' ∧
      uint64 (unix now) = uint64 (unix now') := by
  simp only [packetBody, List.append_assoc, List.append_cancel_left_eq] at heq
  obtain ⟨hstamp, hrest⟩ := List.append_inj heq rfl
  obtain ⟨rfl, hfields⟩ := List.append_inj hrest (h.nonce.trans h'.nonce.symm)
  obtain ⟨hnameLen, hnames⟩ := List.append_inj hfields rfl
  have hname : machineName.length = machineName'.length := by
    have := congrArg UInt8.toNat (List.cons.inj hnameLen).1
    rwa [toNat_ofNat_length (not_lt.mpr h.machineName),
      toNat_ofNat_length (not_lt.mpr h'.machineName)] at this
  obtain ⟨rfl, htokens⟩ := List.append_inj hnames hname
  obtain ⟨-, rfl⟩ := List.append_inj htokens rfl
  refine ⟨rfl, rfl, rfl, ?_⟩
  have := congrArg bigEndianUint64 hstamp
  rwa [bigEndianUint64_putUint64 (uint64_lt _), bigEndianUint64_putUint64 (uint64_lt _)] at this

end Sound

/-- **The codec of shutdown requests.** What is built is read back within the time to live of its
timestamp; nothing outside a packet is read; what is accepted starts with the signed encoding of the
fields; and no two tuples of fields have one encoding. -/
theorem shutdown_codec (hmac : Bytes → Bytes → Bytes) :
    (∀ (machineName token secret nonce : Bytes) (now received : Time) (ttl : Duration),
      (∀ key msg, (hmac key msg).length = sigLen) → Encodable machineName token nonce →
      ttl.neg ≤ sub received (ofUnix (unix now)) → sub received (ofUnix (unix now)) ≤ ttl →
      ∃ data, buildShutdownPacketWithRequestID hmac machineName token secret now (.ok nonce) =
          .ok (data, hexEncode nonce) ∧
        parseAndVerifyShutdownPacket hmac data secret received ttl =
          .ok { machineName, token, timestamp := ofUnix (unix now), nonce }) ∧
    (∀ (data secret : Bytes) (now : Time) (ttl : Duration),
      parseChecked hmac data secret now ttl =
        some (parseAndVerifyShutdownPacket hmac data secret now ttl)) ∧
    (∀ (data secret : Bytes) (now : Time) (ttl : Duration) (p : ShutdownPacket),
      parseAndVerifyShutdownPacket hmac data secret now ttl = .ok p →
      Encodable p.machineName p.token p.nonce ∧
        ∃ rest, data = packetBody p.machineName p.token p.timestamp p.nonce ++
          hmac secret (packetBody p.machineName p.token p.timestamp p.nonce) ++ rest ∧
        (hmac secret (packetBody p.machineName p.token p.timestamp p.nonce)).length = sigLen) ∧
    ∀ (machineName token nonce machineName' token' nonce' : Bytes) (now now' : Time),
      Encodable machineName token nonce → Encodable machineName' token' nonce' →
      packetBody machineName token now nonce = packetBody machineName' token' now' nonce' →
      machineName = machineName' ∧ token = token' ∧ nonce = nonce' ∧
        uint64 (unix now) = uint64 (unix now') := by
  refine ⟨?_, parseChecked_eq hmac, fun _ _ _ _ _ h => parse_sound h,
    fun _ _ _ _ _ _ _ _ h h' heq => packetBody_inj h h' heq⟩
  intro machineName token secret nonce now received ttl hhmac henc hlo hhi
  have hbuild : buildShutdownPacketWithRequestID hmac machineName token secret now (.ok nonce) =
      .ok (packetBody machineName token now nonce ++
        hmac secret (packetBody machineName token now nonce), hexEncode nonce) := by
    unfold buildShutdownPacketWithRequestID
    rw [if_neg (not_or.mpr ⟨not_lt.mpr henc.machineName, not_lt.mpr henc.token⟩)]
    rfl
  exact ⟨_, hbuild, parse_build hhmac henc.nonce hbuild (not_or.mpr ⟨not_lt.mpr hlo, not_lt.mpr hhi⟩)⟩

/-- A request for machine `a` is read back, and whoever gets it can rely on what it starts with. -/
theorem shutdown_codec_sample :
    ∃ data, parseAndVerifyShutdownPacket (fun _ _ => List.replicate 32 0) data [1] 0
        (Duration.seconds 30) =
          .ok { machineName := [97], token := [], timestamp := 0, nonce := List.replicate 12 7 } ∧
      ∃ rest, data = packetBody [97] [] 0 (List.replicate 12 7) ++ List.replicate 32 0 ++ rest := by
  obtain ⟨data, -, hparse⟩ := (shutdown_codec fun _ _ => List.replicate 32 0).1 [97] [] [1]
    (List.replicate 12 7) 0 0 (Duration.seconds 30) (fun _ _ => List.length_replicate)
    ⟨by decide, by decide, by decide⟩ (by decide) (by decide)
  obtain ⟨-, rest, hdata, -⟩ := (shutdown_codec fun _ _ => List.replicate 32 0).2.2.1 _ _ _ _ _ hparse
  exact ⟨data, hparse, rest, hdata⟩

end Gomi.Power
