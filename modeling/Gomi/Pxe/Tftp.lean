import Gomi.Go.Bytes
import Gomi.Images.Validate
import Gomi.Table

/-!
# TFTP transfers

`serveRRQ` of `internal/pxe/tftp.go`, from where the file is open: it goes out in blocks, and a block
goes out until it is acknowledged or has been sent `maxRetries` times. What the transfer reads from its
socket is given as a list; where the list ends, the server is waiting. Failures of the socket and of
the file are left out.

A transfer that completes has delivered the file (`Gomi.Tftp.serveRRQ_delivers`). A block is meant to go
out again after a timeout, but `waitForAck` returns after any acknowledgement, and its caller takes a
late one for a timeout: then the block goes out again at once, and the transfer is aborted after
`maxRetries` of them. `Gomi.Tftp.unamplified_iff` says what must not arrive.
-/

namespace Gomi.Tftp

open Go

/-! ### The server -/

/-- What a transfer reads from its socket. -/
inductive Happening
  | datagram (fromPeer : Bool) (bytes : Bytes)
  /-- The deadline for reading passes. -/
  | deadline

/-- How a transmission was answered. -/
inductive Wait
  | ack (number : UInt16)
  /-- The client reported an error. -/
  | error
  | timeout
  /-- Not yet. -/
  | pending
  deriving DecidableEq

/-- What `waitForAck` returns for; it passes over everything else. -/
def Happening.answer? : Happening → Option Wait
  | .deadline => some .timeout
  | .datagram true (a :: b :: c :: d :: _) =>
    match 256 * a.toNat + b.toNat with
    | 4 => some (.ack (256 * c.toUInt16 + d.toUInt16))
    | 5 => some .error
    | _ => none
  | .datagram _ _ => none

/-- `waitForAck`: how the transmission is answered, and what is still to arrive. -/
def waitForAck : List Happening → Wait × List Happening
  | [] => (.pending, [])
  | x :: rest => match x.answer? with
    | some wait => (wait, rest)
    | none => waitForAck rest

/-- The loop around a transmission: how each was answered, and what is still to arrive. -/
def retry (block : UInt16) : ℕ → List Happening → List Wait × List Happening
  | 0, arriving => ([], arriving)
  | n + 1, arriving =>
    let next := waitForAck arriving
    if next.1 = .ack block ∨ next.1 = .pending then ([next.1], next.2)
    else
      let more := retry block n next.2
      (next.1 :: more.1, more.2)

/-- A block, and what became of it. -/
structure Exchange where
  block : UInt16
  chunk : Bytes
  /-- What was to arrive when it was sent first. -/
  arriving : List Happening
  /-- How its transmissions were answered. -/
  waits : List Wait

/-- Neither acknowledged nor waited for. -/
def Exchange.Refused (e : Exchange) : Prop :=
  e.waits.getLast? ≠ some (.ack e.block) ∧ e.waits.getLast? ≠ some .pending

instance (e : Exchange) : Decidable e.Refused := inferInstanceAs (Decidable (_ ∧ _))

/-- How a transfer ends. -/
inductive Outcome
  /-- The last block was acknowledged. -/
  | completed
  /-- A block was given up. -/
  | aborted
  /-- Not yet: the server waits for an acknowledgement. -/
  | waiting
  deriving DecidableEq

/-- A block size between `tftpMinBlockSize` and `tftpMaxBlockSize`. -/
abbrev BlockSize : Type := { n : ℕ // 8 ≤ n ∧ n ≤ 65464 }

/-- The loop over the file. A read is short at the end of the file only. -/
def transfer (maxRetries : ℕ) (size : BlockSize) (block : UInt16) (content : Bytes)
    (arriving : List Happening) : List Exchange × Outcome :=
  let sent := retry block maxRetries arriving
  let e : Exchange := ⟨block, content.take size, arriving, sent.1⟩
  if sent.1.getLast? ≠ some (.ack block) then ([e], if e.Refused then .aborted else .waiting)
  else if content.length < size then ([e], .completed)
  else
    let more := transfer maxRetries size (block + 1) (content.drop size) sent.2
    (e :: more.1, more.2)
termination_by content.length
decreasing_by
  have := size.2
  simp only [List.length_drop]
  omega

/-- `negotiateRRQOptions`: the options that are acknowledged, and the size of the blocks. -/
def negotiateRRQOptions (options : Table String) (fileSize : ℕ) : Table String × BlockSize :=
  let accepted : Table String := if options.contains "tsize" then {("tsize", toString fileSize)} else ∅
  match options["blksize"]?.bind Images.atoi with
  | some requested =>
    if h : 8 ≤ requested ∧ requested ≤ 65464 then
      (accepted.insert "blksize" (toString requested), ⟨requested.toNat, by omega⟩)
    else (accepted, ⟨512, by decide⟩)
  | none => (accepted, ⟨512, by decide⟩)

/-- What a transfer has sent, and how it ended. -/
structure Transfer where
  /-- The acknowledgement of the options, as block 0. -/
  oack : Option Exchange
  blocks : List Exchange
  outcome : Outcome

/-- Everything that was sent. -/
def Transfer.exchanges (t : Transfer) : List Exchange := t.oack.toList ++ t.blocks

/-- `serveRRQ`, for a file that is open: the options are acknowledged first if there are any. -/
def serveRRQ (maxRetries : ℕ) (options : Table String) (content : Bytes)
    (arriving : List Happening) : Transfer :=
  let agreed := negotiateRRQOptions options content.length
  if agreed.1.isEmpty then
    let data := transfer maxRetries agreed.2 1 content arriving
    ⟨none, data.1, data.2⟩
  else
    let sent := retry 0 maxRetries arriving
    let oack : Exchange := ⟨0, [], arriving, sent.1⟩
    if sent.1.getLast? ≠ some (.ack 0) then
      ⟨some oack, [], if oack.Refused then .aborted else .waiting⟩
    else
      let data := transfer maxRetries agreed.2 1 content sent.2
      ⟨some oack, data.1, data.2⟩

variable {maxRetries : ℕ} {size : BlockSize} {block : UInt16} {content rest : Bytes}
  {arriving : List Happening} {options : Table String} {e : Exchange} {es : List Exchange}

/-! ### The file arrives -/

/-- The blocks of a file, from a number on. -/
structure Delivered (size : ℕ) (block : UInt16) (content : Bytes) (es : List Exchange) : Prop where
  content : (es.map Exchange.chunk).flatten = content
  full : ∀ e ∈ es.dropLast, e.chunk.length = size
  last : ∃ e, es.getLast? = some e ∧ e.chunk.length < size
  numbers : ∀ i e, es[i]? = some e → e.block = block + UInt16.ofNat i
  acknowledged : ∀ e ∈ es, e.waits.getLast? = some (.ack e.block)

theorem Delivered.cons (h : Delivered size (e.block + 1) rest es) (hfull : e.chunk.length = size)
    (hack : e.waits.getLast? = some (.ack e.block)) :
    Delivered size e.block (e.chunk ++ rest) (e :: es) := by
  obtain ⟨last, hlast, hshort⟩ := h.last
  have hne : es ≠ [] := by
    rintro rfl
    cases hlast
  refine ⟨by simp [h.content], ?_, ⟨last, ?_, hshort⟩, ?_, ?_⟩
  · rw [List.dropLast_cons_of_ne_nil hne]
    exact List.forall_mem_cons.mpr ⟨hfull, h.full⟩
  · rw [List.getLast?_cons, hlast]
    rfl
  · rintro (_ | i) e' he'
    · cases he'
      simp
    · rw [h.numbers i e' he', UInt16.add_assoc, UInt16.add_comm 1, UInt16.ofNat_add]
      rfl
  · exact List.forall_mem_cons.mpr ⟨hack, h.acknowledged⟩

theorem transfer_delivers (h : (transfer maxRetries size block content arriving).2 = .completed) :
    Delivered size block content (transfer maxRetries size block content arriving).1 := by
  fun_induction transfer maxRetries size block content arriving with
  | case1 => split at h <;> cases h
  | case2 block content arriving sent e hack hshort =>
    rw [not_not] at hack
    have hchunk : e.chunk = content := List.take_of_length_le hshort.le
    refine ⟨by simp [hchunk], by simp, ⟨e, rfl, hchunk ▸ hshort⟩, ?_, by simpa using hack⟩
    rintro (_ | i) e' he'
    · cases he'
      simp [e]
    · cases he'
  | case3 block content arriving sent e hack hlong more ih =>
    rw [not_not] at hack
    have hmore := (ih h).cons (e := e) (by simpa [e] using hlong) hack
    rwa [List.take_append_drop] at hmore

/-- **A transfer that completes has delivered the file**: the blocks make up the content, all but the
last have the negotiated size and the last is shorter, they are numbered from 1 on in 16 bits, and
each was acknowledged under its number before the next was sent. -/
theorem serveRRQ_delivers (h : (serveRRQ maxRetries options content arriving).outcome = .completed) :
    Delivered (negotiateRRQOptions options content.length).2 1 content
      (serveRRQ maxRetries options content arriving).blocks := by
  unfold serveRRQ at h ⊢
  dsimp only at h ⊢
  split_ifs at h ⊢
  · exact transfer_delivers h
  · exact transfer_delivers h

/-- A datagram that acknowledges a block. -/
def ackOf (number : UInt8) : Happening := .datagram true [0, 4, 0, number]

/-- What arrives for a file of three blocks: the deadline passes before block 1 is acknowledged, and
its acknowledgement comes once more while block 2 waits. -/
def retried : List Happening := [ackOf 0, .deadline, ackOf 1, ackOf 1, ackOf 2, ackOf 3]

/-- A file of twenty bytes is delivered in three blocks, of which the first and the second go out
twice. -/
theorem serveRRQ_delivers_retried :
    let t := serveRRQ 5 {("blksize", "8")} (List.replicate 20 7) retried
    t.outcome = .completed ∧ Delivered 8 1 (List.replicate 20 7) t.blocks ∧
      t.blocks.map Exchange.waits =
        [[.timeout, .ack 1], [.ack 1, .ack 2], [.ack 3]] := by
  have h : (serveRRQ 5 {("blksize", "8")} (List.replicate 20 7) retried).outcome = .completed ∧
      (serveRRQ 5 {("blksize", "8")} (List.replicate 20 7) retried).blocks.map Exchange.waits =
        [[.timeout, .ack 1], [.ack 1, .ack 2], [.ack 3]] := by
    simp only [serveRRQ, transfer.eq_1 5 _ 1, transfer.eq_1 5 _ (1 + 1), transfer.eq_1 5 _ (1 + 1 + 1)]
    decide
  exact ⟨h.1, serveRRQ_delivers h.1, h.2⟩

/-! ### What makes a block go out again -/

/-- No more transmissions than timeouts call for, and given up for good reason. -/
def Exchange.Unamplified (maxRetries : ℕ) (e : Exchange) : Prop :=
  e.waits.length ≤ 1 + e.waits.count .timeout ∧
    (e.Refused → e.waits.count .timeout = maxRetries ∨ .error ∈ e.waits)

instance (e : Exchange) : Decidable (e.Unamplified maxRetries) := inferInstanceAs (Decidable (_ ∧ _))

/-- Until a block is acknowledged, nothing arrives that `waitForAck` returns for but timeouts, or
one error where the block is given up anyway. -/
def Exchange.Calm (maxRetries : ℕ) (e : Exchange) : Prop :=
  let before := ((e.arriving.filterMap Happening.answer?).take maxRetries).takeWhile (· ≠ .ack e.block)
  (∀ x ∈ before, .timeout = x) ∨
    before.length = maxRetries ∧ .error ∈ before ∧ maxRetries ≤ 1 + before.count .timeout

theorem waitForAck_eq (arriving : List Happening) :
    (waitForAck arriving).1 = (arriving.filterMap Happening.answer?).headD .pending ∧
      (waitForAck arriving).2.filterMap Happening.answer? =
        (arriving.filterMap Happening.answer?).tail := by
  induction arriving with
  | nil => exact ⟨rfl, rfl⟩
  | cons x arriving ih =>
    cases hx : x.answer? with
    | none => simpa [waitForAck, hx] using ih
    | some => simp [waitForAck, hx]

theorem pending_notMem (arriving : List Happening) :
    .pending ∉ arriving.filterMap Happening.answer? := by
  intro hmem
  obtain ⟨x, -, hx⟩ := List.mem_filterMap.mp hmem
  revert hx
  fun_cases Happening.answer? <;> simp

/-- **The transmissions of a block**, by what arrives: one for each answer before its own
acknowledgement, and then one more for that, or one that is waited for. -/
theorem retry_waits (block : UInt16) (n : ℕ) (arriving : List Happening) :
    let answers := (arriving.filterMap Happening.answer?).take n
    (retry block n arriving).1 = answers.takeWhile (· ≠ .ack block) ++
      if .ack block ∈ answers then [.ack block] else if answers.length < n then [.pending] else [] := by
  induction n generalizing arriving with
  | zero => simp [retry]
  | succ n ih =>
    obtain ⟨hwait, hrest⟩ := waitForAck_eq arriving
    have hnext := ih (waitForAck arriving).2
    rw [hrest] at hnext
    simp only [retry, hwait]
    cases hanswers : arriving.filterMap Happening.answer? with
    | nil => simp
    | cons wait =>
      have hne : wait ≠ .pending := by
        rintro rfl
        exact pending_notMem arriving (hanswers ▸ List.mem_cons_self)
      rw [hanswers] at hnext
      by_cases hack : wait = .ack block
      · simp [hack]
      · simp [hack, hne, hnext, Ne.symm hack]

theorem unamplified_iff_calm (he : e.waits = (retry e.block maxRetries e.arriving).1) :
    e.Unamplified maxRetries ↔ e.Calm maxRetries := by
  unfold Exchange.Unamplified Exchange.Calm Exchange.Refused
  rw [he, retry_waits]
  have hpending : .pending ∉ (e.arriving.filterMap Happening.answer?).take maxRetries :=
    fun h => pending_notMem e.arriving (List.mem_of_mem_take h)
  have hlen : ((e.arriving.filterMap Happening.answer?).take maxRetries).length ≤ maxRetries :=
    List.length_take_le ..
  generalize (e.arriving.filterMap Happening.answer?).take maxRetries = answers at hpending hlen
  dsimp only
  rw [← List.count_eq_length]
  by_cases hack : .ack e.block ∈ answers
  · have hshort : (answers.takeWhile (· ≠ .ack e.block)).length < maxRetries := by
      refine lt_of_lt_of_le (lt_of_le_of_ne (List.takeWhile_prefix _).length_le fun heq => ?_) hlen
      have hall := (List.takeWhile_prefix _).eq_of_length heq
      rw [List.takeWhile_eq_self_iff] at hall
      simpa using hall _ hack
    generalize answers.takeWhile (· ≠ .ack e.block) = before at hshort
    have hcount := before.count_le_length (a := Wait.timeout)
    simp [hack]
    omega
  · have hall : answers.takeWhile (· ≠ .ack e.block) = answers := by
      rw [List.takeWhile_eq_self_iff]
      intro x hx
      simpa using fun h : x = .ack e.block => hack (h ▸ hx)
    have hcount := answers.count_le_length (a := Wait.timeout)
    rw [hall, if_neg hack]
    split
    · simp
      omega
    · have hlast : answers.getLast? ≠ some (.ack e.block) ∧ answers.getLast? ≠ some .pending :=
        ⟨fun h => hack (List.mem_of_getLast? h), fun h => hpending (List.mem_of_getLast? h)⟩
      have hmax : answers.length = maxRetries := by omega
      rw [List.append_nil, hmax]
      constructor
      · rintro ⟨hbound, hreason⟩
        exact (hreason hlast).imp id fun herror => ⟨rfl, herror, hbound⟩
      · rintro (heq | ⟨-, herror, hbound⟩)
        · exact ⟨by omega, fun _ => Or.inl heq⟩
        · exact ⟨hbound, fun _ => Or.inr herror⟩

theorem transfer_exchanges : let t := transfer maxRetries size block content arriving
    (t.2 = .aborted ↔ ∃ e ∈ t.1, e.Refused) ∧
      ∀ e ∈ t.1, e.waits = (retry e.block maxRetries e.arriving).1 := by
  fun_induction transfer maxRetries size block content arriving with
  | case1 block content arriving sent e hack => simp [e, sent]
  | case2 block content arriving sent e hack hshort =>
    rw [not_not] at hack
    simp [e, sent, Exchange.Refused, hack]
  | case3 block content arriving sent e hack hlong more ih =>
    rw [not_not] at hack
    have hacked : ¬e.Refused := fun h => h.1 hack
    simpa [hacked, e, sent] using ih

theorem serveRRQ_exchanges : let t := serveRRQ maxRetries options content arriving
    (t.outcome = .aborted ↔ ∃ e ∈ t.exchanges, e.Refused) ∧
      ∀ e ∈ t.exchanges, e.waits = (retry e.block maxRetries e.arriving).1 := by
  fun_cases serveRRQ maxRetries options content arriving with
  | case1 agreed hnone data => exact transfer_exchanges
  | case2 agreed hsome sent oack hack => simp [Transfer.exchanges, oack, sent]
  | case3 agreed hsome sent oack hack data =>
    rw [not_not] at hack
    have hacked : ¬oack.Refused := fun h => h.1 hack
    simpa [Transfer.exchanges, hacked, oack, sent] using transfer_exchanges

/-- **Late acknowledgements count as timeouts.** A transfer is aborted where a block is given up, and
blocks go out only as often as timeouts call for, and are given up only after `maxRetries` timeouts or
an error, exactly if no other acknowledgement arrives while a block waits for its own. -/
theorem unamplified_iff {options : Table String} : let t := serveRRQ maxRetries options content arriving
    (t.outcome = .aborted ↔ ∃ e ∈ t.exchanges, e.Refused) ∧
      ((∀ e ∈ t.exchanges, e.Unamplified maxRetries) ↔ ∀ e ∈ t.exchanges, e.Calm maxRetries) :=
  ⟨serveRRQ_exchanges.1, forall₂_congr fun e he => unamplified_iff_calm (serveRRQ_exchanges.2 e he)⟩

/-- A client that sends its first acknowledgement twice gets block 1 twice, and one that sends it six
times gets no file, without a timeout. -/
theorem late_ack_amplifies :
    let options : Table String := {("blksize", "8")}
    ¬(∀ e ∈ (serveRRQ 5 options [7] [ackOf 0, ackOf 0, ackOf 1]).exchanges, e.Unamplified 5) ∧
      (serveRRQ 5 options [7] (List.replicate 6 (ackOf 0))).outcome = .aborted := by
  simp only [serveRRQ, transfer.eq_1 5 _ 1]
  decide

end Gomi.Tftp
