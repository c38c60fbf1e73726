import Helios.Kernel.VsockRuns
import Helios.Library.RingIndex

/-!
# Streams and credit

What passes over a connection, as its two ends see it: the bytes that arrived and were read, the
window that the headers of this end have announced, the window that the packets of the peer have
announced, and the bytes that were sent.  The counters of a connection agree with it modulo
`2 ^ 32`, its buffer holds what was accepted and not read, and a peer that keeps to the window
announced to it never overruns the buffer.
-/

namespace Helios.Vsock

open RingIndex ReceiveRing Nat List

/-! ### The receive buffer -/

variable {payload : List UInt8}

namespace ReceiveRing

variable (ring : ReceiveRing)

/-- The bytes in the buffer, the oldest first. -/
def contents : List UInt8 :=
  window ring.capacity ring.bytes ring.head ring.len

@[simp] theorem length_contents :
  ring.contents.length = ring.len
  := length_window ..

theorem write_eq (capacity : Nat) (payload : List UInt8) (count : Nat) (bytes : Nat → UInt8) :
  write capacity payload (count % capacity) bytes = fill capacity payload count bytes
  := by
  induction payload generalizing count bytes with
  | nil => rfl
  | cons byte payload ih => rw [write, fill, mod_add_mod, ih]

theorem contents_push {ring : ReceiveRing} (h : ring.len + payload.length ≤ ring.capacity) :
  (ring.push payload).contents = ring.contents ++ payload
  := by
  simp only [contents, push, write_eq]
  rw [window_add, window_fill_of_near (le_refl _) (by omega),
    window_fill (by omega)]

theorem contents_drain (wanted : Nat) :
  ring.contents = (ring.drain wanted).1 ++ (ring.drain wanted).2.contents
  := by
  have hlen : ring.len = min wanted ring.len + (ring.len - min wanted ring.len) := by omega
  rw [contents, hlen, window_add, contents, drain, window_mod]
  rfl

end ReceiveRing

/-! ### What passed over a connection -/

/-- A window as a header announces it. -/
structure Credit where
  bufAlloc : BitVec 32
  fwdCnt : BitVec 32
  deriving DecidableEq, Repr

def VsockPacketHeader.credit (header : VsockPacketHeader) : Credit :=
  ⟨header.bufAlloc, header.fwdCnt⟩

/-- What is left of a window after a number of bytes, counted modulo `2 ^ 32`. -/
def Credit.left (credit : Credit) (count : Nat) : Int :=
  credit.bufAlloc.toNat - (BitVec.ofNat 32 count - credit.fwdCnt).toNat

/-- What passed over a connection since it was opened. -/
structure Journal where
  /-- The payloads that were accepted. -/
  accepted : List UInt8
  /-- The bytes that were read. -/
  read : List UInt8
  /-- The number of bytes that the peer sent. -/
  arrived : Nat
  /-- The peer kept to the window announced to it. -/
  conforming : Bool
  /-- The window last announced to the peer. -/
  announced : Credit
  /-- The window last announced by the peer. -/
  granted : Credit
  /-- The number of bytes that were sent. -/
  sent : Nat

instance Op.decidableTargets (op : Op) (key : ConnectionKey) : Decidable (op.Targets key) := by
  cases op <;> unfold Op.Targets <;> infer_instance

namespace Journal

/-- An operation on the connection, with its answer. -/
def act (journal : Journal) : Op → Answer → Journal
  | .read _ _, .read (.ok (.ready bytes _)) => { journal with read := journal.read ++ bytes }
  | .finishWrite _ sent, _ => { journal with sent := journal.sent + sent }
  | .packet header payload, answer =>
    match header.op with
    | .reset => journal
    | .data =>
      { journal with
        accepted := if answer.header? = none then journal.accepted ++ payload else journal.accepted
        arrived := journal.arrived + payload.length
        conforming :=
          journal.conforming && decide (payload.length ≤ journal.announced.left journal.arrived)
        granted := header.credit }
    | _ => { journal with granted := header.credit }
  | _, _ => journal

variable (journal : Journal) (key : ConnectionKey)

/-- A header that goes out to the peer.  A reset announces no window. -/
def announce (answer : Answer) : Journal :=
  match answer.header? with
  | none => journal
  | some header =>
    if header.op ≠ .reset ∧ header.source = key.localAddr ∧ header.destination = key.peer then
      { journal with announced := header.credit }
    else journal

def note (op : Op) (answer : Answer) : Journal :=
  (if op.Targets key then journal.act op answer else journal).announce key answer

def firstGrant : Op → Credit
  | .packet header _ => header.credit
  | _ => ⟨0, 0⟩

/-- The journal of a connection that is opened, by a call or by the peer's request. -/
def opened (op : Op) (answer : Answer) : Journal :=
  announce ⟨[], [], 0, true, ⟨0, 0⟩, firstGrant op, 0⟩ key answer

end Journal

/-! ### Connections and their journals -/

/-- What a connection has agrees with what passed over it. -/
structure Journal.Tallies (journal : Journal) (connection : VsockConnection) : Prop where
  capacity : connection.receive.capacity = vsockReceiveWindowBytes
  room : connection.receive.len ≤ vsockReceiveWindowBytes
  accepted : journal.accepted = journal.read ++ connection.receive.contents
  fwdCnt : connection.fwdCnt = BitVec.ofNat 32 journal.read.length
  announced : journal.announced =
    ⟨BitVec.ofNat 32 vsockReceiveWindowBytes, connection.announcedFwdCnt⟩
  granted : journal.granted = ⟨connection.peerBufAlloc, connection.peerFwdCnt⟩
  txCnt : connection.txCnt = BitVec.ofNat 32 journal.sent
  arrived : journal.conforming → (∀ error, connection.state ≠ .closed error) →
    journal.arrived = journal.accepted.length

/-- The peer has been told of all that was read but less than half a window. -/
structure Journal.Shows (journal : Journal) (connection : VsockConnection) : Prop
    extends journal.Tallies connection where
  gap : (connection.fwdCnt - connection.announcedFwdCnt).toNat < vsockReceiveWindowBytes / 2

namespace Journal.Shows

variable {header : VsockPacketHeader} {answer : Answer} {key : ConnectionKey} {index : Nat}

variable {journal : Journal} {connection : VsockConnection}

theorem length_accepted (h : journal.Shows connection) :
  journal.accepted.length = journal.read.length + connection.receive.len
  := by
  rw [h.accepted, length_append, length_contents]

/-- What a number of accepted bytes leaves of the window that was announced. -/
theorem left_accepted (h : journal.Shows connection) :
  journal.announced.left journal.accepted.length =
    vsockReceiveWindowBytes - connection.receive.len -
      ((connection.fwdCnt - connection.announcedFwdCnt).toNat : Int)
  := by
  have hgap := h.gap
  have hroom := h.room
  have hcount : BitVec.ofNat 32 journal.accepted.length - connection.announcedFwdCnt =
      (connection.fwdCnt - connection.announcedFwdCnt) +
        BitVec.ofNat 32 connection.receive.len := by
    rw [h.length_accepted, BitVec.ofNat_add, ← h.fwdCnt]
    bv_omega
  rw [Credit.left, h.announced]
  simp only [hcount, BitVec.toNat_add, BitVec.toNat_ofNat]
  simp only [vsockReceiveWindowBytes] at hgap hroom ⊢
  omega

/-! #### Headers -/

theorem announce_none (hanswer : answer.header? = none) :
  journal.announce key answer = journal
  := by
  rw [Journal.announce, hanswer]

/-- An answer with no header for the peer, or with a reset, announces nothing. -/
theorem announce_quiet (hanswer : ∀ header, answer.header? = some header → header.op = .reset ∨ ¬
      (header.source = key.localAddr ∧ header.destination = key.peer)) :
  journal.announce key answer = journal
  := by
  rw [Journal.announce]
  split
  · rfl
  · rename_i header hheader
    rw [if_neg]
    rintro ⟨hop, hpair⟩
    rcases hanswer header hheader with hreset | hother
    · exact hop hreset
    · exact hother hpair

/-- A header of the connection tells the peer of everything that was read. -/
theorem announce_header (h : journal.Tallies connection) (hanswer : answer.header? = some header)
    (hop : header.op ≠ .reset) (hsource : header.source = connection.localAddr)
    (hdestination : header.destination = connection.peer) (hcredit : header.credit = ⟨BitVec.ofNat
      32 connection.receive.capacity, connection.fwdCnt⟩) :
  (journal.announce (connection.key index) answer).Shows
    { connection with announcedFwdCnt := connection.fwdCnt }
  := by
  rw [Journal.announce, hanswer]
  simp only
  rw [if_pos ⟨hop, hsource, hdestination⟩, hcredit, h.capacity]
  refine ⟨{ h with announced := rfl }, ?_⟩
  simp [vsockReceiveWindowBytes]

/-! #### Calls -/

section

variable (h : journal.Shows connection)
include h

theorem beginWrite (index maxPayload len : Nat) :
  (journal.announce (connection.key index) (.write (connection.beginWrite maxPayload len).1)).Shows
    (connection.beginWrite maxPayload len).2
  := by
  have hflag : journal.Shows { connection with transmitting := true } := { h with }
  simp only [VsockConnection.beginWrite]
  repeat' split
  any_goals exact h
  exact announce_header hflag.toTallies rfl (by rintro ⟨⟩) rfl rfl rfl

theorem finishWrite (sent : Nat) :
  { journal with sent := journal.sent + sent }.Shows (connection.finishWrite sent)
  := by
  refine { h with txCnt := ?_ }
  rw [VsockConnection.finishWrite, BitVec.ofNat_add, ← h.txCnt]

theorem creditRequest (index : Nat) :
  (journal.announce (connection.key index) (.notice (.ok connection.creditRequest.1))).Shows
    connection.creditRequest.2
  := by
  rw [VsockConnection.creditRequest]
  split
  · exact h
  · have hflag : journal.Shows { connection with creditRequested := true } :=
      { h with }
    exact announce_header hflag.toTallies rfl (by rintro ⟨⟩) rfl rfl rfl

theorem shutdown (index : Nat) (directions : VsockShutdown) :
  (journal.announce (connection.key index)
    (.notice (.ok (connection.shutdown directions).1))).Shows (connection.shutdown directions).2
  := by
  have hmerged : ∀ merged, journal.Shows { connection with localShutdown := merged } := by
    intro merged
    exact { h with }
  rw [VsockConnection.shutdown]
  split
  · exact h
  all_goals
    simp only
    split
    · exact h
    · have htallies := (hmerged (connection.localShutdown.merged directions)).toTallies
      exact announce_header htallies rfl (by rintro ⟨⟩) rfl rfl rfl

/-- What is copied out of the buffer is read. -/
theorem drain (wanted : Nat) :
  { journal with read := journal.read ++ (connection.receive.drain wanted).1 }.Tallies
    { connection with
      receive := (connection.receive.drain wanted).2
      fwdCnt := connection.fwdCnt +
        BitVec.ofNat 32 (connection.receive.drain wanted).1.length }
  := by
  refine { h.toTallies with room := ?_, accepted := ?_, fwdCnt := ?_ }
  · exact le_trans (sub_le _ _) h.room
  · rw [append_assoc, ← contents_drain]
    exact h.accepted
  · rw [length_append, BitVec.ofNat_add, ← h.fwdCnt]

theorem read (index wanted : Nat) (stream : VsockStreamId) :
  ((journal.act (.read stream wanted) (.read (connection.read wanted).1)).announce
    (connection.key index) (.read (connection.read wanted).1)).Shows (connection.read wanted).2
  := by
  have hdrain := h.drain wanted
  rw [VsockConnection.read]
  split
  · exact h
  · generalize connection.receive.drain wanted = drained at hdrain ⊢
    obtain ⟨bytes, receive⟩ := drained
    simp only at hdrain ⊢
    split
    · rename_i hnone
      rw [length_eq_zero_iff] at hnone
      subst hnone
      have hkept : journal.Shows { connection with receive } := by
        simp only [append_nil, length_nil, BitVec.add_zero] at hdrain
        exact ⟨hdrain, h.gap⟩
      repeat' split
      all_goals exact hkept
    · split
      · exact announce_header hdrain rfl (by rintro ⟨⟩) rfl rfl rfl
      · rename_i hgap
        refine ⟨hdrain, ?_⟩
        have hcapacity := hdrain.capacity
        rw [hcapacity] at hgap
        exact Nat.lt_of_not_le hgap

/-! #### Packets -/

theorem absorbPeerCredit (header : VsockPacketHeader) :
  { journal with granted := header.credit }.Shows (connection.absorbPeerCredit header)
  := { h with granted := rfl }

section

variable (header) (index)

theorem handleResponse :
  ({ journal with granted := header.credit }.announce (connection.key index)
    (.reply (connection.handleResponse header).1)).Shows (connection.handleResponse header).2
  := by
  have habsorbed := h.absorbPeerCredit header
  rw [VsockConnection.handleResponse]
  split
  · rename_i hstate
    refine { habsorbed with arrived := ?_ }
    intro hconforming _
    apply habsorbed.arrived hconforming
    rw [hstate]
    rintro _ ⟨⟩
  · exact habsorbed
  · exact habsorbed

theorem handleReset :
  journal.Shows connection.handleReset
  := by
  refine { h with arrived := ?_ }
  intro _ hopen
  rw [VsockConnection.handleReset] at hopen
  split at hopen
  · exact absurd rfl (hopen _)
  · exact absurd rfl (hopen _)

theorem handleShutdown :
  ({ journal with granted := header.credit }.announce (connection.key index)
    (.reply (connection.handleShutdown header).1)).Shows (connection.handleShutdown header).2
  := by
  have habsorbed := h.absorbPeerCredit header
  rw [VsockConnection.handleShutdown]
  split
  · refine { habsorbed with arrived := ?_ }
    intro _ hopen
    exact absurd rfl (hopen _)
  · exact { habsorbed with }

theorem handleCreditRequest :
  ({ journal with granted := header.credit }.announce (connection.key index)
    (.reply (connection.handleCreditRequest header).1)).Shows
    (connection.handleCreditRequest header).2
  := by
  have habsorbed := h.absorbPeerCredit header
  exact announce_header habsorbed.toTallies rfl (by rintro ⟨⟩) rfl rfl rfl

end

/-- A payload is refused by a connection that is closed or thereby closes. -/
theorem refuse (hop : header.op = .data) (payload : List UInt8) (index : Nat) {error : VsockError}
    {state : ConnectionState} (hstate : state = .closed error) :
  ((journal.act (.packet header payload) (.reply (some (header.reply .reset)))).announce
    (connection.key index) (.reply (some (header.reply .reset)))).Shows
    { connection.absorbPeerCredit header with state }
  := by
  simp only [Journal.act, hop]
  refine { h.absorbPeerCredit header with arrived := ?_ }
  intro _ hopen
  exact absurd hstate (hopen _)

/-- A payload that fits is accepted. -/
theorem accept (hop : header.op = .data) (index : Nat)
    (hopen : ∀ error, connection.state ≠ .closed error)
    (hfits : payload.length ≤ connection.receive.free) :
  ((journal.act (.packet header payload) (.reply none)).announce (connection.key index)
    (.reply none)).Shows
    { connection.absorbPeerCredit header with receive := connection.receive.push payload }
  := by
  have hroom := h.room
  rw [free, h.capacity] at hfits
  rw [announce_none rfl]
  simp only [Journal.act, hop, Answer.header?, if_true]
  refine { h.absorbPeerCredit header with
    capacity := h.capacity, room := ?_, accepted := ?_, arrived := ?_ }
  · simp only [push]
    omega
  · rw [contents_push (by rw [h.capacity]; omega), ← append_assoc, ← h.accepted]
  · intro hconforming _
    rw [Bool.and_eq_true] at hconforming
    simp only [length_append]
    rw [h.arrived hconforming.1 hopen]

theorem handleData (hop : header.op = .data) (payload : List UInt8) (index : Nat) :
  ((journal.act (.packet header payload)
    (.reply (connection.handleData header payload).1)).announce (connection.key index)
    (.reply (connection.handleData header payload).1)).Shows
    (connection.handleData header payload).2
  := by
  rw [VsockConnection.handleData]
  split
  · rename_i error hstate
    exact h.refuse hop payload index hstate
  all_goals
    rename_i hstate
    have hopen : ∀ error, connection.state ≠ .closed error := by
      intro error hclosed
      rw [VsockConnection.absorbPeerCredit, hclosed] at hstate
      cases hstate
    split
    · exact h.refuse hop payload index rfl
    · rename_i hfits
      exact h.accept hop index hopen (Nat.le_of_not_lt hfits)

theorem handleData_of_within (header : VsockPacketHeader) (hconforming : journal.conforming)
    (hopen : ∀ error, connection.state ≠ .closed error)
    (hwithin : payload.length ≤ journal.announced.left journal.arrived) :
  (connection.handleData header payload).1 = none
  := by
  have hleft := h.left_accepted
  rw [h.arrived hconforming hopen] at hwithin
  have hfits : ¬ payload.length > connection.receive.free := by
    rw [free, h.capacity]
    omega
  rw [VsockConnection.handleData]
  split
  · rename_i error hstate
    exact absurd hstate (hopen error)
  all_goals
    split
    · rename_i hover
      exact absurd hover hfits
    · rfl

theorem beginWrite_within {maxPayload len : Nat} {chunk : VsockWriteChunk}
    (hready : (connection.beginWrite maxPayload len).1 = .ok (.ready chunk)) :
  chunk.len ≤ journal.granted.left journal.sent
  := by
  have hfree : chunk.len ≠ 0 ∧ chunk.len ≤ connection.peerFree := by
    simp only [VsockConnection.beginWrite] at hready
    repeat' split at hready
    all_goals cases hready
    exact ⟨‹_›, le_trans (min_le_left _ _) (min_le_left _ _)⟩
  rw [VsockConnection.peerFree, h.txCnt] at hfree
  rw [Credit.left, h.granted]
  simp only
  omega

/-! #### Steps -/

/-- An operation on a connection, with its answer in the journal. -/
theorem step {maxPayload : Nat} {op : Op} (htargets : op.Targets (connection.key index)) :
  (journal.note (connection.key index) op (connection.step maxPayload op).1).Shows
    (connection.step maxPayload op).2
  := by
  rw [Journal.note, if_pos htargets]
  cases op with
  | beginWrite stream len => exact h.beginWrite index maxPayload len
  | finishWrite stream sent => exact h.finishWrite sent
  | creditRequest stream => exact h.creditRequest index
  | read stream wanted => exact h.read index wanted stream
  | shutdown stream directions => exact h.shutdown index directions
  | packet header payload =>
    obtain ⟨hrequest, _⟩ := htargets
    rw [VsockConnection.step]
    cases hop : header.op with
    | request => exact absurd hop hrequest
    | response =>
      simp only [Journal.act, hop]
      exact h.handleResponse header index
    | reset =>
      simp only [Journal.act, hop]
      exact h.handleReset
    | shutdown =>
      simp only [Journal.act, hop]
      exact h.handleShutdown header index
    | data => exact h.handleData hop payload index
    | creditUpdate =>
      simp only [Journal.act, hop]
      exact h.absorbPeerCredit header
    | creditRequest =>
      simp only [Journal.act, hop]
      exact h.handleCreditRequest header index
  | listen | accept | closeListener | connect | close | resetAll => exact absurd htargets id

end

/-- A connection that was opened, with its first header. -/
theorem opened {op : Op} {generation : Nat} {localAddr peer : VsockAddress}
    {state : ConnectionState} (hanswer : answer.header? = some header) (hop : header.op ≠ .reset)
    (hsource : header.source = localAddr) (hdestination : header.destination = peer)
    (hcredit : header.credit = ⟨BitVec.ofNat 32 vsockReceiveWindowBytes, 0⟩) :
  (Journal.opened ⟨⟨index, generation⟩, localAddr, peer⟩ op answer).Shows
    { VsockConnection.opened generation localAddr peer state with
      peerBufAlloc := (Journal.firstGrant op).bufAlloc
      peerFwdCnt := (Journal.firstGrant op).fwdCnt }
  := by
  rw [Journal.opened, Journal.announce, hanswer]
  simp only
  rw [if_pos ⟨hop, hsource, hdestination⟩]
  refine ⟨⟨rfl, zero_le _, rfl, rfl, hcredit, rfl, rfl, fun _ _ => rfl⟩, ?_⟩
  exact (by decide : (0 - 0 : BitVec 32).toNat < vsockReceiveWindowBytes / 2)

end Journal.Shows

end Helios.Vsock
