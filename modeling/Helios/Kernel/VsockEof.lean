import Helios.Kernel.VsockStreams

/-!
# The end of a stream

A reader that was told of the end of a stream is told so from then on, and a connection that the
peer closed in an orderly way does not read as reset, unless a reset or more data comes after the
end, or a read that wants no bytes is told of it before the buffer is drained.
-/

namespace Helios.Vsock

open VsockConnection Transition List

variable {op : Op} {connection : VsockConnection} {table table' : VsockTable} {answer : Answer}
  {wanted : Nat} {ended : Bool} {tells : Nat → Bool}

def Answer.read? : Answer → Option (Except VsockError VsockReadProgress)
  | .read result => some result
  | _ => none

/-- The slots with a stream that has answered a read with an end of file. -/
def toldEof (tells : Nat → Bool) (table : VsockTable) (op : Op) (answer : Answer)
    (index : Nat) : Bool :=
  match table.connections index with
  | none => false
  | some connection =>
    (decide (op.Targets (connection.key index)) && answer.read? == some (.ok .eof)) || tells index

/-- What a reader of a stream is told from a state on. -/
structure Final (ended : Bool) (connection : VsockConnection) : Prop where
  /-- After an end of file every read answers so, until the receive side is shut here. -/
  eof : ended → connection.localShutdown.receive = false →
    ∀ wanted, (connection.read wanted).1 = .ok .eof
  /-- A connection that the peer closed in an orderly way does not read as reset. -/
  orderly : connection.peerShutdown.isFull → ∀ wanted,
    (connection.read wanted).1 ≠ .error .connectionReset
  /-- The bytes that were accepted and not read come first. -/
  first : ∀ wanted, 0 < wanted → 0 < connection.receive.len →
    connection.localShutdown.receive = false → ∃ creditUpdate,
      (connection.read wanted).1 = .ok (.ready (connection.receive.contents.take wanted) creditUpdate)

/-- The operation does not reset a stream after its end, bring data after it, or ask for no bytes
before it. -/
def VsockConnection.Calm (ended : Bool) (connection : VsockConnection) : Op → Prop
  | .read _ wanted => connection.state = .closed .closed → wanted = 0 → connection.receive.len = 0
  | .packet header payload =>
    match header.op with
    | .reset => ¬ ended ∧ ¬ connection.peerShutdown.isFull
    | .data => (∀ error, connection.state ≠ .closed error) → ended → payload = []
    | _ => True
  | .resetAll => ¬ ended ∧ ¬ connection.peerShutdown.isFull
  | _ => True

/-- The operation is calm for the streams that it is on and that are open for reading. -/
def Calm (state : VsockTable × (Nat → Bool)) (op : Op) : Prop :=
  ∀ index connection, state.1.connections index = some connection →
    op.Targets (connection.key index) ∨ op = .resetAll →
    connection.localShutdown.receive = false → connection.Calm (state.2 index) op

/-! ### What a reader is told -/

theorem ReceiveRing.drain_eq (ring : ReceiveRing) (wanted : Nat) :
  (ring.drain wanted).1 = ring.contents.take wanted
  := by
  rw [contents, RingIndex.window, ← map_take, take_range]
  rfl

namespace VsockConnection

/-- What a read answers that copies no bytes. -/
def atEnd (connection : VsockConnection) : Except VsockError VsockReadProgress :=
  match connection.state with
  | .closed .closed => .ok .eof
  | .closed error => .error error
  | _ => if connection.atEof then .ok .eof else .ok .blocked

/-- The peer has closed the connection in an orderly way, or will send no more. -/
def Silent (connection : VsockConnection) : Prop :=
  connection.state = .closed .closed ∨
    (∀ error, connection.state ≠ .closed error) ∧ connection.peerShutdown.send = true

theorem atEnd_eq_eof :
  connection.atEnd = .ok .eof ↔
    connection.Silent ∧ (connection.state = .closed .closed ∨ connection.receive.len = 0)
  := by
  rw [atEnd, Silent]
  cases connection.state with
  | connecting | established => simp [atEof, VsockShutdown.isFull, and_comm]
  | closed error => cases error <;> simp

/-- A read answers with the first bytes of the buffer, when it copies any. -/
theorem read_cases (hopen : connection.localShutdown.receive = false) (wanted : Nat) :
  ∃ receive fwdCnt announcedFwdCnt answer, connection.read wanted =
    (answer, { connection with receive, fwdCnt, announcedFwdCnt }) ∧
    ((wanted = 0 ∨ connection.receive.len = 0) ∧ receive.len = connection.receive.len ∧
        answer = connection.atEnd ∨
      receive.len < connection.receive.len ∧
        ∃ update, answer = .ok (.ready (connection.receive.contents.take wanted) update))
  := by
  have hnone : (connection.receive.drain wanted).1.length = 0 ↔
      wanted = 0 ∨ connection.receive.len = 0 := by
    rw [ReceiveRing.drain_eq, length_eq_zero_iff, take_eq_nil_iff, ← length_eq_zero_iff,
      ReceiveRing.length_contents]
  rw [read, if_neg (by simp [hopen]), ← ReceiveRing.drain_eq]
  have hlen : (connection.receive.drain wanted).2.len =
      connection.receive.len - min wanted connection.receive.len := rfl
  simp only [hnone]
  split
  · rename_i hzero
    have hlen : (connection.receive.drain wanted).2.len = connection.receive.len := by omega
    refine ⟨_, _, _, _, rfl, Or.inl ⟨hzero, hlen, ?_⟩⟩
    simp only [atEof, hlen]
    rfl
  · have hless : (connection.receive.drain wanted).2.len < connection.receive.len := by omega
    split
    all_goals exact ⟨_, _, _, _, rfl, .inr ⟨hless, _, rfl⟩⟩

/-- The state of a stream whose end is final. -/
def Ends (ended : Bool) (connection : VsockConnection) : Prop :=
  connection.localShutdown.receive = false →
    (ended → connection.receive.len = 0 ∧ connection.Silent) ∧
    (connection.peerShutdown.isFull → connection.state = .closed .closed)

theorem Ends.final (h : connection.Ends ended) :
  Final ended connection
  := by
  constructor
  · intro hended hopen wanted
    obtain ⟨hempty, hsilent⟩ := (h hopen).1 hended
    obtain ⟨_, _, _, answer, hread, ⟨_, _, rfl⟩ | ⟨hsome, _⟩⟩ := read_cases hopen wanted
    · rw [hread]
      exact atEnd_eq_eof.mpr ⟨hsilent, .inr hempty⟩
    · omega
  · intro hfull wanted hreset
    cases hopen : connection.localShutdown.receive with
    | true =>
      rw [VsockConnection.read, if_pos hopen] at hreset
      cases hreset
    | false =>
      have hclosed := (h hopen).2 hfull
      obtain ⟨_, _, _, answer, hread, ⟨_, _, rfl⟩ | ⟨_, _, rfl⟩⟩ := read_cases hopen wanted
      · rw [hread, atEnd, hclosed] at hreset
        cases hreset
      · rw [hread] at hreset
        cases hreset
  · intro wanted hwanted hsome hopen
    obtain ⟨_, _, _, answer, hread, ⟨hnone, _⟩ | ⟨_, update, rfl⟩⟩ := read_cases hopen wanted
    · omega
    · exact ⟨update, congrArg Prod.fst hread⟩

/-! ### Steps -/

theorem Ends.read (h : connection.Ends ended)
    (hcalm : connection.localShutdown.receive = false → connection.state = .closed .closed →
      wanted = 0 → connection.receive.len = 0) :
  (connection.read wanted).2.Ends (some (connection.read wanted).1 == some (.ok .eof) || ended)
  := by
  cases hshut : connection.localShutdown.receive with
  | true =>
    rw [VsockConnection.read, if_pos hshut]
    intro hopen
    cases hshut.symm.trans hopen
  | false =>
    intro hopen
    obtain ⟨hended, hfull⟩ := h hshut
    obtain ⟨receive, _, _, answer, hread, ⟨hnone, hlen, rfl⟩ | ⟨hsome, update, rfl⟩⟩ :=
      read_cases hshut wanted
    · rw [hread]
      refine ⟨fun htold => ?_, hfull⟩
      rcases Bool.or_eq_true_iff.mp htold with hnow | hbefore
      · obtain ⟨hsilent, hend⟩ := atEnd_eq_eof.mp (Option.some.inj (beq_iff_eq.mp hnow))
        refine ⟨hlen.trans ?_, hsilent⟩
        rcases hend with hstate | hempty
        · rcases hnone with hzero | hempty
          · exact hcalm hshut hstate hzero
          · exact hempty
        · exact hempty
      · rw [hlen]
        exact hended hbefore
    · rw [hread]
      refine ⟨fun htold => ?_, hfull⟩
      have hempty := (hended htold).1
      omega

theorem ends_of_before (h : connection.localShutdown.receive = false →
      ¬ ended ∧ ¬ connection.peerShutdown.isFull) :
  connection.Ends ended
  := fun hopen => ⟨fun hended => absurd hended (h hopen).1, fun hfull => absurd hfull (h hopen).2⟩

theorem Ends.packet (h : connection.Ends ended) {header : VsockPacketHeader} {payload : List UInt8}
    (hcalm : connection.localShutdown.receive = false →
      connection.Calm ended (.packet header payload)) (maxPayload : Nat) :
  (connection.step maxPayload (.packet header payload)).2.Ends
    ((connection.step maxPayload (.packet header payload)).1.read? == some (.ok .eof) || ended)
  := by
  rw [VsockConnection.step]
  simp only [VsockConnection.Calm] at hcalm
  cases hop : header.op with
  | response =>
    simp only [handleResponse]
    split
    · rename_i hstate
      have hclosed : connection.state ≠ .closed .closed := by
        intro hclosed
        cases hclosed.symm.trans hstate
      refine fun hopen => ⟨fun hended => ?_, fun hfull => absurd ((h hopen).2 hfull) hclosed⟩
      obtain ⟨hempty, hsilent⟩ := (h hopen).1 hended
      exact ⟨hempty, .inr ⟨by rintro _ ⟨⟩, (hsilent.resolve_left hclosed).2⟩⟩
    all_goals exact h
  | reset =>
    rw [hop] at hcalm
    exact ends_of_before hcalm
  | shutdown =>
    simp only [handleShutdown]
    split
    · exact fun hopen => ⟨fun hended => ⟨((h hopen).1 hended).1, .inl rfl⟩, fun _ => rfl⟩
    · rename_i hpart
      refine fun hopen => ⟨fun hended => ?_, fun hfull => absurd hfull hpart⟩
      obtain ⟨hempty, hsilent⟩ := (h hopen).1 hended
      refine ⟨hempty, hsilent.imp_right (And.imp_right fun hsend => ?_)⟩
      exact Bool.or_eq_true_iff.mpr (.inl hsend)
  | data =>
    rw [hop] at hcalm
    simp only [handleData]
    split
    · exact h
    all_goals
      rename_i hstate
      have hopens : ∀ error, connection.state ≠ .closed error := by
        intro error herror
        cases herror.symm.trans hstate
      split
      · rename_i hover
        apply ends_of_before
        intro hopen
        constructor
        · intro hended
          rw [hcalm hopen hopens hended] at hover
          cases hover
        · exact fun hfull => hopens _ ((h hopen).2 hfull)
      · refine fun hopen => ⟨fun hended => ?_, (h hopen).2⟩
        rw [hcalm hopen hopens hended]
        exact (h hopen).1 hended
  | creditRequest | creditUpdate | request => exact h

theorem Ends.step (h : connection.Ends ended)
    (hcalm : connection.localShutdown.receive = false → connection.Calm ended op) (maxPayload : Nat) :
  (connection.step maxPayload op).2.Ends
    ((connection.step maxPayload op).1.read? == some (.ok .eof) || ended)
  := by
  cases op with
  | beginWrite =>
    simp only [VsockConnection.step, beginWrite]
    repeat' split
    all_goals exact h
  | creditRequest =>
    simp only [VsockConnection.step, creditRequest]
    split <;> exact h
  | read => exact h.read hcalm
  | shutdown stream directions =>
    have hmerged : { connection with
        localShutdown := connection.localShutdown.merged directions }.Ends ended :=
      fun hopen => h (Bool.or_eq_false_iff.mp hopen).1
    simp only [VsockConnection.step, shutdown]
    repeat' split
    all_goals first | exact h | exact hmerged
  | packet => exact h.packet hcalm maxPayload
  | finishWrite | listen | accept | closeListener | connect | close | resetAll => exact h

end VsockConnection

/-! ### Runs -/

/-- The table is sound, and the end of every stream is final. -/
def Kept (state : VsockTable × (Nat → Bool)) : Prop :=
  state.1.Sound ∧ ∀ index connection, state.1.connections index = some connection →
    connection.Ends (state.2 index)

theorem Kept.step (h : Kept (table, tells)) (hcalm : Calm (table, tells) op)
    (hstep : table.step op = .ok (table', answer)) :
  Kept (table', toldEof tells table op answer)
  := by
  obtain ⟨hsound, hends⟩ := h
  obtain ⟨hfollows, hsound'⟩ := hsound.step hstep
  refine ⟨hsound', fun index connection' hconnection' => ?_⟩
  have hfate := hfollows.fate hsound index
  rw [hconnection'] at hfate
  generalize hconnection : table.connections index = before at hfate
  simp only [toldEof, hconnection]
  cases hfate with
  | opened hpeer => exact ends_of_before fun _ => ⟨nofun, by rw [hpeer]; nofun⟩
  | kept _ htargets =>
    simp only [decide_eq_false htargets]
    exact hends index _ hconnection
  | acted htargets hanswer =>
    simp only [decide_eq_true htargets, hanswer]
    exact (hends index _ hconnection).step (hcalm index _ hconnection (.inl htargets)) _
  | @reset held hop hanswer =>
    subst hop hanswer
    exact ends_of_before (hcalm index held hconnection (.inr rfl))

/-- In every run of calm steps, the end of every stream is final. -/
theorem end_of_stream_final {guestCid maxPayload : Nat} {table : VsockTable} {tells : Nat → Bool}
    (h : Reachable (instrument VsockTable.step toldEof)
      (· = (.new guestCid maxPayload, fun _ => false)) Calm (table, tells))
    {index : Nat} {connection : VsockConnection}
    (hconnection : table.connections index = some connection) :
  Final (tells index) connection
  := by
  have hkept : Kept (table, tells) := by
    apply @Reachable.invariant _ _ _ _ _ _ _ Kept _ _ _ h
    · rintro _ rfl
      exact ⟨VsockTable.sound_new .., nofun⟩
    · rintro ⟨table, tells⟩ op ⟨table', tells'⟩ answer hkept hcalm hstep
      obtain ⟨htaken, rfl⟩ := instrument_eq_ok hstep
      exact hkept.step hcalm htaken
  exact (hkept.2 index connection hconnection).final

/-- A packet of a host to the first connection to it. -/
def fromHost (op : VsockOp) : Op :=
  .packet ⟨⟨2, 1024⟩, ⟨3, ephemeralPortStart⟩, op, 3, 0, 4, 0⟩ []

theorem end_of_stream_final_closed :
  ∃ table tells connection, Reachable (instrument VsockTable.step toldEof)
      (· = (.new 3 4096, fun _ => false)) Calm (table, tells) ∧
    table.connections 0 = some connection ∧ tells 0 = true ∧ Final (tells 0) connection
  := by
  have hnew : Reachable (instrument VsockTable.step toldEof) (· = (.new 3 4096, fun _ => false))
      Calm (.new 3 4096, fun _ => false) := .start rfl
  have hread := ((hnew.next (show Calm _ (.connect ⟨2, 1024⟩) from nofun) rfl).next
    (show Calm _ (fromHost .shutdown) from fun _ _ _ _ _ => trivial) rfl).next
    (show Calm _ (.read ⟨0, 1⟩ 1) from fun _ _ _ _ _ => nofun) rfl
  exact ⟨_, _, _, hread, rfl, rfl, end_of_stream_final hread rfl⟩

/-- A host closes both directions and resets the connection: the reader is told of the end of the
stream and then of a reset. -/
theorem reset_after_eof :
  (run VsockTable.step (.new 3 4096) [.connect ⟨2, 1024⟩, fromHost .shutdown, .read ⟨0, 1⟩ 1,
    fromHost .reset, .read ⟨0, 1⟩ 1]).map (fun result => result.2.filterMap Answer.read?) =
    .ok [.ok .eof, .error .connectionReset]
  := by
  rfl

end Helios.Vsock
