import Helios.Kernel.VsockCredit

/-!
# Streams of a table

Every connection of a table keeps a journal along a run.  The bytes that are read are those of
the payloads that were accepted, a peer that keeps to the window announced to it is not refused,
and what is authorised keeps to the window that the peer has granted.
-/

namespace Helios.Vsock

open Function VsockConnection Transition

variable {op : Op} {connection : VsockConnection} {table table' : VsockTable} {answer : Answer}
  {index : Nat} {journals : Nat → Journal} {header : VsockPacketHeader}

/-- The journals of the connections of a table after a step. -/
def logged (journals : Nat → Journal) (table : VsockTable) (op : Op) (answer : Answer)
    (table' : VsockTable) (index : Nat) : Journal :=
  match table.connections index, table'.connections index with
  | none, some connection => .opened (connection.key index) op answer
  | some connection, some _ => (journals index).note (connection.key index) op answer
  | _, none => journals index

def logStep (journals : Nat → Journal) (table : VsockTable) (op : Op) (answer : Answer) :
    Nat → Journal :=
  match table.step op with
  | .error _ => journals
  | .ok (table', _) => logged journals table op answer table'

/-- A table and the journals of its connections after a run from a new table. -/
def Logged (guestCid maxPayload : Nat) (table : VsockTable) (journals : Nat → Journal) : Prop :=
  Reachable (instrument VsockTable.step logStep)
    (fun state => state = (.new guestCid maxPayload, fun _ => ⟨[], [], 0, true, ⟨0, 0⟩, ⟨0, 0⟩, 0⟩))
    (fun _ _ => True) (table, journals)

/-! ### Steps -/

theorem Journal.note_eq {journal : Journal} {key : ConnectionKey} (htargets : ¬ op.Targets key)
    (hheader : ∀ header, answer.header? = some header → header.op = .reset ∨ ¬ (header.source =
      key.localAddr ∧ header.destination = key.peer)) :
  journal.note key op answer = journal
  := by
  rw [Journal.note, if_neg htargets, Journal.Shows.announce_quiet hheader]

theorem VsockConnection.closeReply_op (h : connection.closeReply = some header) :
  header.op = .reset
  := by
  rw [closeReply] at h
  split at h
  · cases h
  all_goals
    cases h
    rfl

/-- Two connections in different slots are not the target of one operation. -/
theorem VsockTable.Sound.targets_ne (h : table.Sound) {other : Nat}
    {connection' : VsockConnection} (hconnection : table.connections index = some connection)
    (hother : table.connections other = some connection') (hne : other ≠ index)
    (htargets : op.Targets (connection.key index)) :
  ¬ op.Targets (connection'.key other)
  := by
  intro htargets'
  apply hne
  cases op with
  | beginWrite | finishWrite | creditRequest | read | shutdown =>
    have hstream := htargets'.symm.trans htargets
    exact (VsockStreamId.mk.inj hstream).1
  | packet header payload =>
    obtain ⟨_, hdestination, hsource⟩ := htargets
    obtain ⟨_, hdestination', hsource'⟩ := htargets'
    apply h.pairs other index connection' connection hother hconnection
    · exact hdestination'.symm.trans hdestination
    · exact hsource'.symm.trans hsource
  | listen | accept | closeListener | connect | close | resetAll => exact absurd htargets id

/-- What becomes of the connection in one slot. -/
inductive Fate (table : VsockTable) (op : Op) (answer : Answer) (index : Nat) :
    Option VsockConnection → Option VsockConnection → Prop where
  | vacant : Fate table op answer index none none
  | opened {held} (hpeer : held.peerShutdown = .none)
      (hshows : (Journal.opened (held.key index) op answer).Shows held) :
      Fate table op answer index none (some held)
  | kept {held} (hreset : op ≠ .resetAll) (htargets : ¬ op.Targets (held.key index))
      (hheader : ∀ header, answer.header? = some header → header.op = .reset ∨
        ¬ (header.source = held.localAddr ∧ header.destination = held.peer)) :
      Fate table op answer index (some held) (some held)
  | acted {held} (htargets : op.Targets (held.key index))
      (hanswer : answer = (held.step table.maxPayload op).1) :
      Fate table op answer index (some held)
        (some (held.step table.maxPayload op).2)
  | closed {held stream} (hop : op = .close stream) :
      Fate table op answer index (some held) none
  | reset {held} (hop : op = .resetAll) (hanswer : answer = .done) :
      Fate table op answer index (some held)
        (some { held with state := .closed .connectionReset })

theorem VsockTable.Follows.fate (h : Follows table op answer table') (hsound : table.Sound)
    (index : Nat) :
  Fate table op answer index (table.connections index) (table'.connections index)
  := by
  obtain ⟨_, _, hchanges⟩ := h
  -- A slot that the step leaves as it is.
  have hkeep : op ≠ .resetAll → (∀ connection, table.connections index = some connection →
      ¬ op.Targets (connection.key index) ∧ ∀ header, answer.header? = some header →
        header.op = .reset ∨
          ¬ (header.source = connection.localAddr ∧ header.destination = connection.peer)) →
      Fate table op answer index (table.connections index) (table.connections index) := by
    intro hreset hkept
    cases hslot : table.connections index with
    | none => exact .vacant
    | some connection => exact .kept hreset (hkept connection hslot).1 (hkept connection hslot).2
  have hother : ∀ connection {header : VsockPacketHeader}, table.connections index =
      some connection → table.Unused header.source header.destination →
      ¬ (header.source = connection.localAddr ∧ header.destination = connection.peer) := by
    rintro connection header hconnection hunused ⟨hsource, hdestination⟩
    exact hunused index connection (hsound.bound index connection hconnection) hconnection
      ⟨hsource.symm, hdestination.symm⟩
  generalize table'.connections = connections at hchanges ⊢
  generalize table'.listeners = listeners at hchanges
  generalize table'.nextGeneration = generation at hchanges
  cases hchanges with
  | idle hquiet hmissed hclose hreset =>
    apply hkeep hreset
    intro connection hconnection
    refine ⟨hmissed index connection (hsound.bound index connection hconnection) hconnection, ?_⟩
    intro header hheader
    exact Or.inl (hquiet.header header hheader)
  | unlistened | listened | accepted | unbound => exact hkeep nofun fun _ _ => ⟨id, nofun⟩
  | @connected peer slot port hindex hfree hunused =>
    rw [update_apply]
    split_ifs with hslot
    · rw [hslot, hfree]
      exact .opened rfl (.opened rfl nofun rfl rfl rfl)
    · apply hkeep nofun
      intro connection hconnection
      refine ⟨id, fun | _, rfl => Or.inr (hother connection hconnection hunused)⟩
  | @requested header payload slot _ listener hindex hrequest hcid hfree hunused hlistener =>
    rw [update_apply]
    split_ifs with hslot
    · rw [hslot, hfree]
      exact .opened rfl (.opened rfl nofun rfl rfl rfl)
    · apply hkeep nofun
      intro connection hconnection
      refine ⟨fun htargets => htargets.1 hrequest, ?_⟩
      exact fun | _, rfl => Or.inr (hother connection hconnection hunused)
  | @acted _ slot connection hindex hconnection htargets =>
    rw [update_apply]
    split_ifs with hslot
    · subst hslot
      rw [hconnection]
      exact .acted htargets rfl
    · apply hkeep
      · rintro rfl
        exact htargets
      · intro connection' hsame
        refine ⟨hsound.targets_ne hconnection hsame hslot htargets, ?_⟩
        intro header hheader
        rcases (connection.step_keeps _ _ 0).2 header hheader with hreset | ⟨hsource, hdestination⟩
        · exact Or.inl hreset
        · right
          rintro ⟨hsource', hdestination'⟩
          apply hslot
          apply hsound.pairs index slot connection' connection hsame hconnection
          · exact hsource'.symm.trans hsource
          · exact hdestination'.symm.trans hdestination
  | @closed slot connection hindex hconnection =>
    rw [update_apply]
    split_ifs with hslot
    · subst hslot
      rw [hconnection]
      exact .closed rfl
    · exact hkeep nofun fun _ _ => ⟨id, fun _ hheader => Or.inl (closeReply_op hheader)⟩
  | reset =>
    simp only [resetAll]
    cases table.connections index with
    | none => exact .vacant
    | some connection => exact .reset rfl rfl

/-- The journals agree with the connections of a table. -/
def Agree (table : VsockTable) (journals : Nat → Journal) : Prop :=
  ∀ index connection, table.connections index = some connection →
    (journals index).Shows connection

/-- The journals agree with the connections after a step. -/
theorem Agree.step (h : Agree table journals) (hsound : table.Sound)
    (hfollows : VsockTable.Follows table op answer table') :
  Agree table' (logged journals table op answer table')
  := by
  intro index connection' hconnection'
  have hfate := hfollows.fate hsound index
  rw [hconnection'] at hfate
  generalize hconnection : table.connections index = before at hfate
  simp only [logged, hconnection, hconnection']
  cases hfate with
  | opened hpeer hshows => exact hshows
  | kept hreset htargets hheader =>
    simp only
    rw [Journal.note_eq htargets hheader]
    exact h index connection' hconnection
  | acted htargets hanswer =>
    rw [hanswer]
    exact (h index _ hconnection).step htargets
  | reset hop hanswer =>
    subst hop hanswer
    refine { h index _ hconnection with arrived := ?_ }
    intro _ hopen
    exact absurd rfl (hopen _)

theorem VsockTable.Sound.answer_eq (h : table.Sound)
    (hconnection : table.connections index = some connection)
    (htargets : op.Targets (connection.key index)) (hstep : table.step op = .ok (table', answer)) :
  answer = (connection.step table.maxPayload op).1
  := by
  have hfate := (h.step hstep).1.fate h index
  rw [hconnection] at hfate
  generalize table'.connections index = after at hfate
  cases hfate with
  | kept _ hmissed => exact absurd htargets hmissed
  | acted _ hanswer => exact hanswer
  | closed hop | reset hop =>
    subst hop
    exact absurd htargets id

/-! ### Runs -/

theorem Logged.agree {guestCid maxPayload : Nat} (h : Logged guestCid maxPayload table journals) :
  table.Sound ∧ Agree table journals
  := by
  apply @Reachable.invariant _ _ _ _ _ _ _
    (fun state => state.1.Sound ∧ Agree state.1 state.2) _ _ _ h
  · rintro _ rfl
    refine ⟨VsockTable.sound_new .., ?_⟩
    nofun
  · rintro ⟨table, journals⟩ op ⟨table', journals'⟩ answer ⟨hsound, hagree⟩ _ hstep
    obtain ⟨htaken, rfl⟩ := instrument_eq_ok hstep
    obtain ⟨hfollows, hsound'⟩ := hsound.step htaken
    refine ⟨hsound', ?_⟩
    rw [logStep, htaken]
    exact hagree.step hsound hfollows

/-- The two directions of a connection in a slot of a table. -/
structure Delivers (table : VsockTable) (index : Nat) (connection : VsockConnection)
    (journal : Journal) : Prop where
  /-- The bytes that were read are the first of those accepted, and the rest are in the buffer. -/
  stream : journal.accepted = journal.read ++ connection.receive.contents
  /-- A packet within the window that was announced is accepted. -/
  overrun : ∀ header payload, header.op = .data → header.destination = connection.localAddr →
    header.source = connection.peer → journal.conforming →
    (∀ error, connection.state ≠ .closed error) →
    payload.length ≤ journal.announced.left journal.arrived →
    ∃ table', table.step (.packet header payload) = .ok (table', .reply none)
  /-- The bytes sent and a chunk that is authorised keep to the window that was granted. -/
  authorised : ∀ len chunk table', table.step (.beginWrite ⟨index, connection.generation⟩ len) =
    .ok (table', .write (.ok (.ready chunk))) → chunk.len ≤ journal.granted.left journal.sent
  /-- Only what was sent is taken off the window that was granted. -/
  spent : (connection.peerFree : Int) = max (journal.granted.left journal.sent) 0
  /-- The peer has been told of all that was read but less than half a window. -/
  gap : (BitVec.ofNat 32 journal.read.length - journal.announced.fwdCnt).toNat <
    vsockReceiveWindowBytes / 2
  /-- When the buffer is empty, more than half a window is left of what was announced. -/
  drained : connection.receive.len = 0 →
    (vsockReceiveWindowBytes / 2 : Nat) < journal.announced.left journal.accepted.length

/-- In every run, every connection delivers its streams and keeps to the windows. -/
theorem streams_and_credit {guestCid maxPayload : Nat} {table : VsockTable}
    {journals : Nat → Journal} (h : Logged guestCid maxPayload table journals) {index : Nat}
    {connection : VsockConnection} (hconnection : table.connections index = some connection) :
  Delivers table index connection (journals index)
  := by
  obtain ⟨hsound, hagree⟩ := h.agree
  have hshows := hagree index connection hconnection
  constructor
  · exact hshows.accepted
  · intro header payload hop hdestination hsource hconforming hopen hwithin
    have htargets : (Op.packet header payload).Targets (connection.key index) :=
      ⟨by rw [hop]; nofun, hdestination, hsource⟩
    have hcid : ¬ header.destination.cid ≠ table.guestCid := by
      rw [hdestination, not_not]
      exact hsound.guest index connection hconnection
    have hstep : ∃ table' answer, table.step (.packet header payload) = .ok (table', answer) := by
      simp only [VsockTable.step, VsockTable.handlePacket, if_neg hcid, hop]
      exact ⟨_, _, rfl⟩
    obtain ⟨table', answer, hstep⟩ := hstep
    refine ⟨table', ?_⟩
    rw [hstep, hsound.answer_eq hconnection htargets hstep]
    simp only [step, hop]
    rw [hshows.handleData_of_within header hconforming hopen hwithin]
  · intro len chunk table' hstep
    have htargets : (Op.beginWrite ⟨index, connection.generation⟩ len).Targets
        (connection.key index) := rfl
    have hanswer := hsound.answer_eq hconnection htargets hstep
    simp only [step, Answer.write.injEq] at hanswer
    exact hshows.beginWrite_within hanswer.symm
  · rw [peerFree, Credit.left, hshows.granted, hshows.txCnt]
    simp only
    omega
  · rw [← hshows.fwdCnt, hshows.announced]
    exact hshows.gap
  · have hgap := hshows.gap
    rw [hshows.left_accepted]
    omega

/-- A connection to a host, which grants a window of four bytes and sends three. -/
def hostExchange : List Op :=
  [.connect ⟨2, 1024⟩,
    .packet ⟨⟨2, 1024⟩, ⟨3, ephemeralPortStart⟩, .response, 0, 0, 4, 0⟩ [],
    .beginWrite ⟨0, 1⟩ 9, .finishWrite ⟨0, 1⟩ 3,
    .packet ⟨⟨2, 1024⟩, ⟨3, ephemeralPortStart⟩, .data, 0, 3, 4, 0⟩ [7, 8, 9], .read ⟨0, 1⟩ 2]

theorem streams_and_credit_sample :
  ∃ table journals connection, Logged 3 4096 table journals ∧
    table.connections 0 = some connection ∧ (journals 0).sent = 3 ∧ (journals 0).read = [7, 8] ∧
    Delivers table 0 connection (journals 0)
  := by
  have hrun : (runAllowed (instrument VsockTable.step logStep)
      (fun _ _ => True) (.new 3 4096, fun _ => ⟨[], [], 0, true, ⟨0, 0⟩, ⟨0, 0⟩, 0⟩)
      hostExchange).map
        (fun state => ((state.1.connections 0).isSome, (state.2 0).sent, (state.2 0).read)) =
      some (true, 3, [7, 8]) := by
    decide +kernel
  obtain ⟨⟨table, journals⟩, hstate, hjournal⟩ := Option.map_eq_some_iff.mp hrun
  obtain ⟨hsome, hrest⟩ := Prod.mk.inj hjournal
  obtain ⟨hsent, hread⟩ := Prod.mk.inj hrest
  obtain ⟨connection, hconnection⟩ := Option.isSome_iff_exists.mp hsome
  have hnew : Logged 3 4096 (.new 3 4096) (fun _ => ⟨[], [], 0, true, ⟨0, 0⟩, ⟨0, 0⟩, 0⟩) :=
    .start rfl
  have hlogged : Logged 3 4096 table journals :=
    Reachable.of_runAllowed hnew hstate
  exact ⟨table, journals, connection, hlogged, hconnection, hsent, hread,
    streams_and_credit hlogged hconnection⟩

end Helios.Vsock
