import Helios.Kernel.VsockTable
import Helios.Library.Transition
import Helios.Library.Updates

/-!
# Runs of the vsock table

The calls on a table and the packets that arrive, one after another.  A step opens a connection
in a free slot, acts on the connection in one slot, empties a slot, closes them all, or leaves
the connections as they are.
-/

namespace Helios.Vsock

open Function List Option

/-- The calls on a table, and the arrival of a packet. -/
inductive Op where
  | listen (port backlog : Nat)
  | accept (listener : VsockListenerId)
  | closeListener (listener : VsockListenerId)
  | connect (peer : VsockAddress)
  | beginWrite (stream : VsockStreamId) (len : Nat)
  | finishWrite (stream : VsockStreamId) (sent : Nat)
  | creditRequest (stream : VsockStreamId)
  | read (stream : VsockStreamId) (wanted : Nat)
  | shutdown (stream : VsockStreamId) (directions : VsockShutdown)
  | close (stream : VsockStreamId)
  | packet (header : VsockPacketHeader) (payload : List UInt8)
  | resetAll
  deriving DecidableEq, Repr

inductive Answer where
  | listening (result : Except VsockError VsockListenerId)
  | accepted (result : Except VsockError (Option VsockStreamId))
  | unbound (result : Except VsockError Unit)
  | connected (result : Except VsockError (VsockStreamId × VsockPacketHeader))
  | write (result : Except VsockError VsockWriteProgress)
  | read (result : Except VsockError VsockReadProgress)
  | notice (result : Except VsockError (Option VsockPacketHeader))
  | reply (result : Option VsockPacketHeader)
  | done

namespace VsockTable

def step (table : VsockTable) : Op → Except VsockPanic (VsockTable × Answer)
  | .listen port backlog =>
    let (result, table) := table.listen port backlog
    .ok (table, .listening result)
  | .accept listener =>
    let (result, table) := table.accept listener
    .ok (table, .accepted result)
  | .closeListener listener =>
    let (result, table) := table.closeListener listener
    .ok (table, .unbound result)
  | .connect peer =>
    let (result, table) := table.connect peer
    .ok (table, .connected result)
  | .beginWrite stream len =>
    let (result, table) := table.beginWrite stream len
    .ok (table, .write result)
  | .finishWrite stream sent =>
    match table.finishWrite stream sent with
    | .error panic => .error panic
    | .ok table => .ok (table, .done)
  | .creditRequest stream =>
    let (result, table) := table.creditRequest stream
    .ok (table, .notice result)
  | .read stream wanted =>
    let (result, table) := table.read stream wanted
    .ok (table, .read result)
  | .shutdown stream directions =>
    let (result, table) := table.shutdown stream directions
    .ok (table, .notice result)
  | .close stream =>
    let (result, table) := table.close stream
    .ok (table, .notice result)
  | .packet header payload =>
    match table.handlePacket header payload with
    | .error panic => .error panic
    | .ok (reply, table) => .ok (table, .reply reply)
  | .resetAll => .ok (table.resetAll, .done)

end VsockTable

/-! ### What a step does to one connection -/

/-- The handle and the addresses of a connection in a slot. -/
structure ConnectionKey where
  stream : VsockStreamId
  localAddr : VsockAddress
  peer : VsockAddress
  deriving DecidableEq, Repr

def VsockConnection.key (connection : VsockConnection) (index : Nat) : ConnectionKey :=
  ⟨⟨index, connection.generation⟩, connection.localAddr, connection.peer⟩

/-- The operation is on the connection, by its handle or by its addresses. -/
def Op.Targets (op : Op) (key : ConnectionKey) : Prop :=
  match op with
  | .beginWrite stream _ | .finishWrite stream _ | .creditRequest stream | .read stream _
  | .shutdown stream _ => stream = key.stream
  | .packet header _ =>
    header.op ≠ .request ∧ header.destination = key.localAddr ∧ header.source = key.peer
  | _ => False

/-- The answer and the connection after an operation on it. -/
def VsockConnection.step (maxPayload : Nat) (connection : VsockConnection) :
    Op → Answer × VsockConnection
  | .beginWrite _ len =>
    let (result, connection) := connection.beginWrite maxPayload len
    (.write result, connection)
  | .finishWrite _ sent => (.done, connection.finishWrite sent)
  | .creditRequest _ =>
    let (result, connection) := connection.creditRequest
    (.notice (.ok result), connection)
  | .read _ wanted =>
    let (result, connection) := connection.read wanted
    (.read result, connection)
  | .shutdown _ directions =>
    let (result, connection) := connection.shutdown directions
    (.notice (.ok result), connection)
  | .packet header payload =>
    match header.op with
    | .response =>
      let (reply, connection) := connection.handleResponse header
      (.reply reply, connection)
    | .reset => (.reply none, connection.handleReset)
    | .shutdown =>
      let (reply, connection) := connection.handleShutdown header
      (.reply reply, connection)
    | .data =>
      let (reply, connection) := connection.handleData header payload
      (.reply reply, connection)
    | .creditUpdate => (.reply none, connection.absorbPeerCredit header)
    | .creditRequest =>
      let (reply, connection) := connection.handleCreditRequest header
      (.reply reply, connection)
    | .request => (.reply none, connection)
  | _ => (.done, connection)

/-- The header that an answer carries. -/
def Answer.header? : Answer → Option VsockPacketHeader
  | .connected (.ok (_, header)) => some header
  | .write (.ok (.ready chunk)) => some chunk.header
  | .read (.ok (.ready _ creditUpdate)) => creditUpdate
  | .notice (.ok header) => header
  | .reply header => header
  | _ => none

/-- The handle that an answer gives out. -/
def Answer.issued? : Answer → Option VsockStreamId
  | .connected (.ok (stream, _)) => some stream
  | .accepted (.ok stream) => stream
  | _ => none

/-- An answer that announces no window, gives out no handle and carries no bytes. -/
structure Answer.Quiet (answer : Answer) : Prop where
  header : ∀ header, answer.header? = some header → header.op = .reset
  issued : answer.issued? = none
  bytes : ∀ bytes creditUpdate, answer ≠ .read (.ok (.ready bytes creditUpdate))

/-- A pair of addresses that no connection of the table has. -/
def VsockTable.Unused (table : VsockTable) (localAddr peer : VsockAddress) : Prop :=
  ∀ index connection, index < maxVsockConnections → table.connections index = some connection →
    ¬ (connection.localAddr = localAddr ∧ connection.peer = peer)

/-- No connection of the table is what the operation is on. -/
def VsockTable.Missed (table : VsockTable) (op : Op) : Prop :=
  ∀ index connection, index < maxVsockConnections → table.connections index = some connection →
    ¬ op.Targets (connection.key index)

/-- What a step can do to the connections, the listeners and the generation. -/
inductive Changes (table : VsockTable) :
    Op → Answer → (Nat → Option VsockConnection) → (Nat → Option VsockListener) → Nat → Prop where
  | idle {op answer} (hquiet : answer.Quiet) (hmissed : table.Missed op)
      (hclose : ∀ stream, op = .close stream → ∃ error, answer = .notice (.error error))
      (hreset : op ≠ .resetAll) :
      Changes table op answer table.connections table.listeners table.nextGeneration
  | unlistened {port backlog error} :
      Changes table (.listen port backlog) (.listening (.error error)) table.connections
        table.listeners (VsockTable.generationAfter table.nextGeneration)
  | listened {port backlog index port' backlog'} (hfree : table.listeners index = none) :
      Changes table (.listen port backlog) (.listening (.ok ⟨index, table.nextGeneration⟩))
        table.connections
        (update table.listeners index
          (some ⟨table.nextGeneration, port', backlog', []⟩))
        (VsockTable.generationAfter table.nextGeneration)
  | accepted {listener bound} (hbound : table.listeners listener.index = some bound) :
      Changes table (.accept listener) (.accepted (.ok bound.queued.head?)) table.connections
        (update table.listeners listener.index
          (some { bound with queued := bound.queued.tail }))
        table.nextGeneration
  | unbound {listener bound} (hbound : table.listeners listener.index = some bound)
      (hgeneration : bound.generation = listener.generation) :
      Changes table (.closeListener listener) (.unbound (.ok ())) table.connections
        (update table.listeners listener.index none) table.nextGeneration
  | connected {peer index port} (hindex : index < maxVsockConnections)
      (hfree : table.connections index = none)
      (hunused : table.Unused ⟨table.guestCid, port⟩ peer) :
      Changes table (.connect peer)
        (.connected (.ok (⟨index, table.nextGeneration⟩,
          ((VsockConnection.opened table.nextGeneration ⟨table.guestCid, port⟩ peer
            .connecting).header .request).1)))
        (update table.connections index
          (some ((VsockConnection.opened table.nextGeneration ⟨table.guestCid, port⟩ peer
            .connecting).header .request).2))
        table.listeners (VsockTable.generationAfter table.nextGeneration)
  | requested {header payload index slot listener} (hindex : index < maxVsockConnections)
      (hrequest : header.op = .request) (hcid : header.destination.cid = table.guestCid)
      (hfree : table.connections index = none)
      (hunused : table.Unused header.destination header.source)
      (hlistener : table.listeners slot = some listener) :
      Changes table (.packet header payload)
        (.reply (some (((VsockConnection.opened table.nextGeneration header.destination
          header.source .established).absorbPeerCredit header).header .response).1))
        (update table.connections index
          (some (((VsockConnection.opened table.nextGeneration header.destination
            header.source .established).absorbPeerCredit header).header .response).2))
        (update table.listeners slot (some { listener with
          queued := listener.queued ++ [⟨index, table.nextGeneration⟩] }))
        (VsockTable.generationAfter table.nextGeneration)
  | acted {op index connection} (hindex : index < maxVsockConnections)
      (hconnection : table.connections index = some connection)
      (htargets : op.Targets (connection.key index)) :
      Changes table op (connection.step table.maxPayload op).1
        (update table.connections index
          (some (connection.step table.maxPayload op).2))
        table.listeners table.nextGeneration
  | closed {index connection} (hindex : index < maxVsockConnections)
      (hconnection : table.connections index = some connection) :
      Changes table (.close ⟨index, connection.generation⟩) (.notice (.ok connection.closeReply))
        (update table.connections index none) table.listeners table.nextGeneration
  | reset :
      Changes table .resetAll .done table.resetAll.connections table.resetAll.listeners
        table.nextGeneration

namespace VsockTable

variable {error : VsockError} {port backlog : Nat} {reply : Option VsockPacketHeader}

variable {table table' : VsockTable} {stream : VsockStreamId} {peer localAddr : VsockAddress}
  {listener : VsockListenerId} {index : Nat} {op : Op} {header : VsockPacketHeader}
  {payload : List UInt8} {result : Except VsockError (Option VsockPacketHeader)} {answer : Answer}

/-! ### Lookups -/

theorem connection_eq_ok {found : VsockConnection} (h : table.connection stream = .ok found) :
  stream.index < maxVsockConnections ∧ table.connections stream.index = some found ∧
    found.generation = stream.generation
  := by
  rw [VsockTable.connection] at h
  repeat' split at h
  all_goals cases h
  exact ⟨‹_›, ‹_›, ‹_›⟩

theorem connection_eq_error (h : table.connection stream = .error error) :
  error = .unknownHandle ∧ ∀ connection, stream.index < maxVsockConnections →
    table.connections stream.index = some connection → connection.generation ≠ stream.generation
  := by
  rw [VsockTable.connection] at h
  constructor
  · repeat' split at h
    all_goals cases h
    all_goals rfl
  · intro connection hindex hconnection hgeneration
    simp only [if_pos hindex, hconnection, if_pos hgeneration, reduceCtorEq] at h

theorem listener_eq_ok {found : VsockListener} (h : table.listener listener = .ok found) :
  table.listeners listener.index = some found ∧ found.generation = listener.generation
  := by
  rw [VsockTable.listener] at h
  repeat' split at h
  all_goals cases h
  exact ⟨‹_›, ‹_›⟩

theorem connectionIndex_eq_some (h : table.connectionIndex localAddr peer = some index) :
  index < maxVsockConnections ∧ ∃ connection, table.connections index = some connection ∧
    connection.localAddr = localAddr ∧ connection.peer = peer
  := by
  have hmem := mem_of_find?_eq_some h
  have hfound := find?_some h
  rw [Option.any_eq_true] at hfound
  obtain ⟨connection, hconnection, hpair⟩ := hfound
  rw [decide_eq_true_eq] at hpair
  exact ⟨mem_range.mp hmem, connection, hconnection, hpair⟩

theorem unused_of_connectionIndex (h : table.connectionIndex localAddr peer = none) :
  table.Unused localAddr peer
  := by
  intro index connection hindex hconnection hpair
  rw [connectionIndex, find?_eq_none] at h
  apply h index (mem_range.mpr hindex)
  rw [hconnection, any_some, decide_eq_true_eq]
  exact hpair

theorem freeConnection_eq_some (h : table.freeConnection = some index) :
  index < maxVsockConnections ∧ table.connections index = none
  := by
  have hmem := mem_of_find?_eq_some h
  have hfound := find?_some h
  exact ⟨mem_range.mp hmem, isNone_iff_eq_none.mp hfound⟩

theorem freeListener_eq_some (h : table.freeListener = some index) :
  table.listeners index = none
  := by
  have hfound := find?_some h
  exact isNone_iff_eq_none.mp hfound

theorem tryEphemeralPorts_eq (table : VsockTable) (tries : Nat) :
  ∃ result port, table.tryEphemeralPorts tries = (result, { table with nextEphemeralPort := port })
  := by
  induction tries generalizing table with
  | zero => exact ⟨_, table.nextEphemeralPort, rfl⟩
  | succ tries ih =>
    rw [tryEphemeralPorts]
    generalize (if table.nextEphemeralPort = maxPort then ephemeralPortStart
      else table.nextEphemeralPort + 1) = next
    split
    · exact ⟨_, next, rfl⟩
    · exact ih { table with nextEphemeralPort := next }

/-! ### Inversion -/

/-- A table step leaves the machine's number and the largest payload as they are. -/
structure Follows (table : VsockTable) (op : Op) (answer : Answer) (table' : VsockTable) : Prop where
  guestCid : table'.guestCid = table.guestCid
  maxPayload : table'.maxPayload = table.maxPayload
  changes : Changes table op answer table'.connections table'.listeners table'.nextGeneration

theorem missed_of_unknown (h : table.connection stream = .error error)
    (htargets : ∀ key, op.Targets key → stream = key.stream) :
  table.Missed op
  := by
  intro index connection hindex hconnection htarget
  have hstream := htargets _ htarget
  rw [hstream] at h
  exact (connection_eq_error h).2 connection hindex hconnection rfl

/-- An operation on a handle acts on the connection that it names, or on none. -/
theorem onStream_follows {α : Type}
    {act : VsockConnection → Except VsockError α × VsockConnection} {result : Except VsockError α}
    {answer : Except VsockError α → Answer} (h : table.onStream stream act = (result, table'))
    (htargets : ∀ key, op.Targets key ↔ stream = key.stream) (hstep : ∀ connection,
      connection.step table.maxPayload op = (answer (act connection).1, (act connection).2))
    (hquiet : ∀ error, (answer (.error error)).Quiet) (hclose : ∀ stream, op ≠ .close stream)
    (hreset : op ≠ .resetAll) :
  Follows table op (answer result) table'
  := by
  rw [onStream] at h
  cases hlookup : table.connection stream with
  | error error =>
    rw [hlookup] at h
    cases h
    refine ⟨rfl, rfl, .idle (hquiet error) ?_ ?_ hreset⟩
    · exact missed_of_unknown hlookup fun key => (htargets key).mp
    · intro stream hop
      exact absurd hop (hclose stream)
  | ok connection =>
    rw [hlookup] at h
    cases h
    obtain ⟨hindex, hconnection, hgeneration⟩ := connection_eq_ok hlookup
    have htarget : op.Targets (connection.key stream.index) := by
      rw [htargets, VsockConnection.key, hgeneration]
    have hacted := Changes.acted hindex hconnection htarget
    rw [hstep] at hacted
    exact ⟨rfl, rfl, hacted⟩

/-- A packet acts on the connection that has its addresses, or on none. -/
theorem onPacket_follows {whenUnknown result : Option VsockPacketHeader}
    {act : VsockConnection → Option VsockPacketHeader × VsockConnection}
    (h : table.onPacket header whenUnknown act = (result, table')) (hop : header.op ≠ .request)
    (hunknown : ∀ reply, whenUnknown = some reply → reply.op = .reset) (hstep : ∀ connection,
      connection.step table.maxPayload (.packet header payload) = (.reply (act connection).1, (act
      connection).2)) :
  Follows table (.packet header payload) (.reply result) table'
  := by
  rw [onPacket] at h
  cases hindex : table.connectionIndex header.destination header.source with
  | none =>
    rw [hindex] at h
    cases h
    have hunused := unused_of_connectionIndex hindex
    refine ⟨rfl, rfl, .idle ⟨hunknown, rfl, nofun⟩ ?_ nofun nofun⟩
    rintro index connection hlt hconnection ⟨_, hdestination, hsource⟩
    exact hunused index connection hlt hconnection ⟨hdestination.symm, hsource.symm⟩
  | some index =>
    obtain ⟨hlt, connection, hconnection, hlocal, hpeer⟩ := connectionIndex_eq_some hindex
    simp only [hindex, hconnection] at h
    cases h
    have hacted := @Changes.acted table (.packet header payload) index connection hlt hconnection
      ⟨hop, hlocal.symm, hpeer.symm⟩
    rw [hstep] at hacted
    exact ⟨rfl, rfl, hacted⟩

theorem listenOn_follows {port' : Nat} {result : Except VsockError VsockListenerId}
    (h : table.listenOn port' backlog = (result, table')) :
  Follows table (.listen port backlog) (.listening result) table'
  := by
  rw [listenOn] at h
  split at h
  · cases h
    exact ⟨rfl, rfl, .unlistened⟩
  · rename_i index hfree
    cases h
    exact ⟨rfl, rfl, .listened (freeListener_eq_some hfree)⟩

theorem Follows.of_port {table table' : VsockTable} {op : Op} {port : Nat}
    (h : Follows { table with nextEphemeralPort := port } op answer table') :
  Follows table op answer table'
  := by
  obtain ⟨hguest, hpayload, hchanges⟩ := h
  refine ⟨hguest, hpayload, ?_⟩
  generalize table'.connections = connections at hchanges ⊢
  generalize table'.listeners = listeners at hchanges ⊢
  generalize table'.nextGeneration = generation at hchanges ⊢
  cases hchanges <;> constructor <;> assumption

/-- A connection is opened in a free slot, for addresses that none has. -/
theorem openConnection_cases {state : ConnectionState} {result : Except VsockError VsockStreamId}
    (h : table.openConnection localAddr peer state = (result, table')) :
  (∃ error, result = .error error ∧ table' = table) ∨
  ∃ index, index < maxVsockConnections ∧ table.connections index = none ∧
    table.Unused localAddr peer ∧ result = .ok ⟨index, table.nextGeneration⟩ ∧
    table' = { table with
      nextGeneration := generationAfter table.nextGeneration
      connections := update table.connections index
        (some (.opened table.nextGeneration localAddr peer state)) }
  := by
  rw [openConnection] at h
  repeat' split at h
  all_goals cases h
  · exact Or.inl ⟨_, rfl, rfl⟩
  · exact Or.inl ⟨_, rfl, rfl⟩
  · rename_i hpair _ index hfree
    obtain ⟨hindex, hnone⟩ := freeConnection_eq_some hfree
    refine .inr ⟨index, hindex, hnone, unused_of_connectionIndex ?_, rfl, rfl⟩
    rwa [Bool.not_eq_true, isSome_eq_false_iff, isNone_iff_eq_none] at hpair

theorem listen_follows {result : Except VsockError VsockListenerId}
    (h : table.listen port backlog = (result, table')) :
  Follows table (.listen port backlog) (.listening result) table'
  := by
  rw [listen] at h
  split at h
  · obtain ⟨allocated, next, hnext⟩ := table.tryEphemeralPorts_eq (maxPort - ephemeralPortStart)
    rw [allocateEphemeralPort, hnext] at h
    cases allocated with
    | error error =>
      cases h
      exact ⟨rfl, rfl, .idle ⟨nofun, rfl, nofun⟩ (fun _ _ _ _ => id) nofun nofun⟩
    | ok allocated =>
      apply @Follows.of_port _ _ _ _ next
      exact listenOn_follows h
  · split at h
    · cases h
      exact ⟨rfl, rfl, .idle ⟨nofun, rfl, nofun⟩ (fun _ _ _ _ => id) nofun nofun⟩
    · exact listenOn_follows h

theorem connect_follows {result : Except VsockError (VsockStreamId × VsockPacketHeader)}
    (h : table.connect peer = (result, table')) :
  Follows table (.connect peer) (.connected result) table'
  := by
  rw [connect] at h
  obtain ⟨allocated, next, hnext⟩ := table.tryEphemeralPorts_eq (maxPort - ephemeralPortStart)
  rw [allocateEphemeralPort, hnext] at h
  apply @Follows.of_port _ _ _ _ next
  cases allocated with
  | error error =>
    cases h
    exact ⟨rfl, rfl, .idle ⟨nofun, rfl, nofun⟩ (fun _ _ _ _ => id) nofun nofun⟩
  | ok port =>
    simp only at h
    cases hopen : openConnection { table with nextEphemeralPort := next } ⟨table.guestCid, port⟩
        peer .connecting with
    | mk opened table'' =>
      rw [hopen] at h
      rcases openConnection_cases hopen with ⟨error, rfl, rfl⟩ |
        ⟨index, hindex, hfree, hunused, rfl, rfl⟩
      · cases h
        exact ⟨rfl, rfl, .idle ⟨nofun, rfl, nofun⟩ (fun _ _ _ _ => id) nofun nofun⟩
      · cases h
        have hconnected := Changes.connected hindex hfree hunused
        refine ⟨rfl, rfl, ?_⟩
        simp only [setConnection, update_idem]
        exact hconnected

theorem handleRequest_follows (hop : header.op = .request)
    (hcid : header.destination.cid = table.guestCid)
    (h : table.handleRequest header = .ok (reply, table')) :
  Follows table (.packet header payload) (.reply reply) table'
  := by
  have hmissed : table.Missed (.packet header payload) := by
    rintro index connection _ _ ⟨hne, _⟩
    exact hne hop
  have hrefused : Follows table (.packet header payload) (.reply (some (header.reply .reset))) table := by
    refine ⟨rfl, rfl, .idle ⟨?_, rfl, nofun⟩ hmissed nofun nofun⟩
    intro answer hanswer
    cases hanswer
    rfl
  simp only [handleRequest] at h
  repeat' split at h
  all_goals cases h
  · exact hrefused
  · exact hrefused
  · exact hrefused
  · rename_i hopen
    rcases openConnection_cases hopen with ⟨_, -, rfl⟩ | ⟨_, _, _, _, ⟨⟩, -⟩
    exact hrefused
  · rename_i slot _ _ listener hlistener _ _ stream _ hopen _
    rcases openConnection_cases hopen with ⟨_, ⟨⟩, -⟩ | ⟨index, hindex, hfree, hunused, ⟨⟩, rfl⟩
    refine ⟨rfl, rfl, ?_⟩
    simp only [setConnection, update_idem]
    exact @Changes.requested table header payload index slot listener hindex hop hcid hfree hunused
      hlistener

theorem handlePacket_follows (hguest : ∀ index connection, index < maxVsockConnections →
      table.connections index = some connection → connection.localAddr.cid = table.guestCid)
    (h : table.handlePacket header payload = .ok (reply, table')) :
  Follows table (.packet header payload) (.reply reply) table'
  := by
  have hreset : ∀ reply, some (header.reply .reset) = some reply → reply.op = .reset := by
    intro reply hreply
    cases hreply
    rfl
  rw [handlePacket] at h
  split at h
  · rename_i hcid
    cases h
    refine ⟨rfl, rfl, .idle ⟨hreset, rfl, nofun⟩ ?_ nofun nofun⟩
    rintro index connection hindex hconnection ⟨_, hdestination, _⟩
    apply hcid
    rw [hdestination]
    exact hguest index connection hindex hconnection
  · rename_i hcid
    rw [not_not] at hcid
    cases hop : header.op with
    | request =>
      rw [hop] at h
      exact handleRequest_follows hop hcid h
    | response | shutdown | data | creditRequest =>
      simp only [hop, Except.ok.injEq] at h
      apply onPacket_follows h (by rw [hop]; nofun) hreset
      intro connection
      simp only [VsockConnection.step, hop]
    | reset | creditUpdate =>
      simp only [hop, Except.ok.injEq] at h
      apply onPacket_follows h (by rw [hop]; nofun) nofun
      intro connection
      simp only [VsockConnection.step, hop]

theorem accept_follows {result : Except VsockError (Option VsockStreamId)}
    (h : table.accept listener = (result, table')) :
  Follows table (.accept listener) (.accepted result) table'
  := by
  rw [accept] at h
  split at h
  · cases h
    exact ⟨rfl, rfl, .idle ⟨nofun, rfl, nofun⟩ (fun _ _ _ _ => id) nofun nofun⟩
  · rename_i bound hlookup
    cases h
    exact ⟨rfl, rfl, .accepted (listener_eq_ok hlookup).1⟩

theorem closeListener_follows {result : Except VsockError Unit}
    (h : table.closeListener listener = (result, table')) :
  Follows table (.closeListener listener) (.unbound result) table'
  := by
  rw [closeListener] at h
  split at h
  · cases h
    exact ⟨rfl, rfl, .idle ⟨nofun, rfl, nofun⟩ (fun _ _ _ _ => id) nofun nofun⟩
  · rename_i bound hlookup
    cases h
    obtain ⟨hbound, hgeneration⟩ := listener_eq_ok hlookup
    exact ⟨rfl, rfl, .unbound hbound hgeneration⟩

theorem close_follows (h : table.close stream = (result, table')) :
  Follows table (.close stream) (.notice result) table'
  := by
  rw [close] at h
  split at h
  · rename_i error hlookup
    cases h
    exact ⟨rfl, rfl, .idle ⟨nofun, rfl, nofun⟩ (fun _ _ _ _ => id) (fun _ _ => ⟨error, rfl⟩) nofun⟩
  · rename_i connection hlookup
    cases h
    obtain ⟨hindex, hconnection, hgeneration⟩ := connection_eq_ok hlookup
    have hclosed := Changes.closed hindex hconnection
    rw [hgeneration] at hclosed
    exact ⟨rfl, rfl, hclosed⟩

theorem step_follows
    (hguest : ∀ index connection, index < maxVsockConnections →
      table.connections index = some connection → connection.localAddr.cid = table.guestCid)
    (h : table.step op = .ok (table', answer)) :
  Follows table op answer table'
  := by
  cases op with
  | listen port backlog =>
    cases h
    exact listen_follows rfl
  | accept listener =>
    cases h
    exact accept_follows rfl
  | closeListener listener =>
    cases h
    exact closeListener_follows rfl
  | connect peer =>
    cases h
    exact connect_follows rfl
  | beginWrite stream len | read stream wanted =>
    cases h
    exact onStream_follows rfl (fun _ => Iff.rfl) (fun _ => rfl) (fun _ => ⟨nofun, rfl, nofun⟩) nofun
      nofun
  | finishWrite stream sent =>
    rw [step, finishWrite] at h
    cases hlookup : table.connection stream with
    | error error =>
      rw [hlookup] at h
      cases h
      refine ⟨rfl, rfl, .idle ⟨nofun, rfl, nofun⟩ ?_ nofun nofun⟩
      exact missed_of_unknown hlookup fun _ => id
    | ok connection =>
      obtain ⟨hindex, hconnection, hgeneration⟩ := connection_eq_ok hlookup
      simp only [hlookup] at h
      split at h
      · cases h
      · rename_i heq
        split at heq <;> cases heq
        cases h
        have hacted := @Changes.acted table (.finishWrite stream sent) stream.index connection
          hindex hconnection (by rw [Op.Targets, VsockConnection.key, hgeneration])
        exact ⟨rfl, rfl, hacted⟩
  | creditRequest stream =>
    cases h
    exact onStream_follows (rfl : table.creditRequest stream = _) (fun _ => Iff.rfl)
      (fun _ => rfl) (fun _ => ⟨nofun, rfl, nofun⟩) nofun nofun
  | shutdown stream directions =>
    cases h
    exact onStream_follows (rfl : table.shutdown stream directions = _) (fun _ => Iff.rfl)
      (fun _ => rfl) (fun _ => ⟨nofun, rfl, nofun⟩) nofun nofun
  | close stream =>
    cases h
    exact close_follows rfl
  | packet header payload =>
    rw [step] at h
    split at h <;> cases h
    rename_i reply table'' hpacket
    exact handlePacket_follows hguest hpacket
  | resetAll =>
    cases h
    exact ⟨rfl, rfl, .reset⟩

end VsockTable

/-! ### Sound tables -/

/-- A step keeps the handle and the addresses; the header of its answer is a reset, or goes from
this end to the peer. -/
theorem VsockConnection.step_keeps (maxPayload : Nat) (connection : VsockConnection) (op : Op)
    (index : Nat) :
  (connection.step maxPayload op).2.key index = connection.key index ∧
    ∀ header, (connection.step maxPayload op).1.header? = some header → header.op = .reset ∨
      (header.source = connection.localAddr ∧ header.destination = connection.peer)
  := by
  cases op with
  | beginWrite | creditRequest | read | shutdown =>
    simp only [step, beginWrite, creditRequest, read, shutdown]
    repeat' split
    all_goals refine ⟨rfl, ?_⟩
    all_goals rintro _ ⟨⟩
    all_goals exact .inr ⟨rfl, rfl⟩
  | packet header payload =>
    rw [step]
    cases header.op with
    | response | shutdown | data =>
      simp only [handleResponse, handleShutdown, handleData]
      repeat' split
      all_goals refine ⟨rfl, ?_⟩
      all_goals rintro _ ⟨⟩
      all_goals exact .inl rfl
    | creditRequest => exact ⟨rfl, fun | _, rfl => .inr ⟨rfl, rfl⟩⟩
    | request | reset | creditUpdate => exact ⟨rfl, nofun⟩
  | listen | accept | closeListener | connect | finishWrite | close | resetAll => exact ⟨rfl, nofun⟩

/-- The connections are in slots of the table and at this machine, and no two have the same
addresses. -/
structure VsockTable.Sound (table : VsockTable) : Prop where
  bound : ∀ index connection, table.connections index = some connection →
    index < maxVsockConnections
  guest : ∀ index connection, table.connections index = some connection →
    connection.localAddr.cid = table.guestCid
  pairs : ∀ index other connection connection', table.connections index = some connection →
    table.connections other = some connection' → connection.localAddr = connection'.localAddr →
    connection.peer = connection'.peer → index = other

namespace VsockTable

variable {answer : Answer} {op : Op}

variable {table table' : VsockTable}

theorem sound_new (guestCid maxPayload : Nat) :
  (VsockTable.new guestCid maxPayload).Sound
  := by
  constructor
  · nofun
  · nofun
  · intro index other connection connection' hconnection
    cases hconnection

theorem Sound.congr (h : table.Sound) (hguest : table'.guestCid = table.guestCid) (hsame : ∀ index
      connection', table'.connections index = some connection' → ∃ connection, table.connections
      index = some connection ∧ connection'.key index = connection.key index) :
  table'.Sound
  := by
  constructor
  · intro index connection' hconnection'
    obtain ⟨connection, hconnection, _⟩ := hsame index connection' hconnection'
    exact h.bound index connection hconnection
  · intro index connection' hconnection'
    obtain ⟨connection, hconnection, hkey⟩ := hsame index connection' hconnection'
    obtain ⟨_, hlocal, _⟩ := ConnectionKey.mk.inj hkey
    rw [hlocal, hguest]
    exact h.guest index connection hconnection
  · intro index other connection' other' hconnection' hother' hlocal hpeer
    obtain ⟨connection, hconnection, hkey⟩ := hsame index connection' hconnection'
    obtain ⟨another, hanother, hkey'⟩ := hsame other other' hother'
    obtain ⟨_, hlocal', hpeer'⟩ := ConnectionKey.mk.inj hkey
    obtain ⟨_, hlocal'', hpeer''⟩ := ConnectionKey.mk.inj hkey'
    apply h.pairs index other connection another hconnection hanother
    · rw [← hlocal', ← hlocal'', hlocal]
    · rw [← hpeer', ← hpeer'', hpeer]

/-- A connection with addresses that none has is put into a slot. -/
theorem Sound.put (h : table.Sound) (hguest : table'.guestCid = table.guestCid) {index : Nat}
    {added : VsockConnection} (hindex : index < maxVsockConnections)
    (hcid : added.localAddr.cid = table.guestCid)
    (hunused : table.Unused added.localAddr added.peer) (hconnections : table'.connections =
      update table.connections index (some added)) :
  table'.Sound
  := by
  have hput : ∀ other connection, table'.connections other = some connection →
      other = index ∧ connection = added ∨
        other ≠ index ∧ table.connections other = some connection := by
    intro other connection hconnection
    rw [hconnections] at hconnection
    exact Updates.put hconnection
  constructor
  · intro other connection hconnection
    rcases hput other connection hconnection with ⟨rfl, _⟩ | ⟨_, hold⟩
    · exact hindex
    · exact h.bound other connection hold
  · intro other connection hconnection
    rw [hguest]
    rcases hput other connection hconnection with ⟨_, rfl⟩ | ⟨_, hold⟩
    · exact hcid
    · exact h.guest other connection hold
  · intro first second connection connection' hfirst hsecond hlocal hpeer
    rcases hput first connection hfirst with ⟨rfl, rfl⟩ | ⟨_, hfirst⟩
    · rcases hput second connection' hsecond with ⟨rfl, _⟩ | ⟨_, hsecond⟩
      · rfl
      · exact absurd ⟨hlocal.symm, hpeer.symm⟩
          (hunused second connection' (h.bound second connection' hsecond) hsecond)
    · rcases hput second connection' hsecond with ⟨rfl, rfl⟩ | ⟨_, hsecond⟩
      · exact absurd ⟨hlocal, hpeer⟩
          (hunused first connection (h.bound first connection hfirst) hfirst)
      · exact h.pairs first second connection connection' hfirst hsecond hlocal hpeer

theorem Follows.sound (h : Follows table op answer table') (hsound : table.Sound) :
  table'.Sound
  := by
  obtain ⟨hguest, _, hchanges⟩ := h
  have hkept : table'.connections = table.connections → table'.Sound := by
    intro hconnections
    apply hsound.congr hguest
    intro index connection hconnection
    rw [hconnections] at hconnection
    exact ⟨connection, hconnection, rfl⟩
  generalize hconnections : table'.connections = connections at hchanges hkept
  generalize table'.listeners = listeners at hchanges
  generalize table'.nextGeneration = generation at hchanges
  cases hchanges with
  | idle | unlistened | listened | accepted | unbound => exact hkept rfl
  | connected hindex hfree hunused => exact hsound.put hguest hindex rfl hunused hconnections
  | requested hindex hrequest hcid hfree hunused hlistener =>
    exact hsound.put hguest hindex hcid hunused hconnections
  | @acted _ index connection hindex hconnection htargets =>
    apply hsound.congr hguest
    intro other connection' hconnection'
    rw [hconnections] at hconnection'
    rcases Updates.put hconnection' with ⟨rfl, rfl⟩ | ⟨_, hconnection'⟩
    · exact ⟨connection, hconnection, (connection.step_keeps _ _ _).1⟩
    · exact ⟨connection', hconnection', rfl⟩
  | @closed index connection hindex hconnection =>
    apply hsound.congr hguest
    intro other connection' hconnection'
    rw [hconnections] at hconnection'
    exact ⟨connection', (Updates.take hconnection').2, rfl⟩
  | reset =>
    apply hsound.congr hguest
    intro other connection' hconnection'
    rw [hconnections] at hconnection'
    obtain ⟨connection, hconnection, rfl⟩ := map_eq_some_iff.mp hconnection'
    exact ⟨connection, hconnection, rfl⟩

/-- A step from a sound table does what it does, and leaves it sound. -/
theorem Sound.step (hsound : table.Sound) (h : table.step op = .ok (table', answer)) :
  Follows table op answer table' ∧ table'.Sound
  := by
  have hfollows := step_follows (fun index connection _ => hsound.guest index connection) h
  exact ⟨hfollows, hfollows.sound hsound⟩

end VsockTable

end Helios.Vsock
