import Mathlib.Algebra.Group.Nat.Defs
import Mathlib.Logic.Function.Basic

/-!
# The vsock table

Every connection and every bound port of the machine.  The table is a fixed number of slots; a
handle names a slot and the generation that the slot was opened in.  A connection carries a
credit count in each direction: how much the peer may send, announced in every header that the
connection builds, and how much the peer has announced in the packets that arrived.
-/

namespace Helios.Vsock

open Function

def vsockReceiveWindowBytes : Nat := 65536
def maxVsockConnections : Nat := 32
def maxVsockListeners : Nat := 4
def maxVsockBacklog : Nat := 8
def ephemeralPortStart : Nat := 0xffff0000
def maxPort : Nat := 0xffffffff

/-! ### Packets -/

structure VsockAddress where
  cid : Nat
  port : Nat
  deriving DecidableEq, Repr

inductive VsockOp where
  | request
  | response
  | reset
  | shutdown
  | data
  | creditUpdate
  | creditRequest
  deriving DecidableEq, Repr

structure VsockShutdown where
  receive : Bool
  send : Bool
  deriving DecidableEq, Repr

namespace VsockShutdown

def none : VsockShutdown := ⟨false, false⟩

def fromFlags (flags : Nat) : VsockShutdown := ⟨flags &&& 1 != 0, flags &&& 2 != 0⟩

def asFlags (shutdown : VsockShutdown) : Nat :=
  (if shutdown.receive then 1 else 0) ||| (if shutdown.send then 2 else 0)

def isFull (shutdown : VsockShutdown) : Bool := shutdown.receive && shutdown.send

def merged (shutdown other : VsockShutdown) : VsockShutdown :=
  ⟨shutdown.receive || other.receive, shutdown.send || other.send⟩

end VsockShutdown

structure VsockPacketHeader where
  source : VsockAddress
  destination : VsockAddress
  op : VsockOp
  flags : Nat
  payloadLen : BitVec 32
  bufAlloc : BitVec 32
  fwdCnt : BitVec 32
  deriving DecidableEq, Repr

/-- The header of an answer that belongs to no connection. -/
def VsockPacketHeader.reply (header : VsockPacketHeader) (op : VsockOp) : VsockPacketHeader :=
  ⟨header.destination, header.source, op, 0, 0, 0, 0⟩

inductive VsockError where
  | portInUse (port : Nat)
  | connectionRefused
  | connectionReset
  | closed
  | connectionTableFull
  | listenerTableFull
  | noEphemeralPort
  | unknownHandle
  deriving DecidableEq, Repr

inductive VsockPanic where
  | chunkTooLarge
  | backlogFull
  deriving DecidableEq, Repr

/-- A handle: the slot and the generation that it was opened in. -/
structure VsockStreamId where
  index : Nat
  generation : Nat
  deriving DecidableEq, Repr

structure VsockListenerId where
  index : Nat
  generation : Nat
  deriving DecidableEq, Repr

/-! ### The receive buffer -/

/-- A ring of bytes.  Its capacity is the window that the connection announces. -/
structure ReceiveRing where
  bytes : Nat → UInt8
  capacity : Nat
  head : Nat
  len : Nat

namespace ReceiveRing

def new (capacity : Nat) : ReceiveRing := ⟨fun _ => 0, capacity, 0, 0⟩

variable (ring : ReceiveRing)

def free : Nat := ring.capacity - ring.len

/-- Writes bytes one after another from a position on. -/
def write (capacity : Nat) : List UInt8 → Nat → (Nat → UInt8) → Nat → UInt8
  | [], _, bytes => bytes
  | byte :: payload, position, bytes =>
    write capacity payload ((position + 1) % capacity) (update bytes position byte)

def push (payload : List UInt8) : ReceiveRing :=
  { ring with
    bytes := write ring.capacity payload ((ring.head + ring.len) % ring.capacity) ring.bytes
    len := ring.len + payload.length }

/-- Copies out at most as many bytes as are wanted. -/
def drain (wanted : Nat) : List UInt8 × ReceiveRing :=
  let count := min wanted ring.len
  ((List.range count).map fun index => ring.bytes ((ring.head + index) % ring.capacity),
    { ring with
      head := (ring.head + count) % ring.capacity
      len := ring.len - count })

end ReceiveRing

/-! ### Connections -/

inductive ConnectionState where
  | connecting
  | established
  | closed (error : VsockError)
  deriving DecidableEq, Repr

structure VsockConnection where
  generation : Nat
  localAddr : VsockAddress
  peer : VsockAddress
  state : ConnectionState
  receive : ReceiveRing
  fwdCnt : BitVec 32
  announcedFwdCnt : BitVec 32
  peerBufAlloc : BitVec 32
  peerFwdCnt : BitVec 32
  txCnt : BitVec 32
  localShutdown : VsockShutdown
  peerShutdown : VsockShutdown
  transmitting : Bool
  creditRequested : Bool

structure VsockWriteChunk where
  header : VsockPacketHeader
  len : Nat
  deriving DecidableEq, Repr

inductive VsockWriteProgress where
  | ready (chunk : VsockWriteChunk)
  | blocked
  deriving DecidableEq, Repr

/-- The bytes that were copied out stand for their number. -/
inductive VsockReadProgress where
  | ready (bytes : List UInt8) (creditUpdate : Option VsockPacketHeader)
  | eof
  | blocked
  deriving DecidableEq, Repr

namespace VsockConnection

variable (connection : VsockConnection)

/-- Credit that the peer has granted and this end has not spent. -/
def peerFree : Nat :=
  connection.peerBufAlloc.toNat - (connection.txCnt - connection.peerFwdCnt).toNat

def absorbPeerCredit (header : VsockPacketHeader) : VsockConnection :=
  { connection with
    peerBufAlloc := header.bufAlloc
    peerFwdCnt := header.fwdCnt
    creditRequested := false }

/-- Builds a header, and notes what it announces. -/
def header (op : VsockOp) : VsockPacketHeader × VsockConnection :=
  (⟨connection.localAddr, connection.peer, op, 0, 0,
      BitVec.ofNat 32 connection.receive.capacity, connection.fwdCnt⟩,
    { connection with announcedFwdCnt := connection.fwdCnt })

def atEof : Bool :=
  connection.receive.len == 0 &&
    (connection.peerShutdown.send || connection.peerShutdown.isFull)

/-- A connection as it is opened. -/
def opened (generation : Nat) (localAddr peer : VsockAddress) (state : ConnectionState) :
    VsockConnection where
  generation := generation
  localAddr := localAddr
  peer := peer
  state := state
  receive := .new vsockReceiveWindowBytes
  fwdCnt := 0
  announcedFwdCnt := 0
  peerBufAlloc := 0
  peerFwdCnt := 0
  txCnt := 0
  localShutdown := .none
  peerShutdown := .none
  transmitting := false
  creditRequested := false

def beginWrite (maxPayload len : Nat) :
    Except VsockError VsockWriteProgress × VsockConnection :=
  match connection.state with
  | .closed error => (.error error, connection)
  | .connecting => (.ok .blocked, connection)
  | .established =>
    if connection.localShutdown.send || connection.peerShutdown.receive then
      (.error .closed, connection)
    else if connection.transmitting then (.ok .blocked, connection)
    else
      let allowed := min (min connection.peerFree maxPayload) len
      if allowed = 0 then (.ok .blocked, connection)
      else
        let (header, connection) := { connection with transmitting := true }.header .data
        (.ok (.ready ⟨{ header with payloadLen := BitVec.ofNat 32 allowed }, allowed⟩), connection)

def finishWrite (sent : Nat) : VsockConnection :=
  { connection with
    transmitting := false
    txCnt := connection.txCnt + BitVec.ofNat 32 sent }

def creditRequest :
    Option VsockPacketHeader × VsockConnection :=
  if connection.state ≠ .established ∨ connection.peerFree ≠ 0 ∨ connection.creditRequested then
    (none, connection)
  else
    let (header, connection) := { connection with creditRequested := true }.header .creditRequest
    (some header, connection)

def read (wanted : Nat) :
    Except VsockError VsockReadProgress × VsockConnection :=
  if connection.localShutdown.receive then (.error .closed, connection)
  else
    let (bytes, receive) := connection.receive.drain wanted
    let connection := { connection with receive }
    if bytes.length = 0 then
      (match connection.state with
        | .closed .closed => .ok .eof
        | .closed error => .error error
        | _ => if connection.atEof then .ok .eof else .ok .blocked, connection)
    else
      let connection :=
        { connection with fwdCnt := connection.fwdCnt + BitVec.ofNat 32 bytes.length }
      let unannounced := connection.fwdCnt - connection.announcedFwdCnt
      if unannounced.toNat ≥ connection.receive.capacity / 2 then
        let (header, connection) := connection.header .creditUpdate
        (.ok (.ready bytes (some header)), connection)
      else (.ok (.ready bytes none), connection)

def shutdown (shutdown : VsockShutdown) :
    Option VsockPacketHeader × VsockConnection :=
  match connection.state with
  | .closed _ => (none, connection)
  | .connecting | .established =>
    let merged := connection.localShutdown.merged shutdown
    if merged = connection.localShutdown then (none, connection)
    else
      let (header, connection) := { connection with localShutdown := merged }.header .shutdown
      (some { header with flags := merged.asFlags }, connection)

def closeReply : Option VsockPacketHeader :=
  match connection.state with
  | .closed _ => none
  | .connecting | .established => some (connection.header .reset).1

variable (header : VsockPacketHeader)

def handleResponse : Option VsockPacketHeader × VsockConnection :=
  let connection := connection.absorbPeerCredit header
  match connection.state with
  | .connecting => (none, { connection with state := .established })
  | .established | .closed _ => (some (header.reply .reset), connection)

def handleReset : VsockConnection :=
  { connection with
    state := match connection.state with
      | .connecting => .closed .connectionRefused
      | _ => .closed .connectionReset }

def handleShutdown : Option VsockPacketHeader × VsockConnection :=
  let connection := connection.absorbPeerCredit header
  let connection := { connection with
    peerShutdown := connection.peerShutdown.merged (.fromFlags header.flags) }
  if connection.peerShutdown.isFull then
    (some (header.reply .reset), { connection with state := .closed .closed })
  else (none, connection)

def handleData (payload : List UInt8) : Option VsockPacketHeader × VsockConnection :=
  let connection := connection.absorbPeerCredit header
  match connection.state with
  | .closed _ => (some (header.reply .reset), connection)
  | .connecting | .established =>
    if payload.length > connection.receive.free then
      (some (header.reply .reset), { connection with state := .closed .connectionReset })
    else (none, { connection with receive := connection.receive.push payload })

def handleCreditRequest : Option VsockPacketHeader × VsockConnection :=
  let (reply, connection) := (connection.absorbPeerCredit header).header .creditUpdate
  (some reply, connection)

end VsockConnection

structure VsockListener where
  generation : Nat
  port : Nat
  backlog : Nat
  queued : List VsockStreamId
  deriving DecidableEq, Repr

/-! ### The table -/

structure VsockTable where
  guestCid : Nat
  maxPayload : Nat
  connections : Nat → Option VsockConnection
  listeners : Nat → Option VsockListener
  nextGeneration : Nat
  nextEphemeralPort : Nat

namespace VsockTable

variable (table : VsockTable)

def new (guestCid maxPayload : Nat) : VsockTable where
  guestCid := guestCid
  maxPayload := maxPayload
  connections := fun _ => none
  listeners := fun _ => none
  nextGeneration := 1
  nextEphemeralPort := ephemeralPortStart

def generationAfter (generation : Nat) : Nat := max ((generation + 1) % 2 ^ 32) 1

def setConnection (index : Nat) (connection : VsockConnection) : VsockTable :=
  { table with connections := update table.connections index (some connection) }

def setListener (index : Nat) (listener : VsockListener) : VsockTable :=
  { table with listeners := update table.listeners index (some listener) }

/-! #### Lookups -/

def connectionIndex (localAddr peer : VsockAddress) : Option Nat :=
  (List.range maxVsockConnections).find? fun index =>
    (table.connections index).any fun connection =>
      connection.localAddr = localAddr ∧ connection.peer = peer

def connection (table : VsockTable) (stream : VsockStreamId) :
    Except VsockError VsockConnection :=
  if stream.index < maxVsockConnections then
    match table.connections stream.index with
    | some connection =>
      if connection.generation = stream.generation then .ok connection else .error .unknownHandle
    | none => .error .unknownHandle
  else .error .unknownHandle

def listener (table : VsockTable) (listener : VsockListenerId) :
    Except VsockError VsockListener :=
  if listener.index < maxVsockListeners then
    match table.listeners listener.index with
    | some bound =>
      if bound.generation = listener.generation then .ok bound else .error .unknownHandle
    | none => .error .unknownHandle
  else .error .unknownHandle

def listenerIndexForPort (port : Nat) : Option Nat :=
  (List.range maxVsockListeners).find? fun index =>
    (table.listeners index).any fun listener => listener.port = port

def portIsBound (port : Nat) : Bool :=
  (table.listenerIndexForPort port).isSome ||
    (List.range maxVsockConnections).any fun index =>
      (table.connections index).any fun connection => connection.localAddr.port = port

def freeConnection : Option Nat :=
  (List.range maxVsockConnections).find? fun index => (table.connections index).isNone

def freeListener : Option Nat :=
  (List.range maxVsockListeners).find? fun index => (table.listeners index).isNone

def tryEphemeralPorts (table : VsockTable) : Nat → Except VsockError Nat × VsockTable
  | 0 => (.error .noEphemeralPort, table)
  | tries + 1 =>
    let port := table.nextEphemeralPort
    let table := { table with
      nextEphemeralPort := if port = maxPort then ephemeralPortStart else port + 1 }
    if !table.portIsBound port then (.ok port, table) else table.tryEphemeralPorts tries

def allocateEphemeralPort : Except VsockError Nat × VsockTable :=
  table.tryEphemeralPorts (maxPort - ephemeralPortStart)

/-! #### Opening -/

def openConnection (localAddr peer : VsockAddress) (state : ConnectionState) :
    Except VsockError VsockStreamId × VsockTable :=
  if (table.connectionIndex localAddr peer).isSome then (.error (.portInUse localAddr.port), table)
  else
    match table.freeConnection with
    | none => (.error .connectionTableFull, table)
    | some index =>
      let generation := table.nextGeneration
      (.ok ⟨index, generation⟩,
        { table with nextGeneration := generationAfter generation }.setConnection index
          (.opened generation localAddr peer state))

def listenOn (port backlog : Nat) :
    Except VsockError VsockListenerId × VsockTable :=
  let generation := table.nextGeneration
  let table := { table with nextGeneration := generationAfter generation }
  match table.freeListener with
  | none => (.error .listenerTableFull, table)
  | some index =>
    (.ok ⟨index, generation⟩,
      table.setListener index ⟨generation, port, min (max backlog 1) maxVsockBacklog, []⟩)

def listen (port backlog : Nat) :
    Except VsockError VsockListenerId × VsockTable :=
  if port = 0 then
    match table.allocateEphemeralPort with
    | (.error error, table) => (.error error, table)
    | (.ok port, table) => table.listenOn port backlog
  else if table.portIsBound port then (.error (.portInUse port), table)
  else table.listenOn port backlog

def accept (listener : VsockListenerId) :
    Except VsockError (Option VsockStreamId) × VsockTable :=
  match table.listener listener with
  | .error error => (.error error, table)
  | .ok bound =>
    (.ok bound.queued.head?,
      table.setListener listener.index { bound with queued := bound.queued.tail })

def closeListener (listener : VsockListenerId) :
    Except VsockError Unit × VsockTable :=
  match table.listener listener with
  | .error error => (.error error, table)
  | .ok _ =>
    (.ok (), { table with listeners := update table.listeners listener.index none })

def connect (peer : VsockAddress) :
    Except VsockError (VsockStreamId × VsockPacketHeader) × VsockTable :=
  match table.allocateEphemeralPort with
  | (.error error, table) => (.error error, table)
  | (.ok port, table) =>
    let generation := table.nextGeneration
    match table.openConnection ⟨table.guestCid, port⟩ peer .connecting with
    | (.error error, table) => (.error error, table)
    | (.ok stream, table) =>
      let (request, connection) :=
        (VsockConnection.opened generation ⟨table.guestCid, port⟩ peer .connecting).header .request
      (.ok (stream, request), table.setConnection stream.index connection)

/-! #### Operations on a connection -/

def onStream {α : Type} (table : VsockTable) (stream : VsockStreamId)
    (act : VsockConnection → Except VsockError α × VsockConnection) :
    Except VsockError α × VsockTable :=
  match table.connection stream with
  | .error error => (.error error, table)
  | .ok connection =>
    let (result, connection) := act connection
    (result, table.setConnection stream.index connection)

section

variable (stream : VsockStreamId)

def beginWrite (len : Nat) : Except VsockError VsockWriteProgress × VsockTable :=
  table.onStream stream fun connection => connection.beginWrite table.maxPayload len

def finishWrite (sent : Nat) : Except VsockPanic VsockTable :=
  match table.connection stream with
  | .error _ => .ok table
  | .ok connection =>
    if sent < 2 ^ 32 then .ok (table.setConnection stream.index (connection.finishWrite sent))
    else .error .chunkTooLarge

def creditRequest : Except VsockError (Option VsockPacketHeader) × VsockTable :=
  table.onStream stream fun connection =>
    let (reply, connection) := connection.creditRequest
    (.ok reply, connection)

def read (wanted : Nat) : Except VsockError VsockReadProgress × VsockTable :=
  table.onStream stream fun connection => connection.read wanted

def shutdown (directions : VsockShutdown) :
    Except VsockError (Option VsockPacketHeader) × VsockTable :=
  table.onStream stream fun connection =>
    let (reply, connection) := connection.shutdown directions
    (.ok reply, connection)

end

def close (stream : VsockStreamId) :
    Except VsockError (Option VsockPacketHeader) × VsockTable :=
  match table.connection stream with
  | .error error => (.error error, table)
  | .ok connection =>
    (.ok connection.closeReply,
      { table with connections := update table.connections stream.index none })

def resetAll : VsockTable :=
  { table with
    connections := fun index => (table.connections index).map fun connection =>
      { connection with state := .closed .connectionReset }
    listeners := fun index => (table.listeners index).map fun listener =>
      { listener with queued := [] } }

/-! #### Arriving packets -/

variable (header : VsockPacketHeader)

def handleRequest : Except VsockPanic (Option VsockPacketHeader × VsockTable) :=
  match table.listenerIndexForPort header.destination.port with
  | none => .ok (some (header.reply .reset), table)
  | some index =>
    match table.listeners index with
    | none => .ok (some (header.reply .reset), table)
    | some listener =>
      if listener.queued.length ≥ listener.backlog then .ok (some (header.reply .reset), table)
      else
        let generation := table.nextGeneration
        match table.openConnection header.destination header.source .established with
        | (.error _, table) => .ok (some (header.reply .reset), table)
        | (.ok stream, table) =>
          let connection := (VsockConnection.opened generation header.destination header.source
            .established).absorbPeerCredit header
          let (response, connection) := connection.header .response
          let table := table.setConnection stream.index connection
          if listener.queued.length < maxVsockBacklog then
            .ok (some response,
              table.setListener index { listener with queued := listener.queued ++ [stream] })
          else .error .backlogFull

def onPacket (whenUnknown : Option VsockPacketHeader)
    (act : VsockConnection → Option VsockPacketHeader × VsockConnection) :
    Option VsockPacketHeader × VsockTable :=
  match table.connectionIndex header.destination header.source with
  | none => (whenUnknown, table)
  | some index =>
    match table.connections index with
    | none => (whenUnknown, table)
    | some connection =>
      let (reply, connection) := act connection
      (reply, table.setConnection index connection)

def handlePacket (payload : List UInt8) :
    Except VsockPanic (Option VsockPacketHeader × VsockTable) :=
  if header.destination.cid ≠ table.guestCid then .ok (some (header.reply .reset), table)
  else
    match header.op with
    | .request => table.handleRequest header
    | .response =>
      .ok (table.onPacket header (some (header.reply .reset)) (·.handleResponse header))
    | .reset => .ok (table.onPacket header none fun connection => (none, connection.handleReset))
    | .shutdown =>
      .ok (table.onPacket header (some (header.reply .reset)) (·.handleShutdown header))
    | .data =>
      .ok (table.onPacket header (some (header.reply .reset)) (·.handleData header payload))
    | .creditUpdate =>
      .ok (table.onPacket header none fun connection => (none, connection.absorbPeerCredit header))
    | .creditRequest =>
      .ok (table.onPacket header (some (header.reply .reset)) (·.handleCreditRequest header))

end VsockTable

end Helios.Vsock
