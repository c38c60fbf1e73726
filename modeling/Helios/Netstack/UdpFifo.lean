import Helios.Netstack.UdpReceive
import Helios.Netstack.UdpSlab

/-!
# The order of the UDP receive queue

The count of each socket is the number of its datagrams in the shared queue, in every
state that is reached.  Taking a datagram by rotation leaves the datagrams that were in
front of it behind all others.  A socket with datagrams on both sides of the one that
was taken then finds its own out of order; as long as no rotation separates the
datagrams of a socket in this way, every socket receives in the order of arrival.
-/

namespace Helios

open Function Transition List Except

def datagramsOf (socket : UdpSocketId) (queue : List UdpQueuedReceive) : List UdpReceive :=
  (queue.filter (·.socket = socket)).map (·.datagram)

section

variable {socket other : UdpSocketId} {queue queue' : List UdpQueuedReceive}
  {queued : UdpQueuedReceive}

@[simp]
theorem datagramsOf_append (socket : UdpSocketId) (a b : List UdpQueuedReceive) :
  datagramsOf socket (a ++ b) = datagramsOf socket a ++ datagramsOf socket b
  := by
  simp [datagramsOf]

theorem datagramsOf_cons_self (h : queued.socket = socket) :
  datagramsOf socket (queued :: queue) = queued.datagram :: datagramsOf socket queue
  := by
  simp [datagramsOf, h]

theorem datagramsOf_cons_ne (h : queued.socket ≠ socket) :
  datagramsOf socket (queued :: queue) = datagramsOf socket queue
  := by
  simp [datagramsOf, h]

theorem datagramsOf_eq_nil :
  datagramsOf socket queue = [] ↔ ∀ x ∈ queue, x.socket ≠ socket
  := by
  simp [datagramsOf]

/-! ### Rotation -/

/-- `queue'` is what a rotation that takes the first datagram of `socket` leaves of
`queue`. -/
inductive Rotated (socket : UdpSocketId) :
    List UdpQueuedReceive → UdpQueuedReceive → List UdpQueuedReceive → Prop where
  | mk {before : List UdpQueuedReceive} {queued : UdpQueuedReceive}
      {after : List UdpQueuedReceive} :
      queued.socket = socket → (∀ x ∈ before, x.socket ≠ socket) →
      Rotated socket (before ++ queued :: after) queued (after ++ before)

theorem exists_rotated (h : datagramsOf socket queue ≠ []) :
  ∃ queued queue', Rotated socket queue queued queue'
  := by
  induction queue with
  | nil => exact absurd rfl h
  | cons x rest ih =>
    by_cases hx : x.socket = socket
    · use x, rest ++ []
      exact @Rotated.mk socket [] x rest hx (by simp)
    · rw [datagramsOf_cons_ne hx] at h
      obtain ⟨queued, queue', hrot⟩ := ih h
      rcases hrot with ⟨hqueued, hbefore⟩
      rename_i before after
      use queued, after ++ (x :: before)
      exact @Rotated.mk socket (x :: before) queued after hqueued (by simpa [hx] using hbefore)

theorem rotateToSocket_eq {before after : List UdpQueuedReceive} {extra : Nat}
    (hqueued : queued.socket = socket) (hbefore : ∀ x ∈ before, x.socket ≠ socket)
    (hbound : (before ++ queued :: after).length ≤ maxUdpRx) :
  rotateToSocket socket (before.length + 1 + extra) (before ++ queued :: after) =
    .ok (queued, after ++ before)
  := by
  induction before generalizing after with
  | nil => simp [rotateToSocket, Nat.add_comm 1, hqueued]
  | cons x rest ih =>
    have hx : x.socket ≠ socket := hbefore x (by simp)
    have hroom : (rest ++ queued :: after).length < maxUdpRx := by
      simp only [length_append, length_cons] at hbound ⊢
      omega
    have hih := @ih (after ++ [x]) (fun y hy => hbefore y (by simp [hy])) (by
      simp only [length_append, length_cons, length_nil] at hbound ⊢
      omega)
    rw [show (x :: rest).length + 1 + extra = rest.length + 1 + extra + 1 by
      simp only [length_cons]; omega]
    simp only [cons_append, rotateToSocket, hx, pushBack, hroom]
    simpa using hih

namespace Rotated

section

variable (h : Rotated socket queue queued queue')
include h

theorem rotateToSocket (hbound : queue.length ≤ maxUdpRx) :
  rotateToSocket socket queue.length queue = .ok (queued, queue')
  := by
  rcases h with ⟨hqueued, hbefore⟩
  rename_i before after
  rw [show (before ++ queued :: after).length = before.length + 1 + after.length by
    simp only [length_append, length_cons]; omega]
  exact rotateToSocket_eq hqueued hbefore hbound

theorem length_eq :
  queue.length = queue'.length + 1
  := by
  rcases h with ⟨-, -⟩
  simp only [length_append, length_cons]
  omega

theorem mem {x : UdpQueuedReceive} (hx : x ∈ queue') :
  x ∈ queue
  := by
  rcases h with ⟨-, -⟩
  simp only [mem_append] at hx ⊢
  tauto

theorem datagramsOf_self :
  datagramsOf socket queue = queued.datagram :: datagramsOf socket queue'
  := by
  rcases h with ⟨hqueued, hbefore⟩
  rw [datagramsOf_append, datagramsOf_append, datagramsOf_eq_nil.mpr hbefore,
    datagramsOf_cons_self hqueued]
  simp

theorem length_datagramsOf_ne (hne : other ≠ socket) :
  (datagramsOf other queue').length = (datagramsOf other queue).length
  := by
  rcases h with ⟨hqueued, -⟩
  rw [datagramsOf_append, datagramsOf_append, datagramsOf_cons_ne (by rw [hqueued]; exact hne.symm)]
  simp only [length_append]
  omega

end

end Rotated

/-- No other socket has datagrams both before and after the first datagram of `socket`. -/
def KeepsOrder (queue : List UdpQueuedReceive) (socket : UdpSocketId) : Prop :=
  ∀ x ∈ queue.takeWhile (·.socket ≠ socket), ∀ y ∈ queue.dropWhile (·.socket ≠ socket),
    x.socket ≠ y.socket

instance (queue : List UdpQueuedReceive) (socket : UdpSocketId) :
    Decidable (KeepsOrder queue socket) :=
  inferInstanceAs (Decidable (∀ x ∈ _, ∀ y ∈ _, _))

/-- A rotation that separates no socket's datagrams keeps the order of every socket. -/
theorem Rotated.datagramsOf_ne (h : Rotated socket queue queued queue')
    (hkeeps : KeepsOrder queue socket) (hne : other ≠ socket) :
  datagramsOf other queue' = datagramsOf other queue
  := by
  rcases h with ⟨hqueued, hbefore⟩
  rename_i before after
  have htake : (before ++ queued :: after).takeWhile (·.socket ≠ socket) = before := by
    rw [takeWhile_append_of_pos (by simpa using hbefore)]
    simp [hqueued]
  have hdrop : (before ++ queued :: after).dropWhile (·.socket ≠ socket) = queued :: after := by
    rw [dropWhile_append_of_pos (by simpa using hbefore)]
    simp [hqueued]
  rw [KeepsOrder, htake, hdrop] at hkeeps
  rw [datagramsOf_append, datagramsOf_append, datagramsOf_cons_ne (by rw [hqueued]; exact hne.symm)]
  -- on one side of the datagram there is none of the other socket
  by_cases hnone : datagramsOf other before = []
  · simp [hnone]
  · obtain ⟨x, hx, hsocket⟩ : ∃ x ∈ before, x.socket = other := by
      simpa [datagramsOf_eq_nil] using hnone
    have hafter : datagramsOf other after = [] := by
      rw [datagramsOf_eq_nil]
      intro y hy
      have := hkeeps x hx y (by simp [hy])
      rw [hsocket] at this
      exact this.symm
    simp [hafter]

/-! ### Pruning -/

theorem pruneSocket_eq {kept : List UdpQueuedReceive} {count : Nat}
    (hbound : queue.length + kept.length ≤ maxUdpRx)
    (hcount : (datagramsOf socket queue).length ≤ count) :
  pruneSocket socket queue.length (queue ++ kept) count =
    .ok (kept ++ queue.filter (·.socket ≠ socket), count - (datagramsOf socket queue).length)
  := by
  induction queue generalizing kept count with
  | nil => simp [pruneSocket, datagramsOf]
  | cons x rest ih =>
    simp only [length_cons] at hbound
    by_cases hx : x.socket = socket
    · rw [datagramsOf_cons_self hx] at hcount ⊢
      simp only [length_cons] at hcount
      have hih := @ih kept (count - 1) (by omega) (by omega)
      simp only [cons_append, length_cons, pruneSocket, hx, if_true, hih,
        if_neg (show count ≠ 0 by omega)]
      simp only [decide_not, hx, decide_true, Bool.not_true, Bool.false_eq_true, not_false_eq_true,
        filter_cons_of_neg]
      congr 2
      omega
    · rw [datagramsOf_cons_ne hx] at hcount ⊢
      have hbound' : rest.length + (kept ++ [x]).length ≤ maxUdpRx := by
        simp only [length_append, length_singleton]
        omega
      have hih := ih hbound' hcount
      have hroom : (rest ++ kept).length < maxUdpRx := by
        simp only [length_append]
        omega
      simp only [cons_append, length_cons, pruneSocket, pushBack, hroom, if_true]
      rw [append_assoc, hih]
      simp [hx]

theorem datagramsOf_filter_self :
  datagramsOf socket (queue.filter (·.socket ≠ socket)) = []
  := by
  simp [datagramsOf_eq_nil]

theorem datagramsOf_filter_ne (hne : other ≠ socket) :
  datagramsOf other (queue.filter (·.socket ≠ socket)) = datagramsOf other queue
  := by
  unfold datagramsOf
  rw [filter_filter]
  congr 1
  apply filter_congr
  intro x _
  by_cases hx : x.socket = other
  · simp [hx, hne]
  · simp [hx]

end

/-! ### Operations -/

namespace UdpStack

variable (self : UdpStack)

variable {allowed : UdpStack → Op → Prop}

variable {udp : UdpSocketSlab} {out : Output}

/-- The invariant of the UDP part of the stack. -/
structure Wf (stack : UdpStack) : Prop where
  slab : stack.udp.Wf
  counts : ∀ socket, stack.udpRxCounts (udpSocketIndex socket) =
    (datagramsOf socket stack.udpRx).length
  bound : stack.udpRx.length ≤ maxUdpRx
  known : ∀ x ∈ stack.udpRx, (stack.udp.get (udpSocketIndex x.socket)).isSome

theorem wf_new : UdpStack.new.Wf where
  slab := UdpSocketSlab.wf_new
  counts := fun _ => rfl
  bound := Nat.zero_le _
  known := by simp [new]

/-- The stack after a datagram of `socket` was taken out of the queue. -/
def tookOne (socket : UdpSocketId) (udpRx : List UdpQueuedReceive) : UdpStack :=
  { self with
    udpRx
    udpRxCounts := update self.udpRxCounts (udpSocketIndex socket)
      (self.udpRxCounts (udpSocketIndex socket) - 1) }

/-- The stack after a datagram of `socket` was appended to the queue. -/
def appended (socket : UdpSocketId) (datagram : UdpReceive) : UdpStack :=
  { self with
    udpRx := self.udpRx ++ [{ socket, datagram }]
    udpRxCounts := update self.udpRxCounts (udpSocketIndex socket)
      (self.udpRxCounts (udpSocketIndex socket) + 1) }

/-- The stack after the datagrams of `socket` were dropped. -/
def pruned (socket : UdpSocketId) : UdpStack :=
  { self with
    udpRx := self.udpRx.filter (·.socket ≠ socket)
    udpRxCounts := update self.udpRxCounts (udpSocketIndex socket) 0 }

section

variable {self self' : UdpStack} {socket other : UdpSocketId} {datagram : UdpReceive}
  {queued : UdpQueuedReceive} {queue' : List UdpQueuedReceive}

section

variable (hwf : self.Wf)

include hwf

omit hwf in
theorem update_index_ne {counts : Nat → Nat} {count : Nat} (hne : other ≠ socket) :
  update counts (udpSocketIndex socket) count (udpSocketIndex other) =
    counts (udpSocketIndex other)
  := update_of_ne (mt udpSocketIndex_inj.mp hne) _ _

theorem Wf.tookOne (hrot : Rotated socket self.udpRx queued queue') :
  (self.tookOne socket queue').Wf
  := by
  constructor
  · exact hwf.slab
  · intro other
    rcases eq_or_ne other socket with rfl | hne
    · have hlength := congrArg length hrot.datagramsOf_self
      simp only [length_cons] at hlength
      simp only [UdpStack.tookOne, update_self, hwf.counts]
      omega
    · simp only [UdpStack.tookOne, update_index_ne hne, hwf.counts, hrot.length_datagramsOf_ne hne]
  · have := hrot.length_eq
    have := hwf.bound
    simp only [UdpStack.tookOne]
    omega
  · intro x hx
    exact hwf.known x (hrot.mem hx)

theorem Wf.appended (hroom : self.udpRx.length < maxUdpRx)
    (hknown : (self.udp.get (udpSocketIndex socket)).isSome) :
  (self.appended socket datagram).Wf
  := by
  constructor
  · exact hwf.slab
  · intro other
    simp only [UdpStack.appended, datagramsOf_append]
    rcases eq_or_ne other socket with rfl | hne
    · rw [hwf.counts]
      simp [datagramsOf]
    · rw [update_index_ne hne, hwf.counts, datagramsOf_cons_ne hne.symm]
      simp [datagramsOf]
  · simp only [UdpStack.appended, length_append, length_singleton]
    omega
  · intro x hx
    simp only [UdpStack.appended, mem_append, mem_singleton] at hx
    rcases hx with hx | rfl
    · exact hwf.known x hx
    · exact hknown

theorem Wf.pruned :
  (self.pruned socket).Wf
  := by
  constructor
  · exact hwf.slab
  · intro other
    simp only [UdpStack.pruned]
    rcases eq_or_ne other socket with rfl | hne
    · rw [update_self, datagramsOf_filter_self]
      rfl
    · rw [update_index_ne hne, hwf.counts, datagramsOf_filter_ne hne]
  · exact (length_filter_le _ _).trans hwf.bound
  · intro x hx
    exact hwf.known x (mem_of_mem_filter hx)

/-- Taking a datagram by rotation never aborts when the socket has one. -/
theorem Wf.takeByRotation_eq (h : datagramsOf socket self.udpRx ≠ []) :
  ∃ queued queue', Rotated socket self.udpRx queued queue' ∧
    self.takeByRotation socket = .ok (self.tookOne socket queue', queued.datagram)
  := by
  obtain ⟨queued, queue', hrot⟩ := exists_rotated h
  use queued, queue', hrot
  have hcount : self.udpRxCounts (udpSocketIndex socket) ≠ 0 := by
    rw [hwf.counts]
    simpa using h
  simp only [takeByRotation, hrot.rotateToSocket hwf.bound, countDown, if_neg hcount]
  rfl

/-- A socket that is asked for a datagram has none, or its first one is taken. -/
theorem Wf.takeUdp_eq {result : Except StackError (Option UdpReceive)}
    (h : self.takeUdp socket = .ok (self', result)) :
  (self' = self ∧ ∀ d, result ≠ .ok (some d)) ∨
    ∃ queued queue', Rotated socket self.udpRx queued queue' ∧
      self' = self.tookOne socket queue' ∧ result = .ok (some queued.datagram)
  := by
  simp only [takeUdp] at h
  split at h
  case h_2 =>
    cases h
    exact .inl ⟨rfl, nofun⟩
  split_ifs at h with hcount
  · cases h
    exact .inl ⟨rfl, nofun⟩
  right
  have hsome : datagramsOf socket self.udpRx ≠ [] := by
    rw [hwf.counts] at hcount
    simpa using hcount
  obtain ⟨queued, queue', hrot, hok⟩ := hwf.takeByRotation_eq hsome
  rw [hok] at h
  split at h
  · rename_i x rest hqueue
    split_ifs at h with hx
    · -- the datagram at the front needs no rotation
      simp only [countDown, if_neg hcount] at h
      cases h
      refine ⟨x, rest, ?_, rfl, rfl⟩
      rw [hqueue]
      simpa using @Rotated.mk socket [] x rest hx (by simp)
    · cases h
      exact ⟨queued, queue', hrot, rfl, rfl⟩
  · cases h
    exact ⟨queued, queue', hrot, rfl, rfl⟩

end

theorem maxByKey_mem {α : Type} {key : α → Nat} {xs : List α} {x : α}
    (h : maxByKey key xs = some x) :
  x ∈ xs
  := by
  -- the fold keeps one of the elements it has seen
  revert h
  apply foldlRecOn (motive := fun best => best = some x → x ∈ xs) xs _ (by nofun)
  intro best ih y hy hbest
  split at hbest
  · cases hbest
    exact hy
  · split_ifs at hbest
    · exact ih hbest
    · cases hbest
      exact hy

theorem Wf.victim_datagrams (hwf : self.Wf) {victim : UdpSocketId}
    (h : self.evictionVictim socket = some victim) :
  datagramsOf victim self.udpRx ≠ []
  := by
  have hcount : self.fairShare < self.udpRxCounts (udpSocketIndex victim) := by
    unfold evictionVictim at h
    split at h
    · cases h
      assumption
    · obtain ⟨index, hindex, rfl⟩ := Option.map_eq_some_iff.mp h
      have := (mem_filter.mp (maxByKey_mem hindex)).2
      simpa using this
  rw [hwf.counts] at hcount
  intro hnil
  simp [hnil] at hcount

/-- A datagram that arrives is dropped, or appended, possibly after another was evicted. -/
theorem Wf.queueUdpReceive_eq (hwf : self.Wf)
    (h : self.queueUdpReceive socket datagram = .ok self') :
  self' = self ∨
    (self.udpRx.length < maxUdpRx ∧ self' = self.appended socket datagram) ∨
    ∃ victim queued queue', self.udpRx.length = maxUdpRx ∧
      self.evictionVictim socket = some victim ∧ Rotated victim self.udpRx queued queue' ∧
      self' = (self.tookOne victim queue').appended socket datagram
  := by
  have happend : ∀ {stack stack' : UdpStack}, stack.appendUdpReceive socket datagram = .ok stack' →
      stack' = stack.appended socket datagram := by
    intro stack stack' h
    obtain ⟨queue, hpush, h⟩ := bind_eq_ok h
    rw [pushBack] at hpush
    split_ifs at hpush h
    · cases h
    · cases hpush
      exact (ok.inj h).symm
  unfold queueUdpReceive at h
  split at h
  · rename_i hfull
    obtain ⟨evicted, hevicted, h⟩ := bind_eq_ok h
    unfold evictUdpReceiveFor at hevicted
    split at hevicted
    · cases hevicted
      left
      exact (ok.inj h).symm
    · rename_i victim hvictim
      obtain ⟨queued, queue', hrot, hok⟩ := hwf.takeByRotation_eq (hwf.victim_datagrams hvictim)
      rw [hok] at hevicted
      cases hevicted
      right
      right
      exact ⟨victim, queued, queue', hfull, hvictim, hrot, happend h⟩
  · have := hwf.bound
    right
    left
    exact ⟨by omega, happend h⟩

/-- Clearing the datagrams of a socket: the socket is unknown, or they are dropped. -/
theorem Wf.clearUdpReceiveQueue_eq (hwf : self.Wf) {result : Except StackError Unit}
    (h : self.clearUdpReceiveQueue socket = .ok (self', result)) :
  (self' = self ∧ ∃ error, result = .error error) ∨
    (self' = self.pruned socket ∧ result = .ok ())
  := by
  simp only [clearUdpReceiveQueue] at h
  split at h
  case h_2 =>
    cases h
    exact .inl ⟨rfl, _, rfl⟩
  have hprune := @pruneSocket_eq socket self.udpRx [] (self.udpRxCounts (udpSocketIndex socket))
    (by simpa using hwf.bound) (by rw [hwf.counts])
  rw [append_nil, hwf.counts, Nat.sub_self] at hprune
  rw [hwf.counts, hprune] at h
  cases h
  exact .inr ⟨rfl, rfl⟩

theorem socketForPacket_isSome (hwf : udp.Wf) {source destination : IpAddress}
    {sourcePort destinationPort : UInt16} (h : udp.socketForPacket source sourcePort destination
      destinationPort = .ok (some socket)) :
  (udp.get (udpSocketIndex socket)).isSome
  := by
  have hfind : ∀ {slots : List Nat} {index : Nat},
      udp.findAccepting source sourcePort destination slots = .ok (some index) →
      (udp.get index).isSome := by
    intro slots index h
    induction slots with
    | nil => cases h
    | cons i rest ih =>
      rw [UdpSocketSlab.findAccepting] at h
      repeat' split at h
      · cases h
      · cases h
        simp [*]
      · exact ih h
  rw [UdpSocketSlab.socketForPacket] at h
  split at h
  · rename_i index hindex
    cases h
    obtain ⟨key, -, hlookup⟩ := exists_of_findSome?_eq_some hindex
    obtain ⟨state, hstate, -⟩ :=
      (hwf.index_holds key index).mp ((OpenAddressing.lookup_eq_some hwf.index_sound).mp hlookup)
    simp [hstate]
  · obtain ⟨found, hfound, h⟩ := bind_eq_ok h
    obtain ⟨index, rfl, rfl⟩ := Option.map_eq_some_iff.mp (ok.inj h)
    exact hfind hfound

end
/-! ### Every step keeps the counts -/

theorem Wf.of_slab {self : UdpStack} (hwf : self.Wf) (hudp : udp.Wf)
    (hknown : ∀ i, (self.udp.get i).isSome → (udp.get i).isSome) :
  Wf { self with udp }
  := by
  refine { hwf with slab := ?_, known := ?_ }
  · exact hudp
  · exact fun x hx => hknown _ (hwf.known x hx)

theorem isSome_update {udp' : UdpSocketSlab} {index i : Nat} {state : UdpSocketState}
    (h : udp'.sockets = update udp.sockets index (some state)) (hi : (udp.get i).isSome) :
  (udp'.get i).isSome
  := by
  rw [UdpSocketSlab.get_update h]
  split
  · rfl
  · exact hi

section

variable {result : Except StackError Unit} {binding : UdpSocketBinding} {datagram : UdpReceive}
  {self self' : UdpStack} {socket : UdpSocketId} (hwf : self.Wf)

include hwf

theorem Wf.openUdp_eq {result : Except StackError UdpSocketId}
    (h : self.openUdp binding = .ok (self', result)) :
  self'.Wf ∧ self'.udpRx = self.udpRx ∧
    ∀ socket, result = .ok socket → datagramsOf socket self.udpRx = []
  := by
  obtain ⟨inserted, hinserted, heq⟩ := bind_eq_ok h
  cases heq
  rcases hwf.slab.insert_eq hinserted with ⟨hsame, herror⟩ | ⟨index, hresult, hnone, hslab, hsockets⟩
  · rw [hsame, herror]
    exact ⟨hwf, rfl, by simp⟩
  · constructor
    · exact hwf.of_slab hslab fun i => isSome_update hsockets
    constructor
    · rfl
    intro socket hsocket
    rw [hresult, ok.injEq] at hsocket
    subst hsocket
    rw [datagramsOf_eq_nil]
    rintro x hx hsocket
    have := hwf.known x hx
    simp [hsocket, hnone] at this

theorem Wf.rebindUdp_eq (h : self.rebindUdp socket binding = .ok (self', result)) :
  self'.Wf ∧ (self'.udpRx = self.udpRx ∨ self'.udpRx = self.udpRx.filter (·.socket ≠ socket))
  := by
  obtain ⟨⟨udp, outcome⟩, hrebound, h⟩ := bind_eq_ok h
  have hwf' : Wf { self with udp } := by
    rcases hwf.slab.rebind_eq hrebound with rfl | ⟨state, hslab, hsockets⟩
    · exact hwf
    · exact hwf.of_slab hslab fun i => isSome_update hsockets
  dsimp only at h
  split at h
  · cases h
    exact ⟨hwf', .inl rfl⟩
  · rcases hwf'.clearUdpReceiveQueue_eq h with ⟨rfl, -⟩ | ⟨rfl, -⟩
    · exact ⟨hwf', .inl rfl⟩
    · exact ⟨hwf'.pruned, .inr rfl⟩

theorem Wf.removeUdpSocket_eq (h : self.removeUdpSocket socket = .ok (self', result)) :
  self'.Wf ∧ (self'.udpRx = self.udpRx ∨ self'.udpRx = self.udpRx.filter (·.socket ≠ socket))
  := by
  obtain ⟨⟨stack, outcome⟩, hcleared, h⟩ := bind_eq_ok h
  rcases hwf.clearUdpReceiveQueue_eq hcleared with ⟨rfl, error, rfl⟩ | ⟨rfl, rfl⟩
  · cases h
    exact ⟨hwf, .inl rfl⟩
  · obtain ⟨⟨udp, removed⟩, hremoved, h⟩ := bind_eq_ok h
    have hpruned : (self.pruned socket).Wf := hwf.pruned
    have hwf' : Wf { self.pruned socket with udp } := by
      rcases hwf.slab.remove_eq hremoved with rfl | ⟨hslab, hsockets⟩
      · exact hpruned
      · refine { hpruned with slab := ?_, known := ?_ }
        · exact hslab
        · intro x hx
          -- the removed socket has no datagram left
          have hne : udpSocketIndex x.socket ≠ udpSocketIndex socket := by
            rw [ne_eq, udpSocketIndex_inj]
            simpa using (mem_filter.mp hx).2
          rw [UdpSocketSlab.get_update hsockets, if_neg hne]
          exact hwf.known x (mem_of_mem_filter hx)
    dsimp only at h
    split at h <;> cases h <;> exact ⟨hwf', .inr rfl⟩

theorem Wf.receiveUdp_eq {accepted : Bool} (h : self.receiveUdp datagram = .ok (self', accepted)) :
  (self.udp.socketForPacket datagram.source datagram.sourcePort datagram.destination
      datagram.destinationPort = .ok none ∧ self' = self) ∨
    ∃ socket, self.udp.socketForPacket datagram.source datagram.sourcePort datagram.destination
        datagram.destinationPort = .ok (some socket) ∧
      (self.udp.get (udpSocketIndex socket)).isSome ∧
      self.queueUdpReceive socket datagram = .ok self'
  := by
  obtain ⟨found, hfound, h⟩ := bind_eq_ok h
  split at h
  · cases h
    exact .inl ⟨hfound, rfl⟩
  · rename_i socket
    obtain ⟨stack, hqueued, heq⟩ := bind_eq_ok h
    cases heq
    exact .inr ⟨socket, hfound, socketForPacket_isSome hwf.slab hfound, hqueued⟩

theorem Wf.queueUdpReceive_wf (hknown : (self.udp.get (udpSocketIndex socket)).isSome)
    (h : self.queueUdpReceive socket datagram = .ok self') :
  self'.Wf
  := by
  rcases hwf.queueUdpReceive_eq h with rfl | ⟨hroom, rfl⟩ | ⟨victim, queued, queue', hfull, -, hrot, rfl⟩
  · exact hwf
  · exact hwf.appended hroom hknown
  · apply (hwf.tookOne hrot).appended
    · have := hrot.length_eq
      simp only [UdpStack.tookOne]
      omega
    · exact hknown

end

/-! ### Runs -/

/-- What arrived for each socket since it was opened and what it has been given. -/
structure History where
  arrived : UdpSocketId → List UdpReceive
  returned : UdpSocketId → List UdpReceive

def History.empty : History where
  arrived := fun _ => []
  returned := fun _ => []

/-- The history after a step: a newly opened socket starts afresh, a datagram that finds
a socket has arrived there, whether or not there is room for it. -/
def observe (history : History) (self : UdpStack) (op : Op) (out : Output) : History :=
  match op with
  | .openUdp _ =>
    match out with
    | .opened (.ok socket) =>
      { arrived := update history.arrived socket []
        returned := update history.returned socket [] }
    | _ => history
  | .receiveUdp datagram =>
    match self.udp.socketForPacket datagram.source datagram.sourcePort datagram.destination
        datagram.destinationPort with
    | .ok (some socket) =>
      { history with
        arrived := update history.arrived socket (history.arrived socket ++ [datagram]) }
    | .ok none => history
    | .error _ => history
  | .takeUdp socket =>
    match out with
    | .taken (.ok (some datagram)) =>
      { history with
        returned := update history.returned socket
          (history.returned socket ++ [datagram]) }
    | _ => history
  | .rebindUdp _ _ | .removeUdpSocket _ | .takeUdpError _ => history

/-- The socket whose first datagram the operation looks for by rotation. -/
def rotationTarget : Op → Option UdpSocketId
  | .takeUdp socket => some socket
  | .receiveUdp datagram =>
    if self.udpRx.length = maxUdpRx then
      match self.udp.socketForPacket datagram.source datagram.sourcePort datagram.destination
          datagram.destinationPort with
      | .ok (some socket) => self.evictionVictim socket
      | .ok none => none
      | .error _ => none
    else
      none
  | _ => none

/-- The rotation that the operation makes separates no socket's datagrams. -/
def RotatesInOrder (op : Op) : Prop :=
  ∀ socket ∈ self.rotationTarget op, KeepsOrder self.udpRx socket

instance (self : UdpStack) (op : Op) : Decidable (self.RotatesInOrder op) :=
  inferInstanceAs (Decidable (∀ socket ∈ self.rotationTarget op, KeepsOrder self.udpRx socket))

/-- What a socket has been given and what waits for it arrived in this order. -/
def InOrder (history : History) : Prop :=
  ∀ socket, (history.returned socket ++ datagramsOf socket self.udpRx).Sublist
    (history.arrived socket)

section

variable {self self' : UdpStack} {history : History} {socket : UdpSocketId}

section

variable {datagram : UdpReceive} {queue' : List UdpQueuedReceive} {queued : UdpQueuedReceive}
  (h : self.InOrder history)
include h

theorem InOrder.of_sublist
    (hsub : ∀ socket, (datagramsOf socket self'.udpRx).Sublist (datagramsOf socket self.udpRx)) :
  self'.InOrder history
  := fun socket => ((Sublist.refl _).append (hsub socket)).trans (h socket)

theorem InOrder.of_filter
    (hqueue : self'.udpRx = self.udpRx ∨ self'.udpRx = self.udpRx.filter (·.socket ≠ socket)) :
  self'.InOrder history
  := by
  apply h.of_sublist
  intro other
  rcases hqueue with hqueue | hqueue
  · rw [hqueue]
  · rw [hqueue]
    exact (filter_sublist.filter _).map _

theorem InOrder.opened (hnone : datagramsOf socket self.udpRx = []) :
  self.InOrder {
    arrived := update history.arrived socket []
    returned := update history.returned socket [] }
  := by
  intro other
  rcases eq_or_ne other socket with rfl | hne
  · simp [hnone]
  · simp only [update_of_ne hne]
    exact h other

/-- A datagram that arrives goes behind those that wait. -/
theorem InOrder.appended :
  (self.appended socket datagram).InOrder { history with
    arrived := update history.arrived socket (history.arrived socket ++ [datagram]) }
  := by
  intro other
  simp only [UdpStack.appended, datagramsOf_append, ← append_assoc]
  rcases eq_or_ne other socket with rfl | hne
  · rw [update_self]
    exact (h other).append (by simp [datagramsOf])
  · rw [update_of_ne hne, datagramsOf_cons_ne hne.symm]
    simpa [datagramsOf] using h other

/-- A datagram that arrives and is dropped. -/
theorem InOrder.arrived :
  self.InOrder { history with
    arrived := update history.arrived socket (history.arrived socket ++ [datagram]) }
  := by
  intro other
  rcases eq_or_ne other socket with rfl | hne
  · simp only [update_self]
    exact (h other).trans (sublist_append_left _ _)
  · simp only [update_of_ne hne]
    exact h other

variable (hrot : Rotated socket self.udpRx queued queue') (hkeeps : KeepsOrder self.udpRx socket)

include hrot hkeeps

theorem InOrder.evicted :
  (self.tookOne socket queue').InOrder history
  := by
  apply h.of_sublist
  intro other
  rcases eq_or_ne other socket with rfl | hne
  · rw [hrot.datagramsOf_self]
    exact sublist_cons_self _ _
  · exact (hrot.datagramsOf_ne hkeeps hne) ▸ Sublist.refl _

theorem InOrder.taken :
  (self.tookOne socket queue').InOrder { history with
    returned := update history.returned socket
      (history.returned socket ++ [queued.datagram]) }
  := by
  intro other
  rcases eq_or_ne other socket with rfl | hne
  · have hbefore := h other
    rw [hrot.datagramsOf_self] at hbefore
    simpa [UdpStack.tookOne] using hbefore
  · simp only [UdpStack.tookOne, update_of_ne hne, hrot.datagramsOf_ne hkeeps hne]
    exact h other

end

theorem step_keeps {op : Op} (hwf : self.Wf) (h : self.step op = .ok (self', out)) :
  self'.Wf ∧ (self.InOrder history → self.RotatesInOrder op →
    self'.InOrder (observe history self op out))
  := by
  cases op with
  | openUdp binding =>
    obtain ⟨⟨stack, result⟩, hok, heq⟩ := map_eq_ok h
    cases heq
    obtain ⟨hwf', hqueue, hfresh⟩ := hwf.openUdp_eq hok
    refine ⟨hwf', fun horder _ => ?_⟩
    have hsame : self'.InOrder history := by
      apply horder.of_sublist
      intro socket
      rw [hqueue]
    rcases result with error | socket
    · exact hsame
    · apply hsame.opened
      rw [hqueue]
      exact hfresh socket rfl
  | rebindUdp socket binding =>
    obtain ⟨⟨stack, result⟩, hok, heq⟩ := map_eq_ok h
    cases heq
    exact (hwf.rebindUdp_eq hok).imp_right fun hqueue horder _ => horder.of_filter hqueue
  | removeUdpSocket socket =>
    obtain ⟨⟨stack, result⟩, hok, heq⟩ := map_eq_ok h
    cases heq
    exact (hwf.removeUdpSocket_eq hok).imp_right fun hqueue horder _ => horder.of_filter hqueue
  | receiveUdp datagram =>
    obtain ⟨⟨stack, accepted⟩, hok, heq⟩ := map_eq_ok h
    cases heq
    rcases hwf.receiveUdp_eq hok with ⟨hnone, rfl⟩ | ⟨socket, hsocket, hknown, hqueued⟩
    · simp only [observe, hnone]
      exact ⟨hwf, fun horder _ => horder⟩
    · simp only [observe, hsocket]
      refine ⟨hwf.queueUdpReceive_wf hknown hqueued, fun horder hallowed => ?_⟩
      rcases hwf.queueUdpReceive_eq hqueued with
        rfl | ⟨-, rfl⟩ | ⟨victim, queued, queue', hfull, hvictim, hrot, rfl⟩
      · exact horder.arrived
      · exact horder.appended
      · have hkeeps : KeepsOrder self.udpRx victim := by
          apply hallowed
          simp [rotationTarget, hfull, hsocket, hvictim]
        exact (horder.evicted hrot hkeeps).appended
  | takeUdp socket =>
    obtain ⟨⟨stack, result⟩, hok, heq⟩ := map_eq_ok h
    cases heq
    rcases hwf.takeUdp_eq hok with ⟨rfl, hnone⟩ | ⟨queued, queue', hrot, rfl, rfl⟩
    · refine ⟨hwf, fun horder _ => ?_⟩
      rcases result with error | _ | datagram
      · exact horder
      · exact horder
      · exact absurd rfl (hnone datagram)
    · exact ⟨hwf.tookOne hrot, fun horder hallowed => horder.taken hrot (hallowed socket rfl)⟩
  | takeUdpError socket =>
    cases h
    obtain ⟨hslab, hsome⟩ := hwf.slab.takePendingError socket
    exact ⟨hwf.of_slab hslab fun i hi => (hsome i).trans hi, fun horder _ => horder⟩

end

/-- The states reached by the UDP part of the stack, with their histories. -/
abbrev Reaches (allowed : UdpStack → Op → Prop) : UdpStack × History → Prop :=
  Reachable (instrument step observe) (· = (UdpStack.new, History.empty))
    fun state op => allowed state.1 op

variable {state : UdpStack × History}

theorem wf_of_reaches (h : Reaches allowed state) :
  state.1.Wf
  := by
  apply Reachable.invariant _ _ h
  · rintro _ rfl
    exact wf_new
  · rintro ⟨s, hs⟩ op ⟨s', hs'⟩ out hwf - hstep
    exact (@step_keeps _ s s' hs op hwf (instrument_eq_ok hstep).1).1

theorem inOrder_of_reaches (h : Reaches RotatesInOrder state) :
  state.1.Wf ∧ state.1.InOrder state.2
  := by
  apply Reachable.invariant _ _ h
  · rintro _ rfl
    exact ⟨wf_new, fun socket => Sublist.refl _⟩
  · rintro ⟨s, hs⟩ op ⟨s', hs'⟩ out ⟨hwf, horder⟩ hallowed hstep
    obtain ⟨hok, rfl⟩ := instrument_eq_ok hstep
    exact (step_keeps hwf hok).imp_right fun hkeeps => hkeeps horder hallowed

/-- In every state reached the counts are exact, and as long as no rotation separated
the datagrams of a socket, every socket was given its datagrams in the order of their
arrival. -/
theorem udp_received_in_order (self : UdpStack) (history : History) :
  (Reaches (fun _ _ => True) (self, history) → ∀ socket,
    self.udpRxCounts (udpSocketIndex socket) = (datagramsOf socket self.udpRx).length) ∧
  (Reaches RotatesInOrder (self, history) → ∀ socket,
    (history.returned socket).Sublist (history.arrived socket))
  := by
  constructor
  · intro h
    exact (wf_of_reaches h).counts
  · intro h socket
    obtain ⟨-, horder⟩ := inOrder_of_reaches h
    exact (sublist_append_left _ _).trans (horder socket)

def sampleDatagram (port : UInt16) (bytes : Bytes) : UdpReceive where
  source := .ipv4 ⟨#v[192, 0, 2, 10]⟩
  destination := .ipv4 ⟨#v[192, 0, 2, 20]⟩
  sourcePort := 9000
  destinationPort := port
  bytes := bytes

/-- Two sockets are opened and three datagrams arrive: for the first, the second and
again the first of them. -/
def sampleArrivals : List Op :=
  [.openUdp (.wildcard 4040), .openUdp (.wildcard 5050), .receiveUdp (sampleDatagram 4040 [1]),
    .receiveUdp (sampleDatagram 5050 [2]), .receiveUdp (sampleDatagram 4040 [3])]

/-- The end of a run from the empty stack, if all its steps are allowed. -/
def sampleRun (allowed : UdpStack → Op → Prop) [∀ self op, Decidable (allowed self op)]
    (ops : List Op) : Option (UdpStack × History) :=
  runAllowed (instrument step observe) (fun state op => allowed state.1 op)
    (UdpStack.new, History.empty) ops

theorem reaches_of_sampleRun [∀ self op, Decidable (allowed self op)] {ops : List Op}
    (h : sampleRun allowed ops = some state) :
  Reaches allowed state
  := Reachable.of_runAllowed (.start rfl) h

/-- When the first socket reads first, its datagrams come in order. -/
theorem udp_received_in_order_sample :
  ∃ self history, Reaches RotatesInOrder (self, history) ∧
    history.returned (udpSocketId 0) = [sampleDatagram 4040 [1]] ∧
    (history.returned (udpSocketId 0)).Sublist (history.arrived (udpSocketId 0))
  := by
  have hrun : ((sampleRun RotatesInOrder (sampleArrivals ++ [.takeUdp (udpSocketId 0)])).map
      fun state => state.2.returned (udpSocketId 0)) = some [sampleDatagram 4040 [1]] := by
    decide +kernel
  obtain ⟨⟨self, history⟩, hstate, hreturned⟩ := Option.map_eq_some_iff.mp hrun
  have hreaches := reaches_of_sampleRun hstate
  exact ⟨self, history, hreaches, hreturned,
    (udp_received_in_order self history).2 hreaches (udpSocketId 0)⟩

/-- When the second socket reads first, the first one is given its second datagram
before its first. -/
theorem take_reorders_other_socket :
  ∃ self history, Reaches (fun _ _ => True) (self, history) ∧
    history.arrived (udpSocketId 0) = [sampleDatagram 4040 [1], sampleDatagram 4040 [3]] ∧
    history.returned (udpSocketId 0) = [sampleDatagram 4040 [3], sampleDatagram 4040 [1]] ∧
    ¬ (history.returned (udpSocketId 0)).Sublist (history.arrived (udpSocketId 0))
  := by
  have hrun : ((sampleRun (fun _ _ => True) (sampleArrivals ++ [.takeUdp (udpSocketId 1),
      .takeUdp (udpSocketId 0), .takeUdp (udpSocketId 0)])).map
        fun state => (state.2.arrived (udpSocketId 0), state.2.returned (udpSocketId 0))) =
      some ([sampleDatagram 4040 [1], sampleDatagram 4040 [3]],
        [sampleDatagram 4040 [3], sampleDatagram 4040 [1]]) := by
    decide +kernel
  obtain ⟨⟨self, history⟩, hstate, hhistory⟩ := Option.map_eq_some_iff.mp hrun
  obtain ⟨harrived, hreturned⟩ := Prod.mk.inj hhistory
  use self, history, reaches_of_sampleRun hstate, harrived, hreturned
  rw [harrived, hreturned]
  decide +kernel

end UdpStack
end Helios
