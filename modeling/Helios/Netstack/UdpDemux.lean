import Helios.Netstack.UdpFifo

/-!
# Delivery of UDP datagrams

The socket of a datagram should be the most specific one whose binding overlaps the
datagram's.  The four lookups by exact binding find it whenever one of those bindings is
installed.  The search that follows when none is installed compares addresses and the
remote port only: what it finds is never bound to the datagram's port.
-/

namespace Helios

open UdpSocketBinding Option

/-- How much of a datagram's addressing a binding fixes: its own address counts more than
the remote end. -/
def UdpSocketBinding.specificity (binding : UdpSocketBinding) : Nat :=
  2 * binding.localAddress.toList.length + binding.remote.toList.length

namespace UdpSocketSlab

/-- The answer that a datagram should get: the most specific socket whose binding
overlaps the datagram's, and none only if there is none. -/
structure Delivers (slab : UdpSocketSlab) (packetBinding : UdpSocketBinding)
    (answer : Option UdpSocketId) : Prop where
  overlaps : ∀ socket ∈ answer, ∃ state, slab.get (udpSocketIndex socket) = some state ∧
    state.binding.overlaps packetBinding = true
  mostSpecific : ∀ socket ∈ answer, ∀ state i other,
    slab.get (udpSocketIndex socket) = some state → slab.get i = some other →
    other.binding.overlaps packetBinding = true →
    other.binding.specificity ≤ state.binding.specificity
  complete : answer = none → ∀ i other, slab.get i = some other →
    other.binding.overlaps packetBinding = false

/-- One of the bindings under which a datagram is looked up is installed. -/
def CandidateInstalled (slab : UdpSocketSlab) (packetBinding : UdpSocketBinding) : Prop :=
  ∃ candidate ∈ candidateBindings packetBinding, ∃ i state,
    slab.get i = some state ∧ state.binding = candidate

/-- No installed binding overlaps the datagram's, nor accepts it regardless of its port. -/
def NoneAccepts (slab : UdpSocketSlab) (source : IpAddress) (sourcePort : UInt16)
    (destination : IpAddress) (packetBinding : UdpSocketBinding) : Prop :=
  ∀ i state, slab.get i = some state → state.binding.overlaps packetBinding = false ∧
    state.binding.accepts source sourcePort destination = false

section

variable {packetBinding : UdpSocketBinding}

variable {slab : UdpSocketSlab} {source destination : IpAddress}
  {sourcePort destinationPort : UInt16} {binding candidate : UdpSocketBinding}

theorem optionalIpAddressesOverlap_none (address : Option IpAddress) :
  optionalIpAddressesOverlap address none = true
  := by
  cases address <;> rfl

theorem optionalUdpRemotesOverlap_none (remote : Option UdpEndpoint) :
  optionalUdpRemotesOverlap remote none = true
  := by
  cases remote <;> rfl

/-- What overlaps a datagram's binding overlaps each binding it is looked up under. -/
theorem overlaps_candidate (hcandidate : candidate ∈ candidateBindings packetBinding)
    (h : binding.overlaps packetBinding = true) :
  binding.overlaps candidate = true
  := by
  simp only [overlaps, Bool.and_eq_true] at h
  obtain ⟨⟨hport, haddress⟩, hremote⟩ := h
  simp only [candidateBindings, List.mem_cons, List.not_mem_nil, or_false] at hcandidate
  rcases hcandidate with rfl | rfl | rfl | rfl <;>
    simp only [overlaps, hport, haddress, hremote,
      optionalIpAddressesOverlap_none, optionalUdpRemotesOverlap_none, Bool.and_self]

theorem candidate_overlaps (hcandidate : candidate ∈ candidateBindings packetBinding) :
  candidate.overlaps packetBinding = true
  := by
  rw [overlaps_comm]
  exact overlaps_candidate hcandidate (overlaps_self packetBinding)

/-- A binding that accepts a datagram and has its port is one that it is looked up
under. -/
theorem mem_candidates_of_accepts (haccepts : binding.accepts source sourcePort destination = true)
    (hport : binding.localPort = destinationPort) :
  binding ∈ candidateBindings
    (.exactPacketBinding source sourcePort destination destinationPort)
  := by
  obtain ⟨localAddress, localPort, remote⟩ := binding
  subst hport
  unfold accepts at haccepts
  split at haccepts
  · cases haccepts
  split at haccepts
  · cases haccepts
  rename_i haddress
  have haddress' : localAddress = none ∨ localAddress = some destination := by
    rcases localAddress with _ | address
    · left
      rfl
    · simpa using haddress
  have hremote : remote = none ∨ remote = some ⟨source, sourcePort⟩ := by
    rcases remote with _ | endpoint
    · left
      rfl
    · simp only [Bool.and_eq_true, beq_iff_eq] at haccepts
      simp [← haccepts.1, ← haccepts.2]
  rcases haddress' with rfl | rfl <;> rcases hremote with rfl | rfl <;>
    simp [candidateBindings, exactPacketBinding]

/-- The linear search returns the first socket that accepts the datagram. -/
theorem findAccepting_eq {slots : List Nat} (hslots : ∀ i ∈ slots, (slab.get i).isSome) :
  ∃ found, slab.findAccepting source sourcePort destination slots = .ok found ∧
    (∀ i ∈ found, ∃ state, slab.get i = some state ∧
      state.binding.accepts source sourcePort destination = true) ∧
    (found = none → ∀ i ∈ slots, ∀ state, slab.get i = some state →
      state.binding.accepts source sourcePort destination = false)
  := by
  induction slots with
  | nil => exact ⟨none, rfl, by simp, by simp⟩
  | cons i rest ih =>
    obtain ⟨state, hstate⟩ := isSome_iff_exists.mp (hslots i (by simp))
    rw [findAccepting]
    simp only [hstate]
    split_ifs with haccepts
    · exact ⟨some i, rfl, by simp [hstate, haccepts], by simp⟩
    · obtain ⟨found, hok, hfound, hnone⟩ := ih fun j hj => hslots j (by simp [hj])
      use found, hok, hfound
      intro hnil
      apply List.forall_mem_cons.mpr ⟨?_, hnone hnil⟩
      intro other hother
      rw [hstate, some.injEq] at hother
      subst hother
      simpa using haccepts

/-- The lookups by exact binding find a socket exactly when a candidate is installed. -/
theorem Wf.findSome_lookup (hwf : slab.Wf) (packetBinding : UdpSocketBinding) :
  (∀ index, (candidateBindings packetBinding).findSome? slab.bindingIndex.lookup = some index →
    ∃ state, slab.get index = some state ∧ state.binding ∈ candidateBindings packetBinding) ∧
  ((candidateBindings packetBinding).findSome? slab.bindingIndex.lookup = none →
    ¬ slab.CandidateInstalled packetBinding)
  := by
  constructor
  · intro index h
    obtain ⟨key, hkey, hlookup⟩ := List.exists_of_findSome?_eq_some h
    obtain ⟨state, hstate, hbinding⟩ :=
      (hwf.index_holds key index).mp ((OpenAddressing.lookup_eq_some hwf.index_sound).mp hlookup)
    exact ⟨state, hstate, hbinding ▸ hkey⟩
  · rintro hnone ⟨candidate, hcandidate, i, state, hstate, hbinding⟩
    have hlookup := List.findSome?_eq_none_iff.mp hnone candidate hcandidate
    have hholds := (hwf.index_holds candidate i).mpr ⟨state, hstate, hbinding⟩
    have := (OpenAddressing.lookup_eq_some hwf.index_sound).mpr hholds
    rw [UdpBindingIndex.lookup] at hlookup
    simp [hlookup] at this

/-- A socket that is installed under a candidate binding is the right one: no other
overlaps the datagram. -/
theorem Wf.delivers_candidate (hwf : slab.Wf) {index : Nat} {state : UdpSocketState}
    (hstate : slab.get index = some state)
    (hcandidate : state.binding ∈ candidateBindings packetBinding) :
  slab.Delivers packetBinding (some (udpSocketId index))
  := by
  constructor
  · intro socket hsocket
    cases hsocket
    exact ⟨state, hstate, candidate_overlaps hcandidate⟩
  · intro socket hsocket state' i other hstate' hother hoverlaps
    cases hsocket
    rw [udpSocketIndex_udpSocketId, hstate, some.injEq] at hstate'
    subst hstate'
    have hsame : i = index := by
      by_contra hne
      have := hwf.apart i index other state hother hstate hne
      rw [overlaps_candidate hcandidate hoverlaps] at this
      cases this
    subst hsame
    rw [hstate, some.injEq] at hother
    rw [hother]
  · nofun

/-- Without a candidate installed, a delivery is to a socket bound to another port. -/
theorem not_overlaps_of_accepts {index : Nat} {state : UdpSocketState}
    (hnone : ¬ slab.CandidateInstalled
      (.exactPacketBinding source sourcePort destination destinationPort))
    (hstate : slab.get index = some state)
    (haccepts : state.binding.accepts source sourcePort destination = true) :
  state.binding.overlaps (.exactPacketBinding source sourcePort destination destinationPort) = false
  := by
  have hport : state.binding.localPort ≠ destinationPort := by
    intro hport
    exact hnone ⟨_, mem_candidates_of_accepts haccepts hport, index, state, hstate, rfl⟩
  simp [overlaps, exactPacketBinding, hport]

end
end UdpSocketSlab

namespace UdpStack

open UdpSocketSlab

/-- In every state reached, every datagram gets an answer, and the answer is the right
one exactly when one of its candidate bindings is installed or no installed binding
overlaps it or accepts it. -/
theorem socketForPacket_delivers_iff (self : UdpStack) (history : History)
    (h : Reaches (fun _ _ => True) (self, history)) (source : IpAddress) (sourcePort : UInt16)
    (destination : IpAddress) (destinationPort : UInt16) :
  ∃ answer, self.udp.socketForPacket source sourcePort destination destinationPort = .ok answer ∧
    (self.udp.Delivers (.exactPacketBinding source sourcePort destination destinationPort) answer ↔
      self.udp.CandidateInstalled
          (.exactPacketBinding source sourcePort destination destinationPort) ∨
        self.udp.NoneAccepts source sourcePort destination
          (.exactPacketBinding source sourcePort destination destinationPort))
  := by
  have hwf : self.udp.Wf := (wf_of_reaches h).slab
  generalize hpacket :
    exactPacketBinding source sourcePort destination destinationPort = packet
  obtain ⟨hfound, hnone⟩ := hwf.findSome_lookup packet
  unfold UdpSocketSlab.socketForPacket
  simp only [hpacket]
  split
  · rename_i index hlookup
    obtain ⟨state, hstate, hcandidate⟩ := hfound index hlookup
    use some (udpSocketId index), rfl
    constructor
    · intro _
      left
      exact ⟨_, hcandidate, index, state, hstate, rfl⟩
    · intro _
      exact hwf.delivers_candidate hstate hcandidate
  · rename_i hlookup
    have hmissing := hnone hlookup
    obtain ⟨found, hok, haccepted, hrejected⟩ := @findAccepting_eq self.udp source destination
      sourcePort self.udp.active fun i hi => (hwf.mem_active i).mp hi
    rw [hok]
    use found.map udpSocketId, rfl
    rcases found with _ | index
    · -- nobody accepts the datagram, and no answer is given
      have hnobody : ∀ i state, self.udp.get i = some state →
          state.binding.accepts source sourcePort destination = false := by
        intro i state hstate
        exact hrejected rfl i ((hwf.mem_active i).mpr (by simp [hstate])) state hstate
      constructor
      · intro hdelivers
        right
        intro i state hstate
        exact ⟨hdelivers.complete rfl i state hstate, hnobody i state hstate⟩
      · rintro (hinstalled | hnobody)
        · exact absurd hinstalled hmissing
        · constructor
          · simp
          · simp
          · exact fun _ i other hother => (hnobody i other hother).1
    · -- a socket accepts the datagram although it is bound to another port
      obtain ⟨state, hstate, haccepts⟩ := haccepted index rfl
      have hother := not_overlaps_of_accepts (hpacket ▸ hmissing) hstate haccepts
      rw [hpacket] at hother
      constructor
      · intro hdelivers
        obtain ⟨state', hstate', hoverlaps⟩ := hdelivers.overlaps (udpSocketId index) rfl
        rw [udpSocketIndex_udpSocketId, hstate, some.injEq] at hstate'
        rw [← hstate', hother] at hoverlaps
        cases hoverlaps
      · rintro (hinstalled | hnobody)
        · exact absurd hinstalled hmissing
        · have := (hnobody index state hstate).2
          rw [haccepts] at this
          cases this

/-- With a socket on port 4040, a datagram to that port is delivered as it should be. -/
theorem socketForPacket_delivers_sample :
  ∃ self history, Reaches (fun _ _ => True) (self, history) ∧
    self.udp.socketForPacket (.ipv4 ⟨#v[192, 0, 2, 10]⟩) 9000 (.ipv4 ⟨#v[192, 0, 2, 20]⟩) 4040 =
      .ok (some (udpSocketId 0)) ∧
    self.udp.Delivers (.exactPacketBinding (.ipv4 ⟨#v[192, 0, 2, 10]⟩) 9000
      (.ipv4 ⟨#v[192, 0, 2, 20]⟩) 4040) (some (udpSocketId 0))
  := by
  have hrun : ((sampleRun (fun _ _ => True) [.openUdp (.wildcard 4040)]).map fun state =>
      (state.1.udp.socketForPacket (.ipv4 ⟨#v[192, 0, 2, 10]⟩) 9000
        (.ipv4 ⟨#v[192, 0, 2, 20]⟩) 4040, (state.1.udp.get 0).map (·.binding))) =
      some (.ok (some (udpSocketId 0)), some (.wildcard 4040)) := by
    decide +kernel
  obtain ⟨⟨self, history⟩, hstate, hanswer⟩ := map_eq_some_iff.mp hrun
  obtain ⟨hanswer, hsocket⟩ := Prod.mk.inj hanswer
  obtain ⟨state, hget, hbinding⟩ := map_eq_some_iff.mp hsocket
  have hreaches := reaches_of_sampleRun hstate
  obtain ⟨answer, hok, hiff⟩ := socketForPacket_delivers_iff self history hreaches
    (.ipv4 ⟨#v[192, 0, 2, 10]⟩) 9000 (.ipv4 ⟨#v[192, 0, 2, 20]⟩) 4040
  have hsame : answer = some (udpSocketId 0) := Except.ok.inj (hok.symm.trans hanswer)
  use self, history, hreaches, hanswer
  rw [← hsame]
  apply hiff.mpr
  left
  exact ⟨.wildcard 4040, by simp [candidateBindings, exactPacketBinding,
    wildcard], 0, state, hget, hbinding⟩

/-- With a socket on port 4040, a datagram to port 9 is delivered to it, although its
binding does not overlap the datagram's. -/
theorem socketForPacket_ignores_port :
  ∃ self history, Reaches (fun _ _ => True) (self, history) ∧
    self.udp.socketForPacket (.ipv4 ⟨#v[192, 0, 2, 10]⟩) 9000 (.ipv4 ⟨#v[192, 0, 2, 20]⟩) 9 =
      .ok (some (udpSocketId 0)) ∧
    ¬ self.udp.Delivers (.exactPacketBinding (.ipv4 ⟨#v[192, 0, 2, 10]⟩) 9000
      (.ipv4 ⟨#v[192, 0, 2, 20]⟩) 9) (some (udpSocketId 0))
  := by
  have hrun : ((sampleRun (fun _ _ => True) [.openUdp (.wildcard 4040)]).map fun state =>
      (state.1.udp.socketForPacket (.ipv4 ⟨#v[192, 0, 2, 10]⟩) 9000
        (.ipv4 ⟨#v[192, 0, 2, 20]⟩) 9, (state.1.udp.get 0).map (·.binding))) =
      some (.ok (some (udpSocketId 0)), some (.wildcard 4040)) := by
    decide +kernel
  obtain ⟨⟨self, history⟩, hstate, hanswer⟩ := map_eq_some_iff.mp hrun
  obtain ⟨hanswer, hsocket⟩ := Prod.mk.inj hanswer
  obtain ⟨state, hget, hbinding⟩ := map_eq_some_iff.mp hsocket
  use self, history, reaches_of_sampleRun hstate, hanswer
  intro hdelivers
  obtain ⟨state', hstate', hoverlaps⟩ := hdelivers.overlaps (udpSocketId 0) rfl
  have hsame : state' = state := some.inj (hstate'.symm.trans hget)
  rw [hsame, hbinding] at hoverlaps
  simp [overlaps, wildcard, exactPacketBinding] at hoverlaps

end UdpStack
end Helios
