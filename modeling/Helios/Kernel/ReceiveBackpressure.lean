import Helios.Library.Transition
import Helios.Netstack.TcpReceive
import Mathlib.Algebra.BigOperators.Pi

/-!
# Reopened windows and the packet pump

A shard's stack counts its sockets that are short of receive room.  A read that relieves its socket
signals the pump of the shard's pair only when the count falls to zero: the pump hears of every
reopened window exactly when no other socket of the shard is short of room, or when its signal was
past the mark already.
-/

namespace Helios.ReceiveBackpressure

open Function

inductive Panic where
  /-- "TCP receive backpressure count is corrupt" -/
  | countCorrupt

variable {Slot : Type} [DecidableEq Slot] [Fintype Slot]

/-! ### The count -/

structure Stack (Slot : Type) [Fintype Slot] where
  tcpReceiveBackpressured : Slot → Bool
  tcpReceiveBackpressuredCount : Nat
  counted : tcpReceiveBackpressuredCount = ∑ index, (tcpReceiveBackpressured index).toNat

theorem sum_update (flags : Slot → Bool) (index : Slot) (flag : Bool) :
  ∑ slot, (update flags index flag slot).toNat =
    flag.toNat + ∑ other ∈ Finset.univ \ {index}, (flags other).toNat
  := by
  simp only [apply_update fun _ => Bool.toNat]
  apply Finset.sum_update_of_mem (Finset.mem_univ index)

namespace Stack

variable (self : Stack Slot) (index : Slot)

theorem count_eq :
  self.tcpReceiveBackpressuredCount = (self.tcpReceiveBackpressured index).toNat +
    ∑ other ∈ Finset.univ \ {index}, (self.tcpReceiveBackpressured other).toNat
  := by
  rw [counted, ← sum_update, update_eq_self]

def receiveBackpressured : Bool := self.tcpReceiveBackpressuredCount != 0

/-- The flag of a slot becomes `flag`, and the count follows. -/
def setTcpReceiveBackpressure (flag : Bool) : Except Panic (Stack Slot) :=
  match hbefore : self.tcpReceiveBackpressured index, flag with
  | false, true =>
    .ok ⟨update self.tcpReceiveBackpressured index true, self.tcpReceiveBackpressuredCount + 1, by
      simp [sum_update, self.count_eq index, hbefore, add_comm]⟩
  | true, false =>
    if self.tcpReceiveBackpressuredCount = 0 then .error .countCorrupt
    else .ok
      ⟨update self.tcpReceiveBackpressured index false, self.tcpReceiveBackpressuredCount - 1, by
        simp [sum_update, self.count_eq index, hbefore]⟩
  | _, _ => .ok self

/-- `socket` is what the slot holds when the update is made. -/
def updateTcpReceiveBackpressure (socket : Option ReceiveSide) : Except Panic (Stack Slot) :=
  self.setTcpReceiveBackpressure index (socket.any (·.receiveBackpressured))

def clearTcpReceiveBackpressure : Except Panic (Stack Slot) :=
  self.setTcpReceiveBackpressure index false

variable {self index} {next : Stack Slot} {flag : Bool}

theorem set_flags (h : self.setTcpReceiveBackpressure index flag = .ok next) :
  next.tcpReceiveBackpressured = update self.tcpReceiveBackpressured index flag
  := by
  unfold setTcpReceiveBackpressure at h
  split at h
  · cases h
    rfl
  · split at h <;> cases h
    rfl
  · cases h
    symm
    cases hflag : self.tcpReceiveBackpressured index <;> simp_all

/-- A read that relieves its socket relieves the stack when no other socket is short of room. -/
theorem relieved_iff (h : self.setTcpReceiveBackpressure index false = .ok next)
    (hflag : self.tcpReceiveBackpressured index) :
  (self.receiveBackpressured && !next.receiveBackpressured) ↔
    ∀ other ≠ index, ¬ self.tcpReceiveBackpressured other
  := by
  simp [receiveBackpressured, self.count_eq index, hflag, next.counted, set_flags h, sum_update]

end Stack

/-! ### The pump -/

/-- The generations of the arrival signals, the marks of the pumps, and the shards of the reads that
have dropped the lock and are to raise their signals.  On the side, the pairs where a read relieved
its socket since the pump's round began, and is over. -/
structure State (Slot : Type) [Fintype Slot] where
  shards : Nat → Stack Slot
  arrival : Nat → Nat
  marks : Nat → Nat
  raising : List Nat
  reopened : Nat → Bool

inductive Op (Slot : Type) where
  | withHandleReceiveDrain (shardIdx : Nat) (index : Slot) (socket : Option ReceiveSide)
  | raise (read : Nat)
  | receiveRxFrame (shardIdx : Nat) (index : Slot) (socket : Option ReceiveSide)
  | closeTcpSocket (shardIdx : Nat) (index : Slot)
  | notifyArrivals (shardIdx : Nat)
  | pumpRound (pair : Nat)

def raiseShardProgress (arrival : Nat → Nat) (shardIdx : Nat) : Nat → Nat :=
  update arrival shardIdx (arrival shardIdx + 1)

variable (pairCount : Nat)

/-- The two signals that go up on a relieve. -/
def relieve (arrival : Nat → Nat) (shardIdx : Nat) : Nat → Nat :=
  let arrival := raiseShardProgress arrival shardIdx
  let pumpShard := shardIdx % pairCount
  if pumpShard ≠ shardIdx then raiseShardProgress arrival pumpShard else arrival

def step (s : State Slot) : Op Slot → Except Panic (State Slot × Unit)
  | .withHandleReceiveDrain shardIdx index socket =>
    let stack := s.shards shardIdx
    (stack.updateTcpReceiveBackpressure index socket).map fun next =>
      let shards := update s.shards shardIdx next
      if stack.receiveBackpressured && !next.receiveBackpressured then
        ({ s with shards, raising := shardIdx :: s.raising }, ())
      else if stack.tcpReceiveBackpressured index && !next.tcpReceiveBackpressured index then
        ({ s with shards, reopened := update s.reopened (shardIdx % pairCount) true }, ())
      else ({ s with shards }, ())
  | .raise read =>
    match s.raising[read]? with
    | some shardIdx =>
      .ok ({ s with
        arrival := relieve pairCount s.arrival shardIdx
        raising := s.raising.eraseIdx read
        reopened := update s.reopened (shardIdx % pairCount) true }, ())
    | none => .ok (s, ())
  | .receiveRxFrame shardIdx index socket =>
    ((s.shards shardIdx).updateTcpReceiveBackpressure index socket).map fun next =>
      ({ s with shards := update s.shards shardIdx next }, ())
  | .closeTcpSocket shardIdx index =>
    ((s.shards shardIdx).clearTcpReceiveBackpressure index).map fun next =>
      ({ s with shards := update s.shards shardIdx next }, ())
  | .notifyArrivals shardIdx =>
    .ok ({ s with arrival := raiseShardProgress s.arrival shardIdx }, ())
  | .pumpRound pair =>
    .ok ({ s with
      marks := update s.marks pair (s.arrival pair)
      reopened := update s.reopened pair false }, ())

/-- Where a window was reopened, the signal is past the pump's mark. -/
def Heard (s : State Slot) : Prop :=
  ∀ pair, s.marks pair + (s.reopened pair).toNat ≤ s.arrival pair

/-- If a read relieves its socket, no other socket of the shard is short of receive room, or the
pump's signal is past its mark already. -/
def Calm (s : State Slot) : Op Slot → Prop
  | .withHandleReceiveDrain shardIdx index socket =>
    (s.shards shardIdx).tcpReceiveBackpressured index → socket.any (·.receiveBackpressured) = false →
      (∀ other ≠ index, ¬ (s.shards shardIdx).tcpReceiveBackpressured other) ∨
        s.marks (shardIdx % pairCount) < s.arrival (shardIdx % pairCount)
  | _ => True

section

variable (arrival : Nat → Nat) (shardIdx pair : Nat)

theorem le_raise :
  arrival pair ≤ raiseShardProgress arrival shardIdx pair
  := by
  by_cases h : pair = shardIdx <;> simp [raiseShardProgress, h]

theorem le_relieve :
  arrival pair ≤ relieve pairCount arrival shardIdx pair
  := by
  rw [relieve]
  split
  · exact (le_raise ..).trans (le_raise ..)
  · apply le_raise

theorem lt_relieve (shardIdx : Nat) :
  arrival (shardIdx % pairCount) < relieve pairCount arrival shardIdx (shardIdx % pairCount)
  := by
  by_cases h : shardIdx % pairCount = shardIdx <;> simp [relieve, raiseShardProgress, h]

end

variable {pairCount} {s s' : State Slot} {op : Op Slot}

omit [DecidableEq Slot] in
theorem Heard.reopen (h : Heard s) {arrival : Nat → Nat} (hle : ∀ pair, s.arrival pair ≤ arrival pair)
    (pair : Nat) :
  (∀ other, s.marks other + (update s.reopened pair true other).toNat ≤ arrival other) ↔
    s.marks pair < arrival pair
  := by
  rw [forall_update_iff s.reopened fun other flag => s.marks other + flag.toNat ≤ arrival other]
  exact and_iff_left fun other _ => (h other).trans (hle other)

theorem heard_step_iff (h : Heard s) (hstep : step pairCount s op = .ok (s', ())) :
  Heard s' ↔ Calm pairCount s op
  := by
  cases op with
  | withHandleReceiveDrain shardIdx index socket =>
    obtain ⟨next, hnext, heq⟩ := Transition.map_eq_ok hstep
    have hflags := congrFun (Stack.set_flags hnext) index
    rw [update_self] at hflags
    rw [hflags] at heq
    by_cases hopens : (s.shards shardIdx).tcpReceiveBackpressured index &&
        !socket.any (·.receiveBackpressured)
    · obtain ⟨hflag, hsocket⟩ := by simpa using hopens
      rw [Stack.updateTcpReceiveBackpressure, hsocket] at hnext
      simp only [Calm, hflag, hsocket, true_imp_iff, ← Stack.relieved_iff hnext hflag]
      split at heq <;> cases heq
      · exact iff_of_true h (.inl ‹_›)
      · exact (h.reopen (fun _ => le_rfl) _).trans (or_iff_right ‹_›).symm
    · have hcalm : Calm pairCount s (.withHandleReceiveDrain shardIdx index socket) :=
        fun hflag hsocket => absurd (by simp [hflag, hsocket]) hopens
      split at heq <;> cases heq <;> exact iff_of_true h hcalm
  | receiveRxFrame | closeTcpSocket =>
    obtain ⟨next, hnext, heq⟩ := Transition.map_eq_ok hstep
    cases heq
    exact iff_of_true h trivial
  | raise read =>
    simp only [step] at hstep
    split at hstep <;> cases hstep
    · refine iff_of_true ((h.reopen (le_relieve _ _ _) _).mpr ?_) trivial
      exact lt_of_le_of_lt (Nat.le_of_add_right_le (h _)) (lt_relieve ..)
    · exact iff_of_true h trivial
  | notifyArrivals shardIdx =>
    cases hstep
    exact iff_of_true (fun pair => (h pair).trans (le_raise ..)) trivial
  | pumpRound pair =>
    cases hstep
    refine iff_of_true (fun other => ?_) trivial
    by_cases hother : other = pair
    · simp [hother]
    · simpa [hother] using h other

end Helios.ReceiveBackpressure
