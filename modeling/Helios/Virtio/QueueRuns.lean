import Helios.Virtio.SplitSimulation
import Helios.Virtio.PackedSimulation

/-!
# Both layouts implement one queue

For every size that a queue can have, with or without indirect tables, the split and the packed
ring implement the same queue.
-/

namespace Helios.Virtio

/-- The queue that a ring of a size, with the features that were negotiated, implements. -/
def queueConfig (bits chainLimit : Nat) (features : Features) : QueueConfig :=
  ⟨2 ^ bits, chainLimit, features.indirect && decide (chainLimit ≥ indirectMinChain)⟩

/-- Both layouts implement the queue, when completions are not in order. -/
theorem rings_implement_queue (bits chainLimit tables : Nat) (features : Features)
    (hbits : bits ≤ 15) (hinOrder : features.inOrder = false) :
  (splitMachine (2 ^ bits) chainLimit features tables).Implements
      (queueConfig bits chainLimit features) ∧
    (packedMachine (2 ^ bits) chainLimit features tables).Implements
      (queueConfig bits chainLimit features)
  := by
  constructor
  · exact (splitMachine_simulation tables hbits hinOrder).implements
  · exact (packedMachine_simulation tables hbits hinOrder).implements

theorem rings_implement_queue_sample :
  (splitMachine 256 4 ⟨true, false, true⟩ 4096).Implements (queueConfig 8 4 ⟨true, false, true⟩) ∧
    (packedMachine 256 4 ⟨true, false, true⟩ 4096).Implements
      (queueConfig 8 4 ⟨true, false, true⟩)
  := rings_implement_queue 8 4 4096 ⟨true, false, true⟩ (by decide) rfl

end Helios.Virtio
