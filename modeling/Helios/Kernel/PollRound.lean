import Mathlib.Data.List.Basic

/-!
# The receive loop of a poll round

A poll round takes batches of frames off the receive rings until its budget is spent.  The budget
counts the frames that a shard took and those that nothing parsed.  A frame that its shard refuses
for want of room is off the ring as well, and is not counted.
-/

namespace Helios.PollRound

open List

variable {F E : Type}

def networkRxBatchFrames : Nat := 32

/-- The errors of a stack: no room for the frame, and the others. -/
inductive StackError where
  | receiveBackpressure
  | malformed

inductive RxFrameDispatch where
  | delivered (shardIdx : Nat)
  | backpressured (shardIdx : Nat)
  | malformed

/-- The shards, for frames that stand with the state in which they meet their shard. -/
structure NetworkState (F : Type) where
  shardIdxForFrame : F → Nat
  receiveRxFrame : F → Except StackError Unit

def NetworkState.dispatchRxFrame (state : NetworkState F) (frame : F) : RxFrameDispatch :=
  match state.receiveRxFrame frame with
  | .ok () => .delivered (state.shardIdxForFrame frame)
  | .error .receiveBackpressure => .backpressured (state.shardIdxForFrame frame)
  | .error .malformed => .malformed

/-- Frames off the rings, and what ended the drain. -/
structure RxDrain (F E : Type) where
  frames : List F
  refusal : Option E

/-- What one turn of the loop meets: the answers of the pairs, `none` for a pair that is held,
those of the receive that waits for pair zero, if the scope covers it, and the error of the repost
of the slots. -/
structure Turn (F E : Type) where
  pairs : List (Option (RxDrain F E))
  fallback : Option (List (Except E (Option F)))
  repost : Option E

/-- Asks the pairs in turn, after those that put `drained` in the batch.  A pair puts no more
frames there than there is room for. -/
def receiveFramesImmediate (limit : Nat) :
    List (Option (RxDrain F E)) → Option (List F) → Option (RxDrain F E)
  | [], drained => drained.map (⟨·, none⟩)
  | answer :: pairs, drained =>
    let frames := drained.getD []
    if limit ≤ frames.length then drained.map (⟨·, none⟩)
    else
      match answer with
      | none => receiveFramesImmediate limit pairs drained
      | some drain =>
        let frames := frames ++ drain.frames.take (limit - frames.length)
        match drain.refusal with
        | some refusal => some ⟨frames, some refusal⟩
        | none => receiveFramesImmediate limit pairs (some frames)

/-- Receives one frame at a time, until there is none or an error. -/
def tryReceiveFrames : Nat → List (Except E (Option F)) → RxDrain F E
  | limit + 1, .ok (some frame) :: answers =>
    let rest := tryReceiveFrames limit answers
    { rest with frames := frame :: rest.frames }
  | _ + 1, .error error :: _ => ⟨[], some error⟩
  | _, _ => ⟨[], none⟩

/-- The frames of a round: those that count against the budget, and those that were taken off the
rings. -/
structure Poll where
  received : Nat
  taken : Nat

def RxFrameDispatch.counts : RxFrameDispatch → Bool
  | .delivered _ | .malformed => true
  | .backpressured _ => false

namespace NetworkState

variable (state : NetworkState F)

def demux (poll : Poll) (frames : List F) : Poll where
  received := poll.received + frames.countP fun frame => (state.dispatchRxFrame frame).counts
  taken := poll.taken + frames.length

/-- Hands a batch to the shards and returns its slots.  The loop goes on without a result. -/
def dispatch (poll : Poll) (drain : RxDrain F E) (repost : Option E) :
    Poll × Option (Except E Unit) :=
  if drain.frames = [] ∧ drain.refusal = none then (poll, some (.ok ()))
  else (state.demux poll drain.frames, (repost.or drain.refusal).map .error)

def turn (poll : Poll) (receiveLimit : Nat) (turn : Turn F E) : Poll × Option (Except E Unit) :=
  match receiveFramesImmediate receiveLimit turn.pairs none, turn.fallback with
  | some drain, _ => state.dispatch poll drain turn.repost
  | none, none => (poll, some (.ok ()))
  | none, some answers =>
    match tryReceiveFrames receiveLimit answers with
    | ⟨frames, none⟩ => state.dispatch poll ⟨frames, none⟩ turn.repost
    | ⟨frames, some error⟩ =>
      ({ poll with taken := poll.taken + frames.length }, some (.error error))

/-- The receive loop, through the turns that the device offers. -/
def receiveLoop (limit : Nat) : Poll → List (Turn F E) → Poll × Option (Except E Unit)
  | poll, [] => (poll, none)
  | poll, turn :: turns =>
    if limit - poll.received = 0 then (poll, some (.ok ()))
    else
      match state.turn poll (min (limit - poll.received) networkRxBatchFrames) turn with
      | (poll, none) => receiveLoop limit poll turns
      | last => last

def pollNetworkOnce (rxFrames stackRxBudget : Nat) (turns : List (Turn F E)) :
    Poll × Option (Except E Unit) :=
  state.receiveLoop (min rxFrames stackRxBudget) ⟨0, 0⟩ turns

end NetworkState

/-! ### The bound -/

variable {limit : Nat}

theorem length_receiveFramesImmediate_le {pairs : List (Option (RxDrain F E))}
    {drained : Option (List F)} {drain : RxDrain F E} (hdrained : (drained.getD []).length ≤ limit)
    (h : receiveFramesImmediate limit pairs drained = some drain) :
  drain.frames.length ≤ limit
  := by
  fun_induction receiveFramesImmediate limit pairs drained with
  | case1 | case2 =>
    obtain ⟨frames, rfl, rfl⟩ := Option.map_eq_some_iff.mp h
    exact hdrained
  | case3 drained pairs frames hroom ih => exact ih hdrained h
  | case4 drained pairs frames hroom answer batch refusal =>
    cases h
    simp [batch]
    omega
  | case5 drained pairs frames hroom answer batch hnone ih =>
    apply ih _ h
    simp [batch]
    omega

theorem length_tryReceiveFrames_le (answers : List (Except E (Option F))) (limit : Nat) :
  (tryReceiveFrames limit answers).frames.length ≤ limit
  := by
  fun_induction tryReceiveFrames limit answers with
  | case1 limit frame answers rest ih => exact Nat.succ_le_succ ih
  | case2 | case3 => exact Nat.zero_le _

namespace NetworkState

variable {state : NetworkState F} {poll : Poll}

/-- What a turn does with the frames that it takes. -/
inductive Takes (state : NetworkState F) (poll : Poll) (limit : Nat) :
    Poll × Option (Except E Unit) → Prop
  | ended (frames : List F) (last : Except E Unit) (hlen : frames.length ≤ limit) :
      Takes state poll limit ({ poll with taken := poll.taken + frames.length }, some last)
  | demuxed {frames : List F} {result : Option (Except E Unit)} (hlen : frames.length ≤ limit)
      (hresult : result = none → frames ≠ []) :
      Takes state poll limit (state.demux poll frames, result)

theorem dispatch_takes {drain : RxDrain F E} (hlen : drain.frames.length ≤ limit)
    (repost : Option E) :
  state.Takes poll limit (state.dispatch poll drain repost)
  := by
  rw [dispatch]
  split
  · exact .ended [] _ (Nat.zero_le _)
  · rename_i hsome
    refine .demuxed hlen fun hnone hnil => hsome ⟨hnil, ?_⟩
    rw [Option.map_eq_none_iff, Option.or_eq_none_iff] at hnone
    exact hnone.2

theorem turn_takes (turn : Turn F E) :
  state.Takes poll limit (state.turn poll limit turn)
  := by
  rw [NetworkState.turn]
  split
  · rename_i drain _ hdrain
    exact dispatch_takes (length_receiveFramesImmediate_le (Nat.zero_le _) hdrain) _
  · exact .ended [] _ (Nat.zero_le _)
  · rename_i answers _ _
    have hlen := length_tryReceiveFrames_le answers limit
    split
    · rename_i hframes
      rw [hframes] at hlen
      exact dispatch_takes hlen _
    · rename_i hframes
      rw [hframes] at hlen
      exact .ended _ _ hlen

theorem counts_dispatchRxFrame {frame : F}
    (h : state.receiveRxFrame frame ≠ .error .receiveBackpressure) :
  (state.dispatchRxFrame frame).counts
  := by
  fun_cases dispatchRxFrame state frame with
  | case2 hrefused => exact absurd hrefused h
  | case1 | case3 => rfl

/-- Where every frame counts, every turn takes a frame of the budget, unless it is the last. -/
theorem receiveLoop_bounded (hstate : ∀ frame, (state.dispatchRxFrame frame).counts)
    (turns : List (Turn F E)) {received : Nat} (hreceived : received ≤ limit) :
  (state.receiveLoop limit ⟨received, received⟩ turns).1.taken ≤ limit ∧
    ((state.receiveLoop limit ⟨received, received⟩ turns).2 = none →
      received + turns.length ≤ limit)
  := by
  induction turns generalizing received with
  | nil => exact ⟨hreceived, fun _ => hreceived⟩
  | cons turn turns ih =>
    have htakes := @turn_takes _ _ (min (limit - received) networkRxBatchFrames) state
      ⟨received, received⟩ turn
    rw [receiveLoop]
    split
    · exact ⟨hreceived, nofun⟩
    · generalize state.turn _ _ turn = next at htakes ⊢
      cases htakes with
      | ended frames last hlen => exact ⟨by dsimp only; omega, nofun⟩
      | @demuxed frames result hlen hresult =>
        have hcount : frames.countP (fun frame => (state.dispatchRxFrame frame).counts) = frames.length :=
          countP_eq_length.mpr fun frame _ => hstate frame
        have htaken : received + frames.length ≤ limit := by omega
        cases result with
        | some last => exact ⟨htaken, nofun⟩
        | none =>
          obtain ⟨hle, hmore⟩ := ih htaken
          rw [demux, hcount]
          refine ⟨hle, fun hnone => ?_⟩
          have hpos := length_pos_iff.mpr (hresult rfl)
          have hmore := hmore hnone
          rw [length_cons]
          omega

/-- A turn in which one pair answers, with one frame. -/
def single (frame : F) : Turn F E :=
  ⟨[some ⟨[frame], none⟩], none, none⟩

theorem receiveLoop_refused {frame : F}
    (h : state.receiveRxFrame frame = .error .receiveBackpressure) (hlimit : limit ≠ 0)
    (turns taken : Nat) :
  state.receiveLoop limit ⟨0, taken⟩ (replicate turns (single (E := E) frame)) =
    (⟨0, taken + turns⟩, none)
  := by
  induction turns generalizing taken with
  | zero => rfl
  | succ turns ih =>
    have hcounts : (state.dispatchRxFrame frame).counts = false := by
      rw [dispatchRxFrame, h]
      rfl
    have hroom : min limit networkRxBatchFrames ≠ 0 := by
      rw [networkRxBatchFrames]
      omega
    have hbatch : receiveFramesImmediate (E := E) (min limit networkRxBatchFrames)
        (single frame).pairs none = some ⟨[frame], none⟩ := by
      have htake := take_of_length_le (l := [frame]) (Nat.one_le_iff_ne_zero.mpr hroom)
      simp [receiveFramesImmediate, single, hroom, htake]
    have hnext := ih (taken + 1)
    rw [Nat.add_assoc, Nat.add_comm 1] at hnext
    have hrepost : (single (E := E) frame).repost = none := rfl
    simpa [replicate_succ, receiveLoop, hlimit, NetworkState.turn, hbatch, dispatch, hrepost, demux,
      hcounts] using hnext

/-- A round takes no more frames off the rings than its budget, and is over after as many turns,
whatever the device offers, just when the budget is zero or no shard refuses a frame for want of
room. -/
theorem poll_round_bounded_iff (state : NetworkState F) (rxFrames stackRxBudget : Nat) :
  (∀ turns : List (Turn F E),
      (state.pollNetworkOnce rxFrames stackRxBudget turns).1.taken ≤ min rxFrames stackRxBudget ∧
        ((state.pollNetworkOnce rxFrames stackRxBudget turns).2 = none →
          turns.length ≤ min rxFrames stackRxBudget)) ↔
    min rxFrames stackRxBudget = 0 ∨
      ∀ frame, state.receiveRxFrame frame ≠ .error .receiveBackpressure
  := by
  constructor
  · intro hbounded
    refine or_iff_not_imp_left.mpr fun hlimit frame hframe => ?_
    have htaken := (hbounded (replicate (min rxFrames stackRxBudget + 1) (single frame))).1
    rw [pollNetworkOnce, receiveLoop_refused hframe hlimit] at htaken
    dsimp only at htaken
    omega
  · rintro (hlimit | hstate) turns
    · rw [pollNetworkOnce, hlimit]
      cases turns with
      | nil | cons => exact ⟨Nat.le_refl 0, by simp [receiveLoop]⟩
    · have hbounded := receiveLoop_bounded (fun frame => counts_dispatchRxFrame (hstate frame))
        turns (Nat.zero_le (min rxFrames stackRxBudget))
      rwa [Nat.zero_add] at hbounded

/-- A frame is ready in every turn, and its shard has no room: a round with a budget of one frame
takes three of them, and goes on. -/
theorem refused_frames_uncounted :
  pollNetworkOnce ⟨fun _ => 0, fun _ => .error .receiveBackpressure⟩ 1 1
      (replicate 3 (single (E := Unit) ())) =
    (⟨0, 3⟩, none)
  := rfl

end NetworkState

end Helios.PollRound
