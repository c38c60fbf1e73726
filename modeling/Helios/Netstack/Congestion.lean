import Helios.Library.Machine

/-!
# Congestion control

The interface through which a connection consults its congestion controller, and two
of the controllers: NewReno, which keeps a window only, and the model-based `BbrV3`,
which also paces.
-/

namespace Helios

open Machine

structure CongestionWindow where
  bytes : Nat
  bytes_pos : 0 < bytes
  deriving DecidableEq, Repr

structure PacingRate where
  bytesPerSecond : Nat
  bytesPerSecond_pos : 0 < bytesPerSecond
  deriving DecidableEq, Repr

structure AckSample where
  ackedBytes : Nat
  deliveredBytes : Nat
  bytesInFlight : Nat
  rttNanos : Nat
  intervalNanos : Nat
  nowNanos : Nat
  appLimited : Bool
  deriving DecidableEq, Repr

inductive CongestionEvent where
  | packetLoss (lostBytes bytesInFlight nowNanos : Nat)
  | explicitCongestion (bytesInFlight nowNanos : Nat)
  | retransmissionTimeout (nowNanos : Nat)
  deriving DecidableEq, Repr

structure RecoveryAction where
  cwnd : CongestionWindow
  pacingRate : Option PacingRate
  deriving DecidableEq, Repr

class CongestionControl (C : Type) where
  onPacketSent : C → (bytes bytesInFlight nowNanos : Nat) → C
  onAck : C → AckSample → C × RecoveryAction
  onCongestionEvent : C → CongestionEvent → C × RecoveryAction
  congestionWindow : C → CongestionWindow
  pacingRate : C → Option PacingRate

/-! ### NewReno -/

structure NewReno where
  cwnd : Nat
  ssthresh : Nat
  mss : Nat
  mss_pos : 0 < mss

namespace NewReno

variable (self : NewReno)

def new (mss : Nat) (mss_pos : 0 < mss) : NewReno :=
  { cwnd := mss * 10 % 2 ^ 32, ssthresh := maxWord 32, mss, mss_pos }

def congestionWindow : CongestionWindow :=
  ⟨max self.cwnd self.mss, lt_max_of_lt_right self.mss_pos⟩

def onAck (sample : AckSample) : NewReno × RecoveryAction :=
  let increment := max (self.mss * sample.ackedBytes / max self.cwnd 1) 1
  let self' :=
    if self.cwnd < self.ssthresh then
      { self with cwnd := satAdd 32 self.cwnd sample.ackedBytes }
    else
      { self with cwnd := satAdd 32 self.cwnd (increment % 2 ^ 32) }
  (self', { cwnd := self'.congestionWindow, pacingRate := none })

def onLoss (bytesInFlight : Nat) : NewReno :=
  let ssthresh := max (bytesInFlight / 2) (self.mss * 2 % 2 ^ 32)
  { self with ssthresh, cwnd := ssthresh }

def onCongestionEvent (event : CongestionEvent) : NewReno × RecoveryAction :=
  let self' :=
    match event with
    | .packetLoss _ bytesInFlight _ => self.onLoss bytesInFlight
    | .explicitCongestion bytesInFlight _ => self.onLoss bytesInFlight
    | .retransmissionTimeout _ =>
      { self with ssthresh := max (self.cwnd / 2) (self.mss * 2 % 2 ^ 32), cwnd := self.mss }
  (self', { cwnd := self'.congestionWindow, pacingRate := none })

instance : CongestionControl NewReno where
  onPacketSent self _ _ _ := self
  onAck := onAck
  onCongestionEvent := onCongestionEvent
  congestionWindow := congestionWindow
  pacingRate _ := none

end NewReno

/-! ### BbrV3 -/

inductive BbrMode where
  | startup
  | drain
  | probeBw
  | probeRtt
  deriving DecidableEq, Repr

/-- The `BbrV3` controller.  The segment size is small enough for the initial window of
ten segments to be a 32-bit number. -/
structure BbrV3 where
  mode : BbrMode
  mss : Nat
  cwnd : Nat
  pacingRate : Option PacingRate
  maxBandwidthBytesPerSecond : Nat
  minRttNanos : Nat
  minRttStampNanos : Nat
  fullBandwidth : Nat
  fullBandwidthRounds : Nat
  deliveredAtRoundStart : Nat
  pacingGainIndex : Nat
  inflightHi : Nat
  inflightLo : Nat
  probeRttDoneStampNanos : Option Nat
  mss_pos : 0 < mss
  mss_lt : mss * 10 < 2 ^ 32

namespace BbrV3

variable (self : BbrV3)

def minRttWindowNanos : Nat := 10000000000

def probeRttIntervalNanos : Nat := 5000000000

def probeRttDurationNanos : Nat := 200000000

def initialWindowSegments : Nat := 10

def probeBwGains : List (Nat × Nat) :=
  [(1250, 1000), (750, 1000), (1000, 1000), (1000, 1000), (1000, 1000), (1000, 1000),
    (1000, 1000), (1000, 1000)]

def new (mss : Nat) (mss_pos : 0 < mss) (mss_lt : mss * 10 < 2 ^ 32) : BbrV3 :=
  { mode := .startup
    mss
    cwnd := mss * initialWindowSegments
    pacingRate := none
    maxBandwidthBytesPerSecond := 0
    minRttNanos := maxWord 64
    minRttStampNanos := 0
    fullBandwidth := 0
    fullBandwidthRounds := 0
    deliveredAtRoundStart := 0
    pacingGainIndex := 0
    inflightHi := maxWord 32
    inflightLo := maxWord 32
    probeRttDoneStampNanos := none
    mss_pos
    mss_lt }

variable (sample : AckSample)

def bandwidthSample : Nat :=
  if sample.intervalNanos = 0 then 0
  else sample.ackedBytes * 1000000000 / sample.intervalNanos

def updateFullBandwidth : BbrV3 :=
  if self.maxBandwidthBytesPerSecond ≥ self.fullBandwidth * 125 % 2 ^ 64 / 100 then
    { self with fullBandwidth := self.maxBandwidthBytesPerSecond, fullBandwidthRounds := 0 }
  else
    { self with fullBandwidthRounds := satAdd 8 self.fullBandwidthRounds 1 }

def updateModel : BbrV3 :=
  let bandwidth := bandwidthSample sample
  let self :=
    if bandwidth > self.maxBandwidthBytesPerSecond ∧ sample.appLimited = false then
      { self with maxBandwidthBytesPerSecond := bandwidth }
    else self
  let self :=
    if sample.rttNanos ≠ 0 ∧ (sample.rttNanos ≤ self.minRttNanos ∨
        sample.nowNanos - self.minRttStampNanos > minRttWindowNanos) then
      { self with minRttNanos := sample.rttNanos, minRttStampNanos := sample.nowNanos }
    else self
  if sample.deliveredBytes ≥ self.deliveredAtRoundStart then
    updateFullBandwidth { self with deliveredAtRoundStart := sample.deliveredBytes }
  else self

def bdpBytes (gainNum gainDen : Nat) : Nat :=
  if self.maxBandwidthBytesPerSecond = 0 ∨ self.minRttNanos = maxWord 64 then
    self.mss * 10
  else
    let bdp := satMul 64 self.maxBandwidthBytesPerSecond self.minRttNanos / 1000000000
    max (satCast 32 (satMul 64 bdp gainNum / gainDen)) (self.mss * 4)

/-- The rate the mode's gain is applied to: the measured delivery rate, and until there
is one the initial window over the shortest round trip. -/
def baseRateBytesPerSecond : Option Nat :=
  if self.maxBandwidthBytesPerSecond ≠ 0 then
    some self.maxBandwidthBytesPerSecond
  else if self.minRttNanos = 0 ∨ self.minRttNanos = maxWord 64 then
    none
  else
    let window := self.mss * initialWindowSegments
    some (max (satMul 64 window 1000000000 / self.minRttNanos) 1)

def rateWithGain (gainNum gainDen : Nat) : Option PacingRate :=
  self.baseRateBytesPerSecond.map fun base =>
    ⟨max (satMul 64 base gainNum / gainDen) 1, lt_max_of_lt_right Nat.one_pos⟩

def updateControlParameters : BbrV3 :=
  match self.mode with
  | .startup =>
    let self := { self with cwnd := min (satAdd 32 self.cwnd sample.ackedBytes) self.inflightHi }
    let self := { self with pacingRate := self.rateWithGain 2885 1000 }
    if self.fullBandwidthRounds ≥ 3 then { self with mode := .drain } else self
  | .drain =>
    let self := { self with cwnd := min (self.bdpBytes 1 1) self.inflightHi }
    let self := { self with pacingRate := self.rateWithGain 1000 2885 }
    if sample.bytesInFlight ≤ self.cwnd then { self with mode := .probeBw } else self
  | .probeBw =>
    let gain := probeBwGains.getD self.pacingGainIndex (1000, 1000)
    let cwnd := max (min (min (self.bdpBytes 2 1) self.inflightHi) self.inflightLo) (self.mss * 4)
    let self := { self with cwnd }
    let self := { self with pacingRate := self.rateWithGain gain.1 gain.2 }
    let self :=
      if sample.deliveredBytes > self.deliveredAtRoundStart then
        { self with pacingGainIndex := (self.pacingGainIndex + 1) % probeBwGains.length }
      else self
    if sample.nowNanos - self.minRttStampNanos > probeRttIntervalNanos then
      { self with mode := .probeRtt, probeRttDoneStampNanos := none }
    else self
  | .probeRtt =>
    let self := { self with cwnd := max (self.bdpBytes 1 2) (self.mss * 4) }
    let self := { self with pacingRate := self.rateWithGain 1 1 }
    let done := self.probeRttDoneStampNanos.getD
      ((sample.nowNanos + probeRttDurationNanos) % 2 ^ 64)
    if sample.nowNanos ≥ done then
      { self with mode := .probeBw, pacingGainIndex := 0, probeRttDoneStampNanos := none }
    else
      { self with probeRttDoneStampNanos := some done }

def congestionWindow : CongestionWindow :=
  ⟨max self.cwnd (self.mss * 4),
    lt_max_of_lt_right (Nat.mul_pos self.mss_pos (by decide))⟩

def onAck : BbrV3 × RecoveryAction :=
  let self := (self.updateModel sample).updateControlParameters sample
  (self, { cwnd := self.congestionWindow, pacingRate := self.pacingRate })

def onLoss (bytesInFlight : Nat) : BbrV3 :=
  let inflightHi := max (bytesInFlight - self.mss) (self.mss * 4)
  { self with inflightHi, inflightLo := inflightHi, cwnd := min self.cwnd inflightHi }

def onCongestionEvent (event : CongestionEvent) : BbrV3 × RecoveryAction :=
  let self :=
    match event with
    | .packetLoss _ bytesInFlight _ => self.onLoss bytesInFlight
    | .explicitCongestion bytesInFlight _ => self.onLoss bytesInFlight
    | .retransmissionTimeout _ =>
      { self with
        inflightHi := self.mss * 4
        inflightLo := self.mss * 4
        cwnd := self.mss * 4
        mode := .startup }
  (self, { cwnd := self.congestionWindow, pacingRate := self.pacingRate })

instance : CongestionControl BbrV3 where
  onPacketSent self _ _ _ := self
  onAck := onAck
  onCongestionEvent := onCongestionEvent
  congestionWindow := congestionWindow
  pacingRate := pacingRate

/-! #### The ceiling of the window -/

def ceiling : Nat :=
  max self.inflightHi (self.mss * 4)

theorem onAck_ceiling :
  (self.onAck sample).1.ceiling = self.ceiling ∧
    (self.mode = .probeRtt ∨ (self.onAck sample).2.cwnd.bytes ≤ self.ceiling)
  := by
  have hmodel : (self.updateModel sample).mode = self.mode ∧
      (self.updateModel sample).ceiling = self.ceiling := by
    simp only [updateModel, updateFullBandwidth]
    repeat' split
    all_goals exact ⟨rfl, rfl⟩
  rw [onAck, ← hmodel.1, ← hmodel.2]
  generalize self.updateModel sample = model
  rw [updateControlParameters]
  cases model.mode with
  | startup | drain | probeBw =>
    simp only [congestionWindow]
    repeat' split
    all_goals
      refine ⟨rfl, .inr ?_⟩
      simp only [ceiling]
      omega
  | probeRtt =>
    simp only
    split <;> exact ⟨rfl, .inl trivial⟩

/-- However much is acknowledged after a congestion event, outside of `probeRtt` the window stays
under the limit that the event set: after a timeout, four segments. -/
theorem window_under_ceiling (event : CongestionEvent) (samples : List AckSample) :
  let limited := (self.onCongestionEvent event).1
  let reached := samples.foldl (fun self sample => (self.onAck sample).1) limited
  reached.mode = .probeRtt ∨ (reached.onAck sample).2.cwnd.bytes ≤ limited.inflightHi
  := by
  intro limited reached
  have hlimited : limited.ceiling = limited.inflightHi := by
    cases event <;> simp [limited, ceiling, onCongestionEvent, onLoss]
  have hreached : reached.ceiling = limited.ceiling := by
    refine List.foldlRecOn (motive := fun next : BbrV3 => next.ceiling = _) samples _ rfl ?_
    intro next hnext sample _
    exact (next.onAck_ceiling sample).1.trans hnext
  rw [← hlimited, ← hreached]
  exact (reached.onAck_ceiling sample).2

end BbrV3

end Helios
