import Mathlib.Logic.Basic

/-!
# Machines that may abort

A machine takes operations one at a time; each step returns the next state and an
output, or aborts with a fault.  The states it can reach, under a restriction on the
operations taken from each state, satisfy every property that holds initially and that
every step keeps.  A machine may be instrumented with a history variable, which records
what happened without influencing it.
-/

namespace Transition

variable {State Op Out Fault History : Type} {allowed : State → Op → Prop}

/-- The states reached from a start state by steps that are allowed and do not abort. -/
inductive Reachable (step : State → Op → Except Fault (State × Out)) (start : State → Prop)
    (allowed : State → Op → Prop) : State → Prop where
  | start {s : State} : start s → Reachable step start allowed s
  | next {s s' : State} {op : Op} {out : Out} :
      Reachable step start allowed s → allowed s op → step s op = .ok (s', out) →
      Reachable step start allowed s'

/-- A property of the start states that every allowed step keeps holds of every state
reached. -/
theorem Reachable.invariant {step : State → Op → Except Fault (State × Out)} {start : State → Prop}
    {inv : State → Prop} (hstart : ∀ s, start s → inv s)
    (hstep : ∀ s op s' out, inv s → allowed s op → step s op = .ok (s', out) → inv s') {s : State}
    (h : Reachable step start allowed s) :
  inv s
  := by
  induction h with
  | start h => apply hstart _ h
  | next _ hallowed hok ih => apply hstep _ _ _ _ ih hallowed hok

variable {step : State → Op → Except Fault (State × Out)} {s : State} {start : State → Prop}

/-- What is reached by some steps is reached when more are allowed. -/
theorem Reachable.mono {allowed' : State → Op → Prop} (hmore : ∀ s op, allowed s op → allowed' s op)
    (h : Reachable step start allowed s) :
  Reachable step start allowed' s
  := by
  induction h with
  | start h => exact .start h
  | next _ hallowed hok ih => exact ih.next (hmore _ _ hallowed) hok

/-- A mapped computation succeeds when the computation does. -/
theorem map_eq_ok {α β : Type} {x : Except Fault α} {f : α → β} {b : β}
    (h : x.map f = .ok b) :
  ∃ a, x = .ok a ∧ f a = b
  := by
  cases x with
  | error fault => contradiction
  | ok a => refine ⟨a, rfl, Except.ok.inj h⟩

theorem bind_eq_ok {α β : Type} {x : Except Fault α} {f : α → Except Fault β} {b : β}
    (h : x >>= f = .ok b) :
  ∃ a, x = .ok a ∧ f a = .ok b
  := by
  cases x with
  | error fault => contradiction
  | ok a => refine ⟨a, rfl, h⟩

/-- Takes a list of operations in turn and collects the outputs. -/
def run (step : State → Op → Except Fault (State × Out)) :
    State → List Op → Except Fault (State × List Out)
  | s, [] => .ok (s, [])
  | s, op :: ops =>
    match step s op with
    | .error fault => .error fault
    | .ok (s', out) =>
      match run step s' ops with
      | .error fault => .error fault
      | .ok (s'', outs) => .ok (s'', out :: outs)

variable {s' : State} {ops : List Op}

/-- Every state at the end of a run is reached, when nothing restricts the steps. -/
theorem Reachable.of_run {outs : List Out} (hs : Reachable step start (fun _ _ => True) s)
    (h : run step s ops = .ok (s', outs)) :
  Reachable step start (fun _ _ => True) s'
  := by
  fun_induction run step s ops generalizing outs with
  | case1 =>
    cases h
    apply hs
  | case2 | case3 => cases h
  | case4 s op ops s₁ out hstep s₂ outs' hrun ih =>
    cases h
    apply ih (hs.next trivial hstep) hrun

/-- Takes a list of operations in turn, as long as they are allowed and do not abort. -/
def runAllowed (step : State → Op → Except Fault (State × Out)) (allowed : State → Op → Prop)
    [∀ s op, Decidable (allowed s op)] : State → List Op → Option State
  | s, [] => some s
  | s, op :: ops =>
    if allowed s op then
      match step s op with
      | .error _ => none
      | .ok (s', _) => runAllowed step allowed s' ops
    else
      none

/-- The state at the end of such a run is reached. -/
theorem Reachable.of_runAllowed [∀ s op, Decidable (allowed s op)]
    (hs : Reachable step start allowed s) (h : runAllowed step allowed s ops = some s') :
  Reachable step start allowed s'
  := by
  fun_induction runAllowed step allowed s ops with
  | case1 =>
    cases h
    exact hs
  | case2 | case4 => cases h
  | case3 s op ops hallowed s₁ out hstep ih => exact ih (hs.next hallowed hstep) h

/-- A machine that also updates a history variable at each step. -/
def instrument (step : State → Op → Except Fault (State × Out))
    (observe : History → State → Op → Out → History) :
    State × History → Op → Except Fault ((State × History) × Out)
  | (s, history), op =>
    match step s op with
    | .error fault => .error fault
    | .ok (s', out) => .ok ((s', observe history s op out), out)

/-- A step of the instrumented machine is a step of the machine. -/
theorem instrument_eq_ok {observe : History → State → Op → Out → History}
    {history history' : History} {op : Op} {out : Out}
    (h : instrument step observe (s, history) op = .ok ((s', history'), out)) :
  step s op = .ok (s', out) ∧ history' = observe history s op out
  := by
  rw [instrument] at h
  split at h <;> cases h
  rename_i hstep
  apply And.intro hstep rfl

end Transition
