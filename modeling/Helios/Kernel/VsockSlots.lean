import Helios.Kernel.VsockRuns
import Mathlib.Data.List.Nodup

/-!
# Who owns a slot

A slot of the table is owned by the handle that was given out for its connection, or by the
queue of the listener that the connection came in on.  A listener that is closed with connections
in its queue drops them, and so does a reset of the transport, and their slots are never freed.
In every run in which the queues are empty at those two steps, each slot has its owner, and a
handle names the one connection that was opened under it until the handle is closed.
-/

namespace Helios.Vsock

open Function VsockTable Transition List Nat Option

variable {stream : VsockStreamId} {guestCid maxPayload : Nat}

variable {table table' : VsockTable} {op : Op} {answer : Answer} {index : Nat}
  {added : VsockConnection}

/-- What was given out and given back. -/
structure Ledger where
  /-- The handles that connections were opened under. -/
  opened : List VsockStreamId
  /-- The handles given out and not closed. -/
  held : List VsockStreamId
  /-- The handles that were closed. -/
  closed : List VsockStreamId
  /-- How many generations were taken. -/
  opens : Nat

namespace Ledger

def empty : Ledger := ⟨[], [], [], 0⟩

/-- The handles of the slots that a step has filled. -/
def filled (table table' : VsockTable) : List VsockStreamId :=
  (range maxVsockConnections).filterMap fun index =>
    match table.connections index, table'.connections index with
    | none, some connection => some ⟨index, connection.generation⟩
    | _, _ => none

/-- The handle that a close has consumed. -/
def consumed : Op → Answer → Option VsockStreamId
  | .close stream, .notice (.ok _) => some stream
  | _, _ => none

/-- The ledger after a step from one table to another. -/
def after (ledger : Ledger) (table : VsockTable) (op : Op) (answer : Answer) (table' : VsockTable) :
    Ledger where
  opened := ledger.opened ++ filled table table'
  held := (ledger.held.filter fun stream => consumed op answer ≠ some stream) ++
    answer.issued?.toList
  closed := ledger.closed ++ (consumed op answer).toList
  opens := if table'.nextGeneration = table.nextGeneration then ledger.opens else ledger.opens + 1

def note (ledger : Ledger) (table : VsockTable) (op : Op) (answer : Answer) : Ledger :=
  match table.step op with
  | .error _ => ledger
  | .ok (table', _) => ledger.after table op answer table'

end Ledger

section

variable (table)

/-- No connection waits in the queue of a listener. -/
def VsockTable.Waitless (listener : VsockListener) : Prop :=
  ∀ stream ∈ listener.queued, table.connection stream = .error .unknownHandle

/-- No connection is dropped from a queue by the operation. -/
def VsockTable.Keeps : Op → Prop
  | .closeListener listener => ∀ bound, table.listeners listener.index = some bound →
      bound.generation = listener.generation → table.Waitless bound
  | .resetAll => ∀ slot bound, table.listeners slot = some bound → table.Waitless bound
  | _ => True

/-- A table and its ledger after a run from a new table. -/
def Conducted (allowed : VsockTable → Op → Prop) (guestCid maxPayload : Nat) (table : VsockTable)
    (ledger : Ledger) : Prop :=
  Reachable (instrument step Ledger.note)
    (fun state => state = (.new guestCid maxPayload, .empty))
    (fun state op => allowed state.1 op) (table, ledger)

/-- A connection is named by a handle that was given out, or waits on a listener. -/
def Owned (held : List VsockStreamId) : Prop :=
  ∀ index connection, table.connections index = some connection →
    ⟨index, connection.generation⟩ ∈ held ∨
    ∃ slot listener, table.listeners slot = some listener ∧
      ⟨index, connection.generation⟩ ∈ listener.queued

end

/-- No two connections have the same addresses; a handle names the one connection that was
opened under it, and none once it is closed; and each connection has an owner. -/
structure Conserves (table : VsockTable) (ledger : Ledger) : Prop where
  pairs : ∀ index other connection connection', table.connections index = some connection →
    table.connections other = some connection' → connection.localAddr = connection'.localAddr →
    connection.peer = connection'.peer → index = other
  distinct : ledger.opened.Nodup
  named : ∀ index connection, table.connections index = some connection →
    ⟨index, connection.generation⟩ ∈ ledger.opened
  closed : ∀ stream ∈ ledger.closed, table.connection stream = .error .unknownHandle
  owned : Owned table ledger.held

/-! ### Steps -/

namespace Ledger

theorem mem_filled :
  stream ∈ filled table table' ↔ stream.index < maxVsockConnections ∧
    table.connections stream.index = none ∧ ∃ connection,
      table'.connections stream.index = some connection ∧
      connection.generation = stream.generation
  := by
  rw [filled, mem_filterMap]
  constructor
  · rintro ⟨index, hindex, hstream⟩
    split at hstream <;> cases hstream
    rename_i connection hbefore hafter
    exact ⟨mem_range.mp hindex, hbefore, connection, hafter, rfl⟩
  · rintro ⟨hindex, hbefore, connection, hafter, hgeneration⟩
    refine ⟨stream.index, mem_range.mpr hindex, ?_⟩
    rw [hbefore, hafter]
    simp only [hgeneration]

theorem nodup_filled (table table' : VsockTable) :
  (filled table table').Nodup
  := by
  apply nodup_range.filterMap
  intro index other stream hstream hother
  have hindex : ∀ position, stream ∈ (match table.connections position,
      table'.connections position with
      | none, some connection => some (VsockStreamId.mk position connection.generation)
      | _, _ => none) → stream.index = position := by
    intro position hmem
    split at hmem <;> cases hmem
    rfl
  rw [← hindex index hstream, ← hindex other hother]

end Ledger

/-- What holds of a table and its ledger while generations are not used twice. -/
structure Accounts (table : VsockTable) (ledger : Ledger) : Prop where
  generation : table.nextGeneration = ledger.opens % (2 ^ 32 - 1) + 1
  fresh : ∀ stream ∈ ledger.opened, stream.generation ≤ ledger.opens
  distinct : ledger.opened.Nodup
  named : ∀ index connection, table.connections index = some connection →
    ⟨index, connection.generation⟩ ∈ ledger.opened
  closed : ∀ stream ∈ ledger.closed, stream ∈ ledger.opened ∧
    ∀ connection, table.connections stream.index = some connection →
      connection.generation ≠ stream.generation
  owned : Owned table ledger.held

theorem generationAfter_eq (opens : Nat) :
  generationAfter (opens % (2 ^ 32 - 1) + 1) = (opens + 1) % (2 ^ 32 - 1) + 1
  := by
  have hlt := mod_lt opens (show 0 < 2 ^ 32 - 1 by decide)
  rw [generationAfter, add_mod opens 1]
  generalize opens % (2 ^ 32 - 1) = rest at hlt ⊢
  rcases Nat.lt_or_ge (rest + 1) (2 ^ 32 - 1) with hless | hge
  · omega
  · have hrest : rest = 2 ^ 32 - 2 := by omega
    rw [hrest]
    decide

theorem generationAfter_ne (opens : Nat) :
  generationAfter (opens % (2 ^ 32 - 1) + 1) ≠ opens % (2 ^ 32 - 1) + 1
  := by
  rw [generationAfter_eq, add_mod opens 1]
  omega

variable {ledger : Ledger}

variable {ledger' : Ledger}

/-- Every connection of the second table continues one of the first under its handle. -/
def Continues (table table' : VsockTable) : Prop :=
  ∀ index connection', table'.connections index = some connection' →
    ∃ connection, table.connections index = some connection ∧
      connection'.generation = connection.generation

theorem Ledger.filled_eq_nil (h : Continues table table') :
  filled table table' = []
  := by
  apply eq_nil_iff_forall_not_mem.mpr
  intro stream hstream
  obtain ⟨_, hnone, connection, hsome, _⟩ := Ledger.mem_filled.mp hstream
  obtain ⟨_, hbefore, _⟩ := h _ _ hsome
  cases hnone.symm.trans hbefore

theorem Ledger.opens_le (ledger : Ledger) (table table' : VsockTable) (op : Op) (answer : Answer) :
  ledger.opens ≤ (ledger.after table op answer table').opens
  := by
  rw [Ledger.after]
  simp only
  split <;> omega

/-- Without new connections, a ledger stays right when the handles it holds and the queues
still own every connection. -/
theorem Accounts.keep (h : Accounts table ledger) (hsame : Continues table table')
    (hgeneration : table'.nextGeneration = table.nextGeneration ∨
      table'.nextGeneration = generationAfter table.nextGeneration)
    (hclosed : ∀ stream ∈ Ledger.consumed op answer, stream ∈ ledger.opened ∧
      table'.connections stream.index = none)
    (howned : Owned table' (ledger.after table op answer table').held) :
  Accounts table' (ledger.after table op answer table')
  := by
  have hopened : (ledger.after table op answer table').opened = ledger.opened := by
    rw [Ledger.after, Ledger.filled_eq_nil hsame, append_nil]
  constructor
  · rw [Ledger.after]
    split_ifs with heq
    · rw [heq]
      exact h.generation
    · rw [hgeneration.resolve_left heq, h.generation, generationAfter_eq]
  · intro stream hstream
    rw [hopened] at hstream
    exact Nat.le_trans (h.fresh stream hstream) (ledger.opens_le ..)
  · rw [hopened]
    exact h.distinct
  · intro index connection' hconnection'
    obtain ⟨connection, hconnection, heq⟩ := hsame index connection' hconnection'
    rw [hopened, heq]
    exact h.named index connection hconnection
  · intro stream hstream
    rw [hopened]
    rcases mem_append.mp hstream with hold | hnew
    · obtain ⟨hmem, hgone⟩ := h.closed stream hold
      refine ⟨hmem, ?_⟩
      intro connection' hconnection'
      obtain ⟨connection, hconnection, heq⟩ := hsame stream.index connection' hconnection'
      rw [heq]
      exact hgone connection hconnection
    · obtain ⟨hmem, hgone⟩ := hclosed stream (mem_toList.mp hnew)
      refine ⟨hmem, ?_⟩
      intro connection hconnection
      rw [hgone] at hconnection
      cases hconnection
  · exact howned

/-- A connection opened under the next generation has a handle of its own. -/
theorem Accounts.open (h : Accounts table ledger) (hlt : ledger.opens + 1 < 2 ^ 32)
    (hfree : table.connections index = none) (hadded : added.generation = table.nextGeneration)
    (hconnections : table'.connections = update table.connections index (some added))
    (hnext : table'.nextGeneration = generationAfter table.nextGeneration)
    (hopens : ledger'.opens = ledger.opens + 1)
    (hopened : ledger'.opened = ledger.opened ++ [⟨index, table.nextGeneration⟩])
    (hclosed : ledger'.closed = ledger.closed) (howned : Owned table' ledger'.held) :
  Accounts table' ledger'
  := by
  have hgeneration := h.generation
  have hnew : (⟨index, table.nextGeneration⟩ : VsockStreamId) ∉ ledger.opened := by
    intro hmem
    have hle := h.fresh _ hmem
    simp only at hle
    omega
  constructor
  · rw [hnext, hopens, h.generation, generationAfter_eq]
  · intro stream hstream
    rw [hopened, mem_append, mem_singleton] at hstream
    rw [hopens]
    rcases hstream with hstream | rfl
    · exact le_succ_of_le (h.fresh stream hstream)
    · simp only
      omega
  · rw [hopened]
    apply h.distinct.append (nodup_singleton _)
    intro stream hstream hother
    rw [mem_singleton.mp hother] at hstream
    exact hnew hstream
  · intro other connection hconnection
    rw [hopened]
    rw [hconnections] at hconnection
    rcases Updates.put hconnection with ⟨rfl, rfl⟩ | ⟨_, hconnection⟩
    · rw [hadded]
      exact mem_append_right _ (mem_singleton.mpr rfl)
    · exact mem_append_left _ (h.named other connection hconnection)
  · intro stream hstream
    rw [hclosed] at hstream
    obtain ⟨hmem, hgone⟩ := h.closed stream hstream
    refine ⟨hopened ▸ mem_append_left _ hmem, ?_⟩
    intro connection hconnection
    rw [hconnections] at hconnection
    rcases Updates.put hconnection with ⟨_, rfl⟩ | ⟨_, hconnection⟩
    · have hle := h.fresh stream hmem
      omega
    · exact hgone connection hconnection
  · exact howned

theorem Ledger.filled_eq_singleton (hindex : index < maxVsockConnections)
    (hfree : table.connections index = none)
    (h : table'.connections = update table.connections index (some added)) :
  filled table table' = [⟨index, added.generation⟩]
  := by
  have hmem : ∀ stream, stream ∈ filled table table' ↔ stream = ⟨index, added.generation⟩ := by
    intro stream
    rw [Ledger.mem_filled, h]
    constructor
    · rintro ⟨_, hnone, connection, hsome, hgeneration⟩
      rcases Updates.put hsome with ⟨heq, rfl⟩ | ⟨_, hsome⟩
      · rw [← heq, hgeneration]
      · cases hnone.symm.trans hsome
    · rintro rfl
      exact ⟨hindex, hfree, added, update_self .., rfl⟩
  have hnodup := Ledger.nodup_filled table table'
  rw [← perm_singleton, perm_ext_iff_of_nodup hnodup (nodup_singleton _)]
  intro stream
  rw [hmem, mem_singleton]

/-- A handle of a connection in a slot. -/
def VsockTable.Names (table : VsockTable) (stream : VsockStreamId) : Prop :=
  ∃ connection, table.connections stream.index = some connection ∧
    connection.generation = stream.generation

theorem VsockTable.Sound.not_waitless (h : table.Sound) {listener : VsockListener}
    (hstream : stream ∈ listener.queued) (hnames : table.Names stream) :
  ¬ table.Waitless listener
  := by
  intro hwaitless
  obtain ⟨connection, hconnection, hgeneration⟩ := hnames
  obtain ⟨_, hother⟩ := connection_eq_error (hwaitless stream hstream)
  exact hother connection (h.bound _ _ hconnection) hconnection hgeneration

/-- A handle waits on a listener. -/
def VsockTable.Queues (table : VsockTable) (stream : VsockStreamId) : Prop :=
  ∃ slot listener, table.listeners slot = some listener ∧ stream ∈ listener.queued

theorem VsockTable.Queues.update {slot : Nat} {before after : Option VsockListener}
    (h : table.Queues stream) (hbefore : table.listeners slot = before)
    (hlisteners : table'.listeners = update table.listeners slot after) :
  table'.Queues stream ∨ ∃ listener, before = some listener ∧ stream ∈ listener.queued
  := by
  obtain ⟨slot', listener, hlistener, hstream⟩ := h
  by_cases hslot : slot' = slot
  · right
    rw [← hbefore, ← hslot]
    exact ⟨listener, hlistener, hstream⟩
  · left
    refine ⟨slot', listener, ?_, hstream⟩
    rw [hlisteners, update_of_ne hslot]
    exact hlistener

/-- A connection with an owner keeps it when no handle is consumed and no connection is dropped
from a queue. -/
theorem Owned.mono {held held' : List VsockStreamId} (h : Owned table held)
    (hsame : Continues table table') (hheld : ∀ index connection, table'.connections index = some
      connection → ⟨index, connection.generation⟩ ∈ held → ⟨index, connection.generation⟩ ∈ held')
    (hqueues : ∀ stream, table.Queues stream → table.Names stream →
      stream ∈ held' ∨ table'.Queues stream) :
  Owned table' held'
  := by
  intro index connection' hconnection'
  obtain ⟨connection, hconnection, heq⟩ := hsame index connection' hconnection'
  rcases h index connection hconnection with hmem | hqueued
  · left
    apply hheld index connection' hconnection'
    rw [heq]
    exact hmem
  · rw [heq]
    exact hqueues _ hqueued ⟨connection, hconnection, rfl⟩

theorem VsockConnection.step_issued (maxPayload : Nat) (connection : VsockConnection) (op : Op) :
  (connection.step maxPayload op).1.issued? = none
  := by
  cases op with
  | packet header payload =>
    rw [step]
    cases header.op <;> rfl
  | _ => rfl

/-- An operation on a connection, or one that answers with an error, consumes no handle. -/
theorem Ledger.consumed_eq_none
    (h : ∀ stream, op = .close stream → ∃ error, answer = .notice (.error error)) :
  Ledger.consumed op answer = none
  := by
  cases op with
  | close stream =>
    obtain ⟨error, rfl⟩ := h stream rfl
    rfl
  | _ => rfl

/-- A step that neither opens nor closes a connection nor gives out a handle, and leaves the
queues. -/
theorem Accounts.step_quiet (h : Accounts table ledger) (hissued : answer.issued? = none)
    (hconsumed : Ledger.consumed op answer = none) (hsame : Continues table table')
    (hgeneration : table'.nextGeneration = table.nextGeneration ∨
      table'.nextGeneration = generationAfter table.nextGeneration)
    (hqueues : ∀ stream, table.Queues stream → table.Names stream → table'.Queues stream) :
  Accounts table' (ledger.after table op answer table')
  := by
  have hheld : (ledger.after table op answer table').held = ledger.held := by
    simp [Ledger.after, hissued, hconsumed]
  apply h.keep hsame hgeneration
  · rw [hconsumed]
    nofun
  · rw [hheld]
    apply h.owned.mono hsame (fun _ _ _ => id)
    intro stream hstream hnames
    exact .inr (hqueues stream hstream hnames)

/-- A step that opens a connection, which is given out or queued, and drops none from a queue. -/
theorem Accounts.step_open (h : Accounts table ledger)
    (hopens : (ledger.after table op answer table').opens < 2 ^ 32)
    (hindex : index < maxVsockConnections) (hfree : table.connections index = none)
    (hadded : added.generation = table.nextGeneration) (hconnections : table'.connections =
      update table.connections index (some added)) (hnext : table'.nextGeneration =
      generationAfter table.nextGeneration)
    (hconsumed : Ledger.consumed op answer = none) (hnew : answer.issued? = some ⟨index,
      added.generation⟩ ∨ table'.Queues ⟨index, added.generation⟩)
    (hqueues : ∀ stream, table.Queues stream → table.Names stream → table'.Queues stream) :
  Accounts table' (ledger.after table op answer table')
  := by
  have hchanged : ¬ table'.nextGeneration = table.nextGeneration := by
    rw [hnext, h.generation]
    exact generationAfter_ne _
  have hcount : (ledger.after table op answer table').opens = ledger.opens + 1 :=
    if_neg hchanged
  rw [hcount] at hopens
  apply h.open hopens hfree hadded hconnections hnext hcount
  · rw [Ledger.after, Ledger.filled_eq_singleton hindex hfree hconnections, hadded]
  · simp [Ledger.after, hconsumed]
  · have hheld : (ledger.after table op answer table').held =
        ledger.held ++ answer.issued?.toList := by
      simp [Ledger.after, hconsumed]
    intro other connection hconnection
    rw [hconnections] at hconnection
    rw [hheld, mem_append]
    rcases Updates.put hconnection with ⟨rfl, rfl⟩ | ⟨_, hconnection⟩
    · apply hnew.imp_left
      intro hissued
      right
      rw [hissued]
      exact mem_singleton.mpr rfl
    · exact (h.owned other connection hconnection).imp .inl
        (hqueues _ · ⟨connection, hconnection, rfl⟩)

/-- A step that drops no connection from a queue leaves the accounts right, as long as
generations are not used twice. -/
theorem Accounts.step (h : Accounts table ledger) (hsound : table.Sound)
    (hfollows : Follows table op answer table') (hkeeps : table.Keeps op)
    (hopens : (ledger.after table op answer table').opens < 2 ^ 32) :
  Accounts table' (ledger.after table op answer table')
  := by
  obtain ⟨_, _, hchanges⟩ := hfollows
  generalize hconnections : table'.connections = connections at hchanges
  generalize hlisteners : table'.listeners = listeners at hchanges
  generalize hnext : table'.nextGeneration = next at hchanges
  have hsame : connections = table.connections → Continues table table' := by
    rintro rfl index connection hconnection
    rw [hconnections] at hconnection
    exact ⟨connection, hconnection, rfl⟩
  have hqueues : listeners = table.listeners →
      ∀ stream, table.Queues stream → table.Names stream → table'.Queues stream := by
    rintro rfl stream hstream _
    rw [Queues, hlisteners]
    exact hstream
  cases hchanges with
  | idle hquiet hmissed hclose hreset =>
    exact h.step_quiet hquiet.issued (Ledger.consumed_eq_none hclose) (hsame rfl) (.inl hnext)
      (hqueues rfl)
  | unlistened => exact h.step_quiet rfl rfl (hsame rfl) (.inr hnext) (hqueues rfl)
  | listened hfree =>
    apply h.step_quiet rfl rfl (hsame rfl) (.inr hnext)
    intro stream hstream _
    obtain hqueued | ⟨_, ⟨⟩, _⟩ := hstream.update hfree hlisteners
    exact hqueued
  | @accepted listener bound hbound =>
    apply h.keep (hsame rfl) (.inl hnext) (by rintro _ ⟨⟩)
    apply h.owned.mono (hsame rfl)
    · intro index connection _ hmem
      apply mem_append_left
      rw [mem_filter]
      exact ⟨hmem, rfl⟩
    · intro stream hstream _
      rcases hstream.update hbound hlisteners with hqueued | ⟨_, ⟨⟩, hstream⟩
      · exact .inr hqueued
      · -- The first in the queue is given out, and the others stay.
        cases hqueue : bound.queued with
        | nil =>
          rw [hqueue] at hstream
          cases hstream
        | cons first rest =>
          rw [hqueue] at hstream
          rcases mem_cons.mp hstream with rfl | hrest
          · left
            apply mem_append_right
            simp [Answer.issued?]
          · right
            refine ⟨listener.index, { bound with queued := bound.queued.tail }, ?_, ?_⟩
            · rw [hlisteners, update_self]
            · simp only [hqueue]
              exact hrest
  | @unbound listener bound hbound hgeneration =>
    apply h.step_quiet rfl rfl (hsame rfl) (.inl hnext)
    intro stream hstream hnames
    rcases hstream.update hbound hlisteners with hqueued | ⟨_, ⟨⟩, hstream⟩
    · exact hqueued
    · exact absurd (hkeeps bound hbound hgeneration) (hsound.not_waitless hstream hnames)
  | connected hindex hfree hunused =>
    exact h.step_open hopens hindex hfree rfl hconnections hnext rfl (.inl rfl) (hqueues rfl)
  | @requested header payload index slot listener hindex hrequest hcid hfree hunused hlistener =>
    have hlast : table'.listeners slot = some { listener with
        queued := listener.queued ++ [⟨index, table.nextGeneration⟩] } := by
      rw [hlisteners, update_self]
    apply h.step_open hopens hindex hfree rfl hconnections hnext rfl
    · right
      refine ⟨slot, _, hlast, ?_⟩
      exact mem_append_right _ (mem_singleton.mpr rfl)
    · intro stream hstream _
      rcases hstream.update hlistener hlisteners with hqueued | ⟨_, ⟨⟩, hstream⟩
      · exact hqueued
      · exact ⟨slot, _, hlast, mem_append_left _ hstream⟩
  | @acted _ index connection hindex hconnection htargets =>
    have hupdate : Continues table table' := by
      intro other connection' hother
      rw [hconnections] at hother
      rcases Updates.put hother with ⟨rfl, rfl⟩ | ⟨_, hother⟩
      · have hkey := (connection.step_keeps table.maxPayload op other).1
        exact ⟨connection, hconnection, (VsockStreamId.mk.inj (ConnectionKey.mk.inj hkey).1).2⟩
      · exact ⟨connection', hother, rfl⟩
    apply h.step_quiet (connection.step_issued _ _) _ hupdate (.inl hnext) (hqueues rfl)
    apply Ledger.consumed_eq_none
    rintro stream rfl
    exact absurd htargets id
  | @closed index connection hindex hconnection =>
    have hupdate : ∀ other connection', table'.connections other = some connection' →
        other ≠ index ∧ table.connections other = some connection' := by
      intro other connection' hother
      rw [hconnections] at hother
      exact Updates.take hother
    have hcontinues : Continues table table' := fun other connection' hother =>
      ⟨connection', (hupdate other connection' hother).2, rfl⟩
    apply h.keep hcontinues (.inl hnext)
    · rintro stream ⟨⟩
      refine ⟨h.named index connection hconnection, ?_⟩
      rw [hconnections, update_self]
    · apply h.owned.mono hcontinues
      · intro other connection' hother hmem
        apply mem_append_left
        rw [mem_filter, decide_eq_true_eq]
        refine ⟨hmem, ?_⟩
        simp only [Ledger.consumed, ne_eq, some.injEq]
        intro heq
        exact (hupdate other connection' hother).1 (VsockStreamId.mk.inj heq).1.symm
      · exact fun stream hstream hnames => .inr (hqueues rfl stream hstream hnames)
  | reset =>
    apply h.step_quiet rfl rfl _ (.inl hnext)
    · rintro stream ⟨slot, listener, hlistener, hstream⟩ hnames
      exact absurd (hkeeps slot listener hlistener) (hsound.not_waitless hstream hnames)
    · intro index connection' hconnection'
      rw [hconnections] at hconnection'
      obtain ⟨connection, hconnection, rfl⟩ := map_eq_some_iff.mp hconnection'
      exact ⟨connection, hconnection, rfl⟩

theorem accounts_new (guestCid maxPayload : Nat) :
  Accounts (new guestCid maxPayload) .empty
  := by
  constructor
  · rfl
  · nofun
  · exact nodup_nil
  · nofun
  · nofun
  · nofun

/-! ### Runs -/

theorem Conducted.accounts (h : Conducted Keeps guestCid maxPayload table ledger) :
  table.Sound ∧ (ledger.opens < 2 ^ 32 → Accounts table ledger)
  := by
  apply @Reachable.invariant _ _ _ _ _ _ _
    (fun state => state.1.Sound ∧ (state.2.opens < 2 ^ 32 → Accounts state.1 state.2)) _ _ _ h
  · rintro _ rfl
    exact ⟨sound_new .., fun _ => accounts_new ..⟩
  · rintro ⟨table, ledger⟩ op ⟨table', ledger'⟩ answer ⟨hsound, haccounts⟩ hkeeps hstep
    obtain ⟨htaken, rfl⟩ := instrument_eq_ok hstep
    obtain ⟨hfollows, hsound'⟩ := hsound.step htaken
    refine ⟨hsound', ?_⟩
    rw [Ledger.note, htaken]
    intro hopens
    have hbefore := Nat.lt_of_le_of_lt (ledger.opens_le table table' op answer) hopens
    exact (haccounts hbefore).step hsound hfollows hkeeps hopens

/-- In a run in which no listener is closed and no transport is reset while connections wait in
a queue, with fewer than `2 ^ 32` opens, every slot is conserved. -/
theorem slots_conserved {guestCid maxPayload : Nat} {table : VsockTable} {ledger : Ledger}
    (h : Conducted Keeps guestCid maxPayload table ledger)
    (hopens : ledger.opens < 2 ^ 32) :
  Conserves table ledger
  := by
  obtain ⟨hsound, haccounts⟩ := h.accounts
  have haccounts := haccounts hopens
  refine { haccounts with pairs := ?_, closed := ?_ }
  · exact hsound.pairs
  · intro stream hstream
    obtain ⟨_, hgone⟩ := haccounts.closed stream hstream
    rw [connection]
    split
    · split
      · rename_i connection hconnection
        rw [if_neg (hgone connection hconnection)]
      · rfl
    · rfl

/-- An operation that may drop a queue. -/
def Op.drops : Op → Bool
  | .closeListener _ | .resetAll => true
  | _ => false

theorem Conducted.of_run {ops : List Op} (h : runAllowed (instrument
      step Ledger.note) (fun _ op => op.drops = false) (.new guestCid maxPayload,
      .empty) ops = some (table, ledger)) :
  Conducted Keeps guestCid maxPayload table ledger
  := by
  have hstart : Conducted (fun _ op => op.drops = false) guestCid maxPayload
      (.new guestCid maxPayload) .empty := .start rfl
  apply (Reachable.of_runAllowed hstart h).mono
  intro state op hdrops
  cases op with
  | closeListener listener | resetAll => cases hdrops
  | listen | accept | connect | beginWrite | finishWrite | creditRequest | read | shutdown | close
  | packet => trivial

def hostRequest : VsockPacketHeader := ⟨⟨2, 1024⟩, ⟨3, 9000⟩, .request, 0, 0, 65536, 0⟩

/-- A connection is requested, accepted and closed, and another is requested and accepted. -/
theorem slots_conserved_sample :
  ∃ table ledger, Conducted Keeps 3 4096 table ledger ∧ ledger.opens = 3 ∧
    ledger.closed = [⟨0, 2⟩] ∧ ledger.held = [⟨0, 3⟩] ∧ Conserves table ledger
  := by
  have hrun : (runAllowed (instrument step Ledger.note)
      (fun _ op => op.drops = false) (.new 3 4096, .empty)
      [.listen 9000 4, .packet hostRequest [], .accept ⟨0, 1⟩, .close ⟨0, 2⟩,
        .packet hostRequest [], .accept ⟨0, 1⟩]).map
        (fun state => (state.2.opens, state.2.closed, state.2.held)) =
      some (3, [⟨0, 2⟩], [⟨0, 3⟩]) := by
    decide +kernel
  obtain ⟨⟨table, ledger⟩, hstate, hledger⟩ := map_eq_some_iff.mp hrun
  obtain ⟨hopens, hrest⟩ := Prod.mk.inj hledger
  obtain ⟨hclosed, hheld⟩ := Prod.mk.inj hrest
  have hconducted := Conducted.of_run hstate
  refine ⟨table, ledger, hconducted, hopens, hclosed, hheld, ?_⟩
  apply slots_conserved hconducted
  simp only at hopens
  omega

def listeningTable : VsockTable :=
  { (new 3 4096).setListener 0 ⟨1, 9000, 4, []⟩ with nextGeneration := 2 }

def hostConnection : VsockConnection :=
  (((VsockConnection.opened 2 ⟨3, 9000⟩ ⟨2, 1024⟩ .established).absorbPeerCredit
    hostRequest).header .response).2

def queuedTable : VsockTable :=
  { ((listeningTable.setConnection 0 (.opened 2 ⟨3, 9000⟩ ⟨2, 1024⟩ .established)).setConnection 0
      hostConnection).setListener 0 ⟨1, 9000, 4, [⟨0, 2⟩]⟩ with
    nextGeneration := 3 }

theorem queuedTable_conducted :
  Conducted (fun _ _ => True) 3 4096 queuedTable ⟨[⟨0, 2⟩], [], [], 2⟩
  := by
  have hnew : Conducted (fun _ _ => True) 3 4096 (.new 3 4096) .empty := .start rfl
  have hlisten : Conducted (fun _ _ => True) 3 4096 listeningTable ⟨[], [], [], 1⟩ :=
    @Reachable.next _ _ _ _ _ _ _ _ _ (.listen 9000 4) (.listening (.ok ⟨0, 1⟩)) hnew
      trivial rfl
  exact @Reachable.next _ _ _ _ _ _ _ _ _ (.packet hostRequest []) _ hlisten trivial rfl

/-- A listener is closed while a connection waits in its queue.  The slot of the connection stays
taken: no handle was given out for it, and no queue holds it. -/
theorem queued_connection_stranded :
  ∃ table ledger, Conducted (fun _ _ => True) 3 4096 table ledger ∧ ledger.opens = 2 ∧
    (table.connections 0).isSome ∧ ¬ Owned table ledger.held
  := by
  refine ⟨{ queuedTable with listeners := update queuedTable.listeners 0 none },
    ⟨[⟨0, 2⟩], [], [], 2⟩, @Reachable.next _ _ _ _ _ _ _ _ _
    (.closeListener ⟨0, 1⟩) (.unbound (.ok ())) queuedTable_conducted trivial rfl, rfl, rfl, ?_⟩
  intro howned
  rcases howned 0 hostConnection rfl with hheld | ⟨slot, listener, hlistener, _⟩
  · cases hheld
  · simp [queuedTable, listeningTable, setListener, setConnection, new] at hlistener

end Helios.Vsock
