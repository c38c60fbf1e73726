import Helios.Kernel.AuthorityOrder
import Mathlib.Algebra.Group.Nat.Defs

/-!
# The table of processes

A child that is spawned has its authority compared with the caller's, a fork gets a copy of the
parent's, and no other operation touches an authority.  So every process in the table has an
ancestor that was registered as a root, whose grant contains the authority of the process and
everything that is derived from it.
-/

namespace Helios

open Transition List

inductive ProcessState where
  | running
  | exited (code : Nat)
  | signaled (signal : Nat)
  deriving DecidableEq, Repr

structure ProcessRecord where
  id : Nat
  parent : Option Nat
  authority : ProcessAuthority
  state : ProcessState

inductive ProcessTableError where
  | unknownProcess (id : Nat)
  | authorityWidening
  | processIdOverflow
  deriving DecidableEq, Repr

structure ProcessTable where
  nextId : Nat
  records : List ProcessRecord

namespace ProcessTable

variable {table table' : ProcessTable} {records : List ProcessRecord} {process : Nat}
  {state : ProcessState}

def new : ProcessTable := ⟨1, []⟩

def record (table : ProcessTable) (process : Nat) : Except ProcessTableError ProcessRecord :=
  match table.records.find? fun record => record.id = process with
  | some record => .ok record
  | none => .error (.unknownProcess process)

section

variable (table) (parent : Option Nat) (authority : ProcessAuthority)

def insert : Except ProcessTableError (ProcessTable × Nat) :=
  if table.nextId + 1 < 2 ^ 64 then
    .ok (⟨table.nextId + 1, table.records ++ [⟨table.nextId, parent, authority, .running⟩]⟩,
      table.nextId)
  else .error .processIdOverflow

def registerRoot : Except ProcessTableError (ProcessTable × Nat) :=
  table.insert none authority

def spawn (caller : Nat) (childAuthority : ProcessAuthority) :
    Except ProcessTableError (ProcessTable × Nat) := do
  let callerRecord ← table.record caller
  if !callerRecord.authority.containsAuthority childAuthority then .error .authorityWidening
  else table.insert (some caller) childAuthority

def fork (parent : Nat) : Except ProcessTableError (ProcessTable × Nat) := do
  let parentRecord ← table.record parent
  table.insert (some parent) parentRecord.authority

/-- Sets the state of the first record with an identifier. -/
def setState (process : Nat) (state : ProcessState) : List ProcessRecord → List ProcessRecord
  | [] => []
  | record :: records =>
    if record.id = process then { record with state } :: records
    else record :: setState process state records

def enter (process : Nat) (state : ProcessState) : Except ProcessTableError ProcessTable := do
  let _ ← table.record process
  .ok { table with records := setState process state table.records }

def exec (process : Nat) := table.enter process .running
def exit (process code : Nat) := table.enter process (.exited code)

end

def signal (table : ProcessTable) (process signal : Nat) := table.enter process (.signaled signal)

def join (table : ProcessTable) (process : Nat) : Except ProcessTableError (Option Nat) := do
  let record ← table.record process
  .ok (match record.state with
    | .exited code => some code
    | .running | .signaled _ => none)

/-! ### Runs -/

inductive Op where
  | registerRoot (authority : ProcessAuthority)
  | spawn (caller : Nat) (childAuthority : ProcessAuthority)
  | fork (parent : Nat)
  | exec (process : Nat)
  | exit (process code : Nat)
  | signal (process signal : Nat)

def step (table : ProcessTable) : Op → Except ProcessTableError (ProcessTable × Option Nat)
  | .registerRoot authority => (table.registerRoot authority).map fun (table, id) => (table, some id)
  | .spawn caller childAuthority =>
    (table.spawn caller childAuthority).map fun (table, id) => (table, some id)
  | .fork parent => (table.fork parent).map fun (table, id) => (table, some id)
  | .exec process => (table.exec process).map fun table => (table, none)
  | .exit process code => (table.exit process code).map fun table => (table, none)
  | .signal process signal => (table.signal process signal).map fun table => (table, none)

/-- A table after any operations on a new one. -/
def Reached (table : ProcessTable) : Prop :=
  Reachable step (fun table => table = new) (fun _ _ => True) table

/-- One process comes from another over the parents in the table. -/
inductive Descends (records : List ProcessRecord) : Nat → Nat → Prop where
  | refl (id : Nat) : Descends records id id
  | step {root parent : Nat} {record : ProcessRecord} : Descends records root parent →
      record ∈ records → record.parent = some parent → Descends records root record.id

/-- Every process comes from a root whose grant contains its authority. -/
def Rooted (records : List ProcessRecord) : Prop :=
  ∀ record ∈ records, ∃ root ∈ records, root.parent = none ∧ Descends records root.id record.id ∧
    root.authority.containsAuthority record.authority = true

theorem Descends.mono {records' : List ProcessRecord} {root id : Nat}
    (h : Descends records root id) (hsame : ∀ record ∈ records, ∃ record' ∈ records', record'.id =
      record.id ∧ record'.parent = record.parent) :
  Descends records' root id
  := by
  induction h with
  | refl => exact .refl _
  | step _ hmem hparent ih =>
    obtain ⟨record', hmem', hid, hparent'⟩ := hsame _ hmem
    rw [← hid]
    exact ih.step hmem' (hparent'.trans hparent)

/-- A record that is added for a process with no more than the process has is rooted. -/
theorem Rooted.concat (h : Rooted records) {added : ProcessRecord} (hadded : added.parent = none ∨
      ∃ parent ∈ records, added.parent = some parent.id ∧ parent.authority.containsAuthority
      added.authority = true) :
  Rooted (records ++ [added])
  := by
  have hkept : ∀ record ∈ records, ∃ record' ∈ records ++ [added], record'.id = record.id ∧
      record'.parent = record.parent :=
    fun record hrecord => ⟨record, mem_append_left _ hrecord, rfl, rfl⟩
  have hlast : added ∈ records ++ [added] := mem_append_right _ (mem_singleton.mpr rfl)
  intro record hrecord
  rcases mem_append.mp hrecord with hrecord | hrecord
  · obtain ⟨root, hroot, hparent, hdescends, hcontains⟩ := h record hrecord
    exact ⟨root, mem_append_left _ hroot, hparent, hdescends.mono hkept, hcontains⟩
  · rw [mem_singleton.mp hrecord]
    rcases hadded with hnone | ⟨parent, hmem, hparent, hcontains⟩
    · exact ⟨added, hlast, hnone, .refl _, ProcessAuthority.contains_self _⟩
    · obtain ⟨root, hroot, hnone, hdescends, hgrant⟩ := h parent hmem
      refine ⟨root, mem_append_left _ hroot, hnone, ?_,
        ProcessAuthority.contains_trans hgrant hcontains⟩
      exact (hdescends.mono hkept).step hlast hparent

/-- What a record is but for its state. -/
def kept (record : ProcessRecord) : Nat × Option Nat × ProcessAuthority :=
  (record.id, record.parent, record.authority)

/-- A change of state leaves every record what it is but for its state. -/
theorem map_setState (records : List ProcessRecord) :
  (setState process state records).map kept = records.map kept
  := by
  fun_induction setState process state records with
  | case1 | case2 => rfl
  | case3 first records hne ih => rw [map_cons, map_cons, ih]

theorem Rooted.setState (h : Rooted records) (process : Nat) (state : ProcessState) :
  Rooted (setState process state records)
  := by
  have hmap := @map_setState process state records
  have hforward : ∀ record ∈ records, ∃ record' ∈ ProcessTable.setState process state records,
      kept record' = kept record := by
    intro record hrecord
    rw [← mem_map, hmap]
    exact mem_map_of_mem hrecord
  intro record' hrecord'
  have hback := mem_map_of_mem (f := kept) hrecord'
  rw [hmap, mem_map] at hback
  obtain ⟨record, hrecord, hkept⟩ := hback
  obtain ⟨root, hroot, hnone, hdescends, hcontains⟩ := h record hrecord
  obtain ⟨root', hroot', hrootKept⟩ := hforward root hroot
  simp only [kept, Prod.mk.injEq] at hkept hrootKept hforward
  refine ⟨root', hroot', hrootKept.2.1.trans hnone, ?_, ?_⟩
  · rw [hrootKept.1, ← hkept.1]
    apply hdescends.mono
    intro other hother
    obtain ⟨other', hother', hid, hparent, _⟩ := hforward other hother
    exact ⟨other', hother', hid, hparent⟩
  · rw [hrootKept.2.2, ← hkept.2.2]
    exact hcontains

theorem record_eq_ok {record : ProcessRecord} (h : table.record process = .ok record) :
  record ∈ table.records ∧ record.id = process
  := by
  rw [ProcessTable.record] at h
  split at h <;> cases h
  rename_i found hfind
  have hid := find?_some hfind
  rw [decide_eq_true_eq] at hid
  exact ⟨mem_of_find?_eq_some hfind, hid⟩

theorem insert_eq_ok {parent : Option Nat} {authority : ProcessAuthority} {id : Nat}
    (h : table.insert parent authority = .ok (table', id)) :
  table'.records = table.records ++ [⟨table.nextId, parent, authority, .running⟩]
  := by
  rw [insert] at h
  split at h <;> cases h
  rfl

theorem enter_rooted (hrooted : Rooted table.records) (h : table.enter process state = .ok table') :
  Rooted table'.records
  := by
  obtain ⟨record, hrecord, heq⟩ := bind_eq_ok h
  cases heq
  exact hrooted.setState process state

theorem step_rooted {op : Op} {answer : Option Nat} (hrooted : Rooted table.records)
    (h : table.step op = .ok (table', answer)) :
  Rooted table'.records
  := by
  cases op with
  | registerRoot authority =>
    obtain ⟨⟨inserted, id⟩, hinsert, heq⟩ := map_eq_ok h
    cases heq
    rw [insert_eq_ok hinsert]
    exact hrooted.concat (Or.inl rfl)
  | spawn caller childAuthority =>
    obtain ⟨⟨inserted, id⟩, hspawn, heq⟩ := map_eq_ok h
    cases heq
    obtain ⟨record, hrecord, hspawn⟩ := bind_eq_ok hspawn
    obtain ⟨hmem, rfl⟩ := record_eq_ok hrecord
    split at hspawn
    · cases hspawn
    · rename_i hcontains
      rw [Bool.not_eq_true, Bool.not_eq_false'] at hcontains
      rw [insert_eq_ok hspawn]
      exact hrooted.concat (Or.inr ⟨record, hmem, rfl, hcontains⟩)
  | fork parent =>
    obtain ⟨⟨inserted, id⟩, hfork, heq⟩ := map_eq_ok h
    cases heq
    obtain ⟨record, hrecord, hfork⟩ := bind_eq_ok hfork
    obtain ⟨hmem, rfl⟩ := record_eq_ok hrecord
    rw [insert_eq_ok hfork]
    exact hrooted.concat (Or.inr ⟨record, hmem, rfl, ProcessAuthority.contains_self _⟩)
  | exec process | exit process code | signal process signal =>
    obtain ⟨entered, henter, heq⟩ := map_eq_ok h
    cases heq
    exact enter_rooted hrooted henter

theorem Reached.rooted (h : Reached table) :
  Rooted table.records
  := by
  apply @Reachable.invariant _ _ _ _ _ _ _ (fun table => Rooted table.records) _ _ _ h
  · rintro _ rfl record hrecord
    exact absurd hrecord not_mem_nil
  · intro table op table' answer hrooted _
    exact step_rooted hrooted

end ProcessTable

/-- Authority only shrinks.  What a contained authority allows the containing one allows;
containment is reflexive and transitive; a working directory derived from an authority adds
nothing to it, nor does what is derived after.  So no chain of spawns, forks, execs and changes of
directory exceeds what it starts from, and every process of a table is within the grant of the
root that it descends from. -/
theorem ProcessAuthority.authority_shrinks :
  (∀ parent child : ProcessAuthority, parent.containsAuthority child = true →
    ∀ request, child.allows request = true → parent.allows request = true) ∧
  (∀ authority : ProcessAuthority, authority.containsAuthority authority = true) ∧
  (∀ first second third : ProcessAuthority, first.containsAuthority second = true →
    second.containsAuthority third = true → first.containsAuthority third = true) ∧
  (∀ (authority : ProcessAuthority) sourcePath guestName rights cap,
    authority.deriveDirectoryCap sourcePath guestName rights = .ok cap →
    authority.containsAuthority (authority.chdir cap) = true ∧
    ∀ request, (authority.chdir cap).allows request = true → authority.allows request = true) ∧
  (∀ root authority, Chain root authority → root.containsAuthority authority = true) ∧
  (∀ table, ProcessTable.Reached table → ∀ record ∈ table.records, ∃ root ∈ table.records,
    root.parent = none ∧ ProcessTable.Descends table.records root.id record.id ∧
    ∀ authority, Chain record.authority authority →
      root.authority.containsAuthority authority = true)
  := by
  refine ⟨?_, contains_self, ?_, ?_, fun _ _ => Chain.contains, ?_⟩
  · intro parent child h request
    exact allows_of_contains h
  · intro first second third
    exact contains_trans
  · intro authority sourcePath guestName rights cap hcap
    have hcontains := contains_chdir hcap
    exact ⟨hcontains, fun request => allows_of_contains hcontains⟩
  · intro table hreached record hrecord
    obtain ⟨root, hroot, hnone, hdescends, hcontains⟩ := hreached.rooted record hrecord
    refine ⟨root, hroot, hnone, hdescends, ?_⟩
    intro authority hchain
    exact contains_trans hcontains hchain.contains

end Helios
