import Helios.Library.Transition
import Helios.Kernel.ProcessAuthority

/-!
# Containment of authorities

Containment is an order on what authorities allow: it is reflexive and transitive, and what the
smaller one allows or derives, the larger one does too.  A process that changes its working
directory to a directory it may use has nothing that it had not before.
-/

namespace Helios

variable {path directory : List Char} {width : Nat} {preopen : DirectoryPreopen}

open Segments DirectoryPreopen List

/-! ### Rights and directories -/

theorem containsRights_refl (rights : BitVec width) :
  containsRights rights rights = true
  := by
  simp [containsRights]

theorem containsRights_trans {first second third : BitVec width}
    (h : containsRights first second = true) (h' : containsRights second third = true) :
  containsRights first third = true
  := by
  rw [containsRights, beq_iff_eq] at h h' ⊢
  rw [← h', ← BitVec.and_assoc, h]

theorem directoryContains_iff_under (hroot : directory ≠ ['/']) :
  directoryContains directory path = true ↔ Under '/' directory path
  := by
  rw [directoryContains, if_neg hroot, Bool.or_eq_true, Bool.and_eq_true, beq_iff_eq, beq_iff_eq,
    isPrefixOf_iff_prefix, or_comm]
  apply or_congr Iff.rfl
  constructor
  · rintro ⟨⟨rest, rfl⟩, hhead⟩
    rw [drop_left] at hhead
    cases rest with
    | nil => cases hhead
    | cons first rest =>
      cases hhead
      exact ⟨rest, rfl⟩
  · rintro ⟨rest, rfl⟩
    rw [drop_left]
    exact ⟨prefix_append _ _, rfl⟩

theorem directoryContains_refl (h : FsPath.Resolved path) :
  directoryContains path path = true
  := by
  by_cases hroot : path = ['/']
  · rw [directoryContains, if_pos hroot, h.head]
    rfl
  · rw [directoryContains_iff_under hroot]
    exact Under.refl ..

theorem head_of_directoryContains (hdirectory : FsPath.Resolved directory)
    (h : directoryContains directory path = true) :
  path.head? = some '/'
  := by
  by_cases hroot : directory = ['/']
  · rw [directoryContains, if_pos hroot, beq_iff_eq] at h
    exact h
  · have hhead := hdirectory.head
    rcases (directoryContains_iff_under hroot).mp h with rfl | ⟨rest, rfl⟩
    · exact hhead
    · rw [head?_append, hhead]
      rfl

/-- A directory in a directory holds nothing that the outer one does not. -/
theorem directoryContains_trans {first second third : List Char} (hfirst : FsPath.Resolved first)
    (hsecond : FsPath.Resolved second) (h : directoryContains first second = true)
    (h' : directoryContains second third = true) :
  directoryContains first third = true
  := by
  by_cases hroot : first = ['/']
  · rw [directoryContains, if_pos hroot, head_of_directoryContains hsecond h']
    rfl
  · have hunder := (directoryContains_iff_under hroot).mp h
    have hinner : second ≠ ['/'] := by
      rintro rfl
      rcases hunder with heq | ⟨rest, heq⟩
      · exact hroot heq.symm
      · -- Nothing but the root is before the separator of the root.
        have hlength := congrArg length heq
        have hhead := hfirst.head
        cases first with
        | nil => cases hhead
        | cons first others =>
          simp only [length_append, length_cons, length_nil] at hlength
          omega
    rw [directoryContains_iff_under hroot]
    exact hunder.trans ((directoryContains_iff_under hinner).mp h')

namespace DirectoryPreopen

theorem covers_self (preopen : DirectoryPreopen) :
  preopen.covers preopen.sourcePath preopen.rights = true
  := by
  rw [covers, directoryContains_refl preopen.sourceResolved, containsRights_refl]
  rfl

variable {rights : BitVec 16}

theorem covers_trans {outer inner : DirectoryPreopen}
    (h : outer.covers inner.sourcePath inner.rights = true) (h' : inner.covers path rights = true) :
  outer.covers path rights = true
  := by
  rw [covers, Bool.and_eq_true] at h h' ⊢
  exact ⟨directoryContains_trans outer.sourceResolved inner.sourceResolved h.1 h'.1,
    containsRights_trans h.2 h'.2⟩

theorem new_eq_ok {sourcePath guestName : List Char}
    (h : new sourcePath guestName rights = .ok preopen) :
  normalizeAuthorityPath sourcePath = .ok preopen.sourcePath ∧ preopen.rights = rights
  := by
  rw [new] at h
  repeat' split at h
  all_goals cases h
  exact ⟨‹_›, rfl⟩

end DirectoryPreopen

namespace ProcessAuthority

variable {rights : BitVec 16} {sourcePath guestName : List Char}

variable {authority child grandchild : ProcessAuthority}

/-! ### The grants of an authority -/

/-- The directories an authority grants, the working directory last. -/
def grants (authority : ProcessAuthority) : List DirectoryPreopen :=
  authority.directoryPreopens ++ authority.cwd.toList

theorem hasDirectoryAuthority_iff :
  authority.hasDirectoryAuthority path rights = true ↔
    ∃ preopen ∈ authority.grants, preopen.covers path rights = true
  := by
  simp only [hasDirectoryAuthority, grants, Bool.or_eq_true, any_eq_true, mem_append]
  cases authority.cwd with
  | none => simp
  | some cwd =>
    simp only [Option.mem_toList, Option.some.injEq]
    constructor
    · rintro (⟨preopen, hmem, hcovers⟩ | hcovers)
      · exact ⟨preopen, Or.inl hmem, hcovers⟩
      · exact ⟨cwd, Or.inr rfl, hcovers⟩
    · rintro ⟨preopen, hmem | rfl, hcovers⟩
      · exact Or.inl ⟨preopen, hmem, hcovers⟩
      · exact Or.inr hcovers

/-- The rights of an authority that are not about directories. -/
structure HoldsRightsOf (authority child : ProcessAuthority) : Prop where
  network : containsRights authority.network child.network = true
  clock : containsRights authority.clock child.clock = true
  terminal : containsRights authority.terminal child.terminal = true
  process : containsRights authority.process child.process = true
  link : containsRights authority.link child.link = true

theorem containsAuthority_iff :
  authority.containsAuthority child = true ↔
    (∀ preopen ∈ child.grants,
      authority.hasDirectoryAuthority preopen.sourcePath preopen.rights = true) ∧
    authority.HoldsRightsOf child
  := by
  have hgrants : ((child.directoryPreopens.all fun preopen =>
      authority.hasDirectoryAuthority preopen.sourcePath preopen.rights) &&
      child.cwd.all fun cwd =>
        authority.hasDirectoryAuthority cwd.sourcePath cwd.rights) = true ↔
      ∀ preopen ∈ child.grants,
        authority.hasDirectoryAuthority preopen.sourcePath preopen.rights = true := by
    simp only [grants]
    cases child.cwd with
    | none => simp
    | some cwd => simp [or_imp, forall_and]
  rw [Bool.and_eq_true] at hgrants
  simp only [containsAuthority, Bool.and_eq_true]
  rw [hgrants]
  constructor
  · rintro ⟨⟨⟨⟨⟨hdirectories, hnetwork⟩, hclock⟩, hterminal⟩, hprocess⟩, hlink⟩
    exact ⟨hdirectories, hnetwork, hclock, hterminal, hprocess, hlink⟩
  · rintro ⟨hdirectories, hrights⟩
    exact ⟨⟨⟨⟨⟨hdirectories, hrights.network⟩, hrights.clock⟩, hrights.terminal⟩, hrights.process⟩,
      hrights.link⟩

/-- What a contained authority may do with a path, the containing one may do. -/
theorem hasDirectoryAuthority_of_contains (h : authority.containsAuthority child = true)
    (hchild : child.hasDirectoryAuthority path rights = true) :
  authority.hasDirectoryAuthority path rights = true
  := by
  obtain ⟨inner, hinner, hcovers⟩ := hasDirectoryAuthority_iff.mp hchild
  obtain ⟨outer, houter, hgrant⟩ :=
    hasDirectoryAuthority_iff.mp ((containsAuthority_iff.mp h).1 inner hinner)
  exact hasDirectoryAuthority_iff.mpr ⟨outer, houter, covers_trans hgrant hcovers⟩

theorem contains_self (authority : ProcessAuthority) :
  authority.containsAuthority authority = true
  := by
  rw [containsAuthority_iff]
  constructor
  · intro preopen hpreopen
    exact hasDirectoryAuthority_iff.mpr ⟨preopen, hpreopen, preopen.covers_self⟩
  · constructor <;> exact containsRights_refl _

theorem contains_trans (h : authority.containsAuthority child = true)
    (h' : child.containsAuthority grandchild = true) :
  authority.containsAuthority grandchild = true
  := by
  rw [containsAuthority_iff]
  obtain ⟨hdirectories, hrights⟩ := containsAuthority_iff.mp h'
  have houter := (containsAuthority_iff.mp h).2
  constructor
  · intro preopen hpreopen
    exact hasDirectoryAuthority_of_contains h (hdirectories preopen hpreopen)
  · constructor
    · exact containsRights_trans houter.network hrights.network
    · exact containsRights_trans houter.clock hrights.clock
    · exact containsRights_trans houter.terminal hrights.terminal
    · exact containsRights_trans houter.process hrights.process
    · exact containsRights_trans houter.link hrights.link

/-! ### Derivations -/

theorem deriveDirectoryPreopen_eq_ok
    (h : authority.deriveDirectoryPreopen sourcePath guestName rights = .ok preopen) :
  normalizeAuthorityPath sourcePath = .ok preopen.sourcePath ∧ preopen.rights = rights ∧
    authority.hasDirectoryAuthority preopen.sourcePath preopen.rights = true
  := by
  rw [deriveDirectoryPreopen] at h
  split at h
  · cases h
  · rename_i source hsource
    split at h
    · cases h
    · split at h
      · cases h
      · rename_i hallowed
        obtain ⟨hagain, hrights⟩ := new_eq_ok h
        -- The path has been resolved, so resolving it again leaves it as it is.
        rw [normalizeAuthorityPath_of_resolved (normalizeAuthorityPath_resolved hsource)] at hagain
        cases hagain
        rw [Bool.not_eq_true, Bool.not_eq_false'] at hallowed
        exact ⟨hsource, hrights, hrights ▸ hallowed⟩

theorem deriveDirectoryPreopen_of_contains (h : authority.containsAuthority child = true)
    (hchild : child.deriveDirectoryPreopen sourcePath guestName rights = .ok preopen) :
  authority.deriveDirectoryPreopen sourcePath guestName rights = .ok preopen
  := by
  obtain ⟨hsource, hrights, hallowed⟩ := deriveDirectoryPreopen_eq_ok hchild
  have houter := hasDirectoryAuthority_of_contains h hallowed
  rw [hrights] at hallowed houter
  rw [deriveDirectoryPreopen, hsource] at hchild ⊢
  simp only [hallowed, houter] at hchild ⊢
  exact hchild

theorem deriveRights_of_contains {held inner rights : BitVec width}
    {whenEmpty : ProcessAuthorityError} {exceeds : BitVec width → ProcessAuthorityError}
    (h : containsRights held inner = true)
    (hinner : (deriveRights inner rights whenEmpty exceeds).isOk = true) :
  (deriveRights held rights whenEmpty exceeds).isOk = true
  := by
  rw [deriveRights] at hinner ⊢
  split at hinner
  · cases hinner
  · split at hinner
    · cases hinner
    · rename_i hnonempty hcontains
      rw [Bool.not_eq_true, Bool.not_eq_false'] at hcontains
      rw [if_neg hnonempty, containsRights_trans h hcontains]
      exact hinner

theorem contains_chdir {cap : DirectoryCap}
    (h : authority.deriveDirectoryCap sourcePath guestName rights = .ok cap) :
  authority.containsAuthority (authority.chdir cap) = true
  := by
  rw [containsAuthority_iff]
  constructor
  · intro preopen hpreopen
    rw [grants, mem_append] at hpreopen
    rcases hpreopen with hpreopen | hpreopen
    · apply hasDirectoryAuthority_iff.mpr
      exact ⟨preopen, mem_append_left _ hpreopen, preopen.covers_self⟩
    · simp only [chdir, Option.mem_toList, Option.some.injEq] at hpreopen
      subst hpreopen
      obtain ⟨preopen, hderive, heq⟩ := Transition.bind_eq_ok h
      cases heq
      exact (deriveDirectoryPreopen_eq_ok hderive).2.2
  · constructor <;> exact containsRights_refl _

/-! ### Requests -/

/-- Everything that a process asks its authority for. -/
inductive Request where
  | directory (path : List Char) (rights : BitVec 16)
  | loadProgram (path : List Char)
  | writePath (path : List Char)
  | createOrReplacePath (path : List Char)
  | directoryPreopen (sourcePath guestName : List Char) (rights : BitVec 16)
  | directoryCap (sourcePath guestName : List Char) (rights : BitVec 16)
  | networkRights (rights : BitVec 16)
  | tcp
  | udp
  | dns
  | privilegedBind
  | multicast
  | networkAdmin
  | clockRights (rights : BitVec 8)
  | setWallClock
  | terminalRights (rights : BitVec 8)
  | terminalInput
  | terminalOutput
  | ttyControl
  | processRights (rights : BitVec 8)
  | spawn
  | exec
  | fork
  | join
  | signal
  | linkRights (rights : BitVec 8)
  | linkSource
  | linkTargetDirectory
  | symlinkCreate
  | symlinkRead

def allows (authority : ProcessAuthority) : Request → Bool
  | .directory path rights => authority.hasDirectoryAuthority path rights
  | .loadProgram path => authority.canLoadProgram path
  | .writePath path => authority.canWritePath path
  | .createOrReplacePath path => authority.canCreateOrReplacePath path
  | .directoryPreopen sourcePath guestName rights =>
    (authority.deriveDirectoryPreopen sourcePath guestName rights).isOk
  | .directoryCap sourcePath guestName rights =>
    (authority.deriveDirectoryCap sourcePath guestName rights).isOk
  | .networkRights rights => (authority.deriveNetworkRights rights).isOk
  | .tcp => authority.deriveTcpCap.isOk
  | .udp => authority.deriveUdpCap.isOk
  | .dns => authority.deriveDnsCap.isOk
  | .privilegedBind => authority.derivePrivilegedBindCap.isOk
  | .multicast => authority.deriveMulticastCap.isOk
  | .networkAdmin => authority.deriveNetworkAdminCap.isOk
  | .clockRights rights => (authority.deriveClockRights rights).isOk
  | .setWallClock => authority.deriveSetWallClockCap.isOk
  | .terminalRights rights => (authority.deriveTerminalRights rights).isOk
  | .terminalInput => authority.deriveTerminalInputCap.isOk
  | .terminalOutput => authority.deriveTerminalOutputCap.isOk
  | .ttyControl => authority.deriveTtyControlCap.isOk
  | .processRights rights => (authority.deriveProcessRights rights).isOk
  | .spawn => authority.deriveSpawnAuthority.isOk
  | .exec => authority.deriveExecAuthority.isOk
  | .fork => authority.deriveForkAuthority.isOk
  | .join => authority.deriveJoinAuthority.isOk
  | .signal => authority.deriveSignalAuthority.isOk
  | .linkRights rights => (authority.deriveLinkRights rights).isOk
  | .linkSource => authority.deriveLinkSourceCap.isOk
  | .linkTargetDirectory => authority.deriveLinkTargetDirectoryCap.isOk
  | .symlinkCreate => authority.deriveSymlinkCreateCap.isOk
  | .symlinkRead => authority.deriveSymlinkReadCap.isOk

theorem isOk_mono {α : Type} {inner outer : Except ProcessAuthorityError α}
    (h : ∀ value, inner = .ok value → outer = .ok value) (hinner : inner.isOk = true) :
  outer.isOk = true
  := by
  cases inner with
  | error error => cases hinner
  | ok value =>
    rw [h value rfl]
    rfl

-- Whether fixed rights are empty is not decided, so that all the rights are derived alike.
attribute [local irreducible] deriveRights in
theorem allows_of_contains (h : authority.containsAuthority child = true) {request : Request}
    (hchild : child.allows request = true) :
  authority.allows request = true
  := by
  have hrights := (containsAuthority_iff.mp h).2
  cases request with
  | directory path rights | writePath path | createOrReplacePath path =>
    exact hasDirectoryAuthority_of_contains h hchild
  | loadProgram path =>
    rw [allows, canLoadProgram, Bool.or_eq_true] at hchild ⊢
    exact hchild.imp (hasDirectoryAuthority_of_contains h) (hasDirectoryAuthority_of_contains h)
  | directoryPreopen sourcePath guestName rights =>
    exact isOk_mono (fun _ => deriveDirectoryPreopen_of_contains h) hchild
  | directoryCap sourcePath guestName rights =>
    apply isOk_mono _ hchild
    intro cap hcap
    obtain ⟨preopen, hderive, heq⟩ := Transition.bind_eq_ok hcap
    rw [deriveDirectoryCap, deriveDirectoryPreopen_of_contains h hderive]
    exact heq
  | networkRights | tcp | udp | dns | privilegedBind | multicast | networkAdmin =>
    exact deriveRights_of_contains hrights.network hchild
  | clockRights | setWallClock =>
    exact deriveRights_of_contains hrights.clock hchild
  | terminalRights | terminalInput | terminalOutput | ttyControl =>
    exact deriveRights_of_contains hrights.terminal hchild
  | processRights | spawn | exec | fork | join | signal =>
    exact deriveRights_of_contains hrights.process hchild
  | linkRights | linkSource | linkTargetDirectory | symlinkCreate | symlinkRead =>
    exact deriveRights_of_contains hrights.link hchild

-- The root grant allows what a narrower grant does.
example : (root.toOption.any fun root => root.allows (.directoryPreopen ['/', 'b', 'i', 'n'] ['/'] 9)) = true
  := by decide

/-! ### Chains of derivations -/

/-- The authorities that come from one by starting, forking and replacing processes and by
changing the working directory. -/
inductive Chain : ProcessAuthority → ProcessAuthority → Prop where
  | refl (authority : ProcessAuthority) : Chain authority authority
  | spawn {authority caller child : ProcessAuthority} : Chain authority caller →
      caller.containsAuthority child = true → Chain authority child
  | fork {authority parent : ProcessAuthority} : Chain authority parent →
      Chain authority parent.forkInherited
  | exec {authority process : ProcessAuthority} : Chain authority process →
      Chain authority process.execPreserved
  | chdir {authority process : ProcessAuthority} {sourcePath guestName : List Char}
      {rights : BitVec 16} {cap : DirectoryCap} : Chain authority process →
      process.deriveDirectoryCap sourcePath guestName rights = .ok cap →
      Chain authority (process.chdir cap)

/-- No chain goes beyond where it started. -/
theorem Chain.contains (h : Chain authority child) :
  authority.containsAuthority child = true
  := by
  induction h with
  | refl => exact contains_self _
  | spawn _ hcontains ih => exact contains_trans ih hcontains
  | fork _ ih | exec _ ih => exact ih
  | chdir _ hcap ih => exact contains_trans ih (contains_chdir hcap)

end ProcessAuthority

end Helios
