import Helios.Kernel.FsPath

/-!
# What a process may do

An authority is a union of directory grants, the working directory among them, and a set of
rights for each of the other resources.  Everything a process asks for is checked against it,
and a child's authority is compared with its parent's before the child is started.
-/

namespace Helios

/-! ### Rights -/

def containsRights {width : Nat} (held wanted : BitVec width) : Bool := held &&& wanted == wanted

namespace DirectoryRights

def read : BitVec 16 := 1
def write : BitVec 16 := 2
def mutateDirectory : BitVec 16 := 4
def execute : BitVec 16 := 8

end DirectoryRights

namespace NetworkRights

def tcp : BitVec 16 := 1
def udp : BitVec 16 := 2
def dns : BitVec 16 := 4
def privilegedBind : BitVec 16 := 8
def multicast : BitVec 16 := 16
def admin : BitVec 16 := 32

end NetworkRights

namespace ClockRights

def setWallClock : BitVec 8 := 1

end ClockRights

namespace TerminalRights

def input : BitVec 8 := 1
def output : BitVec 8 := 2
def control : BitVec 8 := 4

end TerminalRights

namespace ProcessRights

def spawn : BitVec 8 := 1
def exec : BitVec 8 := 2
def fork : BitVec 8 := 4
def join : BitVec 8 := 8
def signal : BitVec 8 := 16

end ProcessRights

namespace LinkRights

def source : BitVec 8 := 1
def targetDirectory : BitVec 8 := 2
def symlinkCreate : BitVec 8 := 4
def symlinkRead : BitVec 8 := 8

end LinkRights

inductive ProcessAuthorityError where
  | emptyRights
  | emptyNetworkRights
  | emptyClockRights
  | emptyTerminalRights
  | emptyProcessRights
  | emptyLinkRights
  | invalidPath (error : ComponentFsPathError)
  | directoryGrantExceedsAuthority (rights : BitVec 16)
  | networkGrantExceedsAuthority (rights : BitVec 16)
  | clockGrantExceedsAuthority (rights : BitVec 8)
  | terminalGrantExceedsAuthority (rights : BitVec 8)
  | processGrantExceedsAuthority (rights : BitVec 8)
  | linkGrantExceedsAuthority (rights : BitVec 8)
  deriving DecidableEq, Repr

/-! ### Directory grants -/

def normalizeAuthorityPath (path : List Char) : Except ProcessAuthorityError (List Char) :=
  (FsPath.resolveAbsolutePath path).mapError .invalidPath

/-- A directory with the rights on what is under it.  Its paths have been resolved, and it
grants something. -/
structure DirectoryPreopen where
  sourcePath : List Char
  guestName : List Char
  rights : BitVec 16
  sourceResolved : FsPath.Resolved sourcePath
  guestResolved : FsPath.Resolved guestName
  rightsNonempty : rights ≠ 0

structure DirectoryCap where
  preopen : DirectoryPreopen

theorem normalizeAuthorityPath_resolved {path resolved : List Char}
    (h : normalizeAuthorityPath path = .ok resolved) :
  FsPath.Resolved resolved
  := by
  rw [normalizeAuthorityPath] at h
  cases hresolve : FsPath.resolveAbsolutePath path with
  | error error =>
    rw [hresolve] at h
    cases h
  | ok resolved =>
    rw [hresolve] at h
    cases h
    exact FsPath.resolved_of_resolveAbsolutePath hresolve

theorem normalizeAuthorityPath_of_resolved {path : List Char} (h : FsPath.Resolved path) :
  normalizeAuthorityPath path = .ok path
  := by
  rw [normalizeAuthorityPath, h.resolve]
  rfl

def DirectoryPreopen.new (sourcePath guestName : List Char) (rights : BitVec 16) :
    Except ProcessAuthorityError DirectoryPreopen :=
  if hrights : rights = 0 then .error .emptyRights
  else
    match hsource : normalizeAuthorityPath sourcePath with
    | .error error => .error error
    | .ok source =>
      match hguest : normalizeAuthorityPath guestName with
      | .error error => .error error
      | .ok guest => .ok {
          sourcePath := source
          guestName := guest
          rights
          sourceResolved := normalizeAuthorityPath_resolved hsource
          guestResolved := normalizeAuthorityPath_resolved hguest
          rightsNonempty := hrights }

/-- A path is in a directory or is the directory.  The text of the directory stands before a
separator, so that a sibling with a longer name is not in it. -/
def directoryContains (directory path : List Char) : Bool :=
  if directory = ['/'] then path.head? == some '/'
  else
    (directory.isPrefixOf path && (path.drop directory.length).head? == some '/') ||
      path == directory

/-- A grant covers a path with some rights. -/
def DirectoryPreopen.covers (preopen : DirectoryPreopen) (path : List Char) (rights : BitVec 16) :
    Bool :=
  directoryContains preopen.sourcePath path && containsRights preopen.rights rights

/-! ### Authorities -/

structure ProcessAuthority where
  directoryPreopens : List DirectoryPreopen
  cwd : Option DirectoryPreopen
  network : BitVec 16
  clock : BitVec 8
  terminal : BitVec 8
  process : BitVec 8
  link : BitVec 8

namespace ProcessAuthority

variable (authority : ProcessAuthority)

def empty : ProcessAuthority where
  directoryPreopens := []
  cwd := none
  network := 0
  clock := 0
  terminal := 0
  process := 0
  link := 0

def forkInherited : ProcessAuthority := authority

def execPreserved : ProcessAuthority := authority

def chdir (directory : DirectoryCap) : ProcessAuthority :=
  { authority with cwd := some directory.preopen }

def insertDirectoryPreopen (preopen : DirectoryPreopen) :
    ProcessAuthority :=
  { authority with directoryPreopens := authority.directoryPreopens ++ [preopen] }

variable (path : List Char)

def hasDirectoryAuthority (rights : BitVec 16) :
    Bool :=
  (authority.directoryPreopens.any fun preopen => preopen.covers path rights) ||
    authority.cwd.any fun cwd => cwd.covers path rights

section

variable (sourcePath guestName : List Char) (rights : BitVec 16)

def deriveDirectoryPreopen : Except ProcessAuthorityError DirectoryPreopen :=
  match normalizeAuthorityPath sourcePath with
  | .error error => .error error
  | .ok sourcePath =>
    if rights = 0 then .error .emptyRights
    else if !authority.hasDirectoryAuthority sourcePath rights then
      .error (.directoryGrantExceedsAuthority rights)
    else DirectoryPreopen.new sourcePath guestName rights

def deriveDirectoryCap : Except ProcessAuthorityError DirectoryCap :=
  (authority.deriveDirectoryPreopen sourcePath guestName rights).map DirectoryCap.mk

/-- Rights are derived from those held, and not from none. -/
def deriveRights {width : Nat} (held rights : BitVec width) (whenEmpty : ProcessAuthorityError)
    (exceeds : BitVec width → ProcessAuthorityError) :
    Except ProcessAuthorityError (BitVec width) :=
  if rights = 0 then .error whenEmpty
  else if !containsRights held rights then .error (exceeds rights)
  else .ok rights

def deriveNetworkRights :=
  deriveRights authority.network rights .emptyNetworkRights .networkGrantExceedsAuthority

end

def deriveTcpCap := authority.deriveNetworkRights NetworkRights.tcp
def deriveUdpCap := authority.deriveNetworkRights NetworkRights.udp
def deriveDnsCap := authority.deriveNetworkRights NetworkRights.dns
def derivePrivilegedBindCap :=
  authority.deriveNetworkRights NetworkRights.privilegedBind
def deriveMulticastCap :=
  authority.deriveNetworkRights NetworkRights.multicast
def deriveNetworkAdminCap :=
  authority.deriveNetworkRights NetworkRights.admin

variable (rights : BitVec 8)

def deriveClockRights :=
  deriveRights authority.clock rights .emptyClockRights .clockGrantExceedsAuthority

def deriveSetWallClockCap :=
  authority.deriveClockRights ClockRights.setWallClock

def deriveTerminalRights :=
  deriveRights authority.terminal rights .emptyTerminalRights .terminalGrantExceedsAuthority

def deriveTerminalInputCap :=
  authority.deriveTerminalRights TerminalRights.input
def deriveTerminalOutputCap :=
  authority.deriveTerminalRights TerminalRights.output
def deriveTtyControlCap :=
  authority.deriveTerminalRights TerminalRights.control

def deriveProcessRights :=
  deriveRights authority.process rights .emptyProcessRights .processGrantExceedsAuthority

def deriveSpawnAuthority :=
  authority.deriveProcessRights ProcessRights.spawn
def deriveExecAuthority :=
  authority.deriveProcessRights ProcessRights.exec
def deriveForkAuthority :=
  authority.deriveProcessRights ProcessRights.fork
def deriveJoinAuthority :=
  authority.deriveProcessRights ProcessRights.join
def deriveSignalAuthority :=
  authority.deriveProcessRights ProcessRights.signal

def deriveLinkRights :=
  deriveRights authority.link rights .emptyLinkRights .linkGrantExceedsAuthority

def deriveLinkSourceCap :=
  authority.deriveLinkRights LinkRights.source
def deriveLinkTargetDirectoryCap :=
  authority.deriveLinkRights LinkRights.targetDirectory
def deriveSymlinkCreateCap :=
  authority.deriveLinkRights LinkRights.symlinkCreate
def deriveSymlinkReadCap :=
  authority.deriveLinkRights LinkRights.symlinkRead

def canLoadProgram : Bool :=
  authority.hasDirectoryAuthority path DirectoryRights.read ||
    authority.hasDirectoryAuthority path DirectoryRights.execute

def canWritePath : Bool :=
  authority.hasDirectoryAuthority path DirectoryRights.write

def canCreateOrReplacePath : Bool :=
  authority.hasDirectoryAuthority path (DirectoryRights.write ||| DirectoryRights.mutateDirectory)

def grantNetworkRights (rights : BitVec 16) : ProcessAuthority :=
  { authority with network := authority.network ||| rights }
def grantClockRights : ProcessAuthority :=
  { authority with clock := authority.clock ||| rights }
def grantTerminalRights : ProcessAuthority :=
  { authority with terminal := authority.terminal ||| rights }
def grantProcessRights : ProcessAuthority :=
  { authority with process := authority.process ||| rights }
def grantLinkRights : ProcessAuthority :=
  { authority with link := authority.link ||| rights }

/-- Everything, with the root as the working directory. -/
def root : Except ProcessAuthorityError ProcessAuthority := do
  let preopen ← DirectoryPreopen.new ['/'] ['/'] (DirectoryRights.read ||| DirectoryRights.write |||
    DirectoryRights.mutateDirectory ||| DirectoryRights.execute)
  let authority := empty.insertDirectoryPreopen preopen
  let cwd ← authority.deriveDirectoryCap ['/'] ['/'] DirectoryRights.read
  .ok (((((authority.chdir cwd).grantNetworkRights (NetworkRights.tcp ||| NetworkRights.udp |||
      NetworkRights.dns ||| NetworkRights.privilegedBind ||| NetworkRights.multicast |||
      NetworkRights.admin)).grantClockRights ClockRights.setWallClock).grantTerminalRights
      (TerminalRights.input ||| TerminalRights.output ||| TerminalRights.control)).grantProcessRights
      (ProcessRights.spawn ||| ProcessRights.exec ||| ProcessRights.fork ||| ProcessRights.join |||
        ProcessRights.signal) |>.grantLinkRights
      (LinkRights.source ||| LinkRights.targetDirectory ||| LinkRights.symlinkCreate |||
        LinkRights.symlinkRead))

def containsAuthority (authority child : ProcessAuthority) : Bool :=
  (child.directoryPreopens.all fun preopen =>
    authority.hasDirectoryAuthority preopen.sourcePath preopen.rights) &&
  (child.cwd.all fun cwd => authority.hasDirectoryAuthority cwd.sourcePath cwd.rights) &&
  containsRights authority.network child.network &&
  containsRights authority.clock child.clock &&
  containsRights authority.terminal child.terminal &&
  containsRights authority.process child.process &&
  containsRights authority.link child.link

end ProcessAuthority

end Helios
