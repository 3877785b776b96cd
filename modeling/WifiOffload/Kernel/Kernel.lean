import WifiOffload.Kernel.Netfilter
import WifiOffload.Library.PathWalk

/-!
# The kernel state that the daemon manages

The `net_cls` cgroups and the processes in them, the `mangle` and `filter` tables, the fwmark
rules, the default routes of every routing table and the MPTCP endpoints, with the system calls
and netlink requests that change them. A request that the kernel refuses ends with an `Errno`
and changes nothing.
-/

namespace WifiOffload

inductive Errno where
  | enoent | esrch | eexist | enotempty | ebusy | einval | erofs
  deriving DecidableEq, Repr

/-- A `net_cls` directory. -/
structure Cgroup where
  dir : Dir
  classid : UInt32
  deriving DecidableEq, Repr

/-- A process that was moved to a directory. -/
structure Task where
  pid : Int
  dir : Dir
  deriving DecidableEq, Repr

structure FwRule where
  priority : UInt32
  fwmark : UInt32
  table : UInt32
  deriving DecidableEq, Repr

/-- A default route. `installed` marks the ones that `addDefaultRoute` put in; a gateway of 0
is a route without one. -/
structure Route where
  dev : UInt32
  gateway : UInt32
  installed : Bool
  deriving DecidableEq, Repr

/-- An endpoint of the MPTCP path manager. -/
structure Endpoint where
  addr4 : UInt32
  ifindex : UInt32
  deriving DecidableEq, Repr

structure Kernel where
  cgroups : List Cgroup := []
  tasks : List Task := []
  mangle : Table := {}
  filter : Table := {}
  fwRules : List FwRule := []
  routes : UInt32 → List Route := fun _ => []
  endpoints : List Endpoint := []

/-- What the daemon asks the system about: the symbolic links, its working directory, the
interface indices (0 for an unknown name), their IPv4 addresses (0 for none) and gateways. -/
structure Host where
  links : PathWalk.Links := fun _ => none
  cwd : Dir := []
  ifNameToIndex : Bytes → UInt32 := fun _ => 0
  ifaceAddr4 : Bytes → UInt32 := fun _ => 0

namespace Host

variable (host : Host)

/-- `if_nametoindex(std::string{iface}.c_str())`. -/
def ifindex (iface : Bytes) : UInt32 := host.ifNameToIndex (Bytes.cString iface)

/-- `ifaceAddr4(iface.c_str())`. -/
def addr4 (iface : Bytes) : UInt32 := host.ifaceAddr4 (Bytes.cString iface)

def start (p : FsPath) : Dir := if p.absolute then [] else host.cwd

/-- Where a path leads. -/
def locate (p : FsPath) : Dir := PathWalk.locate host.links (host.start p) (FsPath.cNames p.names)

/-- `std::filesystem::canonical` among the given directories. -/
def canonical (dirs : List Dir) (p : FsPath) : Option Dir :=
  if p.isEmpty then none
  else PathWalk.canonical host.links dirs (host.start p) (FsPath.cNames p.names)

end Host

namespace Kernel

variable (k : Kernel)

/-! ### Directories -/

def dirs : List Dir := k.cgroups.map (·.dir)

def classidOf (d : Dir) : UInt32 :=
  ((k.cgroups.find? (·.dir = d)).map (·.classid)).getD 0

/-- A new cgroup starts with the classid of its parent. -/
def makeDir (d : Dir) : Kernel :=
  { k with cgroups := k.cgroups ++ [⟨d, k.classidOf d.dropLast⟩] }

def mkdir (d : Dir) : Except Errno Kernel :=
  if d ∈ k.dirs then .error .eexist else .ok (k.makeDir d)

/-- A write to `net_cls.classid`. -/
def writeClassid (d : Dir) (classid : UInt32) : Kernel :=
  { k with cgroups := k.cgroups.map fun c => if c.dir = d then { c with classid } else c }

/-- A write to `tasks`: the process leaves the directory it was in. -/
def moveTask (pid : Int) (d : Dir) : Kernel :=
  { k with tasks := k.tasks.filter (·.pid ≠ pid) ++ [⟨pid, d⟩] }

/-- `rmdir`, refused while the directory holds a process or another directory. -/
def rmdir (d : Dir) : Except Errno Kernel :=
  if d ∉ k.dirs then .error .enoent
  else if k.dirs.any fun c => c ≠ [] ∧ c.dropLast = d then .error .enotempty
  else if k.tasks.any (·.dir = d) then .error .ebusy
  else .ok { k with cgroups := k.cgroups.filter (·.dir ≠ d) }

section

variable {k} {d x : Dir} {classid : UInt32}

@[simp] theorem dirs_makeDir : (k.makeDir d).dirs = k.dirs ++ [d] := by simp [dirs, makeDir]

@[simp] theorem dirs_writeClassid : (k.writeClassid d classid).dirs = k.dirs := by
  simp only [dirs, writeClassid, List.map_map]
  refine List.map_congr_left fun c _ => ?_
  simp only [Function.comp]
  split <;> rfl

theorem find?_eq_none_of_not_mem (h : d ∉ k.dirs) : k.cgroups.find? (·.dir = d) = none := by
  rw [List.find?_eq_none]
  intro c hc hdir
  exact h (List.mem_map.mpr ⟨c, hc, of_decide_eq_true hdir⟩)

theorem classidOf_makeDir_self (h : d ∉ k.dirs) :
    (k.makeDir d).classidOf d = k.classidOf d.dropLast := by
  simp [classidOf, makeDir, List.find?_append, find?_eq_none_of_not_mem h]

theorem classidOf_makeDir_of_ne (h : x ≠ d) : (k.makeDir d).classidOf x = k.classidOf x := by
  simp [classidOf, makeDir, List.find?_append, Ne.symm h]

theorem find?_writeClassid : (k.writeClassid d classid).cgroups.find? (·.dir = x) =
    (k.cgroups.find? (·.dir = x)).map fun c => if c.dir = d then { c with classid } else c := by
  rw [writeClassid, List.find?_map]
  congr 2
  funext c
  simp only [Function.comp]
  split <;> rfl

theorem classidOf_writeClassid_self (h : d ∈ k.dirs) :
    (k.writeClassid d classid).classidOf d = classid := by
  obtain ⟨c, hc⟩ : ∃ c, k.cgroups.find? (·.dir = d) = some c := by
    obtain ⟨c, hc, hdir⟩ := List.mem_map.mp h
    exact Option.isSome_iff_exists.mp (List.find?_isSome.mpr ⟨c, hc, decide_eq_true hdir⟩)
  have hdir : c.dir = d := by simpa using List.find?_some hc
  rw [classidOf, find?_writeClassid, hc]
  simp [hdir]

theorem classidOf_writeClassid_of_ne (h : x ≠ d) :
    (k.writeClassid d classid).classidOf x = k.classidOf x := by
  rw [classidOf, classidOf, find?_writeClassid]
  cases hc : k.cgroups.find? (·.dir = x) with
  | none => rfl
  | some c =>
    have hdir : c.dir = x := by simpa using List.find?_some hc
    simp [hdir, h]

end

/-! ### Policy rules -/

/-- `RTM_NEWRULE` with `NLM_F_CREATE | NLM_F_EXCL`. -/
def newRule (r : FwRule) : Except Errno Kernel :=
  if r ∈ k.fwRules then .error .eexist else .ok { k with fwRules := k.fwRules ++ [r] }

/-- `RTM_DELRULE`. -/
def delRule (r : FwRule) : Except Errno Kernel :=
  if r ∈ k.fwRules then .ok { k with fwRules := k.fwRules.erase r } else .error .enoent

/-! ### Default routes -/

def setRoutes (table : UInt32) (rs : List Route) : Kernel :=
  { k with routes := Function.update k.routes table rs }

/-- `RTM_NEWROUTE` with `NLM_F_CREATE | NLM_F_REPLACE`: the first default route of the table is
replaced, whatever device it uses. -/
def newRoute (table : UInt32) (r : Route) : Except Errno Kernel :=
  .ok (k.setRoutes table (r :: (k.routes table).tail))

/-- `RTM_DELROUTE`: the default route of a device. -/
def delRoute (table dev : UInt32) : Except Errno Kernel :=
  if (k.routes table).any (·.dev = dev) then
    .ok (k.setRoutes table ((k.routes table).eraseP (·.dev = dev)))
  else .error .esrch

/-! ### MPTCP endpoints -/

/-- `MPTCP_PM_CMD_ADD_ADDR`: one endpoint for an address. -/
def addEndpoint (e : Endpoint) : Except Errno Kernel :=
  if k.endpoints.any (·.addr4 = e.addr4) then .error .eexist
  else .ok { k with endpoints := k.endpoints ++ [e] }

/-- `MPTCP_PM_CMD_FLUSH_ADDRS`. -/
def flushEndpoints : Kernel := { k with endpoints := [] }

end Kernel

/-! ## The target system -/

/-- The directory with these names, as text. -/
def dirOf (names : List String) : Dir := names.map Bytes.ascii

/-- The interfaces of the shipped configuration, and `net_cls` as a link to the mount point. -/
def vlanHost : Host :=
  { links := fun d =>
      if d = dirOf ["sys", "fs", "cgroup", "net_cls"] then
        some (dirOf ["sys", "fs", "cgroup", "net_cls,net_prio"])
      else none
    ifNameToIndex := fun name =>
      if name = Bytes.ascii "eth0.100" then 4
      else if name = Bytes.ascii "eth0.200" then 5
      else if name = Bytes.ascii "eth0.300" then 6
      else 0 }

/-- A kernel after boot: the directories down to the mount point. -/
def bootedKernel : Kernel :=
  { cgroups := [⟨[], 0⟩, ⟨dirOf ["sys"], 0⟩, ⟨dirOf ["sys", "fs"], 0⟩,
      ⟨dirOf ["sys", "fs", "cgroup"], 0⟩, ⟨dirOf ["sys", "fs", "cgroup", "net_cls,net_prio"], 0⟩] }

end WifiOffload
