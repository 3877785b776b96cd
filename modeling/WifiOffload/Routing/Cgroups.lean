import WifiOffload.Common.Types
import WifiOffload.Kernel.Kernel
import WifiOffload.Library.Attempt

/-!
# The cgroup hierarchy

`createCgroupHierarchy`, `setupOneClass` and the directory part of `cleanup`. A class directory
is the last name of `cgroup_path` in the canonical directory of the rest; it gets its classid
unless the text of `net_cls.classid` already reads as that number.
-/

namespace WifiOffload

/-- Where the environment can stop the set-up of a class. -/
inductive CgroupFault where
  | resolve | mkdir | openClassid | writeClassid
  deriving DecidableEq, Repr

namespace PathClassConfig

def classPath (cls : PathClassConfig) : FsPath := FsPath.parse cls.cgroupPath

/-- `cgroupDir.filename()`, as a system call sees it. -/
def dirName (cls : PathClassConfig) : Bytes := Bytes.cString cls.classPath.filename

end PathClassConfig

namespace Host

variable (host : Host) (cls : PathClassConfig)

/-- The canonical parent of a class directory, when the path to it exists. -/
def realParent (dirs : List Dir) : Option Dir := host.canonical dirs cls.classPath.parentPath

/-- `realParent / cgroupDir.filename()`. -/
def realCgroupDir (dirs : List Dir) : Option Dir :=
  (host.realParent cls dirs).map fun parent => PathWalk.enter host.links parent cls.dirName

/-- Where the class directory is. -/
def classDir : Dir :=
  PathWalk.enter host.links (host.locate cls.classPath.parentPath) cls.dirName

/-- The last name is an entry of the parent, and not a link. -/
def hasOwnName : Bool :=
  !PathWalk.isDots cls.dirName &&
    (host.links (host.locate cls.classPath.parentPath ++ [cls.dirName])).isNone

/-- The directories that must exist for the parent to be found. -/
def parentVisits : List Dir :=
  PathWalk.visited host.links (host.start cls.classPath.parentPath)
    (FsPath.cNames cls.classPath.parentPath.names)

variable {host cls}

theorem realCgroupDir_eq_some {dirs : List Dir} {d : Dir} :
    host.realCgroupDir cls dirs = some d ↔ cls.classPath.parentPath.isEmpty = false ∧
      host.parentVisits cls ⊆ dirs ∧ host.classDir cls = d := by
  unfold realCgroupDir realParent Host.canonical classDir parentVisits Host.locate
  split
  · next h => simp [h]
  · next h =>
    simp only [Option.map_eq_some_iff, PathWalk.canonical_eq_some, Bool.not_eq_true] at h ⊢
    grind

/-- A class directory with a name of its own lies in the parent. -/
theorem classDir_dropLast (h : host.hasOwnName cls = true) :
    (host.classDir cls).dropLast = host.locate cls.classPath.parentPath := by
  simp only [hasOwnName, PathWalk.isDots, Bool.and_eq_true, Bool.not_eq_true',
    Bool.or_eq_false_iff, decide_eq_false_iff_not, Option.isNone_iff_eq_none] at h
  obtain ⟨⟨⟨hne, hdot⟩, hdd⟩, hlink⟩ := h
  rw [classDir, PathWalk.enter, if_neg (by simp [hne, hdot]), if_neg hdd, hlink, Option.getD_none,
    List.dropLast_concat]

end Host

/-- The number that the decimal text of `n` stands for in base 16. -/
def readDecimalAsHex : Nat → Nat → Nat
  | 0, _ => 0
  | digits + 1, n => 16 * readDecimalAsHex digits (n / 10) + n % 10

/-- `ifs >> std::hex >> existing` on the decimal text of the kernel; a value that does not fit
is read as the largest one. -/
def readClassid (classid : UInt32) : UInt32 :=
  let n := readDecimalAsHex 10 classid.toNat
  if n < 2 ^ 32 then UInt32.ofNat n else 0xFFFFFFFF

/-- `create_directories` below an existing parent. -/
def createDirectories (host : Host) (cls : PathClassConfig) (d : Dir) (k : Kernel) :
    Option Kernel :=
  if d ∈ k.dirs then some k
  else if host.hasOwnName cls then (k.mkdir d).toOption
  else none

def writeClassidFile (fault : Option CgroupFault) (d : Dir) (classid : UInt32) :
    Attempt Kernel RoutingError := fun k =>
  if readClassid (k.classidOf d) = classid then ⟨k, none⟩
  else if fault = some .openClassid ∨ fault = some .writeClassid then ⟨k, some .cgroupWriteFailed⟩
  else ⟨k.writeClassid d classid, none⟩

def setupOneClass (host : Host) (fault : Option CgroupFault) (cls : PathClassConfig) :
    Attempt Kernel RoutingError := fun k =>
  if fault = some .resolve then ⟨k, some .cgroupCreateFailed⟩
  else match host.realCgroupDir cls k.dirs with
    | none => ⟨k, some .cgroupCreateFailed⟩
    | some d =>
      if fault = some .mkdir then ⟨k, some .cgroupCreateFailed⟩
      else match createDirectories host cls d k with
        | none => ⟨k, some .cgroupCreateFailed⟩
        | some k' => writeClassidFile fault d cls.classid k'

def createCgroupHierarchy (host : Host) (faults : Nat → Option CgroupFault)
    (classes : List PathClassConfig) : Attempt Kernel RoutingError :=
  Attempt.eachFrom (fun i cls => setupOneClass host (faults i) cls) 0 classes

/-! ### Clean-up -/

/-- `std::filesystem::remove` of a class directory. A path that ends in `.` or `..` is refused,
and so is a link: the tree that holds the links is mounted read-only. -/
def removeDir (host : Host) (cls : PathClassConfig) (d : Dir) (k : Kernel) : Except Errno Kernel :=
  if cls.dirName ≠ [] ∧ PathWalk.isDots cls.dirName then .error .einval
  else if cls.dirName ≠ [] ∧ ¬ host.hasOwnName cls then .error .erofs
  else k.rmdir d

/-- One turn of the loop: the kernel it leaves, and whether nothing had to be logged. -/
def removeCgroup (host : Host) (k : Kernel) (cls : PathClassConfig) : Kernel × Bool :=
  match host.realCgroupDir cls k.dirs with
  | none => (k, false)
  | some d =>
    if d ∈ k.dirs then
      match removeDir host cls d k with
      | .ok k' => (k', true)
      | .error _ => (k, false)
    else (k, true)

/-- The directories are removed in reverse order. -/
def removeCgroups (host : Host) (classes : List PathClassConfig) (k : Kernel) : Kernel × Bool :=
  classes.foldr (fun cls (k, ok) =>
    ((removeCgroup host k cls).1, ok && (removeCgroup host k cls).2)) (k, true)

/-! ## What a set-up does -/

namespace Kernel

/-- The directory, made unless it is there. -/
def ensureDir (k : Kernel) (d : Dir) : Kernel := if d ∈ k.dirs then k else k.makeDir d

/-- The classid that a directory has when its set-up reads it. -/
def heldClassid (k : Kernel) (d : Dir) : UInt32 :=
  if d ∈ k.dirs then k.classidOf d else k.classidOf d.dropLast

variable {k : Kernel} {d x : Dir}

theorem mem_dirs_ensureDir : x ∈ (k.ensureDir d).dirs ↔ x ∈ k.dirs ∨ x = d := by
  unfold ensureDir
  split
  · next h => exact ⟨.inl, fun hx => hx.elim id fun heq => heq ▸ h⟩
  · simp

theorem classidOf_ensureDir_self : (k.ensureDir d).classidOf d = k.heldClassid d := by
  unfold ensureDir heldClassid
  split
  · rfl
  · next h => exact classidOf_makeDir_self h

theorem classidOf_ensureDir_of_ne (h : x ≠ d) : (k.ensureDir d).classidOf x = k.classidOf x := by
  unfold ensureDir
  split
  · rfl
  · exact classidOf_makeDir_of_ne h

/-- The class directory with its classid. -/
def withClass (k : Kernel) (d : Dir) (classid : UInt32) : Kernel :=
  if readClassid (k.heldClassid d) = classid then k.ensureDir d
  else (k.ensureDir d).writeClassid d classid

theorem mem_dirs_withClass {classid : UInt32} :
    x ∈ (k.withClass d classid).dirs ↔ x ∈ k.dirs ∨ x = d := by
  unfold withClass
  split
  · exact mem_dirs_ensureDir
  · rw [dirs_writeClassid, mem_dirs_ensureDir]

theorem classidOf_withClass_self {classid : UInt32} : (k.withClass d classid).classidOf d =
    if readClassid (k.heldClassid d) = classid then k.heldClassid d else classid := by
  unfold withClass
  split
  · exact classidOf_ensureDir_self
  · exact classidOf_writeClassid_self (mem_dirs_ensureDir.mpr (.inr rfl))

theorem classidOf_withClass_of_ne {classid : UInt32} (h : x ≠ d) :
    (k.withClass d classid).classidOf x = k.classidOf x := by
  unfold withClass
  split
  · exact classidOf_ensureDir_of_ne h
  · rw [classidOf_writeClassid_of_ne h, classidOf_ensureDir_of_ne h]

theorem ensureDir_frame : k.ensureDir d = { k with cgroups := (k.ensureDir d).cgroups } := by
  unfold ensureDir
  split <;> rfl

/-- A set-up touches the cgroups only. -/
theorem withClass_frame {classid : UInt32} :
    k.withClass d classid = { k with cgroups := (k.withClass d classid).cgroups } := by
  unfold withClass ensureDir
  split <;> split <;> rfl

end Kernel

section

variable {host : Host} {fault : Option CgroupFault} {cls : PathClassConfig} {k k' : Kernel}
  {d : Dir}

/-- The set-up gets past `create_directories`. -/
def MakesDir (host : Host) (fault : Option CgroupFault) (cls : PathClassConfig) (k : Kernel) :
    Prop :=
  fault ≠ some .resolve ∧ fault ≠ some .mkdir ∧ (host.realCgroupDir cls k.dirs).isSome ∧
    (host.classDir cls ∈ k.dirs ∨ host.hasOwnName cls = true)

theorem createDirectories_eq :
    createDirectories host cls d k =
      if d ∈ k.dirs ∨ host.hasOwnName cls = true then some (k.ensureDir d) else none := by
  unfold createDirectories Kernel.mkdir Kernel.ensureDir
  by_cases hd : d ∈ k.dirs
  · simp [hd]
  · by_cases hown : host.hasOwnName cls = true <;> simp [hd, hown, Except.toOption]

/-- The three ways a set-up can end. -/
theorem setupOneClass_cases (host : Host) (fault : Option CgroupFault) (cls : PathClassConfig)
    (k : Kernel) :
    (¬ MakesDir host fault cls k ∧
      setupOneClass host fault cls k = ⟨k, some .cgroupCreateFailed⟩) ∨
    (MakesDir host fault cls k ∧ setupOneClass host fault cls k =
      ⟨k.ensureDir (host.classDir cls), some .cgroupWriteFailed⟩) ∨
    (MakesDir host fault cls k ∧ setupOneClass host fault cls k =
      ⟨k.withClass (host.classDir cls) cls.classid, none⟩) := by
  by_cases hres : fault = some .resolve
  · exact .inl ⟨fun h => h.1 hres, by rw [setupOneClass, if_pos hres]⟩
  cases hd : host.realCgroupDir cls k.dirs with
  | none =>
    refine .inl ⟨fun h => by simpa [hd] using h.2.2.1, ?_⟩
    simp only [setupOneClass, if_neg hres, hd]
  | some d =>
    obtain ⟨-, -, rfl⟩ := Host.realCgroupDir_eq_some.mp hd
    by_cases hmk : fault = some .mkdir
    · refine .inl ⟨fun h => h.2.1 hmk, ?_⟩
      simp only [setupOneClass, if_neg hres, hd, if_pos hmk]
    by_cases hmake : host.classDir cls ∈ k.dirs ∨ host.hasOwnName cls = true
    · refine .inr ?_
      have hmakes : MakesDir host fault cls k := ⟨hres, hmk, by simp [hd], hmake⟩
      simp only [setupOneClass, if_neg hres, hd, if_neg hmk, createDirectories_eq, if_pos hmake,
        writeClassidFile, Kernel.withClass, Kernel.classidOf_ensureDir_self, hmakes, true_and]
      split
      · exact .inr rfl
      · split
        · exact .inl rfl
        · exact .inr rfl
    · refine .inl ⟨fun h => hmake h.2.2.2, ?_⟩
      simp only [setupOneClass, if_neg hres, hd, if_neg hmk, createDirectories_eq, if_neg hmake]

theorem MakesDir.parentVisits_subset (h : MakesDir host fault cls k) :
    host.parentVisits cls ⊆ k.dirs := by
  obtain ⟨d, hd⟩ := Option.isSome_iff_exists.mp h.2.2.1
  exact (Host.realCgroupDir_eq_some.mp hd).2.1

theorem setupOneClass_ok (h : (setupOneClass host fault cls k).error = none) :
    MakesDir host fault cls k ∧
      (setupOneClass host fault cls k).state = k.withClass (host.classDir cls) cls.classid := by
  rcases setupOneClass_cases host fault cls k with ⟨-, heq⟩ | ⟨-, heq⟩ | ⟨hmakes, heq⟩
  · simp [heq] at h
  · simp [heq] at h
  · exact ⟨hmakes, by rw [heq]⟩

end

/-! ## What a set-up adds and a clean-up removes -/

/-- The kernel without a directory. -/
def Kernel.withoutDir (k : Kernel) (d : Dir) : Kernel :=
  { k with cgroups := k.cgroups.filter (·.dir ≠ d) }

theorem Kernel.mem_dirs_withoutDir {k : Kernel} {d x : Dir} :
    x ∈ (k.withoutDir d).dirs ↔ x ∈ k.dirs ∧ x ≠ d := by
  simp only [dirs, withoutDir, List.mem_map, List.mem_filter, decide_eq_true_eq]
  grind

theorem Kernel.rmdir_ok {k k' : Kernel} {d : Dir} (h : k.rmdir d = .ok k') :
    k' = k.withoutDir d := by
  unfold rmdir at h
  split at h
  · cases h
  split at h
  · cases h
  split at h
  · cases h
  · exact (Except.ok.inj h).symm

section

variable {host : Host} {cls : PathClassConfig} {classes : List PathClassConfig} {k : Kernel}

/-- A turn of the clean-up removes the class directory or leaves the kernel alone, and it reports
success only when the directory is gone. -/
theorem removeCgroup_spec (host : Host) (k : Kernel) (cls : PathClassConfig) :
    ((removeCgroup host k cls).1 = k ∨
      (removeCgroup host k cls).1 = k.withoutDir (host.classDir cls)) ∧
    ((removeCgroup host k cls).2 = true →
      host.classDir cls ∉ (removeCgroup host k cls).1.dirs) := by
  unfold removeCgroup
  split
  · exact ⟨.inl rfl, fun h => by cases h⟩
  next d hd =>
  obtain ⟨-, -, rfl⟩ := Host.realCgroupDir_eq_some.mp hd
  split
  · split
    · next k' hk' =>
      have hrm : k' = k.withoutDir (host.classDir cls) := by
        unfold removeDir at hk'
        split at hk'
        · cases hk'
        split at hk'
        · cases hk'
        · exact Kernel.rmdir_ok hk'
      exact ⟨.inr hrm, fun _ hmem => (Kernel.mem_dirs_withoutDir.mp (hrm ▸ hmem)).2 rfl⟩
    · exact ⟨.inl rfl, fun h => by cases h⟩
  · next hmem => exact ⟨.inl rfl, fun _ => hmem⟩

theorem removeCgroups_cons (host : Host) (cls : PathClassConfig) (classes : List PathClassConfig)
    (k : Kernel) : removeCgroups host (cls :: classes) k =
      ((removeCgroup host (removeCgroups host classes k).1 cls).1,
        (removeCgroups host classes k).2 &&
          (removeCgroup host (removeCgroups host classes k).1 cls).2) := rfl

theorem removeCgroups_frame (host : Host) (classes : List PathClassConfig) (k : Kernel) :
    (removeCgroups host classes k).1 =
      { k with cgroups := (removeCgroups host classes k).1.cgroups } := by
  induction classes with
  | nil => rfl
  | cons cls classes ih =>
    rw [removeCgroups_cons]
    rcases (removeCgroup_spec host (removeCgroups host classes k).1 cls).1 with h | h
    · simp only [h]
      exact ih
    · simp only [h]
      rw [ih]
      rfl

/-- What a clean-up takes away are class directories. -/
theorem removeCgroups_append {old new : List Cgroup}
    (hold : ∀ cls ∈ classes, ∀ c ∈ old, c.dir ≠ host.classDir cls)
    (hk : k.cgroups = old ++ new) :
    ∃ left, left ⊆ new ∧ (removeCgroups host classes k).1.cgroups = old ++ left := by
  induction classes with
  | nil => exact ⟨new, List.Subset.refl _, hk⟩
  | cons cls classes ih =>
    obtain ⟨left, hsub, hleft⟩ := ih fun c hc => hold c (by simp [hc])
    rw [removeCgroups_cons]
    rcases (removeCgroup_spec host (removeCgroups host classes k).1 cls).1 with h | h
    · exact ⟨left, hsub, by rw [h, hleft]⟩
    · refine ⟨left.filter (·.dir ≠ host.classDir cls),
        fun c hc => hsub (List.mem_of_mem_filter hc), ?_⟩
      rw [h, Kernel.withoutDir, hleft, List.filter_append,
        List.filter_eq_self.mpr fun c hc => by simpa using hold cls (by simp) c hc]

/-- A clean-up that had nothing to log has removed every class directory. -/
theorem classDir_not_mem_of_removeCgroups (hok : (removeCgroups host classes k).2 = true) :
    ∀ cls ∈ classes, host.classDir cls ∉ (removeCgroups host classes k).1.dirs := by
  induction classes with
  | nil => simp
  | cons c classes ih =>
    rw [removeCgroups_cons, Bool.and_eq_true] at hok
    have hspec := removeCgroup_spec host (removeCgroups host classes k).1 c
    intro cls hcls hmem
    rcases List.mem_cons.mp hcls with rfl | hcls
    · exact hspec.2 hok.2 hmem
    · refine ih hok.1 cls hcls ?_
      rw [removeCgroups_cons] at hmem
      rcases hspec.1 with h | h
      · rwa [h] at hmem
      · rw [h] at hmem
        exact (Kernel.mem_dirs_withoutDir.mp hmem).1

/-- Whatever a set-up has got done, it has added directories of classes. -/
theorem createCgroupHierarchy_state (host : Host) (faults : Nat → Option CgroupFault)
    (hfresh : ∀ cls ∈ classes, host.classDir cls ∉ k.dirs) :
    ∃ new, (createCgroupHierarchy host faults classes k).state =
      { k with cgroups := k.cgroups ++ new } ∧
        ∀ c ∈ new, ∃ cls ∈ classes, host.classDir cls = c.dir := by
  refine Attempt.eachFrom_preserves (s := k) (P := fun s => ∃ new, s =
    { k with cgroups := k.cgroups ++ new } ∧ ∀ c ∈ new, ∃ cls ∈ classes, host.classDir cls = c.dir)
    ?_ 0 ⟨[], by simp⟩
  rintro i cls hcls s ⟨new, rfl, hnew⟩
  have hensure : ∃ new', ({ k with cgroups := k.cgroups ++ new } : Kernel).ensureDir
      (host.classDir cls) = { k with cgroups := k.cgroups ++ new' } ∧
      ∀ c ∈ new', ∃ cls ∈ classes, host.classDir cls = c.dir := by
    unfold Kernel.ensureDir
    split
    · exact ⟨new, rfl, hnew⟩
    · refine ⟨new ++ [⟨host.classDir cls, _⟩], by rw [Kernel.makeDir, List.append_assoc], ?_⟩
      intro c hc
      rcases List.mem_append.mp hc with hc | hc
      · exact hnew c hc
      · rw [List.mem_singleton.mp hc]
        exact ⟨cls, hcls, rfl⟩
  rcases setupOneClass_cases host (faults i) cls { k with cgroups := k.cgroups ++ new } with
    ⟨-, heq⟩ | ⟨-, heq⟩ | ⟨-, heq⟩
  · exact ⟨new, by rw [heq], hnew⟩
  · rw [heq]; exact hensure
  · obtain ⟨new', hens, hnew'⟩ := hensure
    rw [heq]
    unfold Kernel.withClass
    split
    · exact ⟨new', hens, hnew'⟩
    · -- the classid of a new directory is written, and those of the old ones stay
      let write (c : Cgroup) : Cgroup :=
        if c.dir = host.classDir cls then { c with classid := cls.classid } else c
      have hwrite : k.cgroups.map write = k.cgroups := by
        refine (List.map_congr_left fun c hc => if_neg fun hdir => ?_).trans (List.map_id _)
        exact hfresh cls hcls (List.mem_map.mpr ⟨c, hc, hdir⟩)
      refine ⟨new'.map write, ?_, ?_⟩
      · rw [hens, Kernel.writeClassid, List.map_append]
        exact congrArg (fun cs => { k with cgroups := cs ++ new'.map write }) hwrite
      · intro c hc
        obtain ⟨c', hc', rfl⟩ := List.mem_map.mp hc
        have hdir : (write c').dir = c'.dir := by
          simp only [write]
          split <;> rfl
        rw [hdir]
        exact hnew' c' hc'

end

end WifiOffload
