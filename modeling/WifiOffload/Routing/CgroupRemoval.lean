import WifiOffload.Routing.Cgroups

/-!
# Removing the cgroup hierarchy

The directory part of `cleanup` against what `createCgroupHierarchy` has laid out. A directory is
removed for good at the turn of the first class that names it, if at all: later classes come
earlier in the loop, and a directory inside it belongs to such a class.
-/

namespace WifiOffload

variable {host : Host} {cls : PathClassConfig} {classes : List PathClassConfig} {k k' : Kernel}
  {base : List Dir}

/-- The root is there, and so is the parent of every directory. -/
structure DirsClosed (dirs : List Dir) : Prop where
  root : [] ∈ dirs
  parent : ∀ d ∈ dirs, d.dropLast ∈ dirs

/-- What a set-up relies on: each class finds its parent among the directories of before and of
the classes before it, and its own directory there or a name to make it under. -/
def Laid (host : Host) : List Dir → List PathClassConfig → Prop
  | _, [] => True
  | base, cls :: classes => cls.classPath.parentPath.isEmpty = false ∧
      host.parentVisits cls ⊆ base ∧ (host.classDir cls ∈ base ∨ host.hasOwnName cls = true) ∧
      Laid host (host.classDir cls :: base) classes

/-- When it is the turn of the first class that names a directory, and that directory is still
there, the path to it is there too. -/
def ReachableInTurn (host : Host) : List Dir → List PathClassConfig → Kernel → Prop
  | _, [], _ => True
  | base, cls :: classes, k => ReachableInTurn host (host.classDir cls :: base) classes k ∧
      (host.classDir cls ∉ base →
        host.classDir cls ∈ (removeCgroups host classes k).1.dirs →
        host.parentVisits cls ⊆ (removeCgroups host classes k).1.dirs)

instance ReachableInTurn.decidable (host : Host) :
    ∀ base classes k, Decidable (ReachableInTurn host base classes k)
  | _, [], _ => inferInstanceAs (Decidable True)
  | base, cls :: classes, k =>
    @instDecidableAnd _ _ (decidable host (host.classDir cls :: base) classes k)
      (inferInstanceAs (Decidable (_ → _ → _)))

/-! ## The layout that a set-up leaves -/

theorem laid_congr {dirs dirs' : List Dir} (h : ∀ d, d ∈ dirs ↔ d ∈ dirs') :
    Laid host dirs classes → Laid host dirs' classes := by
  induction classes generalizing dirs dirs' with
  | nil => exact id
  | cons cls classes ih =>
    rintro ⟨hne, hvisits, hdir, hrest⟩
    refine ⟨hne, fun d hd => (h d).mp (hvisits hd), hdir.imp_left (h _).mp, ih (fun d => ?_) hrest⟩
    rw [List.mem_cons, List.mem_cons, h d]

theorem MakesDir.isEmpty_eq_false {fault : Option CgroupFault} (h : MakesDir host fault cls k) :
    cls.classPath.parentPath.isEmpty = false := by
  obtain ⟨d, hd⟩ := Option.isSome_iff_exists.mp h.2.2.1
  exact (Host.realCgroupDir_eq_some.mp hd).1

/-- A hierarchy that was set up is laid out, and its directories are those of the classes. -/
theorem laid_of_eachFrom_ok {faults : Nat → Option CgroupFault} {i : Nat}
    (hok : (Attempt.eachFrom (fun i cls => setupOneClass host (faults i) cls) i classes k).error =
      none) :
    Laid host k.dirs classes ∧ ∀ d,
      d ∈ (Attempt.eachFrom (fun i cls => setupOneClass host (faults i) cls) i classes
          k).state.dirs ↔
        d ∈ k.dirs ∨ ∃ cls ∈ classes, host.classDir cls = d := by
  induction classes generalizing i k with
  | nil => exact ⟨trivial, by simp⟩
  | cons cls classes ih =>
    rw [Attempt.eachFrom_cons, Attempt.andThen_error_eq_none] at hok
    obtain ⟨hmakes, hstate⟩ := setupOneClass_ok hok.1
    obtain ⟨hlaid, hdirs⟩ := ih hok.2
    have hmem (d : Dir) : d ∈ (setupOneClass host (faults i) cls k).state.dirs ↔
        d ∈ host.classDir cls :: k.dirs := by
      rw [hstate, Kernel.mem_dirs_withClass, List.mem_cons, or_comm]
    refine ⟨⟨hmakes.isEmpty_eq_false, hmakes.parentVisits_subset, hmakes.2.2.2,
      laid_congr hmem hlaid⟩, fun d => ?_⟩
    rw [Attempt.eachFrom_cons, Attempt.andThen_of_ok hok.1, hdirs, hmem]
    grind

/-- The directory a class lies in is one of those it was found through. -/
theorem dropLast_mem_of_laid (hclosed : DirsClosed base)
    (hlaid : Laid host base (cls :: classes)) : (host.classDir cls).dropLast ∈ base := by
  obtain ⟨hne, hvisits, hdir, -⟩ := hlaid
  rcases hdir with hdir | hown
  · exact hclosed.parent _ hdir
  rw [Host.classDir_dropLast hown]
  by_cases hnames : cls.classPath.parentPath.names = []
  · -- the parent is the root
    have habs : cls.classPath.parentPath.absolute = true := by
      simpa [FsPath.isEmpty, hnames] using hne
    have hroot : host.locate cls.classPath.parentPath = [] := by
      simp [Host.locate, Host.start, habs, hnames, FsPath.cNames, PathWalk.locate]
    rw [hroot]
    exact hclosed.root
  · exact hvisits (PathWalk.locate_mem_visited (FsPath.cNames_ne_nil hnames) _)

theorem DirsClosed.cons (hclosed : DirsClosed base) (hlaid : Laid host base (cls :: classes)) :
    DirsClosed (host.classDir cls :: base) where
  root := List.mem_cons_of_mem _ hclosed.root
  parent d hd := by
    rcases List.mem_cons.mp hd with rfl | hd
    · exact List.mem_cons_of_mem _ (dropLast_mem_of_laid hclosed hlaid)
    · exact List.mem_cons_of_mem _ (hclosed.parent d hd)

/-! ## One turn of the removal -/

theorem removeCgroup_of_unreachable (h : ¬ host.parentVisits cls ⊆ k.dirs) :
    (removeCgroup host k cls).1 = k := by
  have hnone : host.realCgroupDir cls k.dirs = none := by
    by_contra hsome
    obtain ⟨d, hd⟩ := Option.ne_none_iff_exists'.mp hsome
    exact h (Host.realCgroupDir_eq_some.mp hd).2.1
  simp only [removeCgroup, hnone]

/-- A directory that can be reached, under a name of its own, without processes and without other
directories in it, is removed. -/
theorem removeCgroup_of_empty (hne : cls.classPath.parentPath.isEmpty = false)
    (hvisits : host.parentVisits cls ⊆ k.dirs) (hown : host.hasOwnName cls = true)
    (hmem : host.classDir cls ∈ k.dirs)
    (hchild : ∀ d ∈ k.dirs, d ≠ [] → d.dropLast ≠ host.classDir cls)
    (htask : ∀ t ∈ k.tasks, t.dir ≠ host.classDir cls) :
    (removeCgroup host k cls).1 = k.withoutDir (host.classDir cls) := by
  have hreal : host.realCgroupDir cls k.dirs = some (host.classDir cls) :=
    Host.realCgroupDir_eq_some.mpr ⟨hne, hvisits, rfl⟩
  have hdots : ¬ PathWalk.isDots cls.dirName = true := by
    intro hd
    simp [Host.hasOwnName, hd] at hown
  have hrmdir : k.rmdir (host.classDir cls) = .ok (k.withoutDir (host.classDir cls)) := by
    unfold Kernel.rmdir
    rw [if_neg (not_not.mpr hmem), if_neg, if_neg]
    · rfl
    · intro hany
      obtain ⟨t, ht, hdir⟩ := List.any_eq_true.mp hany
      exact htask t ht (of_decide_eq_true hdir)
    · intro hany
      obtain ⟨d, hd, hdec⟩ := List.any_eq_true.mp hany
      obtain ⟨hdne, hdrop⟩ := of_decide_eq_true hdec
      exact hchild d hd hdne hdrop
  have hremove : removeDir host cls (host.classDir cls) k =
      .ok (k.withoutDir (host.classDir cls)) := by
    unfold removeDir
    rw [if_neg fun h => hdots h.2, if_neg fun h => h.2 hown, hrmdir]
  simp only [removeCgroup, hreal, if_pos hmem, hremove]

/-! ## The whole removal -/

theorem tasks_removeCgroups : (removeCgroups host classes k).1.tasks = k.tasks := by
  rw [removeCgroups_frame]

theorem dirs_removeCgroup_subset : (removeCgroup host k cls).1.dirs ⊆ k.dirs := by
  intro d hd
  rcases (removeCgroup_spec host k cls).1 with h | h
  · rwa [h] at hd
  · rw [h] at hd
    exact (Kernel.mem_dirs_withoutDir.mp hd).1

theorem dirs_removeCgroups_subset : (removeCgroups host classes k).1.dirs ⊆ k.dirs := by
  induction classes with
  | nil => exact List.Subset.refl _
  | cons cls classes ih =>
    rw [removeCgroups_cons]
    exact fun d hd => ih (dirs_removeCgroup_subset hd)

/-- Where only the directory of the class is left over, a turn that can reach it removes it. -/
theorem removeCgroup_subset_of_reachable (hclosed : DirsClosed base)
    (hlaid : Laid host base (cls :: classes)) (hrest : k.dirs ⊆ host.classDir cls :: base)
    (hreach : host.classDir cls ∉ base → host.classDir cls ∈ k.dirs →
      host.parentVisits cls ⊆ k.dirs)
    (htask : ∀ t ∈ k.tasks, t.dir ≠ host.classDir cls) :
    (removeCgroup host k cls).1.dirs ⊆ base := by
  by_cases hnew : host.classDir cls ∈ base
  · intro d hd
    rcases List.mem_cons.mp (hrest (dirs_removeCgroup_subset hd)) with rfl | hd
    · exact hnew
    · exact hd
  by_cases hmem : host.classDir cls ∈ k.dirs
  · have hown : host.hasOwnName cls = true := hlaid.2.2.1.resolve_left hnew
    have hchild : ∀ d ∈ k.dirs, d ≠ [] → d.dropLast ≠ host.classDir cls := by
      intro d hd hdne hdrop
      rcases List.mem_cons.mp (hrest hd) with rfl | hd
      · have hlen := congrArg List.length hdrop
        have hpos := List.length_pos_iff.mpr hdne
        rw [List.length_dropLast] at hlen
        omega
      · exact hnew (hdrop ▸ hclosed.parent d hd)
    intro d hd
    rw [removeCgroup_of_empty hlaid.1 (hreach hnew hmem) hown hmem hchild htask] at hd
    obtain ⟨hd, hne⟩ := Kernel.mem_dirs_withoutDir.mp hd
    exact (List.mem_cons.mp (hrest hd)).resolve_left hne
  · intro d hd
    have hd' := dirs_removeCgroup_subset hd
    refine (List.mem_cons.mp (hrest hd')).resolve_left ?_
    rintro rfl
    exact hmem hd'

/-- Without processes in them, all directories that the set-up added are removed exactly when each
can be reached at its last turn. -/
theorem removeCgroups_subset_iff (hclosed : DirsClosed base) (hlaid : Laid host base classes)
    (hdirs : ∀ d ∈ k.dirs, d ∈ base ∨ ∃ cls ∈ classes, host.classDir cls = d)
    (htask : ∀ cls ∈ classes, ∀ t ∈ k.tasks, t.dir ≠ host.classDir cls) :
    (removeCgroups host classes k).1.dirs ⊆ base ↔ ReachableInTurn host base classes k := by
  induction classes generalizing base with
  | nil =>
    refine iff_of_true (fun d hd => ?_) trivial
    simpa using hdirs d hd
  | cons cls classes ih =>
    have hih := ih (hclosed.cons hlaid) hlaid.2.2.2
      (fun d hd => by have := hdirs d hd; grind) fun c hc => htask c (by simp [hc])
    rw [removeCgroups_cons, ReachableInTurn, ← hih]
    obtain ⟨s, hs⟩ : ∃ s, s = (removeCgroups host classes k).1 := ⟨_, rfl⟩
    have htask' : ∀ t ∈ s.tasks, t.dir ≠ host.classDir cls := by
      rw [hs, tasks_removeCgroups]
      exact htask cls (by simp)
    rw [← hs]
    constructor
    · intro hsub
      refine ⟨fun d hd => ?_, fun hnew hmem => ?_⟩
      · rw [List.mem_cons]
        by_cases hd' : d = host.classDir cls
        · exact .inl hd'
        · refine .inr (hsub ?_)
          rcases (removeCgroup_spec host s cls).1 with h | h
          · rwa [h]
          · rw [h]
            exact Kernel.mem_dirs_withoutDir.mpr ⟨hd, hd'⟩
      · by_contra hunreachable
        rw [removeCgroup_of_unreachable hunreachable] at hsub
        exact hnew (hsub hmem)
    · rintro ⟨hrest, hreach⟩
      exact removeCgroup_subset_of_reachable hclosed hlaid hrest hreach htask'

theorem mem_dirs_removeCgroups {d : Dir} (hd : d ∈ k.dirs)
    (hne : ∀ cls ∈ classes, host.classDir cls ≠ d) : d ∈ (removeCgroups host classes k).1.dirs := by
  induction classes with
  | nil => exact hd
  | cons cls classes ih =>
    have hrest := ih fun c hc => hne c (by simp [hc])
    rw [removeCgroups_cons]
    rcases (removeCgroup_spec host (removeCgroups host classes k).1 cls).1 with h | h
    · rwa [h]
    · rw [h]
      exact Kernel.mem_dirs_withoutDir.mpr ⟨hrest, Ne.symm (hne cls (by simp))⟩

/-- A removal cuts off no path when no class is found through the directory of a later one. -/
theorem reachableInTurn_of_pairwise (hlaid : Laid host base classes) (hbase : base ⊆ k.dirs)
    (hdirs : ∀ cls ∈ classes, host.classDir cls ∈ k.dirs)
    (hforward : classes.Pairwise fun cls later => host.classDir later ∉ host.parentVisits cls) :
    ReachableInTurn host base classes k := by
  induction classes generalizing base with
  | nil => trivial
  | cons cls classes ih =>
    obtain ⟨hlater, hforward⟩ := List.pairwise_cons.mp hforward
    refine ⟨ih hlaid.2.2.2 ?_ (fun c hc => hdirs c (by simp [hc])) hforward, fun _ _ d hd => ?_⟩
    · exact List.cons_subset.mpr ⟨hdirs cls (by simp), hbase⟩
    · refine mem_dirs_removeCgroups (hbase (hlaid.2.1 hd)) fun c hc heq => ?_
      exact hlater c hc (heq ▸ hd)

end WifiOffload
