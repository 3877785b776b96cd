import WifiOffload.Library.StateMachine
import WifiOffload.Wpa.Ctrl

/-!
# The names of client sockets

`wpa_ctrl_open2` and `wpa_ctrl_close`, `wpa/wpa_ctrl.c`, called by the monitors of several classes
at once, each on its own thread. The number in a name is in a static variable: it is raised in one
step and read in another, and a name in use is taken for a leftover and removed. A monitor gets no
messages when its name has gone to another socket, so that each must own its name.
-/

namespace WifiOffload

open StateMachine

/-- How far a thread is in `wpa_ctrl_open2`; `again` says that a name was in use. -/
inductive OpenPoint where
  | closed
  | counted (again : Bool)
  | named (path : Bytes) (again : Bool)
  | opened (path : Bytes)
  deriving DecidableEq, Repr

/-- Between the raise of the counter and the end of the `bind`. -/
def OpenPoint.opening : OpenPoint → Bool
  | .counted _ | .named _ _ => true
  | .closed | .opened _ => false

/-- What a name stands for: a socket of a thread, or one of an earlier process. -/
inductive Owner where
  | leftover
  | thread (i : Nat)
  deriving DecidableEq, Repr

/-- The counter is a `static int`: it counts as one here in runs of fewer than 2^31 opens. -/
structure OpenThreads where
  counter : Nat := 0
  files : Bytes → Option Owner := fun _ => none
  point : Nat → OpenPoint := fun _ => .closed

inductive OpenEvent where
  /-- `counter++` -/
  | count (i : Nat)
  /-- `os_snprintf` with the counter -/
  | name (i : Nat)
  /-- `bind`, which can fail for reasons other than a name in use; behind one that finds the name in
  use, `unlink` succeeds -/
  | bind (i : Nat) (fails : Bool)
  /-- `wpa_ctrl_close`, or the clean-up behind a `connect` that fails; control paths fit -/
  | close (i : Nat)
  deriving DecidableEq, Repr

/-- The thread that takes the step. -/
def OpenEvent.actor : OpenEvent → Nat
  | .count i | .name i | .bind i _ | .close i => i

namespace OpenThreads

def goTo (s : OpenThreads) (i : Nat) (p : OpenPoint) : OpenThreads :=
  { s with point := Function.update s.point i p }

def unlink (s : OpenThreads) (path : Bytes) : OpenThreads :=
  { s with files := Function.update s.files path none }

def step (pid : Nat) (s : OpenThreads) : OpenEvent → OpenThreads
  | .count i =>
    match s.point i with
    | .closed => { s.goTo i (.counted false) with counter := s.counter + 1 }
    | _ => s
  | .name i =>
    match s.point i with
    | .counted again => s.goTo i (.named (clientPath pid s.counter none) again)
    | _ => s
  | .bind i fails =>
    match s.point i with
    | .named path again =>
      if (s.files path).isSome then
        if again then s.goTo i .closed else (s.unlink path).goTo i (.counted true)
      else if fails then s.goTo i .closed
      else { s.goTo i (.opened path) with
        files := Function.update s.files path (some (.thread i)) }
    | _ => s
  | .close i =>
    match s.point i with
    | .opened path => (s.unlink path).goTo i .closed
    | _ => s

/-- The name of every open socket leads to it. -/
def Owned (s : OpenThreads) : Prop :=
  ∀ i path, s.point i = .opened path → s.files path = some (.thread i)

/-- No thread raises the counter while another one is opening. -/
def Undisturbed (s : OpenThreads) : OpenEvent → Prop
  | .count i => ∀ j ≠ i, (s.point j).opening = false
  | .name _ | .bind _ _ | .close _ => True

/-- What holds while no open is disturbed: one thread is opening at most, for the number that
no open socket has. -/
structure OneOpening (pid : Nat) (s : OpenThreads) : Prop where
  owned : s.Owned
  numbered : ∀ i path, s.point i = .opened path →
    ∃ n ≤ s.counter, path = clientPath pid n none
  alone : ∀ i j, (s.point i).opening = true → (s.point j).opening = true → i = j
  fresh : ∀ i, (s.point i).opening = true → ∀ j, s.point j ≠ .opened (clientPath pid s.counter none)
  current : ∀ i path again, s.point i = .named path again → path = clientPath pid s.counter none

variable {pid : Nat} {s : OpenThreads}

/-- Different numbers make different names. -/
theorem clientPath_injective (pid : Nat) (cliPath : Option Bytes) :
    Function.Injective fun n => clientPath pid n cliPath := by
  intro m n h
  exact Word.decimal_injective (List.append_cancel_left h)

@[simp] theorem goTo_point_self (s : OpenThreads) (i : Nat) (p : OpenPoint) :
    (s.goTo i p).point i = p := Function.update_self _ _ _

theorem goTo_point_of_ne (s : OpenThreads) {i j : Nat} (p : OpenPoint) (h : j ≠ i) :
    (s.goTo i p).point j = s.point j := Function.update_of_ne h _ _

theorem goTo_point_eq_opened {i j : Nat} {p : OpenPoint} {path : Bytes}
    (hp : ∀ path, p ≠ .opened path) :
    (s.goTo i p).point j = .opened path ↔ j ≠ i ∧ s.point j = .opened path := by
  by_cases h : j = i
  · subst h
    simp [hp]
  · simp [goTo_point_of_ne s p h, h]

/-- A step of one thread leaves the others where they are. -/
theorem step_point_of_ne (pid : Nat) (s : OpenThreads) {e : OpenEvent} {j : Nat}
    (h : e.actor ≠ j) : (s.step pid e).point j = s.point j := by
  have hgo (i : Nat) (hi : i ≠ j) (p : OpenPoint) : (s.goTo i p).point j = s.point j :=
    goTo_point_of_ne s p hi.symm
  cases e <;> simp only [step] <;> split <;> (try split) <;> (try split) <;>
    first | rfl | exact hgo _ h _

/-- A thread that leaves its point for one that is not open has the others keep what they own. -/
theorem OneOpening.goTo (h : s.OneOpening pid) {i : Nat} {p : OpenPoint}
    (hopened : ∀ path, p ≠ .opened path)
    (hopening : p.opening = true → (s.point i).opening = true)
    (hcurrent : ∀ path again, p = .named path again → path = clientPath pid s.counter none) :
    (s.goTo i p).OneOpening pid := by
  have hpoint (j : Nat) : (j = i ∧ (s.goTo i p).point j = p) ∨
      (j ≠ i ∧ (s.goTo i p).point j = s.point j) := by
    by_cases hj : j = i
    · subst hj
      exact .inl ⟨rfl, goTo_point_self s j p⟩
    · exact .inr ⟨hj, goTo_point_of_ne s p hj⟩
  have hwas {j : Nat} (hj : ((s.goTo i p).point j).opening = true) :
      (s.point j).opening = true := by
    rcases hpoint j with ⟨rfl, heq⟩ | ⟨-, heq⟩
    · exact hopening (heq ▸ hj)
    · exact heq ▸ hj
  refine ⟨fun j path hj => ?_, fun j path hj => ?_,
    fun j k hj hk => h.alone j k (hwas hj) (hwas hk), fun j hj k hk => ?_,
    fun j path again hj => ?_⟩
  · exact h.owned j path ((goTo_point_eq_opened hopened).mp hj).2
  · exact h.numbered j path ((goTo_point_eq_opened hopened).mp hj).2
  · exact h.fresh j (hwas hj) k ((goTo_point_eq_opened hopened).mp hk).2
  · rcases hpoint j with ⟨rfl, heq⟩ | ⟨-, heq⟩
    · exact hcurrent path again (heq.symm.trans hj)
    · exact h.current j path again (heq.symm.trans hj)

/-- The removal of a name that no open socket has. -/
theorem OneOpening.unlink (h : s.OneOpening pid) {path : Bytes}
    (hnone : ∀ j, s.point j ≠ .opened path) : (s.unlink path).OneOpening pid := by
  refine ⟨fun j path' hj => ?_, h.numbered, h.alone, h.fresh, h.current⟩
  have hne : path' ≠ path := fun heq => hnone j (heq ▸ hj)
  exact (Function.update_of_ne hne _ _).trans (h.owned j path' hj)

theorem OneOpening.count (h : s.OneOpening pid) {i : Nat}
    (hother : ∀ j ≠ i, (s.point j).opening = false) :
    ({ s.goTo i (.counted false) with counter := s.counter + 1 }).OneOpening pid := by
  have hopened {j : Nat} {path : Bytes} (hj : (s.goTo i (.counted false)).point j = .opened path) :
      s.point j = .opened path := ((goTo_point_eq_opened (by simp)).mp hj).2
  have hself {j : Nat} (hj : ((s.goTo i (.counted false)).point j).opening = true) : j = i := by
    by_contra hne
    rw [goTo_point_of_ne s _ hne, hother j hne] at hj
    cases hj
  refine ⟨fun j path hj => h.owned j path (hopened hj), fun j path hj => ?_,
    fun j k hj hk => (hself hj).trans (hself hk).symm, fun j _ k hk => ?_,
    fun j path again hj => ?_⟩
  · obtain ⟨n, hn, hpath⟩ := h.numbered j path (hopened hj)
    exact ⟨n, by simpa using Nat.le_succ_of_le hn, hpath⟩
  · obtain ⟨n, hn, hpath⟩ := h.numbered k _ (hopened hk)
    have heq := clientPath_injective pid none hpath
    simp only at heq
    omega
  · obtain rfl : j = i := hself (by rw [hj]; rfl)
    simp at hj

/-- A socket that is bound to the number of the counter. -/
theorem OneOpening.open (h : s.OneOpening pid) {i : Nat} (hi : (s.point i).opening = true) :
    ({ s.goTo i (.opened (clientPath pid s.counter none)) with
      files := Function.update s.files (clientPath pid s.counter none)
        (some (.thread i)) }).OneOpening pid := by
  have hpoint (j : Nat) (hj : j ≠ i) :
      (s.goTo i (.opened (clientPath pid s.counter none))).point j = s.point j :=
    goTo_point_of_ne s _ hj
  have hclosed {j : Nat}
      (hj : ((s.goTo i (.opened (clientPath pid s.counter none))).point j).opening = true) :
      False := by
    by_cases hne : j = i
    · subst hne
      simp [OpenPoint.opening] at hj
    · rw [hpoint j hne] at hj
      exact hne (h.alone j i hj hi)
  refine ⟨fun j path hj => ?_, fun j path hj => ?_, fun j _ hj => (hclosed hj).elim,
    fun j hj => (hclosed hj).elim, fun j path again hj => ?_⟩
  · by_cases hne : j = i
    · subst hne
      simp only [goTo_point_self, OpenPoint.opened.injEq] at hj
      rw [← hj]
      exact Function.update_self _ _ _
    · simp only [hpoint j hne] at hj
      have hpath : path ≠ clientPath pid s.counter none := fun heq => h.fresh i hi j (heq ▸ hj)
      exact (Function.update_of_ne hpath _ _).trans (h.owned j path hj)
  · by_cases hne : j = i
    · subst hne
      simp only [goTo_point_self, OpenPoint.opened.injEq] at hj
      exact ⟨s.counter, le_refl _, hj.symm⟩
    · simp only [hpoint j hne] at hj
      exact h.numbered j path hj
  · exact (hclosed (j := j) (by simp only at hj; rw [hj]; rfl)).elim

theorem OneOpening.step (h : s.OneOpening pid) (e : OpenEvent) (hun : s.Undisturbed e) :
    (s.step pid e).OneOpening pid := by
  cases e with
  | count i =>
    simp only [OpenThreads.step]
    split
    · exact h.count hun
    · exact h
  | name i =>
    simp only [OpenThreads.step]
    split
    · next again hi =>
      refine h.goTo (by simp) (fun _ => by rw [hi]; rfl) fun path again heq => ?_
      exact (OpenPoint.named.inj heq).1.symm
    · exact h
  | bind i fails =>
    simp only [OpenThreads.step]
    split
    · next path again hi =>
      have hopening : (s.point i).opening = true := by rw [hi]; rfl
      obtain rfl := h.current i path again hi
      split
      · split
        · exact h.goTo (by simp) (by simp [OpenPoint.opening]) (by simp)
        · exact (h.unlink (h.fresh i hopening)).goTo (by simp) (fun _ => hopening) (by simp)
      · split
        · exact h.goTo (by simp) (by simp [OpenPoint.opening]) (by simp)
        · exact h.open hopening
    · exact h
  | close i =>
    simp only [OpenThreads.step]
    split
    · next path hi =>
      have hclosed : (s.goTo i .closed).OneOpening pid :=
        h.goTo (by simp) (by simp [OpenPoint.opening]) (by simp)
      refine hclosed.unlink fun j hj => ?_
      obtain ⟨hne, hj⟩ := (goTo_point_eq_opened (by simp)).mp hj
      have hsame := (h.owned i path hi).symm.trans (h.owned j path hj)
      exact hne (Owner.thread.inj (Option.some.inj hsame)).symm
    · exact h

/-- The monitors before the first open, with what earlier processes have left. -/
def initial (files : Bytes → Option Owner) : OpenThreads := { files }

/-- In every run in which no open is disturbed, the name of every open socket leads to it,
whatever earlier processes have left. -/
theorem owned_of_undisturbed (pid : Nat) (files : Bytes → Option Owner) (events : List OpenEvent)
    (h : StepsMeet (step pid) Undisturbed (initial files) events) :
    Throughout (step pid) Owned (initial files) events := by
  have hstart : (initial files).OneOpening pid :=
    ⟨by simp [Owned, initial], by simp [initial], by simp [initial, OpenPoint.opening],
      by simp [initial], by simp [initial]⟩
  exact (throughout_of_step (P := fun s => s.OneOpening pid) (C := Undisturbed)
    (fun _ e hs hun => hs.step e hun) hstart h).mono fun _ hs => hs.owned

/-- Two monitors one after the other, where a leftover has the name of the first. -/
theorem owned_of_undisturbed_two :
    let files : Bytes → Option Owner := fun path =>
      if path = clientPath 417 1 none then some .leftover else none
    let events : List OpenEvent := [.count 0, .name 0, .bind 0 false, .name 0, .bind 0 false,
      .count 1, .name 1, .bind 1 false, .close 0]
    Throughout (step 417) Owned (initial files) events := by
  intro files events
  refine owned_of_undisturbed 417 files events ?_
  have hother : ∀ j ≠ 1, ((run (step 417) (initial files) [.count 0, .name 0, .bind 0 false,
      .name 0, .bind 0 false]).point j).opening = false := by
    intro j _
    by_cases hj : j = 0
    · subst hj
      decide
    · simp only [run_cons, run_nil]
      repeat rw [step_point_of_ne 417 _ (Ne.symm hj)]
      rfl
  exact ⟨fun _ _ => rfl, trivial, trivial, trivial, trivial, hother, trivial, trivial, trivial,
    trivial⟩

/-- Two monitors that start together read the same number, and the second one takes the name of
the first for a leftover. -/
theorem disturbed_open_loses_name :
    ¬ ∀ (pid : Nat) (files : Bytes → Option Owner) (events : List OpenEvent),
        Throughout (step pid) Owned (initial files) events := by
  intro h
  have hrun := (h 417 (fun _ => none) [.count 0, .count 1, .name 0, .name 1, .bind 0 false,
    .bind 1 false]).last
  have hpoint : (run (step 417) (initial fun _ => none) [.count 0, .count 1, .name 0, .name 1,
      .bind 0 false, .bind 1 false]).point 0 = .opened (clientPath 417 2 none) := by decide
  exact absurd (hrun 0 _ hpoint) (by decide)

end OpenThreads
end WifiOffload
