import WifiOffload.Api.Descriptors
import WifiOffload.Library.Potential

/-!
# Start, loop and stop of the server

`ConsumerApiServer::start`, `runLoop` and `stop` around the calls of all threads on descriptors:
a failed start gives back what it has opened, a stop ends the loop after one `epoll_wait` more at
most, and then closes the connections of the registry and the three descriptors of the server.
The closes of `stop` are taken as one step.
-/

namespace WifiOffload

open StateMachine

inductive StartCall where
  | socket | bind | listen | epollCreate | eventfd | addListen | addWakeup
  deriving DecidableEq, Repr

/-- The numbers that a start gets, and the call that fails. -/
structure StartEnv where
  listenFd : Nat
  epollFd : Nat
  wakeupFd : Nat
  failing : Option StartCall := none
  deriving DecidableEq, Repr

/-- How `epoll_wait` returns, with the number of events in front of that of `wakeupFd_`. -/
inductive WaitOutcome where
  | ready (batch : List ReadyEvent) (wakeup : Option Nat)
  | interrupted | failed
  deriving DecidableEq, Repr

inductive LoopPoint where
  | notStarted | check | wait
  | batch (wakeup : Option Nat)
  | ended
  deriving DecidableEq, Repr

/-- How far a stop is: in front of the write to `wakeupFd_`, or of the join. -/
inductive StopPoint where
  | idle | write | join
  deriving DecidableEq, Repr

structure ApiProcess where
  threads : FdThreads
  listenFd : Option Nat := none
  epollFd : Option Nat := none
  wakeupFd : Option Nat := none
  running : Bool := false
  /-- the counter behind `wakeupFd_` is not zero -/
  signalled : Bool := false
  loop : LoopPoint := .notStarted
  stopping : StopPoint := .idle
  /-- the name of the socket exists -/
  bound : Bool := false

namespace FdThreads

/-- `stop` closes the connections of the registry. -/
def closeEntries (t : FdThreads) (entries : List ConsumerEntry) : FdThreads :=
  entries.foldl (fun t e => t.closeFd e.fd (t.owner e.fd)) t

/-- The threads once the connections of the registry are closed and it is empty. -/
def cleared (t : FdThreads) : FdThreads :=
  let t' := t.closeEntries t.server.registry
  { t' with server := { t'.server with registry := [] } }

/-- The number is open for neither a connection nor another thread. -/
def Unheld (t : FdThreads) (x : Nat) : Prop :=
  (∃ id, t.fds.files x = some (.other id)) ∧ x ∉ t.held

variable {t : FdThreads} {fd meant x : Nat}

theorem not_unheld_of_names (h : t.fds.Names fd meant) : ¬ t.Unheld fd := by
  rintro ⟨⟨id, hid⟩, -⟩
  rw [FdTable.Names, hid] at h
  cases h

theorem not_unheld_of_free (h : t.fds.files fd = none) : ¬ t.Unheld fd := by
  rintro ⟨⟨id, hid⟩, -⟩
  rw [h] at hid
  cases hid

theorem unheld_closeFd (hnames : t.fds.Names fd meant) :
    (t.closeFd fd meant).Unheld x ↔ t.Unheld x := by
  by_cases hx : x = fd
  · subst hx
    refine iff_of_false (fun h => ?_) (not_unheld_of_names hnames)
    obtain ⟨⟨id, hid⟩, -⟩ := h
    simp [closeFd, FdTable.close] at hid
  · simp [Unheld, closeFd, FdTable.close, FdTable.unwatch, use, hx]

theorem unheld_accept (hfree : t.fds.files fd = none) (added : Bool) :
    Unheld { t with fds := t.fds.accept fd added } x ↔ t.Unheld x := by
  by_cases hx : x = fd
  · subst hx
    refine iff_of_false ?_ (not_unheld_of_free hfree)
    rintro ⟨⟨id, hid⟩, -⟩
    simp [FdTable.accept] at hid
  · simp [Unheld, FdTable.accept, hx]

theorem unheld_handleMsg (conn : Nat) (msg : ApiMsg) :
    (t.handleMsg fd conn msg).Unheld x ↔ t.Unheld x := by
  unfold handleMsg
  split_ifs <;> exact Iff.rfl

theorem unheld_apiStep (h : t.Intact) (a : ApiStep) : (t.apiStep a).Unheld x ↔ t.Unheld x := by
  cases a with
  | accept fd added =>
    simp only [apiStep]
    split
    · split
      · exact Iff.rfl
      · next hfree =>
        have hfree : t.fds.files fd = none := by simpa using hfree
        split
        · exact unheld_accept hfree true
        · refine Iff.trans (unheld_closeFd ?_) (unheld_accept hfree false)
          exact FdTable.names_accept.mpr (.inl ⟨rfl, rfl⟩)
    · exact Iff.rfl
  | handle =>
    simp only [apiStep]
    split
    · exact unheld_handleMsg _ _
    · exact Iff.rfl
  | close =>
    simp only [apiStep]
    split
    · next fd conn hapi => exact unheld_closeFd (h.current hapi rfl)
    · exact Iff.rfl
  | wait | next | noMore | recv | reply | epollDel | erase =>
    simp only [apiStep]
    repeat' split
    all_goals exact Iff.rfl

theorem unheld_sweepStep (h : t.Intact) {b : SweepStep} (hb : t.Undisturbed (.sweep b)) :
    (t.sweepStep b).Unheld x ↔ t.Unheld x := by
  cases b with
  | close =>
    simp only [sweepStep]
    split
    · next e failed hsweep =>
      exact unheld_closeFd (h.target hb (e := e) (by simp [target, hsweep]))
    · exact Iff.rfl
  | lock | send | drop | epollDel =>
    simp only [sweepStep]
    split <;> exact Iff.rfl

theorem unheld_opened : (t.step (.opened fd)).Unheld x ↔ t.Unheld x := by
  simp only [step]
  split
  · next hfree =>
    by_cases hx : x = fd
    · subst hx
      refine iff_of_false ?_ (not_unheld_of_free hfree)
      rintro ⟨-, hheld⟩
      simp at hheld
    · simp [Unheld, FdTable.openOther, hx]
  · exact Iff.rfl

theorem unheld_closed : (t.step (.closed fd)).Unheld x ↔ t.Unheld x := by
  simp only [step]
  split
  · next hheld =>
    by_cases hx : x = fd
    · subst hx
      refine iff_of_false ?_ (fun h => h.2 hheld)
      rintro ⟨⟨id, hid⟩, -⟩
      simp [FdTable.close] at hid
    · simp [Unheld, FdTable.close, FdTable.unwatch, hx]
  · exact Iff.rfl

/-! ## The closes of the registry -/

variable {entries : List ConsumerEntry}

@[simp] theorem closeEntries_nil : t.closeEntries [] = t := rfl

@[simp] theorem closeEntries_cons (e : ConsumerEntry) :
    t.closeEntries (e :: entries) = (t.closeFd e.fd (t.owner e.fd)).closeEntries entries := rfl

theorem files_closeEntries (t : FdThreads) (entries : List ConsumerEntry) (x : Nat) :
    (t.closeEntries entries).fds.files x =
      if x ∈ entries.map (·.fd) then none else t.fds.files x := by
  induction entries generalizing t with
  | nil => simp
  | cons e entries ih =>
    rw [closeEntries_cons, ih]
    by_cases hx : x = e.fd <;> simp [closeFd, FdTable.close, FdTable.unwatch, use, hx]

/-- Besides the table and the log nothing changes. -/
theorem closeEntries_frame (t : FdThreads) (entries : List ConsumerEntry) :
    t.closeEntries entries =
      { t with fds := (t.closeEntries entries).fds, uses := (t.closeEntries entries).uses } := by
  induction entries generalizing t with
  | nil => rfl
  | cons e entries ih =>
    rw [closeEntries_cons, ih]
    rfl

theorem sound_closeEntries (hsound : t.fds.Sound t.closes)
    (hhits : ∀ u ∈ t.uses, u.hit = some (.connection u.meant))
    (hnames : ∀ e ∈ entries, t.fds.Names e.fd (t.owner e.fd))
    (hnodup : (entries.map (·.fd)).Nodup) :
    (t.closeEntries entries).fds.Sound (t.closeEntries entries).closes ∧
      ∀ u ∈ (t.closeEntries entries).uses, u.hit = some (.connection u.meant) := by
  induction entries generalizing t with
  | nil => exact ⟨hsound, hhits⟩
  | cons e entries ih =>
    obtain ⟨hhead, hnodup⟩ := List.nodup_cons.mp hnodup
    have hown := hnames e (by simp)
    refine ih ?_ ?_ ?_ hnodup
    · have hcloses : (t.closeFd e.fd (t.owner e.fd)).closes = t.closes ++ [t.owner e.fd] :=
        closes_use
      change (t.closeFd e.fd (t.owner e.fd)).fds.Sound (t.closeFd e.fd (t.owner e.fd)).closes
      rw [hcloses]
      exact hsound.close hown
    · intro u hu
      rcases List.mem_append.mp hu with hu | hu
      · exact hhits u hu
      · rw [List.mem_singleton.mp hu]
        exact hown
    · intro e' he'
      have hne : e'.fd ≠ e.fd := by
        intro heq
        exact hhead (List.mem_map.mpr ⟨e', he', heq⟩)
      exact FdTable.names_close.mpr ⟨hne, hnames e' (by simp [he'])⟩

theorem Intact.cleared (h : t.Intact) (hapi : t.api = .idle) (hbatch : t.batch = [])
    (hsweep : t.sweep = .idle) : t.cleared.Intact := by
  have hnames : ∀ e ∈ t.server.registry, t.fds.Names e.fd (t.owner e.fd) :=
    fun e he => h.entries e he (by simp [hapi])
  obtain ⟨hsound, hhits⟩ := sound_closeEntries h.sound h.hits hnames h.valid.fds_nodup
  have hframe := closeEntries_frame t t.server.registry
  have hpending : t.cleared.pending = [] := by
    unfold FdThreads.pending FdThreads.cleared
    rw [hframe]
    simp [hapi, hbatch, ApiThread.current, clientsOf]
  have hidle : t.cleared.sweep = .idle := by
    unfold FdThreads.cleared
    rw [hframe]
    exact hsweep
  refine ⟨hsound, hhits, ⟨List.nodup_nil, fun e he => by cases he⟩, ?_, ?_, ?_, ?_, ?_, ?_, ?_⟩
  · intro x hx
    have hheld : x ∈ t.held := by
      unfold FdThreads.cleared at hx
      rw [hframe] at hx
      exact hx
    obtain ⟨id, hid⟩ := h.held x hheld
    refine ⟨id, ?_⟩
    change (t.closeEntries t.server.registry).fds.files x = _
    rw [files_closeEntries, if_neg, hid]
    intro hmem
    obtain ⟨e, he, rfl⟩ := List.mem_map.mp hmem
    have hown := hnames e he
    rw [FdTable.Names, hid] at hown
    cases hown
  · intro q hq
    rw [hpending] at hq
    cases hq
  · rw [hpending]
    exact List.nodup_nil
  · intro e he
    cases he
  · exact fun e he => absurd he (not_listed_of_idle hidle e).1
  · rw [hidle]
    exact List.nodup_nil
  · exact fun e he => absurd he (not_listed_of_idle hidle e).2

theorem unheld_cleared (h : t.Intact) (hapi : t.api = .idle) :
    t.cleared.Unheld x ↔ t.Unheld x := by
  have hframe := closeEntries_frame t t.server.registry
  have hheld : t.cleared.held = t.held := by
    unfold FdThreads.cleared
    rw [hframe]
  have hfiles : t.cleared.fds.files x =
      if x ∈ t.server.registry.map (·.fd) then none else t.fds.files x :=
    files_closeEntries t t.server.registry x
  by_cases hx : x ∈ t.server.registry.map (·.fd)
  · refine iff_of_false (not_unheld_of_free (by rw [hfiles, if_pos hx])) ?_
    obtain ⟨e, he, rfl⟩ := List.mem_map.mp hx
    exact not_unheld_of_names (h.entries e he (by simp [hapi]))
  · rw [if_neg hx] at hfiles
    simp only [Unheld, hfiles, hheld]

end FdThreads

namespace ApiProcess

inductive Event where
  | start (env : StartEnv)
  /-- the condition of the loop, or the end of a batch -/
  | proceed
  | epollWait (outcome : WaitOutcome)
  | handle (a : FdThreads.ApiStep)
  | wakeup
  | stop
  | sweep (b : FdThreads.SweepStep)
  | opened (fd : Nat)
  | closed (fd : Nat)

def fresh (classes : List PathClassConfig) : ApiProcess := { threads := .fresh classes }

variable (p : ApiProcess)

def openFd (fd : Nat) : ApiProcess :=
  { p with threads := { p.threads with fds := p.threads.fds.openOther fd } }

def closeFd (fd : Nat) : ApiProcess :=
  { p with threads := { p.threads with fds := p.threads.fds.close fd } }

def closeListen : ApiProcess :=
  match p.listenFd with
  | some fd => { p.closeFd fd with listenFd := none }
  | none => p

def closeEpoll : ApiProcess :=
  match p.epollFd with
  | some fd => { p.closeFd fd with epollFd := none }
  | none => p

def closeWakeup : ApiProcess :=
  match p.wakeupFd with
  | some fd => { p.closeFd fd with wakeupFd := none, signalled := false }
  | none => p

def openListen (fd : Nat) : ApiProcess := { p.openFd fd with listenFd := some fd }

def openEpoll (fd : Nat) : ApiProcess := { p.openFd fd with epollFd := some fd }

def openWakeup (fd : Nat) : ApiProcess :=
  { p.openFd fd with wakeupFd := some fd, signalled := false }

def start (env : StartEnv) : Bool × ApiProcess :=
  -- a stale name is removed first
  let p := { p with bound := false }
  if env.failing = some .socket then (false, p)
  else
    let p := p.openListen env.listenFd
    if env.failing = some .bind then (false, p.closeListen)
    else
      let p := { p with bound := true }
      if env.failing = some .listen ∨ env.failing = some .epollCreate then (false, p.closeListen)
      else
        let p := p.openEpoll env.epollFd
        if env.failing = some .eventfd then (false, p.closeEpoll.closeListen)
        else
          let p := p.openWakeup env.wakeupFd
          if env.failing = some .addListen ∨ env.failing = some .addWakeup then
            (false, p.closeWakeup.closeEpoll.closeListen)
          else (true, { p with running := true, loop := .check })

/-- The closes of `stop` behind the join. -/
def release : ApiProcess :=
  let p := { p with threads := p.threads.cleared }
  { p.closeWakeup.closeEpoll.closeListen with
    bound := false, loop := .notStarted, stopping := .idle }

/-- The next statement of `stop`, which does nothing where the server does not run. -/
def stop : ApiProcess :=
  match p.stopping with
  | .idle => if p.running then { p with running := false, stopping := .write } else p
  | .write => { p with signalled := p.wakeupFd.isSome, stopping := .join }
  | .join => if p.loop = .ended ∧ p.threads.sweep = .idle then p.release else p

/-- The kernel gives free numbers. -/
def Free (env : StartEnv) : Prop :=
  p.threads.fds.files env.listenFd = none ∧ p.threads.fds.files env.epollFd = none ∧
    p.threads.fds.files env.wakeupFd = none ∧ env.listenFd ≠ env.epollFd ∧
      env.listenFd ≠ env.wakeupFd ∧ env.epollFd ≠ env.wakeupFd

instance (env : StartEnv) : Decidable (p.Free env) :=
  inferInstanceAs (Decidable (_ ∧ _ ∧ _ ∧ _ ∧ _ ∧ _))

/-- A step of the API thread in a batch, where the event of `wakeupFd_` is not the next. -/
def handle (wakeup : Option Nat) (a : FdThreads.ApiStep) : ApiProcess :=
  match a with
  | .wait _ => p
  | .next =>
    match wakeup with
    | none => { p with threads := p.threads.apiStep .next }
    | some 0 => p
    | some (n + 1) =>
      if p.threads.api = .idle then
        { p with threads := p.threads.apiStep .next, loop := .batch (some n) }
      else p
  | a => { p with threads := p.threads.apiStep a }

def step : Event → ApiProcess
  | .start env =>
    if p.loop = .notStarted ∧ p.Free env then (p.start env).2 else p
  | .proceed =>
    match p.loop with
    | .check => { p with loop := if p.running then .wait else .ended }
    | .batch none =>
      if p.threads.api = .idle ∧ p.threads.batch = [] then { p with loop := .check } else p
    | _ => p
  | .epollWait outcome =>
    match p.loop with
    | .wait =>
      match outcome with
      | .ready batch wakeup =>
        { p with
          threads := p.threads.apiStep (.wait batch)
          loop := .batch (if p.signalled then wakeup else none) }
      | .interrupted => { p with loop := .check }
      | .failed => { p with loop := .ended }
    | _ => p
  | .handle a =>
    match p.loop with
    | .batch wakeup => p.handle wakeup a
    | _ => p
  | .wakeup =>
    match p.loop with
    | .batch (some n) =>
      if p.threads.api = .idle ∧ (n = 0 ∨ p.threads.batch = []) then
        { p with threads := { p.threads with batch := [] }, loop := .ended }
      else p
    | _ => p
  | .stop => p.stop
  | .sweep b => { p with threads := p.threads.sweepStep b }
  | .opened fd => { p with threads := p.threads.step (.opened fd) }
  | .closed fd => { p with threads := p.threads.step (.closed fd) }

variable {p}

/-! ## The descriptors of the server -/

theorem closeListen_frame (p : ApiProcess) : p.closeListen =
    { p with
      threads := { p.threads with fds := p.closeListen.threads.fds }
      listenFd := none } := by
  unfold closeListen
  split
  · rfl
  · next hnone => rw [← hnone]

theorem closeEpoll_frame (p : ApiProcess) : p.closeEpoll =
    { p with
      threads := { p.threads with fds := p.closeEpoll.threads.fds }
      epollFd := none } := by
  unfold closeEpoll
  split
  · rfl
  · next hnone => rw [← hnone]

theorem closeWakeup_frame (p : ApiProcess) : p.closeWakeup =
    { p with
      threads := { p.threads with fds := p.closeWakeup.threads.fds }
      wakeupFd := none
      signalled := p.closeWakeup.signalled } := by
  unfold closeWakeup
  split
  · rfl
  · next hnone => rw [← hnone]

def ownFds (p : ApiProcess) : List Nat :=
  p.listenFd.toList ++ p.epollFd.toList ++ p.wakeupFd.toList

/-- The numbers that are open for neither a connection nor another thread are those of the
server. -/
structure OwnsFds (p : ApiProcess) : Prop where
  intact : p.threads.Intact
  own : ∀ x, p.threads.Unheld x ↔ x ∈ p.ownFds
  nodup : p.ownFds.Nodup

namespace OwnsFds

variable {q : ApiProcess} {fd : Nat}

theorem openFd (h : p.OwnsFds) (hfree : p.threads.fds.files fd = none)
    (hq : q.threads = (p.openFd fd).threads) (hperm : q.ownFds.Perm (fd :: p.ownFds)) :
    q.OwnsFds := by
  have hheld : fd ∉ p.threads.held := by
    intro hmem
    obtain ⟨id, hid⟩ := h.intact.held fd hmem
    rw [hfree] at hid
    cases hid
  have hopened := h.intact.opened hfree
  refine ⟨?_, fun x => ?_, ?_⟩
  · rw [hq]
    exact { hopened with held := fun x hx => hopened.held x (List.mem_append_left _ hx) }
  · rw [hperm.mem_iff, List.mem_cons, ← h.own, hq]
    by_cases hx : x = fd
    · subst hx
      simp [FdThreads.Unheld, ApiProcess.openFd, FdTable.openOther, hheld]
    · simp [FdThreads.Unheld, ApiProcess.openFd, FdTable.openOther, hx]
  · refine hperm.nodup_iff.mpr (List.nodup_cons.mpr ⟨fun hmem => ?_, h.nodup⟩)
    exact FdThreads.not_unheld_of_free hfree ((h.own fd).mpr hmem)

theorem closeFd (h : p.OwnsFds) (hq : q.threads = (p.closeFd fd).threads)
    (hperm : p.ownFds.Perm (fd :: q.ownFds)) : q.OwnsFds := by
  obtain ⟨⟨id, hid⟩, hheld⟩ := (h.own fd).mpr (hperm.mem_iff.mpr (by simp))
  obtain ⟨hnot, hnodup⟩ := List.nodup_cons.mp (hperm.nodup_iff.mp h.nodup)
  have hkeep {x c : Nat} (hnames : p.threads.fds.Names x c) :
      (p.threads.fds.close fd).Names x c := by
    refine FdTable.names_close.mpr ⟨?_, hnames⟩
    rintro rfl
    rw [FdTable.Names, hid] at hnames
    cases hnames
  refine ⟨?_, fun x => ?_, hnodup⟩
  · rw [hq]
    exact { h.intact with
      sound := h.intact.sound.closeOther
      held := by
        intro x hx
        have hne : x ≠ fd := fun heq => hheld (heq ▸ hx)
        obtain ⟨other, hother⟩ := h.intact.held x hx
        exact ⟨other, by simpa [ApiProcess.closeFd, FdTable.close, hne] using hother⟩
      pending := fun q hq => hkeep (h.intact.pending q hq)
      entries := fun e he hne => hkeep (h.intact.entries e he hne)
      dropped := fun e he =>
        ⟨fun hne => hkeep ((h.intact.dropped e he).1 hne), (h.intact.dropped e he).2⟩ }
  · have hown := h.own x
    rw [hperm.mem_iff, List.mem_cons] at hown
    rw [hq]
    by_cases hx : x = fd
    · subst hx
      simp [FdThreads.Unheld, ApiProcess.closeFd, FdTable.close, hnot]
    · simpa [FdThreads.Unheld, ApiProcess.closeFd, FdTable.close, FdTable.unwatch, hx] using hown

theorem closeListen (h : p.OwnsFds) : p.closeListen.OwnsFds := by
  unfold ApiProcess.closeListen
  split
  · next fd hfd => exact h.closeFd rfl (by simp [ownFds, hfd, ApiProcess.closeFd])
  · exact h

theorem closeEpoll (h : p.OwnsFds) : p.closeEpoll.OwnsFds := by
  unfold ApiProcess.closeEpoll
  split
  · next fd hfd =>
    exact h.closeFd rfl (by simp [ownFds, hfd, ApiProcess.closeFd])
  · exact h

theorem closeWakeup (h : p.OwnsFds) : p.closeWakeup.OwnsFds := by
  unfold ApiProcess.closeWakeup
  split
  · next fd hfd =>
    exact h.closeFd rfl (by simp [ownFds, hfd, ApiProcess.closeFd, -List.append_assoc])
  · exact h

/-- A step of the threads keeps the numbers of the server. -/
theorem setThreads (h : p.OwnsFds) {t : FdThreads} (ht : t.Intact)
    (hown : ∀ x, t.Unheld x ↔ p.threads.Unheld x) (hq : q.threads = t)
    (hfds : q.ownFds = p.ownFds) : q.OwnsFds := by
  refine ⟨hq ▸ ht, fun x => ?_, hfds ▸ h.nodup⟩
  rw [hq, hown, h.own, hfds]

/-- Nothing but flags changes. -/
theorem congr (h : p.OwnsFds) (hq : q.threads = p.threads) (hfds : q.ownFds = p.ownFds) :
    q.OwnsFds := h.setThreads h.intact (fun _ => Iff.rfl) hq hfds

theorem openListen (h : p.OwnsFds) (hfree : p.threads.fds.files fd = none)
    (hnone : p.listenFd = none) : (p.openListen fd).OwnsFds :=
  h.openFd hfree rfl (by simp [ownFds, ApiProcess.openListen, ApiProcess.openFd, hnone])

theorem openEpoll (h : p.OwnsFds) (hfree : p.threads.fds.files fd = none)
    (hnone : p.epollFd = none) : (p.openEpoll fd).OwnsFds :=
  h.openFd hfree rfl (by simp [ownFds, ApiProcess.openEpoll, ApiProcess.openFd, hnone])

theorem openWakeup (h : p.OwnsFds) (hfree : p.threads.fds.files fd = none)
    (hnone : p.wakeupFd = none) : (p.openWakeup fd).OwnsFds :=
  h.openFd hfree rfl (by
    simp [ownFds, ApiProcess.openWakeup, ApiProcess.openFd, hnone, -List.append_assoc])

theorem start (h : p.OwnsFds) {env : StartEnv} (hfree : p.Free env) (hnone : p.ownFds = []) :
    (p.start env).2.OwnsFds := by
  obtain ⟨hlisten, hepoll, hwakeup, hle, hlw, hew⟩ := hfree
  have hfields : p.listenFd = none ∧ p.epollFd = none ∧ p.wakeupFd = none := by
    simpa [ownFds, and_assoc] using hnone
  have h₀ : OwnsFds { p with bound := false } := h.congr rfl rfl
  have h₁ := h₀.openListen hlisten hfields.1
  have h₂ : OwnsFds
      { ApiProcess.openListen { p with bound := false } env.listenFd with bound := true } :=
    h₁.congr rfl rfl
  have hepoll' : (ApiProcess.openListen { p with bound := false } env.listenFd).threads.fds.files
      env.epollFd = none := by
    simpa [ApiProcess.openListen, ApiProcess.openFd, FdTable.openOther, hle.symm] using hepoll
  have h₃ := h₂.openEpoll hepoll' hfields.2.1
  have hwakeup' : ((ApiProcess.openListen { p with bound := false } env.listenFd).openEpoll
      env.epollFd).threads.fds.files env.wakeupFd = none := by
    simpa [ApiProcess.openListen, ApiProcess.openEpoll, ApiProcess.openFd, FdTable.openOther,
      hlw.symm, hew.symm] using hwakeup
  have h₄ := h₃.openWakeup hwakeup' hfields.2.2
  unfold ApiProcess.start
  split
  · exact h₀
  dsimp only
  split
  · exact h₁.closeListen
  split
  · exact h₂.closeListen
  split
  · exact h₃.closeEpoll.closeListen
  split
  · exact h₄.closeWakeup.closeEpoll.closeListen
  · exact h₄.congr rfl rfl

end OwnsFds

/-! ## A start -/

/-- A start fails where one of its calls fails, and leaves the descriptors as they were. -/
theorem start_failed {env : StartEnv} (hfree : p.Free env) (hnone : p.ownFds = [])
    (hfail : env.failing ≠ none) :
    let r := p.start env
    r.1 = false ∧ r.2.threads.fds.files = p.threads.fds.files ∧ r.2.ownFds = [] ∧
      r.2.running = p.running ∧ r.2.loop = p.loop ∧ r.2.stopping = p.stopping ∧
        (r.2.bound = true ↔ env.failing ≠ some .socket ∧ env.failing ≠ some .bind) := by
  obtain ⟨listen, epoll, wakeup, failing⟩ := env
  obtain ⟨hlisten, hepoll, hwakeup, hle, hlw, hew⟩ := hfree
  have hfields : p.listenFd = none ∧ p.epollFd = none ∧ p.wakeupFd = none := by
    simpa [ownFds, and_assoc] using hnone
  cases failing with
  | none => exact absurd rfl hfail
  | some call =>
    cases call <;>
      simp [start, openListen, openEpoll, openWakeup, openFd, closeListen, closeEpoll, closeWakeup,
        closeFd, FdTable.openOther, FdTable.close, FdTable.unwatch, ownFds, hfields]
    any_goals exact hlisten.symm
    all_goals
      funext x
      simp only [Function.update_apply]
      split_ifs <;> simp_all

/-- The name of the socket is left behind. -/
theorem start_failed_eventfd :
    let env : StartEnv :=
      { listenFd := 5, epollFd := 6, wakeupFd := 7, failing := some .eventfd }
    let r := (fresh pathPolicies).start env
    r.1 = false ∧ r.2.ownFds = [] ∧ r.2.bound = true := by
  intro env r
  obtain ⟨hfailed, -, hfds, -, -, -, hbound⟩ :=
    @start_failed (fresh pathPolicies) env (by decide) rfl (by decide)
  exact ⟨hfailed, hfds, hbound.mpr (by decide)⟩

theorem start_ok {env : StartEnv} (hok : env.failing = none) :
    let r := p.start env
    r.1 = true ∧ r.2.ownFds = [env.listenFd, env.epollFd, env.wakeupFd] ∧ r.2.running = true ∧
      r.2.loop = .check ∧ r.2.stopping = p.stopping ∧ r.2.bound = true := by
  simp [start, hok, openListen, openEpoll, openWakeup, openFd, ownFds]

/-- A start touches nothing of the threads but the table. -/
theorem start_frame (p : ApiProcess) (env : StartEnv) :
    (p.start env).2.threads = { p.threads with fds := (p.start env).2.threads.fds } := by
  obtain ⟨listen, epoll, wakeup, failing⟩ := env
  cases failing with
  | none => simp [start, openListen, openEpoll, openWakeup, openFd]
  | some call =>
    cases call <;>
      simp [start, openListen, openEpoll, openWakeup, openFd, closeListen, closeEpoll, closeWakeup,
        closeFd]

/-! ## Whole runs -/

/-- No event is under way, and none is left. -/
def Quiet (p : ApiProcess) : Prop := p.threads.api = .idle ∧ p.threads.batch = []

/-- What every state of a run has. -/
structure Kept (p : ApiProcess) : Prop where
  owns : p.OwnsFds
  quiet : (∀ wakeup, p.loop ≠ .batch wakeup) → p.Quiet
  off : p.loop = .notStarted → p.ownFds = [] ∧ p.running = false ∧ p.stopping = .idle
  on : p.loop ≠ .notStarted → p.ownFds.length = 3 ∧ (p.running = true ↔ p.stopping = .idle) ∧
    (p.stopping = .join → p.signalled = true)

/-- The broadcasts are undisturbed. -/
def Undisturbed (p : ApiProcess) : Event → Prop
  | .sweep b => p.threads.Undisturbed (.sweep b)
  | _ => True

instance (p : ApiProcess) : ∀ e, Decidable (p.Undisturbed e)
  | .sweep b => inferInstanceAs (Decidable (p.threads.Undisturbed (.sweep b)))
  | .start _ | .proceed | .epollWait _ | .handle _ | .wakeup | .stop | .opened _ | .closed _ =>
    inferInstanceAs (Decidable True)

theorem wakeupFd_isSome (h : p.ownFds.length = 3) : p.wakeupFd.isSome = true := by
  cases hlisten : p.listenFd <;> cases hepoll : p.epollFd <;> cases hwakeup : p.wakeupFd <;>
    simp [ownFds, hlisten, hepoll, hwakeup] at h ⊢

/-- Besides the table, the fields of the server are what a stop changes. -/
theorem release_frame (p : ApiProcess) :
    p.release =
      { threads := { p.threads.cleared with fds := p.release.threads.fds }, running := p.running,
        signalled := p.release.signalled } := by
  unfold release
  dsimp only
  rw [closeWakeup_frame, closeEpoll_frame, closeListen_frame]

theorem kept_fresh (classes : List PathClassConfig) : (fresh classes).Kept where
  owns := by
    refine ⟨FdThreads.fresh_intact classes, fun x => ?_, List.nodup_nil⟩
    simp [FdThreads.Unheld, fresh, FdThreads.fresh, ownFds]
  quiet _ := ⟨rfl, rfl⟩
  off _ := ⟨rfl, rfl, rfl⟩
  on h := absurd rfl h

namespace Kept

theorem start (h : p.Kept) {env : StartEnv} (hloop : p.loop = .notStarted) (hfree : p.Free env) :
    (p.start env).2.Kept := by
  obtain ⟨hnone, hrunning, hstopping⟩ := h.off hloop
  have hquiet : (p.start env).2.Quiet := by
    obtain ⟨hapi, hbatch⟩ := h.quiet (by simp [hloop])
    rw [Quiet, start_frame]
    exact ⟨hapi, hbatch⟩
  refine ⟨h.owns.start hfree hnone, fun _ => hquiet, fun hoff => ?_, fun hon => ?_⟩
  · by_cases hok : env.failing = none
    · have hcheck := (start_ok (p := p) hok).2.2.2.1
      simp [hcheck] at hoff
    · obtain ⟨-, -, hfds, hrun, -, hstop, -⟩ := start_failed hfree hnone hok
      exact ⟨hfds, hrun.trans hrunning, hstop.trans hstopping⟩
  · by_cases hok : env.failing = none
    · obtain ⟨-, hfds, hrun, -, hstop, -⟩ := start_ok (p := p) hok
      simp [hfds, hrun, hstop, hstopping]
    · obtain ⟨-, -, -, -, hsame, -⟩ := start_failed hfree hnone hok
      exact absurd (hsame.trans hloop) hon

/-- A step of the threads other than the API thread. -/
theorem others (h : p.Kept) {t : FdThreads} (ht : t.Intact)
    (hown : ∀ x, t.Unheld x ↔ p.threads.Unheld x) (hapi : t.api = p.threads.api)
    (hbatch : t.batch = p.threads.batch) : Kept { p with threads := t } where
  owns := h.owns.setThreads ht hown rfl rfl
  quiet hloop := ⟨hapi.trans (h.quiet hloop).1, hbatch.trans (h.quiet hloop).2⟩
  off := h.off
  on := h.on

theorem apiStep (h : p.Kept) (hloop : p.loop ≠ .notStarted) (a : FdThreads.ApiStep)
    (wakeup : Option Nat) :
    Kept { p with threads := p.threads.apiStep a, loop := .batch wakeup } where
  owns := h.owns.setThreads (h.owns.intact.apiStep a)
    (fun _ => FdThreads.unheld_apiStep h.owns.intact a) rfl rfl
  quiet hne := absurd rfl (hne wakeup)
  off hoff := by cases hoff
  on _ := h.on hloop

/-- The API thread goes on in a batch. -/
theorem handle (h : p.Kept) {wakeup : Option Nat} (hloop : p.loop = .batch wakeup)
    (a : FdThreads.ApiStep) : (p.handle wakeup a).Kept := by
  have hon : p.loop ≠ .notStarted := by simp [hloop]
  have hsame (a : FdThreads.ApiStep) : Kept { p with threads := p.threads.apiStep a } := by
    have hstep := h.apiStep hon a wakeup
    rwa [← hloop] at hstep
  unfold ApiProcess.handle
  split
  · exact h
  · split
    · exact hsame .next
    · exact h
    · split
      · exact h.apiStep hon .next _
      · exact h
  · exact hsame _

/-- The loop goes on without an event under way. -/
theorem goTo (h : p.Kept) (hloop : p.loop ≠ .notStarted) {loop : LoopPoint}
    (hne : loop ≠ .notStarted) (hquiet : p.Quiet) : Kept { p with loop } where
  owns := h.owns.congr rfl rfl
  quiet _ := hquiet
  off hoff := absurd hoff hne
  on _ := h.on hloop

theorem release (h : p.Kept) (hjoin : p.stopping = .join) (hloop : p.loop = .ended)
    (hsweep : p.threads.sweep = .idle) : p.release.Kept := by
  obtain ⟨hapi, hbatch⟩ := h.quiet (by simp [hloop])
  have hcleared : OwnsFds { p with threads := p.threads.cleared } :=
    h.owns.setThreads (h.owns.intact.cleared hapi hbatch hsweep)
      (fun _ => FdThreads.unheld_cleared h.owns.intact hapi) rfl rfl
  have howns : p.release.OwnsFds :=
    hcleared.closeWakeup.closeEpoll.closeListen.congr rfl rfl
  have hrunning : p.running = false := by
    simpa [hjoin] using (h.on (by simp [hloop])).2.1
  have hframe := FdThreads.closeEntries_frame p.threads p.threads.server.registry
  refine ⟨howns, fun _ => ?_, fun _ => ?_, fun hon => absurd rfl hon⟩
  · rw [release_frame]
    unfold FdThreads.cleared
    rw [hframe]
    exact ⟨hapi, hbatch⟩
  · rw [release_frame]
    exact ⟨rfl, hrunning, rfl⟩

theorem stop (h : p.Kept) : p.stop.Kept := by
  unfold ApiProcess.stop
  split
  · next hidle =>
    split
    · next hrunning =>
      have hloop : p.loop ≠ .notStarted := fun hoff => by
        have hnot := (h.off hoff).2.1
        rw [hrunning] at hnot
        cases hnot
      exact ⟨h.owns.congr rfl rfl, h.quiet, fun hoff => absurd hoff hloop,
        fun _ => ⟨(h.on hloop).1, by simp, by simp⟩⟩
    · exact h
  · next hwrite =>
    have hloop : p.loop ≠ .notStarted := fun hoff => by
      have hidle := (h.off hoff).2.2
      rw [hwrite] at hidle
      cases hidle
    have hwakeup := wakeupFd_isSome (h.on hloop).1
    have hrunning : p.running = false := by simpa [hwrite] using (h.on hloop).2.1
    exact ⟨h.owns.congr rfl rfl, h.quiet, fun hoff => absurd hoff hloop,
      fun _ => ⟨(h.on hloop).1, by simp [hrunning], fun _ => hwakeup⟩⟩
  · next hjoin =>
    split
    · next hended => exact h.release hjoin hended.1 hended.2
    · exact h

theorem step (h : p.Kept) {e : Event} (he : p.Undisturbed e) : (p.step e).Kept := by
  cases e with
  | start env =>
    simp only [ApiProcess.step]
    split
    · next hstart => exact h.start hstart.1 hstart.2
    · exact h
  | proceed =>
    simp only [ApiProcess.step]
    split
    · next hloop =>
      refine h.goTo (by simp [hloop]) ?_ (h.quiet (by simp [hloop]))
      split <;> simp
    · next hloop =>
      split
      · next hdone => exact h.goTo (by simp [hloop]) (by simp) hdone
      · exact h
    · exact h
  | epollWait outcome =>
    simp only [ApiProcess.step]
    split
    · next hloop =>
      cases outcome with
      | ready batch wakeup => exact h.apiStep (by simp [hloop]) (.wait batch) _
      | interrupted => exact h.goTo (by simp [hloop]) (by simp) (h.quiet (by simp [hloop]))
      | failed => exact h.goTo (by simp [hloop]) (by simp) (h.quiet (by simp [hloop]))
    · exact h
  | handle a =>
    simp only [ApiProcess.step]
    split
    · next hloop => exact h.handle hloop a
    · exact h
  | wakeup =>
    simp only [ApiProcess.step]
    split
    · next n hloop =>
      split
      · next hidle =>
        have hintact : FdThreads.Intact { p.threads with api := .idle, batch := [] } :=
          h.owns.intact.goOn hidle.1 (by simp) (List.nil_sublist _)
        rw [← hidle.1] at hintact
        exact ⟨h.owns.setThreads hintact (fun _ => Iff.rfl) rfl rfl, fun _ => ⟨hidle.1, rfl⟩,
          fun hoff => (by cases hoff), fun _ => h.on (by simp [hloop])⟩
      · exact h
    · exact h
  | stop => exact h.stop
  | sweep b =>
    refine h.others (h.owns.intact.sweepStep he) (fun _ =>
      FdThreads.unheld_sweepStep h.owns.intact he) ?_ ?_ <;> cases b <;>
        simp only [FdThreads.sweepStep] <;> split <;> rfl
  | opened fd =>
    refine h.others (h.owns.intact.step (e := .opened fd) trivial) (fun _ =>
      FdThreads.unheld_opened) ?_ ?_ <;> simp only [FdThreads.step] <;> split <;> rfl
  | closed fd =>
    refine h.others (h.owns.intact.step (e := .closed fd) trivial) (fun _ =>
      FdThreads.unheld_closed) ?_ ?_ <;> simp only [FdThreads.step] <;> split <;> rfl

end Kept

/-- Every call on a descriptor has hit the connection that was meant, and each open number is a
connection, another thread's, or one of the three of the server, which has all three or none. -/
structure Accounted (p : ApiProcess) : Prop where
  onlyOwn : p.threads.OnlyOwn
  files : ∀ x f, p.threads.fds.files x = some f →
    (∃ id, f = .connection id) ∨ x ∈ p.threads.held ∨ x ∈ p.ownFds
  own : ∀ x ∈ p.ownFds, (∃ id, p.threads.fds.files x = some (.other id)) ∧ x ∉ p.threads.held
  three : p.ownFds.length = if p.loop = .notStarted then 0 else 3

theorem Kept.accounted (h : p.Kept) : p.Accounted where
  onlyOwn := h.owns.intact.onlyOwn
  files x f hx := by
    cases f with
    | connection id => exact .inl ⟨id, rfl⟩
    | other id =>
      by_cases hheld : x ∈ p.threads.held
      · exact .inr (.inl hheld)
      · exact .inr (.inr ((h.owns.own x).mp ⟨⟨id, hx⟩, hheld⟩))
  own x hx := (h.owns.own x).mpr hx
  three := by
    split
    · next hoff => rw [(h.off hoff).1]; rfl
    · next hon => exact (h.on hon).1

theorem kept_throughout (classes : List PathClassConfig) (events : List Event)
    (h : StepsMeet step Undisturbed (fresh classes) events) :
    Throughout step Kept (fresh classes) events :=
  throughout_of_step (fun _ _ hp he => hp.step he) (kept_fresh classes) h

/-- Over any number of starts, failed or not, and of stops, in every interleaving of the threads in
which the broadcasts are undisturbed, every descriptor is accounted for. -/
theorem lifecycle_accounted (classes : List PathClassConfig) (events : List Event)
    (h : StepsMeet step Undisturbed (fresh classes) events) :
    Throughout step Accounted (fresh classes) events :=
  (kept_throughout classes events h).mono fun _ hp => hp.accounted

/-- A start that fails and one that does not; two clients connect and one of them registers. -/
def served : List Event :=
  [.start { listenFd := 5, epollFd := 6, wakeupFd := 7, failing := some .eventfd },
    .start { listenFd := 5, epollFd := 6, wakeupFd := 7 }, .proceed,
    .epollWait (.ready [.listen] none), .handle .next, .handle (.accept 8 true),
    .handle (.accept 9 true), .handle .noMore, .proceed, .proceed,
    .epollWait (.ready [.client 8 5 false] none), .handle .next,
    .handle (.recv .done (registerMsg 100 "multipath")), .handle .handle, .handle (.reply .done),
    .proceed, .proceed]

/-- `stop` up to the return of its join. -/
def stopped : List Event :=
  [.stop, .stop, .epollWait (.ready [] (some 0)), .wakeup]

theorem lifecycle_accounted_served :
    Throughout step Accounted (fresh pathPolicies) (served ++ stopped ++ [.stop]) :=
  lifecycle_accounted pathPolicies _ (by decide)

/-! ## A stop -/

theorem files_closeListen (p : ApiProcess) (x : Nat) : p.closeListen.threads.fds.files x =
    if p.listenFd = some x then none else p.threads.fds.files x := by
  unfold closeListen
  split
  · next fd hfd =>
    by_cases hx : fd = x
    · simp [hfd, hx, closeFd, FdTable.close]
    · simp [hfd, hx, Ne.symm hx, closeFd, FdTable.close, FdTable.unwatch]
  · next hnone => simp [hnone]

theorem files_closeEpoll (p : ApiProcess) (x : Nat) : p.closeEpoll.threads.fds.files x =
    if p.epollFd = some x then none else p.threads.fds.files x := by
  unfold closeEpoll
  split
  · next fd hfd =>
    by_cases hx : fd = x
    · simp [hfd, hx, closeFd, FdTable.close]
    · simp [hfd, hx, Ne.symm hx, closeFd, FdTable.close, FdTable.unwatch]
  · next hnone => simp [hnone]

theorem files_closeWakeup (p : ApiProcess) (x : Nat) : p.closeWakeup.threads.fds.files x =
    if p.wakeupFd = some x then none else p.threads.fds.files x := by
  unfold closeWakeup
  split
  · next fd hfd =>
    by_cases hx : fd = x
    · simp [hfd, hx, closeFd, FdTable.close]
    · simp [hfd, hx, Ne.symm hx, closeFd, FdTable.close, FdTable.unwatch]
  · next hnone => simp [hnone]

theorem files_release (p : ApiProcess) (x : Nat) : p.release.threads.fds.files x =
    if x ∈ p.ownFds ∨ x ∈ p.threads.server.registry.map (·.fd) then none
    else p.threads.fds.files x := by
  let q : ApiProcess := { p with threads := p.threads.cleared }
  have hlisten : q.closeWakeup.closeEpoll.listenFd = p.listenFd := by
    rw [closeEpoll_frame, closeWakeup_frame]
  have hepoll : q.closeWakeup.epollFd = p.epollFd := by rw [closeWakeup_frame]
  have hcleared : q.threads.fds.files x =
      if x ∈ p.threads.server.registry.map (·.fd) then none else p.threads.fds.files x :=
    FdThreads.files_closeEntries p.threads p.threads.server.registry x
  change q.closeWakeup.closeEpoll.closeListen.threads.fds.files x = _
  rw [files_closeListen, files_closeEpoll, files_closeWakeup, hlisten, hepoll, hcleared]
  have hown : x ∈ p.ownFds ↔ p.listenFd = some x ∨ p.epollFd = some x ∨ p.wakeupFd = some x := by
    simp [ownFds]
  have hwakeup : q.wakeupFd = p.wakeupFd := rfl
  by_cases hentry : x ∈ p.threads.server.registry.map (·.fd) <;>
    simp only [hown, hentry, hwakeup, if_true, if_false, or_true, or_false] <;>
      split_ifs <;> simp_all

/-- What a stop leaves open, at any time of any run with undisturbed broadcasts: what other threads
have opened, and the connections of clients that are not registered. -/
theorem stop_leaves (classes : List PathClassConfig) (events : List Event)
    (h : StepsMeet step Undisturbed (fresh classes) events)
    (hjoin : (run step (fresh classes) events).stopping = .join)
    (hended : (run step (fresh classes) events).loop = .ended)
    (hsweep : (run step (fresh classes) events).threads.sweep = .idle) :
    let p := run step (fresh classes) events
    let q := p.step .stop
    q.loop = .notStarted ∧ q.bound = false ∧ q.threads.server.registry = [] ∧
      ∀ x f, q.threads.fds.files x = some f ↔ p.threads.fds.files x = some f ∧
        (x ∈ p.threads.held ∨
          (∃ id, f = .connection id) ∧ ∀ e ∈ p.threads.server.registry, e.fd ≠ x) := by
  intro p q
  have hkept : p.Kept := (kept_throughout classes events h).last
  have hapi := (hkept.quiet (by simp [p, hended])).1
  have hq : q = p.release := by
    simp only [q, step, stop, p, hjoin, hended, hsweep]
    simp
  rw [hq]
  refine ⟨rfl, rfl, ?_, fun x f => ?_⟩
  · rw [release_frame]
    rfl
  rw [files_release]
  constructor
  · intro hx
    split at hx
    · cases hx
    next hnot =>
    rw [not_or] at hnot
    refine ⟨hx, ?_⟩
    rcases hkept.accounted.files x f hx with hconn | hheld | hown
    · exact .inr ⟨hconn, fun e he heq => hnot.2 (List.mem_map.mpr ⟨e, he, heq⟩)⟩
    · exact .inl hheld
    · exact absurd hown hnot.1
  · rintro ⟨hx, hleft⟩
    rw [if_neg, hx]
    rintro (hown | hentry)
    · obtain ⟨⟨id, hid⟩, hnot⟩ := hkept.accounted.own x hown
      rcases hleft with hheld | ⟨⟨conn, rfl⟩, -⟩
      · exact hnot hheld
      · rw [hx] at hid
        cases hid
    · obtain ⟨e, he, rfl⟩ := List.mem_map.mp hentry
      have hnames := hkept.owns.intact.entries e he (by simp [hapi])
      rcases hleft with hheld | ⟨-, hnone⟩
      · obtain ⟨id, hid⟩ := hkept.owns.intact.held e.fd hheld
        rw [FdTable.Names, hid] at hnames
        cases hnames
      · exact hnone e he rfl

/-- The client that has not registered is still connected. -/
theorem stop_leaves_unregistered :
    let q := (run step (fresh pathPolicies) (served ++ stopped)).step .stop
    q.loop = .notStarted ∧ q.threads.fds.files 9 = some (.connection 6) := by
  obtain ⟨hloop, -, -, hfiles⟩ :=
    stop_leaves pathPolicies (served ++ stopped) (by decide) (by decide) (by decide) (by decide)
  exact ⟨hloop, (hfiles 9 _).mpr ⟨by decide, .inr ⟨⟨6, rfl⟩, by decide⟩⟩⟩

/-- The calls of `epoll_wait`. -/
def waits (p : ApiProcess) : Event → Nat
  | .epollWait _ => if p.loop = .wait then 1 else 0
  | _ => 0

/-- The calls of `epoll_wait` to come once the server does not run any more. -/
def ahead (p : ApiProcess) : Nat := if p.loop = .wait then 1 else 0

theorem ahead_handle (wakeup : Option Nat) (a : FdThreads.ApiStep)
    (hloop : p.loop = .batch wakeup) :
    (p.handle wakeup a).running = p.running ∧ (p.handle wakeup a).ahead = 0 := by
  unfold handle
  split
  · simp [ahead, hloop]
  · split
    · simp [ahead, hloop]
    · simp [ahead, hloop]
    · split <;> simp [ahead, hloop]
  · simp [ahead, hloop]

theorem ahead_stop (h : p.running = false) :
    p.stop.running = false ∧ p.stop.ahead ≤ p.ahead := by
  unfold stop
  split
  · simp [h]
  · simp [h, ahead]
  · split
    · rw [release_frame]
      simp [h, ahead]
    · simp [h]

theorem ahead_step (h : p.running = false) {e : Event} (he : ∀ env, e ≠ .start env) :
    (p.step e).running = false ∧ (p.step e).ahead + p.waits e ≤ p.ahead := by
  cases e with
  | start env => exact absurd rfl (he env)
  | proceed =>
    simp only [step]
    split
    · simp [h, ahead, waits]
    · split <;> simp [h, ahead, waits]
    · simp [h, waits]
  | epollWait outcome =>
    simp only [step]
    split
    · next hloop => cases outcome <;> simp [h, ahead, waits, hloop]
    · next hloop =>
      refine ⟨h, ?_⟩
      simp only [waits]
      split
      · next hwait => exact absurd hwait hloop
      · simp
  | handle a =>
    simp only [step]
    split
    · next wakeup hloop =>
      obtain ⟨hrunning, hahead⟩ := ahead_handle wakeup a hloop
      rw [hrunning, hahead]
      exact ⟨h, by simp [waits]⟩
    · simp [h, waits]
  | wakeup =>
    simp only [step]
    split
    · split <;> simp [h, ahead, waits]
    · simp [h, waits]
  | stop => simpa [step, waits] using ahead_stop h
  | sweep b => simp [step, h, ahead, waits]
  | opened fd => simp [step, h, ahead, waits]
  | closed fd => simp [step, h, ahead, waits]

/-- In runs with undisturbed broadcasts the eventfd is signalled while `stop` waits for the end of
the loop. -/
theorem signalled_of_undisturbed {classes : List PathClassConfig} {before after : List Event}
    (h : StepsMeet step Undisturbed (fresh classes) (before ++ after)) :
    Throughout step (fun q => q.stopping = .join → q.signalled = true)
      (run step (fresh classes) before) after := by
  have hkept := throughout_iff_prefixes.mp (kept_throughout classes (before ++ after) h)
  refine throughout_iff_prefixes.mpr fun pre hpre hjoin => ?_
  have hq := hkept (before ++ pre) (List.prefix_append_right_inj before |>.mpr hpre)
  rw [run_append] at hq
  have hon : (run step (run step (fresh classes) before) pre).loop ≠ .notStarted := by
    intro hnot
    have hidle := (hq.off hnot).2.2
    rw [hjoin] at hidle
    cases hidle
  exact (hq.on hon).2.2 hjoin

/-- Once the server does not run any more, whatever the threads do, its loop calls `epoll_wait` at
most once more; and where `stop` waits for the end of the loop, that call does not block if the
broadcasts are undisturbed. -/
theorem stop_waits_once (classes : List PathClassConfig) (before after : List Event)
    (hoff : (run step (fresh classes) before).running = false)
    (hstart : ∀ env, .start env ∉ after) :
    let p := run step (fresh classes) before
    total step waits p after ≤ 1 ∧
      Throughout step (fun q => q.running = false) p after ∧
      (StepsMeet step Undisturbed (fresh classes) (before ++ after) →
        Throughout step (fun q => q.stopping = .join → q.signalled = true) p after) := by
  intro p
  have hnone : ∀ e ∈ after, ∀ env, e ≠ .start env := by
    rintro e he env rfl
    exact hstart env he
  have hstopped : Throughout step (fun q => q.running = false) p after :=
    throughout_of_step (C := fun _ e => ∀ env, e ≠ .start env)
      (fun _ _ hq he => (ahead_step hq he).1) hoff (stepsMeet_of_forall hnone p)
  have hle : (run step p after).ahead + total step waits p after ≤ p.ahead :=
    gain_le (fun _ _ hq => (ahead_step hq.1.1 hq.2).2)
      (hstopped.stepsMeet.and (stepsMeet_of_forall hnone p))
  have hbound : p.ahead ≤ 1 := by
    unfold ahead
    split <;> simp
  exact ⟨by omega, hstopped, signalled_of_undisturbed⟩

theorem stop_waits_once_served :
    let after : List Event := [.stop, .epollWait .interrupted, .proceed, .proceed, .stop]
    let p := run step (fresh pathPolicies) (served ++ [.stop])
    total step waits p after ≤ 1 ∧
      Throughout step (fun q => q.stopping = .join → q.signalled = true) p after := by
  intro after p
  have honce := stop_waits_once pathPolicies (served ++ [.stop]) after (by decide)
    (by simp [after])
  exact ⟨honce.1, honce.2.2 (by decide)⟩

end ApiProcess
end WifiOffload
