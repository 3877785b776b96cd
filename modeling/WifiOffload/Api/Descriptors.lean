import WifiOffload.Api.Registry
import WifiOffload.Config.Accepted
import WifiOffload.Library.FdTable
import WifiOffload.Library.StateMachine

/-!
# Descriptors and the connections they stand for

The API thread and the FSM threads at the level of their calls on descriptors, which are numbers
that are taken again after a close. Every use of a number is logged with the connection that was
meant and the file that was hit. The lock is held by at most one broadcast; the API thread holds
it for the single steps that need it. Other threads, and the writes to `tasks` files, open and
close descriptors in between. The cached states, on which no descriptor depends, are left out.
-/

namespace WifiOffload

inductive FdCall where
  | send | recv | epollDel | close
  deriving DecidableEq, Repr

/-- A call of the server on a descriptor. -/
structure FdUse where
  call : FdCall
  fd : Nat
  /-- The connection that the registry entry or the `epoll` event was made for. -/
  meant : Nat
  hit : Option OpenFile
  deriving DecidableEq, Repr

/-- How one turn of a loop around `send` or `recv` ends. -/
inductive Turn where
  | again | done | failed
  deriving DecidableEq, Repr

/-- One event of a batch that `epoll_wait` delivers. -/
inductive ReadyEvent where
  | listen
  | client (fd conn : Nat) (hangup : Bool)
  deriving DecidableEq, Repr

/-- The connections with an event, and their numbers. -/
def clientsOf (batch : List ReadyEvent) : List (Nat × Nat) :=
  batch.filterMap fun
    | .listen => none
    | .client fd conn _ => some (fd, conn)

/-- How far the API thread is: with an accept, with `handleClient`, or with `removeClient`. -/
inductive ApiThread where
  | idle
  | accepting
  | receiving (fd conn : Nat)
  | handling (fd conn : Nat) (msg : ApiMsg)
  | replying (fd conn : Nat)
  | deleting (fd conn : Nat)
  | closing (fd conn : Nat)
  | erasing (fd : Nat)
  deriving DecidableEq

/-- The connection of the event under way, up to its close. -/
def ApiThread.current : ApiThread → List (Nat × Nat)
  | .receiving fd conn | .handling fd conn _ | .replying fd conn | .deleting fd conn
  | .closing fd conn => [(fd, conn)]
  | .idle | .accepting | .erasing _ => []

/-- How far the broadcast that holds the lock is: with its sends, where `failed` have not been
reached, and then with the entry that it drops. -/
inductive Sweep where
  | idle
  | sending (rest failed : List ConsumerEntry)
  | deleting (e : ConsumerEntry) (failed : List ConsumerEntry)
  | closing (e : ConsumerEntry) (failed : List ConsumerEntry)
  deriving DecidableEq

namespace Sweep

/-- The entries that are still to be sent to or dropped. -/
def listed : Sweep → List ConsumerEntry
  | .idle => []
  | .sending rest failed => rest ++ failed
  | .deleting _ failed | .closing _ failed => failed

/-- The entry that has been dropped and whose connection is to be closed. -/
def dropped : Sweep → Option ConsumerEntry
  | .idle | .sending .. => none
  | .deleting e _ | .closing e _ => some e

end Sweep

structure FdThreads where
  fds : FdTable := {}
  server : ConsumerApiServer
  /-- The connection that the entry with a number was made for. -/
  owner : Nat → Nat := fun _ => 0
  /-- The numbers that other threads have opened. -/
  held : List Nat := []
  batch : List ReadyEvent := []
  api : ApiThread := .idle
  sweep : Sweep := .idle
  uses : List FdUse := []

namespace FdThreads

inductive ApiStep where
  | wait (ready : List ReadyEvent)
  | next
  /-- `accept4` and `epoll_ctl`, which adds the connection or fails. -/
  | accept (fd : Nat) (added : Bool)
  | noMore
  | recv (turn : Turn) (msg : ApiMsg)
  | handle
  | reply (turn : Turn)
  | epollDel
  | close
  | erase

inductive SweepStep where
  | lock (classId : Bytes)
  | send (turn : Turn)
  | drop
  | epollDel
  | close
  deriving DecidableEq

inductive Step where
  | api (a : ApiStep)
  | sweep (b : SweepStep)
  | opened (fd : Nat)
  | closed (fd : Nat)

def fresh (classes : List PathClassConfig) : FdThreads := { server := .ofClasses classes }

variable (t : FdThreads)

def use (call : FdCall) (fd meant : Nat) : FdThreads :=
  { t with uses := t.uses ++ [⟨call, fd, meant, t.fds.files fd⟩] }

def epollDelFd (fd meant : Nat) : FdThreads :=
  { t.use .epollDel fd meant with fds := t.fds.unwatch fd }

def closeFd (fd meant : Nat) : FdThreads := { t.use .close fd meant with fds := t.fds.close fd }

/-- The events of the API thread that are not dealt with, the one under way in front. -/
def pending : List (Nat × Nat) := t.api.current ++ clientsOf t.batch

/-- What `handleClient` does with a message it has read; a handler that needs the lock waits
for it. The answer to an `Unregister` is sent under the lock. -/
def handleMsg (fd conn : Nat) (msg : ApiMsg) : FdThreads :=
  if msg.type = MsgType.register.code ∧ (t.server.findClass msg.classId.toString).isSome then
    if t.sweep = .idle then
      { t with
        server := t.server.pushEntry fd msg.pid msg.classId.toString
        owner := Function.update t.owner fd conn
        api := .replying fd conn }
    else t
  else if msg.type = MsgType.unregister.code then
    if t.sweep = .idle then
      { t.use .send fd conn with server := (t.server.handleUnregister fd msg).1, api := .idle }
    else t
  else { t with api := .replying fd conn }

/-- A step of the API thread; nothing happens where the thread is not at that step. -/
def apiStep : ApiStep → FdThreads
  | .wait ready =>
    match t.api, t.batch with
    | .idle, [] =>
      if clientsOf ready ⊆ t.fds.watch ∧ ((clientsOf ready).map (·.1)).Nodup then
        { t with batch := ready }
      else t
    | _, _ => t
  | .next =>
    match t.api, t.batch with
    | .idle, .listen :: batch => { t with api := .accepting, batch }
    | .idle, .client fd conn hangup :: batch =>
      { t with api := if hangup then .deleting fd conn else .receiving fd conn, batch }
    | _, _ => t
  | .accept fd added =>
    match t.api with
    | .accepting =>
      if t.fds.files fd ≠ none then t
      else if added then { t with fds := t.fds.accept fd true }
      else closeFd { t with fds := t.fds.accept fd false } fd t.fds.nextId
    | _ => t
  | .noMore =>
    match t.api with
    | .accepting => { t with api := .idle }
    | _ => t
  | .recv turn msg =>
    match t.api with
    | .receiving fd conn => { t.use .recv fd conn with
        api := match turn with
          | .again => .receiving fd conn
          | .done => .handling fd conn msg
          | .failed => .deleting fd conn }
    | _ => t
  | .handle =>
    match t.api with
    | .handling fd conn msg => t.handleMsg fd conn msg
    | _ => t
  | .reply turn =>
    match t.api with
    | .replying fd conn => { t.use .send fd conn with
        api := if turn = .again then .replying fd conn else .idle }
    | _ => t
  | .epollDel =>
    match t.api with
    | .deleting fd conn => { t.epollDelFd fd conn with api := .closing fd conn }
    | _ => t
  | .close =>
    match t.api with
    | .closing fd conn => { t.closeFd fd conn with api := .erasing fd }
    | _ => t
  | .erase =>
    match t.api with
    | .erasing fd =>
      if t.sweep = .idle then
        { t with server := (t.server.dropEntry (·.fd = fd)).1, api := .idle }
      else t
    | _ => t

/-- A step of the broadcast that holds the lock, or takes it. -/
def sweepStep : SweepStep → FdThreads
  | .lock classId =>
    match t.sweep with
    | .idle => { t with sweep := .sending (t.server.receivers classId) [] }
    | _ => t
  | .send turn =>
    match t.sweep with
    | .sending (e :: rest) failed => { t.use .send e.fd (t.owner e.fd) with
        sweep := match turn with
          | .again => .sending (e :: rest) failed
          | .done => .sending rest failed
          | .failed => .sending rest (failed ++ [e]) }
    | _ => t
  | .drop =>
    match t.sweep with
    | .sending [] (e :: failed) =>
      { t with server := (t.server.dropEntry (·.fd = e.fd)).1, sweep := .deleting e failed }
    | .sending [] [] => { t with sweep := .idle }
    | _ => t
  | .epollDel =>
    match t.sweep with
    | .deleting e failed => { t.epollDelFd e.fd (t.owner e.fd) with sweep := .closing e failed }
    | _ => t
  | .close =>
    match t.sweep with
    | .closing e failed => { t.closeFd e.fd (t.owner e.fd) with sweep := .sending [] failed }
    | _ => t

def step : Step → FdThreads
  | .api a => t.apiStep a
  | .sweep b => t.sweepStep b
  | .opened fd =>
    if t.fds.files fd = none then { t with fds := t.fds.openOther fd, held := t.held ++ [fd] }
    else t
  | .closed fd =>
    if fd ∈ t.held then { t with fds := t.fds.close fd, held := t.held.filter (· ≠ fd) } else t

/-- The connections that were closed. -/
def closes : List Nat := (t.uses.filter (·.call = .close)).map (·.meant)

/-- Every use of a number has hit the connection that was meant, and none was closed twice. -/
structure OnlyOwn : Prop where
  hits : ∀ u ∈ t.uses, u.hit = some (.connection u.meant)
  closed_once : t.closes.Nodup

/-- The entry that a step of the broadcast makes a call for. -/
def target : SweepStep → Option ConsumerEntry
  | .send _ =>
    match t.sweep with
    | .sending (e :: _) _ => some e
    | _ => none
  | .epollDel =>
    match t.sweep with
    | .deleting e _ => some e
    | _ => none
  | .close =>
    match t.sweep with
    | .closing e _ => some e
    | _ => none
  | .lock _ | .drop => none

/-- The broadcast makes no call for a connection that the API thread has closed and not erased
yet, and it closes none for which the API thread has an event. -/
def Undisturbed : Step → Prop
  | .sweep b => ∀ e ∈ t.target b, t.api ≠ .erasing e.fd ∧
      (b = .close → e.fd ∉ t.pending.map (·.1))
  | _ => True

instance : ∀ e, Decidable (t.Undisturbed e)
  | .sweep b => inferInstanceAs (Decidable (∀ e ∈ t.target b, t.api ≠ .erasing e.fd ∧
      (b = .close → e.fd ∉ t.pending.map (·.1))))
  | .api _ | .opened _ | .closed _ => inferInstanceAs (Decidable True)

variable {t} {fd meant conn : Nat} {call : FdCall} {classId : Bytes}

/-! ## What every number stands for -/

/-- The numbers of pending events, of registry entries and of an entry that is being dropped
stand for the connections they were made for, but for one that the API thread has closed and
not erased yet. -/
structure Intact (t : FdThreads) : Prop where
  sound : t.fds.Sound t.closes
  hits : ∀ u ∈ t.uses, u.hit = some (.connection u.meant)
  valid : t.server.Valid
  held : ∀ fd ∈ t.held, ∃ id, t.fds.files fd = some (.other id)
  pending : ∀ p ∈ t.pending, t.fds.Names p.1 p.2
  pending_nodup : (t.pending.map (·.1)).Nodup
  entries : ∀ e ∈ t.server.registry, t.api ≠ .erasing e.fd → t.fds.Names e.fd (t.owner e.fd)
  listed : ∀ e ∈ t.sweep.listed, e ∈ t.server.registry
  listed_nodup : (t.sweep.listed.map (·.fd)).Nodup
  dropped : ∀ e ∈ t.sweep.dropped,
    (t.api ≠ .erasing e.fd → t.fds.Names e.fd (t.owner e.fd)) ∧
      ∀ e' ∈ t.server.registry, e'.fd ≠ e.fd

theorem pending_of_api {api : ApiThread} (h : t.api = api) :
    t.pending = api.current ++ clientsOf t.batch := by rw [pending, h]

/-- No entry is left to a broadcast that is over. -/
theorem not_listed_of_idle (hidle : t.sweep = .idle) (e : ConsumerEntry) :
    e ∉ t.sweep.listed ∧ e ∉ t.sweep.dropped := by
  rw [hidle]
  exact ⟨List.not_mem_nil, fun he => by cases he⟩

theorem closes_use : (t.use call fd meant).closes =
    if call = .close then t.closes ++ [meant] else t.closes := by
  cases call <;> simp [closes, use]

theorem fresh_intact (classes : List PathClassConfig) : (fresh classes).Intact where
  sound := .empty
  hits u hu := by cases hu
  valid := ⟨List.nodup_nil, fun e he => by cases he⟩
  held fd hfd := by cases hfd
  pending p hp := by cases hp
  pending_nodup := List.nodup_nil
  entries e he := by cases he
  listed e he := by cases he
  listed_nodup := List.nodup_nil
  dropped e he := by cases he

namespace Intact

theorem onlyOwn (h : t.Intact) : t.OnlyOwn := ⟨h.hits, h.sound.closed_nodup⟩

/-- The number of the event under way stands for its connection. -/
theorem current (h : t.Intact) {api : ApiThread} (hapi : t.api = api)
    (hcurrent : api.current = [(fd, conn)]) : t.fds.Names fd conn :=
  h.pending (fd, conn) (by simp [pending_of_api hapi, hcurrent])

/-! ### Calls -/

theorem use (h : t.Intact) (hcall : call ≠ .close) (hnames : t.fds.Names fd meant) :
    (t.use call fd meant).Intact :=
  { h with
    sound := by
      rw [closes_use, if_neg hcall]
      exact h.sound
    hits := by
      intro u hu
      rcases List.mem_append.mp hu with hu | hu
      · exact h.hits u hu
      · rw [List.mem_singleton.mp hu]
        exact hnames }

theorem epollDelFd (h : t.Intact) (hnames : t.fds.Names fd meant) :
    (t.epollDelFd fd meant).Intact :=
  { h.use (by decide : FdCall.epollDel ≠ .close) hnames with
    sound := (h.use (by decide : FdCall.epollDel ≠ .close) hnames).sound.unwatch }

/-- A connection is closed whose number no event, and no entry but that of the API thread, has
any more. -/
theorem closeFd (h : t.Intact) (hnames : t.fds.Names fd meant) (api : ApiThread) {sweep : Sweep}
    (hpending : (api.current ++ clientsOf t.batch).Sublist t.pending)
    (hfd : fd ∉ (api.current ++ clientsOf t.batch).map (·.1))
    (hlisted : sweep.listed = t.sweep.listed)
    (hdropped : ∀ e ∈ sweep.dropped, e ∈ t.sweep.dropped)
    (hothers : ∀ e, e ∈ t.server.registry ∨ e ∈ sweep.dropped → api ≠ .erasing e.fd →
      e.fd ≠ fd ∧ t.api ≠ .erasing e.fd) :
    Intact { t.closeFd fd meant with api, sweep } where
  sound := by
    have hclosed := h.sound.close hnames
    have hcloses : (t.use .close fd meant).closes = t.closes ++ [meant] := closes_use
    rwa [← hcloses] at hclosed
  hits := by
    intro u hu
    rcases List.mem_append.mp hu with hu | hu
    · exact h.hits u hu
    · rw [List.mem_singleton.mp hu]
      exact hnames
  valid := h.valid
  held := by
    intro x hx
    obtain ⟨id, hid⟩ := h.held x hx
    have hne : x ≠ fd := by
      rintro rfl
      rw [FdTable.Names, hid] at hnames
      cases hnames
    exact ⟨id, by simpa [FdThreads.closeFd, FdTable.close, hne] using hid⟩
  pending p hp := by
    have hne : p.1 ≠ fd := by
      rintro rfl
      exact hfd (List.mem_map_of_mem hp)
    exact FdTable.names_close.mpr ⟨hne, h.pending p (hpending.subset hp)⟩
  pending_nodup := h.pending_nodup.sublist (hpending.map _)
  entries e he hne := by
    obtain ⟨hfd, hapi⟩ := hothers e (.inl he) hne
    exact FdTable.names_close.mpr ⟨hfd, h.entries e he hapi⟩
  listed e he := h.listed e (hlisted ▸ he)
  listed_nodup := hlisted ▸ h.listed_nodup
  dropped e he := by
    obtain ⟨hnames', hnone⟩ := h.dropped e (hdropped e he)
    refine ⟨fun hne => ?_, hnone⟩
    obtain ⟨hfd, hapi⟩ := hothers e (.inr he) hne
    exact FdTable.names_close.mpr ⟨hfd, hnames' hapi⟩

/-- The API thread goes on with events for connections that are open. -/
theorem setApi (h : t.Intact) (hapi : ∀ fd, t.api ≠ .erasing fd) (api : ApiThread)
    {batch : List ReadyEvent}
    (hnames : ∀ p ∈ api.current ++ clientsOf batch, t.fds.Names p.1 p.2)
    (hnodup : ((api.current ++ clientsOf batch).map (·.1)).Nodup) :
    Intact { t with api, batch } :=
  { h with
    pending := hnames
    pending_nodup := hnodup
    entries := fun e he _ => h.entries e he (hapi e.fd)
    dropped := fun e he =>
      ⟨fun _ => (h.dropped e he).1 (hapi e.fd), (h.dropped e he).2⟩ }

/-- The API thread goes on with some of the events it has. -/
theorem goOn (h : t.Intact) {old api : ApiThread} (hapi : t.api = old)
    (hold : ∀ fd, old ≠ .erasing fd) {batch : List ReadyEvent}
    (hsub : (api.current ++ clientsOf batch).Sublist (old.current ++ clientsOf t.batch)) :
    Intact { t with api, batch } := by
  subst hapi
  exact h.setApi hold api (fun p hp => h.pending p (hsub.subset hp))
    (h.pending_nodup.sublist (hsub.map _))

/-- What the broadcast still has to send to or to drop. -/
theorem listedOf (h : t.Intact) {sweep : Sweep} (hsweep : t.sweep = sweep) :
    (∀ e ∈ sweep.listed, e ∈ t.server.registry) ∧ (sweep.listed.map (·.fd)).Nodup := by
  subst hsweep
  exact ⟨h.listed, h.listed_nodup⟩

/-! ### The table -/

theorem accept (h : t.Intact) (hfree : t.fds.files fd = none) (added : Bool) :
    Intact { t with fds := t.fds.accept fd added } :=
  have hkeep {x id : Nat} (hnames : t.fds.Names x id) : (t.fds.accept fd added).Names x id :=
    FdTable.names_accept.mpr (.inr ⟨hnames.ne_of_free hfree, hnames⟩)
  { h with
    sound := h.sound.accept hfree
    held := by
      intro x hx
      obtain ⟨id, hid⟩ := h.held x hx
      have hne : x ≠ fd := by
        rintro rfl
        rw [hfree] at hid
        cases hid
      exact ⟨id, by simpa [FdTable.accept, hne] using hid⟩
    pending := fun p hp => hkeep (h.pending p hp)
    entries := fun e he hne => hkeep (h.entries e he hne)
    dropped := fun e he => ⟨fun hne => hkeep ((h.dropped e he).1 hne), (h.dropped e he).2⟩ }

theorem opened (h : t.Intact) (hfree : t.fds.files fd = none) :
    Intact { t with fds := t.fds.openOther fd, held := t.held ++ [fd] } :=
  have hkeep {x id : Nat} (hnames : t.fds.Names x id) : (t.fds.openOther fd).Names x id :=
    FdTable.names_openOther.mpr ⟨hnames.ne_of_free hfree, hnames⟩
  { h with
    sound := h.sound.openOther hfree
    held := by
      intro x hx
      by_cases hxfd : x = fd
      · exact ⟨t.fds.nextId, by simp [FdTable.openOther, hxfd]⟩
      · obtain ⟨id, hid⟩ := h.held x (by simpa [hxfd] using hx)
        exact ⟨id, by simpa [FdTable.openOther, hxfd] using hid⟩
    pending := fun p hp => hkeep (h.pending p hp)
    entries := fun e he hne => hkeep (h.entries e he hne)
    dropped := fun e he => ⟨fun hne => hkeep ((h.dropped e he).1 hne), (h.dropped e he).2⟩ }

/-- Another thread closes what it has opened. -/
theorem closed (h : t.Intact) (hheld : fd ∈ t.held) :
    Intact { t with fds := t.fds.close fd, held := t.held.filter (· ≠ fd) } :=
  have hkeep {x id : Nat} (hnames : t.fds.Names x id) : (t.fds.close fd).Names x id := by
    obtain ⟨other, hother⟩ := h.held fd hheld
    refine FdTable.names_close.mpr ⟨?_, hnames⟩
    rintro rfl
    rw [FdTable.Names, hother] at hnames
    cases hnames
  { h with
    sound := h.sound.closeOther
    held := by
      intro x hx
      obtain ⟨hx, hne⟩ := List.mem_filter.mp hx
      obtain ⟨id, hid⟩ := h.held x hx
      exact ⟨id, by simpa [FdTable.close, of_decide_eq_true hne] using hid⟩
    pending := fun p hp => hkeep (h.pending p hp)
    entries := fun e he hne => hkeep (h.entries e he hne)
    dropped := fun e he => ⟨fun hne => hkeep ((h.dropped e he).1 hne), (h.dropped e he).2⟩ }

/-! ### The registry -/

/-- Entries are dropped, but none that the broadcast still has. -/
theorem setServer (h : t.Intact) {server : ConsumerApiServer} (hvalid : server.Valid)
    (hsub : server.registry ⊆ t.server.registry)
    (hlisted : ∀ e ∈ t.sweep.listed, e ∈ server.registry) : Intact { t with server } :=
  { h with
    valid := hvalid
    entries := fun e he => h.entries e (hsub he)
    listed := hlisted
    dropped := fun e he => ⟨(h.dropped e he).1, fun e' he' => (h.dropped e he).2 e' (hsub he')⟩ }

theorem mem_dropEntry {p : ConsumerEntry → Bool} :
    (t.server.dropEntry p).1.registry ⊆ t.server.registry := by
  rw [ConsumerApiServer.dropEntry_registry]
  exact List.eraseP_subset

/-- An entry is pushed for a connection that is open. -/
theorem pushEntry (h : t.Intact) (hidle : t.sweep = .idle) (hapi : ∀ fd, t.api ≠ .erasing fd)
    (hnames : t.fds.Names fd conn) (hid : classId ∈ t.server.classIds) (pid : Int32) :
    Intact { t with
      server := t.server.pushEntry fd pid classId
      owner := Function.update t.owner fd conn } :=
  { h with
    valid := h.valid.pushEntry hid
    entries := by
      intro e he _
      change t.fds.Names e.fd (Function.update t.owner fd conn e.fd)
      by_cases hfd : e.fd = fd
      · rw [hfd, Function.update_self]
        exact hnames
      · rw [Function.update_of_ne hfd]
        have hmem : e ∈ t.server.registry := by
          rcases List.mem_append.mp he with he | he
          · exact List.mem_of_mem_filter he
          · rw [List.mem_singleton.mp he] at hfd
            exact absurd rfl hfd
        exact h.entries e hmem (hapi e.fd)
    listed := fun e he => absurd he (not_listed_of_idle hidle e).1
    dropped := fun e he => absurd he (not_listed_of_idle hidle e).2 }

/-! ### Steps -/

theorem handleMsg (h : t.Intact) {msg : ApiMsg} (hapi : t.api = .handling fd conn msg) :
    (t.handleMsg fd conn msg).Intact := by
  have hnot (x : Nat) : t.api ≠ .erasing x := by simp [hapi]
  have hnames := h.current hapi rfl
  unfold FdThreads.handleMsg
  split
  · next hreg =>
    split
    · next hidle =>
      have hid := ConsumerApiServer.findClass_isSome.mp hreg.2
      exact (h.pushEntry hidle hnot hnames hid msg.pid).goOn hapi (by simp) (List.Sublist.refl _)
    · exact h
  · split
    · split
      · next hidle =>
        have hserver : (t.server.handleUnregister fd msg).1.Valid ∧
            (t.server.handleUnregister fd msg).1.registry ⊆ t.server.registry := by
          unfold ConsumerApiServer.handleUnregister
          split
          · exact ⟨h.valid, fun e he => he⟩
          · exact ⟨h.valid.dropEntry, mem_dropEntry⟩
        have hlisted : ∀ e ∈ (t.use .send fd conn).sweep.listed,
            e ∈ (t.server.handleUnregister fd msg).1.registry :=
          fun e he => absurd he (not_listed_of_idle hidle e).1
        have hset := (h.use (by decide : FdCall.send ≠ .close) hnames).setServer hserver.1 hserver.2
          hlisted
        exact hset.goOn hapi (by simp) (List.sublist_append_right _ _)
      · exact h
    · exact h.goOn hapi (by simp) (List.Sublist.refl _)

/-- The API thread erases the entry with the number it has closed. -/
theorem erase (h : t.Intact) (hapi : t.api = .erasing fd) (hidle : t.sweep = .idle) :
    Intact { t with server := (t.server.dropEntry (·.fd = fd)).1, api := .idle } := by
  have hlisted : ∀ e ∈ t.sweep.listed, e ∈ (t.server.dropEntry (·.fd = fd)).1.registry :=
    fun e he => absurd he (not_listed_of_idle hidle e).1
  have hset := h.setServer (h.valid.dropEntry (p := (·.fd = fd))) mem_dropEntry hlisted
  have hpending : t.pending = clientsOf t.batch := pending_of_api hapi
  have hnodup := h.pending_nodup
  rw [hpending] at hnodup
  have hgone : ∀ e ∈ (t.server.dropEntry (·.fd = fd)).1.registry, e.fd ≠ fd :=
    fun e he => (h.valid.mem_dropEntry_fd.mp he).2
  exact { hset with
    pending := fun p hp => h.pending p (hpending ▸ hp)
    pending_nodup := hnodup
    entries := fun e he _ => hset.entries e he (by simpa [hapi, eq_comm] using hgone e he)
    dropped := fun e he => absurd he (not_listed_of_idle hidle e).2 }

/-- A new connection that cannot be watched is closed at once. -/
theorem acceptFailed (h : t.Intact) (hfree : t.fds.files fd = none) :
    Intact (FdThreads.closeFd { t with fds := t.fds.accept fd false } fd t.fds.nextId) := by
  have hnew : (t.fds.accept fd false).Names fd t.fds.nextId :=
    FdTable.names_accept.mpr (.inl ⟨rfl, rfl⟩)
  have hne {x id : Nat} (hx : t.fds.Names x id) : x ≠ fd := hx.ne_of_free hfree
  refine (h.accept hfree false).closeFd hnew t.api (List.Sublist.refl _) ?_ rfl
    (fun e he => he) ?_
  · intro hmem
    obtain ⟨p, hp, hpfd⟩ := List.mem_map.mp hmem
    exact hne (h.pending p hp) hpfd
  · rintro e (he | he) herasing
    · exact ⟨hne (h.entries e he herasing), herasing⟩
    · exact ⟨hne ((h.dropped e he).1 herasing), herasing⟩

theorem apiStep (h : t.Intact) (a : ApiStep) : (t.apiStep a).Intact := by
  cases a with
  | wait ready =>
    simp only [FdThreads.apiStep]
    split
    · next hapi hbatch =>
      split
      · next hready =>
        have hnot (x : Nat) : t.api ≠ .erasing x := by simp [hapi]
        have hset := h.setApi hnot .idle (fun p hp => h.sound.watched p (hready.1 hp)) hready.2
        rwa [← hapi] at hset
      · exact h
    · exact h
  | next =>
    simp only [FdThreads.apiStep]
    split
    · next batch hapi hbatch =>
      refine h.goOn hapi (by simp) ?_
      rw [hbatch]
      exact List.Sublist.refl _
    · next fd conn hangup batch hapi hbatch =>
      refine h.goOn hapi (by simp) ?_
      rw [hbatch]
      cases hangup <;> exact List.Sublist.refl _
    · exact h
  | accept fd added =>
    simp only [FdThreads.apiStep]
    split
    · split
      · exact h
      · next hfree =>
        have hfree : t.fds.files fd = none := by simpa using hfree
        split
        · exact h.accept hfree true
        · exact h.acceptFailed hfree
    · exact h
  | noMore =>
    simp only [FdThreads.apiStep]
    split
    · next hapi => exact h.goOn hapi (by simp) (List.Sublist.refl _)
    · exact h
  | recv turn msg =>
    simp only [FdThreads.apiStep]
    split
    · next fd conn hapi =>
      have huse := h.use (by decide : FdCall.recv ≠ .close) (h.current hapi rfl)
      refine huse.goOn hapi (by simp) ?_
      cases turn <;> exact List.Sublist.refl _
    · exact h
  | handle =>
    simp only [FdThreads.apiStep]
    split
    · next fd conn msg hapi => exact h.handleMsg hapi
    · exact h
  | reply turn =>
    simp only [FdThreads.apiStep]
    split
    · next fd conn hapi =>
      have huse := h.use (by decide : FdCall.send ≠ .close) (h.current hapi rfl)
      refine huse.goOn hapi (by simp) ?_
      split
      · exact List.Sublist.refl _
      · exact List.sublist_append_right _ _
    · exact h
  | epollDel =>
    simp only [FdThreads.apiStep]
    split
    · next fd conn hapi =>
      exact (h.epollDelFd (h.current hapi rfl)).goOn hapi (by simp) (List.Sublist.refl _)
    · exact h
  | close =>
    simp only [FdThreads.apiStep]
    split
    · next fd conn hapi =>
      have hnodup := h.pending_nodup
      rw [pending_of_api hapi] at hnodup
      refine h.closeFd (h.current hapi rfl) (.erasing fd) (List.sublist_append_right _ _)
        (List.nodup_cons.mp hnodup).1 rfl (fun e he => he) ?_
      intro e _ hne
      exact ⟨fun heq => hne (by rw [heq]), by simp [hapi]⟩
    · exact h
  | erase =>
    simp only [FdThreads.apiStep]
    split
    · next fd hapi =>
      split
      · next hidle => exact h.erase hapi hidle
      · exact h
    · exact h

/-- Another entry of the broadcast takes the place of the ones it had. -/
theorem setSweep (h : t.Intact) {sweep : Sweep}
    (hlisted : ∀ e ∈ sweep.listed, e ∈ t.server.registry)
    (hnodup : (sweep.listed.map (·.fd)).Nodup) (hdropped : sweep.dropped = t.sweep.dropped) :
    Intact { t with sweep } :=
  { h with
    listed := hlisted
    listed_nodup := hnodup
    dropped := hdropped ▸ h.dropped }

/-- The broadcast drops the entry of a connection that it could not send to. -/
theorem drop (h : t.Intact) {e : ConsumerEntry} {failed : List ConsumerEntry}
    (hsweep : t.sweep = .sending [] (e :: failed)) :
    Intact { t with
      server := (t.server.dropEntry (·.fd = e.fd)).1
      sweep := .deleting e failed } := by
  obtain ⟨hlisted, hnodup⟩ := h.listedOf hsweep
  obtain ⟨hhead, hnodup⟩ := List.nodup_cons.mp hnodup
  have he : e ∈ t.server.registry := hlisted e (by simp [Sweep.listed])
  have hmem (e' : ConsumerEntry) : e' ∈ (t.server.dropEntry (·.fd = e.fd)).1.registry ↔
      e' ∈ t.server.registry ∧ e'.fd ≠ e.fd := h.valid.mem_dropEntry_fd
  exact { h with
    valid := h.valid.dropEntry
    entries := fun e' he' => h.entries e' ((hmem e').mp he').1
    listed := by
      intro e' he'
      refine (hmem e').mpr ⟨hlisted e' (by simpa [Sweep.listed] using .inr he'), ?_⟩
      intro heq
      have hin : e'.fd ∈ failed.map (·.fd) := List.mem_map_of_mem he'
      rw [heq] at hin
      exact hhead hin
    listed_nodup := hnodup
    dropped := by
      rintro o ho
      obtain rfl : e = o := Option.some.inj ho
      exact ⟨h.entries e he, fun e' he' => ((hmem e').mp he').2⟩ }

/-- The entry that a step of an undisturbed broadcast makes a call for stands for its
connection. -/
theorem target (h : t.Intact) {b : SweepStep} (hb : t.Undisturbed (.sweep b))
    {e : ConsumerEntry} (he : t.target b = some e) : t.fds.Names e.fd (t.owner e.fd) := by
  have hapi := (hb e he).1
  cases b with
  | send turn =>
    simp only [FdThreads.target] at he
    split at he
    · next o rest failed hsweep =>
      obtain rfl : o = e := Option.some.inj he
      exact h.entries o (h.listed o (by simp [hsweep, Sweep.listed])) hapi
    · cases he
  | epollDel =>
    simp only [FdThreads.target] at he
    split at he
    · next o failed hsweep =>
      obtain rfl : o = e := Option.some.inj he
      exact (h.dropped o (by simp [hsweep, Sweep.dropped])).1 hapi
    · cases he
  | close =>
    simp only [FdThreads.target] at he
    split at he
    · next o failed hsweep =>
      obtain rfl : o = e := Option.some.inj he
      exact (h.dropped o (by simp [hsweep, Sweep.dropped])).1 hapi
    · cases he
  | lock | drop => cases he

theorem sweepStep (h : t.Intact) {b : SweepStep} (hb : t.Undisturbed (.sweep b)) :
    (t.sweepStep b).Intact := by
  cases b with
  | lock classId =>
    simp only [FdThreads.sweepStep]
    split
    · next hsweep =>
      refine h.setSweep (fun e he => ?_) ?_ (by rw [hsweep]; rfl)
      · simp only [Sweep.listed, List.append_nil] at he
        exact List.mem_of_mem_filter he
      · simp only [Sweep.listed, List.append_nil]
        exact h.valid.fds_nodup.sublist (List.filter_sublist.map _)
    · exact h
  | send turn =>
    simp only [FdThreads.sweepStep]
    split
    · next e rest failed hsweep =>
      have hnames := h.target hb (e := e) (by simp [FdThreads.target, hsweep])
      have huse := h.use (by decide : FdCall.send ≠ .close) hnames
      obtain ⟨hlisted, hnodup⟩ := h.listedOf hsweep
      have hperm : (rest ++ (failed ++ [e])).Perm (e :: rest ++ failed) := by
        rw [← List.append_assoc]
        exact List.perm_append_singleton e (rest ++ failed)
      cases turn with
      | again => exact huse.setSweep hlisted hnodup (by simp [FdThreads.use, hsweep])
      | done =>
        exact huse.setSweep (fun o ho => hlisted o (List.mem_cons_of_mem e ho))
          (List.nodup_cons.mp hnodup).2 (by simp [FdThreads.use, hsweep, Sweep.dropped])
      | failed =>
        exact huse.setSweep (fun o ho => hlisted o (hperm.mem_iff.mp ho))
          ((hperm.map _).nodup_iff.mpr hnodup) (by simp [FdThreads.use, hsweep, Sweep.dropped])
    · exact h
  | drop =>
    simp only [FdThreads.sweepStep]
    split
    · next e failed hsweep => exact h.drop hsweep
    · next hsweep =>
      exact h.setSweep (fun e he => by cases he) List.nodup_nil (by rw [hsweep]; rfl)
    · exact h
  | epollDel =>
    simp only [FdThreads.sweepStep]
    split
    · next e failed hsweep =>
      have hnames := h.target hb (e := e) (by simp [FdThreads.target, hsweep])
      obtain ⟨hlisted, hnodup⟩ := h.listedOf hsweep
      exact (h.epollDelFd hnames).setSweep hlisted hnodup
        (by simp [FdThreads.epollDelFd, FdThreads.use, hsweep, Sweep.dropped])
    · exact h
  | close =>
    simp only [FdThreads.sweepStep]
    split
    · next e failed hsweep =>
      have htarget : t.target .close = some e := by simp [FdThreads.target, hsweep]
      have hnames := h.target hb htarget
      have hfree := (hb e htarget).2 rfl
      have hothers := (h.dropped e (by simp [hsweep, Sweep.dropped])).2
      refine h.closeFd hnames t.api (List.Sublist.refl _) hfree ?_ ?_ ?_
      · rw [hsweep]
        rfl
      · intro o ho
        cases ho
      · rintro o (ho | ho) herasing
        · exact ⟨hothers o ho, herasing⟩
        · cases ho
    · exact h

/-- Every step keeps the invariant, where the broadcast is undisturbed. -/
theorem step (h : t.Intact) {e : Step} (he : t.Undisturbed e) : (t.step e).Intact := by
  cases e with
  | api a => exact h.apiStep a
  | sweep b => exact h.sweepStep he
  | opened fd =>
    simp only [FdThreads.step]
    split
    · next hfree => exact h.opened hfree
    · exact h
  | closed fd =>
    simp only [FdThreads.step]
    split
    · next hheld => exact h.closed hheld
    · exact h

end Intact

/-! ## Whole runs -/

/-- In every interleaving in which the broadcasts are undisturbed, every call hits the connection
that was meant, and none is closed twice. -/
theorem onlyOwn_of_undisturbed (classes : List PathClassConfig) (steps : List Step)
    (h : StateMachine.StepsMeet step Undisturbed (fresh classes) steps) :
    StateMachine.Throughout step OnlyOwn (fresh classes) steps :=
  (StateMachine.throughout_of_step (fun _ _ hi he => hi.step he) (fresh_intact classes) h).mono
    fun _ hi => hi.onlyOwn

/-- Connection 7 registers for `multipath`. -/
def registered : List Step :=
  [.api (.wait [.listen]), .api .next, .api (.accept 7 true), .api .noMore,
    .api (.wait [.client 7 0 false]), .api .next, .api (.recv .done (registerMsg 100 "multipath")),
    .api .handle, .api (.reply .done)]

/-- A broadcast cannot send to the first entry, and drops it. -/
def dropsFirst : List Step :=
  [.sweep (.lock (Bytes.ascii "multipath")), .sweep (.send .failed), .sweep .drop,
    .sweep .epollDel, .sweep .close]

theorem onlyOwn_dropsFirst :
    let steps := registered ++ dropsFirst
    (StateMachine.run step (fresh pathPolicies) steps).uses.map (·.call) =
        [.recv, .send, .send, .epollDel, .close] ∧
      StateMachine.Throughout step OnlyOwn (fresh pathPolicies) steps := by
  intro steps
  exact ⟨by decide, onlyOwn_of_undisturbed pathPolicies steps (by decide)⟩

/-- The broadcast closes a connection whose hang-up the API thread has been told of already:
`removeClient` then closes the number a second time, which is another thread's by then. -/
theorem reused_number_closed :
    ¬ ∀ classes steps, Accepted classes →
        StateMachine.Throughout step OnlyOwn (fresh classes) steps := by
  intro h
  have hrun := (h pathPolicies (registered ++ [.api (.wait [.client 7 0 true])] ++ dropsFirst ++
    [.opened 7, .api .next, .api .epollDel, .api .close]) pathPolicies_accepted).last
  have hhit := hrun.hits ⟨.close, 7, 0, some (.other 1)⟩ (by decide)
  exact absurd hhit (by decide)

/-- Between the close and the erase of `removeClient`, a broadcast sends to whatever has the
number. -/
example :
    let steps := registered ++ [.api (.wait [.client 7 0 true]), .api .next, .api .epollDel,
      .api .close, .opened 7, .sweep (.lock (Bytes.ascii "multipath")), .sweep (.send .done)]
    (StateMachine.run step (fresh pathPolicies) steps).uses.getLast? =
      some ⟨.send, 7, 0, some (.other 1)⟩ := by decide

end FdThreads
end WifiOffload
