import WifiOffload.Api.Placement
import WifiOffload.Daemon.Run
import WifiOffload.Library.Unwinding

/-!
# What consumers see of a path

The path events that a consumer is sent while its registration lasts, next to the state changes
of the machine of its class. The registry decides who is told, and the cached state of a class is
what its last change was.
-/

namespace WifiOffload

open StateMachine

/-- A change of the state, as `onStateChanged` passes it on. -/
structure Change where
  next : PathState
  iface : Bytes
  rssi : Int32
  deriving DecidableEq, Repr

/-- The last one of some changes; a class starts idle. -/
def Change.last (changes : List Change) : Change := changes.getLast?.getD ⟨.idle, [], 0⟩

@[simp] theorem Change.last_concat (changes : List Change) (c : Change) :
    Change.last (changes ++ [c]) = c := by simp [Change.last]

def Callback.change : Callback → Option Change
  | .onStateChanged _ next iface rssi => some ⟨next, iface, Int32.ofInt rssi⟩
  | .onPathUp .. | .onPathDown .. => none

/-- The changes that an event of its monitor makes to a machine. -/
def PathStateFsm.changes (m : PathStateFsm) (ev : WpaEvent) : List Change :=
  (m.onWpaEvent { ev with iface := m.config.wifiIface }).2.filterMap Callback.change

/-- What a consumer reads in a message about a path. -/
structure Notice where
  classId : Bytes
  state : UInt32
  iface : Bytes
  rssi : Int32
  deriving DecidableEq, Repr

def ApiMsg.notice (m : ApiMsg) : Notice := ⟨m.classId.toString, m.state, m.iface.toString, m.rssi⟩

/-- The change of a class, with the interface as the C string that it is sent as. -/
def Change.notice (classId : Bytes) (c : Change) : Notice :=
  ⟨classId, c.next.code, Bytes.cString c.iface, c.rssi⟩

namespace Daemon

/-- The state changes of a class. -/
def changes (classId : Bytes) (d : Daemon) : Event → List Change
  | .wpa i ev _ =>
    match d.fsms[i]? with
    | none => []
    | some m => if m.config.id = classId then m.changes ev else []
  | .connect _ | .message .. | .disconnect .. | .exit _ => []

/-- What the server does at an event; a machine changes its state at most once. -/
def effects (d : Daemon) : Event → List Effect
  | .wpa i ev answers =>
    match d.fsms[i]? with
    | none => []
    | some m => (m.changes ev).flatMap fun c =>
        (d.server.broadcastPathEvent m.config.id c.next c.iface c.rssi answers.sent).2
  | .connect fd => (d.server.step (.connect fd)).2
  | .message fd msg _ => (d.server.step (.message fd msg)).2
  | .disconnect fd _ => (d.server.step (.disconnect fd)).2
  | .exit _ => []

/-- The path events among what a connection is sent at an event. -/
def pathEvents (fd : Nat) (d : Daemon) (e : Event) : List ApiMsg :=
  (Effect.messagesTo fd (d.effects e)).filter (·.type = MsgType.pathEvent.code)

end Daemon

/-! ## One machine -/

/-- An event changes the state once, to another state, or not at all. -/
theorem PathStateFsm.changes_cases (m : PathStateFsm) (ev : WpaEvent) :
    let next := (m.onWpaEvent { ev with iface := m.config.wifiIface }).1
    next.config = m.config ∧ ((m.changes ev = [] ∧ next.state = m.state) ∨
      ∃ c, m.changes ev = [c] ∧ c.iface = m.config.wifiIface ∧ c.next ≠ m.state ∧
        next.state = c.next) := by
  intro next
  have hcases := m.onWpaEvent_cases { ev with iface := m.config.wifiIface }
  rcases hcases with ⟨-, heq⟩ | ⟨hne, hup, heq⟩ | ⟨hdown, hlive, heq⟩ | ⟨hne, -, -, heq⟩
  · simp only [PathStateFsm.changes, next, heq]
    exact ⟨trivial, .inl ⟨rfl, trivial⟩⟩
  · refine ⟨by simp only [next, heq], .inr ⟨⟨.pathUp, m.config.wifiIface, Int32.ofInt ev.rssi⟩, ?_⟩⟩
    simp only [PathStateFsm.changes, next, heq]
    exact ⟨by rw [← hup]; rfl, trivial, fun h => hne (hup.trans h), trivial⟩
  · refine ⟨by simp only [next, heq],
      .inr ⟨⟨.pathDown, m.config.wifiIface, Int32.ofInt ev.rssi⟩, ?_⟩⟩
    have hne : PathState.pathDown ≠ m.state := by
      intro h
      simp [← h, isDownState] at hlive
    simp only [PathStateFsm.changes, next, heq, hdown]
    refine ⟨?_, trivial, hne, trivial⟩
    split <;> rfl
  · refine ⟨by simp only [next, heq], .inr ⟨⟨PathStateFsm.nextState m.state
      { ev with iface := m.config.wifiIface } m.config.rssi, m.config.wifiIface,
      Int32.ofInt ev.rssi⟩, ?_⟩⟩
    simp only [PathStateFsm.changes, next, heq]
    exact ⟨rfl, trivial, hne, trivial⟩

namespace ConsumerApiServer

variable {s : ConsumerApiServer} {classId other : Bytes}
  {newState : PathState} {iface : Bytes} {rssiDbm : Int32} {sent : Nat → Bool}

/-! ## One broadcast -/

theorem findClass_broadcastPathEvent :
    (s.broadcastPathEvent classId newState iface rssiDbm sent).1.findClass other =
      (s.cachePathEvent classId newState iface rssiDbm).findClass other := by
  simp only [broadcastPathEvent]
  rw [dropAllBroken_frame]
  rfl

/-- A consumer whose entry stays is sent the event of its class and no other. -/
theorem Valid.messagesTo_broadcastPathEvent (h : s.Valid) {e : ConsumerEntry}
    (he : e ∈ s.registry)
    (hkept : e ∈ (s.broadcastPathEvent classId newState iface rssiDbm sent).1.registry) :
    Effect.messagesTo e.fd (s.broadcastPathEvent classId newState iface rssiDbm sent).2 =
      if e.classId = classId then [pathEvent classId newState iface rssiDbm] else [] := by
  have hnot := ((h.broadcastPathEvent_releases (fun _ => none) classId newState iface rssiDbm
    sent).mem_iff e).mp hkept
  have hreached : ((s.registry.filter (·.classId = classId)).filter fun o => sent o.fd).filter
      (·.fd = e.fd) = [e].filter fun o => decide (o.classId = classId) && sent o.fd := by
    rw [← h.filter_fd he]
    simp only [List.filter_filter]
    apply List.filter_congr
    intro o _
    grind
  have hsame : (s.cachePathEvent classId newState iface rssiDbm).registry = s.registry := rfl
  simp only [broadcastPathEvent, Effect.messagesTo_append, messagesTo_dropAllBroken,
    List.append_nil, messagesTo_sends, receivers, hsame, hreached]
  by_cases hclass : e.classId = classId
  · have hsent : sent e.fd = true := by simpa [Broken, hclass] using hnot.2
    simp [hclass, hsent]
  · simp [hclass]

end ConsumerApiServer

namespace Daemon

variable {host : Host} {classes : List PathClassConfig} {d : Daemon} {classId : Bytes}

/-! ## One event -/

/-- The server after an event of a machine. -/
def announce (id : Bytes) (sent : Nat → Bool) (s : ConsumerApiServer) (c : Change) :
    ConsumerApiServer :=
  (s.broadcastPathEvent id c.next c.iface c.rssi sent).1.updateCurrentState id c.next

theorem server_onCallback (cls : PathClassConfig) (answers : Answers) (calls : List Callback)
    (p : Kernel × ConsumerApiServer) :
    (calls.foldl (onCallback host classes cls answers) p).2 =
      (calls.filterMap Callback.change).foldl (announce cls.id answers.sent) p.2 := by
  induction calls generalizing p with
  | nil => rfl
  | cons call calls ih =>
    rw [List.foldl_cons, ih]
    cases call <;> rfl

theorem server_step_wpa {i : Nat} {m : PathStateFsm} (hm : d.fsms[i]? = some m) (ev : WpaEvent)
    (answers : Answers) : (d.step host classes (.wpa i ev answers)).server =
      (m.changes ev).foldl (announce m.config.id answers.sent) d.server := by
  simp only [step, hm]
  exact server_onCallback _ _ _ _

/-- An announced change is what the class is cached with, and the other classes are as before. -/
theorem findClass_announce {id : Bytes} {sent : Nat → Bool} {s : ConsumerApiServer} {c : Change}
    (other : Bytes) : (announce id sent s c).findClass other =
      if id = other then (s.findClass other).map fun cls =>
        { cls with state := c.next, activeIface := c.iface, rssi := c.rssi }
      else s.findClass other := by
  by_cases h : id = other
  · subst h
    rw [if_pos rfl, announce, ConsumerApiServer.updateCurrentState,
      ConsumerApiServer.findClass_updateClass, ConsumerApiServer.findClass_broadcastPathEvent,
      ConsumerApiServer.findClass_cachePathEvent, Option.map_map]
    · rfl
    · exact fun _ => rfl
  · rw [if_neg h, announce, ConsumerApiServer.updateCurrentState]
    refine (ConsumerApiServer.findClass_updateClass_of_ne ?_ h).trans ?_
    · exact fun _ => rfl
    · rw [ConsumerApiServer.findClass_broadcastPathEvent,
        ConsumerApiServer.findClass_cachePathEvent_of_ne h]

theorem classIds_announce {id : Bytes} {sent : Nat → Bool} {s : ConsumerApiServer} {c : Change} :
    (announce id sent s c).classIds = s.classIds := by
  have hbroadcast : (s.broadcastPathEvent id c.next c.iface c.rssi sent).1.classIds =
      (s.cachePathEvent id c.next c.iface c.rssi).classIds := by
    simp only [ConsumerApiServer.broadcastPathEvent, ConsumerApiServer.classIds]
    rw [ConsumerApiServer.dropAllBroken_frame]
  rw [announce, ConsumerApiServer.updateCurrentState, ConsumerApiServer.classIds_updateClass,
    hbroadcast, ConsumerApiServer.classIds_cachePathEvent]
  exact fun _ => rfl

theorem announce_valid {id : Bytes} {sent : Nat → Bool} {s : ConsumerApiServer} {c : Change}
    (h : s.Valid) : (announce id sent s c).Valid :=
  (h.step (.broadcast id c.next c.iface c.rssi sent)).of_sublist
    (ConsumerApiServer.classIds_updateClass _ fun _ => rfl) (List.Sublist.refl _)

/-- No two machines are for one class. -/
theorem mem_set_of_nodup {fsms : List PathStateFsm} (hids : (fsms.map (·.config.id)).Nodup)
    {i : Nat} {m next m' : PathStateFsm} (hm : fsms[i]? = some m) (hm' : m' ∈ fsms.set i next) :
    m' = next ∨ (m' ∈ fsms ∧ m'.config.id ≠ m.config.id) := by
  obtain ⟨j, hj⟩ := List.mem_iff_getElem?.mp hm'
  have hi : i < fsms.length := (List.getElem?_eq_some_iff.mp hm).1
  by_cases hij : i = j
  · subst hij
    rw [List.getElem?_set_self hi] at hj
    exact .inl (Option.some.inj hj).symm
  · rw [List.getElem?_set_ne hij] at hj
    refine .inr ⟨List.mem_of_getElem? hj, fun heq => hij ?_⟩
    refine (List.getElem?_inj (by simpa using hi) hids).mp ?_
    simp [hm, hj, heq]

theorem map_set_of_eq {fsms : List PathStateFsm} {i : Nat} {m next : PathStateFsm}
    (hm : fsms[i]? = some m) (hid : next.config.id = m.config.id) :
    (fsms.set i next).map (·.config.id) = fsms.map (·.config.id) := by
  have hi : i < fsms.length := (List.getElem?_eq_some_iff.mp hm).1
  refine List.ext_getElem? fun j => ?_
  by_cases hij : i = j
  · subst hij
    rw [List.getElem?_map, List.getElem?_set_self hi, List.getElem?_map, hm]
    exact congrArg some hid
  · simp [List.getElem?_set_ne hij]

/-- The machine and the cached state of a class are where its last change has put them. -/
structure Recorded (classes : List PathClassConfig) (classId : Bytes) (log : List Change)
    (d : Daemon) : Prop where
  valid : d.server.Valid
  classIds : d.server.classIds = classes.map (·.id)
  config_mem : ∀ m ∈ d.fsms, m.config ∈ classes
  ids_nodup : (d.fsms.map (·.config.id)).Nodup
  machine : ∀ m ∈ d.fsms, m.config.id = classId → m.state = (Change.last log).next
  cached : ∀ cls, d.server.findClass classId = some cls →
    cls.state = (Change.last log).next ∧ cls.activeIface = (Change.last log).iface ∧
      cls.rssi = (Change.last log).rssi

theorem start_recorded (hids : (classes.map (·.id)).Nodup) (classId : Bytes) (k : Kernel) :
    Recorded classes classId [] (start classes k) where
  valid := ⟨List.nodup_nil, fun e he => by cases he⟩
  classIds := by simp [start, ConsumerApiServer.ofClasses, ConsumerApiServer.classIds]
  config_mem m hm := by
    obtain ⟨cls, hcls, rfl⟩ := List.mem_map.mp hm
    exact List.mem_of_mem_filter hcls
  ids_nodup := by
    simp only [start, List.map_map]
    exact hids.sublist (List.filter_sublist.map _)
  machine m hm _ := by
    obtain ⟨cls, -, rfl⟩ := List.mem_map.mp hm
    rfl
  cached cls hcls := by
    have hmem := List.mem_of_find?_eq_some hcls
    obtain ⟨c, -, rfl⟩ := List.mem_map.mp hmem
    exact ⟨rfl, rfl, rfl⟩

namespace Recorded

variable {log : List Change}

/-- An event of the API thread changes no state. -/
theorem handleApi (h : Recorded classes classId log d) (answers : Answers)
    {e : ConsumerApiServer.Event}
    (hclasses : (d.server.step e).1.classStates = d.server.classStates) :
    Recorded classes classId log (d.handleApi host answers e) where
  valid := h.valid.step e
  classIds := by
    rw [← h.classIds, ConsumerApiServer.classIds, Daemon.handleApi, hclasses]
    rfl
  config_mem := h.config_mem
  ids_nodup := h.ids_nodup
  machine := h.machine
  cached cls hcls := by
    refine h.cached cls ?_
    rwa [Daemon.handleApi, ConsumerApiServer.findClass, hclasses] at hcls

/-- Where one machine has gone on, those of the other classes are where they were. -/
theorem machines_set (h : Recorded classes classId log d) {i : Nat} {m next : PathStateFsm}
    (hm : d.fsms[i]? = some m) (hconfig : next.config = m.config) {log' : List Change}
    (hnext : m.config.id = classId → next.state = (Change.last log').next)
    (hlog : m.config.id ≠ classId → log' = log) :
    ∀ m' ∈ d.fsms.set i next, m'.config.id = classId → m'.state = (Change.last log').next := by
  intro m' hm' hid
  rcases mem_set_of_nodup h.ids_nodup hm hm' with rfl | ⟨hm', hne⟩
  · exact hnext (hconfig ▸ hid)
  · rw [hlog fun heq => hne (hid.trans heq.symm)]
    exact h.machine m' hm' hid

/-- An event of a path puts the change of its class, if there is one, behind the others. -/
theorem wpa (h : Recorded classes classId log d) (host : Host) (i : Nat) (ev : WpaEvent)
    (answers : Answers) :
    Recorded classes classId (log ++ d.changes classId (.wpa i ev answers))
      (d.step host classes (.wpa i ev answers)) := by
  cases hm : d.fsms[i]? with
  | none => simpa [Daemon.step, changes, hm] using h
  | some m =>
    obtain ⟨hconfig, hcases⟩ := m.changes_cases ev
    have hserver : (d.step host classes (.wpa i ev answers)).server = _ :=
      server_step_wpa hm ev answers
    have hfsms : (d.step host classes (.wpa i ev answers)).fsms =
        d.fsms.set i (m.onWpaEvent { ev with iface := m.config.wifiIface }).1 := by
      simp only [Daemon.step, hm]
    generalize (m.onWpaEvent { ev with iface := m.config.wifiIface }).1 = next
      at hconfig hcases hfsms
    generalize d.step host classes (.wpa i ev answers) = d' at hserver hfsms
    have hids : (d'.fsms.map (·.config.id)).Nodup := by
      rw [hfsms, map_set_of_eq hm (by rw [hconfig])]
      exact h.ids_nodup
    have hmem := List.mem_of_getElem? hm
    have hconfigs : ∀ m' ∈ d'.fsms, m'.config ∈ classes := by
      intro m' hm'
      rcases List.mem_or_eq_of_mem_set (hfsms ▸ hm') with hm' | rfl
      · exact h.config_mem m' hm'
      · exact hconfig ▸ h.config_mem m hmem
    have hchanges : d.changes classId (.wpa i ev answers) =
        if m.config.id = classId then m.changes ev else [] := by
      simp only [changes, hm]
    rw [hchanges]
    rcases hcases with ⟨hnone, hstate⟩ | ⟨c, hone, -, -, hstate⟩
    · -- nothing is announced
      rw [hnone, List.foldl_nil] at hserver
      simp only [hnone, ite_self, List.append_nil]
      refine ⟨hserver ▸ h.valid, hserver ▸ h.classIds, hconfigs, hids, ?_, hserver ▸ h.cached⟩
      rw [hfsms]
      exact h.machines_set hm hconfig (fun hid => hstate.trans (h.machine m hmem hid)) fun _ => rfl
    · rw [hone, List.foldl_cons, List.foldl_nil] at hserver
      rw [hone]
      refine ⟨hserver ▸ announce_valid h.valid, ?_, hconfigs, hids, ?_, fun cls hcls => ?_⟩
      · rw [hserver, classIds_announce, h.classIds]
      · rw [hfsms]
        refine h.machines_set hm hconfig (fun hid => ?_) fun hne => ?_
        · rw [if_pos hid, Change.last_concat, hstate]
        · rw [if_neg hne, List.append_nil]
      · rw [hserver, findClass_announce] at hcls
        split at hcls
        · next heq =>
          obtain ⟨cls', -, rfl⟩ := Option.map_eq_some_iff.mp hcls
          rw [if_pos heq, Change.last_concat]
          exact ⟨rfl, rfl, rfl⟩
        · next hne =>
          rw [if_neg hne, List.append_nil]
          exact h.cached cls hcls

theorem step (h : Recorded classes classId log d) (host : Host) (e : Event) :
    Recorded classes classId (log ++ d.changes classId e) (d.step host classes e) := by
  cases e with
  | wpa i ev answers => exact h.wpa host i ev answers
  | connect fd =>
    simp only [changes, List.append_nil]
    refine h.handleApi {} ?_
    simp only [ConsumerApiServer.step, ConsumerApiServer.handleAccept]
    split <;> rfl
  | message fd msg answers =>
    simp only [changes, List.append_nil]
    refine h.handleApi answers ?_
    simp only [ConsumerApiServer.step]
    split
    · exact ConsumerApiServer.classStates_handle _ _ _
    · rfl
  | disconnect fd answers =>
    simp only [changes, List.append_nil]
    refine h.handleApi answers ?_
    simp only [ConsumerApiServer.step]
    split
    · exact ConsumerApiServer.classStates_dropEntry
    · rfl
  | exit pid =>
    simp only [changes, List.append_nil]
    exact ⟨h.valid, h.classIds, h.config_mem, h.ids_nodup, h.machine, h.cached⟩

theorem run (h : Recorded classes classId log d) (host : Host) (events : List Event) :
    Recorded classes classId (log ++ observed (Daemon.step host classes) (changes classId) d events)
      (StateMachine.run (Daemon.step host classes) d events) := by
  induction events generalizing d log with
  | nil => simpa using h
  | cons e events ih => simpa [List.append_assoc] using ih (h.step host e)

/-- From where its machine is, a class goes to another state with every change. -/
theorem isChain (h : Recorded classes classId log d) (host : Host) (events : List Event) :
    List.IsChain (· ≠ ·) ((Change.last log).next ::
      (observed (Daemon.step host classes) (changes classId) d events).map (·.next)) := by
  induction events generalizing d log with
  | nil => simp
  | cons e events ih =>
    have hrest := ih (h.step host e)
    have hcases : d.changes classId e = [] ∨
        ∃ c, d.changes classId e = [c] ∧ c.next ≠ (Change.last log).next := by
      cases e with
      | wpa i ev answers =>
        simp only [changes]
        cases hm : d.fsms[i]? with
        | none => exact .inl rfl
        | some m =>
          by_cases hid : m.config.id = classId
          · rcases (m.changes_cases ev).2 with ⟨hnone, -⟩ | ⟨c, hone, -, hne, -⟩
            · exact .inl (by simp [hid, hnone])
            · rw [h.machine m (List.mem_of_getElem? hm) hid] at hne
              exact .inr ⟨c, by simp [hid, hone], hne⟩
          · exact .inl (by simp [hid])
      | connect | message | disconnect | exit => exact .inl rfl
    rw [observed_cons]
    rcases hcases with hnone | ⟨c, hone, hne⟩
    · simpa [hnone] using hrest
    · rw [hone, Change.last_concat] at hrest
      rw [hone]
      exact .cons_cons hne.symm hrest

/-- Changes name the interface of their class. -/
theorem iface_mem (h : Recorded classes classId log d) {e : Event} {c : Change}
    (hc : c ∈ d.changes classId e) :
    ∃ cls ∈ classes, cls.id = classId ∧ c.iface = cls.wifiIface := by
  cases e with
  | wpa i ev answers =>
    simp only [changes] at hc
    cases hm : d.fsms[i]? with
    | none => simp [hm] at hc
    | some m =>
      simp only [hm] at hc
      split at hc
      · next hid =>
        rcases (m.changes_cases ev).2 with ⟨hnone, -⟩ | ⟨c', hone, hiface, -, -⟩
        · simp [hnone] at hc
        · rw [hone, List.mem_singleton] at hc
          exact ⟨m.config, h.config_mem m (List.mem_of_getElem? hm), hid, hc ▸ hiface⟩
      · cases hc
  | connect | message | disconnect | exit => cases hc

theorem iface_mem_run (h : Recorded classes classId log d) (events : List Event) {c : Change}
    (hc : c ∈ observed (Daemon.step host classes) (changes classId) d events) :
    ∃ cls ∈ classes, cls.id = classId ∧ c.iface = cls.wifiIface := by
  induction events generalizing d log with
  | nil => cases hc
  | cons e events ih =>
    rcases List.mem_append.mp hc with hc | hc
    · exact h.iface_mem hc
    · exact ih (h.step host e) hc

/-- Changes name short interfaces where the classes do. -/
theorem iface_length_run (h : Recorded classes classId log d) {n : Nat}
    (hshort : ∀ cls ∈ classes, cls.wifiIface.length < n) (events : List Event) :
    ∀ c ∈ observed (Daemon.step host classes) (changes classId) d events, c.iface.length < n := by
  intro c hc
  obtain ⟨cls, hcls, -, heq⟩ := h.iface_mem_run events hc
  rw [heq]
  exact hshort cls hcls

end Recorded

theorem Change.last_iface_length {log : List Change} {n : Nat} (hn : 0 < n)
    (h : ∀ c ∈ log, c.iface.length < n) : (Change.last log).iface.length < n := by
  unfold Change.last
  cases hget : log.getLast? with
  | none => exact hn
  | some c => exact h c (List.mem_of_getLast? hget)

/-! ## While a registration lasts -/

/-- While an entry stays, its connection is sent the changes of its class as path events. -/
theorem pathEvents_of_kept (hvalid : d.server.Valid) {entry : ConsumerEntry}
    (hmem : entry ∈ d.server.registry) (e : Event)
    (hkept : entry ∈ (d.step host classes e).server.registry) :
    d.pathEvents entry.fd e = (d.changes entry.classId e).map fun c =>
      ConsumerApiServer.pathEvent entry.classId c.next c.iface c.rssi := by
  have hanswer (fd : Nat) (msg : ApiMsg) : (Effect.messagesTo entry.fd
      (d.server.step (.message fd msg)).2).filter (·.type = MsgType.pathEvent.code) = [] := by
    rw [List.filter_eq_nil_iff]
    intro reply hreply
    simp only [ConsumerApiServer.step] at hreply
    split at hreply
    · simpa using ConsumerApiServer.messagesTo_handle_type _ _ _ _ reply hreply
    · cases hreply
  cases e with
  | wpa i ev answers =>
    cases hm : d.fsms[i]? with
    | none => simp [pathEvents, effects, changes, hm]
    | some m =>
      rw [server_step_wpa hm] at hkept
      simp only [pathEvents, effects, changes, hm]
      rcases (m.changes_cases ev).2 with ⟨hnone, -⟩ | ⟨c, hone, -, -, -⟩
      · simp [hnone]
      · rw [hone, List.foldl_cons, List.foldl_nil] at hkept
        have hsent := hvalid.messagesTo_broadcastPathEvent hmem hkept
        rw [hone, List.flatMap_singleton, hsent]
        by_cases hclass : entry.classId = m.config.id
        · simp [hclass, ConsumerApiServer.pathEvent]
        · simp [hclass, Ne.symm hclass]
  | connect fd => rfl
  | message fd msg answers => exact hanswer fd msg
  | disconnect fd answers =>
    have hnone : Effect.messagesTo entry.fd (d.server.step (.disconnect fd)).2 = [] := by
      simp only [ConsumerApiServer.step]
      split
      · exact ConsumerApiServer.messagesTo_dropEntry _
      · rfl
    simp [pathEvents, effects, changes, hnone]
  | exit pid => rfl

theorem pathEvents_run {entry : ConsumerEntry} {log : List Change}
    (h : Recorded classes entry.classId log d) {events : List Event}
    (hkept : Throughout (step host classes) (fun d => entry ∈ d.server.registry) d events) :
    observed (step host classes) (pathEvents entry.fd) d events =
      (observed (step host classes) (changes entry.classId) d events).map fun c =>
        ConsumerApiServer.pathEvent entry.classId c.next c.iface c.rssi := by
  induction events generalizing d log with
  | nil => rfl
  | cons e events ih =>
    rw [observed_cons, observed_cons, List.map_append, ih (h.step host e) hkept.2,
      pathEvents_of_kept h.valid hkept.1 e hkept.2.head]

/-- A change of a class with a short name, through a short interface, is read as it was sent. -/
theorem notice_pathEvent {c : Change} (hid : classId.length < 32)
    (hzero : Bytes.cString classId = classId) (hiface : c.iface.length < 32) :
    (ConsumerApiServer.pathEvent classId c.next c.iface c.rssi).notice = c.notice classId := by
  simp only [ApiMsg.notice, ConsumerApiServer.pathEvent, Change.notice,
    CharArray.toString_strncpy hid, CharArray.toString_strncpy hiface, hzero]

theorem notice_registerAck {s : ConsumerApiServer} {cls : ClassState} {c : Change} (handle : UInt64)
    (hcls : s.findClass classId = some cls) (hid : classId.length < 32)
    (hzero : Bytes.cString classId = classId) (hiface : c.iface.length < 32)
    (hcached : cls.state = c.next ∧ cls.activeIface = c.iface ∧ cls.rssi = c.rssi) :
    (s.registerAck handle classId).notice = c.notice classId := by
  obtain ⟨hstate, hactive, hrssi⟩ := hcached
  simp only [ApiMsg.notice, ConsumerApiServer.registerAck, hcls, Change.notice, hstate, hactive,
    hrssi, CharArray.toString_strncpy hid, CharArray.toString_strncpy hiface, hzero]

theorem code_injective : Function.Injective PathState.code := by
  intro a b h
  cases a <;> cases b <;> first | rfl | exact absurd h (by decide)

/-! ## Whole runs -/

/-- The run before a registration for a class has put its last change into the `RegisterAck`;
while the registration lasts, the connection is sent the changes of the class, all of them, in
order, once each, and no others; and no two states that it reads in a row are the same. -/
theorem consumer_sees_history (host : Host) (classes : List PathClassConfig) (k : Kernel)
    (past during : List Event) (fd : Nat) (msg : ApiMsg) (answers : Answers)
    (hacc : Accepted classes)
    (hnames : ∀ cls ∈ classes, cls.id.length < 32 ∧ cls.wifiIface.length < 32) :
    let before := run (step host classes) (start classes k) past
    let after := before.step host classes (.message fd msg answers)
    let entry : ConsumerEntry := ⟨fd, msg.pid, before.server.nextHandle, msg.classId.toString⟩
    fd ∈ before.server.clients → msg.type = MsgType.register.code →
    (before.server.findClass entry.classId).isSome →
    Throughout (step host classes) (fun d => entry ∈ d.server.registry) after during →
    let history := observed (step host classes) (changes entry.classId)
    let seen := observed (step host classes) (pathEvents fd) after during
    ∃ ack : ApiMsg,
      Effect.messagesTo fd (before.effects (.message fd msg answers)) = [ack] ∧
      ack.type = MsgType.registerAck.code ∧ ack.error = 0 ∧ ack.handle = entry.handle ∧
      ack.notice = (Change.last (history (start classes k) past)).notice entry.classId ∧
      seen.map ApiMsg.notice = (history after during).map (Change.notice entry.classId) ∧
      List.IsChain (· ≠ ·) (ack.state :: seen.map (·.state)) := by
  intro before after entry hopen hreg hknown hkept history seen
  have hstart := start_recorded (k := k) hacc.wellFormed.ids_nodup entry.classId
  have hpast := hstart.run host past
  rw [List.nil_append] at hpast
  have hafter : Recorded classes entry.classId (history (start classes k) past) after := by
    simpa [changes] using hpast.step host (.message fd msg answers)
  obtain ⟨cls, hcls⟩ := Option.isSome_iff_exists.mp hknown
  -- the names fit into their fields
  have hzero : Bytes.cString entry.classId = entry.classId := Bytes.cString_cString _
  have hid : entry.classId.length < 32 := by
    have hmem := ConsumerApiServer.findClass_isSome.mp hknown
    rw [hpast.classIds] at hmem
    obtain ⟨c, hc, heq⟩ := List.mem_map.mp hmem
    rw [← heq]
    exact (hnames c hc).1
  have hshort : ∀ cls ∈ classes, cls.wifiIface.length < 32 := fun cls hcls => (hnames cls hcls).2
  have hlast : (Change.last (history (start classes k) past)).iface.length < 32 :=
    Change.last_iface_length (by decide) (hstart.iface_length_run hshort past)
  have hseen : seen = (history after during).map fun c =>
      ConsumerApiServer.pathEvent entry.classId c.next c.iface c.rssi := pathEvents_run hafter hkept
  have hack : before.effects (.message fd msg answers) = [.assign cls msg.pid, .send fd
      ((before.server.pushEntry fd msg.pid entry.classId).registerAck entry.handle
        entry.classId)] := by
    simp only [effects, ConsumerApiServer.step, if_pos hopen]
    rw [ConsumerApiServer.handle, if_pos hreg, ConsumerApiServer.handleRegister_of_known hcls]
  have hnotice := notice_registerAck (s := before.server.pushEntry fd msg.pid entry.classId)
    entry.handle hcls hid hzero hlast (hpast.cached cls hcls)
  refine ⟨_, by rw [hack]; simp, by simp, ConsumerApiServer.registerAck_error _, by simp, hnotice,
    ?_, ?_⟩
  · rw [hseen, List.map_map]
    refine List.map_congr_left fun c hc => ?_
    exact notice_pathEvent hid hzero (hafter.iface_length_run hshort during c hc)
  · have hchain := hafter.isChain host during
    have hstate := congrArg Notice.state hnotice
    simp only [ApiMsg.notice, Change.notice] at hstate
    rw [hstate, hseen, List.map_map]
    have hcodes : ((history after during).map ((·.state) ∘ fun c =>
        ConsumerApiServer.pathEvent entry.classId c.next c.iface c.rssi)) =
        ((history after during).map (·.next)).map PathState.code := by
      rw [List.map_map]
      rfl
    rw [hcodes, ← List.map_cons, List.isChain_map]
    exact hchain.imp fun a b hne heq => hne (code_injective heq)

/-- The path of `multipath` is up when a consumer registers and goes down later; that of
`lte_b2c` comes up in between. -/
theorem consumer_sees_history_multipath :
    let past : List Event :=
      [.connect 7, .wpa 0 { type := .connected, iface := [], rssi := -60 } {}]
    let during : List Event := [.wpa 1 { type := .connected, iface := [] } {},
      .wpa 0 { type := .disconnected, iface := [] } {}]
    let register : Event := .message 7 (registerMsg 100 "multipath") {}
    let before := run (step vlanHost pathPolicies) (start pathPolicies bootedKernel) past
    let after := before.step vlanHost pathPolicies register
    ∃ ack : ApiMsg, Effect.messagesTo 7 (before.effects register) = [ack] ∧
      ack.notice = ⟨Bytes.ascii "multipath", PathState.pathUp.code, Bytes.ascii "eth0.100", -60⟩ ∧
      (observed (step vlanHost pathPolicies) (pathEvents 7) after during).map ApiMsg.notice =
        [⟨Bytes.ascii "multipath", PathState.pathDown.code, Bytes.ascii "eth0.100", 0⟩] := by
  intro past during register before after
  obtain ⟨ack, hsent, -, -, -, hnotice, hseen, -⟩ := consumer_sees_history vlanHost pathPolicies
    bootedKernel past during 7 (registerMsg 100 "multipath") {} pathPolicies_accepted (by decide)
    (by decide) (by decide) (by decide) (by decide)
  exact ⟨ack, hsent, hnotice.trans (by decide), hseen.trans (by decide)⟩

end Daemon
end WifiOffload
