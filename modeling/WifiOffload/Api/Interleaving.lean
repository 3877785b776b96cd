import WifiOffload.Api.Registry
import WifiOffload.Config.Accepted
import WifiOffload.Library.StateMachine

/-!
# Registrations and broadcasts on two threads

The API thread registers consumers for a class and an FSM thread broadcasts its path events.
Only the push of the entry and the sending loop of the broadcast hold the lock; the state that a
`RegisterAck` carries is read, and the `RegisterAck` sent, outside it. All sends succeed.
-/

namespace WifiOffload

namespace ConsumerApiServer

variable {s : ConsumerApiServer} {classId : Bytes}

def queryCurrentState (s : ConsumerApiServer) (classId : Bytes) : PathState :=
  match s.findClass classId with
  | none => .idle
  | some cls => cls.state

/-- A broadcast caches the state it is about. -/
theorem queryCurrentState_cachePathEvent (hid : classId ∈ s.classIds) (newState : PathState)
    (iface : Bytes) (rssiDbm : Int32) :
    (s.cachePathEvent classId newState iface rssiDbm).queryCurrentState classId = newState := by
  obtain ⟨cls, hcls⟩ := Option.isSome_iff_exists.mp (findClass_isSome.mpr hid)
  rw [queryCurrentState, findClass_cachePathEvent, hcls]
  rfl

/-- A `RegisterAck` carries the cached state. -/
@[simp] theorem registerAck_state (handle : UInt64) :
    (s.registerAck handle classId).state = (s.queryCurrentState classId).code := by
  simp only [registerAck, queryCurrentState]
  cases s.findClass classId <;> rfl

end ConsumerApiServer

/-- How far the API thread is with a registration. -/
inductive Registering where
  | idle
  | pushed (fd : Nat) (handle : UInt64)
  | sampled (fd : Nat) (ack : ApiMsg)

/-- How far the FSM thread is with a broadcast. -/
inductive Broadcasting where
  | idle
  | updated (newState : PathState) (iface : Bytes) (rssiDbm : Int32)

/-- The server, what each connection has received since its last `Register`, and the threads. -/
structure Threads where
  server : ConsumerApiServer
  inbox : Nat → List ApiMsg := fun _ => []
  registering : Registering := .idle
  broadcasting : Broadcasting := .idle

namespace Threads

inductive Step where
  | push (fd : Nat) (pid : Int32)
  | sample
  | reply
  | update (newState : PathState) (iface : Bytes) (rssiDbm : Int32)
  | deliver

def fresh (classes : List PathClassConfig) : Threads := { server := .ofClasses classes }

def sendTo (inbox : Nat → List ApiMsg) (fd : Nat) (msg : ApiMsg) : Nat → List ApiMsg :=
  Function.update inbox fd (inbox fd ++ [msg])

/-- The loop of the broadcast over the entries of the class. -/
def sendToAll (inbox : Nat → List ApiMsg) (es : List ConsumerEntry) (msg : ApiMsg) :
    Nat → List ApiMsg := es.foldl (fun inbox e => sendTo inbox e.fd msg) inbox

/-- A step for the class; a thread that is not at that step does nothing, and neither does a
registration for a class that is not configured. -/
def step (classId : Bytes) (t : Threads) : Step → Threads
  | .push fd pid =>
    match t.registering with
    | .idle =>
      if classId ∈ t.server.classIds then
        { t with
          server := t.server.pushEntry fd pid classId
          inbox := Function.update t.inbox fd []
          registering := .pushed fd t.server.nextHandle }
      else t
    | .pushed _ _ | .sampled _ _ => t
  | .sample =>
    match t.registering with
    | .pushed fd handle =>
      { t with registering := .sampled fd (t.server.registerAck handle classId) }
    | .idle | .sampled _ _ => t
  | .reply =>
    match t.registering with
    | .sampled fd ack => { t with inbox := sendTo t.inbox fd ack, registering := .idle }
    | .idle | .pushed _ _ => t
  | .update newState iface rssiDbm =>
    match t.broadcasting with
    | .idle => { t with
        server := t.server.cachePathEvent classId newState iface rssiDbm
        broadcasting := .updated newState iface rssiDbm }
    | .updated _ _ _ => t
  | .deliver =>
    match t.broadcasting with
    | .updated newState iface rssiDbm => { t with
        inbox := sendToAll t.inbox (t.server.receivers classId)
          (ConsumerApiServer.pathEvent classId newState iface rssiDbm)
        broadcasting := .idle }
    | .idle => t

/-! ### Steps in a row -/

variable {classId : Bytes} {t : Threads}

/-- A registration that nothing comes between is `handleRegister`. -/
theorem register_uninterrupted (hidle : t.registering = .idle) {msg : ApiMsg} {cls : ClassState}
    (hcls : t.server.findClass msg.classId.toString = some cls) (fd : Nat) :
    ∃ ack,
      t.server.handleRegister fd msg = (t.server.pushEntry fd msg.pid msg.classId.toString,
        [.assign cls msg.pid, .send fd ack]) ∧
      StateMachine.run (step msg.classId.toString) t [.push fd msg.pid, .sample, .reply] =
        { t with
          server := (t.server.handleRegister fd msg).1
          inbox := Function.update t.inbox fd [ack] } := by
  have hid := ConsumerApiServer.findClass_isSome.mp (by rw [hcls]; rfl)
  refine ⟨_, ConsumerApiServer.handleRegister_of_known hcls, ?_⟩
  rw [ConsumerApiServer.handleRegister_of_known hcls]
  simp [step, hidle, hid, sendTo]

/-- A broadcast that nothing comes between is `broadcastPathEvent` with all sends going through. -/
theorem broadcast_uninterrupted (hidle : t.broadcasting = .idle) (newState : PathState)
    (iface : Bytes) (rssiDbm : Int32) :
    let msg := ConsumerApiServer.pathEvent classId newState iface rssiDbm
    let handled := t.server.broadcastPathEvent classId newState iface rssiDbm fun _ => true
    handled.2 = (t.server.receivers classId).map (fun e => .send e.fd msg) ∧
      StateMachine.run (step classId) t [.update newState iface rssiDbm, .deliver] =
        { t with
          server := handled.1
          inbox := sendToAll t.inbox (t.server.receivers classId) msg } := by
  have hsame : (t.server.cachePathEvent classId newState iface rssiDbm).receivers classId =
      t.server.receivers classId := rfl
  constructor
  · simp [ConsumerApiServer.broadcastPathEvent, ConsumerApiServer.dropAllBroken, hsame]
  · simp [step, hidle, ConsumerApiServer.broadcastPathEvent, ConsumerApiServer.dropAllBroken, hsame]

/-! ## The view of a consumer -/

/-- The connection and the handle of the registration that is under way. -/
def awaiting (t : Threads) : Option (Nat × UInt64) :=
  match t.registering with
  | .idle => none
  | .pushed fd handle => some (fd, handle)
  | .sampled fd ack => some (fd, ack.handle)

/-- Every consumer of the class receives its `RegisterAck` first, and when both threads are done
the last message it has received carries the cached state. -/
structure FreshView (classId : Bytes) (t : Threads) : Prop where
  ack_first : ∀ e ∈ t.server.receivers classId, ∀ msg, (t.inbox e.fd).head? = some msg →
    msg.type = MsgType.registerAck.code ∧ msg.handle = e.handle
  last_state : t.registering = .idle → t.broadcasting = .idle →
    ∀ e ∈ t.server.receivers classId, (t.inbox e.fd).getLast?.map (·.state) =
      some (t.server.queryCurrentState classId).code

/-- No broadcast sends between the push of a registration and its `RegisterAck`. -/
def NoSendBetween (t : Threads) : Step → Prop
  | .deliver => t.broadcasting ≠ .idle → t.registering = .idle
  | .push _ _ | .sample | .reply | .update _ _ _ => True

/-- What every step keeps: the registration under way has its entry and has been sent path
events only, and a broadcast under way has updated the cache. -/
structure Coherent (classId : Bytes) (t : Threads) : Prop where
  valid : t.server.Valid
  entry : ∀ fd handle, t.awaiting = some (fd, handle) →
    ∃ e ∈ t.server.receivers classId, e.fd = fd ∧ e.handle = handle
  events : ∀ fd handle, t.awaiting = some (fd, handle) →
    ∀ msg ∈ t.inbox fd, msg.type = MsgType.pathEvent.code
  cached : ∀ newState iface rssiDbm, t.broadcasting = .updated newState iface rssiDbm →
    classId ∈ t.server.classIds → t.server.queryCurrentState classId = newState

/-- The invariant of the runs in which no broadcast sends during a registration. -/
structure InStep (classId : Bytes) (t : Threads) : Prop where
  settled : ∀ e ∈ t.server.receivers classId, (∀ handle, t.awaiting ≠ some (e.fd, handle)) →
    ∃ ack rest, t.inbox e.fd = ack :: rest ∧ ack.type = MsgType.registerAck.code ∧
      ack.handle = e.handle ∧ (t.broadcasting = .idle →
        (t.inbox e.fd).getLast?.map (·.state) = some (t.server.queryCurrentState classId).code)
  waiting : ∀ fd handle, t.awaiting = some (fd, handle) → t.inbox fd = []
  sampled : ∀ fd ack, t.registering = .sampled fd ack →
    ack.type = MsgType.registerAck.code ∧
      (t.broadcasting = .idle → ack.state = (t.server.queryCurrentState classId).code)

theorem InStep.freshView (h : InStep classId t) : FreshView classId t where
  ack_first e he msg hmsg := by
    by_cases hawait : ∃ handle, t.awaiting = some (e.fd, handle)
    · obtain ⟨handle, hawait⟩ := hawait
      rw [h.waiting e.fd handle hawait] at hmsg
      cases hmsg
    · obtain ⟨ack, rest, hinbox, htype, hhandle, -⟩ :=
        h.settled e he fun handle hh => hawait ⟨handle, hh⟩
      rw [hinbox, List.head?_cons, Option.some.injEq] at hmsg
      rw [← hmsg]
      exact ⟨htype, hhandle⟩
  last_state hreg hbroad e he := by
    have hnone : t.awaiting = none := by rw [awaiting, hreg]
    obtain ⟨ack, rest, -, -, -, hlast⟩ := h.settled e he fun handle hh => by
      rw [hnone] at hh
      cases hh
    exact hlast hbroad

/-! ### Sending to all entries of the class -/

/-- Connections have one entry, so the loop sends each of them one message. -/
theorem sendToAll_apply {es : List ConsumerEntry} (hfds : (es.map (·.fd)).Nodup)
    (inbox : Nat → List ApiMsg) (msg : ApiMsg) (fd : Nat) :
    sendToAll inbox es msg fd = if fd ∈ es.map (·.fd) then inbox fd ++ [msg] else inbox fd := by
  induction es generalizing inbox with
  | nil => rfl
  | cons e es ih =>
    obtain ⟨he, hes⟩ := List.nodup_cons.mp hfds
    have hstep : sendToAll inbox (e :: es) msg fd =
        sendToAll (sendTo inbox e.fd msg) es msg fd := rfl
    rw [hstep, ih hes]
    by_cases hfd : fd = e.fd
    · subst hfd
      rw [if_neg he, if_pos (by simp)]
      exact Function.update_self _ _ _
    · have hsame : sendTo inbox e.fd msg fd = inbox fd := Function.update_of_ne hfd _ _
      simp [hsame, hfd]

theorem nodup_receivers (h : t.server.Valid) (classId : Bytes) :
    ((t.server.receivers classId).map (·.fd)).Nodup :=
  h.fds_nodup.sublist (List.filter_sublist.map _)

theorem mem_receivers_pushEntry {s : ConsumerApiServer} {fd : Nat} {pid : Int32}
    {e : ConsumerEntry} : e ∈ (s.pushEntry fd pid classId).receivers classId ↔
      (e ∈ s.receivers classId ∧ e.fd ≠ fd) ∨ e = ⟨fd, pid, s.nextHandle, classId⟩ := by
  simp only [ConsumerApiServer.receivers, ConsumerApiServer.pushEntry, List.mem_filter,
    List.mem_append, List.mem_singleton, decide_eq_true_eq]
  grind

/-! ### One step -/

theorem Coherent.step (h : Coherent classId t) (e : Step) :
    Coherent classId (t.step classId e) := by
  obtain ⟨valid, entry, events, cached⟩ := h
  cases e with
  | push fd pid =>
    cases hreg : t.registering with
    | pushed | sampled => simpa only [Threads.step, hreg] using ⟨valid, entry, events, cached⟩
    | idle =>
      simp only [Threads.step, hreg]
      split
      · next hid =>
        refine ⟨valid.pushEntry hid, fun fd' handle hawait => ?_, fun fd' handle hawait => ?_,
          cached⟩
        · simp only [awaiting, Option.some.injEq, Prod.mk.injEq] at hawait
          obtain ⟨rfl, rfl⟩ := hawait
          exact ⟨_, mem_receivers_pushEntry.mpr (.inr rfl), rfl, rfl⟩
        · simp only [awaiting, Option.some.injEq, Prod.mk.injEq] at hawait
          obtain ⟨rfl, rfl⟩ := hawait
          simp
      · exact ⟨valid, entry, events, cached⟩
  | sample =>
    cases hreg : t.registering with
    | idle | sampled => simpa only [Threads.step, hreg] using ⟨valid, entry, events, cached⟩
    | pushed fd handle =>
      have hawait : t.awaiting = some (fd, handle) := by rw [awaiting, hreg]
      simp only [Threads.step, hreg]
      refine ⟨valid, fun fd' handle' hawait' => ?_, fun fd' handle' hawait' => ?_, cached⟩
      all_goals
        simp only [awaiting, ConsumerApiServer.registerAck_handle] at hawait'
        rw [← hawait] at hawait'
      · exact entry fd' handle' hawait'
      · exact events fd' handle' hawait'
  | reply =>
    cases hreg : t.registering with
    | idle | pushed => simpa only [Threads.step, hreg] using ⟨valid, entry, events, cached⟩
    | sampled fd ack =>
      simp only [Threads.step, hreg]
      exact ⟨valid, fun _ _ h => by simp [awaiting] at h, fun _ _ h => by simp [awaiting] at h,
        cached⟩
  | update newState iface rssiDbm =>
    cases hbroad : t.broadcasting with
    | updated => simpa only [Threads.step, hbroad] using ⟨valid, entry, events, cached⟩
    | idle =>
      simp only [Threads.step, hbroad]
      refine ⟨valid.of_sublist ConsumerApiServer.classIds_cachePathEvent (List.Sublist.refl _),
        entry, events, fun newState' iface' rssiDbm' heq hid => ?_⟩
      simp only [Broadcasting.updated.injEq] at heq
      rw [ConsumerApiServer.classIds_cachePathEvent] at hid
      rw [← heq.1]
      exact ConsumerApiServer.queryCurrentState_cachePathEvent hid _ _ _
  | deliver =>
    cases hbroad : t.broadcasting with
    | idle => simpa only [Threads.step, hbroad] using ⟨valid, entry, events, cached⟩
    | updated newState iface rssiDbm =>
      simp only [Threads.step, hbroad]
      refine ⟨valid, entry, fun fd handle hawait msg hmsg => ?_, fun _ _ _ heq => by cases heq⟩
      simp only [sendToAll_apply (nodup_receivers valid classId)] at hmsg
      split at hmsg
      · rcases List.mem_append.mp hmsg with hmsg | hmsg
        · exact events fd handle hawait msg hmsg
        · rw [List.mem_singleton.mp hmsg]
          rfl
      · exact events fd handle hawait msg hmsg

/-- A broadcast that sends during a registration reaches the connection before its `RegisterAck`. -/
theorem noSendBetween_of_freshView (h : Coherent classId t) (e : Step)
    (hnext : FreshView classId (t.step classId e)) : t.NoSendBetween e := by
  cases e with
  | push | sample | reply | update => trivial
  | deliver =>
    intro hbroad
    by_contra hreg
    obtain ⟨⟨fd, handle⟩, hawait⟩ : ∃ p, t.awaiting = some p := by
      unfold awaiting
      cases hr : t.registering with
      | idle => exact absurd hr hreg
      | pushed | sampled => exact ⟨_, rfl⟩
    obtain ⟨entry, hentry, rfl, -⟩ := h.entry fd handle hawait
    cases hb : t.broadcasting with
    | idle => exact hbroad hb
    | updated newState iface rssiDbm =>
      have hfirst := hnext.ack_first entry
      simp only [step, hb, sendToAll_apply (nodup_receivers h.valid classId)] at hfirst
      rw [if_pos (List.mem_map_of_mem hentry)] at hfirst
      -- everything the connection has got so far is a path event, and so is the new message
      have hevents : ∀ msg ∈ t.inbox entry.fd ++
          [ConsumerApiServer.pathEvent classId newState iface rssiDbm],
          msg.type = MsgType.pathEvent.code := by
        intro msg hmsg
        rcases List.mem_append.mp hmsg with hmsg | hmsg
        · exact h.events _ _ hawait msg hmsg
        · rw [List.mem_singleton.mp hmsg]
          rfl
      obtain ⟨msg, hmsg⟩ : ∃ msg, (t.inbox entry.fd ++
          [ConsumerApiServer.pathEvent classId newState iface rssiDbm]).head? = some msg := by
        cases t.inbox entry.fd <;> exact ⟨_, rfl⟩
      have htype := (hfirst hentry msg hmsg).1
      rw [hevents msg (List.mem_of_head? hmsg)] at htype
      exact absurd htype (by decide)

/-- The answer to a registration is the first message its connection gets. -/
theorem InStep.reply (h : InStep classId t) (hI : Coherent classId t) :
    InStep classId (t.step classId .reply) := by
  cases hreg : t.registering with
  | idle | pushed => simpa only [Threads.step, hreg] using h
  | sampled fd ack =>
    have hawait : t.awaiting = some (fd, ack.handle) := by rw [awaiting, hreg]
    obtain ⟨htype, hstate⟩ := h.sampled fd ack hreg
    simp only [Threads.step, hreg]
    refine ⟨fun e he _ => ?_, fun _ _ heq => by simp [awaiting] at heq,
      fun _ _ heq => by cases heq⟩
    by_cases hfd : e.fd = fd
    · -- the answer is the only message since the `Register`
      obtain ⟨entry, hentry, hentryfd, hhandle⟩ := hI.entry fd ack.handle hawait
      have hsame : entry = e := List.inj_on_of_nodup_map (nodup_receivers hI.valid classId)
        hentry he (hentryfd.trans hfd.symm)
      have hinbox : sendTo t.inbox fd ack e.fd = [ack] := by
        rw [hfd, sendTo, Function.update_self, h.waiting fd ack.handle hawait, List.nil_append]
      refine ⟨ack, [], hinbox, htype, hsame ▸ hhandle.symm, fun hbroad => ?_⟩
      simp only [hinbox]
      exact congrArg some (hstate hbroad)
    · have hsettled := h.settled e he fun handle hh => by
        rw [hawait, Option.some.injEq, Prod.mk.injEq] at hh
        exact hfd hh.1.symm
      have hsame : sendTo t.inbox fd ack e.fd = t.inbox e.fd := Function.update_of_ne hfd _ _
      simpa only [hsame] using hsettled

/-- A path event that is sent while no registration is under way is the state of its class. -/
theorem InStep.deliver (h : InStep classId t) (hI : Coherent classId t)
    (hC : t.NoSendBetween .deliver) : InStep classId (t.step classId .deliver) := by
  cases hbroad : t.broadcasting with
  | idle => simpa only [Threads.step, hbroad] using h
  | updated newState iface rssiDbm =>
    have hidle : t.registering = .idle := hC (by rw [hbroad]; simp)
    have hnone : t.awaiting = none := by rw [awaiting, hidle]
    simp only [Threads.step, hbroad]
    refine ⟨fun e he _ => ?_, fun fd handle hawait => ?_, fun fd ack heq => ?_⟩
    · obtain ⟨ack, rest, hinbox, htype, hhandle, -⟩ :=
        h.settled e he fun handle hh => by rw [hnone] at hh; cases hh
      have hsent : sendToAll t.inbox (t.server.receivers classId)
          (ConsumerApiServer.pathEvent classId newState iface rssiDbm) e.fd =
          t.inbox e.fd ++ [ConsumerApiServer.pathEvent classId newState iface rssiDbm] := by
        rw [sendToAll_apply (nodup_receivers hI.valid classId), if_pos (List.mem_map_of_mem he)]
      have hid : classId ∈ t.server.classIds := by
        obtain ⟨hmem, hclass⟩ := List.mem_filter.mp he
        have hconf := hI.valid.configured e hmem
        rwa [of_decide_eq_true hclass] at hconf
      have hcached := hI.cached newState iface rssiDbm hbroad hid
      simp only [hsent]
      refine ⟨ack, rest ++ [_], by rw [hinbox, List.cons_append], htype, hhandle, fun _ => ?_⟩
      rw [List.getLast?_concat, hcached]
      rfl
    · exact absurd (hnone.symm.trans hawait) (by simp)
    · exact absurd (hidle.symm.trans heq) (by simp)

theorem InStep.step (h : InStep classId t) (hI : Coherent classId t) (e : Step)
    (hC : t.NoSendBetween e) : InStep classId (t.step classId e) := by
  cases e with
  | push fd pid =>
    cases hreg : t.registering with
    | pushed | sampled => simpa only [Threads.step, hreg] using h
    | idle =>
      have hnone : t.awaiting = none := by rw [awaiting, hreg]
      simp only [Threads.step, hreg]
      split
      · refine ⟨fun e he hawait => ?_, fun fd' handle hawait => ?_, fun _ _ heq => by cases heq⟩
        · -- only the entry that was just pushed waits for its answer
          rcases mem_receivers_pushEntry.mp he with ⟨he', hfd⟩ | rfl
          · have hsettled := h.settled e he' fun handle hh => by rw [hnone] at hh; cases hh
            have hinbox : Function.update t.inbox fd [] e.fd = t.inbox e.fd :=
              Function.update_of_ne hfd _ _
            simp only [hinbox]
            exact hsettled
          · exact absurd rfl (hawait _)
        · simp only [awaiting, Option.some.injEq, Prod.mk.injEq] at hawait
          obtain ⟨rfl, rfl⟩ := hawait
          exact Function.update_self _ _ _
      · exact h
  | sample =>
    cases hreg : t.registering with
    | idle | sampled => simpa only [Threads.step, hreg] using h
    | pushed fd handle =>
      have hsame : ({ t with registering := .sampled fd (t.server.registerAck handle classId) } :
          Threads).awaiting = t.awaiting := by
        simp only [awaiting, hreg, ConsumerApiServer.registerAck_handle]
      simp only [Threads.step, hreg]
      refine ⟨fun e he hawait => h.settled e he (hsame ▸ hawait),
        fun fd' handle' hawait => h.waiting fd' handle' (hsame ▸ hawait), fun fd' ack heq => ?_⟩
      simp only [Registering.sampled.injEq] at heq
      rw [← heq.2]
      exact ⟨ConsumerApiServer.registerAck_type handle,
        fun _ => ConsumerApiServer.registerAck_state handle⟩
  | reply => exact h.reply hI
  | update newState iface rssiDbm =>
    cases hbroad : t.broadcasting with
    | updated => simpa only [Threads.step, hbroad] using h
    | idle =>
      simp only [Threads.step, hbroad]
      refine ⟨fun e he hawait => ?_, h.waiting, fun fd ack heq => ?_⟩
      · obtain ⟨ack, rest, hinbox, htype, hhandle, -⟩ := h.settled e he hawait
        exact ⟨ack, rest, hinbox, htype, hhandle, fun hidle => by cases hidle⟩
      · exact ⟨(h.sampled fd ack heq).1, fun hidle => by cases hidle⟩
  | deliver => exact h.deliver hI hC

/-! ### Whole runs -/

theorem fresh_coherent (classes : List PathClassConfig) (classId : Bytes) :
    Coherent classId (fresh classes) where
  valid := ⟨List.nodup_nil, fun e he => by cases he⟩
  entry _ _ h := by cases h
  events _ _ h := by cases h
  cached _ _ _ h := by cases h

theorem fresh_inStep (classes : List PathClassConfig) (classId : Bytes) :
    InStep classId (fresh classes) where
  settled e he := by cases he
  waiting _ _ h := by cases h
  sampled _ _ h := by cases h

/-- The consumers keep a fresh view in an interleaving exactly when no broadcast sends between
the push of a registration and its `RegisterAck`. -/
theorem freshView_throughout_iff (classes : List PathClassConfig) (classId : Bytes)
    (steps : List Step) :
    StateMachine.Throughout (step classId) (FreshView classId) (fresh classes) steps ↔
      StateMachine.StepsMeet (step classId) NoSendBetween (fresh classes) steps :=
  StateMachine.throughout_iff_stepsMeet_of_invariant (I := Coherent classId)
    (J := InStep classId) (fun _ e h => h.step e) (fun _ h => h.freshView)
    (fun _ e hI _ hnext => noSendBetween_of_freshView hI e hnext)
    (fun _ e hI hJ hC => hJ.step hI e hC) (fresh_coherent classes classId)
    (fresh_inStep classes classId) steps

/-- A broadcast between the sampling of the state and the `RegisterAck`: the consumer receives a
`PathEvent` first, and is left with the state from before. -/
theorem late_ack_is_stale :
    ¬ ∀ (classes : List PathClassConfig) (classId : Bytes) (steps : List Step), Accepted classes →
        StateMachine.Throughout (step classId) (FreshView classId) (fresh classes) steps := by
  intro h
  have hrun := h pathPolicies (Bytes.ascii "multipath")
    [.push 7 100, .sample, .update .pathUp (Bytes.ascii "eth0.100") (-60), .deliver, .reply]
    pathPolicies_accepted
  have hlast := hrun.last.last_state rfl rfl ⟨7, 100, 1, Bytes.ascii "multipath"⟩ (by decide)
  exact absurd hlast (by decide)

end Threads
end WifiOffload
