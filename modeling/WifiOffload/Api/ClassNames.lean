import WifiOffload.Api.Confinement
import WifiOffload.Api.Representation

/-!
# Class names on the wire

A class name crosses the wire four times in a field of 32 bytes: the client writes it, the server
reads it, and acknowledgements and path events write it again. All writers keep 31 bytes before a
zero byte, so the field carries exactly the names of at most 31 bytes without a zero byte, and the
configuration bounds neither.
-/

namespace WifiOffload

open StateMachine

/-- The `Register` of the repository's clients. -/
def clientRegister (pid : Int32) (id : Bytes) : ApiMsg :=
  { type := MsgType.register.code, pid, classId := CharArray.strncpy 32 id }

namespace ConsumerApiServer

/-- The server after a run. -/
def afterEvents (s : ConsumerApiServer) (events : List Event) : ConsumerApiServer :=
  run (fun s e => (s.step e).1) s events

/-- A `Register` of the connection. -/
def IsRegisterOf (fd : Nat) : Event → Prop
  | .message fd' msg => fd' = fd ∧ msg.type = MsgType.register.code
  | _ => False

/-- A client that asks for the class gets it: the one entry of its connection is for this class,
and the answer and every path event until its next `Register` name the class. -/
structure NameSurvives (s : ConsumerApiServer) (fd : Nat) (pid : Int32) (id : Bytes) : Prop where
  registered : (s.handle fd (clientRegister pid id)).1.registry.filter (·.fd = fd) =
    [⟨fd, pid, s.nextHandle, id⟩]
  acknowledged : ∃ ack, Effect.messagesTo fd (s.handle fd (clientRegister pid id)).2 = [ack] ∧
    ack.error = 0 ∧ ack.classId.toString = id
  notified : ∀ later, (∀ e ∈ later, ¬ IsRegisterOf fd e) →
    ∀ msg ∈ received fd (s.handle fd (clientRegister pid id)).1 later,
      msg.type = MsgType.pathEvent.code → msg.classId.toString = id

variable {s : ConsumerApiServer} {fd : Nat} {pid : Int32} {id : Bytes}

/-- The entries of the connection are for the class. -/
def EntriesNamed (fd : Nat) (id : Bytes) (s : ConsumerApiServer) : Prop :=
  ∀ e ∈ s.registry, e.fd = fd → e.classId = id

/-! ### What a step can do -/

theorem classIds_step (hs : s.Valid) (e : Event) : (s.step e).1.classIds = s.classIds := by
  rcases step_cases hs e with ⟨fd, msg, -, -, -, -, hpush, -⟩ | ⟨htrimmed, -⟩
  · rw [hpush]
    rfl
  · exact htrimmed.classIds

theorem EntriesNamed.step (hs : s.Valid) (h : EntriesNamed fd id s) {e : Event}
    (hother : ¬ IsRegisterOf fd e) : EntriesNamed fd id (s.step e).1 := by
  rcases step_cases hs e with ⟨fd', msg, rfl, hreg, -, -, hpush, -⟩ | ⟨htrimmed, -⟩
  · rw [hpush]
    intro entry hentry hfd
    rcases List.mem_append.mp hentry with hold | hnew
    · exact h entry (List.mem_of_mem_filter hold) hfd
    · -- the new entry is of another connection
      rw [List.mem_singleton.mp hnew] at hfd
      exact absurd ⟨hfd, hreg⟩ hother
  · intro entry hentry
    exact h entry (htrimmed.registry.subset hentry)

/-- A path event goes to connections with an entry for its class. -/
theorem pathEvent_of_mem_step {e : Event} {msg : ApiMsg}
    (hmsg : msg ∈ Effect.messagesTo fd (s.step e).2)
    (htype : msg.type = MsgType.pathEvent.code) :
    ∃ entry ∈ s.registry, entry.fd = fd ∧ msg.classId = CharArray.strncpy 32 entry.classId := by
  cases e with
  | connect fd' => cases hmsg
  | message fd' request =>
    simp only [ConsumerApiServer.step] at hmsg
    split at hmsg
    · exact absurd htype (s.messagesTo_handle_type fd' fd request msg hmsg)
    · cases hmsg
  | disconnect fd' =>
    simp only [ConsumerApiServer.step] at hmsg
    split at hmsg
    · simp [removeClient, closeClient, messagesTo_dropEntry] at hmsg
    · cases hmsg
  | broadcast classId newState iface rssiDbm sent =>
    simp only [ConsumerApiServer.step, broadcastPathEvent, Effect.messagesTo_append,
      messagesTo_dropAllBroken, List.append_nil, messagesTo_sends, List.mem_map,
      List.mem_filter] at hmsg
    obtain ⟨entry, ⟨⟨hreceiver, -⟩, hfd⟩, rfl⟩ := hmsg
    obtain ⟨hentry, hclass⟩ := List.mem_filter.mp hreceiver
    refine ⟨entry, hentry, of_decide_eq_true hfd, ?_⟩
    rw [of_decide_eq_true hclass]
    rfl

/-! ### Runs -/

/-- A server of these classes. -/
structure Serves (classes : List PathClassConfig) (s : ConsumerApiServer) : Prop where
  valid : s.Valid
  classIds : s.classIds = classes.map (·.id)

theorem serves_afterEvents (classes : List PathClassConfig) (events : List Event) :
    Serves classes ((ofClasses classes).afterEvents events) := by
  have hstart : Serves classes (ofClasses classes) :=
    ⟨⟨List.nodup_nil, fun e he => nomatch he⟩, by simp [classIds, ofClasses]⟩
  have hstep : ∀ (t : ConsumerApiServer) (e : Event), Serves classes t →
      Serves classes (t.step e).1 :=
    fun t e ht => ⟨ht.valid.step e, (classIds_step ht.valid e).trans ht.classIds⟩
  exact (throughout_of_invariant hstep hstart events).last

theorem EntriesNamed.received (hs : s.Valid) (h : EntriesNamed fd id s) {later : List Event}
    (hlater : ∀ e ∈ later, ¬ IsRegisterOf fd e) {msg : ApiMsg} (hmsg : msg ∈ received fd s later)
    (htype : msg.type = MsgType.pathEvent.code) : msg.classId = CharArray.strncpy 32 id := by
  induction later generalizing s with
  | nil => cases hmsg
  | cons e later ih =>
    rcases List.mem_append.mp hmsg with hnow | hthen
    · obtain ⟨entry, hentry, hfd, hclass⟩ := pathEvent_of_mem_step hnow htype
      rw [hclass, h entry hentry hfd]
    · exact ih (hs.step e) (h.step hs (hlater e (by simp))) (fun f hf => hlater f (by simp [hf]))
        hthen

/-! ### One registration -/

theorem filter_fd_pushEntry : (s.pushEntry fd pid id).registry.filter (·.fd = fd) =
    [⟨fd, pid, s.nextHandle, id⟩] := by
  rw [pushEntry, List.filter_append, List.filter_filter]
  simp

theorem handle_clientRegister :
    s.handle fd (clientRegister pid id) = s.handleRegister fd (clientRegister pid id) := rfl

/-- A name that the field carries is registered, acknowledged and announced. -/
theorem nameSurvives_of_fits (hs : s.Valid) (hid : id ∈ s.classIds) (hlen : id.length ≤ 31)
    (hzero : 0 ∉ id) : NameSurvives s fd pid id := by
  have hread : (CharArray.strncpy 32 id).toString = id :=
    CharArray.toString_strncpy_eq_self_iff.mpr ⟨hlen, hzero⟩
  obtain ⟨cls, hcls⟩ := Option.isSome_iff_exists.mp (findClass_isSome.mpr hid)
  have hfind : s.findClass (clientRegister pid id).classId.toString = some cls := by
    rw [clientRegister, hread, hcls]
  have hname : (clientRegister pid id).classId.toString = id := hread
  have hhandled : s.handleRegister fd (clientRegister pid id) = (s.pushEntry fd pid id,
      [.assign cls pid, .send fd ((s.pushEntry fd pid id).registerAck s.nextHandle id)]) := by
    rw [handleRegister_of_known hfind, hname]
    rfl
  have hpushed : (s.handle fd (clientRegister pid id)).1 = s.pushEntry fd pid id := by
    rw [handle_clientRegister, hhandled]
  refine ⟨by rw [hpushed, filter_fd_pushEntry], ?_, ?_⟩
  · refine ⟨(s.pushEntry fd pid id).registerAck s.nextHandle id, ?_, ?_, ?_⟩
    · rw [handle_clientRegister, hhandled]
      simp
    · exact registerAck_error _
    · rw [registerAck_classId, hread]
  · rw [hpushed]
    intro later hlater msg hmsg htype
    have hnamed : EntriesNamed fd id (s.pushEntry fd pid id) := by
      intro e he hfd
      have hown : e ∈ (s.pushEntry fd pid id).registry.filter (·.fd = fd) :=
        List.mem_filter.mpr ⟨he, decide_eq_true hfd⟩
      rw [filter_fd_pushEntry] at hown
      rw [List.mem_singleton.mp hown]
    rw [hnamed.received (hs.pushEntry hid) hlater hmsg htype, hread]

/-- The answer names the class that the field carries, or none. -/
theorem fits_of_acknowledged
    (h : ∃ ack, Effect.messagesTo fd (s.handle fd (clientRegister pid id)).2 = [ack] ∧
      ack.error = 0 ∧ ack.classId.toString = id) : id.length ≤ 31 ∧ 0 ∉ id := by
  obtain ⟨ack, hack, herror, hname⟩ := h
  rw [handle_clientRegister] at hack
  cases hfind : s.findClass (clientRegister pid id).classId.toString with
  | none =>
    rw [handleRegister_of_unknown fd hfind] at hack
    obtain rfl : _ = ack := by simpa using hack
    exact absurd herror (by decide : ApiError.unknownClassId.code ≠ 0)
  | some cls =>
    rw [handleRegister_of_known hfind] at hack
    obtain rfl : _ = ack := by simpa using hack
    -- what the server read fits the field, so the answer carries it unchanged
    have hread : (clientRegister pid id).classId.toString = (Bytes.cString id).take 31 :=
      CharArray.toString_strncpy_take id
    have hsent : (CharArray.strncpy 32 ((Bytes.cString id).take 31)).toString =
        (Bytes.cString id).take 31 := by
      apply CharArray.toString_strncpy_eq_self_iff.mpr
      refine ⟨List.length_take_le _ _, fun hzero => ?_⟩
      exact Bytes.zero_not_mem_cString id (List.mem_of_mem_take hzero)
    rw [registerAck_classId, hread, hsent, ← CharArray.toString_strncpy_take] at hname
    exact CharArray.toString_strncpy_eq_self_iff.mp hname

/-- In every state of every run, a client that asks for a configured class gets it by its name
exactly when the name has at most 31 bytes and no zero byte. -/
theorem nameSurvives_iff (classes : List PathClassConfig) (c : PathClassConfig) (hc : c ∈ classes)
    (events : List Event) (fd : Nat) (pid : Int32) :
    NameSurvives ((ofClasses classes).afterEvents events) fd pid c.id ↔
      c.id.length ≤ 31 ∧ 0 ∉ c.id := by
  have hserves := serves_afterEvents classes events
  constructor
  · intro h
    exact fits_of_acknowledged h.acknowledged
  · rintro ⟨hlen, hzero⟩
    have hid : c.id ∈ ((ofClasses classes).afterEvents events).classIds := by
      rw [hserves.classIds]
      exact List.mem_map.mpr ⟨c, hc, rfl⟩
    exact nameSurvives_of_fits hserves.valid hid hlen hzero

theorem multipath_name_survives :
    NameSurvives ((ofClasses pathPolicies).afterEvents [.connect 7]) 7 100
      (Bytes.ascii "multipath") :=
  (nameSurvives_iff pathPolicies pathPolicies[0] (by decide) [.connect 7] 7 100).mpr (by decide)

/-- Two classes whose names agree in 31 bytes. -/
def longNamePolicies : List PathClassConfig :=
  [policy "priority_bandwidth_video_stream" 0x00100001 "/sys/fs/cgroup/net_cls/video"
      ["eth0.100"] false 100 0x10 false,
   policy "priority_bandwidth_video_streams" 0x00100002 "/sys/fs/cgroup/net_cls/videos"
      ["eth0.200"] false 200 0x20 false]

theorem longNamePolicies_accepted : Accepted longNamePolicies :=
  ⟨64, .inr rfl, document
    [policyJson "priority_bandwidth_video_stream" "0x00100001" "/sys/fs/cgroup/net_cls/video"
        ["eth0.100"] false 100 "0x10" false,
     policyJson "priority_bandwidth_video_streams" "0x00100002" "/sys/fs/cgroup/net_cls/videos"
        ["eth0.200"] false 200 "0x20" false], rfl⟩

/-- A client of the second class is registered for the first one. -/
theorem long_name_registers_other_class :
    ¬ ∀ classes : List PathClassConfig, Accepted classes → ∀ c ∈ classes,
        ∀ (events : List Event) (fd : Nat) (pid : Int32),
          NameSurvives ((ofClasses classes).afterEvents events) fd pid c.id := by
  intro h
  have hregistered := (h longNamePolicies longNamePolicies_accepted
    (longNamePolicies.getLast (by decide)) (by decide) [.connect 7] 7 100).registered
  exact absurd hregistered (by decide +kernel)

end ConsumerApiServer
end WifiOffload
