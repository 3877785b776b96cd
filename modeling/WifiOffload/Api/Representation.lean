import WifiOffload.Api.Registry
import WifiOffload.Config.Accepted
import WifiOffload.Library.Unwinding

/-!
# The representation of the registry

What holds of the registry in every state of a server, its end included, while the handles have
not run out: one entry for a connection that is open, for a configured class, the handles
distinct, in the order of the entries and below the next one. A step either pushes the entry of a
registration or takes something away (`live_cases`); the handles that were issued count the
registrations, so that none is issued twice.
-/

namespace WifiOffload

open StateMachine

/-- A handle that is issued, in the answer to a registration. -/
def Effect.issued : Effect → Option UInt64
  | .send _ msg =>
    if msg.type = MsgType.registerAck.code ∧ msg.error = 0 then some msg.handle else none
  | .assign .. | .release _ | .close _ => none

namespace ConsumerApiServer

/-- What happens to a server while it runs, and its end. -/
inductive LifeEvent where
  | serve (e : Event)
  | stop

def live (s : ConsumerApiServer) : LifeEvent → Handled
  | .serve e => s.step e
  | .stop => s.stop

def after (s : ConsumerApiServer) (e : LifeEvent) : ConsumerApiServer := (s.live e).1

/-- The handles issued in a step. -/
def issues (s : ConsumerApiServer) (e : LifeEvent) : List UInt64 :=
  (s.live e).2.filterMap Effect.issued

structure Represented (classes : List PathClassConfig) (s : ConsumerApiServer) : Prop where
  one_entry : (s.registry.map (·.fd)).Nodup
  handles_nodup : (s.registry.map (·.handle)).Nodup
  handles_increasing : (s.registry.map (·.handle)).Pairwise (· < ·)
  handle_bounds : ∀ e ∈ s.registry, 1 ≤ e.handle ∧ e.handle < s.nextHandle
  configured : ∀ e ∈ s.registry, e.classId ∈ classes.map (·.id)
  connected : ∀ e ∈ s.registry, e.fd ∈ s.clients

/-- A `Register` for a class that is not configured leaves the registry and the counter. -/
def RefusesUnknown (classes : List PathClassConfig) (s : ConsumerApiServer) : LifeEvent → Prop
  | .serve (.message fd msg) =>
    msg.type = MsgType.register.code → msg.classId.toString ∉ classes.map (·.id) →
      (s.after (.serve (.message fd msg))).registry = s.registry ∧
        (s.after (.serve (.message fd msg))).nextHandle = s.nextHandle
  | _ => True

/-! ## What a step takes away -/

/-- Entries are gone, connections that had one are closed, and new ones are open. -/
structure Trimmed (s t : ConsumerApiServer) : Prop where
  classIds : t.classIds = s.classIds
  nextHandle : t.nextHandle = s.nextHandle
  registry : t.registry.Sublist s.registry
  connected : ∀ e ∈ t.registry, e.fd ∈ s.clients → e.fd ∈ t.clients
  clients_nodup : s.clients.Nodup → t.clients.Nodup

variable {s t u : ConsumerApiServer} {fd : Nat} {p : ConsumerEntry → Bool}
  {classes : List PathClassConfig}

namespace Trimmed

theorem refl (s : ConsumerApiServer) : Trimmed s s :=
  ⟨rfl, rfl, .refl _, fun _ _ h => h, fun h => h⟩

theorem trans (h : Trimmed s t) (h' : Trimmed t u) : Trimmed s u where
  classIds := h'.classIds.trans h.classIds
  nextHandle := h'.nextHandle.trans h.nextHandle
  registry := h'.registry.trans h.registry
  connected e he hopen := h'.connected e he (h.connected e (h'.registry.subset he) hopen)
  clients_nodup hs := h'.clients_nodup (h.clients_nodup hs)

theorem valid (h : Trimmed s t) (hs : s.Valid) : t.Valid := hs.of_sublist h.classIds h.registry

theorem dropEntry : Trimmed s (s.dropEntry p).1 := by
  refine ⟨?_, nextHandle_dropEntry, ?_, fun e _ h => ?_, fun h => ?_⟩
  · exact congrArg (List.map (·.classId)) classStates_dropEntry
  · rw [dropEntry_registry]
    exact List.eraseP_sublist
  · rwa [clients_dropEntry]
  · rwa [clients_dropEntry]

/-- The connection whose entry is dropped is closed. -/
theorem closeDropped (hs : s.Valid) (ht : t.classIds = s.classIds)
    (hnext : t.nextHandle = s.nextHandle)
    (hregistry : t.registry = (s.dropEntry (·.fd = fd)).1.registry)
    (hclients : t.clients = s.clients.erase fd) : Trimmed s t where
  classIds := ht
  nextHandle := hnext
  registry := by
    rw [hregistry]
    exact Trimmed.dropEntry.registry
  connected e he hopen := by
    rw [hregistry] at he
    rw [hclients]
    exact (List.mem_erase_of_ne (hs.mem_dropEntry_fd.mp he).2).mpr hopen
  clients_nodup h := by
    rw [hclients]
    exact h.erase fd

theorem dropBroken (hs : s.Valid) : Trimmed s (s.dropBroken fd).1 :=
  closeDropped hs (Trimmed.dropEntry (p := (·.fd = fd))).classIds nextHandle_dropEntry rfl
    (congrArg (List.erase · fd) clients_dropEntry)

theorem dropAllBroken (hs : s.Valid) (fds : List Nat) : Trimmed s (s.dropAllBroken fds).1 := by
  induction fds generalizing s with
  | nil => exact refl s
  | cons fd fds ih =>
    have hdrop : Trimmed s (s.dropBroken fd).1 := dropBroken hs
    rw [dropAllBroken_cons]
    exact hdrop.trans (ih (hdrop.valid hs))

theorem handleAccept : Trimmed s (s.handleAccept fd) := by
  unfold ConsumerApiServer.handleAccept
  split
  · exact refl s
  · next hnew =>
    exact ⟨rfl, rfl, .refl _, fun _ _ h => List.mem_append_left _ h, fun h =>
      List.nodup_append.mpr ⟨h, List.nodup_singleton fd, by grind⟩⟩

end Trimmed

/-! ## The handles that a step issues -/

theorem issued_dropEntry : (s.dropEntry p).2.filterMap Effect.issued = [] := by
  unfold dropEntry removeCgroupPid
  split
  · rfl
  · split <;> rfl

theorem issued_dropAllBroken (fds : List Nat) :
    (s.dropAllBroken fds).2.filterMap Effect.issued = [] := by
  induction fds generalizing s with
  | nil => rfl
  | cons fd fds ih =>
    have hbroken : (s.dropBroken fd).2.filterMap Effect.issued = [] := by
      simp only [dropBroken, closeClient, List.filterMap_append, issued_dropEntry]
      rfl
    rw [dropAllBroken_cons, List.filterMap_append, ih, hbroken, List.append_nil]

theorem issued_broadcastPathEvent (classId : Bytes) (newState : PathState) (iface : Bytes)
    (rssiDbm : Int32) (sent : Nat → Bool) :
    (s.broadcastPathEvent classId newState iface rssiDbm sent).2.filterMap Effect.issued = [] := by
  simp only [broadcastPathEvent, List.filterMap_append, issued_dropAllBroken, List.append_nil]
  rw [List.filterMap_eq_nil_iff]
  intro e he
  obtain ⟨entry, -, rfl⟩ := List.mem_map.mp he
  rfl

/-! ## One step -/

/-- A request for a configured class pushes an entry and issues its handle; other requests take
away at most an entry. -/
theorem handle_cases (s : ConsumerApiServer) (fd : Nat) (msg : ApiMsg) :
    (msg.type = MsgType.register.code ∧ msg.classId.toString ∈ s.classIds ∧
      (s.handle fd msg).1 = s.pushEntry fd msg.pid msg.classId.toString ∧
      (s.handle fd msg).2.filterMap Effect.issued = [s.nextHandle]) ∨
    (Trimmed s (s.handle fd msg).1 ∧ (s.handle fd msg).2.filterMap Effect.issued = [] ∧
      (msg.type = MsgType.register.code → (s.handle fd msg).1 = s)) := by
  by_cases hreg : msg.type = MsgType.register.code
  · rw [handle, if_pos hreg]
    cases hfind : s.findClass msg.classId.toString with
    | none =>
      simp only [handleRegister, hfind]
      exact .inr ⟨.refl s, rfl, fun _ => trivial⟩
    | some cls =>
      have hsend : Effect.issued (.send fd ((s.pushEntry fd msg.pid
          msg.classId.toString).registerAck s.nextHandle msg.classId.toString)) =
          some s.nextHandle := by
        rw [Effect.issued, if_pos ⟨registerAck_type _, registerAck_error _⟩, registerAck_handle]
      refine .inl ⟨hreg, findClass_isSome.mp (by rw [hfind]; rfl), ?_⟩
      rw [handleRegister_of_known hfind, List.filterMap_cons_none rfl,
        List.filterMap_cons_some hsend]
      exact ⟨rfl, rfl⟩
  refine .inr ⟨?_, ?_, fun h => absurd h hreg⟩
  · by_cases hunreg : msg.type = MsgType.unregister.code
    · rw [handle, if_neg hreg, if_pos hunreg, handleUnregister]
      split
      · exact .refl s
      · exact .dropEntry
    · obtain ⟨reply, heq⟩ := s.handle_of_other fd hreg hunreg
      rw [heq]
      exact .refl s
  · rw [handle, if_neg hreg]
    split
    · unfold handleUnregister
      split
      · rfl
      · simp only [List.filterMap_append, issued_dropEntry]
        rfl
    · split
      · simp only [handleQueryCurrent]
        split <;> rfl
      · rfl

/-- A step registers the connection whose message it is, or takes something away. -/
theorem step_cases (hs : s.Valid) (e : Event) :
    (∃ fd msg, e = .message fd msg ∧ msg.type = MsgType.register.code ∧ fd ∈ s.clients ∧
      msg.classId.toString ∈ s.classIds ∧
      (s.step e).1 = s.pushEntry fd msg.pid msg.classId.toString ∧
      (s.step e).2.filterMap Effect.issued = [s.nextHandle]) ∨
    (Trimmed s (s.step e).1 ∧ (s.step e).2.filterMap Effect.issued = []) := by
  cases e with
  | connect fd => exact .inr ⟨.handleAccept, rfl⟩
  | message fd msg =>
    simp only [step]
    split
    · next hopen =>
      rcases s.handle_cases fd msg with ⟨hreg, hid, hpush, hissued⟩ | ⟨htrimmed, hissued, -⟩
      · exact .inl ⟨fd, msg, rfl, hreg, hopen, hid, hpush, hissued⟩
      · exact .inr ⟨htrimmed, hissued⟩
    · exact .inr ⟨.refl s, rfl⟩
  | disconnect fd =>
    simp only [step]
    split
    · refine .inr ⟨?_, ?_⟩
      · have hregistry : (s.removeClient fd).1.registry =
            (s.dropEntry (·.fd = fd)).1.registry := by
          simp only [removeClient, dropEntry_registry]
          rfl
        exact .closeDropped hs (Trimmed.dropEntry (p := (·.fd = fd))).classIds
          nextHandle_dropEntry hregistry (clients_removeClient s fd)
      · simp only [removeClient, List.filterMap_append, issued_dropEntry]
        rfl
    · exact .inr ⟨.refl s, rfl⟩
  | broadcast classId newState iface rssiDbm sent =>
    have hcached : Trimmed s (s.cachePathEvent classId newState iface rssiDbm) :=
      ⟨classIds_cachePathEvent, rfl, .refl _, fun _ _ h => h, fun h => h⟩
    exact .inr ⟨hcached.trans (.dropAllBroken (hcached.valid hs) _),
      issued_broadcastPathEvent _ _ _ _ _⟩

/-- A step of the server registers a connection for a configured class, or takes something
away. -/
theorem live_cases (hs : s.Valid) (e : LifeEvent) :
    (∃ fd pid classId, fd ∈ s.clients ∧ classId ∈ s.classIds ∧
      s.after e = s.pushEntry fd pid classId ∧ s.issues e = [s.nextHandle]) ∨
    (Trimmed s (s.after e) ∧ s.issues e = []) := by
  unfold after issues
  cases e with
  | stop =>
    refine .inr ⟨⟨rfl, rfl, List.nil_sublist _, fun e he => (by cases he), fun _ => .nil⟩, ?_⟩
    rw [List.filterMap_eq_nil_iff]
    intro e he
    obtain ⟨entry, -, rfl⟩ := List.mem_map.mp he
    rfl
  | serve e =>
    rcases step_cases hs e with ⟨fd, msg, -, -, hopen, hid, hpush, hissued⟩ | htrimmed
    · exact .inl ⟨fd, msg.pid, msg.classId.toString, hopen, hid, hpush, hissued⟩
    · exact .inr htrimmed

/-- The registry after `n` registrations. -/
structure Counted (classes : List PathClassConfig) (n : Nat) (s : ConsumerApiServer) : Prop where
  represented : Represented classes s
  classIds : s.classIds = classes.map (·.id)
  nextHandle : s.nextHandle.toNat = n + 1

namespace Counted

variable {n : Nat}

theorem valid (h : Counted classes n s) : s.Valid :=
  ⟨h.represented.one_entry, fun e he => h.classIds ▸ h.represented.configured e he⟩

theorem trimmed (h : Counted classes n s) (ht : Trimmed s t) : Counted classes n t where
  represented := by
    have hr := h.represented
    have hsub := ht.registry
    exact
      { one_entry := hr.one_entry.sublist (hsub.map _)
        handles_nodup := hr.handles_nodup.sublist (hsub.map _)
        handles_increasing := hr.handles_increasing.sublist (hsub.map _)
        handle_bounds := fun e he => ht.nextHandle ▸ hr.handle_bounds e (hsub.subset he)
        configured := fun e he => hr.configured e (hsub.subset he)
        connected := fun e he => ht.connected e he (hr.connected e (hsub.subset he)) }
  classIds := ht.classIds.trans h.classIds
  nextHandle := ht.nextHandle ▸ h.nextHandle

/-- The new entry has the greatest handle, and the counter does not overflow. -/
theorem pushEntry (h : Counted classes n s) (hn : n + 1 < 2 ^ 64 - 1) {pid : Int32}
    {classId : Bytes} (hopen : fd ∈ s.clients) (hid : classId ∈ s.classIds) :
    Counted classes (n + 1) (s.pushEntry fd pid classId) := by
  have hr := h.represented
  have hvalid : (s.pushEntry fd pid classId).Valid := h.valid.pushEntry hid
  have hnext : (s.nextHandle + 1).toNat = n + 1 + 1 := by
    rw [UInt64.toNat_add, h.nextHandle]
    exact Nat.mod_eq_of_lt (by simp; omega)
  have hlt {handle : UInt64} (hhandle : handle < s.nextHandle) : handle < s.nextHandle + 1 := by
    rw [UInt64.lt_iff_toNat_lt] at hhandle ⊢
    rw [hnext]
    have := h.nextHandle
    omega
  have hincreasing : ((s.pushEntry fd pid classId).registry.map (·.handle)).Pairwise (· < ·) := by
    rw [ConsumerApiServer.pushEntry, List.map_append]
    refine List.pairwise_append.mpr ⟨?_, List.pairwise_singleton _ _, ?_⟩
    · exact hr.handles_increasing.sublist (List.filter_sublist.map _)
    · intro a ha b hb
      obtain ⟨e, he, rfl⟩ := List.mem_map.mp ha
      rw [List.map_singleton, List.mem_singleton] at hb
      rw [hb]
      exact (hr.handle_bounds e (List.mem_of_mem_filter he)).2
  refine ⟨⟨hvalid.fds_nodup, ?_, hincreasing, ?_, ?_, ?_⟩, h.classIds, hnext⟩
  · exact hincreasing.imp fun hab => (UInt64.ne_of_lt hab)
  · intro e he
    rcases List.mem_append.mp he with he | he
    · obtain ⟨hpos, hbelow⟩ := hr.handle_bounds e (List.mem_of_mem_filter he)
      exact ⟨hpos, hlt hbelow⟩
    · rw [List.mem_singleton.mp he]
      refine ⟨UInt64.le_iff_toNat_le.mpr ?_, UInt64.lt_iff_toNat_lt.mpr ?_⟩
      · rw [h.nextHandle]
        simp
      · change s.nextHandle.toNat < (s.nextHandle + 1).toNat
        rw [hnext, h.nextHandle]
        omega
  · intro e he
    exact h.classIds ▸ hvalid.configured e he
  · intro e he
    rcases List.mem_append.mp he with he | he
    · exact hr.connected e (List.mem_of_mem_filter he)
    · rw [List.mem_singleton.mp he]
      exact hopen

theorem step (h : Counted classes n s) (e : LifeEvent)
    (hn : n + (s.issues e).length < 2 ^ 64 - 1) :
    Counted classes (n + (s.issues e).length) (s.after e) ∧
      (s.issues e).map UInt64.toNat = List.range' (n + 1) (s.issues e).length := by
  rcases live_cases h.valid e with ⟨fd, pid, classId, hopen, hid, hafter, hissues⟩ | ⟨ht, hissues⟩
  · rw [hissues] at hn ⊢
    rw [hafter]
    exact ⟨h.pushEntry hn hopen hid, by simp [h.nextHandle]⟩
  · rw [hissues]
    exact ⟨h.trimmed ht, rfl⟩

theorem refusesUnknown (h : Counted classes n s) (e : LifeEvent) : RefusesUnknown classes s e := by
  cases e with
  | stop => trivial
  | serve e =>
    cases e with
    | connect | disconnect | broadcast => trivial
    | message fd msg =>
      intro hreg hunknown
      simp only [after, live, ConsumerApiServer.step]
      split
      · rcases s.handle_cases fd msg with ⟨-, hid, -⟩ | ⟨-, -, hsame⟩
        · exact absurd (h.classIds ▸ hid) hunknown
        · rw [hsame hreg]
          exact ⟨rfl, rfl⟩
      · exact ⟨rfl, rfl⟩

/-- Along a run the handles that are issued are the numbers behind those issued before. -/
theorem run (h : Counted classes n s) (es : List LifeEvent)
    (hn : n + (observed after issues s es).length < 2 ^ 64 - 1) :
    Throughout after (Represented classes) s es ∧
      (observed after issues s es).map UInt64.toNat =
        List.range' (n + 1) (observed after issues s es).length ∧
      StepsMeet after (RefusesUnknown classes) s es := by
  induction es generalizing s n with
  | nil => exact ⟨h.represented, rfl, trivial⟩
  | cons e es ih =>
    simp only [observed_cons, List.length_append, List.map_append] at hn ⊢
    obtain ⟨hstep, hissued⟩ := h.step e (by omega)
    obtain ⟨hrest, hissues, hrefuses⟩ := ih hstep (by omega)
    refine ⟨⟨h.represented, hrest⟩, ?_, h.refusesUnknown e, hrefuses⟩
    rw [hissued, hissues, Nat.add_right_comm, List.range'_append_1]

end Counted

/-! ## A whole run -/

theorem ofClasses_counted (classes : List PathClassConfig) :
    Counted classes 0 (.ofClasses classes) where
  represented := by
    refine ⟨List.nodup_nil, List.nodup_nil, .nil, ?_, ?_, ?_⟩ <;> intro e he <;> cases he
  classIds := by simp [ofClasses, ConsumerApiServer.classIds]
  nextHandle := rfl

/-- With fewer registrations than there are handles, the registry is well formed in every state of
a run, no handle is issued twice, and a registration for an unknown class changes neither the
registry nor the counter. -/
theorem represented_throughout (classes : List PathClassConfig) (es : List LifeEvent)
    (hcount : (observed after issues (.ofClasses classes) es).length < 2 ^ 64 - 1) :
    Throughout after (Represented classes) (.ofClasses classes) es ∧
      (observed after issues (.ofClasses classes) es).Nodup ∧
      StepsMeet after (RefusesUnknown classes) (.ofClasses classes) es := by
  obtain ⟨hrepresented, hissued, hrefuses⟩ :=
    (ofClasses_counted classes).run es (by rwa [Nat.zero_add])
  refine ⟨hrepresented, List.Nodup.of_map UInt64.toNat ?_, hrefuses⟩
  rw [hissued]
  exact List.nodup_range'

/-- Two consumers register, one of them again, one hangs up, and the server is stopped. -/
theorem represented_twoConsumers :
    let es : List LifeEvent := [.serve (.connect 7), .serve (.connect 8),
      .serve (.message 7 (registerMsg 100 "multipath")),
      .serve (.message 8 (registerMsg 200 "lte_b2c")),
      .serve (.message 7 (registerMsg 101 "lte_b2b")), .serve (.message 8 (registerMsg 200 "wifi")),
      .serve (.disconnect 8), .stop]
    observed after issues (.ofClasses pathPolicies) es = [1, 2, 3] ∧
      Throughout after (Represented pathPolicies) (.ofClasses pathPolicies) es := by
  intro es
  exact ⟨by decide, (represented_throughout pathPolicies es (by decide)).1⟩

end ConsumerApiServer
end WifiOffload
