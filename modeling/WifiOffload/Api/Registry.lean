import WifiOffload.Api.Server

/-!
# The registry

What the steps of the server do to the registry: every way to drop entries is `dropEntry`, and
the entries of a server that was started fresh are for configured classes, one for a connection.
-/

namespace WifiOffload

/-- The entries that stay when the first one with `p` is erased. -/
theorem mem_eraseP_iff {r : List ConsumerEntry} (hr : r.Nodup) {p : ConsumerEntry → Bool}
    {e : ConsumerEntry} : e ∈ r.eraseP p ↔ e ∈ r ∧ r.find? p ≠ some e := by
  induction r with
  | nil => simp
  | cons a r ih =>
    obtain ⟨ha, hr⟩ := List.nodup_cons.mp hr
    cases hp : p a with
    | true =>
      simp only [List.eraseP_cons_of_pos hp, List.find?_cons_of_pos hp, ne_eq, Option.some.injEq,
        List.mem_cons]
      constructor
      · intro he
        exact ⟨.inr he, fun hae => ha (hae ▸ he)⟩
      · rintro ⟨rfl | he, hne⟩
        · exact absurd rfl hne
        · exact he
    | false =>
      have hp' : ¬ p a = true := by simp [hp]
      simp only [List.eraseP_cons_of_neg hp', List.find?_cons_of_neg hp', List.mem_cons, ih hr]
      constructor
      · rintro (rfl | ⟨he, hne⟩)
        · exact ⟨.inl rfl, fun hfind => hp' (List.find?_some hfind)⟩
        · exact ⟨.inr he, hne⟩
      · rintro ⟨rfl | he, hne⟩
        · exact .inl rfl
        · exact .inr ⟨he, hne⟩

namespace ConsumerApiServer

def classIds (s : ConsumerApiServer) : List Bytes := s.classStates.map (·.classId)

/-- One entry for a connection, and all of them for configured classes. -/
structure Valid (s : ConsumerApiServer) : Prop where
  fds_nodup : (s.registry.map (·.fd)).Nodup
  configured : ∀ e ∈ s.registry, e.classId ∈ s.classIds

variable {s : ConsumerApiServer} {p : ConsumerEntry → Bool} {classId : Bytes} {fd : Nat}

theorem findClass_isSome : (s.findClass classId).isSome ↔ classId ∈ s.classIds := by
  simp [findClass, classIds, List.find?_isSome]

/-! ### Cached states -/

theorem find?_modify_findIdx {l : List ClassState} {f : ClassState → ClassState}
    (hf : ∀ cls, (f cls).classId = cls.classId) :
    (l.modify (l.findIdx (·.classId = classId)) f).find? (·.classId = classId) =
      (l.find? (·.classId = classId)).map f := by
  induction l with
  | nil => rfl
  | cons cls l ih =>
    by_cases hcls : cls.classId = classId
    · simp [List.findIdx_cons, hcls, hf]
    · simp [List.findIdx_cons, hcls, ih]

theorem findClass_updateClass {f : ClassState → ClassState}
    (hf : ∀ cls, (f cls).classId = cls.classId) :
    (s.updateClass classId f).findClass classId = (s.findClass classId).map f :=
  find?_modify_findIdx hf

theorem find?_modify_of_ne {l : List ClassState} {f : ClassState → ClassState} {other : Bytes}
    (hf : ∀ cls, (f cls).classId = cls.classId) (hne : classId ≠ other) (i : Nat)
    (hi : ∀ cls, l[i]? = some cls → cls.classId = classId) :
    (l.modify i f).find? (·.classId = other) = l.find? (·.classId = other) := by
  induction l generalizing i with
  | nil => simp
  | cons cls l ih =>
    cases i with
    | zero =>
      have hcls : cls.classId ≠ other := fun h => hne ((hi cls rfl).symm.trans h)
      have hcls' : (f cls).classId ≠ other := by rwa [hf]
      simp [hcls, hcls']
    | succ i =>
      by_cases hcls : cls.classId = other
      · simp [hcls]
      · simp [hcls, ih i fun c hc => hi c (by simpa using hc)]

/-- The other classes are as they were. -/
theorem findClass_updateClass_of_ne {f : ClassState → ClassState} {other : Bytes}
    (hf : ∀ cls, (f cls).classId = cls.classId) (hne : classId ≠ other) :
    (s.updateClass classId f).findClass other = s.findClass other := by
  refine find?_modify_of_ne hf hne _ fun cls hcls => ?_
  obtain ⟨hlt, hget⟩ := List.getElem?_eq_some_iff.mp hcls
  have hfound := List.findIdx_getElem (p := fun c : ClassState => decide (c.classId = classId))
    (w := hlt)
  rw [← hget]
  exact of_decide_eq_true hfound

theorem findClass_cachePathEvent {newState : PathState} {iface : Bytes} {rssiDbm : Int32} :
    (s.cachePathEvent classId newState iface rssiDbm).findClass classId =
      (s.findClass classId).map fun cls =>
        { cls with state := newState, activeIface := iface, rssi := rssiDbm } := by
  rw [cachePathEvent, findClass_updateClass, updateCurrentState, findClass_updateClass,
    Option.map_map]
  · rfl
  · exact fun _ => rfl
  · exact fun _ => rfl

theorem findClass_cachePathEvent_of_ne {newState : PathState} {iface : Bytes} {rssiDbm : Int32}
    {other : Bytes} (hne : classId ≠ other) :
    (s.cachePathEvent classId newState iface rssiDbm).findClass other = s.findClass other := by
  refine Eq.trans (findClass_updateClass_of_ne ?_ hne) (findClass_updateClass_of_ne ?_ hne)
  · exact fun _ => rfl
  · exact fun _ => rfl

theorem classIds_updateClass (classId : Bytes) {f : ClassState → ClassState}
    (hf : ∀ cls, (f cls).classId = cls.classId) :
    (s.updateClass classId f).classIds = s.classIds := by
  apply List.ext_getElem?
  intro i
  simp only [classIds, updateClass, List.getElem?_map, List.getElem?_modify]
  split
  · cases s.classStates[i]? with
    | none => rfl
    | some cls => exact congrArg some (hf cls)
  · simp

theorem classIds_cachePathEvent {newState : PathState} {iface : Bytes} {rssiDbm : Int32} :
    (s.cachePathEvent classId newState iface rssiDbm).classIds = s.classIds := by
  have hiface := (s.updateCurrentState classId newState).classIds_updateClass classId
    (f := fun cls => { cls with activeIface := iface, rssi := rssiDbm }) fun _ => rfl
  exact hiface.trans (classIds_updateClass _ fun _ => rfl)

/-! ### Dropping entries -/

theorem dropEntry_registry : (s.dropEntry p).1.registry = s.registry.eraseP p := by
  unfold dropEntry
  split
  · next hnone =>
    rw [List.eraseP_of_forall_not fun e he => List.find?_eq_none.mp hnone e he]
  · rfl

theorem dropEntry_frame :
    (s.dropEntry p).1 = { s with registry := (s.dropEntry p).1.registry } := by
  unfold dropEntry
  split <;> rfl

@[simp] theorem classStates_dropEntry : (s.dropEntry p).1.classStates = s.classStates := by
  rw [dropEntry_frame]

@[simp] theorem nextHandle_dropEntry : (s.dropEntry p).1.nextHandle = s.nextHandle := by
  rw [dropEntry_frame]

@[simp] theorem clients_dropEntry : (s.dropEntry p).1.clients = s.clients := by
  rw [dropEntry_frame]

/-- The process of the entry that goes is moved to the root. -/
theorem Valid.dropEntry_effects (h : s.Valid) :
    (s.dropEntry p).2 = ((s.registry.find? p).map fun e => Effect.release e.pid).toList := by
  unfold dropEntry removeCgroupPid
  cases hfind : s.registry.find? p with
  | none => rfl
  | some e =>
    have hclass := findClass_isSome.mpr (h.configured e (List.mem_of_find?_eq_some hfind))
    obtain ⟨cls, hcls⟩ := Option.isSome_iff_exists.mp hclass
    simp [hcls]

/-- A dropped entry is told to nobody. -/
theorem messagesTo_dropEntry (c : Nat) : Effect.messagesTo c (s.dropEntry p).2 = [] := by
  unfold dropEntry removeCgroupPid
  split
  · rfl
  · split <;> rfl

theorem dropAllBroken_cons (fds : List Nat) : s.dropAllBroken (fd :: fds) =
    (((s.dropBroken fd).1.dropAllBroken fds).1,
      (s.dropBroken fd).2 ++ ((s.dropBroken fd).1.dropAllBroken fds).2) := by
  have hacc (acc : List Effect) (t : ConsumerApiServer) :
      fds.foldl (fun r fd => ((r.1.dropBroken fd).1, r.2 ++ (r.1.dropBroken fd).2)) (t, acc) =
        ((t.dropAllBroken fds).1, acc ++ (t.dropAllBroken fds).2) := by
    unfold dropAllBroken
    induction fds generalizing acc t with
    | nil => simp
    | cons fd fds ih =>
      rw [List.foldl_cons, List.foldl_cons, ih, ih ([] ++ _)]
      simp
  exact hacc _ _

theorem clients_dropAllBroken (fds : List Nat) :
    (s.dropAllBroken fds).1.clients = s.clients.diff fds := by
  induction fds generalizing s with
  | nil => rfl
  | cons fd fds ih =>
    have hdrop : (s.dropBroken fd).1.clients = s.clients.erase fd :=
      congrArg (List.erase · fd) clients_dropEntry
    rw [dropAllBroken_cons, ih, hdrop, List.diff_cons]

theorem messagesTo_dropAllBroken (c : Nat) (fds : List Nat) :
    Effect.messagesTo c (s.dropAllBroken fds).2 = [] := by
  induction fds generalizing s with
  | nil => rfl
  | cons fd fds ih =>
    rw [dropAllBroken_cons, Effect.messagesTo_append, ih]
    simp [dropBroken, closeClient, messagesTo_dropEntry]

/-- The loop of the broadcast leaves the cached states and the handles alone. -/
theorem dropAllBroken_frame (fds : List Nat) : (s.dropAllBroken fds).1 = { s with
    registry := (s.dropAllBroken fds).1.registry
    clients := (s.dropAllBroken fds).1.clients } := by
  induction fds generalizing s with
  | nil => rfl
  | cons fd fds ih =>
    rw [dropAllBroken_cons, ih, dropBroken, dropEntry_frame]
    rfl

namespace Valid

theorem nodup (h : s.Valid) : s.registry.Nodup := List.Nodup.of_map _ h.fds_nodup

/-- A connection has one entry. -/
theorem find?_fd (h : s.Valid) {e : ConsumerEntry} (he : e ∈ s.registry) :
    s.registry.find? (·.fd = fd) = some e ↔ e.fd = fd := by
  constructor
  · intro hfind
    simpa using List.find?_some hfind
  · rintro rfl
    have hsome : (s.registry.find? (·.fd = e.fd)).isSome :=
      List.find?_isSome.mpr ⟨e, he, by simp⟩
    obtain ⟨e', hfind⟩ := Option.isSome_iff_exists.mp hsome
    have hfd : e'.fd = e.fd := by simpa using List.find?_some hfind
    rw [hfind, List.inj_on_of_nodup_map h.fds_nodup (List.mem_of_find?_eq_some hfind) he hfd]

/-- What dropping the entry of a connection leaves. -/
theorem mem_dropEntry_fd (h : s.Valid) {e : ConsumerEntry} :
    e ∈ (s.dropEntry (·.fd = fd)).1.registry ↔ e ∈ s.registry ∧ e.fd ≠ fd := by
  rw [dropEntry_registry, mem_eraseP_iff h.nodup]
  exact and_congr_right fun he => not_congr (h.find?_fd he)

/-- A connection with an entry has no other. -/
theorem filter_fd (h : s.Valid) {e : ConsumerEntry} (he : e ∈ s.registry) :
    s.registry.filter (·.fd = e.fd) = [e] := by
  obtain ⟨before, after, hr⟩ := List.append_of_mem he
  have hnodup := h.fds_nodup
  rw [hr, List.map_append, List.map_cons] at hnodup
  have hfds := List.nodup_middle.mp hnodup
  rw [← List.map_append] at hfds
  have hother : ∀ o ∈ before ++ after, o.fd ≠ e.fd := by
    intro o ho heq
    exact (List.nodup_cons.mp hfds).1 (List.mem_map.mpr ⟨o, ho, heq⟩)
  have hbefore : before.filter (·.fd = e.fd) = [] :=
    List.filter_eq_nil_iff.mpr fun o ho => by simpa using hother o (by simp [ho])
  have hafter : after.filter (·.fd = e.fd) = [] :=
    List.filter_eq_nil_iff.mpr fun o ho => by simpa using hother o (by simp [ho])
  rw [hr, List.filter_append, List.filter_cons_of_pos (by simp), hbefore, hafter, List.nil_append]

/-- Entries may go, and clients and cached states may change. -/
theorem of_sublist (h : s.Valid) {t : ConsumerApiServer} (hids : t.classIds = s.classIds)
    (hsub : t.registry.Sublist s.registry) : t.Valid where
  fds_nodup := h.fds_nodup.sublist (hsub.map _)
  configured := fun e he => hids ▸ h.configured e (hsub.subset he)

theorem dropEntry (h : s.Valid) : (s.dropEntry p).1.Valid := by
  apply h.of_sublist
  · rw [dropEntry_frame]
    rfl
  · rw [dropEntry_registry]
    exact List.eraseP_sublist

theorem pushEntry (h : s.Valid) {pid : Int32} (hid : classId ∈ s.classIds) :
    (s.pushEntry fd pid classId).Valid where
  fds_nodup := by
    have hrest : ((s.registry.filter (·.fd ≠ fd)).map (·.fd)).Nodup :=
      h.fds_nodup.sublist (List.filter_sublist.map _)
    have hother : fd ∉ (s.registry.filter (·.fd ≠ fd)).map (·.fd) := by
      simp [List.mem_filter]
    have hconcat := List.Nodup.concat hother hrest
    rw [List.concat_eq_append] at hconcat
    rw [ConsumerApiServer.pushEntry, List.map_append]
    exact hconcat
  configured := by
    intro e he
    rcases List.mem_append.mp he with he | he
    · exact h.configured e (List.mem_of_mem_filter he)
    · rwa [List.mem_singleton.mp he]

theorem dropAllBroken (h : s.Valid) (fds : List Nat) : (s.dropAllBroken fds).1.Valid := by
  induction fds generalizing s with
  | nil => exact h
  | cons fd fds ih =>
    rw [dropAllBroken_cons]
    apply ih
    exact h.dropEntry.of_sublist rfl (List.Sublist.refl _)

end Valid

/-! ### Requests -/

/-- A request for a class that is not configured is only answered. -/
theorem handleRegister_of_unknown (fd : Nat) {msg : ApiMsg}
    (h : s.findClass msg.classId.toString = none) :
    s.handleRegister fd msg = (s, [.send fd
      { type := MsgType.registerAck.code, error := ApiError.unknownClassId.code }]) := by
  simp only [handleRegister, h]

/-- A registration pushes the entry, places the process and answers. -/
theorem handleRegister_of_known {msg : ApiMsg} {cls : ClassState}
    (h : s.findClass msg.classId.toString = some cls) :
    s.handleRegister fd msg = (s.pushEntry fd msg.pid msg.classId.toString,
      [.assign cls msg.pid, .send fd
        ((s.pushEntry fd msg.pid msg.classId.toString).registerAck s.nextHandle
          msg.classId.toString)]) := by
  have hsame : (s.pushEntry fd msg.pid msg.classId.toString).findClass msg.classId.toString =
      some cls := h
  simp only [handleRegister, assignCgroupPid, h, hsame]
  rfl

@[simp] theorem registerAck_type (handle : UInt64) :
    (s.registerAck handle classId).type = MsgType.registerAck.code := by
  simp only [registerAck]
  split <;> rfl

@[simp] theorem registerAck_handle (handle : UInt64) :
    (s.registerAck handle classId).handle = handle := by
  simp only [registerAck]
  split <;> rfl

@[simp] theorem registerAck_error (handle : UInt64) :
    (s.registerAck handle classId).error = 0 := by
  simp only [registerAck]
  split <;> rfl

@[simp] theorem registerAck_classId (handle : UInt64) :
    (s.registerAck handle classId).classId = CharArray.strncpy 32 classId := by
  simp only [registerAck]
  split <;> rfl

/-- Requests of other types leave the server alone. -/
theorem handle_of_other (fd : Nat) {msg : ApiMsg} (hreg : msg.type ≠ MsgType.register.code)
    (hunreg : msg.type ≠ MsgType.unregister.code) :
    ∃ reply, s.handle fd msg = (s, [.send fd reply]) := by
  rw [handle, if_neg hreg, if_neg hunreg]
  split
  · simp only [handleQueryCurrent]
    split <;> exact ⟨_, rfl⟩
  · exact ⟨_, rfl⟩

/-- A message gets one answer, and only its sender gets it. -/
theorem messagesTo_handle (s : ConsumerApiServer) (fd : Nat) (msg : ApiMsg) :
    ∃ reply : ApiMsg, reply.type = MsgType.answer msg.type ∧
      ∀ c, Effect.messagesTo c (s.handle fd msg).2 = if fd = c then [reply] else [] := by
  have hone {reply : ApiMsg} {type : UInt32} (htype : reply.type = type) : ∃ r : ApiMsg,
      r.type = type ∧ ∀ c, Effect.messagesTo c [.send fd reply] = if fd = c then [r] else [] :=
    ⟨reply, htype, fun c => by simp⟩
  unfold handle
  split
  · next hreg =>
    have htype : MsgType.answer msg.type = MsgType.registerAck.code := by
      rw [hreg]
      rfl
    rw [htype]
    cases hfind : s.findClass msg.classId.toString with
    | none =>
      simp only [handleRegister, hfind]
      exact hone rfl
    | some cls =>
      simp only [handleRegister_of_known hfind, Effect.messagesTo_assign]
      exact hone (registerAck_type _)
  split
  · next hunreg =>
    have htype : MsgType.answer msg.type = MsgType.unregisterAck.code := if_pos hunreg
    rw [htype, handleUnregister]
    split
    · exact hone rfl
    · simp only [Effect.messagesTo_append, messagesTo_dropEntry, List.nil_append]
      exact hone rfl
  split
  · next hunreg hquery =>
    have htype : MsgType.answer msg.type = MsgType.queryAck.code := by
      rw [MsgType.answer, if_neg hunreg, if_pos hquery]
    rw [htype, handleQueryCurrent]
    split
    · exact hone rfl
    · exact hone rfl
  · next hreg hunreg hquery =>
    have htype : MsgType.answer msg.type = MsgType.registerAck.code := by
      rw [MsgType.answer, if_neg hunreg, if_neg hquery]
    exact hone htype.symm

/-- Only the sender of a message is answered. -/
theorem messagesTo_handle_of_ne {msg : ApiMsg} {c : Nat} (h : fd ≠ c) :
    Effect.messagesTo c (s.handle fd msg).2 = [] := by
  obtain ⟨reply, -, hsent⟩ := s.messagesTo_handle fd msg
  rw [hsent, if_neg h]

/-- No request is answered with a path event. -/
theorem messagesTo_handle_type (s : ConsumerApiServer) (fd c : Nat) (msg : ApiMsg) :
    ∀ reply ∈ Effect.messagesTo c (s.handle fd msg).2, reply.type ≠ MsgType.pathEvent.code := by
  obtain ⟨reply, htype, hsent⟩ := s.messagesTo_handle fd msg
  intro r hr
  rw [hsent] at hr
  split at hr
  · rw [List.mem_singleton.mp hr, htype]
    exact MsgType.answer_ne_pathEvent _
  · cases hr

theorem messagesTo_sends (c : Nat) (es : List ConsumerEntry) (msg : ApiMsg) :
    Effect.messagesTo c (es.map fun e => .send e.fd msg) =
      (es.filter (·.fd = c)).map fun _ => msg := by
  induction es with
  | nil => rfl
  | cons e es ih =>
    rw [List.map_cons, Effect.messagesTo_send, ih, List.filter_cons]
    by_cases hfd : e.fd = c <;> simp [hfd]

/-- Requests open and close no connection. -/
theorem clients_handle (s : ConsumerApiServer) (fd : Nat) (msg : ApiMsg) :
    (s.handle fd msg).1.clients = s.clients := by
  by_cases hreg : msg.type = MsgType.register.code
  · rw [handle, if_pos hreg]
    cases hfind : s.findClass msg.classId.toString with
    | none =>
      have heq := handleRegister_of_unknown fd hfind
      rw [heq]
    | some cls =>
      rw [handleRegister_of_known hfind]
      rfl
  by_cases hunreg : msg.type = MsgType.unregister.code
  · rw [handle, if_neg hreg, if_pos hunreg, handleUnregister]
    split
    · rfl
    · rw [dropEntry_frame]
  · obtain ⟨reply, heq⟩ := s.handle_of_other fd hreg hunreg
    rw [heq]

/-- Requests leave the cached states alone. -/
theorem classStates_handle (s : ConsumerApiServer) (fd : Nat) (msg : ApiMsg) :
    (s.handle fd msg).1.classStates = s.classStates := by
  by_cases hreg : msg.type = MsgType.register.code
  · rw [handle, if_pos hreg]
    cases hfind : s.findClass msg.classId.toString with
    | none =>
      have heq := handleRegister_of_unknown fd hfind
      rw [heq]
    | some cls =>
      rw [handleRegister_of_known hfind]
      rfl
  by_cases hunreg : msg.type = MsgType.unregister.code
  · rw [handle, if_neg hreg, if_pos hunreg, handleUnregister]
    split
    · rfl
    · exact classStates_dropEntry
  · obtain ⟨reply, heq⟩ := s.handle_of_other fd hreg hunreg
    rw [heq]

theorem clients_removeClient (s : ConsumerApiServer) (fd : Nat) :
    (s.removeClient fd).1.clients = s.clients.erase fd := by
  simp only [removeClient]
  rw [dropEntry_frame]
  rfl

/-- Every step keeps the registry valid. -/
theorem Valid.step (h : s.Valid) (e : Event) : (s.step e).1.Valid := by
  cases e with
  | connect fd =>
    simp only [ConsumerApiServer.step, handleAccept]
    split
    · exact h
    · exact h.of_sublist rfl (List.Sublist.refl _)
  | message fd msg =>
    simp only [ConsumerApiServer.step]
    split
    · by_cases hreg : msg.type = MsgType.register.code
      · rw [handle, if_pos hreg]
        cases hfind : s.findClass msg.classId.toString with
        | none =>
          have heq := handleRegister_of_unknown fd hfind
          rwa [heq]
        | some cls =>
          rw [handleRegister_of_known hfind]
          exact h.pushEntry (findClass_isSome.mp (by rw [hfind]; rfl))
      by_cases hunreg : msg.type = MsgType.unregister.code
      · rw [handle, if_neg hreg, if_pos hunreg, handleUnregister]
        split
        · exact h
        · exact h.dropEntry
      · obtain ⟨reply, heq⟩ := s.handle_of_other fd hreg hunreg
        rwa [heq]
    · exact h
  | disconnect fd =>
    simp only [ConsumerApiServer.step]
    split
    · have hclosed : (s.closeClient fd).1.Valid := h.of_sublist rfl (List.Sublist.refl _)
      exact hclosed.dropEntry
    · exact h
  | broadcast classId newState iface rssiDbm sent =>
    have hcached : (s.cachePathEvent classId newState iface rssiDbm).Valid :=
      h.of_sublist classIds_cachePathEvent (List.Sublist.refl _)
    exact hcached.dropAllBroken _

end ConsumerApiServer
end WifiOffload
