import WifiOffload.Api.Placement
import WifiOffload.Library.Unwinding

/-!
# Connections and each other's registrations

A `Register` and a hang-up look entries up by their connection, an `Unregister` by the handle in
the message. A connection that names a handle of its own leaves the registrations of the others
alone, and what they are told does not depend on it.
-/

namespace WifiOffload

section EraseFirst

variable {α : Type} {l : List α} {p q : α → Bool}

/-- The first element with `p` is one that `q` sorts out. -/
theorem filter_eraseP_of_neg (h : ∀ a, l.find? p = some a → q a = false) :
    (l.eraseP p).filter q = l.filter q := by
  induction l with
  | nil => rfl
  | cons a l ih =>
    cases hp : p a with
    | true =>
      have hq := h a (List.find?_cons_of_pos hp)
      rw [List.eraseP_cons_of_pos hp, List.filter_cons_of_neg (by simp [hq])]
    | false =>
      have hp' : ¬ p a = true := by simp [hp]
      rw [List.eraseP_cons_of_neg hp', List.filter_cons, List.filter_cons,
        ih fun b hb => h b (by rwa [List.find?_cons_of_neg hp'])]

/-- The first element with `p` is one that `q` keeps. -/
theorem filter_eraseP_of_pos (h : ∀ a, l.find? p = some a → q a = true) :
    (l.eraseP p).filter q = (l.filter q).eraseP p := by
  induction l with
  | nil => rfl
  | cons a l ih =>
    cases hp : p a with
    | true =>
      have hq := h a (List.find?_cons_of_pos hp)
      rw [List.eraseP_cons_of_pos hp, List.filter_cons_of_pos hq, List.eraseP_cons_of_pos hp]
    | false =>
      have hp' : ¬ p a = true := by simp [hp]
      have hl := ih fun b hb => h b (by rwa [List.find?_cons_of_neg hp'])
      rw [List.eraseP_cons_of_neg hp', List.filter_cons, List.filter_cons, hl]
      split
      · rw [List.eraseP_cons_of_neg hp']
      · rfl

/-- The first element with `p` that `q` keeps. -/
theorem find?_filter_of_pos (h : ∀ a, l.find? p = some a → q a = true) :
    (l.filter q).find? p = l.find? p := by
  induction l with
  | nil => rfl
  | cons a l ih =>
    cases hp : p a with
    | true =>
      rw [List.filter_cons_of_pos (h a (List.find?_cons_of_pos hp)), List.find?_cons_of_pos hp,
        List.find?_cons_of_pos hp]
    | false =>
      have hp' : ¬ p a = true := by simp [hp]
      have hl := ih fun b hb => h b (by rwa [List.find?_cons_of_neg hp'])
      rw [List.find?_cons_of_neg hp', List.filter_cons]
      split
      · rw [List.find?_cons_of_neg hp', hl]
      · exact hl

end EraseFirst

namespace ConsumerApiServer

variable (s : ConsumerApiServer) (fd : Nat) (msg : ApiMsg)

/-- A message leaves the entries of the other connections alone, and moves the process of such
an entry only if it is also the one that a `Register` names or that of the connection's own
entry. -/
structure Confined : Prop where
  others : (s.handle fd msg).1.others fd = s.others fd
  moved : ∀ e ∈ s.others fd, e.pid ∈ (s.handle fd msg).2.filterMap Effect.movedPid →
    (msg.type = MsgType.register.code ∧ msg.pid = e.pid) ∨
      ∃ own ∈ s.registry, own.fd = fd ∧ own.pid = e.pid

/-- An `Unregister` names no handle of another connection. -/
def NamesOwn : Prop :=
  msg.type = MsgType.unregister.code →
    ∀ e, s.registry.find? (·.handle = msg.handle) = some e → e.fd = fd

/-- Messages come on open connections and name handles of their own; hang-ups are of open
connections. -/
def OwnHandles (s : ConsumerApiServer) : Event → Prop
  | .message fd msg => fd ∈ s.clients ∧ s.NamesOwn fd msg
  | .disconnect fd => fd ∈ s.clients
  | .connect _ | .broadcast .. => True

instance : Decidable (s.NamesOwn fd msg) :=
  inferInstanceAs (Decidable (msg.type = MsgType.unregister.code →
    ∀ e ∈ s.registry.find? (·.handle = msg.handle), e.fd = fd))

instance : ∀ e, Decidable (OwnHandles s e)
  | .message _ _ => inferInstanceAs (Decidable (_ ∧ _))
  | .disconnect _ => inferInstanceAs (Decidable (_ ∈ s.clients))
  | .connect _ | .broadcast .. => inferInstanceAs (Decidable True)

/-- An `Unregister` of the connection. -/
def UnregisterOf (fd : Nat) : Event → Bool
  | .message fd' msg => fd' = fd ∧ msg.type = MsgType.unregister.code
  | _ => false

/-- What a connection is sent along a run. -/
def received (c : Nat) : ConsumerApiServer → List Event → List ApiMsg :=
  StateMachine.observed (fun s e => (s.step e).1) fun s e => Effect.messagesTo c (s.step e).2

variable {s fd msg}

/-! ### One message -/

theorem others_dropEntry_of_neg {p : ConsumerEntry → Bool}
    (h : ∀ e, s.registry.find? p = some e → e.fd = fd) :
    (s.dropEntry p).1.others fd = s.others fd := by
  rw [others, dropEntry_registry]
  exact filter_eraseP_of_neg fun e he => by simp [h e he]

theorem others_dropEntry_of_pos {p : ConsumerEntry → Bool}
    (h : ∀ e, s.registry.find? p = some e → e.fd ≠ fd) :
    (s.dropEntry p).1.others fd = (s.others fd).eraseP p := by
  rw [others, dropEntry_registry]
  exact filter_eraseP_of_pos fun e he => by simp [h e he]

theorem movedPid_dropEntry {p : ConsumerEntry → Bool} {pid : Int32}
    (h : pid ∈ (s.dropEntry p).2.filterMap Effect.movedPid) :
    ∃ e, s.registry.find? p = some e ∧ e.pid = pid := by
  unfold dropEntry removeCgroupPid at h
  cases hfind : s.registry.find? p with
  | none => simp [hfind] at h
  | some e =>
    simp only [hfind] at h
    split at h
    · simp at h
    · exact ⟨e, rfl, by simpa [Effect.movedPid, eq_comm] using h⟩

theorem confined_register (hreg : msg.type = MsgType.register.code) : s.Confined fd msg := by
  have hhandle : s.handle fd msg = s.handleRegister fd msg := if_pos hreg
  cases hfind : s.findClass msg.classId.toString with
  | none =>
    have heq := handleRegister_of_unknown fd hfind
    constructor <;> simp [hhandle, heq, Effect.movedPid]
  | some cls =>
    rw [handleRegister_of_known hfind] at hhandle
    constructor
    · simp [hhandle, others, pushEntry]
    · intro e he hmoved
      simp only [hhandle, Effect.movedPid, List.filterMap_cons, List.filterMap_nil,
        List.mem_singleton] at hmoved
      exact .inl ⟨hreg, hmoved.symm⟩

/-- An `Unregister` drops the entry with its handle, whose connection it is confined to. -/
theorem confined_unregister_iff (hunreg : msg.type = MsgType.unregister.code) :
    s.Confined fd msg ↔ ∀ e ∈ s.registry.find? (·.handle = msg.handle), e.fd = fd := by
  have hreg : msg.type ≠ MsgType.register.code := by
    rw [hunreg]
    decide
  have hhandle : s.handle fd msg = s.handleUnregister fd msg := by
    rw [handle, if_neg hreg, if_pos hunreg]
  constructor
  · rintro ⟨hothers, -⟩ e hfind
    have hfind := Option.mem_def.mp hfind
    by_contra hfd
    have hkeep : ∀ e', s.registry.find? (·.handle = msg.handle) = some e' → e'.fd ≠ fd := by
      intro e' hfind'
      rw [hfind, Option.some.injEq] at hfind'
      exact hfind' ▸ hfd
    -- the entry of the other connection is gone
    have hmem : e ∈ s.others fd := by
      simp [others, List.mem_of_find?_eq_some hfind, hfd]
    have hlen := congrArg List.length hothers
    simp only [hhandle, handleUnregister, hfind, others_dropEntry_of_pos hkeep] at hlen
    rw [List.length_eraseP_of_mem hmem (List.find?_some hfind)] at hlen
    have hpos := List.length_pos_of_mem hmem
    omega
  · intro hsame
    constructor
    · rw [hhandle, handleUnregister]
      split
      · rfl
      · exact others_dropEntry_of_neg hsame
    · intro e he hmoved
      rw [hhandle, handleUnregister] at hmoved
      split at hmoved
      · simp [Effect.movedPid] at hmoved
      · simp only [List.filterMap_append, List.filterMap_cons, Effect.movedPid,
          List.filterMap_nil, List.append_nil] at hmoved
        obtain ⟨own, hfind, hpid⟩ := movedPid_dropEntry hmoved
        exact .inr ⟨own, List.mem_of_find?_eq_some hfind, hsame own hfind, hpid⟩

/-- A message is confined exactly when it is not an `Unregister` of another connection's
handle. -/
theorem confined_iff (s : ConsumerApiServer) (fd : Nat) (msg : ApiMsg) :
    s.Confined fd msg ↔ s.NamesOwn fd msg := by
  by_cases hreg : msg.type = MsgType.register.code
  · exact iff_of_true (confined_register hreg) fun h => absurd (hreg.symm.trans h) (by decide)
  by_cases hunreg : msg.type = MsgType.unregister.code
  · rw [confined_unregister_iff hunreg]
    exact ⟨fun h _ => h, fun h => h hunreg⟩
  · obtain ⟨reply, heq⟩ := s.handle_of_other fd hreg hunreg
    refine iff_of_true ?_ fun h => absurd h hunreg
    constructor <;> simp [heq, Effect.movedPid]

/-! ### Two runs -/

/-- Equal besides the registration of one connection and the set of open connections. -/
structure SameBesides (fd : Nat) (s t : ConsumerApiServer) : Prop where
  classStates : s.classStates = t.classStates
  nextHandle : s.nextHandle = t.nextHandle
  others : s.others fd = t.others fd

namespace SameBesides

variable {t : ConsumerApiServer} {c : Nat}

theorem refl (fd : Nat) (s : ConsumerApiServer) : SameBesides fd s s := ⟨rfl, rfl, rfl⟩

theorem symm (h : SameBesides fd s t) : SameBesides fd t s :=
  ⟨h.classStates.symm, h.nextHandle.symm, h.others.symm⟩

theorem trans {u : ConsumerApiServer} (h : SameBesides fd s t) (h' : SameBesides fd t u) :
    SameBesides fd s u :=
  ⟨h.classStates.trans h'.classStates, h.nextHandle.trans h'.nextHandle, h.others.trans h'.others⟩

theorem findClass (h : SameBesides fd s t) (classId : Bytes) :
    s.findClass classId = t.findClass classId := by
  rw [ConsumerApiServer.findClass, ConsumerApiServer.findClass, h.classStates]

end SameBesides

/-- The loop of the broadcast drops the others without regard to the connection itself. -/
theorem others_dropAllBroken (fds : List Nat) : (s.dropAllBroken fds).1.others fd =
    (fds.filter (· ≠ fd)).foldl (fun r x => r.eraseP (·.fd = x)) (s.others fd) := by
  induction fds generalizing s with
  | nil => rfl
  | cons x fds ih =>
    rw [dropAllBroken_cons, ih, List.filter_cons]
    have hfound : ∀ e, s.registry.find? (·.fd = x) = some e → e.fd = x :=
      fun e he => by simpa using List.find?_some he
    by_cases hx : x = fd
    · have hsame : (s.dropBroken x).1.others fd = s.others fd :=
        others_dropEntry_of_neg fun e he => (hfound e he).trans hx
      simp [hx, ← hsame]
    · have hdrop : (s.dropBroken x).1.others fd = (s.others fd).eraseP (·.fd = x) :=
        others_dropEntry_of_pos fun e he => by rw [hfound e he]; exact hx
      simp [hx, hdrop]

namespace SameBesides

variable {t : ConsumerApiServer} {c : Nat}

/-- A handle that is looked up by another connection is found in both servers or in neither. -/
theorem find?_handle (h : SameBesides fd s t) {x : Nat} (hx : x ≠ fd) {handle : UInt64}
    (hs : ∀ e, s.registry.find? (·.handle = handle) = some e → e.fd = x)
    (ht : ∀ e, t.registry.find? (·.handle = handle) = some e → e.fd = x) :
    s.registry.find? (·.handle = handle) = t.registry.find? (·.handle = handle) := by
  have hother {e : ConsumerEntry} (he : e.fd = x) : decide (e.fd ≠ fd) = true := by
    simpa [he] using hx
  calc s.registry.find? (·.handle = handle) = (s.others fd).find? (·.handle = handle) :=
        (find?_filter_of_pos fun e he => hother (hs e he)).symm
    _ = (t.others fd).find? (·.handle = handle) := by rw [h.others]
    _ = t.registry.find? (·.handle = handle) := find?_filter_of_pos fun e he => hother (ht e he)

theorem dropEntry (h : SameBesides fd s t) {p : ConsumerEntry → Bool}
    (hfound : ((∀ e, s.registry.find? p = some e → e.fd = fd) ∧
        ∀ e, t.registry.find? p = some e → e.fd = fd) ∨
      ((∀ e, s.registry.find? p = some e → e.fd ≠ fd) ∧
        ∀ e, t.registry.find? p = some e → e.fd ≠ fd)) :
    SameBesides fd (s.dropEntry p).1 (t.dropEntry p).1 where
  classStates := by simp [h.classStates]
  nextHandle := by simp [h.nextHandle]
  others := by
    rcases hfound with ⟨hs, ht⟩ | ⟨hs, ht⟩
    · rw [others_dropEntry_of_neg hs, others_dropEntry_of_neg ht, h.others]
    · rw [others_dropEntry_of_pos hs, others_dropEntry_of_pos ht, h.others]

theorem pushEntry (h : SameBesides fd s t) (x : Nat) (pid : Int32) (classId : Bytes) :
    SameBesides fd (s.pushEntry x pid classId) (t.pushEntry x pid classId) where
  classStates := h.classStates
  nextHandle := congrArg (· + 1) h.nextHandle
  others := by
    have hcomm (r : List ConsumerEntry) : (r.filter (·.fd ≠ x)).filter (·.fd ≠ fd) =
        (r.filter (·.fd ≠ fd)).filter (·.fd ≠ x) := by
      rw [List.filter_filter, List.filter_filter]
      exact List.filter_congr fun e _ => Bool.and_comm _ _
    have hothers := h.others
    simp only [ConsumerApiServer.others] at hothers
    simp only [ConsumerApiServer.others, ConsumerApiServer.pushEntry, List.filter_append, hcomm,
      hothers, h.nextHandle]

theorem cachePathEvent (h : SameBesides fd s t) (classId : Bytes) (newState : PathState)
    (iface : Bytes) (rssiDbm : Int32) :
    SameBesides fd (s.cachePathEvent classId newState iface rssiDbm)
      (t.cachePathEvent classId newState iface rssiDbm) where
  classStates := by
    simp only [ConsumerApiServer.cachePathEvent, updateCurrentState, updateClass, h.classStates]
  nextHandle := h.nextHandle
  others := h.others

theorem handle (h : SameBesides fd s t) {x : Nat} (hs : s.NamesOwn x msg) (ht : t.NamesOwn x msg)
    (hx : x = fd → msg.type ≠ MsgType.unregister.code) :
    SameBesides fd (s.handle x msg).1 (t.handle x msg).1 ∧
      Effect.messagesTo c (s.handle x msg).2 = Effect.messagesTo c (t.handle x msg).2 := by
  by_cases hreg : msg.type = MsgType.register.code
  · simp only [ConsumerApiServer.handle, if_pos hreg]
    cases hfind : s.findClass msg.classId.toString with
    | none =>
      simp only [handleRegister, hfind, ← h.findClass]
      exact ⟨h, trivial⟩
    | some cls =>
      have hfind' : t.findClass msg.classId.toString = some cls := by rw [← h.findClass, hfind]
      have hpush := h.pushEntry x msg.pid msg.classId.toString
      rw [handleRegister_of_known hfind, handleRegister_of_known hfind']
      refine ⟨hpush, ?_⟩
      simp only [registerAck, hpush.findClass, h.nextHandle]
  by_cases hunreg : msg.type = MsgType.unregister.code
  · have hne : x ≠ fd := fun heq => hx heq hunreg
    have hsame := h.find?_handle hne (hs hunreg) (ht hunreg)
    simp only [ConsumerApiServer.handle, if_neg hreg, if_pos hunreg, handleUnregister, hsame]
    cases hfind : t.registry.find? (·.handle = msg.handle) with
    | none => exact ⟨h, rfl⟩
    | some e =>
      refine ⟨h.dropEntry (.inr ⟨fun o ho => ?_, fun o ho => ?_⟩), ?_⟩
      · rwa [hs hunreg o ho]
      · rwa [ht hunreg o ho]
      · simp only [Effect.messagesTo_append, messagesTo_dropEntry]
  · simp only [ConsumerApiServer.handle, if_neg hreg, if_neg hunreg, handleQueryCurrent,
      h.findClass]
    split
    · split <;> exact ⟨h, rfl⟩
    · exact ⟨h, rfl⟩

theorem dropAllBroken (h : SameBesides fd s t) {fds gone : List Nat}
    (hfds : fds.filter (· ≠ fd) = gone.filter (· ≠ fd)) :
    SameBesides fd (s.dropAllBroken fds).1 (t.dropAllBroken gone).1 where
  classStates := by
    rw [dropAllBroken_frame, dropAllBroken_frame gone]
    exact h.classStates
  nextHandle := by
    rw [dropAllBroken_frame, dropAllBroken_frame gone]
    exact h.nextHandle
  others := by rw [others_dropAllBroken, others_dropAllBroken, h.others, hfds]

/-- Another connection is broadcast to in both servers or in neither, and so are the broken ones
found and dropped. -/
theorem broadcastPathEvent (h : SameBesides fd s t) (hc : c ≠ fd) (classId : Bytes)
    (newState : PathState) (iface : Bytes) (rssiDbm : Int32) (sent : Nat → Bool) :
    SameBesides fd (s.broadcastPathEvent classId newState iface rssiDbm sent).1
        (t.broadcastPathEvent classId newState iface rssiDbm sent).1 ∧
      Effect.messagesTo c (s.broadcastPathEvent classId newState iface rssiDbm sent).2 =
        Effect.messagesTo c (t.broadcastPathEvent classId newState iface rssiDbm sent).2 := by
  have hcached := h.cachePathEvent classId newState iface rssiDbm
  generalize hs' : s.cachePathEvent classId newState iface rssiDbm = s' at hcached
  generalize ht' : t.cachePathEvent classId newState iface rssiDbm = t' at hcached
  have hothers : s'.registry.filter (·.fd ≠ fd) = t'.registry.filter (·.fd ≠ fd) := hcached.others
  -- a filter of the receivers that says nothing about the connection itself
  have hreceivers (q : ConsumerEntry → Bool) (hq : ∀ e, q e = true → e.fd ≠ fd) :
      (s'.receivers classId).filter q = (t'.receivers classId).filter q := by
    have hothersOnly (r : List ConsumerEntry) : (r.filter (·.classId = classId)).filter q =
        ((r.filter (·.fd ≠ fd)).filter (·.classId = classId)).filter q := by
      rw [List.filter_filter, List.filter_filter, List.filter_filter]
      apply List.filter_congr
      intro e _
      cases hqe : q e with
      | true => simp [hq e hqe]
      | false => rfl
    rw [receivers, receivers, hothersOnly, hothers, ← hothersOnly]
  simp only [ConsumerApiServer.broadcastPathEvent, hs', ht', Effect.messagesTo_append,
    messagesTo_dropAllBroken, List.append_nil, messagesTo_sends, List.filter_filter]
  constructor
  · apply hcached.dropAllBroken
    have hbroken (r : List ConsumerEntry) :
        ((r.filter fun e => !sent e.fd).map (·.fd)).filter (· ≠ fd) =
          (r.filter fun e => decide (e.fd ≠ fd) && !sent e.fd).map (·.fd) := by
      rw [List.filter_map, List.filter_filter]
      rfl
    rw [hbroken, hbroken, hreceivers _ fun e he => by simp_all]
  · rw [hreceivers _ fun e he => by simp_all]

/-- One event, besides an `Unregister` of the connection. -/
theorem step (h : SameBesides fd s t) (hc : c ≠ fd) {e : Event} (hs : OwnHandles s e)
    (ht : OwnHandles t e) (he : UnregisterOf fd e = false) :
    SameBesides fd (s.step e).1 (t.step e).1 ∧
      Effect.messagesTo c (s.step e).2 = Effect.messagesTo c (t.step e).2 := by
  cases e with
  | connect x =>
    have hsame (u : ConsumerApiServer) : SameBesides fd (u.handleAccept x) u := by
      unfold handleAccept
      split <;> exact ⟨rfl, rfl, rfl⟩
    exact ⟨((hsame s).trans h).trans (hsame t).symm, rfl⟩
  | message x msg =>
    simp only [ConsumerApiServer.step, if_pos hs.1, if_pos ht.1]
    refine h.handle hs.2 ht.2 fun heq hunreg => ?_
    simp [UnregisterOf, heq, hunreg] at he
  | disconnect x =>
    have hfound (r : List ConsumerEntry) : ∀ e, r.find? (·.fd = x) = some e → e.fd = x :=
      fun e he => by simpa using List.find?_some he
    have hclosed : SameBesides fd (s.closeClient x).1 (t.closeClient x).1 :=
      ⟨h.classStates, h.nextHandle, h.others⟩
    have hs' : x ∈ s.clients := hs
    have ht' : x ∈ t.clients := ht
    simp only [ConsumerApiServer.step, if_pos hs', if_pos ht', removeClient]
    refine ⟨hclosed.dropEntry ?_, by simp [closeClient, messagesTo_dropEntry]⟩
    by_cases hx : x = fd
    · exact .inl ⟨fun e he => (hfound _ e he).trans hx, fun e he => (hfound _ e he).trans hx⟩
    · exact .inr ⟨fun e he => by rwa [hfound _ e he], fun e he => by rwa [hfound _ e he]⟩
  | broadcast classId newState iface rssiDbm sent =>
    exact h.broadcastPathEvent hc classId newState iface rssiDbm sent

end SameBesides

/-- The relation carries runs that differ in the `Unregister` messages of the connection. -/
theorem unwinding {c : Nat} (hc : c ≠ fd) :
    StateMachine.Unwinding (fun s e => (step s e).1) (fun s e => Effect.messagesTo c (step s e).2)
      (UnregisterOf fd) OwnHandles (SameBesides fd) where
  symm _ _ h := h.symm
  silent s t e h he hown := by
    cases e with
    | message x msg =>
      simp only [UnregisterOf, Bool.decide_and, Bool.and_eq_true, decide_eq_true_eq] at he
      obtain ⟨rfl, hunreg⟩ := he
      have hothers := ((confined_iff s x msg).mpr hown.2).others
      have hhandle : s.handle x msg = s.handleUnregister x msg := by
        rw [handle, hunreg]
        rfl
      simp only [step, if_pos hown.1]
      refine ⟨⟨?_, ?_, hothers.trans h.others⟩, messagesTo_handle_of_ne hc.symm⟩
      · rw [hhandle, handleUnregister]
        split <;> simp [h.classStates]
      · rw [hhandle, handleUnregister]
        split <;> simp [h.nextHandle]
    | connect | disconnect | broadcast => cases he
  kept s t e h he hs ht := h.step hc hs ht he

/-! ## Whole runs -/

/-- In every reachable server, a message is confined to the registration of its sender exactly
when it is not an `Unregister` of another connection's handle. In runs without such messages,
what a connection is sent does not depend on the `Unregister` messages of another one. -/
theorem reachable_confined_iff (classes : List PathClassConfig) :
    (∀ events fd msg,
      let s := StateMachine.run (fun s e => (step s e).1) (ofClasses classes) events
      s.Confined fd msg ↔ s.NamesOwn fd msg) ∧
    ∀ fd c events events', c ≠ fd →
      StateMachine.StepsMeet (fun s e => (step s e).1) OwnHandles (ofClasses classes) events →
      StateMachine.StepsMeet (fun s e => (step s e).1) OwnHandles (ofClasses classes) events' →
      events.filter (fun e => !UnregisterOf fd e) = events'.filter (fun e => !UnregisterOf fd e) →
      received c (ofClasses classes) events = received c (ofClasses classes) events' := by
  constructor
  · intro events fd msg s
    exact confined_iff s fd msg
  · intro fd c events events' hc hown hown' hsame
    exact (unwinding hc).observed_eq (.refl fd _) hown hown' hsame

/-- Two consumers of `multipath`; then the class comes up. In between the second one may end its
registration. -/
def twoConsumers (between : List Event) : List Event :=
  [.connect 7, .message 7 (registerMsg 100 "multipath"), .connect 8,
    .message 8 (registerMsg 200 "multipath")] ++ between ++
  [.broadcast (Bytes.ascii "multipath") .pathUp (Bytes.ascii "eth0.100") 0 fun _ => true]

theorem reachable_confined_twoConsumers :
    (received 7 (ofClasses pathPolicies) (twoConsumers [])).length = 2 ∧
    (StateMachine.run (fun s e => (step s e).1) (ofClasses pathPolicies)
      (twoConsumers [])).Confined 8 (unregisterMsg 2) ∧
    received 7 (ofClasses pathPolicies) (twoConsumers [.message 8 (unregisterMsg 2)]) =
      received 7 (ofClasses pathPolicies) (twoConsumers []) := by
  obtain ⟨hconfined, hsame⟩ := reachable_confined_iff pathPolicies
  exact ⟨by decide, (hconfined _ 8 (unregisterMsg 2)).mpr (by decide),
    hsame 8 7 _ _ (by decide) (by decide) (by decide) rfl⟩

/-- A consumer that names the handle of another one ends its registration: the other's process
is moved out of the class, and it is no longer told that the path is up. -/
theorem registration_ended_by_other :
    (¬ ∀ classes events fd msg, Accepted classes →
        let s := StateMachine.run (fun s e => (step s e).1) (ofClasses classes) events
        fd ∈ s.clients → s.Confined fd msg) ∧
    ¬ ∀ classes fd c events events', Accepted classes → c ≠ fd →
        events.filter (fun e => !UnregisterOf fd e) = events'.filter (fun e => !UnregisterOf fd e) →
        received c (ofClasses classes) events = received c (ofClasses classes) events' := by
  constructor
  · intro h
    have hconfined := h pathPolicies (twoConsumers []) 8 (unregisterMsg 1) pathPolicies_accepted
      (by decide)
    exact absurd hconfined.others (by decide)
  · intro h
    have hsame := h pathPolicies 8 7 (twoConsumers [.message 8 (unregisterMsg 1)])
      (twoConsumers []) pathPolicies_accepted (by decide) rfl
    exact absurd (congrArg List.length hsame) (by decide)

end ConsumerApiServer
end WifiOffload
