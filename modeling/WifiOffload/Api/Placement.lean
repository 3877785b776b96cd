import WifiOffload.Api.Registry
import WifiOffload.Config.Accepted
import WifiOffload.Library.StateMachine

/-!
# Cgroup placement

The server next to the placement of every process: the class that its id was last written to,
or the root. The placement follows the registry when a process is in a class exactly if it has
an entry, and then in the class of its newest one. `dropEntry` moves a process to the root
whether or not it has other entries, and a `Register` that replaces the entry of its connection
does not move the process of the old entry at all.
-/

namespace WifiOffload

/-- The class a process is placed in; `none` is the root. -/
abbrev Placement := Int32 → Option Bytes

namespace Placement

/-- `assignCgroupPid` and `removeCgroupPid`, with every write going through. -/
def apply (place : Placement) : Effect → Placement
  | .assign cls pid => Function.update place pid (some cls.classId)
  | .release pid => Function.update place pid none
  | .send _ _ | .close _ => place

def applyAll (place : Placement) (effects : List Effect) : Placement := effects.foldl apply place

variable {place : Placement}

@[simp] theorem applyAll_nil : place.applyAll [] = place := rfl

@[simp] theorem applyAll_cons (e : Effect) (es : List Effect) :
    place.applyAll (e :: es) = (place.apply e).applyAll es := rfl

@[simp] theorem applyAll_append (es fs : List Effect) :
    place.applyAll (es ++ fs) = (place.applyAll es).applyAll fs := List.foldl_append

@[simp] theorem apply_send (fd : Nat) (msg : ApiMsg) : place.apply (.send fd msg) = place := rfl

@[simp] theorem apply_close (fd : Nat) : place.apply (.close fd) = place := rfl

@[simp] theorem applyAll_sends (es : List ConsumerEntry) (msg : ApiMsg) :
    place.applyAll (es.map fun e => .send e.fd msg) = place := by
  induction es with
  | nil => rfl
  | cons e es ih => exact ih

end Placement

/-- The server and where it has placed the processes. -/
structure Placed where
  server : ConsumerApiServer
  place : Placement

namespace Placed

open ConsumerApiServer (Event)

def fresh (classes : List PathClassConfig) : Placed := ⟨.ofClasses classes, fun _ => none⟩

def after (place : Placement) (r : Handled) : Placed := ⟨r.1, place.applyAll r.2⟩

def step (t : Placed) (e : Event) : Placed := after t.place (t.server.step e)

end Placed

/-! ## Following the registry -/

/-- An entry of the process with the largest handle is for the class. -/
def Owns (r : List ConsumerEntry) (pid : Int32) (classId : Bytes) : Prop :=
  ∃ e ∈ r, e.pid = pid ∧ e.classId = classId ∧ ∀ e' ∈ r, e'.pid = pid → e'.handle ≤ e.handle

structure FollowsRegistry (r : List ConsumerEntry) (place : Placement) : Prop where
  placed_iff : ∀ pid, (place pid).isSome = true ↔ ∃ e ∈ r, e.pid = pid
  owns : ∀ pid classId, place pid = some classId → Owns r pid classId

theorem owns_congr {r r' : List ConsumerEntry} {pid : Int32} {classId : Bytes}
    (h : ∀ e, e.pid = pid → (e ∈ r ↔ e ∈ r')) : Owns r pid classId ↔ Owns r' pid classId := by
  unfold Owns
  constructor
  · rintro ⟨e, he, hpid, hclass, hmax⟩
    exact ⟨e, (h e hpid).mp he, hpid, hclass, fun e' he' hp => hmax e' ((h e' hp).mpr he') hp⟩
  · rintro ⟨e, he, hpid, hclass, hmax⟩
    exact ⟨e, (h e hpid).mpr he, hpid, hclass, fun e' he' hp => hmax e' ((h e' hp).mp he') hp⟩

/-! ### Steps that drop entries -/

/-- The entries with `P` go, and their processes to the root. -/
structure Releases (P : ConsumerEntry → Prop) (r r' : List ConsumerEntry)
    (place place' : Placement) : Prop where
  mem_iff : ∀ e, e ∈ r' ↔ e ∈ r ∧ ¬ P e
  released : ∀ e ∈ r, P e → place' e.pid = none
  kept : ∀ pid, (∀ e ∈ r, P e → e.pid ≠ pid) → place' pid = place pid

/-- The entries with `P` include all entries of their processes. -/
def ClosedUnderPid (P : ConsumerEntry → Prop) (r : List ConsumerEntry) : Prop :=
  ∀ o ∈ r, P o → ∀ e ∈ r, e.pid = o.pid → P e

namespace Releases

variable {P Q : ConsumerEntry → Prop} {r r' r'' : List ConsumerEntry}
  {place place' place'' : Placement}

theorem refl (r : List ConsumerEntry) (place : Placement) :
    Releases (fun _ => False) r r place place :=
  ⟨by simp, fun _ _ h => h.elim, fun _ _ => rfl⟩

theorem congr (h : Releases P r r' place place') (hPQ : ∀ e ∈ r, P e ↔ Q e) :
    Releases Q r r' place place' where
  mem_iff e := by
    rw [h.mem_iff]
    exact and_congr_right fun he => not_congr (hPQ e he)
  released e he hQ := h.released e he ((hPQ e he).mpr hQ)
  kept pid hpid := h.kept pid fun e he hP => hpid e he ((hPQ e he).mp hP)

theorem trans (h : Releases P r r' place place') (h' : Releases Q r' r'' place' place'') :
    Releases (fun e => P e ∨ Q e) r r'' place place'' where
  mem_iff e := by
    rw [h'.mem_iff, h.mem_iff]
    grind
  released e he hPQ := by
    by_cases hQ : ∃ o ∈ r', Q o ∧ o.pid = e.pid
    · obtain ⟨o, ho, hoQ, hpid⟩ := hQ
      rw [← hpid]
      exact h'.released o ho hoQ
    · have hkept : place'' e.pid = place' e.pid :=
        h'.kept e.pid fun o ho hoQ hpid => hQ ⟨o, ho, hoQ, hpid⟩
      rw [hkept]
      by_cases hP : P e
      · exact h.released e he hP
      · -- otherwise the entry itself is dropped by the second part
        exact absurd ⟨e, (h.mem_iff e).mpr ⟨he, hP⟩, hPQ.resolve_left hP, rfl⟩ hQ
  kept pid hpid := by
    rw [h'.kept pid fun e he hQ => hpid e ((h.mem_iff e).mp he).1 (.inr hQ)]
    exact h.kept pid fun e he hP => hpid e he (.inl hP)

/-- Dropping entries keeps the placement in step exactly when no process keeps an entry and
loses one. -/
theorem followsRegistry_iff (h : Releases P r r' place place') (hr : FollowsRegistry r place) :
    FollowsRegistry r' place' ↔ ClosedUnderPid P r := by
  constructor
  · intro hr' o ho hP e he hpid
    by_contra hPe
    have hsome := (hr'.placed_iff e.pid).mpr ⟨e, (h.mem_iff e).mpr ⟨he, hPe⟩, rfl⟩
    have hnone := h.released o ho hP
    rw [hpid, hnone] at hsome
    cases hsome
  · intro hclosed
    have hcases (pid : Int32) : (place' pid = none ∧ ∀ e ∈ r', e.pid ≠ pid) ∨
        (place' pid = place pid ∧ ∀ e, e.pid = pid → (e ∈ r ↔ e ∈ r')) := by
      by_cases hdropped : ∃ o ∈ r, P o ∧ o.pid = pid
      · obtain ⟨o, ho, hP, rfl⟩ := hdropped
        refine .inl ⟨h.released o ho hP, fun e he hpid => ?_⟩
        obtain ⟨he', hPe⟩ := (h.mem_iff e).mp he
        exact hPe (hclosed o ho hP e he' hpid)
      · have hnot (e : ConsumerEntry) (he : e ∈ r) (hP : P e) : e.pid ≠ pid :=
          fun hpid => hdropped ⟨e, he, hP, hpid⟩
        refine .inr ⟨h.kept pid hnot, fun e hpid => ?_⟩
        rw [h.mem_iff]
        exact ⟨fun he => ⟨he, fun hP => hnot e he hP hpid⟩, fun he => he.1⟩
    constructor
    · intro pid
      rcases hcases pid with ⟨hnone, hno⟩ | ⟨hplace, hmem⟩
      · rw [hnone]
        exact iff_of_false (by simp) fun ⟨e, he, hpid⟩ => hno e he hpid
      · rw [hplace, hr.placed_iff]
        exact exists_congr fun e => and_congr_left fun hpid => hmem e hpid
    · intro pid classId hsome
      rcases hcases pid with ⟨hnone, -⟩ | ⟨hplace, hmem⟩
      · rw [hnone] at hsome
        cases hsome
      · exact (owns_congr hmem).mp (hr.owns pid classId (hplace ▸ hsome))

end Releases

namespace ConsumerApiServer

variable {s : ConsumerApiServer} {p : ConsumerEntry → Bool} {place : Placement} {fd : Nat}

theorem Valid.dropEntry_releases (h : s.Valid) (place : Placement) :
    Releases (fun e => s.registry.find? p = some e) s.registry (s.dropEntry p).1.registry place
      (place.applyAll (s.dropEntry p).2) where
  mem_iff e := by rw [dropEntry_registry, mem_eraseP_iff h.nodup]
  released e _ hfind := by
    rw [h.dropEntry_effects, hfind]
    exact Function.update_self _ _ _
  kept pid hpid := by
    rw [h.dropEntry_effects]
    cases hfind : s.registry.find? p with
    | none => rfl
    | some e =>
      have hne : pid ≠ e.pid := (hpid e (List.mem_of_find?_eq_some hfind) hfind).symm
      exact Function.update_of_ne hne _ _

theorem Valid.dropBroken_releases (h : s.Valid) (fd : Nat) (place : Placement) :
    Releases (·.fd = fd) s.registry (s.dropBroken fd).1.registry place
      (place.applyAll (s.dropBroken fd).2) := by
  have hdrop := h.dropEntry_releases (p := (·.fd = fd)) place
  simpa [dropBroken, closeClient] using hdrop.congr fun e he => h.find?_fd he

theorem Valid.removeClient_releases (h : s.Valid) (place : Placement) :
    Releases (·.fd = fd) s.registry (s.removeClient fd).1.registry place
      (place.applyAll (s.removeClient fd).2) := by
  have hclosed : (s.closeClient fd).1.Valid := h.of_sublist rfl (List.Sublist.refl _)
  have hdrop := hclosed.dropEntry_releases (p := (·.fd = fd)) place
  simpa [removeClient, closeClient] using hdrop.congr fun e he => hclosed.find?_fd he

/-- The loop of the broadcast drops the entries of all the connections. -/
theorem Valid.dropAllBroken_releases (h : s.Valid) (place : Placement) (fds : List Nat) :
    Releases (·.fd ∈ fds) s.registry (s.dropAllBroken fds).1.registry place
      (place.applyAll (s.dropAllBroken fds).2) := by
  induction fds generalizing s place with
  | nil => exact (Releases.refl _ _).congr (by simp)
  | cons fd fds ih =>
    have hnext : (s.dropBroken fd).1.Valid := h.dropEntry.of_sublist rfl (List.Sublist.refl _)
    have hfirst := h.dropBroken_releases fd place
    have hrest := ih hnext (place.applyAll (s.dropBroken fd).2)
    rw [dropAllBroken_cons, Placement.applyAll_append]
    exact (hfirst.trans hrest).congr fun e _ => by simp

/-- The entry is for the class of a broadcast and its connection cannot be sent to. -/
def Broken (classId : Bytes) (sent : Nat → Bool) (e : ConsumerEntry) : Prop :=
  e.classId = classId ∧ sent e.fd = false

theorem Valid.broadcastPathEvent_releases (h : s.Valid) (place : Placement) (classId : Bytes)
    (newState : PathState) (iface : Bytes) (rssiDbm : Int32) (sent : Nat → Bool) :
    Releases (Broken classId sent) s.registry
      (s.broadcastPathEvent classId newState iface rssiDbm sent).1.registry place
      (place.applyAll (s.broadcastPathEvent classId newState iface rssiDbm sent).2) := by
  have hcached : (s.cachePathEvent classId newState iface rssiDbm).Valid :=
    h.of_sublist classIds_cachePathEvent (List.Sublist.refl _)
  have hdrop := hcached.dropAllBroken_releases place
    ((((s.cachePathEvent classId newState iface rssiDbm).receivers classId).filter
      fun e => !sent e.fd).map (·.fd))
  simp only [broadcastPathEvent, Placement.applyAll_append, Placement.applyAll_sends]
  refine hdrop.congr fun e he => ?_
  simp only [receivers, List.mem_map, List.mem_filter, decide_eq_true_eq, Bool.not_eq_true', Broken]
  constructor
  · rintro ⟨e', ⟨⟨he', hclass⟩, hsent⟩, hfd⟩
    rw [List.inj_on_of_nodup_map hcached.fds_nodup he' he hfd] at hclass hsent
    exact ⟨hclass, hsent⟩
  · rintro ⟨hclass, hsent⟩
    exact ⟨e, ⟨⟨he, hclass⟩, hsent⟩, rfl⟩

end ConsumerApiServer

/-! ### Registration -/

/-- The registrations of the other connections. -/
def ConsumerApiServer.others (s : ConsumerApiServer) (fd : Nat) : List ConsumerEntry :=
  s.registry.filter (·.fd ≠ fd)

/-- When a `Register` keeps the placement in step. -/
structure KeepsRegister (t : Placed) (fd : Nat) (pid : Int32) (classId : Bytes) : Prop where
  /-- A process whose entry is replaced by one for another process has a further entry, and the
  newest of these is for the class the process is in. -/
  replaced : ∀ o ∈ t.server.registry, o.fd = fd → o.pid ≠ pid →
    ∃ held, t.place o.pid = some held ∧ Owns (t.server.others fd) o.pid held
  /-- A larger handle of the process, from before a wrap of `nextHandle_`, is for the class. -/
  newest : (∃ e ∈ t.server.others fd, e.pid = pid ∧ t.server.nextHandle < e.handle) →
    Owns (t.server.others fd) pid classId

section Register

variable {r : List ConsumerEntry} {e : ConsumerEntry} {pid : Int32} {classId : Bytes}

theorem owns_append_of_ne (h : e.pid ≠ pid) : Owns (r ++ [e]) pid classId ↔ Owns r pid classId := by
  apply owns_congr
  intro e' hpid
  have hne : e' ≠ e := fun heq => h (heq ▸ hpid)
  simp [hne]

/-- A new entry makes its class the newest unless an entry of the process has a larger handle. -/
theorem owns_append_self :
    Owns (r ++ [e]) e.pid e.classId ↔
      ((∃ e' ∈ r, e'.pid = e.pid ∧ e.handle < e'.handle) → Owns r e.pid e.classId) := by
  constructor
  · rintro ⟨o, ho, hpid, hclass, hmax⟩ ⟨e', he', hpid', hlt⟩
    have hle : e'.handle ≤ o.handle := hmax e' (by simp [he']) hpid'
    have hne : o ≠ e := fun heq => UInt64.not_le.mpr hlt (heq ▸ hle)
    have hor : o ∈ r := by simpa [hne] using ho
    exact ⟨o, hor, hpid, hclass, fun x hx => hmax x (by simp [hx])⟩
  · intro h
    by_cases hlarger : ∃ e' ∈ r, e'.pid = e.pid ∧ e.handle < e'.handle
    · obtain ⟨o, ho, hpid, hclass, hmax⟩ := h hlarger
      obtain ⟨e', he', hpid', hlt⟩ := hlarger
      refine ⟨o, by simp [ho], hpid, hclass, fun x hx hxpid => ?_⟩
      rcases List.mem_append.mp hx with hx | hx
      · exact hmax x hx hxpid
      · rw [List.mem_singleton.mp hx]
        exact UInt64.le_of_lt (UInt64.lt_of_lt_of_le hlt (hmax e' he' hpid'))
    · refine ⟨e, by simp, rfl, rfl, fun x hx hxpid => ?_⟩
      rcases List.mem_append.mp hx with hx | hx
      · exact UInt64.not_lt.mp fun hlt => hlarger ⟨x, hx, hxpid, hlt⟩
      · rw [List.mem_singleton.mp hx]
        exact UInt64.le_refl _

theorem Owns.mem (h : Owns r pid classId) : ∃ e ∈ r, e.pid = pid := by
  obtain ⟨e, he, hpid, -, -⟩ := h
  exact ⟨e, he, hpid⟩

theorem exists_pid_append_of_ne (h : e.pid ≠ pid) :
    (∃ x ∈ r ++ [e], x.pid = pid) ↔ ∃ x ∈ r, x.pid = pid := by
  grind

/-- A process other than the new one keeps its entries, or owns its place with the ones that are
left. -/
theorem KeepsRegister.of_ne {t : Placed} {fd : Nat} (h : KeepsRegister t fd pid classId)
    {q : Int32} (hq : q ≠ pid) :
    (∀ e, e.pid = q → (e ∈ t.server.registry ↔ e ∈ t.server.others fd)) ∨
      ∃ held, t.place q = some held ∧ Owns (t.server.others fd) q held := by
  by_cases hold : ∃ o ∈ t.server.registry, o.fd = fd ∧ o.pid = q
  · obtain ⟨o, ho, hfd, rfl⟩ := hold
    exact .inr (h.replaced o ho hfd hq)
  · refine .inl fun e heq => ?_
    simp only [ConsumerApiServer.others, List.mem_filter, decide_eq_true_eq]
    exact ⟨fun he => ⟨he, fun hfd => hold ⟨e, he, hfd, heq⟩⟩, fun he => he.1⟩

end Register

theorem register_followsRegistry_iff {t : Placed} (ht : FollowsRegistry t.server.registry t.place)
    (fd : Nat) (pid : Int32) (classId : Bytes) :
    FollowsRegistry (t.server.pushEntry fd pid classId).registry
        (Function.update t.place pid (some classId)) ↔ KeepsRegister t fd pid classId := by
  obtain ⟨entry, hentry⟩ : ∃ entry : ConsumerEntry,
      entry = ⟨fd, pid, t.server.nextHandle, classId⟩ := ⟨_, rfl⟩
  have hpushed : (t.server.pushEntry fd pid classId).registry = t.server.others fd ++ [entry] := by
    rw [hentry]
    rfl
  have hpid : entry.pid = pid := by rw [hentry]
  have hself : Owns (t.server.others fd ++ [entry]) pid classId ↔
      ((∃ e ∈ t.server.others fd, e.pid = pid ∧ t.server.nextHandle < e.handle) →
        Owns (t.server.others fd) pid classId) := by
    have happend := owns_append_self (r := t.server.others fd) (e := entry)
    rwa [hentry] at happend ⊢
  rw [hpushed]
  constructor
  · intro hnext
    refine ⟨fun o ho hfd hne => ?_, hself.mp (hnext.owns pid classId (Function.update_self _ _ _))⟩
    have hplace : Function.update t.place pid (some classId) o.pid = t.place o.pid :=
      Function.update_of_ne hne _ _
    have hsome := (ht.placed_iff o.pid).mpr ⟨o, ho, rfl⟩
    obtain ⟨held, hheld⟩ := Option.isSome_iff_exists.mp hsome
    have howns := hnext.owns o.pid held (hplace.trans hheld)
    exact ⟨held, hheld, (owns_append_of_ne (by rw [hpid]; exact hne.symm)).mp howns⟩
  · intro hkeeps
    constructor
    · intro q
      by_cases hq : q = pid
      · rw [hq, Function.update_self]
        exact iff_of_true rfl ⟨entry, by simp, hpid⟩
      · have hne : entry.pid ≠ q := fun heq => hq (heq.symm.trans hpid)
        rw [Function.update_of_ne hq, exists_pid_append_of_ne hne]
        rcases hkeeps.of_ne hq with hsame | ⟨held, hheld, howns⟩
        · rw [ht.placed_iff]
          exact exists_congr fun e => and_congr_left fun heq => hsame e heq
        · rw [hheld]
          exact iff_of_true rfl howns.mem
    · intro q held hheld
      by_cases hq : q = pid
      · rw [hq, Function.update_self, Option.some.injEq] at hheld
        rw [hq, ← hheld]
        exact hself.mpr hkeeps.newest
      · have hne : entry.pid ≠ q := fun heq => hq (heq.symm.trans hpid)
        rw [Function.update_of_ne hq] at hheld
        rw [owns_append_of_ne hne]
        rcases hkeeps.of_ne hq with hsame | ⟨held', hheld', howns⟩
        · exact (owns_congr hsame).mp (ht.owns q held hheld)
        · rw [hheld', Option.some.injEq] at hheld
          rwa [← hheld]

/-! ### Whole runs -/

namespace Placed

open ConsumerApiServer (Event Broken)

def Follows (t : Placed) : Prop := FollowsRegistry t.server.registry t.place

/-- When a step keeps the placement in step. -/
def KeepsPlacement (t : Placed) : Event → Prop
  | .connect _ => True
  | .message fd msg => fd ∈ t.server.clients →
    (msg.type = MsgType.register.code → msg.classId.toString ∈ t.server.classIds →
      KeepsRegister t fd msg.pid msg.classId.toString) ∧
    (msg.type = MsgType.unregister.code →
      ClosedUnderPid (fun e => t.server.registry.find? (·.handle = msg.handle) = some e)
        t.server.registry)
  | .disconnect fd => fd ∈ t.server.clients → ClosedUnderPid (·.fd = fd) t.server.registry
  | .broadcast classId _ _ _ sent => ClosedUnderPid (Broken classId sent) t.server.registry

variable {t : Placed}

/-- A request other than a registration drops the entry it names, if it names one. -/
theorem handleUnregister_releases (hv : t.server.Valid) (fd : Nat) (msg : ApiMsg) :
    Releases (fun e => t.server.registry.find? (·.handle = msg.handle) = some e) t.server.registry
      (t.server.handleUnregister fd msg).1.registry t.place
      (t.place.applyAll (t.server.handleUnregister fd msg).2) := by
  unfold ConsumerApiServer.handleUnregister
  split
  · next hnone => exact (Releases.refl _ _).congr (by simp [hnone])
  · simpa using hv.dropEntry_releases (p := (·.handle = msg.handle)) t.place

theorem after_follows_iff {place : Placement} {r : Handled} :
    (after place r).Follows ↔ FollowsRegistry r.1.registry (place.applyAll r.2) := Iff.rfl

theorem handleRegister_follows_iff (ht : t.Follows) (fd : Nat) (msg : ApiMsg) :
    (after t.place (t.server.handleRegister fd msg)).Follows ↔
      (msg.classId.toString ∈ t.server.classIds →
        KeepsRegister t fd msg.pid msg.classId.toString) := by
  rw [← ConsumerApiServer.findClass_isSome]
  cases hfind : t.server.findClass msg.classId.toString with
  | none =>
    have heq := ConsumerApiServer.handleRegister_of_unknown fd hfind
    rw [heq]
    exact iff_of_true ht fun h => by cases h
  | some cls =>
    have hid : cls.classId = msg.classId.toString := by
      simpa [ConsumerApiServer.findClass] using List.find?_some hfind
    have hiff := register_followsRegistry_iff ht fd msg.pid msg.classId.toString
    rw [ConsumerApiServer.handleRegister_of_known hfind, forall_prop_of_true Option.isSome_some,
      ← hiff, after_follows_iff]
    simp only [Placement.applyAll_cons, Placement.applyAll_nil, Placement.apply, hid]

theorem handle_follows_iff (hv : t.server.Valid) (ht : t.Follows) (fd : Nat) (msg : ApiMsg) :
    (after t.place (t.server.handle fd msg)).Follows ↔
      (msg.type = MsgType.register.code → msg.classId.toString ∈ t.server.classIds →
        KeepsRegister t fd msg.pid msg.classId.toString) ∧
      (msg.type = MsgType.unregister.code →
        ClosedUnderPid (fun e => t.server.registry.find? (·.handle = msg.handle) = some e)
          t.server.registry) := by
  by_cases hreg : msg.type = MsgType.register.code
  · have hnot : msg.type ≠ MsgType.unregister.code := by rw [hreg]; decide
    rw [ConsumerApiServer.handle, if_pos hreg, handleRegister_follows_iff ht]
    exact ⟨fun h => ⟨fun _ => h, fun h' => absurd h' hnot⟩, fun h => h.1 hreg⟩
  by_cases hunreg : msg.type = MsgType.unregister.code
  · rw [ConsumerApiServer.handle, if_neg hreg, if_pos hunreg]
    have hiff := (handleUnregister_releases hv fd msg).followsRegistry_iff ht
    rw [after_follows_iff, hiff]
    exact ⟨fun h => ⟨fun h' => absurd h' hreg, fun _ => h⟩, fun h => h.2 hunreg⟩
  · obtain ⟨reply, heq⟩ := t.server.handle_of_other fd hreg hunreg
    rw [heq]
    exact iff_of_true ht ⟨fun h => absurd h hreg, fun h => absurd h hunreg⟩

theorem step_follows_iff (hv : t.server.Valid) (ht : t.Follows) (e : Event) :
    (t.step e).Follows ↔ t.KeepsPlacement e := by
  cases e with
  | connect fd =>
    refine iff_of_true ?_ trivial
    have hsame : (t.server.handleAccept fd).registry = t.server.registry := by
      unfold ConsumerApiServer.handleAccept
      split <;> rfl
    simpa [Follows, step, after, ConsumerApiServer.step, hsame] using ht
  | message fd msg =>
    simp only [step, ConsumerApiServer.step, KeepsPlacement]
    by_cases hfd : fd ∈ t.server.clients
    · rw [if_pos hfd, forall_prop_of_true hfd]
      exact handle_follows_iff hv ht fd msg
    · rw [if_neg hfd]
      exact iff_of_true ht fun h => absurd h hfd
  | disconnect fd =>
    simp only [step, ConsumerApiServer.step, KeepsPlacement]
    by_cases hfd : fd ∈ t.server.clients
    · rw [if_pos hfd, forall_prop_of_true hfd]
      exact (hv.removeClient_releases t.place).followsRegistry_iff ht
    · rw [if_neg hfd]
      exact iff_of_true ht fun h => absurd h hfd
  | broadcast classId newState iface rssiDbm sent =>
    exact (hv.broadcastPathEvent_releases t.place classId newState iface rssiDbm
      sent).followsRegistry_iff ht

theorem fresh_valid (classes : List PathClassConfig) : (fresh classes).server.Valid :=
  ⟨List.nodup_nil, fun e he => by cases he⟩

theorem fresh_follows (classes : List PathClassConfig) : (fresh classes).Follows :=
  ⟨fun pid => by simp [fresh, ConsumerApiServer.ofClasses], fun pid classId h => by cases h⟩

/-- The placement follows the registry along a run exactly when no step of the run replaces or
drops an entry whose process has to stay in, or to leave, another class. -/
theorem follows_throughout_iff (classes : List PathClassConfig) (events : List Event) :
    StateMachine.Throughout step Follows (fresh classes) events ↔
      StateMachine.StepsMeet step KeepsPlacement (fresh classes) events :=
  StateMachine.throughout_iff_stepsMeet (I := fun t : Placed => t.server.Valid)
    (fun _ e hv => hv.step e) (fun _ e hv ht => step_follows_iff hv ht e) (fresh_valid classes)
    (fresh_follows classes) events

/-- A second `Register` of a connection, for another process, leaves the first process in its
class without an entry. -/
theorem reregistered_process_stays :
    ¬ ∀ (classes : List PathClassConfig) (events : List Event), Accepted classes →
        (∀ fd msg, Event.message fd msg ∈ events → 0 < msg.pid) →
        StateMachine.Throughout step Follows (fresh classes) events := by
  intro h
  have hrun := h pathPolicies [.connect 7, .message 7 (registerMsg 100 "multipath"),
    .message 7 (registerMsg 200 "multipath")] pathPolicies_accepted (by
      intro fd msg hmem
      simp only [List.mem_cons, reduceCtorEq, Event.message.injEq, List.not_mem_nil, false_or,
        or_false] at hmem
      rcases hmem with ⟨-, rfl⟩ | ⟨-, rfl⟩ <;> decide)
  obtain ⟨e, he, hpid⟩ := (hrun.last.placed_iff 100).mp (by decide)
  revert e
  decide

/-- Of two entries of a process one goes: the process is at the root with an entry. -/
example :
    let t := StateMachine.run step (fresh pathPolicies)
      [.connect 7, .connect 8, .message 7 (registerMsg 100 "multipath"),
       .message 8 (registerMsg 100 "multipath"), .disconnect 7]
    t.place 100 = none ∧ t.server.registry.map (·.pid) = [100] := by decide

end Placed
end WifiOffload
