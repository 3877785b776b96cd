import WifiOffload.Daemon.Run

/-!
# The life of an endpoint

The daemon at work while interfaces change their addresses, and next to it whether the path of
one class has been taken down since it was last up. The callbacks only ever add endpoints:
`onPathDown` leaves those of its interface in place, an entry of `PathUp` by any class with MPTCP
adds those of all interfaces that have an address, and an address that an interface has lost
keeps its endpoint. `KeepsEndpoints` is the condition on an event that excludes all three.
-/

namespace WifiOffload

open StateMachine

/-- An endpoint for an interface. -/
def Endpoint.For (host : Host) (iface : Bytes) (e : Endpoint) : Prop :=
  host.ifindex iface ≠ 0 ∧ e.ifindex = host.ifindex iface

instance (host : Host) (iface : Bytes) (e : Endpoint) : Decidable (e.For host iface) :=
  inferInstanceAs (Decidable (_ ∧ _))

/-- An interface has another IPv4 address from now on, or none, as 0. -/
def Host.setAddr4 (host : Host) (name : Bytes) (addr4 : UInt32) : Host :=
  { host with ifaceAddr4 := Function.update host.ifaceAddr4 name addr4 }

@[simp] theorem Host.ifindex_setAddr4 (host : Host) (name : Bytes) (addr4 : UInt32)
    (iface : Bytes) : (host.setAddr4 name addr4).ifindex iface = host.ifindex iface := rfl

namespace PathStateFsm

variable (m : PathStateFsm) (ev : WpaEvent)

/-- The event makes the machine call `onPathUp`. -/
def EntersPathUp : Prop := m.state ≠ .pathUp ∧ nextState m.state ev m.config.rssi = .pathUp

/-- The event makes the machine call `onPathDown`. -/
def LosesPath : Prop :=
  isDownState m.state = false ∧ nextState m.state ev m.config.rssi = .pathDown ∧ m.activeIface ≠ []

/-- The event takes the machine from a down state to a live one. -/
def GoesLive : Prop :=
  isDownState m.state = true ∧ isDownState (nextState m.state ev m.config.rssi) = false

instance : Decidable (m.EntersPathUp ev) := inferInstanceAs (Decidable (_ ∧ _))
instance : Decidable (m.LosesPath ev) := inferInstanceAs (Decidable (_ ∧ _ ∧ _))

end PathStateFsm

/-- Whether a path is taken down, after some more callbacks. -/
def takenDown (down : Bool) (calls : List Callback) : Bool :=
  calls.foldl (fun down call =>
    match call with
    | .onPathUp .. => false
    | .onPathDown .. => true
    | .onStateChanged .. => down) down

/-- The daemon on a host whose addresses change, and whether the `i`-th machine has called
`onPathDown` and not `onPathUp` since. -/
structure TracedPath where
  host : Host
  daemon : Daemon
  down : Bool := false

namespace TracedPath

inductive Event where
  | daemon (e : Daemon.Event)
  /-- The interface `name` has another address. -/
  | address (name : Bytes) (addr4 : UInt32)

def start (host : Host) (classes : List PathClassConfig) (k : Kernel) : TracedPath :=
  { host, daemon := .start classes k }

def callsOf (i : Nat) (d : Daemon) : Daemon.Event → List Callback
  | .wpa j ev _ =>
    match d.fsms[j]? with
    | some m => if j = i then (m.onWpaEvent { ev with iface := m.config.wifiIface }).2 else []
    | none => []
  | _ => []

def step (classes : List PathClassConfig) (i : Nat) (t : TracedPath) : Event → TracedPath
  | .daemon e =>
    { t with
      daemon := t.daemon.step t.host classes e
      down := takenDown t.down (callsOf i t.daemon e) }
  | .address name addr4 => { t with host := t.host.setAddr4 name addr4 }

/-- Where the class of the `i`-th machine has MPTCP, there are endpoints for its interface only
while its path has not been taken down, and while it is live only for its address. -/
def EndpointsFollow (i : Nat) (t : TracedPath) : Prop :=
  ∀ m ∈ t.daemon.fsms[i]?, m.config.mptcpEnabled = true →
    ∀ e ∈ t.daemon.kernel.endpoints, e.For t.host m.config.wifiIface →
      t.down = false ∧
        (isDownState m.state = false → e.addr4 = t.host.addr4 m.config.wifiIface)

instance (i : Nat) : DecidablePred (EndpointsFollow i) := fun t => by
  unfold EndpointsFollow
  infer_instance

/-- Where the class of the `i`-th machine has MPTCP: its path is taken down only while its
interface has no endpoint; it goes live only while its interface has none but for its address; a
class that enters `PathUp` adds no endpoint for the interface while the path is taken down, and
no other than for its address while the path is live; and no address change leaves a live path
with an endpoint for another address. -/
def KeepsEndpoints (classes : List PathClassConfig) (i : Nat) (t : TracedPath) : Event → Prop
  | .daemon (.wpa j ev _) =>
    ∀ m ∈ t.daemon.fsms[i]?, m.config.mptcpEnabled = true →
      let iface := m.config.wifiIface
      (j = i → m.LosesPath ev → ∀ e ∈ t.daemon.kernel.endpoints, ¬ e.For t.host iface) ∧
      (j = i → m.GoesLive ev → ∀ e ∈ t.daemon.kernel.endpoints, e.For t.host iface →
        e.addr4 = t.host.addr4 iface) ∧
      (∀ m' ∈ t.daemon.fsms[j]?, m'.config.mptcpEnabled = true → m'.EntersPathUp ev →
        ∀ e, Adds t.host t.daemon.kernel (endpointIfaces classes) e → e.For t.host iface →
          (j ≠ i → t.down = false) ∧
            (j = i ∨ isDownState m.state = false → e.addr4 = t.host.addr4 iface))
  | .daemon _ => True
  | .address name addr4 =>
    ∀ m ∈ t.daemon.fsms[i]?, m.config.mptcpEnabled = true → isDownState m.state = false →
      ∀ e ∈ t.daemon.kernel.endpoints, e.For t.host m.config.wifiIface →
        e.addr4 = (t.host.setAddr4 name addr4).addr4 m.config.wifiIface

end TracedPath

/-! ## The endpoints behind an event -/

variable {host : Host} {classes : List PathClassConfig} {d : Daemon}

theorem foldl_applyEffect_endpoints (writer : Writer) (running : Int32 → Bool)
    (effects : List Effect) (k : Kernel) :
    (effects.foldl (applyEffect host writer running) k).endpoints = k.endpoints := by
  induction effects generalizing k with
  | nil => rfl
  | cons e effects ih =>
    obtain ⟨tasks, heq⟩ := applyEffect_frame host writer running k e
    rw [List.foldl_cons, ih, heq]

theorem addDefaultRoute_endpoints (iface : Bytes) (gwAddr table : UInt32) (k : Kernel) :
    (addDefaultRoute host none iface gwAddr table k).state.endpoints = k.endpoints := by
  by_cases hif : host.ifindex iface = 0
  · rw [addDefaultRoute_unknown hif]
  · rw [addDefaultRoute_known hif]
    rfl

theorem removeDefaultRoute_endpoints (iface : Bytes) (table : UInt32) (k : Kernel) :
    (removeDefaultRoute host none iface table k).state.endpoints = k.endpoints := by
  by_cases hif : host.ifindex iface = 0
  · rw [removeDefaultRoute_unknown hif]
  · rw [removeDefaultRoute_known hif]
    rfl

theorem mem_endpoints_onPathUp (cls : PathClassConfig) (answers : Answers)
    (p : Kernel × ConsumerApiServer) (iface : Bytes) (table : UInt32) (e : Endpoint) :
    e ∈ (Daemon.onCallback host classes cls answers p (.onPathUp iface table)).1.endpoints ↔
      e ∈ p.1.endpoints ∨ (cls.mptcpEnabled = true ∧ Adds host p.1 (endpointIfaces classes) e) := by
  have hroute : (if answers.gateway ≠ 0 then
      (addDefaultRoute host none iface answers.gateway table p.1).state else p.1).endpoints =
      p.1.endpoints := by
    split
    · exact addDefaultRoute_endpoints _ _ _ _
    · rfl
  simp only [Daemon.onCallback]
  split
  · next hmptcp => rw [mem_endpoints_addEndpoints, adds_congr hroute, hroute, and_iff_right hmptcp]
  · next hmptcp => rw [hroute, or_iff_left fun h => hmptcp h.1]

/-- An event of a monitor adds the endpoints that are missing where it makes a class with MPTCP
enter `PathUp`. -/
theorem mem_endpoints_wpa {j : Nat} {m : PathStateFsm} (hm : d.fsms[j]? = some m) (ev : WpaEvent)
    (answers : Answers) (e : Endpoint) :
    e ∈ (d.step host classes (.wpa j ev answers)).kernel.endpoints ↔
      e ∈ d.kernel.endpoints ∨ (m.config.mptcpEnabled = true ∧ m.EntersPathUp ev ∧
        Adds host d.kernel (endpointIfaces classes) e) := by
  have hchanged (p : Kernel × ConsumerApiServer) (previous next : PathState) (iface : Bytes)
      (rssi : Int) : (Daemon.onCallback host classes m.config answers p
        (.onStateChanged previous next iface rssi)).1.endpoints = p.1.endpoints :=
    foldl_applyEffect_endpoints _ _ _ _
  have hdown (p : Kernel × ConsumerApiServer) (iface : Bytes) (table : UInt32) :
      (Daemon.onCallback host classes m.config answers p (.onPathDown iface table)).1.endpoints =
        p.1.endpoints := removeDefaultRoute_endpoints _ _ _
  have hnext : PathStateFsm.nextState m.state { ev with iface := m.config.wifiIface }
      m.config.rssi = PathStateFsm.nextState m.state ev m.config.rssi := rfl
  simp only [Daemon.step, hm, PathStateFsm.EntersPathUp]
  rcases m.onWpaEvent_cases { ev with iface := m.config.wifiIface } with
    ⟨hsame, hev⟩ | ⟨hne, hup, hev⟩ | ⟨hpd, -, hev⟩ | ⟨hne, hnup, -, hev⟩
  · rw [hnext] at hsame
    rw [hev, List.foldl_nil, hsame]
    grind
  · rw [hnext] at hup hne
    have hstate : m.state ≠ .pathUp := fun h => hne (hup.trans h.symm)
    simp only [hev, List.foldl_cons, List.foldl_nil, hchanged, mem_endpoints_onPathUp, hup, hstate,
      ne_eq, not_false_eq_true, true_and]
  · rw [hnext] at hpd
    rw [hev]
    split <;> simp [hchanged, hdown, hpd]
  · rw [hnext] at hnup
    simp [hev, hchanged, hnup]

/-- An event of the API thread leaves the endpoints and the machines as they are. -/
theorem endpoints_api (answers : Answers) (e : ConsumerApiServer.Event) :
    (d.handleApi host answers e).kernel.endpoints = d.kernel.endpoints :=
  foldl_applyEffect_endpoints _ _ _ _

theorem takenDown_onWpaEvent (m : PathStateFsm) (ev : WpaEvent) (iface : Bytes) (down : Bool) :
    takenDown down (m.onWpaEvent { ev with iface }).2 =
      if m.EntersPathUp ev then false else if m.LosesPath ev then true else down := by
  have hnext : PathStateFsm.nextState m.state { ev with iface } m.config.rssi =
      PathStateFsm.nextState m.state ev m.config.rssi := rfl
  rcases m.onWpaEvent_cases { ev with iface } with
    ⟨hsame, hev⟩ | ⟨hne, hup, hev⟩ | ⟨hpd, hlive, hev⟩ | ⟨hne, hnup, hnpd, hev⟩
  · grind [takenDown, PathStateFsm.EntersPathUp, PathStateFsm.LosesPath, isDownState]
  · grind [takenDown, PathStateFsm.EntersPathUp, PathStateFsm.LosesPath]
  · grind [takenDown, PathStateFsm.EntersPathUp, PathStateFsm.LosesPath]
  · grind [takenDown, PathStateFsm.EntersPathUp, PathStateFsm.LosesPath]

/-! ## One event -/

namespace TracedPath

variable {i : Nat} {t : TracedPath}

/-- An event that changes neither the endpoints nor the machine of the class. -/
theorem EndpointsFollow.congr (h : t.EndpointsFollow i) {t' : TracedPath}
    (hhost : t'.host = t.host) (hfsm : t'.daemon.fsms[i]? = t.daemon.fsms[i]?)
    (hendpoints : t'.daemon.kernel.endpoints = t.daemon.kernel.endpoints)
    (hdown : t'.down = t.down) : t'.EndpointsFollow i := by
  unfold EndpointsFollow at h ⊢
  rwa [hhost, hfsm, hendpoints, hdown]

/-- An event of the machine of the class itself. -/
theorem endpointsFollow_own_iff (h : t.EndpointsFollow i) {m : PathStateFsm}
    (hm : t.daemon.fsms[i]? = some m) (ev : WpaEvent) (answers : Answers) :
    (t.step classes i (.daemon (.wpa i ev answers))).EndpointsFollow i ↔
      t.KeepsEndpoints classes i (.daemon (.wpa i ev answers)) := by
  have hlt : i < t.daemon.fsms.length := (List.getElem?_eq_some_iff.mp hm).1
  have hfsm : (t.step classes i (.daemon (.wpa i ev answers))).daemon.fsms[i]? =
      some (m.onWpaEvent { ev with iface := m.config.wifiIface }).1 := by
    simp only [step, Daemon.step, hm]
    exact List.getElem?_set_self hlt
  have hdown : (t.step classes i (.daemon (.wpa i ev answers))).down =
      if m.EntersPathUp ev then false else if m.LosesPath ev then true else t.down := by
    simp only [step, callsOf, hm, if_true]
    exact takenDown_onWpaEvent m ev _ t.down
  have hmem (e : Endpoint) :
      e ∈ (t.daemon.step t.host classes (.wpa i ev answers)).kernel.endpoints ↔ _ :=
    mem_endpoints_wpa hm ev answers e
  have hbefore := h m hm
  simp only [EndpointsFollow, KeepsEndpoints, hfsm, hdown, hm, Option.mem_def, Option.some.injEq,
    forall_eq', PathStateFsm.onWpaEvent_config, PathStateFsm.onWpaEvent_state, forall_const,
    ne_eq, not_true_eq_false, false_implies, true_and, true_or]
  refine forall_congr' fun hmptcp => ?_
  replace hbefore := hbefore hmptcp
  change (∀ e ∈ (t.daemon.step t.host classes (.wpa i ev answers)).kernel.endpoints,
    e.For t.host m.config.wifiIface → _ ∧ (isDownState (PathStateFsm.nextState m.state ev
      m.config.rssi) = false → e.addr4 = t.host.addr4 m.config.wifiIface)) ↔ _
  simp only [hmem]
  by_cases hup : m.EntersPathUp ev
  · -- the endpoints that were there are for the address where the path was live before
    have hnotLoses : ¬ m.LosesPath ev := fun hloses =>
      absurd (hup.2.symm.trans hloses.2.1) (by decide)
    have hlive : isDownState (PathStateFsm.nextState m.state ev m.config.rssi) = false := by
      rw [hup.2]
      rfl
    cases hs : isDownState m.state <;> grind [PathStateFsm.GoesLive]
  by_cases hloses : m.LosesPath ev
  · have hnotLive : ¬ m.GoesLive ev := fun hgoes =>
      absurd (hloses.1.symm.trans hgoes.1) (by decide)
    grind
  · cases hs : isDownState m.state <;> grind [PathStateFsm.GoesLive]

/-- An event of another machine. -/
theorem endpointsFollow_other_iff (h : t.EndpointsFollow i) {j : Nat} (hj : j ≠ i)
    {m' : PathStateFsm} (hm' : t.daemon.fsms[j]? = some m') (ev : WpaEvent) (answers : Answers) :
    (t.step classes i (.daemon (.wpa j ev answers))).EndpointsFollow i ↔
      t.KeepsEndpoints classes i (.daemon (.wpa j ev answers)) := by
  have hfsm : (t.step classes i (.daemon (.wpa j ev answers))).daemon.fsms[i]? =
      t.daemon.fsms[i]? := by
    simp only [step, Daemon.step, hm']
    exact List.getElem?_set_ne hj
  have hdown : (t.step classes i (.daemon (.wpa j ev answers))).down = t.down := by
    simp only [step, callsOf, hm', if_neg hj]
    rfl
  have hmem (e : Endpoint) :
      e ∈ (t.daemon.step t.host classes (.wpa j ev answers)).kernel.endpoints ↔ _ :=
    mem_endpoints_wpa hm' ev answers e
  simp only [EndpointsFollow, KeepsEndpoints, hfsm, hdown, hm', hj, Option.mem_def,
    Option.some.injEq, forall_eq', false_implies, true_and, false_or, ne_eq, not_false_eq_true,
    forall_const]
  change (∀ m, _ → _ →
    ∀ e ∈ (t.daemon.step t.host classes (.wpa j ev answers)).kernel.endpoints, _) ↔ _
  simp only [hmem]
  constructor
  · intro hafter m hm hmptcp hmptcp' hup e hadds hfor
    exact hafter m hm hmptcp e (.inr ⟨hmptcp', hup, hadds⟩) hfor
  · rintro hkeeps m hm hmptcp e (he | ⟨hmptcp', hup, hadds⟩) hfor
    · exact h m hm hmptcp e he hfor
    · exact hkeeps m hm hmptcp hmptcp' hup e hadds hfor

theorem endpointsFollow_step_iff (h : t.EndpointsFollow i) (e : Event) :
    (t.step classes i e).EndpointsFollow i ↔ t.KeepsEndpoints classes i e := by
  cases e with
  | address name addr4 =>
    constructor
    · intro hafter m hm hmptcp hlive e he hfor
      exact (hafter m hm hmptcp e he hfor).2 hlive
    · intro hkeeps m hm hmptcp e he hfor
      exact ⟨(h m hm hmptcp e he hfor).1, fun hlive => hkeeps m hm hmptcp hlive e he hfor⟩
  | daemon e =>
    cases e with
    | wpa j ev answers =>
      cases hj : t.daemon.fsms[j]? with
      | none =>
        refine iff_of_true ?_ ?_
        · simpa [step, Daemon.step, callsOf, hj, takenDown] using h
        · intro m hm _
          have hji : j ≠ i := by
            rintro rfl
            rw [hj] at hm
            cases hm
          exact ⟨fun h => absurd h hji, fun h => absurd h hji, fun m' hm' => by simp [hj] at hm'⟩
      | some m' =>
        by_cases hij : j = i
        · subst hij
          exact endpointsFollow_own_iff h hj ev answers
        · exact endpointsFollow_other_iff h hij hj ev answers
    | connect fd => exact iff_of_true (h.congr rfl rfl (endpoints_api _ _) rfl) trivial
    | message fd msg answers => exact iff_of_true (h.congr rfl rfl (endpoints_api _ _) rfl) trivial
    | disconnect fd answers => exact iff_of_true (h.congr rfl rfl (endpoints_api _ _) rfl) trivial
    | exit pid => exact iff_of_true (h.congr rfl rfl rfl rfl) trivial

/-! ## Whole runs -/

/-- The endpoints of the `i`-th class follow its path exactly in the runs whose events all meet
the condition. -/
theorem endpoints_follow_iff (host : Host) (classes : List PathClassConfig) (k : Kernel) (i : Nat)
    (es : List Event) :
    Throughout (step classes i) (EndpointsFollow i) (start host classes k) es ↔
      StepsMeet (step classes i) (KeepsEndpoints classes i) (start host classes k) es := by
  refine throughout_iff_stepsMeet (I := fun _ => True) (fun _ _ _ => trivial)
    (fun _ e _ h => endpointsFollow_step_iff h e) trivial ?_ es
  intro m hm _ e _ _
  refine ⟨rfl, fun hlive => ?_⟩
  obtain ⟨cls, -, rfl⟩ := List.mem_map.mp (List.mem_of_getElem? hm)
  cases hlive

/-- The only class of the configuration keeps its endpoint when its path is taken down, and keeps
it when its interface has another address while the path is up. -/
theorem endpoint_outlives_path :
    let classes := pathPolicies.take 1
    let host := vlanHost.setAddr4 (Bytes.ascii "eth0.100") 0x0A000001
    let up : Event := .daemon (.wpa 0 { type := .connected, iface := [], rssi := -60 } {})
    let lost : Event := .daemon (.wpa 0 { type := .disconnected, iface := [] } {})
    let moved : Event := .address (Bytes.ascii "eth0.100") 0x0A000002
    Accepted classes ∧
      ¬ Throughout (step classes 0) (EndpointsFollow 0) (start host classes bootedKernel) [up, lost] ∧
      ¬ Throughout (step classes 0) (EndpointsFollow 0) (start host classes bootedKernel) [up, moved] :=
  ⟨⟨64, .inr rfl, document (pathPoliciesJson.take 1), rfl⟩, by decide, by decide⟩

end TracedPath

end WifiOffload
