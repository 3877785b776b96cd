import WifiOffload.Fsm.PathStateFsm
import WifiOffload.Library.StateMachine
import WifiOffload.Library.Outstanding

/-!
# Installed routes along a run of the path state machine

The machine installs a default route through `onPathUp` and removes it through `onPathDown`.
The calls of a run are an acquire and release log of (interface, table) pairs, and the run
invariant `OnlyActive` says that the only route that can be outstanding is that of
`activeIface`. A `Terminating` event leaves a live state without teardown, so what holds in
`Idle` and `PathDown` is stated up to such an abandoned route.
-/

namespace WifiOffload

open StateMachine AcquireLog

/-- A machine together with the callbacks it has made so far. -/
structure TracedFsm where
  fsm : PathStateFsm
  calls : List Callback := []
  deriving DecidableEq, Repr

namespace TracedFsm

def fresh (config : PathClassConfig) : TracedFsm := { fsm := { config } }

def feed (r : TracedFsm) (ev : WpaEvent) : TracedFsm :=
  ⟨(r.fsm.onWpaEvent ev).1, r.calls ++ (r.fsm.onWpaEvent ev).2⟩

/-- Every `onPathUp` call is followed by an `onPathDown` call for the same interface and table. -/
def TornDown (calls : List Callback) : Prop :=
  ∀ before iface table after, calls = before ++ .onPathUp iface table :: after →
    .onPathDown iface table ∈ after

/-- No route is left behind once the machine is back in `Idle` or `PathDown`. -/
def NoStaleRoute (r : TracedFsm) : Prop :=
  r.fsm.state = .idle ∨ r.fsm.state = .pathDown → TornDown r.calls ∧ r.fsm.activeIface = []

/-- An event that enters `PathUp` while `activeIface` is set names that interface. -/
def KeepsIface (r : TracedFsm) (ev : WpaEvent) : Prop :=
  r.fsm.state ≠ .pathUp → PathStateFsm.nextState r.fsm.state ev r.fsm.config.rssi = .pathUp →
    r.fsm.activeIface ≠ [] → r.fsm.activeIface = ev.iface

/-- A `Terminating` event came while the path was live, and no teardown was made since. -/
def Abandoned (config : PathClassConfig) (es : List WpaEvent) : Prop :=
  ∃ before ev after since, es = before ++ ev :: after ∧ ev.type = .terminating ∧
    isDownState (run feed (fresh config) before).fsm.state = false ∧
    (run feed (fresh config) es).calls = (run feed (fresh config) before).calls ++ since ∧
    ∀ iface table, .onPathDown iface table ∉ since

/-! ## The calls as an acquire and release log -/

def routeUse : Callback → Option (Use (Bytes × UInt32))
  | .onPathUp iface table => some (.acquire (iface, table))
  | .onPathDown iface table => some (.release (iface, table))
  | .onStateChanged .. => none

def routeUses (calls : List Callback) : List (Use (Bytes × UInt32)) := calls.filterMap routeUse

@[simp] theorem routeUses_append (cs ds : List Callback) :
    routeUses (cs ++ ds) = routeUses cs ++ routeUses ds := List.filterMap_append

@[simp] theorem routeUses_nil : routeUses [] = [] := rfl

@[simp] theorem routeUses_onPathUp (iface : Bytes) (table : UInt32) (cs : List Callback) :
    routeUses (.onPathUp iface table :: cs) = .acquire (iface, table) :: routeUses cs := rfl

@[simp] theorem routeUses_onPathDown (iface : Bytes) (table : UInt32) (cs : List Callback) :
    routeUses (.onPathDown iface table :: cs) = .release (iface, table) :: routeUses cs := rfl

@[simp] theorem routeUses_onStateChanged (previous next : PathState) (iface : Bytes) (rssi : Int)
    (cs : List Callback) :
    routeUses (.onStateChanged previous next iface rssi :: cs) = routeUses cs := rfl

theorem release_mem_routeUses {calls : List Callback} {iface : Bytes} {table : UInt32} :
    .release (iface, table) ∈ routeUses calls ↔ .onPathDown iface table ∈ calls := by
  rw [routeUses, List.mem_filterMap]
  constructor
  · rintro ⟨c, hc, huse⟩
    cases c with
    | onPathDown i t =>
      simp only [routeUse, Option.some.injEq, Use.release.injEq, Prod.mk.injEq] at huse
      obtain ⟨rfl, rfl⟩ := huse
      exact hc
    | onPathUp i t => simp [routeUse] at huse
    | onStateChanged => simp [routeUse] at huse
  · exact fun h => ⟨_, h, rfl⟩

theorem tornDown_iff {calls : List Callback} :
    TornDown calls ↔ ∀ route, ¬ Outstanding (routeUses calls) route := by
  constructor
  · rintro h ⟨iface, table⟩
    refine not_outstanding_iff.mpr fun before after heq => ?_
    obtain ⟨cs, ds, rfl, -, hds⟩ := List.filterMap_eq_append_iff.mp heq
    obtain ⟨es, c, fs, rfl, -, hc, rfl⟩ := List.filterMap_eq_cons_iff.mp hds
    have hup : c = .onPathUp iface table := by
      cases c <;> simp_all [routeUse]
    subst hup
    exact release_mem_routeUses.mpr (h (cs ++ es) iface table fs (by simp))
  · intro h before iface table after heq
    refine release_mem_routeUses.mp (not_outstanding_iff.mp (h (iface, table))
      (routeUses before) (routeUses after) ?_)
    rw [heq, routeUses_append]
    rfl

/-! ## The route of the active interface -/

/-- The one route that is outstanding is that of `activeIface`, while it is set. -/
def OnlyActive (r : TracedFsm) : Prop :=
  ∀ route, Outstanding (routeUses r.calls) route ↔
    r.fsm.activeIface ≠ [] ∧ route = (r.fsm.activeIface, r.fsm.config.routingTable)

theorem onlyActive_fresh (config : PathClassConfig) : OnlyActive (fresh config) := by
  intro route
  simp [fresh, routeUses]

theorem feed_onlyActive {r : TracedFsm} {ev : WpaEvent} (h : OnlyActive r)
    (hname : ev.iface ≠ []) (hkeep : KeepsIface r ev) : OnlyActive (r.feed ev) := by
  intro route
  have hroute := h route
  rcases r.fsm.onWpaEvent_cases ev with ⟨-, hev⟩ | ⟨hne, hup, hev⟩ | ⟨-, -, hev⟩ | ⟨-, -, -, hev⟩
  · simpa [feed, hev] using hroute
  · -- the entry of `PathUp` takes over `activeIface`; a route that was set is the same one
    have hpu : r.fsm.state ≠ .pathUp := fun heq => hne (hup.trans heq.symm)
    have hsame := hkeep hpu hup
    simp only [feed, hev, routeUses_append, routeUses_onPathUp, routeUses_onStateChanged,
      routeUses_nil, outstanding_concat_acquire, hroute]
    constructor
    · rintro (hnew | ⟨hset, hold⟩)
      · exact ⟨hname, hnew⟩
      · exact ⟨hname, by rw [hold, hsame hset]⟩
    · exact fun hnew => .inl hnew.2
  · by_cases hset : r.fsm.activeIface = []
    · simpa [feed, hev, hset] using hroute
    · simp only [feed, hev, routeUses_append, if_pos hset, routeUses_onPathDown,
        routeUses_onStateChanged, routeUses_nil, outstanding_concat_release, hroute, ne_eq]
      tauto
  · simpa [feed, hev] using hroute

theorem onlyActive_run {config : PathClassConfig} {es : List WpaEvent}
    (hnames : ∀ ev ∈ es, ev.iface ≠ []) (hkeep : StepsMeet feed KeepsIface (fresh config) es) :
    Throughout feed OnlyActive (fresh config) es :=
  throughout_of_step (fun _ _ hr hev => feed_onlyActive hr hev.1 hev.2)
    (onlyActive_fresh config) ((stepsMeet_of_forall hnames _).and hkeep)

/-! ## How a route can be left behind -/

/-- A step that makes no teardown keeps the route abandoned. -/
theorem Abandoned.concat {config : PathClassConfig} {es : List WpaEvent} {ev : WpaEvent}
    (h : Abandoned config es) {cs : List Callback}
    (hcs : ((run feed (fresh config) es).fsm.onWpaEvent ev).2 = cs)
    (hno : ∀ iface table, .onPathDown iface table ∉ cs) : Abandoned config (es ++ [ev]) := by
  obtain ⟨before, term, after, since, rfl, hterm, hlive, hcalls, hsince⟩ := h
  refine ⟨before, term, after ++ [ev], since ++ cs, by simp, hterm, hlive, ?_, ?_⟩
  · rw [run_append, run_cons, run_nil, feed, hcs, hcalls, List.append_assoc]
  · intro iface table hmem
    rcases List.mem_append.mp hmem with hmem | hmem
    · exact hsince iface table hmem
    · exact hno iface table hmem

/-- The machine is back in a down state with `activeIface` still set only after a
`Terminating` event in a live state. -/
theorem abandoned_of_activeIface (config : PathClassConfig) (es : List WpaEvent)
    (hdown : isDownState (run feed (fresh config) es).fsm.state = true)
    (hset : (run feed (fresh config) es).fsm.activeIface ≠ []) : Abandoned config es := by
  induction es using List.reverseRecOn with
  | nil => exact absurd rfl hset
  | append_singleton es ev ih =>
    rw [run_append, run_cons, run_nil] at hdown hset
    generalize hr : run feed (fresh config) es = r at hdown hset ih
    rcases r.fsm.onWpaEvent_cases ev with
      ⟨-, hev⟩ | ⟨-, -, hev⟩ | ⟨-, -, hev⟩ | ⟨-, hup, hpd, hev⟩
    · simp only [feed, hev] at hdown hset
      exact (ih hdown hset).concat (by rw [hr, hev]) (by simp)
    · simp [feed, hev, isDownState] at hdown
    · simp [feed, hev] at hset
    · simp only [feed, hev] at hdown hset
      cases hlive : isDownState r.fsm.state with
      | true => exact (ih hlive hset).concat (by rw [hr, hev]) (by simp)
      | false =>
        have hterm : ev.type = .terminating :=
          PathStateFsm.terminating_of_left_live hlive hdown fun h => by simp [hpd h] at hlive
        refine ⟨es, ev, [], (r.fsm.onWpaEvent ev).2, rfl, hterm, by rw [hr]; exact hlive, ?_, ?_⟩
        · rw [run_append, run_cons, run_nil, hr, feed]
        · simp [hev]

/-! ## Teardown along a run -/

/-- Back in `Idle` or `PathDown`, every installed route has been torn down and `activeIface`
is empty, unless a `Terminating` event abandoned the route of `activeIface`, which is then the
only one left. -/
theorem tornDown_or_abandoned (config : PathClassConfig) (es : List WpaEvent)
    (hnames : ∀ ev ∈ es, ev.iface ≠ []) (hkeep : StepsMeet feed KeepsIface (fresh config) es)
    (pre : List WpaEvent) (hpre : pre <+: es) :
    let r := run feed (fresh config) pre
    r.fsm.state = .idle ∨ r.fsm.state = .pathDown →
      (TornDown r.calls ∧ r.fsm.activeIface = []) ∨
      (Abandoned config pre ∧ ∀ before iface table after,
        r.calls = before ++ .onPathUp iface table :: after →
        .onPathDown iface table ∉ after →
        iface = r.fsm.activeIface ∧ table = r.fsm.config.routingTable) := by
  intro r hstate
  have honly : OnlyActive r :=
    throughout_iff_prefixes.mp (onlyActive_run hnames hkeep) pre hpre
  by_cases hset : r.fsm.activeIface = []
  · refine .inl ⟨tornDown_iff.mpr fun route hout => ?_, hset⟩
    exact ((honly route).mp hout).1 hset
  · have hdown : isDownState r.fsm.state = true := by
      rcases hstate with h | h <;> simp [h, isDownState]
    refine .inr ⟨abandoned_of_activeIface config pre hdown hset, ?_⟩
    intro before iface table after hcalls hno
    have hout : Outstanding (routeUses r.calls) (iface, table) := by
      by_contra hnot
      refine hno (release_mem_routeUses.mp (not_outstanding_iff.mp hnot (routeUses before) _ ?_))
      rw [hcalls, routeUses_append, routeUses_onPathUp]
    exact Prod.mk.inj ((honly (iface, table)).mp hout).2

/-- A connection that is lost tears its route down. -/
theorem tornDown_or_abandoned_disconnected :
    let config : PathClassConfig :=
      { id := [109], classid := 1, cgroupPath := [47, 109], interfaces := [[119]],
        mptcpEnabled := false, routingTable := 100, mark := 16, strictIsolation := false,
        rssi := {} }
    let es : List WpaEvent :=
      [{ type := .connected, iface := [119], rssi := -60 },
        { type := .disconnected, iface := [119] }]
    let r := run feed (fresh config) es
    r.calls = [.onPathUp [119] 100, .onStateChanged .idle .pathUp [119] (-60),
        .onPathDown [119] 100, .onStateChanged .pathUp .pathDown [119] 0] ∧
      ((TornDown r.calls ∧ r.fsm.activeIface = []) ∨
        (Abandoned config es ∧ ∀ before iface table after,
          r.calls = before ++ .onPathUp iface table :: after →
          .onPathDown iface table ∉ after →
          iface = r.fsm.activeIface ∧ table = r.fsm.config.routingTable)) := by
  intro config es r
  exact ⟨by decide, tornDown_or_abandoned config es (by decide)
    (by simp only [es, StepsMeet, KeepsIface]; decide) es List.prefix_rfl (by decide)⟩

/-- A `Terminating` event in `PathUp` leaves the route behind; and so does, without any such
event, a recovery of the signal that is reported for another interface. -/
theorem stale_route_left :
    (¬ ∀ config es, (∀ ev ∈ es, ev.iface ≠ []) →
      Throughout feed NoStaleRoute (fresh config) es) ∧
    (¬ ∀ config es, (∀ ev ∈ es, ev.iface ≠ [] ∧ ev.type ≠ .terminating) →
      Throughout feed NoStaleRoute (fresh config) es) := by
  let config : PathClassConfig :=
    { id := [109], classid := 1, cgroupPath := [47, 109], interfaces := [[119]],
      mptcpEnabled := false, routingTable := 100, mark := 16, strictIsolation := false,
      rssi := {} }
  constructor
  · intro h
    have hlast := (h config [{ type := .connected, iface := [119] },
      { type := .terminating, iface := [119] }] (by decide)).last (by decide)
    exact absurd hlast.2 (by decide)
  · intro h
    have hlast := (h config [{ type := .connected, iface := [119] },
      { type := .signalChange, iface := [119], rssi := -80 },
      { type := .signalChange, iface := [120], rssi := -60 },
      { type := .disconnected, iface := [120] }] (by decide)).last (by decide)
    have hmem := hlast.1 [] [119] 100 _ rfl
    exact absurd hmem (by decide)

end TracedFsm
end WifiOffload
