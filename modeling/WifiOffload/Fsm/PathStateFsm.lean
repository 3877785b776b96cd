import WifiOffload.Common.Types

/-!
# The path state machine

`fsm/path_state_fsm.cpp`: the pure transition table `nextState` and the transition that keeps
`activeIface_` and fires the callbacks. All three callbacks are set, as `main` sets them; a call
of the machine returns the callbacks it made, in order.
-/

namespace WifiOffload

inductive WpaEventType where
  | connected | disconnected | signalChange | terminating | other
  deriving DecidableEq, Repr

/-- A parsed `wpa_supplicant` event; the signal fields are 0 unless the event reports them. -/
structure WpaEvent where
  type : WpaEventType
  raw : Bytes := []
  iface : Bytes
  rssi : Int := 0
  avgRssi : Int := 0
  deriving DecidableEq, Repr

/-- One call of `PathStateFsm::Callbacks`. -/
inductive Callback where
  | onPathUp (iface : Bytes) (table : UInt32)
  | onPathDown (iface : Bytes) (table : UInt32)
  | onStateChanged (previous next : PathState) (iface : Bytes) (rssi : Int)
  deriving DecidableEq, Repr

/-- The states in which no live route is installed yet. -/
def isDownState : PathState → Bool
  | .idle | .pathDown | .scanning | .connecting => true
  | .pathUp | .pathDegraded => false

structure PathStateFsm where
  config : PathClassConfig
  state : PathState := .idle
  activeIface : Bytes := []
  deriving DecidableEq, Repr

namespace PathStateFsm

def nextState (current : PathState) (ev : WpaEvent) (thresholds : RssiThresholds) : PathState :=
  match ev.type with
  | .terminating => .idle
  | .disconnected => .pathDown
  | .connected =>
    if isDownState current then
      if ev.rssi ≥ thresholds.warn then .pathUp
      else if ev.rssi ≥ thresholds.drop then .pathDegraded
      else .pathDown
    else current
  | .signalChange =>
    if current = .pathUp then
      if ev.rssi < thresholds.warn then .pathDegraded else .pathUp
    else if current = .pathDegraded then
      if ev.rssi ≥ thresholds.warn then .pathUp
      else if ev.rssi < thresholds.drop then .pathDown
      else .pathDegraded
    else current
  | .other => current

def transition (m : PathStateFsm) (newState : PathState) (iface : Bytes) (rssi : Int) :
    PathStateFsm × List Callback :=
  if newState = m.state then (m, [])
  else
    let changed := Callback.onStateChanged m.state newState iface rssi
    let table := m.config.routingTable
    if newState = .pathUp then
      ({ m with state := newState, activeIface := iface }, [.onPathUp iface table, changed])
    else if newState = .pathDown ∧ (m.state = .pathUp ∨ m.state = .pathDegraded) then
      ({ m with state := newState, activeIface := [] },
        if m.activeIface ≠ [] then [.onPathDown m.activeIface table, changed] else [changed])
    else
      -- every other entry, Terminating from a live state included, leaves `activeIface` alone
      ({ m with state := newState }, [changed])

def onWpaEvent (m : PathStateFsm) (ev : WpaEvent) : PathStateFsm × List Callback :=
  m.transition (nextState m.state ev m.config.rssi) ev.iface ev.rssi

end PathStateFsm

/-! ## What one event can do -/

namespace PathStateFsm

/-- A live state is left for a state other than `PathDown` only by `Terminating`. -/
theorem terminating_of_left_live {s : PathState} {ev : WpaEvent} {t : RssiThresholds}
    (hs : isDownState s = false) (hnext : isDownState (nextState s ev t) = true)
    (hdown : nextState s ev t ≠ .pathDown) : ev.type = .terminating := by
  cases hev : ev.type with
  | terminating => rfl
  | disconnected => simp [nextState, hev] at hdown
  | connected => simp [nextState, hev, hs] at hnext
  | signalChange => cases s <;> grind [nextState, isDownState]
  | other => simp [nextState, hev, hs] at hnext

/-- Another state is left for `PathUp` on a `Connected` or, from a degraded path, on a
`SignalChange`, in both cases with a strength of at least `warn`. -/
theorem nextState_eq_pathUp_iff {s : PathState} {ev : WpaEvent} {t : RssiThresholds}
    (hs : s ≠ .pathUp) : nextState s ev t = .pathUp ↔ t.warn ≤ ev.rssi ∧
      ((ev.type = .connected ∧ isDownState s = true) ∨
        (ev.type = .signalChange ∧ s = .pathDegraded)) := by
  cases hev : ev.type <;> cases s <;> grind [nextState, isDownState]

@[simp] theorem onWpaEvent_state (m : PathStateFsm) (ev : WpaEvent) :
    (m.onWpaEvent ev).1.state = nextState m.state ev m.config.rssi := by
  grind [onWpaEvent, transition]

@[simp] theorem onWpaEvent_config (m : PathStateFsm) (ev : WpaEvent) :
    (m.onWpaEvent ev).1.config = m.config := by
  grind [onWpaEvent, transition]

/-- The four ways an event can be handled. -/
theorem onWpaEvent_cases (m : PathStateFsm) (ev : WpaEvent) :
    let next := nextState m.state ev m.config.rssi
    let changed := Callback.onStateChanged m.state next ev.iface ev.rssi
    (next = m.state ∧ m.onWpaEvent ev = (m, [])) ∨
    (next ≠ m.state ∧ next = .pathUp ∧
      m.onWpaEvent ev = ({ m with state := .pathUp, activeIface := ev.iface },
        [.onPathUp ev.iface m.config.routingTable, changed])) ∨
    (next = .pathDown ∧ isDownState m.state = false ∧
      m.onWpaEvent ev = ({ m with state := .pathDown, activeIface := [] },
        if m.activeIface ≠ [] then [.onPathDown m.activeIface m.config.routingTable, changed]
        else [changed])) ∨
    (next ≠ m.state ∧ next ≠ .pathUp ∧ (next = .pathDown → isDownState m.state = true) ∧
      m.onWpaEvent ev = ({ m with state := next }, [changed])) := by
  intro next changed
  have hlive : (m.state = .pathUp ∨ m.state = .pathDegraded) ↔ isDownState m.state = false := by
    cases m.state <;> simp [isDownState]
  by_cases hsame : next = m.state
  · exact .inl ⟨hsame, by simp [onWpaEvent, transition, next, hsame]⟩
  by_cases hup : next = .pathUp
  · refine .inr (.inl ⟨hsame, hup, ?_⟩)
    simp only [onWpaEvent, transition]
    rw [if_neg hsame, if_pos hup, ← hup]
  by_cases hdown : next = .pathDown ∧ isDownState m.state = false
  · refine .inr (.inr (.inl ⟨hdown.1, hdown.2, ?_⟩))
    simp only [onWpaEvent, transition]
    rw [if_neg hsame, if_neg hup, if_pos ⟨hdown.1, hlive.mpr hdown.2⟩, ← hdown.1]
  · refine .inr (.inr (.inr ⟨hsame, hup, fun h => by simpa [h] using hdown, ?_⟩))
    simp only [onWpaEvent, transition]
    rw [if_neg hsame, if_neg hup, if_neg (by rw [hlive]; exact hdown)]

end PathStateFsm

end WifiOffload
