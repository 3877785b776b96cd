import WifiOffload.Config.Accepted
import WifiOffload.Fsm.PathStateFsm
import WifiOffload.Library.StateMachine

/-!
# Monotonicity in the signal

Two runs of the state machine side by side, where the second is never worse off: a stronger signal
at each `SignalChange`, lower thresholds, or both. Without a `Connected` the rank of the second
stays at least that of the first. A live machine ignores a `Connected`, while one that lost its
path may come up with it, so a `Connected` can turn the order round.
-/

namespace WifiOffload

open StateMachine

/-- `PathUp` above `PathDegraded` above all other states. -/
def PathState.rank : PathState → Nat
  | .pathUp => 2
  | .pathDegraded => 1
  | .idle | .pathDown | .scanning | .connecting => 0

/-- Two events of one type, other than `Connected`; a `SignalChange` of the second has a signal
at least as strong. -/
structure WpaEvent.NoStronger (weak strong : WpaEvent) : Prop where
  type_eq : weak.type = strong.type
  not_connected : weak.type ≠ .connected
  rssi : weak.type = .signalChange → weak.rssi ≤ strong.rssi

theorem WpaEvent.noStronger_self {ev : WpaEvent} (h : ev.type ≠ .connected) : ev.NoStronger ev where
  type_eq := rfl
  not_connected := h
  rssi _ := le_rfl

/-- Each threshold is at most that of the other setting. -/
structure RssiThresholds.NoHigher (low high : RssiThresholds) : Prop where
  warn : low.warn ≤ high.warn
  drop : low.drop ≤ high.drop

namespace PathStateFsm

/-- The step lemma: the order of two states is kept by events with that order, under thresholds in
the other. Neither pair of thresholds need be in order itself. -/
theorem rank_nextState {s₁ s₂ : PathState} {ev₁ ev₂ : WpaEvent} {t₁ t₂ : RssiThresholds}
    (hrank : s₁.rank ≤ s₂.rank) (hev : ev₁.NoStronger ev₂) (ht : t₂.NoHigher t₁) :
    (nextState s₁ ev₁ t₁).rank ≤ (nextState s₂ ev₂ t₂).rank := by
  obtain ⟨htype, hconnected, hrssi⟩ := hev
  obtain ⟨hwarn, hdrop⟩ := ht
  cases hev₁ : ev₁.type with
  | terminating | disconnected => simp [nextState, ← htype, hev₁, PathState.rank]
  | connected => exact absurd hev₁ hconnected
  | other => simpa [nextState, ← htype, hev₁] using hrank
  | signalChange =>
    have hstronger := hrssi hev₁
    have hev₂ : ev₂.type = .signalChange := htype ▸ hev₁
    cases s₁ with
    | idle | pathDown | scanning | connecting => simp [nextState, hev₁, PathState.rank]
    | pathUp | pathDegraded =>
      -- the other state is live too, and its machine compares a stronger signal with lower bounds
      cases s₂ <;> simp only [PathState.rank] at hrank <;> try omega
      all_goals
        simp only [nextState, hev₁, hev₂]
        split_ifs <;> simp [PathState.rank] <;> omega

/-- The machine after one more event. -/
def react (m : PathStateFsm) (ev : WpaEvent) : PathStateFsm := (m.onWpaEvent ev).1

@[simp] theorem react_state (m : PathStateFsm) (ev : WpaEvent) :
    (m.react ev).state = nextState m.state ev m.config.rssi := onWpaEvent_state m ev

@[simp] theorem react_config (m : PathStateFsm) (ev : WpaEvent) :
    (m.react ev).config = m.config := onWpaEvent_config m ev

/-- The second machine is no worse off, and its thresholds are no higher. -/
structure NoBetter (m₁ m₂ : PathStateFsm) : Prop where
  rank : m₁.state.rank ≤ m₂.state.rank
  thresholds : m₂.config.rssi.NoHigher m₁.config.rssi

theorem noBetter_react {m₁ m₂ : PathStateFsm} {ev₁ ev₂ : WpaEvent} (hm : m₁.NoBetter m₂)
    (hev : ev₁.NoStronger ev₂) : (m₁.react ev₁).NoBetter (m₂.react ev₂) where
  rank := by
    rw [react_state, react_state]
    exact rank_nextState hm.rank hev hm.thresholds
  thresholds := by
    rw [react_config, react_config]
    exact hm.thresholds

theorem noBetter_run {m₁ m₂ : PathStateFsm} {es₁ es₂ : List WpaEvent} (hm : m₁.NoBetter m₂)
    (hes : List.Forall₂ WpaEvent.NoStronger es₁ es₂) :
    (run react m₁ es₁).NoBetter (run react m₂ es₂) :=
  List.rel_foldl (P := NoBetter) (R := WpaEvent.NoStronger)
    (fun _ _ hm _ _ hev => noBetter_react hm hev) hm hes

/-- Stronger signal never yields a worse state. Two event sequences that agree in their types, have
no `Connected` and differ in that each `SignalChange` of the second is at least as strong, fed to
one machine in any state: after every prefix the second run ranks at least as high. The same holds
for one sequence without `Connected` fed to two machines in one state, where `warn` and `drop` of
the second are at most those of the first. -/
theorem stronger_never_worse :
    (∀ (m : PathStateFsm) (es₁ es₂ : List WpaEvent),
      List.Forall₂ WpaEvent.NoStronger es₁ es₂ →
      ∀ n, (run react m (es₁.take n)).state.rank ≤ (run react m (es₂.take n)).state.rank) ∧
    (∀ (m₁ m₂ : PathStateFsm) (es : List WpaEvent), m₁.state = m₂.state →
      m₂.config.rssi.NoHigher m₁.config.rssi → (∀ ev ∈ es, ev.type ≠ .connected) →
      ∀ n, (run react m₁ (es.take n)).state.rank ≤ (run react m₂ (es.take n)).state.rank) := by
  constructor
  · intro m es₁ es₂ hes n
    have hm : m.NoBetter m := ⟨le_rfl, le_rfl, le_rfl⟩
    exact (noBetter_run hm (List.forall₂_take n hes)).rank
  · intro m₁ m₂ es hstate hthresholds hes n
    have hm : m₁.NoBetter m₂ := ⟨(congrArg PathState.rank hstate).le, hthresholds⟩
    have hpairs : List.Forall₂ WpaEvent.NoStronger es es :=
      List.forall₂_same.mpr fun ev hev => WpaEvent.noStronger_self (hes ev hev)
    exact (noBetter_run hm (List.forall₂_take n hpairs)).rank

/-- A path that a strong signal brings back and a weak one does not, and the weak signal under lower
thresholds. -/
theorem stronger_keeps_path :
    let cls := pathPolicies.head (by decide)
    let up : PathStateFsm :=
      { config := cls, state := .pathUp, activeIface := Bytes.ascii "eth0.100" }
    let tolerant : PathStateFsm := { up with config := { cls with rssi := ⟨-90, -95, -99⟩ } }
    let signal (rssi : Int) : WpaEvent :=
      { type := .signalChange, iface := Bytes.ascii "eth0.100", rssi }
    let weak := [signal (-80), signal (-90)]
    let strong := [signal (-76), signal (-70)]
    (run react up (weak.take 2)).state.rank ≤ (run react up (strong.take 2)).state.rank ∧
      (run react up (weak.take 2)).state.rank ≤ (run react tolerant (weak.take 2)).state.rank := by
  intro cls up tolerant signal weak strong
  have hfirst : (signal (-80)).NoStronger (signal (-76)) := ⟨rfl, by decide, by decide⟩
  have hsecond : (signal (-90)).NoStronger (signal (-70)) := ⟨rfl, by decide, by decide⟩
  exact ⟨stronger_never_worse.1 up weak strong (.cons hfirst (.cons hsecond .nil)) 2,
    stronger_never_worse.2 up tolerant weak rfl ⟨by decide, by decide⟩ (by decide) 2⟩

end PathStateFsm
end WifiOffload
