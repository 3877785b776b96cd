import WifiOffload.Config.Accepted
import WifiOffload.Library.StateMachine
import WifiOffload.Wpa.ParseEvent

/-!
# What the machine knows of the signal

Messages of `wpa_supplicant` go through `parseEvent` to one machine, and next to it stands what
they report: the values of their words `rssi=<integer>` since the last `Disconnected` or
`Terminating`. An entry into `PathUp` is measured when there is such a report and the last one is
at least the `warn` threshold.

Not every entry is. A `Connected` carries no strength, so its default 0 is what is compared with
the thresholds; and a `SignalChange` is read at its first `rssi=`, wherever that stands, 0 again
where no number is found. `Supported` is the condition on a message that excludes both, and
messages of the documented form always meet it (`documented_supported`).
-/

namespace WifiOffload

open StateMachine

namespace WpaMonitor

/-- The value of a word `rssi=<integer>`. -/
def report (word : Bytes) : Option Int :=
  if Bytes.ascii "rssi=" <+: word then FromChars.integer? (word.drop 5) else none

/-- The values that a message reports. -/
def reports (raw : Bytes) : List Int := (Bytes.words (stripPriority raw)).filterMap report

/-- The last of some values is at least `warn`. -/
def LastAtLeast (warn : Int) (values : List Int) : Prop :=
  match values.getLast? with
  | some v => warn ≤ v
  | none => False

instance (warn : Int) (values : List Int) : Decidable (LastAtLeast warn values) := by
  unfold LastAtLeast
  exact match values.getLast? with
    | some v => inferInstanceAs (Decidable (warn ≤ v))
    | none => inferInstanceAs (Decidable False)

/-- A machine and what has been reported to it since the last `Disconnected` or `Terminating`. -/
structure Measuring where
  fsm : PathStateFsm
  reported : List Int := []

namespace Measuring

def start (cls : PathClassConfig) : Measuring := { fsm := { config := cls } }

def step (iface : Bytes) (t : Measuring) (raw : Bytes) : Measuring :=
  let ev := parseEvent raw iface
  { fsm := (t.fsm.onWpaEvent ev).1
    reported :=
      if ev.type = .disconnected ∨ ev.type = .terminating then [] else t.reported ++ reports raw }

/-- Where the machine enters `PathUp`, the last report is at least `warn`. -/
def Measured (iface : Bytes) (t : Measuring) (raw : Bytes) : Prop :=
  t.fsm.state ≠ .pathUp → (t.step iface raw).fsm.state = .pathUp →
    LastAtLeast t.fsm.config.rssi.warn (t.step iface raw).reported

instance (iface : Bytes) (t : Measuring) (raw : Bytes) : Decidable (t.Measured iface raw) :=
  inferInstanceAs (Decidable (_ → _ → _))

/-- The number in the word behind the first `rssi=` of a message, if there is one. -/
def shown (raw : Bytes) : Option Int :=
  ((Bytes.behind (Bytes.ascii "rssi=") (stripPriority raw)).map Bytes.firstWord).bind FromChars.int?

/-- The last report, that of the message included, is strong; or the message is no `Connected`
that ends a down state with a `warn` of at most 0, and no `SignalChange` of a degraded path that
shows a number of at least `warn`, or none with a `warn` of at most 0. -/
def Supported (t : Measuring) (raw : Bytes) : Prop :=
  let warn := t.fsm.config.rssi.warn
  LastAtLeast warn (t.reported ++ reports raw) ∨
    ((wpaEventConnected <+: stripPriority raw → isDownState t.fsm.state = true → 0 < warn) ∧
      (wpaEventSignalChange <+: stripPriority raw → t.fsm.state = .pathDegraded →
        match shown raw with
        | some v => v < warn
        | none => 0 < warn))

variable {t : Measuring} {raw iface : Bytes}

/-- The number that is compared with the thresholds. -/
theorem parseEvent_rssi_eq : (parseEvent raw iface).rssi =
    if (parseEvent raw iface).type = .signalChange then (shown raw).getD 0 else 0 := by
  rw [parseEvent_rssi, parseIntField_eq, shown]

/-- One message, in any state. -/
theorem measured_iff : t.Measured iface raw ↔ t.Supported raw := by
  have hconnected : (parseEvent raw iface).type = .connected ↔ _ := parseEvent_connected_iff
  have hsignal : (parseEvent raw iface).type = .signalChange ↔ _ := parseEvent_signalChange_iff
  have hrssi : (parseEvent raw iface).rssi = _ := parseEvent_rssi_eq
  unfold Measured Supported
  simp only [step, PathStateFsm.onWpaEvent_state, ← hconnected, ← hsignal]
  by_cases hup : t.fsm.state = .pathUp
  · simp [hup, isDownState]
  rw [PathStateFsm.nextState_eq_pathUp_iff hup, hrssi]
  by_cases hlast : LastAtLeast t.fsm.config.rssi.warn (t.reported ++ reports raw)
  · grind
  · cases hshown : shown raw <;> grind

/-! ## The documented messages -/

/-- `CTRL-EVENT-SIGNAL-CHANGE rssi=X avg_rssi=Y`. -/
def signalChangeMsg (rssi avgRssi : Int) : Bytes :=
  wpaEventSignalChange ++ (Bytes.ascii "rssi=" ++ (FromChars.decimal rssi ++
    32 :: (Bytes.ascii "avg_rssi=" ++ FromChars.decimal avgRssi)))

theorem reports_signalChangeMsg {rssi avgRssi : Int}
    (hraw : stripPriority raw = signalChangeMsg rssi avgRssi) : reports raw = [rssi] := by
  have hrssi := FromChars.space_not_mem_decimal rssi
  have havg := FromChars.space_not_mem_decimal avgRssi
  have hevent : wpaEventSignalChange = Bytes.ascii "CTRL-EVENT-SIGNAL-CHANGE" ++ [32] := by decide
  have hwords : Bytes.words (signalChangeMsg rssi avgRssi) =
      [Bytes.ascii "CTRL-EVENT-SIGNAL-CHANGE", Bytes.ascii "rssi=" ++ FromChars.decimal rssi,
        Bytes.ascii "avg_rssi=" ++ FromChars.decimal avgRssi] := by
    rw [signalChangeMsg, hevent, List.append_assoc, List.singleton_append,
      Bytes.words_append (by decide), ← List.append_assoc, Bytes.words_append,
      Bytes.words_of_not_mem]
    · exact List.not_mem_append (by decide) havg
    · exact List.not_mem_append (by decide) hrssi
  have hvalue : report (Bytes.ascii "rssi=" ++ FromChars.decimal rssi) = some rssi := by
    rw [report, if_pos (List.prefix_append _ _)]
    exact FromChars.integer?_decimal rssi
  have hother : report (Bytes.ascii "avg_rssi=" ++ FromChars.decimal avgRssi) = none :=
    if_neg fun h => absurd (List.cons_prefix_cons.mp h).1 (by decide)
  have hname : report (Bytes.ascii "CTRL-EVENT-SIGNAL-CHANGE") = none := by decide
  rw [reports, hraw, hwords]
  simp [hname, hvalue, hother]

theorem shown_signalChangeMsg {rssi avgRssi : Int}
    (hraw : stripPriority raw = signalChangeMsg rssi avgRssi) (hrange : FromChars.InRange rssi) :
    shown raw = some rssi := by
  have hbehind : Bytes.behind (Bytes.ascii "rssi=") (signalChangeMsg rssi avgRssi) =
      some (FromChars.decimal rssi ++
        32 :: (Bytes.ascii "avg_rssi=" ++ FromChars.decimal avgRssi)) := by
    rw [signalChangeMsg]
    exact (Bytes.behind_skip (by decide) _).trans (Bytes.behind_append _ _)
  rw [shown, hraw, hbehind]
  simp only [Option.map_some, Option.bind_some,
    Bytes.firstWord_append (FromChars.space_not_mem_decimal rssi)]
  exact FromChars.int?_of_integer? (FromChars.integer?_decimal rssi) hrange

/-- A message of the documented form is read as what it reports, and meets the condition. -/
theorem documented_supported {rssi avgRssi : Int}
    (hraw : stripPriority raw = signalChangeMsg rssi avgRssi) (hrange : FromChars.InRange rssi) :
    t.Supported raw := by
  have hsignal : wpaEventSignalChange <+: stripPriority raw := hraw ▸ List.prefix_append _ _
  have hconnected : ¬ wpaEventConnected <+: stripPriority raw :=
    not_both_prefix (by decide) (by decide) hsignal
  unfold Supported
  rw [reports_signalChangeMsg hraw, shown_signalChangeMsg hraw hrange]
  by_cases hstrong : t.fsm.config.rssi.warn ≤ rssi
  · exact .inl (by simpa [LastAtLeast] using hstrong)
  · exact .inr ⟨fun h => absurd h hconnected, fun _ _ => not_le.mp hstrong⟩

/-! ## Whole runs -/

/-- `PathUp` is entered on a strong report only, exactly in the runs whose messages all meet the
condition. -/
theorem pathUp_measured_iff (cls : PathClassConfig) (iface : Bytes) (raws : List Bytes) :
    StepsMeet (step iface) (Measured iface) (start cls) raws ↔
      StepsMeet (step iface) Supported (start cls) raws :=
  stepsMeet_iff_of_invariant (I := fun _ => True) (fun _ _ _ => trivial)
    (fun _ _ _ => measured_iff) trivial raws

/-- The path of `multipath` comes up on a `Connected` that says nothing about the signal, and
after a weak report it comes up again on a message without the field. -/
theorem unmeasured_pathUp :
    let cls := pathPolicies.head (by decide)
    let iface := Bytes.ascii "eth0.100"
    let connected := Bytes.ascii "<3>CTRL-EVENT-CONNECTED - Connection to 02:00:00:00:01:00 completed"
    let weak := Bytes.ascii "<3>CTRL-EVENT-SIGNAL-CHANGE rssi=-80 avg_rssi=-79"
    let bare := Bytes.ascii "<3>CTRL-EVENT-SIGNAL-CHANGE above=0 signal=-84"
    Accepted pathPolicies ∧ cls ∈ pathPolicies ∧
      ¬ StepsMeet (step iface) (Measured iface) (start cls) [connected] ∧
      ¬ Measured iface (run (step iface) (start cls) [connected, weak]) bare :=
  ⟨pathPolicies_accepted, by decide, by decide, by decide⟩

end Measuring
end WpaMonitor
end WifiOffload
