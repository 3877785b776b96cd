import WifiOffload.Config.Accepted
import WifiOffload.Config.Exceptions
import WifiOffload.Library.StateMachine

/-!
# Reload on SIGHUP

The event loop of `main` as its signals drive it: it waits in `pause`, loads the file again after a
SIGHUP, writes to the log what changed, and leaves for the shutdown after a SIGTERM or SIGINT.
Nothing in `main` catches an exception, so one that escapes from the load ends the process.
-/

namespace WifiOffload

open StateMachine ConfigLoader

/-- What woke `pause`: the flags that the handlers set, and what the file holds by then. -/
structure Wake where
  shutdown : Bool := false
  reload : Bool := false
  content : Option Bytes := none
  deriving DecidableEq, Repr

inductive ReloadLine where
  | reloaded (count : Nat)
  | countChanged (before after : Nat)
  | reloadFailed (e : ConfigError)
  deriving DecidableEq, Repr

inductive MainPhase where
  | waiting | shuttingDown
  /-- after `std::terminate` -/
  | terminated
  deriving DecidableEq, Repr

structure MainLoop where
  pathClasses : List PathClassConfig
  phase : MainPhase := .waiting
  lines : List ReloadLine := []
  deriving DecidableEq, Repr

namespace MainLoop

variable (bits : Nat) (parse : Bytes → Except JsonException Json)

/-- The running classes stay as they are: what a reload finds is only logged. -/
def reload (content : Option Bytes) (m : MainLoop) : MainLoop :=
  match loadFromFile bits parse content with
  | .ok newClasses =>
    let before := m.pathClasses.length
    let after := newClasses.length
    { m with lines := m.lines ++
        .reloaded after :: if after ≠ before then [.countChanged before after] else [] }
  | .error (.returned e) => { m with lines := m.lines ++ [.reloadFailed e] }
  | .error (.thrown _) => { m with phase := .terminated }

def step (m : MainLoop) (w : Wake) : MainLoop :=
  if m.phase ≠ .waiting then m
  else
    let m := if w.reload then m.reload bits parse w.content else m
    if m.phase = .waiting ∧ w.shutdown then { m with phase := .shuttingDown } else m

/-- The event loop after the start-up. -/
def start (classes : List PathClassConfig) : MainLoop := { pathClasses := classes }

/-- The process has not been ended by an exception. -/
def Alive (m : MainLoop) : Prop := m.phase ≠ .terminated

instance : DecidablePred Alive := fun m => inferInstanceAs (Decidable (m.phase ≠ .terminated))

/-- A reload meets a file on which the parser throws nothing but `parse_error`. -/
def ReloadsParsable (m : MainLoop) (w : Wake) : Prop :=
  m.phase = .waiting → w.reload = true → ThrowsParseErrorOnly parse w.content

variable {bits parse} {m : MainLoop}

/-- A reload ends the process exactly where the load throws. -/
theorem alive_reload_iff (hm : m.Alive) (content : Option Bytes) :
    (m.reload bits parse content).Alive ↔ ThrowsParseErrorOnly parse content := by
  rw [← @loadFromFile_neverThrows_iff bits parse content]
  unfold reload
  cases hload : loadFromFile bits parse content with
  | ok newClasses => exact iff_of_true hm (.ok newClasses)
  | error failure =>
    cases failure with
    | returned e => exact iff_of_true hm (.unexpected e)
    | thrown e =>
      refine iff_of_false (fun halive => halive rfl) fun hnever => ?_
      obtain ⟨c, hc⟩ := hnever _ rfl
      cases hc

theorem alive_step_iff (hm : m.Alive) (w : Wake) :
    (m.step bits parse w).Alive ↔ m.ReloadsParsable parse w := by
  unfold step
  split
  · next hphase => exact iff_of_true hm fun h => absurd h hphase
  next hphase =>
  rw [not_not] at hphase
  -- the shutdown is no end by an exception
  have hshutdown (m' : MainLoop) : (if m'.phase = .waiting ∧ w.shutdown = true then
      { m' with phase := .shuttingDown } else m').Alive ↔ m'.Alive := by
    split
    · next h => exact iff_of_true (by simp [Alive]) (by simp [Alive, h.1])
    · exact Iff.rfl
  rw [hshutdown]
  cases hreload : w.reload with
  | false => exact iff_of_true hm fun _ h => by simp [hreload] at h
  | true =>
    rw [if_pos rfl, alive_reload_iff hm]
    exact ⟨fun h _ _ => h, fun h => h hphase hreload⟩

/-- A load, and with it a reload, ends in an exception exactly where the parser throws something
else than `parse_error`. Whatever the document, the loader itself throws nothing; and an event loop
lives through the wakes of a run if and only if every reload of it meets such a content. -/
theorem load_never_throws_iff (bits : Nat) (parse : Bytes → Except JsonException Json) :
    (∀ content, NeverThrows (loadFromFile bits parse content) ↔
      ThrowsParseErrorOnly parse content) ∧
    ∀ classes wakes, Throughout (step bits parse) Alive (start classes) wakes ↔
      StepsMeet (step bits parse) (ReloadsParsable parse) (start classes) wakes := by
  refine ⟨fun content => loadFromFile_neverThrows_iff, fun classes wakes => ?_⟩
  exact throughout_iff_stepsMeet (I := fun _ => True) (fun _ _ _ => trivial)
    (fun m w _ hm => alive_step_iff hm w) trivial (by simp [Alive, start]) wakes

/-- A number that overflows a double: the parser throws `out_of_range`, and the SIGHUP that has the
file reloaded ends the daemon. -/
theorem reload_terminates_on_overflow :
    let text := Bytes.ascii "1e400"
    let parse (content : Bytes) : Except JsonException Json :=
      if content = text then .error .outOfRange else .error .parseError
    ¬ NeverThrows (loadFromFile 64 parse (some text)) ∧
      ¬ Throughout (step 64 parse) Alive (start pathPolicies)
        [{ reload := true, content := some text }] := by
  intro text parse
  refine ⟨fun hnever => ?_, by decide⟩
  obtain ⟨c, hc⟩ := hnever (.thrown .outOfRange) rfl
  cases hc

end MainLoop
end WifiOffload
