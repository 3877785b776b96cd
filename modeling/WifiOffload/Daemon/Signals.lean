import WifiOffload.Daemon.Reload
import WifiOffload.Library.Potential

/-!
# Signals and the event loop of `main`

`main` and its watchdog thread, statement by statement, with signals that arrive between any two
of them and are delivered to `main` or to another thread. The handler only sets a flag, and `pause`
returns only for a signal that the main thread itself gets: a flag that is set behind the load that
would have seen it waits until `main` gets another signal.
-/

namespace WifiOffload

open StateMachine ConfigLoader

inductive Signal where
  | hup | term | int
  deriving DecidableEq, Repr

/-- Where the main thread is, each in front of the statement of its name. -/
inductive MainPoint where
  | startUp | check | callPause
  /-- in `pause` -/
  | paused
  | exchange | load | join | stopMonitors
  /-- after `std::terminate` -/
  | terminated
  deriving DecidableEq, Repr

inductive WatchdogPoint where
  | notStarted | check | notify
  /-- in front of the condition of the inner loop, after `i` slices -/
  | slice (i : Nat)
  | sleeping (i : Nat)
  | ended
  deriving DecidableEq, Repr

structure MainThreads where
  gShutdown : Bool := false
  gReloadConfig : Bool := false
  /-- what the configuration file holds -/
  file : Option Bytes
  main : MainPoint := .startUp
  loop : MainLoop
  watchdog : WatchdogPoint := .notStarted
  deriving DecidableEq, Repr

inductive MainEvent where
  | signal (sig : Signal) (toMain : Bool)
  | write (content : Option Bytes)
  | main
  | watchdog
  deriving DecidableEq, Repr

namespace MainThreads

variable (bits : Nat) (parse : Bytes → Except JsonException Json)

def handleSignal (sig : Signal) (s : MainThreads) : MainThreads :=
  match sig with
  | .hup => { s with gReloadConfig := true }
  | .term | .int => { s with gShutdown := true }

/-- One statement of `main`. -/
def mainStep (s : MainThreads) : MainThreads :=
  match s.main with
  | .startUp => { s with main := .check, watchdog := .check }
  | .check =>
    if s.gShutdown then
      { s with main := .join, loop := { s.loop with phase := .shuttingDown } }
    else { s with main := .callPause }
  | .callPause => { s with main := .paused }
  | .exchange =>
    if s.gReloadConfig then { s with gReloadConfig := false, main := .load }
    else { s with main := .check }
  | .load =>
    let loop := s.loop.reload bits parse s.file
    { s with loop := loop, main := if loop.phase = .terminated then .terminated else .check }
  | .join => if s.watchdog = .ended then { s with main := .stopMonitors } else s
  | .paused | .stopMonitors | .terminated => s

/-- One statement of the watchdog thread. -/
def watchdogStep (s : MainThreads) : MainThreads :=
  match s.watchdog with
  | .check => { s with watchdog := if s.gShutdown then .ended else .notify }
  | .notify => { s with watchdog := .slice 0 }
  | .slice i => { s with watchdog := if i < 100 ∧ s.gShutdown = false then .sleeping i else .check }
  | .sleeping i => { s with watchdog := .slice (i + 1) }
  | .notStarted | .ended => s

def step (s : MainThreads) (e : MainEvent) : MainThreads :=
  if s.main = .terminated then s
  else
    match e with
    | .signal sig toMain =>
      let s' := s.handleSignal sig
      if s.main = .paused ∧ toMain then { s' with main := .exchange } else s'
    | .write content => { s with file := content }
    | .main => s.mainStep bits parse
    | .watchdog => s.watchdogStep

/-- The process once its handlers are installed. -/
def launched (classes : List PathClassConfig) (file : Option Bytes) : MainThreads :=
  { file := file, loop := .start classes }

/-- A request that `main` does not come to by itself. -/
def Overslept (s : MainThreads) : Prop :=
  match s.main with
  | .startUp | .load | .check => s.gReloadConfig = true ∧ s.gShutdown = false
  | .callPause | .paused => s.gReloadConfig = true ∨ s.gShutdown = true
  | .exchange | .join | .stopMonitors | .terminated => False

/-- A signal comes where `main` still looks at its flag, or has `pause` return. -/
def InTime (s : MainThreads) : MainEvent → Prop
  | .signal sig toMain =>
    match s.main with
    | .startUp | .load | .check => sig = .hup → s.gShutdown = true
    | .callPause => False
    | .paused => toMain = true
    | .exchange | .join | .stopMonitors | .terminated => True
  | .write _ | .main | .watchdog => True

variable {bits : Nat} {parse : Bytes → Except JsonException Json} {s : MainThreads}

theorem step_terminated (h : s.main = .terminated) (e : MainEvent) : s.step bits parse e = s :=
  if_pos h

theorem step_main (h : s.main ≠ .terminated) :
    s.step bits parse .main = s.mainStep bits parse := if_neg h

theorem step_watchdog (h : s.main ≠ .terminated) :
    s.step bits parse .watchdog = s.watchdogStep := if_neg h

theorem step_signal (h : s.main ≠ .terminated) (sig : Signal) (toMain : Bool) :
    s.step bits parse (.signal sig toMain) =
      { s.handleSignal sig with
        main := if s.main = .paused ∧ toMain then .exchange else s.main } := by
  rw [step, if_neg h]
  by_cases hpaused : s.main = .paused ∧ toMain = true <;> cases sig <;>
    simp only [hpaused, handleSignal] <;> simp

theorem watchdogStep_eq (s : MainThreads) :
    s.watchdogStep = { s with watchdog := s.watchdogStep.watchdog } := by
  unfold watchdogStep
  split <;> rfl

/-! ## Requests that are overslept -/

theorem overslept_congr {t : MainThreads} (hmain : s.main = t.main)
    (hreload : s.gReloadConfig = t.gReloadConfig) (hshutdown : s.gShutdown = t.gShutdown) :
    s.Overslept ↔ t.Overslept := by
  simp only [Overslept, hmain, hreload, hshutdown]

theorem not_overslept_mainStep (h : ¬ s.Overslept) : ¬ (s.mainStep bits parse).Overslept := by
  cases hmain : s.main with
  | startUp => simpa [Overslept, mainStep, hmain] using h
  | check =>
    cases hshutdown : s.gShutdown with
    | true => simp [Overslept, mainStep, hmain, hshutdown]
    | false => simpa [Overslept, mainStep, hmain, hshutdown] using h
  | callPause => simpa [Overslept, mainStep, hmain] using h
  | exchange => by_cases hreload : s.gReloadConfig <;> simp [Overslept, mainStep, hmain, hreload]
  | load =>
    by_cases hend : (s.loop.reload bits parse s.file).phase = .terminated
    · simp [Overslept, mainStep, hmain, hend]
    · simpa [Overslept, mainStep, hmain, hend] using h
  | join => by_cases hend : s.watchdog = .ended <;> simp [Overslept, mainStep, hmain, hend]
  | paused | stopMonitors | terminated => simpa [mainStep, hmain] using h

/-- A step has `main` oversleep a request if and only if it is a signal out of its time. -/
theorem not_overslept_step_iff (h : ¬ s.Overslept) (e : MainEvent) :
    ¬ (s.step bits parse e).Overslept ↔ s.InTime e := by
  by_cases hend : s.main = .terminated
  · rw [step_terminated hend]
    cases e <;> simp [h, InTime, hend]
  cases e with
  | write content =>
    refine iff_of_true (mt (overslept_congr ?_ ?_ ?_).mp h) trivial <;> simp [step, hend]
  | main => exact iff_of_true (step_main hend ▸ not_overslept_mainStep h) trivial
  | watchdog =>
    rw [step_watchdog hend, watchdogStep_eq]
    exact iff_of_true h trivial
  | signal sig toMain =>
    cases hmain : s.main <;> cases sig <;> cases toMain <;>
      simp_all [Overslept, InTime, step, handleSignal]

/-- In a run no request is overslept if and only if every signal comes in time: a SIGHUP during the
start-up, the load or the check is too late for its flag, every signal is in front of `pause`, and
in `pause` every signal is that another thread gets. -/
theorem never_overslept_iff (classes : List PathClassConfig) (file : Option Bytes)
    (events : List MainEvent) :
    Throughout (step bits parse) (fun s => ¬ s.Overslept) (launched classes file) events ↔
      StepsMeet (step bits parse) InTime (launched classes file) events :=
  throughout_iff_stepsMeet (I := fun _ => True) (fun _ _ _ => trivial)
    (fun _ e _ h => not_overslept_step_iff h e) trivial (by simp [Overslept, launched]) events

/-! ## Reloads -/

/-- The loads of a step. -/
def loads (s : MainThreads) : MainEvent → Nat
  | .main => if s.main = .load then 1 else 0
  | .signal _ _ | .write _ | .watchdog => 0

/-- The SIGHUPs that the process gets in a step. -/
def hangUps (s : MainThreads) : MainEvent → Nat
  | .signal .hup _ => if s.main = .terminated then 0 else 1
  | .signal _ _ | .write _ | .main | .watchdog => 0

/-- The loads that are asked for. -/
def owed (s : MainThreads) : Nat :=
  (if s.gReloadConfig then 1 else 0) + if s.main = .load then 1 else 0

theorem owed_mainStep (s : MainThreads) :
    (s.mainStep bits parse).owed + s.loads .main = s.owed := by
  cases hmain : s.main with
  | check => by_cases hshutdown : s.gShutdown <;> simp [mainStep, owed, loads, hmain, hshutdown]
  | exchange => by_cases hreload : s.gReloadConfig <;> simp [mainStep, owed, loads, hmain, hreload]
  | load =>
    by_cases hthrow : (s.loop.reload bits parse s.file).phase = .terminated <;>
      simp [mainStep, owed, loads, hmain, hthrow]
  | join => by_cases hended : s.watchdog = .ended <;> simp [mainStep, owed, loads, hmain, hended]
  | startUp | callPause | paused | stopMonitors | terminated =>
    simp [mainStep, owed, loads, hmain]

theorem owed_signal (h : s.main ≠ .terminated) (sig : Signal) (toMain : Bool) :
    (s.step bits parse (.signal sig toMain)).owed =
      if sig = .hup then 1 + if s.main = .load then 1 else 0 else s.owed := by
  by_cases hpaused : s.main = .paused ∧ toMain = true <;> cases sig <;>
    simp [step, h, hpaused, handleSignal, owed]

theorem owed_step (s : MainThreads) (e : MainEvent) :
    (s.step bits parse e).owed + s.loads e ≤ s.owed + s.hangUps e := by
  by_cases hend : s.main = .terminated
  · cases e <;> simp [step_terminated hend, loads, hend]
  cases e with
  | write content => simp [step, hend, owed, loads]
  | watchdog =>
    rw [step_watchdog hend, watchdogStep_eq]
    simp [owed, loads]
  | main => rw [step_main hend, owed_mainStep]; simp
  | signal sig toMain =>
    rw [owed_signal hend]
    cases sig <;> simp only [loads, hangUps, owed, hend] <;> simp
    omega

/-- A load that is asked for is made, or it is still asked for. -/
theorem owed_run (h : 0 < s.owed) (es : List MainEvent) :
    0 < (run (step bits parse) s es).owed ∨ 0 < total (step bits parse) loads s es := by
  induction es generalizing s with
  | nil => exact .inl h
  | cons e es ih =>
    by_cases hload : 0 < s.loads e
    · right
      simp only [total_cons]
      omega
    · have hnext : 0 < (s.step bits parse e).owed := by
        by_cases hend : s.main = .terminated
        · simpa [step_terminated hend] using h
        cases e with
        | write content => simpa [step, hend, owed] using h
        | watchdog => rwa [step_watchdog hend, watchdogStep_eq]
        | main =>
          have hstep := @owed_mainStep bits parse s
          rw [step_main hend]
          omega
        | signal sig toMain =>
          rw [owed_signal hend]
          split <;> omega
      rcases ih hnext with hrun | htotal
      · exact .inl hrun
      · right
        simp only [total_cons]
        omega

/-- In every run there are no more loads than SIGHUPs, and every SIGHUP has the file loaded
afterwards, unless the load is still owed. -/
theorem loads_of_hangUps (classes : List PathClassConfig) (file : Option Bytes)
    (events : List MainEvent) :
    total (step bits parse) loads (launched classes file) events ≤
        total (step bits parse) hangUps (launched classes file) events ∧
      ∀ before toMain after, events = before ++ .signal .hup toMain :: after →
        (run (step bits parse) (launched classes file) before).main ≠ .terminated →
        let t := run (step bits parse) (launched classes file) (before ++ [.signal .hup toMain])
        0 < (run (step bits parse) t after).owed ∨ 0 < total (step bits parse) loads t after := by
  constructor
  · have hle : (run (step bits parse) (launched classes file) events).owed +
        total (step bits parse) loads (launched classes file) events ≤
          (launched classes file).owed +
            total (step bits parse) hangUps (launched classes file) events :=
      potential_le (C := fun _ _ => True) (fun s e _ => owed_step s e)
        (stepsMeet_of_forall (fun _ _ => trivial) _)
    have hstart : (launched classes file).owed = 0 := rfl
    omega
  · intro before toMain after _ halive t
    refine owed_run ?_ after
    simp only [t, run_append, run_cons, run_nil, owed_signal halive, if_pos]
    omega

/-! ## Shutdown -/

/-- The steps of `main` and of its watchdog thread that are not blocked. -/
def moves (s : MainThreads) : MainEvent → Nat
  | .main =>
    match s.main with
    | .startUp | .check | .callPause | .exchange | .load => 1
    | .join => if s.watchdog = .ended then 1 else 0
    | .paused | .stopMonitors | .terminated => 0
  | .watchdog =>
    if s.main = .terminated ∨ s.watchdog = .notStarted ∨ s.watchdog = .ended then 0 else 1
  | .signal _ _ | .write _ => 0

/-- How far `main` is from the end of its event loop once the shutdown is asked for. -/
def MainPoint.left : MainPoint → Nat
  | .startUp | .exchange => 4
  | .load => 3
  | .check => 2
  | .join => 1
  | .callPause | .paused | .stopMonitors | .terminated => 0

def WatchdogPoint.left : WatchdogPoint → Nat
  | .notify | .sleeping _ => 3
  | .slice _ => 2
  | .check => 1
  | .notStarted | .ended => 0

/-- What the two threads have left to do once the shutdown is asked for. -/
def left (s : MainThreads) : Nat := MainPoint.left s.main + WatchdogPoint.left s.watchdog

/-- No thread can go on. -/
def Still (s : MainThreads) : Prop := s.moves .main = 0 ∧ s.moves .watchdog = 0

/-- The watchdog thread runs from the end of the start-up on. -/
def WatchdogRuns (s : MainThreads) : Prop := s.watchdog = .notStarted ↔ s.main = .startUp

/-- The shutdown is asked for, and `main` comes to it. -/
structure Closing (s : MainThreads) : Prop where
  asked : s.gShutdown = true
  awake : s.main ≠ .callPause ∧ s.main ≠ .paused
  watchdog : s.WatchdogRuns

theorem watchdogStep_notStarted_iff (s : MainThreads) :
    s.watchdogStep.watchdog = .notStarted ↔ s.watchdog = .notStarted := by
  cases hpoint : s.watchdog with
  | check => by_cases hshutdown : s.gShutdown <;> simp [watchdogStep, hpoint, hshutdown]
  | slice i => simp only [watchdogStep, hpoint]; split <;> simp
  | notStarted | notify | sleeping i | ended => simp [watchdogStep, hpoint]

theorem WatchdogRuns.step (h : s.WatchdogRuns) (e : MainEvent) :
    (s.step bits parse e).WatchdogRuns := by
  by_cases hend : s.main = .terminated
  · rwa [step_terminated hend]
  cases e with
  | write content => simpa [MainThreads.step, hend, WatchdogRuns] using h
  | watchdog =>
    rw [step_watchdog hend, watchdogStep_eq]
    exact (watchdogStep_notStarted_iff s).trans h
  | signal sig toMain =>
    have hpoint : (if s.main = .paused ∧ toMain = true then MainPoint.exchange else s.main) =
        .startUp ↔ s.main = .startUp := by
      split
      · next hpaused => simp [hpaused.1]
      · rfl
    rw [step_signal hend, WatchdogRuns, hpoint]
    cases sig <;> exact h
  | main =>
    rw [step_main hend]
    cases hmain : s.main with
    | check => by_cases hask : s.gShutdown <;> simpa [mainStep, hmain, hask, WatchdogRuns] using h
    | exchange =>
      by_cases hask : s.gReloadConfig <;> simpa [mainStep, hmain, hask, WatchdogRuns] using h
    | load =>
      by_cases hthrow : (s.loop.reload bits parse s.file).phase = .terminated <;>
        simpa [mainStep, hmain, hthrow, WatchdogRuns] using h
    | join =>
      by_cases hended : s.watchdog = .ended <;> simp [mainStep, hmain, hended, WatchdogRuns]
      simpa [WatchdogRuns, hmain] using h
    | startUp => simp [mainStep, hmain, WatchdogRuns]
    | callPause | paused | stopMonitors | terminated =>
      simpa [mainStep, hmain, WatchdogRuns] using h

theorem Closing.mainStep (h : s.Closing) :
    (s.mainStep bits parse).gShutdown = true ∧ (s.mainStep bits parse).main ≠ .callPause ∧
      (s.mainStep bits parse).main ≠ .paused := by
  obtain ⟨hasked, ⟨hcall, hpaused⟩, -⟩ := h
  cases hmain : s.main with
  | exchange => by_cases hask : s.gReloadConfig <;> simp [MainThreads.mainStep, hmain, hask, hasked]
  | load =>
    by_cases hthrow : (s.loop.reload bits parse s.file).phase = .terminated <;>
      simp [MainThreads.mainStep, hmain, hthrow, hasked]
  | join =>
    by_cases hended : s.watchdog = .ended <;> simp [MainThreads.mainStep, hmain, hended, hasked]
  | callPause => exact absurd hmain hcall
  | paused => exact absurd hmain hpaused
  | startUp | check | stopMonitors | terminated => simp [MainThreads.mainStep, hmain, hasked]

theorem Closing.step (h : s.Closing) (e : MainEvent) : (s.step bits parse e).Closing := by
  suffices hkept : (s.step bits parse e).gShutdown = true ∧
      (s.step bits parse e).main ≠ .callPause ∧ (s.step bits parse e).main ≠ .paused from
    ⟨hkept.1, hkept.2, h.watchdog.step e⟩
  by_cases hend : s.main = .terminated
  · simpa [step_terminated hend, hend] using h.asked
  cases e with
  | write content => simpa [MainThreads.step, hend] using ⟨h.asked, h.awake⟩
  | watchdog =>
    rw [step_watchdog hend, watchdogStep_eq]
    exact ⟨h.asked, h.awake⟩
  | main => rw [step_main hend]; exact h.mainStep
  | signal sig toMain =>
    rw [step_signal hend, if_neg (fun hpaused => h.awake.2 hpaused.1)]
    cases sig <;> exact ⟨by simp [handleSignal, h.asked], h.awake⟩

theorem left_mainStep (h : s.Closing) :
    (s.mainStep bits parse).left + s.moves .main ≤ s.left := by
  obtain ⟨hasked, ⟨hcall, hpaused⟩, hwatchdog⟩ := h
  cases hmain : s.main with
  | startUp =>
    have hstart : s.watchdog = .notStarted := hwatchdog.mpr hmain
    simp [mainStep, hmain, left, moves, MainPoint.left, WatchdogPoint.left, hstart]
  | check => simp [mainStep, hmain, left, moves, MainPoint.left, hasked]
  | exchange =>
    by_cases hask : s.gReloadConfig <;>
      simp [mainStep, hmain, left, moves, MainPoint.left, hask]
  | load =>
    by_cases hthrow : (s.loop.reload bits parse s.file).phase = .terminated <;>
      simp [mainStep, hmain, left, moves, MainPoint.left, hthrow]
  | join =>
    by_cases hended : s.watchdog = .ended <;>
      simp [mainStep, hmain, left, moves, MainPoint.left, hended]
  | callPause => exact absurd hmain hcall
  | paused => exact absurd hmain hpaused
  | stopMonitors | terminated => simp [mainStep, hmain, left, moves]

theorem left_watchdogStep (hasked : s.gShutdown = true) (hend : s.main ≠ .terminated) :
    s.watchdogStep.left + s.moves .watchdog ≤ s.left := by
  rw [watchdogStep_eq]
  cases hpoint : s.watchdog <;>
    simp [watchdogStep, hpoint, left, moves, hend, hasked, WatchdogPoint.left]

theorem left_step (h : s.Closing) (e : MainEvent) :
    (s.step bits parse e).left + s.moves e ≤ s.left := by
  by_cases hend : s.main = .terminated
  · cases e <;> simp [step_terminated hend, moves, hend]
  cases e with
  | write content => simp [step, hend, moves, left]
  | main => rw [step_main hend]; exact left_mainStep h
  | watchdog => rw [step_watchdog hend]; exact left_watchdogStep h.asked hend
  | signal sig toMain =>
    rw [step_signal hend, if_neg (fun hpaused => h.awake.2 hpaused.1)]
    cases sig <;> simp [handleSignal, left, moves]

theorem left_le (s : MainThreads) : s.left ≤ 7 := by
  have hmain : MainPoint.left s.main ≤ 4 := by cases s.main <;> simp [MainPoint.left]
  have hwatchdog : WatchdogPoint.left s.watchdog ≤ 3 := by
    cases s.watchdog <;> simp [WatchdogPoint.left]
  unfold left
  omega

theorem Closing.still (h : s.Closing) (hstill : s.Still) :
    s.main = .stopMonitors ∨ s.main = .terminated := by
  obtain ⟨hmain, hwatchdog⟩ := hstill
  obtain ⟨-, ⟨hcall, hpaused⟩, hruns⟩ := h
  cases hpoint : s.main with
  | stopMonitors => exact .inl rfl
  | terminated => exact .inr rfl
  | callPause => exact absurd hpoint hcall
  | paused => exact absurd hpoint hpaused
  | startUp | check | exchange | load => simp [moves, hpoint] at hmain
  | join =>
    -- the watchdog thread has ended, and `join` returns
    have hstarted : s.watchdog ≠ .notStarted := mt hruns.mp (by simp [hpoint])
    simp_all [moves]

/-- Without a signal `main` stays in front of `pause`, or in it. -/
theorem overslept_step (h : s.main = .callPause ∨ s.main = .paused) {e : MainEvent}
    (he : ∀ sig, e ≠ .signal sig true) :
    (s.step bits parse e).main = .callPause ∨ (s.step bits parse e).main = .paused := by
  have hend : s.main ≠ .terminated := by
    intro hend
    simp [hend] at h
  cases e with
  | write content => simpa [step, hend] using h
  | watchdog =>
    rw [step_watchdog hend, watchdogStep_eq]
    exact h
  | main => rcases h with hmain | hmain <;> simp [step_main hend, mainStep, hmain]
  | signal sig toMain =>
    cases toMain with
    | true => exact absurd rfl (he sig)
    | false =>
      rw [step_signal hend]
      simpa using h

/-- Once a shutdown is asked for, what becomes of it is settled. If `main` has not overslept it, the
two threads come to the end of their loops within seven statements, whatever happens meanwhile and
in whatever order they are scheduled, so that they stand still only there. If `main` has overslept
it, it stays in `pause` until it gets another signal. -/
theorem shutdown_reached (classes : List PathClassConfig) (file : Option Bytes)
    (before after : List MainEvent)
    (hasked : (run (step bits parse) (launched classes file) before).gShutdown = true) :
    let s := run (step bits parse) (launched classes file) before
    let t := run (step bits parse) s after
    (¬ s.Overslept → total (step bits parse) moves s after ≤ 7 ∧
      (t.Still → t.main = .stopMonitors ∨ t.main = .terminated)) ∧
    (s.Overslept → (∀ sig, .signal sig true ∉ after) →
      t.main = .callPause ∨ t.main = .paused) := by
  intro s t
  have hruns : s.WatchdogRuns :=
    (throughout_of_invariant (fun _ e h => h.step e) (by simp [WatchdogRuns, launched]) before).last
  constructor
  · intro hawake
    have hclosing : s.Closing := by
      refine ⟨hasked, ?_, hruns⟩
      constructor <;> intro hmain <;> exact hawake (by simp [Overslept, hmain, s, hasked])
    have hthroughout : Throughout (step bits parse) Closing s after :=
      throughout_of_invariant (fun _ e h => h.step e) hclosing after
    have hle : t.left + total (step bits parse) moves s after ≤ s.left :=
      gain_le (fun _ e h => left_step h.1 e) hthroughout.stepsMeet
    have hbound := left_le s
    exact ⟨by omega, hthroughout.last.still⟩
  · intro hasleep hquiet
    have hmain : s.main = .callPause ∨ s.main = .paused := by
      have hon : s.gShutdown = true := hasked
      unfold Overslept at hasleep
      split at hasleep <;> simp_all
    have hquiet' : ∀ e ∈ after, ∀ sig, e ≠ .signal sig true := by
      rintro e he sig rfl
      exact hquiet sig he
    exact (throughout_of_step (P := fun s => s.main = .callPause ∨ s.main = .paused)
      (fun _ _ h he => overslept_step h he) hmain (stepsMeet_of_forall hquiet' s)).last

/-- `main` gets its SIGTERM in `pause`, and another SIGHUP on the way out. -/
theorem shutdown_reached_paused :
    let parse : Bytes → Except JsonException Json := fun _ => .error .parseError
    let s := run (step 64 parse) (launched pathPolicies none)
      [.main, .main, .main, .watchdog, .watchdog, .signal .term true]
    total (step 64 parse) moves s
      [.main, .watchdog, .main, .watchdog, .signal .hup true, .main, .main, .main] ≤ 7 := by
  intro parse s
  exact ((shutdown_reached pathPolicies none _ _ rfl).1 id).1

/-! ## Watchdog -/

/-- The notifications of a step. -/
def notifies (s : MainThreads) : MainEvent → Nat
  | .watchdog => if s.main ≠ .terminated ∧ s.watchdog = .notify then 1 else 0
  | .signal _ _ | .write _ | .main => 0

/-- The slices of 100 ms that end in a step. -/
def slices (s : MainThreads) : MainEvent → Nat
  | .watchdog =>
    match s.watchdog with
    | .sleeping _ => if s.main = .terminated then 0 else 1
    | .notStarted | .check | .notify | .slice _ | .ended => 0
  | .signal _ _ | .write _ | .main => 0

/-- The slices until the next notification. -/
def WatchdogPoint.ahead : WatchdogPoint → Nat
  | .slice i | .sleeping i => 100 - i
  | .notStarted | .check | .notify | .ended => 0

/-- The inner loop of the watchdog thread is in its bounds. -/
def Bounded (s : MainThreads) : Prop :=
  match s.watchdog with
  | .slice i => i ≤ 100
  | .sleeping i => i < 100
  | .notStarted | .check | .notify | .ended => True

/-- `main` starts the watchdog thread, and no more. -/
theorem mainStep_watchdog (h : s.WatchdogRuns) :
    (s.mainStep bits parse).watchdog = s.watchdog ∨
      s.watchdog = .notStarted ∧ (s.mainStep bits parse).watchdog = .check := by
  cases hmain : s.main with
  | startUp => exact .inr ⟨h.mpr hmain, by simp [mainStep, hmain]⟩
  | check => by_cases hask : s.gShutdown <;> simp [mainStep, hmain, hask]
  | exchange => by_cases hask : s.gReloadConfig <;> simp [mainStep, hmain, hask]
  | join => by_cases hended : s.watchdog = .ended <;> simp [mainStep, hmain, hended]
  | callPause | paused | load | stopMonitors | terminated => simp [mainStep, hmain]

theorem slices_step (h : s.Bounded) (hruns : s.WatchdogRuns) (e : MainEvent) :
    (s.step bits parse e).Bounded ∧
      WatchdogPoint.ahead (s.step bits parse e).watchdog + s.slices e ≤
        WatchdogPoint.ahead s.watchdog + 100 * s.notifies e ∧
      (s.gShutdown = false → WatchdogPoint.ahead s.watchdog + 100 * s.notifies e ≤
        WatchdogPoint.ahead (s.step bits parse e).watchdog + s.slices e) := by
  by_cases hend : s.main = .terminated
  · rw [step_terminated hend]
    refine ⟨h, ?_, fun _ => ?_⟩ <;> cases e <;> cases hpoint : s.watchdog <;>
      simp [slices, notifies, hend, hpoint]
  cases e with
  | write content => simpa [step, hend, slices, notifies, Bounded] using h
  | main =>
    rw [step_main hend]
    rcases @mainStep_watchdog bits parse s hruns with hsame | ⟨hnot, hcheck⟩
    · simpa [Bounded, hsame, slices, notifies] using h
    · simp [Bounded, hnot, hcheck, slices, notifies, WatchdogPoint.ahead]
  | signal sig toMain =>
    rw [step_signal hend]
    cases sig <;> simpa [handleSignal, slices, notifies, Bounded] using h
  | watchdog =>
    rw [step_watchdog hend, watchdogStep_eq]
    cases hpoint : s.watchdog with
    | check =>
      by_cases hask : s.gShutdown <;>
        simp [watchdogStep, hpoint, hask, Bounded, slices, notifies, WatchdogPoint.ahead]
    | notify => simp [watchdogStep, hpoint, Bounded, slices, notifies, hend, WatchdogPoint.ahead]
    | slice i =>
      simp only [Bounded, hpoint] at h
      by_cases hnext : i < 100 ∧ s.gShutdown = false
      · simp [watchdogStep, hpoint, hnext, Bounded, slices, notifies, WatchdogPoint.ahead]
      · -- the loop is left after its last slice, or earlier for the shutdown
        simp only [watchdogStep, hpoint, hnext, Bounded, slices, notifies, WatchdogPoint.ahead]
        simp
        intro hask
        simp only [hask, and_true] at hnext
        omega
    | sleeping i =>
      simp only [Bounded, hpoint] at h
      simp [watchdogStep, hpoint, Bounded, slices, notifies, hend, WatchdogPoint.ahead]
      omega
    | notStarted | ended =>
      simp [watchdogStep, hpoint, Bounded, slices, notifies, WatchdogPoint.ahead]

/-- A flag for the shutdown is never taken back. -/
theorem gShutdown_step (e : MainEvent) (h : (s.step bits parse e).gShutdown = false) :
    s.gShutdown = false := by
  by_cases hend : s.main = .terminated
  · rwa [step_terminated hend] at h
  cases e with
  | write content => simpa [step, hend] using h
  | watchdog => rwa [step_watchdog hend, watchdogStep_eq] at h
  | signal sig toMain =>
    rw [step_signal hend] at h
    cases sig with
    | hup => exact h
    | term | int => simp [handleSignal] at h
  | main =>
    rw [step_main hend] at h
    unfold mainStep at h
    split at h <;> try split at h
    all_goals exact h

/-- In every run the watchdog thread notifies once for 100 slices: it never falls behind by more
than the slices between two notifications, and it is never ahead before the shutdown. -/
theorem watchdog_pace (classes : List PathClassConfig) (file : Option Bytes)
    (events : List MainEvent) :
    let s := launched classes file
    total (step bits parse) slices s events ≤ 100 * total (step bits parse) notifies s events ∧
      ((run (step bits parse) s events).gShutdown = false →
        100 * total (step bits parse) notifies s events ≤
          total (step bits parse) slices s events + 100) := by
  intro s
  have hkept : Throughout (step bits parse) (fun s => s.Bounded ∧ s.WatchdogRuns) s events :=
    throughout_of_invariant (fun _ e h => ⟨(slices_step h.1 h.2 e).1, h.2.step e⟩)
      ⟨trivial, by simp [s, WatchdogRuns, launched]⟩ events
  rw [← total_mul]
  constructor
  · have hle := potential_le (φ := fun s => WatchdogPoint.ahead s.watchdog)
      (fun s e h => (slices_step h.1.1 h.1.2 e).2.1) hkept.stepsMeet
    have hstart : WatchdogPoint.ahead s.watchdog = 0 := rfl
    omega
  · intro hask
    have hopen : Throughout (step bits parse) (fun s => s.gShutdown = false) s events :=
      throughout_of_last (fun _ e h => gShutdown_step e h) hask
    have heq := potential_eq (φ := fun s => WatchdogPoint.ahead s.watchdog)
      (fun s e ⟨h, _⟩ =>
        (slices_step h.1.1 h.1.2 e).2.1.antisymm ((slices_step h.1.1 h.1.2 e).2.2 h.2))
      (hkept.and hopen).stepsMeet
    have hstart : WatchdogPoint.ahead s.watchdog = 0 := rfl
    have hbound : WatchdogPoint.ahead (run (step bits parse) s events).watchdog ≤ 100 := by
      unfold WatchdogPoint.ahead
      split <;> omega
    omega

/-! ## The event loop as a whole -/

/-- The phase of the event loop at a point of `main`. -/
def MainPoint.phase : MainPoint → MainPhase
  | .join | .stopMonitors => .shuttingDown
  | .terminated => .terminated
  | .startUp | .check | .callPause | .paused | .exchange | .load => .waiting

theorem reload_phase (content : Option Bytes) (m : MainLoop) :
    (m.reload bits parse content).phase = .terminated ∨
      (m.reload bits parse content).phase = m.phase := by
  unfold MainLoop.reload
  split <;> simp

theorem mainStep_loop (h : s.loop.phase = MainPoint.phase s.main) :
    ∃ wakes : List Wake,
      (s.mainStep bits parse).loop = run (MainLoop.step bits parse) s.loop wakes ∧
        (wakes.filter (·.reload)).length = s.loads .main ∧
          (s.mainStep bits parse).loop.phase = MainPoint.phase (s.mainStep bits parse).main := by
  cases hmain : s.main with
  | check =>
    rw [hmain] at h
    by_cases hask : s.gShutdown = true
    · refine ⟨[{ shutdown := true }], ?_, by simp [loads, hmain], ?_⟩
      · simp [mainStep, hmain, hask, MainLoop.step, h, MainPoint.phase]
      · simp [mainStep, hmain, hask, MainPoint.phase]
    · exact ⟨[], by simp [mainStep, hmain, hask], by simp [loads, hmain],
        by simpa [mainStep, hmain, hask, MainPoint.phase] using h⟩
  | load =>
    rw [hmain] at h
    refine ⟨[{ reload := true, content := s.file }], ?_, by simp [loads, hmain], ?_⟩
    · simp [mainStep, hmain, MainLoop.step, h, MainPoint.phase]
    · have hphase := @reload_phase bits parse s.file s.loop
      by_cases hthrow : (s.loop.reload bits parse s.file).phase = .terminated
      · simp [mainStep, hmain, hthrow, MainPoint.phase]
      · simpa [mainStep, hmain, hthrow, MainPoint.phase, h] using hphase
  | exchange =>
    refine ⟨[], ?_, by simp [loads, hmain], ?_⟩ <;> by_cases hask : s.gReloadConfig <;>
      simp_all [mainStep, MainPoint.phase]
  | join =>
    refine ⟨[], ?_, by simp [loads, hmain], ?_⟩ <;> by_cases hended : s.watchdog = .ended <;>
      simp_all [mainStep, MainPoint.phase]
  | startUp | callPause | paused | stopMonitors | terminated =>
    exact ⟨[], by simp [mainStep, hmain], by simp [loads, hmain],
      by simpa [mainStep, hmain, MainPoint.phase] using h⟩

theorem step_loop (h : s.loop.phase = MainPoint.phase s.main) (e : MainEvent) :
    ∃ wakes : List Wake,
      (s.step bits parse e).loop = run (MainLoop.step bits parse) s.loop wakes ∧
        (wakes.filter (·.reload)).length = s.loads e ∧
          (s.step bits parse e).loop.phase = MainPoint.phase (s.step bits parse e).main := by
  by_cases hend : s.main = .terminated
  · exact ⟨[], by rw [step_terminated hend]; rfl, by cases e <;> simp [loads, hend],
      by rwa [step_terminated hend]⟩
  cases e with
  | main => rw [step_main hend]; exact mainStep_loop h
  | write content => exact ⟨[], by simp [step, hend], rfl, by simpa [step, hend] using h⟩
  | watchdog =>
    rw [step_watchdog hend, watchdogStep_eq]
    exact ⟨[], rfl, rfl, h⟩
  | signal sig toMain =>
    rw [step_signal hend]
    refine ⟨[], by cases sig <;> rfl, rfl, ?_⟩
    split
    · next hpaused =>
      rw [hpaused.1] at h
      cases sig <;> exact h
    · cases sig <;> exact h

/-- The threads of `main` do to the classes and the log what its event loop does: every run comes
from a list of wakes, with a reload for every load. -/
theorem refines_mainLoop (classes : List PathClassConfig) (file : Option Bytes)
    (events : List MainEvent) :
    ∃ wakes : List Wake,
      (run (step bits parse) (launched classes file) events).loop =
          run (MainLoop.step bits parse) (MainLoop.start classes) wakes ∧
        (wakes.filter (·.reload)).length =
          total (step bits parse) loads (launched classes file) events := by
  suffices h : ∀ s : MainThreads, s.loop.phase = MainPoint.phase s.main → ∃ wakes : List Wake,
      (run (step bits parse) s events).loop = run (MainLoop.step bits parse) s.loop wakes ∧
        (wakes.filter (·.reload)).length = total (step bits parse) loads s events from
    h (launched classes file) rfl
  induction events with
  | nil => exact fun s _ => ⟨[], rfl, rfl⟩
  | cons e es ih =>
    intro s hs
    obtain ⟨now, hnow, hcount, hnext⟩ := @step_loop bits parse s hs e
    obtain ⟨later, hlater, hloads⟩ := ih _ hnext
    refine ⟨now ++ later, ?_, ?_⟩
    · rw [run_append, ← hnow, ← hlater, run_cons]
    · rw [List.filter_append, List.length_append, hcount, hloads, total_cons]

end MainThreads
end WifiOffload
