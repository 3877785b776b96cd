import WifiOffload.Wpa.Thread

/-!
# The back-off law

The delay before a new attempt as a function of the log alone: 1 s after a start or an attach,
doubled by every sleep that follows, and capped at 30 s. The variable `backoff` of `start` holds
the next delay, except during a sleep, where it still holds the delay of that sleep.
-/

namespace WifiOffload

open StateMachine

def ThreadEffect.isSleep : ThreadEffect → Bool
  | .sleeps _ => true
  | .ctrlOpen | .attached | .turn _ | .ctrlClose => false

namespace MonitorThread

open WpaMonitor

/-- The sleeps of a log since its last attach, or from its beginning where it has none. -/
def sleepsSinceAttach (effects : List ThreadEffect) : Nat :=
  (effects.reverse.takeWhile (· ≠ .attached)).countP (·.isSleep)

/-- The delay that `k` sleeps in a row lead to. -/
def delay (k : Nat) : Nat := min (2 ^ k) kMaxBackoff

theorem delay_zero : delay 0 = kInitialBackoff := by decide

theorem delay_succ (k : Nat) : delay (k + 1) = min (delay k * 2) kMaxBackoff := by
  simp only [delay, pow_succ]
  omega

theorem delay_pos (k : Nat) : 1 ≤ delay k := by
  have hpow : 0 < 2 ^ k := by positivity
  simp only [delay, kMaxBackoff]
  omega

theorem delay_le (k : Nat) : delay k ≤ kMaxBackoff := Nat.min_le_right _ _

theorem delay_mono {k l : Nat} (h : k ≤ l) : delay k ≤ delay l := by
  have hpow : 2 ^ k ≤ 2 ^ l := Nat.pow_le_pow_right (by decide) h
  simp only [delay]
  omega

@[simp] theorem sleepsSinceAttach_attached (effects : List ThreadEffect) :
    sleepsSinceAttach (effects ++ [.attached]) = 0 := by
  simp [sleepsSinceAttach]

/-- What follows the last attach adds its sleeps. -/
theorem sleepsSinceAttach_append {before later : List ThreadEffect}
    (h : ThreadEffect.attached ∉ later) :
    sleepsSinceAttach (before ++ later) = sleepsSinceAttach before + later.countP (·.isSleep) := by
  have hlater : ∀ x ∈ later.reverse, decide (x ≠ .attached) = true := by
    intro x hx
    have hmem : x ∈ later := List.mem_reverse.mp hx
    exact decide_eq_true fun hx' => h (hx' ▸ hmem)
  simp only [sleepsSinceAttach]
  rw [List.reverse_append, List.takeWhile_append_of_pos hlater, List.countP_append,
    List.countP_reverse, Nat.add_comm]

/-- `start` goes to sleep from the check before the sleep, for the back-off it has. -/
theorem effects_eq_sleeps {t : MonitorThread} {e : ThreadEvent} {seconds : Nat}
    (h : t.effects e = [.sleeps seconds]) : t.pc = .sleepCheck ∧ seconds = t.backoff := by
  cases e with
  | stop => cases h
  | start env =>
    simp only [effects_start, advance] at h
    split at h <;> (try split at h) <;> simp_all

/-- The points of `start` between a successful open and the close. -/
def HoldsCtrl (pc : ThreadPoint) : Bool :=
  match pc with
  | .attach | .eventLoopHead | .poll | .detach => true
  | .reset | .loopHead | .openCtrl | .lostCheck | .sleepCheck | .sleep | .returned => false

/-- `ctrl_` is closed and null again on every way out of the loop body. -/
theorem ctrl_step {t : MonitorThread} (h : t.ctrl = HoldsCtrl t.pc) (e : ThreadEvent) :
    (t.step e).ctrl = HoldsCtrl (t.step e).pc := by
  cases e with
  | stop => simpa using h
  | start env =>
    cases hpc : t.pc <;> rw [hpc] at h <;> simp only [step_start, advance, pollTurn, hpc] <;>
      (try split) <;> simp_all [HoldsCtrl]

/-- `backoff` follows the log. At a sleep the log has the sleep already, and the doubling is still
to come. -/
def Backed (t : MonitorThread) (effects : List ThreadEffect) : Prop :=
  match t.pc with
  | .reset => sleepsSinceAttach effects = 0
  | .sleep => ∃ k, sleepsSinceAttach effects = k + 1 ∧ t.backoff = delay k
  | _ => t.backoff = delay (sleepsSinceAttach effects)

theorem backed_stop {t : MonitorThread} {effects : List ThreadEffect} (h : t.Backed effects) :
    t.stop.Backed effects := by
  simpa only [Backed, stop_pc, stop_backoff] using h

theorem backed_advance {t : MonitorThread} {effects : List ThreadEffect} (h : t.Backed effects)
    (env : Environment) : (t.advance env).1.Backed (effects ++ (t.advance env).2) := by
  -- an effect that is neither a sleep nor an attach leaves the count of the sleeps alone
  have hskip (x : ThreadEffect) (hattached : x ≠ .attached) (hsleep : x.isSleep = false) :
      sleepsSinceAttach (effects ++ [x]) = sleepsSinceAttach effects := by
    rw [sleepsSinceAttach_append (by simpa using hattached.symm)]
    simp [hsleep]
  cases hpc : t.pc with
  | reset =>
    simp only [Backed, hpc] at h
    simp [Backed, advance, hpc, h, delay_zero]
  | loopHead | eventLoopHead | lostCheck =>
    simp only [Backed, hpc] at h
    cases hstop : t.stopRequested <;> simp [Backed, advance, hpc, hstop, h]
  | openCtrl =>
    simp only [Backed, hpc] at h
    cases hopened : env.opened <;>
      simp [Backed, advance, hpc, hopened, h, hskip .ctrlOpen (by simp) rfl]
  | attach =>
    simp only [Backed, hpc] at h
    cases hattached : env.attached with
    | true => simp [Backed, advance, hpc, hattached, delay_zero]
    | false => simp [Backed, advance, hpc, hattached, h, hskip .ctrlClose (by simp) rfl]
  | poll =>
    simp only [Backed, hpc] at h
    have hlog := hskip (.turn (env.polled.outcome env.received)) (by simp) rfl
    simp only [Backed, advance, hpc, hlog]
    rcases pollTurn_pc t (env.polled.outcome env.received) with hnext | hnext <;>
      simpa only [hnext, pollTurn_backoff] using h
  | detach =>
    simp only [Backed, hpc] at h
    simp [Backed, advance, hpc, h, hskip .ctrlClose (by simp) rfl]
  | sleepCheck =>
    simp only [Backed, hpc] at h
    cases hstop : t.stopRequested with
    | true => simp [Backed, advance, hpc, hstop, h]
    | false =>
      have hslept : sleepsSinceAttach (effects ++ [.sleeps t.backoff]) =
          sleepsSinceAttach effects + 1 := sleepsSinceAttach_append (by simp)
      simpa [Backed, advance, hpc, hstop] using ⟨_, hslept, h⟩
  | sleep =>
    simp only [Backed, hpc] at h
    obtain ⟨k, hk, hbackoff⟩ := h
    simp [Backed, advance, hpc, hk, hbackoff, delay_succ]
  | returned => simpa [Backed, advance, hpc] using h

/-- The back-off of a run is the one its log calls for. -/
theorem backed_run (cls : PathClassConfig) (iface : Bytes) (es : List ThreadEvent) :
    (run step (constructed cls iface) es).Backed ((constructed cls iface).log es) := by
  induction es using List.reverseRecOn with
  | nil => rfl
  | append_singleton es e ih =>
    rw [run_append, log_append]
    cases e with
    | stop => simpa using backed_stop ih
    | start env => simpa using backed_advance ih env

/-- Each delay of a log is the one that the sleeps before it lead to. -/
def FollowsDelays (effects : List ThreadEffect) : Prop :=
  ∀ before seconds after, effects = before ++ .sleeps seconds :: after →
    seconds = delay (sleepsSinceAttach before)

theorem followsDelays_log (cls : PathClassConfig) (iface : Bytes) (es : List ThreadEvent) :
    FollowsDelays ((constructed cls iface).log es) := by
  intro before seconds after h
  obtain ⟨pre, e, post, rfl, hpre, he⟩ := observed_eq_append_cons effects_length h
  obtain ⟨hpc, rfl⟩ := effects_eq_sleeps he
  have hbacked := backed_run cls iface pre
  simp only [Backed, hpc] at hbacked
  rw [hbacked, log, hpre]

theorem FollowsDelays.bounded {effects : List ThreadEffect} (h : FollowsDelays effects)
    {seconds : Nat} (hmem : ThreadEffect.sleeps seconds ∈ effects) :
    1 ≤ seconds ∧ seconds ≤ 30 := by
  obtain ⟨before, after, hsplit⟩ := List.append_of_mem hmem
  rw [h before seconds after hsplit]
  exact ⟨delay_pos _, delay_le _⟩

/-- A delay is at least the one before it, unless an attach came in between. -/
theorem FollowsDelays.mono {effects : List ThreadEffect} (h : FollowsDelays effects)
    {before between after : List ThreadEffect} {first second : Nat}
    (hsplit : effects = before ++ .sleeps first :: (between ++ .sleeps second :: after))
    (hbetween : ThreadEffect.attached ∉ between) : first ≤ second := by
  have hfirst : first = delay (sleepsSinceAttach before) := h before first _ hsplit
  have hsecond : second = delay (sleepsSinceAttach (before ++ .sleeps first :: between)) :=
    h _ second after (by simp [hsplit])
  rw [hfirst, hsecond, sleepsSinceAttach_append (by simpa using hbetween)]
  exact delay_mono (Nat.le_add_right _ _)

/-- In every run of `start`, whatever the attempts come to and whenever `stop` is called: each
sleep is of `min (2 ^ k) 30` seconds, where `k` counts the sleeps before it since the last attach,
it lies between 1 and 30 seconds and is no shorter than the one before unless an attach came in
between; `ctrl_` is null during every sleep and once `start` has returned. -/
theorem backoff_law (cls : PathClassConfig) (iface : Bytes) (es : List ThreadEvent) :
    (∀ before seconds after,
      (constructed cls iface).log es = before ++ .sleeps seconds :: after →
        seconds = min (2 ^ sleepsSinceAttach before) 30 ∧ 1 ≤ seconds ∧ seconds ≤ 30) ∧
    (∀ before first between second after, (constructed cls iface).log es =
        before ++ .sleeps first :: (between ++ .sleeps second :: after) →
      ThreadEffect.attached ∉ between → first ≤ second) ∧
    Throughout step (fun t => t.pc = .sleep ∨ t.pc = .returned → t.ctrl = false)
      (constructed cls iface) es := by
  have hlog := followsDelays_log cls iface es
  refine ⟨fun before seconds after h => ⟨hlog before seconds after h, hlog.bounded (by simp [h])⟩,
    fun before first between second after h hbetween => hlog.mono h hbetween, ?_⟩
  have hctrl : Throughout step (fun t => t.ctrl = HoldsCtrl t.pc) (constructed cls iface) es :=
    throughout_of_invariant (fun _ e h => ctrl_step h e) rfl es
  refine hctrl.mono fun t ht => ?_
  rintro (hpc | hpc) <;> rw [ht, hpc] <;> rfl

end MonitorThread
end WifiOffload
