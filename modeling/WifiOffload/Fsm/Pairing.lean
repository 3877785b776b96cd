import WifiOffload.Fsm.Routes

/-!
# Pairing of the route callbacks

`activeIface` is set by the entry of `PathUp` and cleared by the teardown. It can outlive the
path, through a `Terminating` event, and the path can live without it, when it comes back as
`PathDegraded`; but while it is set, the last route callback is the `onPathUp` that set it.
-/

namespace WifiOffload

open StateMachine AcquireLog

namespace TracedFsm

/-- The last route callback is the one that set `activeIface`, and so far they are paired. -/
structure Linked (config : PathClassConfig) (r : TracedFsm) : Prop where
  config_eq : r.fsm.config = config
  last : r.fsm.activeIface ≠ [] →
    (routeUses r.calls).getLast? = some (.acquire (r.fsm.activeIface, config.routingTable))
  paired : Paired (routeUses r.calls)
  table : ∀ use ∈ routeUses r.calls, use.resource.2 = config.routingTable

variable {config : PathClassConfig} {r : TracedFsm}

theorem linked_fresh (config : PathClassConfig) : Linked config (fresh config) where
  config_eq := rfl
  last h := absurd rfl h
  paired := paired_nil
  table _ h := by cases h

section

variable {r' : TracedFsm} (h : Linked config r) (hconfig : r'.fsm.config = config)
include h hconfig

/-- A step without a route callback leaves `activeIface` alone, or clears it. -/
theorem Linked.idle (huses : routeUses r'.calls = routeUses r.calls)
    (hiface : r'.fsm.activeIface ≠ [] → r'.fsm.activeIface = r.fsm.activeIface) :
    Linked config r' where
  config_eq := hconfig
  last hne := by
    have hsame := hiface hne
    rw [hsame] at hne
    rw [huses, hsame]
    exact h.last hne
  paired := by
    rw [huses]
    exact h.paired
  table := by
    rw [huses]
    exact h.table

/-- The entry of `PathUp` sets `activeIface`. -/
theorem Linked.acquire (huses : routeUses r'.calls =
    routeUses r.calls ++ [.acquire (r'.fsm.activeIface, config.routingTable)]) :
    Linked config r' where
  config_eq := hconfig
  last _ := by simp [huses]
  paired := by
    rw [huses]
    exact h.paired.concat_acquire _
  table := by
    rw [huses]
    exact List.forall_mem_append.mpr ⟨h.table, by simp [Use.resource]⟩

/-- The teardown releases what was acquired last. -/
theorem Linked.release (hset : r.fsm.activeIface ≠ []) (huses : routeUses r'.calls =
    routeUses r.calls ++ [.release (r.fsm.activeIface, config.routingTable)])
    (hclear : r'.fsm.activeIface = []) : Linked config r' where
  config_eq := hconfig
  last hne := absurd hclear hne
  paired := by
    rw [huses]
    exact h.paired.concat_release (h.last hset)
  table := by
    rw [huses]
    exact List.forall_mem_append.mpr ⟨h.table, by simp [Use.resource]⟩

end

theorem Linked.feed (h : Linked config r) (ev : WpaEvent) : Linked config (r.feed ev) := by
  have hconfig := h.config_eq
  rcases r.fsm.onWpaEvent_cases ev with ⟨-, hev⟩ | ⟨-, -, hev⟩ | ⟨-, -, hev⟩ | ⟨-, -, -, hev⟩
  · apply h.idle <;> simp [TracedFsm.feed, hev, hconfig]
  · apply h.acquire <;> simp [TracedFsm.feed, hev, hconfig]
  · by_cases hset : r.fsm.activeIface = []
    · apply h.idle <;> simp [TracedFsm.feed, hev, hset, hconfig]
    · apply h.release _ hset <;> simp [TracedFsm.feed, hev, hset, hconfig]
  · apply h.idle <;> simp [TracedFsm.feed, hev, hconfig]

/-- Every `onPathDown` comes right behind the `onPathUp` for the same interface and table, and
all are for the table of the class. -/
theorem route_callbacks_paired (config : PathClassConfig) (es : List WpaEvent) :
    Paired (routeUses (run feed (fresh config) es).calls) ∧
      ∀ use ∈ routeUses (run feed (fresh config) es).calls,
        use.resource.2 = config.routingTable := by
  have hrun : Throughout feed (Linked config) (fresh config) es :=
    throughout_of_invariant (fun _ ev h => h.feed ev) (linked_fresh config) es
  exact ⟨hrun.last.paired, hrun.last.table⟩

end TracedFsm
end WifiOffload
