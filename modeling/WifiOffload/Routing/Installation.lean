import WifiOffload.Routing.Isolation
import WifiOffload.Routing.MarkRules

/-!
# Installing a chain again, and removing it

An installation replaces the rules of its chain and adds the jump where it is missing, so a second
one finds what the first one left. The clean-up takes the chain and its jump out of the table.
Whatever else the table holds, in `OUTPUT` or in another chain, stays as it was.
-/

namespace WifiOffload

namespace Table

/-- The chain is there, one rule of `OUTPUT` jumps to it, and no other rule names it. -/
structure Linked (t : Table) (chain : Bytes) : Prop where
  isChain : t.isChain chain
  one_jump : ∃ before jump after, t.output = before ++ jump :: after ∧
    jump.target = .jump chain ∧ ∀ e ∈ before ++ after, e.target.name ≠ chain
  rules_ne : ∀ c ∈ t.chains, ∀ e ∈ c.2, e.target.name ≠ chain

/-- A table that the daemon can have found: without its chain, or with the chain and one jump. -/
def Ready (t : Table) (chain : Bytes) : Prop := t.Free chain ∨ t.Linked chain

/-- The table without the chain and the rules that name it. -/
def without (t : Table) (chain : Bytes) : Table :=
  { output := t.output.filter (·.target.name ≠ chain), chains := t.chains.filter (·.1 ≠ chain) }

/-- What a committed installation leaves. -/
def install (t : Table) (chain : Bytes) (es : List Entry) : Table :=
  (t.putChain chain es).putJump chain

variable {t : Table} {chain : Bytes} {es : List Entry}

theorem isChain_install : (t.install chain es).isChain chain = true := by
  simp [install, isChain, lookup_putChain]

theorem jumpExists_install : jumpExists chain (t.install chain es) = true := by
  obtain ⟨e, he, hname⟩ : ∃ e ∈ (t.install chain es).output, e.target.name = chain :=
    exists_jump_putJump
  exact List.any_eq_true.mpr ⟨e, he, decide_eq_true hname⟩

theorem putJump_of_jumpExists (h : jumpExists chain t = true) : t.putJump chain = t := if_pos h

/-- A second installation changes nothing, whatever the table was before the first one. -/
theorem install_install : (t.install chain es).install chain es = t.install chain es := by
  have hput : (t.install chain es).putChain chain es = t.install chain es := by
    rw [putChain, if_pos isChain_install, install, putJump_setRules, setRules_putChain]
  rw [install, hput]
  exact putJump_of_jumpExists jumpExists_install

theorem chains_filter_setRules :
    (t.setRules chain es).chains.filter (·.1 ≠ chain) = t.chains.filter (·.1 ≠ chain) := by
  rw [setRules]
  induction t.chains with
  | nil => rfl
  | cons c cs ih =>
    by_cases hc : c.1 = chain
    · simpa [hc] using ih
    · simpa [hc] using ih

/-- An installation leaves every other rule and chain in its place. -/
theorem without_install : (t.install chain es).without chain = t.without chain := by
  have hout : (t.install chain es).output.filter (·.target.name ≠ chain) =
      t.output.filter (·.target.name ≠ chain) := by
    unfold install putJump
    split
    · rw [output_putChain]
    · simp [appendOutput]
  have hchains : (t.install chain es).chains.filter (·.1 ≠ chain) =
      t.chains.filter (·.1 ≠ chain) := by
    rw [install, chains_putJump, putChain]
    split
    · exact chains_filter_setRules
    · simp
  rw [without, hout, hchains, without]

theorem Free.install_eq (h : t.Free chain) : t.install chain es =
    { output := t.output ++ [buildJumpEntry chain], chains := t.chains ++ [(chain, es)] } :=
  h.install

theorem Free.linked_install (h : t.Free chain) (hes : ∀ e ∈ es, e.target.name ≠ chain) :
    (t.install chain es).Linked chain := by
  refine ⟨isChain_install, ?_, ?_⟩
  · rw [h.install_eq]
    exact ⟨t.output, buildJumpEntry chain, [], rfl, rfl, by simpa using h.output_ne⟩
  · rw [h.install_eq]
    intro c hc
    rcases List.mem_append.mp hc with hc | hc
    · exact h.rules_ne c hc
    · rw [List.mem_singleton.mp hc]
      exact hes

theorem Linked.jumpExists (h : t.Linked chain) : WifiOffload.jumpExists chain t = true := by
  obtain ⟨before, jump, after, hout, hjump, -⟩ := h.one_jump
  refine List.any_eq_true.mpr ⟨jump, by simp [hout], ?_⟩
  simp [hjump, Target.name]

theorem Linked.install_eq (h : t.Linked chain) : t.install chain es = t.setRules chain es := by
  have hjump : WifiOffload.jumpExists chain (t.setRules chain es) = true := h.jumpExists
  rw [install, putChain, if_pos h.isChain]
  exact putJump_of_jumpExists hjump

theorem Linked.linked_install (h : t.Linked chain) (hes : ∀ e ∈ es, e.target.name ≠ chain) :
    (t.install chain es).Linked chain := by
  refine ⟨isChain_install, ?_, ?_⟩
  · rw [h.install_eq]
    exact h.one_jump
  · rw [h.install_eq]
    intro c hc
    obtain ⟨c', hc', rfl⟩ := List.mem_map.mp hc
    split
    · exact hes
    · exact h.rules_ne c' hc'

theorem Ready.linked_install (h : t.Ready chain) (hes : ∀ e ∈ es, e.target.name ≠ chain) :
    (t.install chain es).Linked chain :=
  h.elim (·.linked_install hes) (·.linked_install hes)

/-! ### Removing a linked chain -/

theorem Linked.output_without (h : t.Linked chain) :
    (deleteJump chain t).output = t.output.filter (·.target.name ≠ chain) := by
  obtain ⟨before, jump, after, hout, hjump, hne⟩ := h.one_jump
  have hname : jump.target.name = chain := by rw [hjump, Target.name]
  have hbefore : ∀ e ∈ before, e.target.name ≠ chain := fun e he => hne e (by simp [he])
  have hafter : ∀ e ∈ after, e.target.name ≠ chain := fun e he => hne e (by simp [he])
  have hfind : t.output.findIdx? (·.target.name = chain) = some before.length := by
    have hnone : before.findIdx? (·.target.name = chain) = none := by
      simpa [List.findIdx?_eq_none_iff] using hbefore
    simp [hout, List.findIdx?_append, hnone, List.findIdx?_cons, hname]
  have hfilter : t.output.filter (·.target.name ≠ chain) = before ++ after := by
    rw [hout, List.filter_append, List.filter_cons,
      List.filter_eq_self.mpr (by simpa using hbefore),
      List.filter_eq_self.mpr (by simpa using hafter)]
    simp [hname]
  rw [hfilter, deleteJump, hfind]
  simp [deleteNumOutput, hout, List.eraseIdx_append_of_length_le]

theorem chains_deleteJump : (deleteJump chain t).chains = t.chains := by
  unfold deleteJump deleteNumOutput
  grind

/-- The rules of the other chains name no chain that has been taken out of `OUTPUT`. -/
theorem Linked.not_isReferenced (h : t.Linked chain) :
    ¬ ((deleteJump chain t).setRules chain []).isReferenced chain := by
  have hout : ∀ e ∈ (deleteJump chain t).output, e.target.name ≠ chain := by
    rw [h.output_without]
    intro e he
    simpa using (List.mem_filter.mp he).2
  have hchains : ∀ c ∈ ((deleteJump chain t).setRules chain []).chains, ∀ e ∈ c.2,
      e.target.name ≠ chain := by
    intro c hc
    obtain ⟨c', hc', rfl⟩ := List.mem_map.mp hc
    rw [chains_deleteJump] at hc'
    split
    · simp
    · exact h.rules_ne c' hc'
  rw [isReferenced, Bool.or_eq_true, List.any_eq_true, List.any_eq_true]
  rintro (⟨e, he, hname⟩ | ⟨c, hc, hname⟩)
  · exact hout e he (of_decide_eq_true hname)
  · obtain ⟨e, he, hname⟩ := List.any_eq_true.mp hname
    exact hchains c hc e he (of_decide_eq_true hname)

/-- The clean-up of a linked chain takes out the chain and the jump, and nothing else. -/
theorem Linked.removeChain_eq (h : t.Linked chain) : removeChain chain t = t.without chain := by
  have hisChain : (deleteJump chain t).isChain chain = true := by
    rw [Table.isChain, chains_deleteJump]
    exact h.isChain
  obtain ⟨rs, hrs⟩ := Option.isSome_iff_exists.mp hisChain
  have hlookup : ((deleteJump chain t).setRules chain []).chains.lookup chain = some [] := by
    rw [setRules, lookup_setRules, hrs, Option.map_some]
  have hdelete : ((deleteJump chain t).setRules chain []).deleteChain chain =
      some (t.without chain) := by
    rw [deleteChain, if_pos ⟨by simp [Table.isChain, hlookup], by simp [rules, hlookup],
      h.not_isReferenced⟩, chains_filter_setRules, chains_deleteJump, without, ← h.output_without]
    rfl
  rw [removeChain, if_pos h.isChain]
  simp only [flushEntries, if_pos hisChain, Option.getD_some, hdelete]

end Table

/-! ## The two installations -/

/-- An installation that went through: it changed its table only, a further run changes nothing
at all, and a clean-up leaves what was there before the chain. -/
structure Installed (add : IptcFaults → Attempt Kernel RoutingError) (remove : Kernel → Kernel)
    (get : Kernel → Table) (put : Table → Kernel → Kernel) (chain : Bytes) (k after : Kernel) :
    Prop where
  frame : after = put (get after) k
  again : ∀ faults, (add faults after).state = after
  one_jump : (get after).Linked chain
  others : (get after).without chain = (get k).without chain
  removed : remove after = put ((get k).without chain) k

/-- Every run ends with an error and the kernel as it was, or with an installation. -/
def InstallsOnce (add : IptcFaults → Attempt Kernel RoutingError) (remove : Kernel → Kernel)
    (get : Kernel → Table) (put : Table → Kernel → Kernel) (chain : Bytes) (k : Kernel) : Prop :=
  ∀ faults, ((add faults k).error ≠ none → (add faults k).state = k) ∧
    ((add faults k).error = none → Installed add remove get put chain k (add faults k).state)

section

variable {get : Kernel → Table} {put : Table → Kernel → Kernel} {chain : Bytes} {es : List Entry}
  {k : Kernel}

theorem installInto_of_error {faults : IptcFaults}
    (h : (installInto faults chain get put es k).error ≠ none) :
    (installInto faults chain get put es k).state = k := by
  unfold installInto at h ⊢
  cases ht : installChain faults chain es (get k) with
  | none => rfl
  | some t => simp [ht] at h

theorem installsOnce_installInto (hget : ∀ t k, get (put t k) = t)
    (hput : ∀ t t' k, put t (put t' k) = put t k) (hready : (get k).Ready chain)
    (hes : ∀ e ∈ es, e.target.name ≠ chain) :
    InstallsOnce (fun faults => installInto faults chain get put es)
      (fun k => put (removeChain chain (get k)) k) get put chain k := by
  intro faults
  refine ⟨installInto_of_error, fun hok => ?_⟩
  have hlinked := hready.linked_install hes
  rw [installInto_ok hok]
  change Installed _ _ get put chain k (put ((get k).install chain es) k)
  refine ⟨by rw [hget], fun faults' => ?_, by rwa [hget], by rw [hget, Table.without_install], ?_⟩
  · rcases installInto_state faults' chain get put es (put ((get k).install chain es) k) with
      hstate | hstate
    · exact hstate
    · rw [hstate, hget, hput]
      exact congrArg (put · k) Table.install_install
  · simp only [hget, hput, hlinked.removeChain_eq, Table.without_install]

end

theorem target_ne_of_mem_markRules {classes : List PathClassConfig} :
    ∀ e ∈ markRules classes, e.target.name ≠ kNetserviceChain := by
  intro e he
  obtain ⟨cls, -, rfl⟩ := List.mem_map.mp he
  exact (by decide : Bytes.ascii "MARK" ≠ kNetserviceChain)

theorem target_ne_of_mem_dropRules {classes : List PathClassConfig} :
    ∀ e ∈ dropRules classes, e.target.name ≠ kIsoChain := by
  intro e he
  obtain ⟨iface, mark, rfl⟩ := eq_buildDropEntry_of_mem he
  exact (by decide : Bytes.ascii "DROP" ≠ kIsoChain)

/-- Both chains are installed once, and removed without a trace. -/
theorem chains_installed_once (k : Kernel) (classes : List PathClassConfig) :
    (k.mangle.Ready kNetserviceChain →
      InstallsOnce (addIptablesMarkRules · classes) removeIptablesMarkRules (·.mangle)
        (fun t k => { k with mangle := t }) kNetserviceChain k) ∧
    (k.filter.Ready kIsoChain → anyIsolation classes = true →
      InstallsOnce (addDropRules · classes) removeDropRules (·.filter)
        (fun t k => { k with filter := t }) kIsoChain k) := by
  constructor
  · intro hready
    exact installsOnce_installInto (fun _ _ => rfl) (fun _ _ _ => rfl) hready
      target_ne_of_mem_markRules
  · intro hready hany
    simp only [addDropRules, if_pos hany]
    exact installsOnce_installInto (fun _ _ => rfl) (fun _ _ _ => rfl) hready
      target_ne_of_mem_dropRules

/-- Tables with rules of another owner: `mangle` without the daemon's chain, and `filter` with the
chain and the jump of an earlier run between these rules. -/
def foreignRulesKernel : Kernel :=
  let log : Entry := { target := .other (Bytes.ascii "LOG") }
  { mangle := { output := [log], chains := [(Bytes.ascii "custom", [log])] }
    filter := { output := [log, buildJumpEntry kIsoChain, log]
                chains := [(kIsoChain, []), (Bytes.ascii "custom", [log, log])] } }

theorem shipped_chains_installed_once :
    InstallsOnce (addIptablesMarkRules · pathPolicies) removeIptablesMarkRules (·.mangle)
        (fun t k => { k with mangle := t }) kNetserviceChain foreignRulesKernel ∧
      InstallsOnce (addDropRules · pathPolicies) removeDropRules (·.filter)
        (fun t k => { k with filter := t }) kIsoChain foreignRulesKernel :=
  ⟨(chains_installed_once foreignRulesKernel pathPolicies).1
      (.inl ⟨by decide, by decide, by decide⟩),
    (chains_installed_once foreignRulesKernel pathPolicies).2
      (.inr ⟨by decide, ⟨[_], _, [_], rfl, rfl, by decide⟩, by decide⟩) (by decide)⟩

end WifiOffload
