import WifiOffload.Common.Types
import WifiOffload.Kernel.Kernel
import WifiOffload.Library.Attempt

/-!
# The daemon's chains

`addIptablesMarkRules` and `addDropRules` edit a table in the same steps: create or flush a user
chain, make sure that `OUTPUT` jumps to it, append rules, commit. `installChain` is these steps
and `putChain`, `putJump` are what they come to; `removeChain` is the shared clean-up. The edits
work on a copy of the table, so a failure before the commit leaves the kernel's table alone.
-/

namespace WifiOffload

def kOutputChain : Bytes := Bytes.ascii "OUTPUT"
def kNetserviceChain : Bytes := Bytes.ascii "NETSERVICE-MARK"
def kIsoChain : Bytes := Bytes.ascii "NETSERVICE-ISO"

/-- `-m cgroup --cgroup classid -j MARK --set-xmark mark/0xffffffff`. -/
def buildMarkEntry (classid mark : UInt32) : Entry :=
  { matching := some (.cgroup classid), target := .mark mark 0xFFFFFFFF }

def buildJumpEntry (toChain : Bytes) : Entry := { target := .jump toChain }

@[simp] theorem buildJumpEntry_target_name (toChain : Bytes) :
    (buildJumpEntry toChain).target.name = toChain := rfl

theorem effect_buildJumpEntry {foreign : Foreign} {onJump : Bytes → Packet → Traversal}
    {chain : Bytes} {p : Packet} :
    (buildJumpEntry chain).effect foreign onJump p = onJump chain p := by
  have hdev : (buildJumpEntry chain).matchesDevice p.device = true := by
    rw [Entry.matchesDevice, decide_eq_true_eq]
    intro i hi
    have hzero : (buildJumpEntry chain).outifaceMask.val.getD i 0 = 0 := by
      simp [buildJumpEntry, CharArray.zero, List.getD_eq_getElem?_getD, hi]
    rw [hzero, UInt8.and_zero]
  have hpkt : (buildJumpEntry chain).matchesPacket p = true := by
    rw [Entry.matchesPacket, hdev]
    rfl
  rw [Entry.effect, if_pos hpkt]
  rfl

/-- `-o outiface -m mark --mark mark/0xffffffff -j DROP`. -/
def buildDropEntry (outiface : Bytes) (mark : UInt32) : Entry :=
  let ifLen := min outiface.length (ifNamSiz - 1)
  { outiface := ⟨Bytes.padTo ifNamSiz (outiface.take ifLen), Bytes.length_padTo ..⟩
    -- the mask covers the zero byte after the name
    outifaceMask := ⟨Bytes.padTo ifNamSiz (List.replicate (ifLen + 1) 0xFF), Bytes.length_padTo ..⟩
    matching := some (.mark mark 0xFFFFFFFF false)
    target := .drop }

/-- The calls of `libiptc` that can fail. -/
inductive IptcCall where
  | init | flush | create | appendJump
  | appendRule (i : Nat)
  | commit
  deriving DecidableEq, Repr

/-- Which calls the environment lets fail. -/
abbrev IptcFaults := IptcCall → Bool

def iptc (faults : IptcFaults) (call : IptcCall) (result : Option Table) : Option Table :=
  if faults call then none else result

/-! ## Editing a table -/

section

variable (faults : IptcFaults) (chain : Bytes)

/-- Create the chain, or flush it when it exists. -/
def resetChain (t : Table) : Option Table :=
  if t.isChain chain then iptc faults .flush (t.flushEntries chain)
  else iptc faults .create (t.createChain chain)

def jumpExists (t : Table) : Bool := t.output.any (·.target.name = chain)

def ensureJump (t : Table) : Option Table :=
  if jumpExists chain t then some t
  else iptc faults .appendJump (some (t.appendOutput (buildJumpEntry chain)))

def appendRules : Nat → List Entry → Table → Option Table
  | _, [], t => some t
  | i, e :: es, t =>
    (iptc faults (.appendRule i) (t.appendEntry chain e)).bind (appendRules (i + 1) es)

def installChain (es : List Entry) (t : Table) : Option Table := do
  let t ← iptc faults .init (some t)
  let t ← resetChain faults chain t
  let t ← ensureJump faults chain t
  let t ← appendRules faults chain 0 es t
  iptc faults .commit (some t)

/-- Edit a table of the kernel: `get` is what `iptc_init` reads and `put` what a commit writes. -/
def installInto (get : Kernel → Table) (put : Table → Kernel → Kernel) (es : List Entry) :
    Attempt Kernel RoutingError := fun k =>
  match installChain faults chain es (get k) with
  | some t => ⟨put t k, none⟩
  | none => ⟨k, some .iptablesError⟩

/-- Delete the first rule of `OUTPUT` that jumps to the chain. -/
def deleteJump (t : Table) : Table :=
  match t.output.findIdx? (·.target.name = chain) with
  | some n => (t.deleteNumOutput n).getD t
  | none => t

/-- The clean-up of a chain; a call that fails is logged and the next one is made. -/
def removeChain (t : Table) : Table :=
  if t.isChain chain then
    let t := deleteJump chain t
    let t := (t.flushEntries chain).getD t
    (t.deleteChain chain).getD t
  else t

end

/-! ## What the edits come to -/

namespace Table

/-- The chain with exactly the given rules. -/
def putChain (t : Table) (chain : Bytes) (es : List Entry) : Table :=
  if t.isChain chain then t.setRules chain es else { t with chains := t.chains ++ [(chain, es)] }

/-- The jump from `OUTPUT`, unless there is one. -/
def putJump (t : Table) (chain : Bytes) : Table :=
  if jumpExists chain t then t else t.appendOutput (buildJumpEntry chain)

variable {t : Table} {chain other : Bytes} {es ds : List Entry}

@[simp] theorem rules_mk_output (es : List Entry) :
    rules { t with output := es } chain = t.rules chain := rfl

theorem lookup_setRules (chains : List (Bytes × List Entry)) :
    (chains.map fun c => if c.1 = chain then (c.1, es) else c).lookup chain =
      (chains.lookup chain).map fun _ => es := by
  induction chains with
  | nil => rfl
  | cons c chains ih =>
    obtain ⟨name, rs⟩ := c
    by_cases hc : chain = name
    · simp [List.lookup, hc]
    · have hname : ¬ name = chain := fun h => hc h.symm
      simp only [List.map_cons, if_neg hname, List.lookup, beq_eq_false_iff_ne.mpr hc, ih]

/-- A chain that is not there has no entry among the chains. -/
theorem ne_of_not_isChain (h : ¬ t.isChain chain) : ∀ c ∈ t.chains, c.1 ≠ chain := by
  intro c hc heq
  rw [isChain, Option.not_isSome_iff_eq_none, List.lookup_eq_none_iff] at h
  simpa [heq] using h c hc

theorem chains_setRules_of_not_isChain (h : ¬ t.isChain chain) :
    t.chains.map (fun c => if c.1 = chain then (c.1, es) else c) = t.chains :=
  (List.map_congr_left fun c hc => if_neg (ne_of_not_isChain h c hc)).trans (List.map_id _)

theorem lookup_putChain : (t.putChain chain es).chains.lookup chain = some es := by
  unfold putChain isChain
  split
  · next h =>
    rw [setRules, lookup_setRules]
    obtain ⟨rs, hrs⟩ := Option.isSome_iff_exists.mp h
    simp [hrs]
  · next h => simp [List.lookup_append, Option.not_isSome_iff_eq_none.mp h]

@[simp] theorem output_putChain : (t.putChain chain es).output = t.output := by
  unfold putChain; split <;> rfl

@[simp] theorem chains_putJump : (t.putJump chain).chains = t.chains := by
  unfold putJump; split <;> rfl

theorem mem_output_putJump {e : Entry} : e ∈ (t.putJump chain).output ↔
    e ∈ t.output ∨ (e = buildJumpEntry chain ∧ ¬ jumpExists chain t) := by
  unfold putJump
  split <;> simp_all [appendOutput]

theorem exists_jump_putJump : ∃ e ∈ (t.putJump chain).output, e.target.name = chain := by
  by_cases h : jumpExists chain t
  · obtain ⟨e, he, hname⟩ := List.any_eq_true.mp h
    exact ⟨e, mem_output_putJump.mpr (.inl he), of_decide_eq_true hname⟩
  · exact ⟨_, mem_output_putJump.mpr (.inr ⟨rfl, h⟩), rfl⟩

theorem setRules_putChain : (t.putChain chain ds).setRules chain es = t.putChain chain es := by
  unfold putChain
  split
  · simp only [setRules, List.map_map, Function.comp_def]
    congr 2
    funext c
    split <;> simp_all
  · next h =>
    simp only [setRules, List.map_append, chains_setRules_of_not_isChain h, List.map_cons,
      List.map_nil, if_true]

theorem putJump_setRules :
    (t.putJump chain).setRules chain es = (t.setRules chain es).putJump chain := by
  unfold putJump jumpExists appendOutput setRules
  split <;> rfl

/-- Appending behind the rules that are there. -/
theorem appendEntry_putChain {e : Entry} :
    ((t.putChain chain ds).putJump chain).appendEntry chain e =
      some ((t.putChain chain (ds ++ [e])).putJump chain) := by
  have hchain : ((t.putChain chain ds).putJump chain).isChain chain = true := by
    simp [isChain, lookup_putChain]
  have hrules : ((t.putChain chain ds).putJump chain).rules chain = ds := by
    simp [rules, lookup_putChain]
  rw [appendEntry, if_pos hchain, hrules, putJump_setRules, setRules_putChain]

end Table

section

variable {faults : IptcFaults} {chain : Bytes} {t t' : Table} {es ds : List Entry}

theorem iptc_eq_some {call : IptcCall} {result : Option Table} :
    iptc faults call result = some t' ↔ faults call = false ∧ result = some t' := by
  unfold iptc
  cases faults call <;> simp

theorem resetChain_eq_some (h : resetChain faults chain t = some t') :
    t' = t.putChain chain [] := by
  unfold resetChain at h
  split at h
  · next hc =>
    obtain ⟨-, h⟩ := iptc_eq_some.mp h
    rw [Table.flushEntries, if_pos hc, Option.some.injEq] at h
    rw [Table.putChain, if_pos hc, h]
  · next hc =>
    obtain ⟨-, h⟩ := iptc_eq_some.mp h
    rw [Table.createChain, if_neg hc, Option.some.injEq] at h
    rw [Table.putChain, if_neg hc, h]

theorem ensureJump_eq_some (h : ensureJump faults chain t = some t') : t' = t.putJump chain := by
  unfold ensureJump at h
  unfold Table.putJump
  split at h
  · next hj => rw [if_pos hj, Option.some.inj h]
  · next hj =>
    obtain ⟨-, h⟩ := iptc_eq_some.mp h
    rw [if_neg hj, Option.some.inj h]

theorem appendRules_eq_some {i : Nat}
    (h : appendRules faults chain i es ((t.putChain chain ds).putJump chain) = some t') :
    t' = (t.putChain chain (ds ++ es)).putJump chain := by
  induction es generalizing i ds with
  | nil => rw [List.append_nil]; exact (Option.some.inj h).symm
  | cons e es ih =>
    rw [appendRules, Option.bind_eq_some_iff] at h
    obtain ⟨t₁, h₁, h₂⟩ := h
    obtain ⟨-, h₁⟩ := iptc_eq_some.mp h₁
    rw [Table.appendEntry_putChain, Option.some.injEq] at h₁
    subst h₁
    simpa using ih h₂

/-- A committed installation leaves the chain with exactly the given rules, and a jump to it. -/
theorem installChain_eq_some (h : installChain faults chain es t = some t') :
    t' = (t.putChain chain es).putJump chain := by
  simp only [installChain, Option.bind_eq_bind, Option.bind_eq_some_iff, iptc_eq_some] at h
  obtain ⟨t₀, ⟨-, h₀⟩, t₁, h₁, t₂, h₂, t₃, h₃, -, h₄⟩ := h
  obtain rfl := Option.some.inj h₀
  obtain rfl := Option.some.inj h₄
  rw [ensureJump_eq_some h₂, resetChain_eq_some h₁] at h₃
  simpa using appendRules_eq_some h₃

theorem installInto_ok {get : Kernel → Table} {put : Table → Kernel → Kernel} {k : Kernel}
    (h : (installInto faults chain get put es k).error = none) :
    (installInto faults chain get put es k).state =
      put (((get k).putChain chain es).putJump chain) k := by
  unfold installInto at h ⊢
  cases ht : installChain faults chain es (get k) with
  | none => simp [ht] at h
  | some t => rw [← installChain_eq_some ht]

theorem installInto_state (faults : IptcFaults) (chain : Bytes) (get : Kernel → Table)
    (put : Table → Kernel → Kernel) (es : List Entry) (k : Kernel) :
    (installInto faults chain get put es k).state = k ∨
      (installInto faults chain get put es k).state =
        put (((get k).putChain chain es).putJump chain) k := by
  cases herr : (installInto faults chain get put es k).error with
  | none => exact .inr (installInto_ok herr)
  | some e =>
    left
    unfold installInto at herr ⊢
    cases ht : installChain faults chain es (get k) with
    | none => rfl
    | some t => simp [ht] at herr

end

/-! ## Installing and removing -/

namespace Table

/-- The table has no chain of that name, and no rule that names it. -/
structure Free (t : Table) (chain : Bytes) : Prop where
  not_isChain : ¬ t.isChain chain
  output_ne : ∀ e ∈ t.output, e.target.name ≠ chain
  rules_ne : ∀ c ∈ t.chains, ∀ e ∈ c.2, e.target.name ≠ chain

variable {t : Table} {chain : Bytes} {es : List Entry}

/-- What an installation makes of a table without the chain. -/
theorem Free.install (h : t.Free chain) : (t.putChain chain es).putJump chain =
    { output := t.output ++ [buildJumpEntry chain], chains := t.chains ++ [(chain, es)] } := by
  have hjump : ¬ jumpExists chain { t with chains := t.chains ++ [(chain, es)] } := by
    simpa [jumpExists] using h.output_ne
  rw [putChain, if_neg h.not_isChain, putJump, if_neg hjump, appendOutput]

theorem Free.deleteJump (h : t.Free chain) (cs : List (Bytes × List Entry)) :
    WifiOffload.deleteJump chain { output := t.output ++ [buildJumpEntry chain], chains := cs } =
      { output := t.output, chains := cs } := by
  have hnone : t.output.findIdx? (·.target.name = chain) = none := by
    simpa [List.findIdx?_eq_none_iff] using h.output_ne
  have hfind : (t.output ++ [buildJumpEntry chain]).findIdx? (·.target.name = chain) =
      some t.output.length := by
    simp [List.findIdx?_append, hnone]
  simp [WifiOffload.deleteJump, hfind, deleteNumOutput, List.eraseIdx_append_of_length_le]

theorem Free.not_isReferenced (h : t.Free chain) :
    ¬ isReferenced { t with chains := t.chains ++ [(chain, [])] } chain := by
  simpa [isReferenced] using ⟨h.output_ne, fun name rs hc => h.rules_ne (name, rs) hc⟩

/-- Removing a chain that was installed restores the table. -/
theorem Free.removeChain_install (h : t.Free chain) :
    removeChain chain ((t.putChain chain es).putJump chain) = t := by
  have hlookup (rs : List Entry) : (t.chains ++ [(chain, rs)]).lookup chain = some rs := by
    simp [List.lookup_append, Option.not_isSome_iff_eq_none.mp h.not_isChain]
  have hflush : flushEntries { output := t.output, chains := t.chains ++ [(chain, es)] } chain =
      some { t with chains := t.chains ++ [(chain, [])] } := by
    have hold : t.chains.map (fun c => if c.1 = chain then (c.1, []) else c) = t.chains :=
      chains_setRules_of_not_isChain h.not_isChain
    simp [flushEntries, isChain, hlookup, setRules, hold]
  have hfilter : (t.chains ++ [(chain, ([] : List Entry))]).filter (·.1 ≠ chain) = t.chains := by
    rw [List.filter_append, List.filter_eq_self.mpr
      fun c hc => by simpa using ne_of_not_isChain h.not_isChain c hc]
    simp
  have hdelete : deleteChain { t with chains := t.chains ++ [(chain, [])] } chain = some t := by
    rw [deleteChain, if_pos ⟨by simp [isChain, hlookup], by simp [rules, hlookup],
      h.not_isReferenced⟩, hfilter]
  rw [h.install, removeChain, if_pos (by simp [isChain, hlookup])]
  simp only [h.deleteJump, hflush, Option.getD_some, hdelete]

/-- With a jump behind the rules of `OUTPUT`, a packet meets these rules and then the chain. -/
theorem traverseOutput_of_jump {t' : Table} (hout : t'.output = t.output ++ [buildJumpEntry chain])
    (hself : t'.rules chain = es) (hother : ∀ c, c ≠ chain → t'.rules c = t.rules c)
    (hne : ∀ e ∈ t.output, e.target.name ≠ chain) (foreign : Foreign) (p : Packet) :
    t'.traverseOutput foreign p =
      match t.traverseOutput foreign p with
      | .passed q => traverse (Entry.effect foreign fun _ r => .passed r) es q
      | .accepted q => .accepted q
      | .dropped => .dropped := by
  have hold : traverse (Entry.effect foreign fun c q => traverse
      (Entry.effect foreign fun _ r => .passed r) (t'.rules c) q) t.output p =
      t.traverseOutput foreign p := by
    refine traverse_congr (fun e he q => Entry.effect_congr fun c hc r => ?_) p
    rw [hother c fun heq => hne e he (by rw [hc, Target.name, heq])]
  rw [traverseOutput, hout, traverse_append, hold]
  cases t.traverseOutput foreign p with
  | passed q =>
    simp only [traverse, effect_buildJumpEntry, hself]
    cases traverse (Entry.effect foreign fun _ r => .passed r) es q <;> rfl
  | accepted q => rfl
  | dropped => rfl

theorem Free.traverseOutput_install (h : t.Free chain) (foreign : Foreign) (p : Packet) :
    ((t.putChain chain es).putJump chain).traverseOutput foreign p =
      match t.traverseOutput foreign p with
      | .passed q => traverse (Entry.effect foreign fun _ r => .passed r) es q
      | .accepted q => .accepted q
      | .dropped => .dropped := by
  rw [h.install]
  refine traverseOutput_of_jump rfl ?_ ?_ h.output_ne foreign p
  · simp [rules, List.lookup_append, Option.not_isSome_iff_eq_none.mp h.not_isChain]
  · intro c hc
    simp [rules, List.lookup_append, List.lookup, beq_eq_false_iff_ne.mpr hc]

theorem Free.removeChain_eq_self (h : t.Free chain) : removeChain chain t = t :=
  if_neg h.not_isChain

end Table

end WifiOffload
