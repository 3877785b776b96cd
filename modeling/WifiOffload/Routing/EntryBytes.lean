import WifiOffload.Kernel.Entries
import WifiOffload.Routing.Isolation
import WifiOffload.Routing.MarkRules

/-!
# The buffers of the rules

`buildMarkEntry`, `buildJumpEntry` and `buildDropEntry` with the bytes that they fill in, and the
installations that hand these buffers to `libiptc`. A buffer is read as the rule it stands for, so
an installation of buffers is the installation of the rules.
-/

namespace WifiOffload

namespace Wire

def buildMarkEntry (classid mark : UInt32) : Bytes :=
  let kMatchSz := xtAlign (XtUser.sizeof + XtCgroupInfoV2.sizeof)
  let kTargetSz := xtAlign (XtUser.sizeof + XtMarkTginfo2.sizeof)
  let kHdrSz := xtAlign IptEntry.sizeof
  let kTotal := kHdrSz + kMatchSz + kTargetSz
  let cg : XtCgroupInfoV2 := { hasClassid := 1, classid }
  let mk : XtMarkTginfo2 := { mark, mask := 0xFFFFFFFF }
  let e : IptEntry := { targetOffset := .ofNat (kHdrSz + kMatchSz), nextOffset := .ofNat kTotal }
  Bytes.padTo kHdrSz e.encode ++ (xtElem kMatchSz (Bytes.ascii "cgroup") 2 cg.encode ++
    xtElem kTargetSz (Bytes.ascii "MARK") 2 mk.encode)

/-- The verdict behind the name stays zero: `libiptc` fills it in. -/
def buildJumpEntry (toChain : Bytes) : Bytes :=
  let kTargetSz := standardSize
  let kHdrSz := xtAlign IptEntry.sizeof
  let kTotal := kHdrSz + kTargetSz
  let e : IptEntry := { targetOffset := .ofNat kHdrSz, nextOffset := .ofNat kTotal }
  Bytes.padTo kHdrSz e.encode ++ xtElem kTargetSz toChain 0 []

def buildDropEntry (outiface : Bytes) (mark : UInt32) : Bytes :=
  let kMatchSz := xtAlign (XtUser.sizeof + XtMarkMtinfo1.sizeof)
  let kTargetSz := standardSize
  let kHdrSz := xtAlign IptEntry.sizeof
  let kTotal := kHdrSz + kMatchSz + kTargetSz
  let ifLen := min outiface.length (ifNamSiz - 1)
  let ip : IptIp :=
    { outiface := .ofBytes ifNamSiz (outiface.take ifLen)
      outifaceMask := .ofBytes ifNamSiz (List.replicate (ifLen + 1) 0xFF) }
  let mk : XtMarkMtinfo1 := { mark, mask := 0xFFFFFFFF, invert := 0 }
  let e : IptEntry :=
    { ip, targetOffset := .ofNat (kHdrSz + kMatchSz), nextOffset := .ofNat kTotal }
  -- the verdict is -NF_DROP - 1
  Bytes.padTo kHdrSz e.encode ++ (xtElem kMatchSz (Bytes.ascii "mark") 1 mk.encode ++
    xtElem kTargetSz (Bytes.ascii "DROP") 0 (Bytes.le 4 0xFFFFFFFF))

/-! ## What is read out of them -/

variable {isChain : Bytes → Bool} {classid mark : UInt32}

theorem sizeof_le_xtAlign (n : Nat) : XtUser.sizeof ≤ xtAlign (XtUser.sizeof + n) := by
  rw [xtAlign]
  omega

theorem sizeof_le_standardSize : XtUser.sizeof ≤ standardSize := sizeof_le_xtAlign 4

/-- Nothing is filled up behind an entry: its size is aligned. -/
theorem padTo_encode (e : IptEntry) :
    Bytes.padTo (xtAlign IptEntry.sizeof) e.encode = e.encode := by
  have hsize : xtAlign IptEntry.sizeof = e.encode.length := by
    rw [IptEntry.length_encode]
    rfl
  rw [hsize, Bytes.padTo_length]

theorem matchOf_cgroup (cg : XtCgroupInfoV2) (h : cg = { hasClassid := 1, classid := cg.classid }) :
    matchOf (xtElem (xtAlign (XtUser.sizeof + XtCgroupInfoV2.sizeof)) (Bytes.ascii "cgroup") 2
      cg.encode) = .cgroup cg.classid := by
  have hname : (CharArray.strncpy 29 (Bytes.ascii "cgroup")).toString = Bytes.ascii "cgroup" := by
    decide
  have hdata : Bytes.padTo (xtAlign (XtUser.sizeof + XtCgroupInfoV2.sizeof) - XtUser.sizeof)
      cg.encode = cg.encode := by
    have hsize : xtAlign (XtUser.sizeof + XtCgroupInfoV2.sizeof) - XtUser.sizeof =
        cg.encode.length := by
      rw [XtCgroupInfoV2.length_encode]
      rfl
    rw [hsize, Bytes.padTo_length]
  have hdecode : XtCgroupInfoV2.decode cg.encode = cg := by
    simpa using cg.decode_encode []
  simp only [matchOf, decode_xtElem (sizeof_le_xtAlign _), hname, hdata, hdecode, length_xtElem,
    and_self, if_true]
  rw [if_pos h]

theorem matchOf_mark (mk : XtMarkMtinfo1) :
    matchOf (xtElem (xtAlign (XtUser.sizeof + XtMarkMtinfo1.sizeof)) (Bytes.ascii "mark") 1
      mk.encode) = .mark mk.mark mk.mask (mk.invert ≠ 0) := by
  have hname : (CharArray.strncpy 29 (Bytes.ascii "mark")).toString = Bytes.ascii "mark" := by
    decide
  have hother : Bytes.ascii "mark" ≠ Bytes.ascii "cgroup" := by decide
  have hdata : XtMarkMtinfo1.decode (Bytes.padTo
      (xtAlign (XtUser.sizeof + XtMarkMtinfo1.sizeof) - XtUser.sizeof) mk.encode) = mk := by
    rw [Bytes.padTo_of_le (by rw [XtMarkMtinfo1.length_encode]; decide), mk.decode_encode]
  simp only [matchOf, decode_xtElem (sizeof_le_xtAlign _), hname, hother, hdata, length_xtElem,
    and_self, false_and, if_false, if_true]

theorem targetOf_mark (mk : XtMarkTginfo2) (h : isChain (Bytes.ascii "MARK") = false) :
    targetOf isChain (xtElem (xtAlign (XtUser.sizeof + XtMarkTginfo2.sizeof)) (Bytes.ascii "MARK")
      2 mk.encode) = .mark mk.mark mk.mask := by
  have hname : (CharArray.strncpy 29 (Bytes.ascii "MARK")).toString = Bytes.ascii "MARK" := by
    decide
  have hdrop : Bytes.ascii "MARK" ≠ Bytes.ascii "DROP" := by decide
  have hverdict : Bytes.ascii "MARK" ∉ [[], Bytes.ascii "DROP", Bytes.ascii "ACCEPT",
      Bytes.ascii "QUEUE", Bytes.ascii "RETURN"] := by decide
  have hdata : XtMarkTginfo2.decode (Bytes.padTo
      (xtAlign (XtUser.sizeof + XtMarkTginfo2.sizeof) - XtUser.sizeof) mk.encode) = mk := by
    rw [Bytes.padTo_of_le (by rw [XtMarkTginfo2.length_encode]; decide), mk.decode_encode]
  simp only [targetOf, decode_xtElem (sizeof_le_xtAlign _), hname, hdrop, hverdict, hdata, h,
    length_xtElem, and_self, false_and, if_false, if_true, Bool.false_eq_true]

theorem targetOf_drop (data : Bytes) :
    targetOf isChain (xtElem standardSize (Bytes.ascii "DROP") 0 data) = .drop := by
  have hname : (CharArray.strncpy 29 (Bytes.ascii "DROP")).toString = Bytes.ascii "DROP" := by
    decide
  simp only [targetOf, decode_xtElem sizeof_le_standardSize, hname, length_xtElem, and_self,
    if_true]

/-- The name of a chain as a target has it. -/
def IsTargetChain (chain : Bytes) : Prop :=
  chain.length ≤ 28 ∧ 0 ∉ chain ∧ chain ∉ [[], Bytes.ascii "DROP", Bytes.ascii "ACCEPT",
    Bytes.ascii "QUEUE", Bytes.ascii "RETURN"]

instance (chain : Bytes) : Decidable (IsTargetChain chain) :=
  inferInstanceAs (Decidable (_ ∧ _ ∧ _))

theorem targetOf_jump {chain : Bytes} (hchain : isChain chain = true) (h : IsTargetChain chain)
    (data : Bytes) : targetOf isChain (xtElem standardSize chain 0 data) = .jump chain := by
  obtain ⟨hlength, hzero, hverdict⟩ := h
  have hname : (CharArray.strncpy 29 chain).toString = chain :=
    CharArray.toString_strncpy_eq_self_iff.mpr ⟨hlength, hzero⟩
  have hdrop : chain ≠ Bytes.ascii "DROP" := by
    rintro rfl
    exact hverdict (by decide)
  simp only [targetOf, decode_xtElem sizeof_le_standardSize, hname, hdrop, hverdict, hchain,
    length_xtElem, and_self, false_and, if_false, if_true]

theorem readEntry_buildMarkEntry (h : isChain (Bytes.ascii "MARK") = false) :
    readEntry isChain (buildMarkEntry classid mark) =
      some (WifiOffload.buildMarkEntry classid mark) := by
  simp only [buildMarkEntry, padTo_encode]
  rw [readEntry_match (chunk_xtElem (by decide) (by decide)) (by rw [length_xtElem]; decide)
    (chunk_xtElem (by decide) (by decide)) (by rw [length_xtElem]; decide)
    (by rw [length_xtElem, length_xtElem]; decide) rfl, matchOf_cgroup _ rfl, targetOf_mark _ h]
  rfl

theorem readEntry_buildJumpEntry {chain : Bytes} (hchain : isChain chain = true)
    (h : IsTargetChain chain) :
    readEntry isChain (buildJumpEntry chain) = some (WifiOffload.buildJumpEntry chain) := by
  simp only [buildJumpEntry, padTo_encode]
  rw [readEntry_target (chunk_xtElem (by decide) (by decide)) (by decide)
    (by rw [length_xtElem]; decide) rfl, targetOf_jump hchain h]
  rfl

theorem readEntry_buildDropEntry {outiface : Bytes} :
    readEntry isChain (buildDropEntry outiface mark) =
      some (WifiOffload.buildDropEntry outiface mark) := by
  simp only [buildDropEntry, padTo_encode]
  rw [readEntry_match (chunk_xtElem (by decide) (by decide)) (by rw [length_xtElem]; decide)
    (chunk_xtElem (by decide) (by decide)) (by rw [length_xtElem]; rfl)
    (by rw [length_xtElem, length_xtElem]; rfl) rfl, matchOf_mark, targetOf_drop]
  rfl

/-! ## Installing buffers -/

/-- `iptc_append_entry` on a user chain. -/
def appendEntry (t : Table) (chain buf : Bytes) : Option Table :=
  (readEntry t.isChain buf).bind (t.appendEntry chain)

/-- `iptc_append_entry` on `OUTPUT`. -/
def appendOutput (t : Table) (buf : Bytes) : Option Table :=
  (readEntry t.isChain buf).map t.appendOutput

section

variable (faults : IptcFaults) (chain : Bytes)

def ensureJump (t : Table) : Option Table :=
  if jumpExists chain t then some t
  else iptc faults .appendJump (appendOutput t (buildJumpEntry chain))

def appendRules : Nat → List Bytes → Table → Option Table
  | _, [], t => some t
  | i, buf :: bufs, t =>
    (iptc faults (.appendRule i) (appendEntry t chain buf)).bind (appendRules (i + 1) bufs)

def installChain (bufs : List Bytes) (t : Table) : Option Table := do
  let t ← iptc faults .init (some t)
  let t ← resetChain faults chain t
  let t ← ensureJump faults chain t
  let t ← appendRules faults chain 0 bufs t
  iptc faults .commit (some t)

def installInto (get : Kernel → Table) (put : Table → Kernel → Kernel) (bufs : List Bytes) :
    Attempt Kernel RoutingError := fun k =>
  match installChain faults chain bufs (get k) with
  | some t => ⟨put t k, none⟩
  | none => ⟨k, some .iptablesError⟩

end

def addIptablesMarkRules (faults : IptcFaults) (classes : List PathClassConfig) :
    Attempt Kernel RoutingError :=
  installInto faults kNetserviceChain (·.mangle) (fun t k => { k with mangle := t })
    (classes.map fun cls => buildMarkEntry cls.classid cls.mark)

def dropBuffersOf (classes : List PathClassConfig) (S : PathClassConfig) : List Bytes :=
  ((allIfaces classes).filter (· ∉ S.interfaces)).map (fun iface => buildDropEntry iface S.mark) ++
    (classes.filter (·.id ≠ S.id)).flatMap fun B =>
      S.interfaces.map fun iface => buildDropEntry iface B.mark

def addDropRules (faults : IptcFaults) (classes : List PathClassConfig) :
    Attempt Kernel RoutingError :=
  if anyIsolation classes then
    installInto faults kIsoChain (·.filter) (fun t k => { k with filter := t })
      ((classes.filter (·.strictIsolation)).flatMap (dropBuffersOf classes))
  else Attempt.succeed id

section

variable {faults : IptcFaults} {chain other : Bytes} {t : Table} {bufs : List Bytes}
variable {es : List Entry}

theorem lookup_setRules_of_ne (h : other ≠ chain) (chains : List (Bytes × List Entry)) :
    (chains.map fun c => if c.1 = chain then (c.1, es) else c).lookup other =
      chains.lookup other := by
  induction chains with
  | nil => rfl
  | cons c chains ih =>
    obtain ⟨name, rs⟩ := c
    by_cases hname : name = chain
    · have hother : other ≠ name := fun heq => h (heq.trans hname)
      simp only [List.map_cons, if_pos hname, List.lookup, beq_eq_false_iff_ne.mpr hother, ih]
    · simp only [List.map_cons, if_neg hname, List.lookup, ih]

theorem isChain_setRules : (t.setRules chain es).isChain other = t.isChain other := by
  rw [Table.isChain, Table.isChain, Table.setRules]
  by_cases h : other = chain
  · rw [h, Table.lookup_setRules, Option.isSome_map]
  · rw [lookup_setRules_of_ne h]

/-- An installation makes no other chain. -/
theorem isChain_putChain_of_ne (h : other ≠ chain) :
    (t.putChain chain es).isChain other = t.isChain other := by
  unfold Table.putChain
  split
  · exact isChain_setRules
  · simp [Table.isChain, List.lookup_append, List.lookup, beq_eq_false_iff_ne.mpr h]

theorem appendRules_eq (i : Nat)
    (h : bufs.map (readEntry t.isChain) = es.map some) :
    appendRules faults chain i bufs t = WifiOffload.appendRules faults chain i es t := by
  induction bufs generalizing es i t with
  | nil =>
    cases es with
    | nil => rfl
    | cons e es => simp at h
  | cons buf bufs ih =>
    cases es with
    | nil => simp at h
    | cons e es =>
      obtain ⟨hread, hrest⟩ := List.cons.inj h
      have happend : appendEntry t chain buf = t.appendEntry chain e := by
        rw [appendEntry, hread, Option.bind_some]
      rw [appendRules, WifiOffload.appendRules, happend]
      refine Option.bind_congr fun t' ht' => ih _ ?_
      obtain ⟨-, ht'⟩ := iptc_eq_some.mp ht'
      have hsame : t'.isChain = t.isChain := by
        rw [Table.appendEntry, Option.ite_none_right_eq_some, Option.some.injEq] at ht'
        rw [← ht'.2]
        exact funext fun other => isChain_setRules
      rwa [hsame]

theorem ensureJump_eq (hchain : t.isChain chain = true) (h : IsTargetChain chain) :
    ensureJump faults chain t = WifiOffload.ensureJump faults chain t := by
  rw [ensureJump, WifiOffload.ensureJump, appendOutput, readEntry_buildJumpEntry hchain h]
  rfl

theorem installChain_eq (hchain : IsTargetChain chain)
    (h : bufs.map (readEntry (t.putChain chain []).isChain) = es.map some) :
    installChain faults chain bufs t = WifiOffload.installChain faults chain es t := by
  unfold installChain WifiOffload.installChain
  refine Option.bind_congr fun t₀ h₀ => Option.bind_congr fun t₁ h₁ => ?_
  obtain ⟨-, h₀⟩ := iptc_eq_some.mp h₀
  obtain rfl := Option.some.inj h₀
  obtain rfl := resetChain_eq_some h₁
  rw [ensureJump_eq (by simp [Table.isChain, Table.lookup_putChain]) hchain]
  refine Option.bind_congr fun t₂ h₂ => ?_
  obtain rfl := ensureJump_eq_some h₂
  have hsame : ((t.putChain chain []).putJump chain).isChain = (t.putChain chain []).isChain := by
    funext other
    rw [Table.isChain, Table.isChain, Table.chains_putJump]
  rw [appendRules_eq 0 (by rwa [hsame])]

theorem installInto_eq {get : Kernel → Table} {put : Table → Kernel → Kernel} {k : Kernel}
    (hchain : IsTargetChain chain)
    (h : bufs.map (readEntry ((get k).putChain chain []).isChain) = es.map some) :
    installInto faults chain get put bufs k =
      WifiOffload.installInto faults chain get put es k := by
  cases hinstall : WifiOffload.installChain faults chain es (get k) <;>
    simp [installInto, WifiOffload.installInto, installChain_eq hchain h, hinstall]

end

theorem map_readEntry_dropBuffersOf (classes : List PathClassConfig) (S : PathClassConfig) :
    (dropBuffersOf classes S).map (readEntry isChain) = (dropRulesOf classes S).map some := by
  simp only [dropBuffersOf, dropRulesOf, List.map_append, List.map_map, List.map_flatMap,
    Function.comp_def, readEntry_buildDropEntry]

/-- Whatever the tables hold and whichever calls of `libiptc` fail, handing over the buffers comes
to what the rules come to; for the mark rules unless the table has a chain of the name `MARK`. -/
theorem buffers_refine (faults : IptcFaults) (classes : List PathClassConfig) (k : Kernel) :
    (k.mangle.isChain (Bytes.ascii "MARK") = false →
      addIptablesMarkRules faults classes k =
        WifiOffload.addIptablesMarkRules faults classes k) ∧
    addDropRules faults classes k = WifiOffload.addDropRules faults classes k := by
  constructor
  · intro hmark
    have hnone : (k.mangle.putChain kNetserviceChain []).isChain (Bytes.ascii "MARK") = false := by
      rw [isChain_putChain_of_ne (by decide), hmark]
    refine installInto_eq (by decide) ?_
    simp only [markRules, List.map_map, Function.comp_def, readEntry_buildMarkEntry hnone]
  · unfold addDropRules WifiOffload.addDropRules
    split
    · refine installInto_eq (by decide) ?_
      simp only [dropRules, List.map_flatMap, map_readEntry_dropBuffersOf]
    · rfl

/-- The shipped classes, with a `LOG` rule of another owner in both tables. -/
theorem buffers_refine_shipped :
    let log : Entry := { target := .other (Bytes.ascii "LOG") }
    let k : Kernel := { mangle := { output := [log] }, filter := { output := [log] } }
    addIptablesMarkRules (fun _ => false) pathPolicies k =
        WifiOffload.addIptablesMarkRules (fun _ => false) pathPolicies k ∧
      addDropRules (· = .commit) pathPolicies k =
        WifiOffload.addDropRules (· = .commit) pathPolicies k :=
  ⟨(buffers_refine _ pathPolicies _).1 (by decide), (buffers_refine _ pathPolicies _).2⟩

end Wire

end WifiOffload
