import WifiOffload.Library.Bytes

/-!
# Packet filter tables

What `libiptc` edits and what the kernel does with it: the `OUTPUT` chain of a table, its user
chains, the matches and targets that the daemon builds, and the traversal of a packet. Rules of
another owner are opaque: a rule with an `other` match or target has the effect that a parameter
gives it, and a chain that such a rule uses is not looked into.
-/

namespace WifiOffload

/-- What the tables see of an outgoing packet. -/
structure Packet where
  device : Bytes
  classid : UInt32
  mark : UInt32
  deriving DecidableEq, Repr

inductive Match where
  /-- `cgroup` revision 2 with a classid. -/
  | cgroup (classid : UInt32)
  /-- `mark` revision 1. -/
  | mark (mark mask : UInt32) (invert : Bool)
  | other (name : Bytes)
  deriving DecidableEq, Repr

inductive Target where
  | jump (chain : Bytes)
  | drop
  /-- `MARK` revision 2. -/
  | mark (mark mask : UInt32)
  | other (name : Bytes)
  deriving DecidableEq, Repr

/-- What `iptc_get_target` returns. -/
def Target.name : Target → Bytes
  | .jump chain => chain
  | .drop => Bytes.ascii "DROP"
  | .mark .. => Bytes.ascii "MARK"
  | .other name => name

/-- `IFNAMSIZ`. -/
def ifNamSiz : Nat := 16

/-- An `ipt_entry` with at most one match. -/
structure Entry where
  outiface : CharArray ifNamSiz := CharArray.zero ifNamSiz
  outifaceMask : CharArray ifNamSiz := CharArray.zero ifNamSiz
  matching : Option Match := none
  target : Target
  deriving DecidableEq

/-- How far a packet got: off the end of a chain, or to a verdict. -/
inductive Traversal where
  | passed (p : Packet)
  | accepted (p : Packet)
  | dropped
  deriving DecidableEq, Repr

/-- The effect of the rules of other owners. -/
abbrev Foreign := Entry → Packet → Traversal

namespace Entry

/-- The zero-padded device name agrees with `outiface` on every bit of `outiface_mask`. -/
def matchesDevice (e : Entry) (device : Bytes) : Bool :=
  ∀ i < ifNamSiz, (device.getD i 0 ^^^ e.outiface.val.getD i 0) &&& e.outifaceMask.val.getD i 0 = 0

def isOther (e : Entry) : Bool :=
  match e.matching, e.target with
  | some (.other _), _ => true
  | _, .other _ => true
  | _, _ => false

def matchesPacket (e : Entry) (p : Packet) : Bool :=
  e.matchesDevice p.device &&
    match e.matching with
    | none => true
    | some (.cgroup classid) => p.classid = classid
    | some (.mark mark mask invert) => (p.mark &&& mask = mark) != invert
    | some (.other _) => false

/-- The effect of a rule; `onJump` says what the chain it jumps to does. -/
def effect (foreign : Foreign) (onJump : Bytes → Packet → Traversal) (e : Entry) (p : Packet) :
    Traversal :=
  if e.isOther then foreign e p
  else if e.matchesPacket p then
    match e.target with
    | .jump chain => onJump chain p
    | .drop => .dropped
    | .mark mark mask => .passed { p with mark := (p.mark &&& ~~~mask) ^^^ mark }
    | .other _ => .passed p
  else .passed p

theorem effect_congr {foreign : Foreign} {onJump onJump' : Bytes → Packet → Traversal} {e : Entry}
    {p : Packet} (h : ∀ c, e.target = .jump c → ∀ q, onJump c q = onJump' c q) :
    e.effect foreign onJump p = e.effect foreign onJump' p := by
  unfold effect
  split
  · rfl
  split
  · split
    · next c hc => exact h c hc p
    all_goals rfl
  · rfl

end Entry

/-- A packet goes on to the next rule until a verdict is reached. -/
def traverse (effect : Entry → Packet → Traversal) : List Entry → Packet → Traversal
  | [], p => .passed p
  | e :: es, p =>
    match effect e p with
    | .passed q => traverse effect es q
    | .accepted q => .accepted q
    | .dropped => .dropped

theorem traverse_congr {effect effect' : Entry → Packet → Traversal} {es : List Entry}
    (h : ∀ e ∈ es, ∀ q, effect e q = effect' e q) (p : Packet) :
    traverse effect es p = traverse effect' es p := by
  induction es generalizing p with
  | nil => rfl
  | cons e es ih =>
    rw [traverse, traverse, h e (by simp)]
    cases effect' e p with
    | passed q => exact ih (fun f hf => h f (by simp [hf])) q
    | accepted q => rfl
    | dropped => rfl

theorem traverse_append (effect : Entry → Packet → Traversal) (es fs : List Entry) (p : Packet) :
    traverse effect (es ++ fs) p =
      match traverse effect es p with
      | .passed q => traverse effect fs q
      | .accepted q => .accepted q
      | .dropped => .dropped := by
  induction es generalizing p with
  | nil => rfl
  | cons e es ih =>
    rw [List.cons_append, traverse, traverse]
    cases effect e p with
    | passed q => exact ih q
    | accepted q => rfl
    | dropped => rfl

/-- A list of rules that drop a packet or leave it alone does one of the two. -/
theorem traverse_dropped_or_passed {effect : Entry → Packet → Traversal} {es : List Entry}
    {p : Packet} (h : ∀ e ∈ es, effect e p = .dropped ∨ effect e p = .passed p) :
    traverse effect es p = .dropped ∨ traverse effect es p = .passed p := by
  induction es with
  | nil => exact .inr rfl
  | cons e es ih =>
    rcases h e (by simp) with he | he
    · simp [traverse, he]
    · simpa [traverse, he] using ih fun f hf => h f (by simp [hf])

theorem traverse_eq_dropped_iff {effect : Entry → Packet → Traversal} {es : List Entry}
    {p : Packet} (h : ∀ e ∈ es, effect e p = .dropped ∨ effect e p = .passed p) :
    traverse effect es p = .dropped ↔ ∃ e ∈ es, effect e p = .dropped := by
  induction es with
  | nil => simp [traverse]
  | cons e es ih =>
    rcases h e (by simp) with he | he
    · simp [traverse, he]
    · simpa [traverse, he] using ih fun f hf => h f (by simp [hf])

/-- The `OUTPUT` chain and the user chains of a table. -/
structure Table where
  output : List Entry := []
  chains : List (Bytes × List Entry) := []
  deriving DecidableEq

namespace Table

variable (t : Table) (chain : Bytes)

/-- The rules of a user chain. -/
def rules : List Entry := (t.chains.lookup chain).getD []

/-- The traversal of `OUTPUT`. Chains that are jumped to hold no jumps of their own. -/
def traverseOutput (foreign : Foreign) (p : Packet) : Traversal :=
  traverse (Entry.effect foreign fun chain q =>
    traverse (Entry.effect foreign fun _ r => .passed r) (t.rules chain) q) t.output p

/-! ### `libiptc` -/

def isChain : Bool := (t.chains.lookup chain).isSome

def setRules (es : List Entry) : Table :=
  { t with chains := t.chains.map fun c => if c.1 = chain then (c.1, es) else c }

def flushEntries : Option Table := if t.isChain chain then some (t.setRules chain []) else none

def createChain : Option Table :=
  if t.isChain chain then none else some { t with chains := t.chains ++ [(chain, [])] }

/-- `iptc_append_entry` on a user chain. -/
def appendEntry (e : Entry) : Option Table :=
  if t.isChain chain then some (t.setRules chain (t.rules chain ++ [e])) else none

/-- `iptc_append_entry` on `OUTPUT`. -/
def appendOutput (e : Entry) : Table := { t with output := t.output ++ [e] }

/-- `iptc_delete_num_entry` on `OUTPUT`. -/
def deleteNumOutput (n : Nat) : Option Table :=
  if n < t.output.length then some { t with output := t.output.eraseIdx n } else none

/-- Some rule of the table jumps to the chain. -/
def isReferenced : Bool :=
  t.output.any (·.target.name = chain) || t.chains.any (·.2.any (·.target.name = chain))

/-- `iptc_delete_chain`: only an empty chain that nothing refers to. -/
def deleteChain : Option Table :=
  if t.isChain chain ∧ t.rules chain = [] ∧ ¬ t.isReferenced chain then
    some { t with chains := t.chains.filter (·.1 ≠ chain) }
  else none

end Table

end WifiOffload
