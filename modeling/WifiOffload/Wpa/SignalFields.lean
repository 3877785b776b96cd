import WifiOffload.Wpa.ParseEvent

/-!
# Signal fields

`parseIntField` looks for the text `key=` anywhere in a message, and `rssi=` also ends `avg_rssi=`.
A field is read by its name where the token that holds this text first is its own; another token
that comes before it is read in its place.
-/

namespace WifiOffload

/-- A token `key=value`: one word, whose first `=` ends the key. -/
structure SignalField where
  key : Bytes
  value : Bytes
  key_word : 32 ∉ key
  key_ends : 61 ∉ key
  value_word : 32 ∉ value

def SignalField.text (f : SignalField) : Bytes := f.key ++ 61 :: f.value

theorem SignalField.space_not_mem_text (f : SignalField) : 32 ∉ f.text := by
  have hkey := f.key_word
  have hvalue := f.value_word
  simp [SignalField.text, hkey, hvalue]

/-- The token of a key holds it, with its value behind it. -/
theorem SignalField.behind_own (f : SignalField) :
    Bytes.behind (f.key ++ [61]) f.text = some f.value := by
  have htext : f.text = (f.key ++ [61]) ++ f.value := by simp [SignalField.text]
  rw [htext]
  exact Bytes.behind_append _ _

/-- A `CTRL-EVENT-SIGNAL-CHANGE` with fields, in which `rssi` and `avg_rssi` are numbers. -/
structure SignalMessage where
  priority : Option Bytes
  fields : List SignalField
  rssi : Int
  avgRssi : Int
  priority_closed : ∀ n ∈ priority, 62 ∉ n
  keys_nodup : (fields.map (·.key)).Nodup
  rssi_field : ∃ f ∈ fields, f.key = Bytes.ascii "rssi" ∧ FromChars.integer? f.value = some rssi
  avgRssi_field : ∃ f ∈ fields, f.key = Bytes.ascii "avg_rssi" ∧
    FromChars.integer? f.value = some avgRssi
  rssi_range : FromChars.InRange rssi
  avgRssi_range : FromChars.InRange avgRssi

namespace SignalMessage

/-- The message behind its priority. -/
def text (m : SignalMessage) : Bytes :=
  Bytes.ascii "CTRL-EVENT-SIGNAL-CHANGE" ++ Bytes.spaced (m.fields.map (·.text))

/-- The message with its priority. -/
def raw (m : SignalMessage) : Bytes :=
  match m.priority with
  | none => m.text
  | some n => 60 :: (n ++ 62 :: m.text)

/-- The event has the values of the two keys. -/
def ReadByName (m : SignalMessage) (iface : Bytes) : Prop :=
  let ev := WpaMonitor.parseEvent m.raw iface
  ev.type = .signalChange ∧ ev.rssi = m.rssi ∧ ev.avgRssi = m.avgRssi

/-- The token in which the text `key=` occurs first. -/
def firstHolding (m : SignalMessage) (key : Bytes) : Option SignalField :=
  m.fields.find? fun f => (Bytes.behind (key ++ [61]) f.text).isSome

/-- The number that a token shows behind the first `key=` in it, 0 where it shows none. -/
def numberBehind (key : Bytes) (f : SignalField) : Int :=
  ((Bytes.behind (key ++ [61]) f.text).bind FromChars.int?).getD 0

/-- The token that holds `key=` first is that of the key, or shows the same number. -/
def HoldsOwnFirst (m : SignalMessage) (key : Bytes) (v : Int) : Prop :=
  ∀ f, m.firstHolding key = some f → f.key = key ∨ numberBehind key f = v

variable (m : SignalMessage)

theorem stripPriority_raw : stripPriority m.raw = m.text := by
  unfold raw
  cases hpriority : m.priority with
  | none =>
    obtain ⟨bs, hbs⟩ : ∃ bs, m.text = 67 :: bs := ⟨_, rfl⟩
    simp only [hbs]
    rfl
  | some n =>
    have hclosed : 62 ∉ 60 :: n := by
      have hn := m.priority_closed n hpriority
      simp [hn]
    have hbehind : Bytes.behind [62] (60 :: (n ++ 62 :: m.text)) = some m.text := by
      rw [← List.cons_append, Bytes.behind_skip hclosed]
      exact Bytes.behind_append [62] m.text
    simp only [stripPriority, hbehind, Option.getD_some]

theorem type_parseEvent (iface : Bytes) :
    (WpaMonitor.parseEvent m.raw iface).type = .signalChange := by
  rw [WpaMonitor.parseEvent_signalChange_iff, stripPriority_raw]
  obtain ⟨f, hf, -⟩ := m.rssi_field
  obtain ⟨g, fields, hfields⟩ := List.exists_cons_of_ne_nil (List.ne_nil_of_mem hf)
  have hevent : wpaEventSignalChange = Bytes.ascii "CTRL-EVENT-SIGNAL-CHANGE" ++ [32] := by decide
  refine ⟨g.text ++ Bytes.spaced (fields.map (·.text)), ?_⟩
  rw [hevent, text, hfields]
  simp [Bytes.spaced]

/-! ### One field -/

theorem findSome?_eq_find?_bind {α β : Type} (g : α → Option β) (xs : List α) :
    xs.findSome? g = (xs.find? fun x => (g x).isSome).bind g := by
  induction xs with
  | nil => rfl
  | cons x xs ih =>
    rw [List.findSome?_cons, List.find?_cons]
    cases hx : g x with
    | none => simpa [hx] using ih
    | some y => simp [hx]

variable {m} {key : Bytes}

/-- What `parseIntField` reads is the number in the first token that holds the key. -/
theorem parseIntField_text (hspace : 32 ∉ key)
    (hname : Bytes.behind (key ++ [61]) (Bytes.ascii "CTRL-EVENT-SIGNAL-CHANGE") = none) :
    parseIntField m.text (key ++ [61]) = ((m.firstHolding key).map (numberBehind key)).getD 0 := by
  have hwords : ∀ w ∈ Bytes.ascii "CTRL-EVENT-SIGNAL-CHANGE" :: m.fields.map (·.text), 32 ∉ w := by
    intro w hw
    rcases List.mem_cons.mp hw with rfl | hw
    · decide
    · obtain ⟨f, -, rfl⟩ := List.mem_map.mp hw
      exact f.space_not_mem_text
  have hkey : 32 ∉ key ++ [61] := by simp [hspace]
  rw [WpaMonitor.parseIntField_eq, text, Bytes.firstWord_behind_spaced hkey (by simp) hwords,
    List.findSome?_cons, hname, List.findSome?_map, findSome?_eq_find?_bind]
  change (((m.firstHolding key).bind _).bind _).getD 0 = _
  cases m.firstHolding key <;> rfl

/-- A field is read by its name exactly when its token comes first, or the one that does shows the
same number. -/
theorem parseIntField_eq_iff {v : Int} (hspace : 32 ∉ key)
    (hname : Bytes.behind (key ++ [61]) (Bytes.ascii "CTRL-EVENT-SIGNAL-CHANGE") = none)
    (hfield : ∃ f ∈ m.fields, f.key = key ∧ FromChars.integer? f.value = some v)
    (hrange : FromChars.InRange v) :
    parseIntField m.text (key ++ [61]) = v ↔ m.HoldsOwnFirst key v := by
  obtain ⟨own, hown, rfl, hvalue⟩ := hfield
  obtain ⟨f, hf⟩ : ∃ f, m.firstHolding own.key = some f := by
    apply Option.isSome_iff_exists.mp
    apply List.find?_isSome.mpr
    exact ⟨own, hown, by rw [own.behind_own]; rfl⟩
  have hread : numberBehind own.key own = v := by
    rw [numberBehind, own.behind_own]
    simp [FromChars.int?_of_integer? hvalue hrange]
  have hsame : f.key = own.key → numberBehind own.key f = v := by
    intro hkey
    have hmem : f ∈ m.fields := List.mem_of_find?_eq_some hf
    rw [List.inj_on_of_nodup_map m.keys_nodup hmem hown hkey, hread]
  rw [parseIntField_text hspace hname, HoldsOwnFirst, hf]
  simp only [Option.map_some, Option.getD_some, Option.some.injEq, forall_eq']
  exact ⟨.inr, fun h => h.elim hsame id⟩

/-- The event of a message has the values of `rssi` and `avg_rssi` exactly when no other token
comes first with another number for one of them. -/
theorem readByName_iff (m : SignalMessage) (iface : Bytes) : m.ReadByName iface ↔
    m.HoldsOwnFirst (Bytes.ascii "rssi") m.rssi ∧
      m.HoldsOwnFirst (Bytes.ascii "avg_rssi") m.avgRssi := by
  have htype := m.type_parseEvent iface
  have hkey : Bytes.ascii "rssi=" = Bytes.ascii "rssi" ++ [61] := by decide
  have havgKey : Bytes.ascii "avg_rssi=" = Bytes.ascii "avg_rssi" ++ [61] := by decide
  have hrssi := parseIntField_eq_iff (by decide) (by decide +kernel) m.rssi_field m.rssi_range
  have havg := parseIntField_eq_iff (by decide) (by decide +kernel) m.avgRssi_field m.avgRssi_range
  rw [ReadByName, WpaMonitor.parseEvent_rssi, WpaMonitor.parseEvent_avgRssi, htype]
  simp only [if_true, true_and, stripPriority_raw, hkey, havgKey]
  exact and_congr hrssi havg

/-- `avg_rssi` before `rssi` is read as both. -/
def averageFirst : SignalMessage where
  priority := none
  fields := [
    { key := Bytes.ascii "avg_rssi", value := Bytes.ascii "-79"
      key_word := by decide, key_ends := by decide, value_word := by decide },
    { key := Bytes.ascii "rssi", value := Bytes.ascii "-80"
      key_word := by decide, key_ends := by decide, value_word := by decide }]
  rssi := -80
  avgRssi := -79
  priority_closed := by simp
  keys_nodup := by decide
  rssi_field := ⟨_, List.mem_cons_of_mem _ List.mem_cons_self, rfl, by decide⟩
  avgRssi_field := ⟨_, List.mem_cons_self, rfl, by decide⟩
  rssi_range := by decide
  avgRssi_range := by decide

theorem averageFirst_raw :
    averageFirst.raw = Bytes.ascii "CTRL-EVENT-SIGNAL-CHANGE avg_rssi=-79 rssi=-80" := by
  decide +kernel

theorem average_read_as_rssi : ¬ ∀ (m : SignalMessage) (iface : Bytes), m.ReadByName iface := by
  intro h
  have hrssi := (h averageFirst (Bytes.ascii "wlan0")).2.1
  rw [averageFirst_raw] at hrssi
  revert hrssi
  decide +kernel

end SignalMessage
end WifiOffload
