import WifiOffload.Api.Representation
import WifiOffload.Library.Frames

/-!
# The streams to the consumers

What the kernel has taken of the messages to each connection. `sendMsg` and `trySendMsg` have the
same loop, which gives up at the first `send` that fails: on a connection whose buffer is full that
is the normal case, as the sockets are non-blocking. The broadcast drops a connection that it could
not send all of a path event to; the request handlers go on as if the reply were sent. So a stream
stays whole exactly while the kernel takes all of every reply.
-/

namespace WifiOffload

open StateMachine

/-- The loop of `sendMsg` and `trySendMsg`: the bytes that the kernel takes, and whether these are
all. `results` are the values that `send` returns, one for each call; it takes no more than it is
given. A turn takes at least one byte, so `fuel` beyond the number of bytes is enough. -/
def sendLoop : Nat → (Nat → Int) → Bytes → Bytes × Bool
  | 0, _, _ => ([], false)
  | fuel + 1, results, bytes =>
    if bytes = [] then ([], true)
    else if results 0 ≤ 0 then ([], false)
    else
      let n := min (results 0).toNat bytes.length
      let rest := sendLoop fuel (fun i => results (i + 1)) (bytes.drop n)
      (bytes.take n ++ rest.1, rest.2)

/-- `sendMsg`: whether the message got through is not told. -/
def sendMsg (results : Nat → Int) (msg : ApiMsg) : Bytes :=
  (sendLoop (ApiMsg.size + 1) results msg.encode).1

def trySendMsg (results : Nat → Int) (msg : ApiMsg) : Bytes × Bool :=
  sendLoop (ApiMsg.size + 1) results msg.encode

/-- No `send` fails before `n` bytes are taken. -/
def TakesAll (results : Nat → Int) (n : Nat) : Prop :=
  ∀ i, ∑ j ∈ Finset.range i, (results j).toNat < n → 0 < results i

theorem takesAll_step {results : Nat → Int} {n : Nat} (hpos : 0 < results 0) :
    TakesAll (fun i => results (i + 1)) (n - min (results 0).toNat n) ↔ TakesAll results n := by
  constructor
  · intro h i hi
    cases i with
    | zero => exact hpos
    | succ i =>
      rw [Finset.sum_range_succ'] at hi
      apply h i
      change ∑ j ∈ Finset.range i, (results (j + 1)).toNat < _
      omega
  · intro h i hi
    change ∑ j ∈ Finset.range i, (results (j + 1)).toNat < _ at hi
    apply h (i + 1)
    rw [Finset.sum_range_succ']
    omega

/-- The loop sends a front of the message, and all of it exactly when no `send` fails before. -/
theorem sendLoop_spec {fuel : Nat} {results : Nat → Int} {bytes : Bytes} (h : bytes.length < fuel) :
    (sendLoop fuel results bytes).1 <+: bytes ∧
      ((sendLoop fuel results bytes).2 = true ↔ (sendLoop fuel results bytes).1 = bytes) ∧
      ((sendLoop fuel results bytes).2 = true ↔ TakesAll results bytes.length) := by
  induction fuel generalizing results bytes with
  | zero => omega
  | succ fuel ih =>
    unfold sendLoop
    by_cases hnil : bytes = []
    · simp [hnil, TakesAll]
    have hlen : 0 < bytes.length := List.length_pos_iff.mpr hnil
    rw [if_neg hnil]
    by_cases hfail : results 0 ≤ 0
    · rw [if_pos hfail]
      refine ⟨List.nil_prefix, by simpa using Ne.symm hnil, iff_of_false (by simp) fun hall => ?_⟩
      exact absurd (hall 0 (by simpa using hlen)) (by omega)
    rw [if_neg hfail]
    have hpos : 0 < (results 0).toNat := by omega
    have hdrop : (bytes.drop (min (results 0).toNat bytes.length)).length =
        bytes.length - min (results 0).toNat bytes.length := List.length_drop
    have hfuel : (bytes.drop (min (results 0).toNat bytes.length)).length < fuel := by omega
    obtain ⟨hsent, hwhole, htakes⟩ := @ih (fun i => results (i + 1)) _ hfuel
    rw [hdrop, takesAll_step (by omega)] at htakes
    refine ⟨?_, ?_, htakes⟩
    · obtain ⟨rest, hrest⟩ := hsent
      exact ⟨rest, by rw [List.append_assoc, hrest, List.take_append_drop]⟩
    · rw [hwhole]
      constructor
      · intro heq
        simp only [heq, List.take_append_drop]
      · intro heq
        have hsplit := List.take_append_drop (min (results 0).toNat bytes.length) bytes
        exact List.append_cancel_left (heq.trans hsplit.symm)

theorem sendMsg_isPrefix (results : Nat → Int) (msg : ApiMsg) :
    sendMsg results msg <+: msg.encode :=
  (sendLoop_spec (by simp)).1

theorem sendMsg_eq_encode_iff {results : Nat → Int} {msg : ApiMsg} :
    sendMsg results msg = msg.encode ↔ TakesAll results ApiMsg.size := by
  have hfuel : msg.encode.length < ApiMsg.size + 1 := by simp
  have hspec := (@sendLoop_spec _ results _ hfuel).2
  rw [ApiMsg.length_encode] at hspec
  exact hspec.1.symm.trans hspec.2

theorem trySendMsg_eq_encode {results : Nat → Int} {msg : ApiMsg}
    (h : (trySendMsg results msg).2 = true) : (trySendMsg results msg).1 = msg.encode :=
  (sendLoop_spec (by simp)).2.1.mp h

theorem ApiMsg.encode_injective : Function.Injective ApiMsg.encode := fun a b h => by
  rw [← ApiMsg.decode_encode a, h, ApiMsg.decode_encode]

/-- The server, and for every connection the bytes that the kernel has taken for it and the
requests handled on it. -/
structure Outgoing where
  server : ConsumerApiServer
  stream : Nat → Bytes := fun _ => []
  requests : Nat → List ApiMsg := fun _ => []

namespace Outgoing

inductive Event where
  | connect (fd : Nat)
  /-- A request is handled; `results` are those of the calls of `send` for the reply. -/
  | message (fd : Nat) (msg : ApiMsg) (results : Nat → Int)
  | disconnect (fd : Nat)
  /-- `results` are those of the calls of `send` for each connection. -/
  | broadcast (classId : Bytes) (newState : PathState) (iface : Bytes) (rssiDbm : Int32)
      (results : Nat → Nat → Int)

def start (classes : List PathClassConfig) : Outgoing := { server := .ofClasses classes }

def step (t : Outgoing) : Event → Outgoing
  | .connect fd =>
    if fd ∈ t.server.clients then t
    else
      { server := t.server.handleAccept fd
        stream := Function.update t.stream fd []
        requests := Function.update t.requests fd [] }
  | .message fd msg results =>
    if fd ∈ t.server.clients then
      let handled := t.server.handle fd msg
      { server := handled.1
        stream := Function.update t.stream fd
          (t.stream fd ++ (Effect.messagesTo fd handled.2).flatMap (sendMsg results))
        requests := Function.update t.requests fd (t.requests fd ++ [msg]) }
    else t
  | .disconnect fd => { t with server := (t.server.step (.disconnect fd)).1 }
  | .broadcast classId newState iface rssiDbm results =>
    let msg := ConsumerApiServer.pathEvent classId newState iface rssiDbm
    let sent := fun fd => (trySendMsg (results fd) msg).2
    { t with
      server := (t.server.broadcastPathEvent classId newState iface rssiDbm sent).1
      -- a connection has one entry, and one message is sent to it
      stream := fun fd =>
        if fd ∈ (t.server.receivers classId).map (·.fd) then
          t.stream fd ++ (trySendMsg (results fd) msg).1
        else t.stream fd }

/-- The stream to a connection is a sequence of complete messages, with one answer to every
request handled on it, in order, among them. -/
def Whole (t : Outgoing) (fd : Nat) : Prop :=
  ∃ msgs : List ApiMsg, t.stream fd = msgs.flatMap ApiMsg.encode ∧
    (msgs.filter (·.type ≠ MsgType.pathEvent.code)).map (·.type) =
      (t.requests fd).map fun msg => MsgType.answer msg.type

/-- The streams to all open connections are whole. -/
def AllWhole (t : Outgoing) : Prop := ∀ fd ∈ t.server.clients, t.Whole fd

/-- The kernel takes all of the reply to a request. -/
def RepliesTaken (t : Outgoing) : Event → Prop
  | .message fd _ results => fd ∈ t.server.clients → TakesAll results ApiMsg.size
  | .connect _ | .disconnect _ | .broadcast .. => True

variable {t : Outgoing} {fd : Nat} {classes : List PathClassConfig}

/-- The bytes of another message, or of a front of it. -/
theorem whole_reply_iff {t' : Outgoing} (h : t.Whole fd) {reply msg : ApiMsg} {taken : Bytes}
    (htaken : taken <+: reply.encode) (hreply : reply.type = MsgType.answer msg.type)
    (hstream : t'.stream fd = t.stream fd ++ taken)
    (hrequests : t'.requests fd = t.requests fd ++ [msg]) :
    t'.Whole fd ↔ taken = reply.encode := by
  obtain ⟨msgs, hmsgs, hanswers⟩ := h
  constructor
  · rintro ⟨msgs', hmsgs', hanswers'⟩
    by_contra hne
    have hlt : taken.length < ApiMsg.size := by
      have hle := htaken.length_le
      rw [ApiMsg.length_encode] at hle
      refine lt_of_le_of_ne hle fun heq => hne (htaken.eq_of_length ?_)
      rw [heq, ApiMsg.length_encode]
    rw [hstream, hmsgs] at hmsgs'
    obtain ⟨rfl, -⟩ := Frames.eq_of_append ApiMsg.length_encode ApiMsg.encode_injective hlt hmsgs'
    rw [hanswers, hrequests] at hanswers'
    simpa using congrArg List.length hanswers'
  · rintro rfl
    refine ⟨msgs ++ [reply], by simp [hstream, hmsgs], ?_⟩
    have hkept : reply.type ≠ MsgType.pathEvent.code := hreply ▸ MsgType.answer_ne_pathEvent _
    rw [hrequests, List.filter_append, List.map_append, hanswers, List.map_append,
      List.filter_cons_of_pos (by simpa using hkept), List.filter_nil]
    simp [hreply]

theorem Whole.congr {t' : Outgoing} (h : t.Whole fd) (hstream : t'.stream fd = t.stream fd)
    (hrequests : t'.requests fd = t.requests fd) : t'.Whole fd := by
  unfold Whole
  rwa [hstream, hrequests]

/-- A connection that a broadcast leaves open has been sent all of the message. -/
theorem mem_clients_broadcast {s : ConsumerApiServer} (hclients : s.clients.Nodup)
    {classId : Bytes} {newState : PathState} {iface : Bytes} {rssiDbm : Int32} {sent : Nat → Bool}
    (h : fd ∈ (s.broadcastPathEvent classId newState iface rssiDbm sent).1.clients) :
    fd ∈ s.clients ∧ (fd ∈ (s.receivers classId).map (·.fd) → sent fd = true) := by
  simp only [ConsumerApiServer.broadcastPathEvent, ConsumerApiServer.clients_dropAllBroken] at h
  obtain ⟨hopen, hkept⟩ := (List.Nodup.mem_sdiff_iff hclients).mp h
  refine ⟨hopen, fun hreceiver => ?_⟩
  obtain ⟨e, he, rfl⟩ := List.mem_map.mp hreceiver
  by_contra hsent
  refine hkept (List.mem_map.mpr ⟨e, List.mem_filter.mpr ⟨he, ?_⟩, rfl⟩)
  simpa using hsent

theorem clients_nodup_step (hclients : t.server.clients.Nodup) (e : Event) :
    (t.step e).server.clients.Nodup := by
  cases e with
  | connect fd =>
    simp only [step]
    split
    · exact hclients
    · exact ConsumerApiServer.Trimmed.handleAccept.clients_nodup hclients
  | message fd msg results =>
    simp only [step]
    split
    · rwa [ConsumerApiServer.clients_handle]
    · exact hclients
  | disconnect fd =>
    simp only [step, ConsumerApiServer.step]
    split
    · rw [ConsumerApiServer.clients_removeClient]
      exact hclients.erase fd
    · exact hclients
  | broadcast classId newState iface rssiDbm results =>
    simp only [step, ConsumerApiServer.broadcastPathEvent, ConsumerApiServer.clients_dropAllBroken]
    exact hclients.diff

/-- A new connection starts with an empty stream. -/
theorem AllWhole.connect (h : t.AllWhole) (fd : Nat) : (t.step (.connect fd)).AllWhole := by
  simp only [step]
  split
  · exact h
  · next hnew =>
    intro c hc
    by_cases hcfd : c = fd
    · subst hcfd
      exact ⟨[], by simp, by simp⟩
    · rw [ConsumerApiServer.handleAccept, if_neg hnew] at hc
      have hopen : c ∈ t.server.clients := by simpa [hcfd] using hc
      exact (h c hopen).congr (Function.update_of_ne hcfd _ _) (Function.update_of_ne hcfd _ _)

theorem AllWhole.disconnect (h : t.AllWhole) (fd : Nat) : (t.step (.disconnect fd)).AllWhole := by
  simp only [step, ConsumerApiServer.step]
  split
  · intro c hc
    rw [ConsumerApiServer.clients_removeClient] at hc
    exact h c (List.mem_of_mem_erase hc)
  · exact h

/-- A request leaves the streams whole if all of its reply is taken. -/
theorem allWhole_message_iff (h : t.AllWhole) (hopen : fd ∈ t.server.clients) (msg : ApiMsg)
    (results : Nat → Int) :
    (t.step (.message fd msg results)).AllWhole ↔ TakesAll results ApiMsg.size := by
  obtain ⟨reply, htype, hsent⟩ := t.server.messagesTo_handle fd msg
  have hstep : t.step (.message fd msg results) =
      { server := (t.server.handle fd msg).1
        stream := Function.update t.stream fd (t.stream fd ++ sendMsg results reply)
        requests := Function.update t.requests fd (t.requests fd ++ [msg]) } := by
    simp [step, hopen, hsent]
  have hreply : (t.step (.message fd msg results)).Whole fd ↔ TakesAll results ApiMsg.size := by
    rw [whole_reply_iff (h fd hopen) (sendMsg_isPrefix results reply) htype,
      sendMsg_eq_encode_iff]
    · simp [hstep]
    · simp [hstep]
  have hclients : (t.step (.message fd msg results)).server.clients = t.server.clients := by
    rw [hstep]
    exact t.server.clients_handle fd msg
  constructor
  · intro hall
    exact hreply.mp (hall fd (by rwa [hclients]))
  · intro htaken c hc
    by_cases hcfd : c = fd
    · rw [hcfd]
      exact hreply.mpr htaken
    · rw [hclients] at hc
      exact (h c hc).congr (by simp [hstep, hcfd]) (by simp [hstep, hcfd])

/-- A broadcast sends whole messages to the connections that stay open. -/
theorem AllWhole.broadcast (h : t.AllWhole) (hclients : t.server.clients.Nodup) (classId : Bytes)
    (newState : PathState) (iface : Bytes) (rssiDbm : Int32) (results : Nat → Nat → Int) :
    (t.step (.broadcast classId newState iface rssiDbm results)).AllWhole := by
  intro c hc
  simp only [step] at hc
  obtain ⟨hopen, hsent⟩ := mem_clients_broadcast hclients hc
  obtain ⟨msgs, hmsgs, hanswers⟩ := h c hopen
  by_cases hreceiver : c ∈ (t.server.receivers classId).map (·.fd)
  · have hevent : [ConsumerApiServer.pathEvent classId newState iface rssiDbm].filter
        (·.type ≠ MsgType.pathEvent.code) = [] := by simp [ConsumerApiServer.pathEvent]
    refine ⟨msgs ++ [ConsumerApiServer.pathEvent classId newState iface rssiDbm],
      (if_pos hreceiver).trans ?_, ?_⟩
    · rw [trySendMsg_eq_encode (hsent hreceiver), hmsgs]
      simp
    · rw [List.filter_append, hevent, List.append_nil]
      exact hanswers
  · exact ⟨msgs, (if_neg hreceiver).trans hmsgs, hanswers⟩

/-- One event, with all streams whole before it. -/
theorem allWhole_step_iff (hclients : t.server.clients.Nodup) (h : t.AllWhole) (e : Event) :
    (t.step e).AllWhole ↔ t.RepliesTaken e := by
  cases e with
  | connect fd => exact iff_of_true (h.connect fd) trivial
  | message fd msg results =>
    by_cases hopen : fd ∈ t.server.clients
    · rw [allWhole_message_iff h hopen, RepliesTaken, forall_prop_of_true hopen]
    · have hstep : t.step (.message fd msg results) = t := if_neg hopen
      rw [hstep]
      exact iff_of_true h fun h => absurd h hopen
  | disconnect fd => exact iff_of_true (h.disconnect fd) trivial
  | broadcast classId newState iface rssiDbm results =>
    exact iff_of_true (h.broadcast hclients classId newState iface rssiDbm results) trivial

/-- The streams to the open connections are whole in every state of a run exactly when the kernel
takes all of every reply. -/
theorem streams_whole_iff (classes : List PathClassConfig) (es : List Event) :
    Throughout step AllWhole (start classes) es ↔ StepsMeet step RepliesTaken (start classes) es :=
  throughout_iff_stepsMeet (I := fun t => t.server.clients.Nodup)
    (fun _ e h => clients_nodup_step h e) (fun _ e hI h => allWhole_step_iff hI h e) .nil
    (fun fd hfd => by cases hfd) es

/-- The kernel takes 40 bytes of the answer to a registration; the connection stays open, and the
path event that is sent to it next starts in the middle of a message. -/
theorem reply_cut_short :
    let taken : Nat → Int := fun i => if i = 0 then 40 else -1
    let es : List Event := [.connect 7, .message 7 (registerMsg 100 "multipath") taken,
      .broadcast (Bytes.ascii "multipath") .pathUp (Bytes.ascii "eth0.100") (-60) fun _ _ => 96]
    7 ∈ (run step (start pathPolicies) es).server.clients ∧
      ((run step (start pathPolicies) es).stream 7).length = 136 ∧
      ¬ Throughout step AllWhole (start pathPolicies) es := by
  intro taken es
  have hopen : 7 ∈ (run step (start pathPolicies) es).server.clients := by decide
  have hlength : ((run step (start pathPolicies) es).stream 7).length = 136 := by decide +kernel
  refine ⟨hopen, hlength, fun hall => ?_⟩
  obtain ⟨msgs, hmsgs, -⟩ := hall.last 7 hopen
  have hframes := congrArg List.length hmsgs
  simp only [hlength, List.length_flatMap, ApiMsg.length_encode, List.map_const',
    List.sum_replicate, ApiMsg.size, smul_eq_mul] at hframes
  omega

end Outgoing
end WifiOffload
