import WifiOffload.Library.Words

/-!
# The control interface library

`wpa/wpa_ctrl.c` as it is compiled here, for sockets in the file system: `wpa_ctrl_open2`,
`wpa_ctrl_close`, `wpa_ctrl_request` and `wpa_ctrl_attach_helper`. The resources of the process
and the client directory are state; how the system calls come out is the environment. A request
is taken turn by turn, one for each call of `send` and each turn of its receive loop, so that
messages can arrive in between.
-/

namespace WifiOffload

/-! ## Time -/

/-- `struct os_reltime`. -/
structure Reltime where
  sec : Int := 0
  usec : Int := 0
  deriving DecidableEq, Repr

namespace Reltime

def micros (t : Reltime) : Int := t.sec * 1000000 + t.usec

/-- A reading of the clock. -/
def IsReading (t : Reltime) : Prop := 0 ≤ t.usec ∧ t.usec < 1000000

end Reltime

def osReltimeExpired (now ts : Reltime) (timeoutSecs : Int) : Bool :=
  let sec := now.sec - ts.sec
  let usec := now.usec - ts.usec
  let age : Reltime := if usec < 0 then ⟨sec - 1, usec + 1000000⟩ else ⟨sec, usec⟩
  age.sec > timeoutSecs || (age.sec = timeoutSecs && age.usec > 0)

/-- The borrow from the seconds makes the comparison one of microseconds. -/
theorem osReltimeExpired_iff {now ts : Reltime} (hnow : now.IsReading) (hts : ts.IsReading)
    (timeoutSecs : Int) : osReltimeExpired now ts timeoutSecs = true ↔
      timeoutSecs * 1000000 < now.micros - ts.micros := by
  obtain ⟨hnow₀, hnow₁⟩ := hnow
  obtain ⟨hts₀, hts₁⟩ := hts
  unfold osReltimeExpired Reltime.micros
  by_cases hborrow : now.usec - ts.usec < 0
  · simp only [if_pos hborrow, gt_iff_lt, Bool.or_eq_true, Bool.and_eq_true, decide_eq_true_eq]
    omega
  · simp only [if_neg hborrow, gt_iff_lt, Bool.or_eq_true, Bool.and_eq_true, decide_eq_true_eq]
    omega

/-! ## Requests -/

inductive SendReturn where
  | sent
  /-- `EAGAIN`, `EBUSY` or `EWOULDBLOCK`. -/
  | busy
  | failed
  deriving DecidableEq, Repr

inductive SelectReturn where
  | interrupted | failed | timeout | ready
  deriving DecidableEq, Repr

/-- How the calls of one turn come out: `send` with the clock behind it, or `select` with what
`recv` finds, none for an error. -/
structure RequestEnv where
  sent : SendReturn := .sent
  now : Reltime := {}
  selected : SelectReturn := .ready
  received : Option Bytes := none
  deriving DecidableEq, Repr

/-- Where a request is: in front of `send`, with the time of the first refused one, or in the
receive loop. -/
inductive RequestPoint where
  | send (startedAt : Reltime)
  | receive
  deriving DecidableEq, Repr

/-- The start of `wpa_ctrl_request`. -/
def RequestPoint.start : RequestPoint := .send {}

inductive RequestTurn where
  | goesOn (point : RequestPoint)
  | returns (res : Int) (reply : Bytes)
  deriving DecidableEq, Repr

/-- A message that is not taken for a reply. -/
def isUnsolicited (msg : Bytes) : Bool :=
  msg.head? = some 60 || (6 < msg.length && msg.take 7 = Bytes.ascii "IFNAME=")

/-- One turn of `wpa_ctrl_request` without a `msg_cb`, for a buffer of `replyLen` bytes. -/
def requestTurn (replyLen : Nat) (env : RequestEnv) : RequestPoint → RequestTurn
  | .send startedAt =>
    match env.sent with
    | .sent => .goesOn .receive
    | .failed => .returns (-1) []
    | .busy =>
      if startedAt.sec = 0 then .goesOn (.send env.now)
      else if osReltimeExpired env.now startedAt 5 then .returns (-1) []
      else .goesOn (.send startedAt)
  | .receive =>
    match env.selected with
    | .interrupted => .goesOn .receive
    | .failed => .returns (-1) []
    | .timeout => .returns (-2) []
    | .ready =>
      match env.received with
      | none => .returns (-1) []
      | some msg =>
        let reply := msg.take replyLen
        if isUnsolicited reply then .goesOn .receive else .returns 0 reply

/-- The buffer of `wpa_ctrl_attach_helper`. -/
def attachReplyLen : Nat := 10

def okReply : Bytes := Bytes.ascii "OK\n"

/-- What `wpa_ctrl_attach_helper` makes of its request. -/
def attachResult (res : Int) (reply : Bytes) : Int :=
  if res < 0 then res else if reply = okReply then 0 else -1

/-- `wpa_ctrl_attach_helper` in the turns of `envs`, none as long as it has not returned. -/
def wpaCtrlAttachHelper : RequestPoint → List RequestEnv → Option Int
  | _, [] => none
  | point, env :: envs =>
    match requestTurn attachReplyLen env point with
    | .goesOn next => wpaCtrlAttachHelper next envs
    | .returns res reply => some (attachResult res reply)

/-! ## Opening and closing -/

/-- What a process holds, and the names in its client directories. -/
structure CtrlSystem where
  files : List Bytes := []
  sockets : Nat := 0
  allocs : Nat := 0
  /-- The static variable of `wpa_ctrl_open2`. -/
  counter : Nat := 0
  deriving DecidableEq, Repr

/-- A `struct wpa_ctrl` that has been opened. -/
structure WpaCtrl where
  localPath : Bytes
  dest : Bytes
  deriving DecidableEq, Repr

/-- `sizeof(sun_path)`. -/
def sunPathSize : Nat := 108

/-- How the calls of `wpa_ctrl_open2` come out; `bindFails` is for the first and the second try,
and for reasons other than `EADDRINUSE`. -/
structure OpenEnv where
  allocated : Bool := true
  socketOpened : Bool := true
  bindFails : Bool × Bool := (false, false)
  unlinked : Bool := true
  connected : Bool := true
  deriving DecidableEq, Repr

/-- The name that a socket is bound to. -/
def clientPath (pid counter : Nat) (cliPath : Option Bytes) : Bytes :=
  let dir := match cliPath with
    | some (47 :: rest) => Bytes.cString (47 :: rest)
    | _ => Bytes.ascii "/tmp"
  dir ++ Bytes.ascii "/wpa_ctrl_" ++ Word.decimal pid ++ Bytes.ascii "-" ++ Word.decimal counter

/-- `bind`: the error is `EADDRINUSE` where the name exists. -/
def bindSocket (fails : Bool) (path : Bytes) (s : CtrlSystem) : Except Bool CtrlSystem :=
  if path ∈ s.files then .error true
  else if fails then .error false
  else .ok { s with files := s.files ++ [path] }

def unlinkPath (path : Bytes) (s : CtrlSystem) : CtrlSystem :=
  { s with files := s.files.filter (· ≠ path) }

/-- `close` and `os_free`. -/
def closeAndFree (s : CtrlSystem) : CtrlSystem :=
  { s with sockets := s.sockets - 1, allocs := s.allocs - 1 }

/-- `bind` with one more try behind the removal of a name that is in use. -/
def bindOrReplace (env : OpenEnv) (path : Bytes) (s : CtrlSystem) : Bool × CtrlSystem :=
  match bindSocket env.bindFails.1 path s with
  | .ok s => (true, s)
  | .error false => (false, s)
  | .error true =>
    let s := if env.unlinked then unlinkPath path s else s
    match bindSocket env.bindFails.2 path s with
    | .ok s => (true, s)
    | .error _ => (false, s)

/-- The address to connect to, if it fits; an abstract one is cut. -/
def destPath (ctrlPath : Bytes) : Option Bytes :=
  let text := Bytes.cString ctrlPath
  if text.take 10 = Bytes.ascii "@abstract:" then
    some (0 :: (text.drop 10).take (sunPathSize - 2))
  else if text.length < sunPathSize then some text
  else none

def wpaCtrlOpen2 (pid : Nat) (ctrlPath : Bytes) (cliPath : Option Bytes) (env : OpenEnv)
    (s : CtrlSystem) : Option WpaCtrl × CtrlSystem :=
  if !env.allocated then (none, s)
  else
    let s := { s with allocs := s.allocs + 1 }
    if !env.socketOpened then (none, { s with allocs := s.allocs - 1 })
    else
      let s := { s with sockets := s.sockets + 1, counter := s.counter + 1 }
      let path := clientPath pid s.counter cliPath
      if sunPathSize ≤ path.length then (none, closeAndFree s)
      else
        let bound := bindOrReplace env path s
        if !bound.1 then (none, closeAndFree bound.2)
        else
          match destPath ctrlPath with
          -- the name is not removed here
          | none => (none, closeAndFree bound.2)
          | some dest =>
            if !env.connected then (none, closeAndFree (unlinkPath path bound.2))
            else (some ⟨path, dest⟩, bound.2)

def wpaCtrlOpen (pid : Nat) (ctrlPath : Bytes) (env : OpenEnv) (s : CtrlSystem) :
    Option WpaCtrl × CtrlSystem := wpaCtrlOpen2 pid ctrlPath none env s

def wpaCtrlClose (ctrl : WpaCtrl) (s : CtrlSystem) : CtrlSystem :=
  closeAndFree (unlinkPath ctrl.localPath s)

/-! ## What an open leaves -/

theorem filter_concat_self_subset (files : List Bytes) (path : Bytes) :
    (files ++ [path]).filter (· ≠ path) ⊆ files := by
  intro f hf
  simp only [List.filter_append, List.mem_append, List.mem_filter, decide_eq_true_eq] at hf
  rcases hf with ⟨hf, -⟩ | ⟨hf, hne⟩
  · exact hf
  · exact absurd (List.mem_singleton.mp hf) hne

/-- Whatever comes of it, `bind` adds the name of the socket at most. -/
theorem bindOrReplace_cases (env : OpenEnv) (path : Bytes) (s : CtrlSystem) :
    ∃ files ⊆ s.files, bindOrReplace env path s = (false, { s with files }) ∨
      bindOrReplace env path s = (true, { s with files := files ++ [path] }) := by
  have hfiles : s.files.filter (· ≠ path) ⊆ s.files := fun f hf => List.mem_of_mem_filter hf
  unfold bindOrReplace bindSocket unlinkPath
  by_cases hmem : path ∈ s.files
  · simp only [if_pos hmem]
    cases env.unlinked with
    | true =>
      have hgone : path ∉ s.files.filter (· ≠ path) := by simp
      simp only [if_true, if_neg hgone]
      cases env.bindFails.2 with
      | true => exact ⟨_, hfiles, .inl rfl⟩
      | false => exact ⟨_, hfiles, .inr rfl⟩
    | false =>
      simp only [Bool.false_eq_true, if_false, if_pos hmem]
      exact ⟨_, List.Subset.refl _, .inl rfl⟩
  · simp only [if_neg hmem]
    cases env.bindFails.1 with
    | true => exact ⟨_, List.Subset.refl _, .inl rfl⟩
    | false => exact ⟨_, List.Subset.refl _, .inr rfl⟩

/-- An open that fails gives back its memory and its socket, and the name as well if the control
path fits; one that does not holds one of each. -/
theorem wpaCtrlOpen2_cases (pid : Nat) (ctrlPath : Bytes) (cliPath : Option Bytes) (env : OpenEnv)
    (s : CtrlSystem) : ∃ files ⊆ s.files, ∃ counter,
      wpaCtrlOpen2 pid ctrlPath cliPath env s = (none, { s with files, counter }) ∨
      ∃ path, (destPath ctrlPath = none ∧ wpaCtrlOpen2 pid ctrlPath cliPath env s =
          (none, { s with files := files ++ [path], counter })) ∨
        ∃ dest, destPath ctrlPath = some dest ∧ wpaCtrlOpen2 pid ctrlPath cliPath env s =
          (some ⟨path, dest⟩, ⟨files ++ [path], s.sockets + 1, s.allocs + 1, counter⟩) := by
  have hself := List.Subset.refl s.files
  unfold wpaCtrlOpen2
  cases env.allocated with
  | false => exact ⟨s.files, hself, s.counter, .inl rfl⟩
  | true =>
  cases env.socketOpened with
  | false => exact ⟨s.files, hself, s.counter, .inl rfl⟩
  | true =>
  simp only [Bool.not_true, Bool.false_eq_true, if_false]
  split
  · exact ⟨s.files, hself, s.counter + 1, .inl rfl⟩
  · obtain ⟨path, hpath⟩ : ∃ path, path = clientPath pid (s.counter + 1) cliPath := ⟨_, rfl⟩
    obtain ⟨files, hsub, hbind⟩ := bindOrReplace_cases env path
      ⟨s.files, s.sockets + 1, s.allocs + 1, s.counter + 1⟩
    rw [← hpath]
    rcases hbind with hbind | hbind
    · rw [hbind]
      exact ⟨files, hsub, s.counter + 1, .inl rfl⟩
    · rw [hbind]
      cases hdest : destPath ctrlPath with
      | none => exact ⟨files, hsub, s.counter + 1, .inr ⟨path, .inl ⟨rfl, rfl⟩⟩⟩
      | some dest =>
        cases env.connected with
        | true => exact ⟨files, hsub, s.counter + 1, .inr ⟨path, .inr ⟨dest, rfl, rfl⟩⟩⟩
        | false =>
          exact ⟨(files ++ [path]).filter (· ≠ path),
            List.Subset.trans (filter_concat_self_subset files path) hsub, s.counter + 1, .inl rfl⟩

/-- A close gives back what the open has taken. -/
theorem wpaCtrlClose_of_open (files : List Bytes) (path dest : Bytes) (s : CtrlSystem)
    (counter : Nat) : ∃ kept ⊆ files,
      wpaCtrlClose ⟨path, dest⟩ ⟨files ++ [path], s.sockets + 1, s.allocs + 1, counter⟩ =
        ⟨kept, s.sockets, s.allocs, counter⟩ :=
  ⟨(files ++ [path]).filter (· ≠ path), filter_concat_self_subset files path, rfl⟩

/-! ## When an attach succeeds -/

/-- The buffer is long enough to tell replies from events. -/
theorem isUnsolicited_take {n : Nat} (hn : 7 ≤ n) (msg : Bytes) :
    isUnsolicited (msg.take n) = isUnsolicited msg := by
  have hhead : (msg.take n).head? = msg.head? := by
    cases msg with
    | nil => simp
    | cons b bs =>
      cases n with
      | zero => omega
      | succ n => simp
  have hlen : (6 < (msg.take n).length) = (6 < msg.length) := by
    rw [List.length_take]
    exact propext (by omega)
  rw [isUnsolicited, isUnsolicited, hhead, List.take_take, min_eq_left hn]
  simp only [hlen]

/-- A turn of the receive loop that goes on: a signal came in, or an event that is dropped. -/
def PassedOver (env : RequestEnv) : Prop :=
  env.selected = .interrupted ∨
    (env.selected = .ready ∧ ∃ msg, env.received = some msg ∧ isUnsolicited msg = true)

/-- No reading is more than five seconds behind the first one; one from the first second of the
epoch does not count as the first. -/
def StillTrying (startedAt : Reltime) : List Reltime → Prop
  | [] => True
  | t :: ts =>
    if startedAt.sec = 0 then StillTrying t ts
    else osReltimeExpired t startedAt 5 = false ∧ StillTrying startedAt ts

/-- The reply that the attach waits for. -/
def Confirmed (env : RequestEnv) : Prop := env.selected = .ready ∧ env.received = some okReply

theorem Confirmed.not_passedOver {env : RequestEnv} (h : Confirmed env) : ¬ PassedOver env := by
  rintro (hint | ⟨-, msg, hmsg, huns⟩)
  · simp [h.1] at hint
  · rw [h.2, Option.some.injEq] at hmsg
    rw [← hmsg] at huns
    exact absurd huns (by decide)

/-- A message that is cut to the buffer is no confirmation. -/
theorem take_eq_okReply_iff {msg : Bytes} : msg.take attachReplyLen = okReply ↔ msg = okReply := by
  constructor
  · intro h
    have hlen := congrArg List.length h
    rw [List.length_take, show okReply.length = 3 from rfl] at hlen
    rwa [List.take_of_length_le (by unfold attachReplyLen at *; omega)] at h
  · rintro rfl
    rfl

/-- A turn of the receive loop passes over what arrived, or ends the attach. -/
theorem receiveTurn_cases (env : RequestEnv) :
    (PassedOver env ∧ requestTurn attachReplyLen env .receive = .goesOn .receive) ∨
      ¬ PassedOver env ∧ ∃ res reply, requestTurn attachReplyLen env .receive = .returns res reply ∧
        (attachResult res reply = 0 ↔ Confirmed env) := by
  unfold PassedOver Confirmed requestTurn
  cases hsel : env.selected with
  | interrupted => simp
  | failed | timeout => simp [attachResult]
  | ready =>
    cases hrecv : env.received with
    | none => simp [attachResult]
    | some msg =>
      have huns := isUnsolicited_take (n := attachReplyLen) (by decide) msg
      cases hmsg : isUnsolicited msg with
      | true => simp [huns, hmsg]
      | false => simp [huns, hmsg, attachResult, take_eq_okReply_iff]

/-- A split of a list at one of its elements is at the head or behind it. -/
theorem exists_split_cons {α : Type*} {P : List α → Prop} {Q : α → List α → Prop} {x : α}
    {l : List α} :
    (∃ before y after, x :: l = before ++ y :: after ∧ P before ∧ Q y after) ↔
      (P [] ∧ Q x l) ∨
        ∃ before y after, l = before ++ y :: after ∧ P (x :: before) ∧ Q y after := by
  constructor
  · rintro ⟨before, y, after, heq, hP, hQ⟩
    cases before with
    | nil =>
      obtain ⟨rfl, rfl⟩ := List.cons.inj heq
      exact .inl ⟨hP, hQ⟩
    | cons b before =>
      obtain ⟨rfl, rfl⟩ := List.cons.inj heq
      exact .inr ⟨before, y, after, rfl, hP, hQ⟩
  · rintro (⟨hP, hQ⟩ | ⟨before, y, after, rfl, hP, hQ⟩)
    · exact ⟨[], x, l, rfl, hP, hQ⟩
    · exact ⟨x :: before, y, after, rfl, hP, hQ⟩

theorem receive_succeeds_iff (envs : List RequestEnv) :
    wpaCtrlAttachHelper .receive envs = some 0 ↔
      ∃ passed last rest, envs = passed ++ last :: rest ∧ (∀ env ∈ passed, PassedOver env) ∧
        Confirmed last := by
  induction envs with
  | nil => simp [wpaCtrlAttachHelper]
  | cons env envs ih =>
    have hsplit := exists_split_cons (P := fun passed => ∀ e ∈ passed, PassedOver e)
      (Q := fun last _ => Confirmed last) (x := env) (l := envs)
    rw [hsplit]
    rcases receiveTurn_cases env with ⟨hpass, hturn⟩ | ⟨hpass, res, reply, hturn, hresult⟩
    · have hnot : ¬ Confirmed env := fun hlast => hlast.not_passedOver hpass
      simp [wpaCtrlAttachHelper, hturn, ih, hpass, hnot]
    · simp [wpaCtrlAttachHelper, hturn, hresult, hpass]

/-- The refused sends of a request that is still trying. -/
def Refused (startedAt : Reltime) (refused : List RequestEnv) : Prop :=
  (∀ env ∈ refused, env.sent = .busy) ∧ StillTrying startedAt (refused.map (·.now))

theorem refused_cons {startedAt : Reltime} {env : RequestEnv} {refused : List RequestEnv} :
    Refused startedAt (env :: refused) ↔ env.sent = .busy ∧
      if startedAt.sec = 0 then Refused env.now refused
      else osReltimeExpired env.now startedAt 5 = false ∧ Refused startedAt refused := by
  unfold Refused
  simp only [List.forall_mem_cons, List.map_cons, StillTrying]
  split <;> tauto

theorem send_succeeds_iff (startedAt : Reltime) (envs : List RequestEnv) :
    wpaCtrlAttachHelper (.send startedAt) envs = some 0 ↔
      ∃ refused sent rest, envs = refused ++ sent :: rest ∧ Refused startedAt refused ∧
        sent.sent = .sent ∧ wpaCtrlAttachHelper .receive rest = some 0 := by
  induction envs generalizing startedAt with
  | nil => simp [wpaCtrlAttachHelper]
  | cons env envs ih =>
    have hsplit := exists_split_cons (P := Refused startedAt)
      (Q := fun sent rest => sent.sent = .sent ∧ wpaCtrlAttachHelper .receive rest = some 0)
      (x := env) (l := envs)
    have hnone : Refused startedAt [] := ⟨by simp, trivial⟩
    rw [hsplit]
    simp only [refused_cons, wpaCtrlAttachHelper, requestTurn]
    cases hsent : env.sent with
    | sent => simp [hnone]
    | failed => simp [attachResult]
    | busy =>
      by_cases hzero : startedAt.sec = 0
      · simp [hzero, ih]
      · cases hexp : osReltimeExpired env.now startedAt 5 with
        | true => simp [hzero, attachResult]
        | false => simp [hzero, ih]

/-- An attach succeeds exactly when its request is sent, after refusals that end in time, and the
first message that is no event is the confirmation. -/
theorem attach_succeeds_iff (envs : List RequestEnv) :
    wpaCtrlAttachHelper .start envs = some 0 ↔
      ∃ refused sent passed last rest, envs = refused ++ sent :: passed ++ last :: rest ∧
        Refused {} refused ∧ sent.sent = .sent ∧ (∀ env ∈ passed, PassedOver env) ∧
          Confirmed last := by
  rw [RequestPoint.start, send_succeeds_iff]
  simp only [receive_succeeds_iff]
  constructor
  · rintro ⟨refused, sent, -, rfl, hrefused, hsent, passed, last, rest, rfl, hpassed, hlast⟩
    exact ⟨refused, sent, passed, last, rest, by simp, hrefused, hsent, hpassed, hlast⟩
  · rintro ⟨refused, sent, passed, last, rest, rfl, hrefused, hsent, hpassed, hlast⟩
    exact ⟨refused, sent, passed ++ last :: rest, by simp, hrefused, hsent,
      passed, last, rest, rfl, hpassed, hlast⟩

/-- A socket that is full at the first try, then a signal and an event before the reply. -/
example :
    let event := Bytes.ascii "<3>CTRL-EVENT-SIGNAL-CHANGE above=0 signal=-80"
    wpaCtrlAttachHelper .start
      [{ sent := .busy, now := ⟨1000, 0⟩ }, { sent := .sent }, { selected := .interrupted },
       { received := some event }, { received := some okReply }] = some 0 := by decide

/-! ## When an attach gives up -/

/-- While every send is refused, only the clock ends the request. -/
theorem send_of_busy {envs : List RequestEnv} (hbusy : ∀ env ∈ envs, env.sent = .busy)
    {startedAt : Reltime} (hepoch : startedAt.sec ≠ 0) :
    wpaCtrlAttachHelper (.send startedAt) envs =
      if ∃ env ∈ envs, osReltimeExpired env.now startedAt 5 then some (-1) else none := by
  induction envs with
  | nil => simp [wpaCtrlAttachHelper]
  | cons env envs ih =>
    have hrest : ∀ e ∈ envs, e.sent = .busy := fun e he => hbusy e (by simp [he])
    simp only [wpaCtrlAttachHelper, requestTurn, hbusy env (by simp), if_neg hepoch]
    cases hexp : osReltimeExpired env.now startedAt 5 with
    | true => simp [hexp, attachResult]
    | false => simpa [hexp] using ih hrest

/-- The first refusal starts the clock. -/
theorem start_of_busy {first : RequestEnv} (hbusy : first.sent = .busy) (later : List RequestEnv) :
    wpaCtrlAttachHelper .start (first :: later) =
      wpaCtrlAttachHelper (.send first.now) later := by
  simp [wpaCtrlAttachHelper, requestTurn, RequestPoint.start, hbusy]

/-- When every send is refused, the request fails at the first refusal that is more than five
seconds behind the first one, and goes on until then. -/
theorem attach_gives_up (first : RequestEnv) (later : List RequestEnv)
    (hbusy : ∀ env ∈ first :: later, env.sent = .busy)
    (hread : ∀ env ∈ first :: later, env.now.IsReading) (hepoch : first.now.sec ≠ 0) :
    wpaCtrlAttachHelper .start (first :: later) =
      if ∃ env ∈ later, first.now.micros + 5000000 < env.now.micros then some (-1) else none := by
  obtain ⟨hfirst, hlater⟩ := List.forall_mem_cons.mp hbusy
  have hlate : (∃ env ∈ later, osReltimeExpired env.now first.now 5) ↔
      ∃ env ∈ later, first.now.micros + 5000000 < env.now.micros := by
    refine exists_congr fun env => and_congr_right fun henv => ?_
    rw [osReltimeExpired_iff (hread env (by simp [henv])) (hread first (by simp))]
    omega
  rw [start_of_busy hfirst, send_of_busy hlater hepoch, if_congr hlate rfl rfl]

/-- On a socket that stays full the fifth second has just passed with the sixth refusal. -/
theorem attach_gives_up_full :
    let refusal (i : Nat) : RequestEnv := { sent := .busy, now := ⟨1000 + i, i⟩ }
    wpaCtrlAttachHelper .start (refusal 0 :: [1, 2, 3, 4].map refusal) = none ∧
      wpaCtrlAttachHelper .start (refusal 0 :: [1, 2, 3, 4, 5].map refusal) = some (-1) := by
  intro refusal
  have hread (i : Nat) (hi : i ≤ 5) : (refusal i).now.IsReading := by
    simp only [refusal, Reltime.IsReading]
    omega
  constructor
  · rw [attach_gives_up (refusal 0) _ (by simp [refusal]) (by simp [hread]) (by decide)]
    decide
  · rw [attach_gives_up (refusal 0) _ (by simp [refusal]) (by simp [hread]) (by decide)]
    decide

/-- A second for each sleep. -/
theorem micros_le_of_isChain {t : Reltime} {ts : List Reltime}
    (h : (t :: ts).IsChain fun t u => t.micros + 1000000 ≤ u.micros) {i : Nat}
    (hi : i < ts.length) : t.micros + (i + 1) * 1000000 ≤ ts[i].micros := by
  induction ts generalizing t i with
  | nil => cases hi
  | cons u us ih =>
    obtain ⟨hstep, hrest⟩ := List.isChain_cons_cons.mp h
    cases i with
    | zero => simpa using hstep
    | succ i =>
      have hu := ih hrest (Nat.lt_of_succ_lt_succ hi)
      rw [List.getElem_cons_succ]
      push_cast
      omega

/-- When every refused send is followed by a sleep of at least a second, the seventh refusal is
the last: a monitor does not hang on a socket that stays full. -/
theorem gives_up_by_seventh {envs : List RequestEnv} (hbusy : ∀ env ∈ envs, env.sent = .busy)
    (hread : ∀ env ∈ envs, env.now.IsReading ∧ env.now.sec ≠ 0)
    (hsleep : (envs.map (·.now)).IsChain fun t u => t.micros + 1000000 ≤ u.micros)
    (hlen : 7 ≤ envs.length) : wpaCtrlAttachHelper .start envs = some (-1) := by
  cases envs with
  | nil => simp at hlen
  | cons first later =>
    have hi : 5 < later.length := by
      rw [List.length_cons] at hlen
      omega
    have hi' : 5 < (later.map (·.now)).length := by rwa [List.length_map]
    have hmicros := micros_le_of_isChain hsleep hi'
    simp only [List.getElem_map] at hmicros
    have hexpired : osReltimeExpired later[5].now first.now 5 = true := by
      have hread₅ := (hread later[5] (List.mem_cons_of_mem _ (List.getElem_mem hi))).1
      rw [osReltimeExpired_iff hread₅ (hread first (by simp)).1]
      omega
    obtain ⟨hfirst, hlater⟩ := List.forall_mem_cons.mp hbusy
    rw [start_of_busy hfirst, send_of_busy hlater (hread first (by simp)).2]
    exact if_pos ⟨later[5], List.getElem_mem hi, hexpired⟩

end WifiOffload
