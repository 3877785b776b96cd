import WifiOffload.Api.Registry
import WifiOffload.Config.Accepted

/-!
# What an acknowledged registration means

`assignCgroupPid` returns nothing, so what became of the `tasks` file does not reach
`handleRegister`: a registration for a known class is stored and acknowledged before and whatever
the write comes to, for any process id that the consumer sent.
-/

namespace WifiOffload

/-- What can become of an append to the `tasks` file of a class. -/
inductive TasksOutcome where
  | notOpened | notWritten | written
  deriving DecidableEq, Repr

/-- The outcome of every append. -/
abbrev TasksFiles := ClassState → Int32 → TasksOutcome

/-- The processes that a step has put into the `tasks` files of classes. -/
def TasksFiles.recorded (tasks : TasksFiles) (effects : List Effect) : List (ClassState × Int32) :=
  effects.filterMap fun
    | .assign cls pid => if tasks cls pid = .written then some (cls, pid) else none
    | _ => none

namespace ConsumerApiServer

variable {s : ConsumerApiServer} {fd : Nat} {msg : ApiMsg} {tasks : TasksFiles}

/-- The process of the message is in the `tasks` file of the class that it names. -/
def Classified (s : ConsumerApiServer) (msg : ApiMsg) (recorded : List (ClassState × Int32)) :
    Prop :=
  0 < msg.pid ∧ ∃ cls, s.findClass msg.classId.toString = some cls ∧ (cls, msg.pid) ∈ recorded

/-- A `Register` is answered once: with error 0 only for a process that is classified, and for
any other with an error and without an entry that was not there before. -/
def AcknowledgedOnlyIfClassified (tasks : TasksFiles) (s : ConsumerApiServer) (fd : Nat)
    (msg : ApiMsg) : Prop :=
  let handled := s.handleRegister fd msg
  ∃ ack, Effect.messagesTo fd handled.2 = [ack] ∧
    (ack.error = 0 → s.Classified msg (tasks.recorded handled.2)) ∧
    (¬ s.Classified msg (tasks.recorded handled.2) →
      ack.error ≠ 0 ∧ ∀ e ∈ handled.1.registry, e ∈ s.registry)

theorem recorded_handleRegister {cls : ClassState}
    (h : s.findClass msg.classId.toString = some cls) :
    tasks.recorded (s.handleRegister fd msg).2 =
      if tasks cls msg.pid = .written then [(cls, msg.pid)] else [] := by
  rw [handleRegister_of_known h]
  by_cases hwritten : tasks cls msg.pid = .written <;> simp [TasksFiles.recorded, hwritten]

/-- A registration is acknowledged as it should be exactly for an unknown class, which is refused,
and for a positive process id that gets into the file of the class. -/
theorem acknowledgedOnlyIfClassified_iff (tasks : TasksFiles) (s : ConsumerApiServer) (fd : Nat)
    (msg : ApiMsg) : AcknowledgedOnlyIfClassified tasks s fd msg ↔
      ∀ cls, s.findClass msg.classId.toString = some cls →
        0 < msg.pid ∧ tasks cls msg.pid = .written := by
  cases hclass : s.findClass msg.classId.toString with
  | none =>
    have hrefused : AcknowledgedOnlyIfClassified tasks s fd msg := by
      unfold AcknowledgedOnlyIfClassified
      rw [handleRegister_of_unknown fd hclass]
      refine ⟨{ type := MsgType.registerAck.code, error := ApiError.unknownClassId.code }, by simp,
        fun herror => ?_, fun _ => ⟨?_, fun e he => he⟩⟩
      · exact absurd herror (by decide : ApiError.unknownClassId.code ≠ 0)
      · exact (by decide : ApiError.unknownClassId.code ≠ 0)
    simpa using hrefused
  | some cls =>
    have hclassified : s.Classified msg (tasks.recorded (s.handleRegister fd msg).2) ↔
        0 < msg.pid ∧ tasks cls msg.pid = .written := by
      rw [recorded_handleRegister hclass, Classified, hclass]
      by_cases hwritten : tasks cls msg.pid = .written <;> simp [hwritten]
    have hack : Effect.messagesTo fd (s.handleRegister fd msg).2 =
        [(s.pushEntry fd msg.pid msg.classId.toString).registerAck s.nextHandle
          msg.classId.toString] := by
      simp [handleRegister_of_known hclass]
    -- the acknowledgement says success in any case
    simp only [AcknowledgedOnlyIfClassified, hack, hclassified, List.cons.injEq, and_true,
      exists_eq_left', registerAck_error, Option.some.injEq, forall_eq', forall_const]
    grind

/-- A registration of process -1 is acknowledged, though its append fails. -/
theorem acknowledged_without_process :
    ¬ ∀ (classes : List PathClassConfig) (tasks : TasksFiles) (fd : Nat) (msg : ApiMsg),
        Accepted classes →
        AcknowledgedOnlyIfClassified tasks (.ofClasses classes) fd msg := by
  intro h
  have hack := h pathPolicies (fun _ _ => .notWritten) 7 (registerMsg (-1) "multipath")
    pathPolicies_accepted
  rw [acknowledgedOnlyIfClassified_iff] at hack
  exact absurd (hack _ rfl).2 (by decide)

end ConsumerApiServer
end WifiOffload
