import Mathlib

/-!
# Acquire and release logs

A log of acquisitions and releases of resources. A resource is outstanding when one of its
acquisitions has not been followed by a release of the same resource. Extending a log at its
end is described by `outstanding_concat_acquire` and `outstanding_concat_release`. A log is
`Paired` when every release comes right behind an acquisition of the same resource.
-/

namespace AcquireLog

/-- One entry of a log. -/
inductive Use (α : Type*) where
  | acquire (a : α)
  | release (a : α)
  deriving DecidableEq

variable {α : Type*}

def Use.resource : Use α → α
  | .acquire a | .release a => a

/-- Some acquisition of `a` in the log is followed by no release of `a`. -/
def Outstanding : List (Use α) → α → Prop
  | [], _ => False
  | .acquire b :: log, a => (a = b ∧ .release a ∉ log) ∨ Outstanding log a
  | .release _ :: log, a => Outstanding log a

@[simp] theorem outstanding_nil (a : α) : ¬ Outstanding [] a := id

theorem outstanding_concat_acquire {log : List (Use α)} {a b : α} :
    Outstanding (log ++ [.acquire b]) a ↔ a = b ∨ Outstanding log a := by
  induction log with
  | nil => simp [Outstanding]
  | cons u log ih =>
    cases u with
    | acquire c => simp [Outstanding, ih]; tauto
    | release c => simpa [Outstanding] using ih

theorem outstanding_concat_release {log : List (Use α)} {a b : α} :
    Outstanding (log ++ [.release b]) a ↔ a ≠ b ∧ Outstanding log a := by
  induction log with
  | nil => simp [Outstanding]
  | cons u log ih =>
    cases u with
    | acquire c => simp [Outstanding, ih]; tauto
    | release c => simpa [Outstanding] using ih

/-- Every acquisition is followed by a release exactly when nothing is outstanding. -/
theorem not_outstanding_iff {log : List (Use α)} {a : α} :
    ¬ Outstanding log a ↔
      ∀ before after, log = before ++ .acquire a :: after → .release a ∈ after := by
  induction log with
  | nil => simp
  | cons u log ih =>
    constructor
    · intro h before after heq
      cases before with
      | nil =>
        obtain ⟨rfl, rfl⟩ := List.cons.inj heq
        by_contra hmem
        exact h (.inl ⟨rfl, hmem⟩)
      | cons v before =>
        obtain ⟨rfl, hlog⟩ := List.cons.inj heq
        refine ih.mp (fun hout => h ?_) before after hlog
        cases u with
        | acquire c => exact .inr hout
        | release c => exact hout
    · intro h
      have htail : ¬ Outstanding log a :=
        ih.mpr fun before after heq => h (u :: before) after (by rw [heq, List.cons_append])
      cases u with
      | acquire c =>
        rintro (⟨rfl, hmem⟩ | hout)
        · exact hmem (h [] log rfl)
        · exact htail hout
      | release c => exact htail

/-! ## Paired logs -/

/-- What comes right before a release is an acquisition of the same resource. -/
def Paired (log : List (Use α)) : Prop :=
  ∀ before a after, log = before ++ .release a :: after → before.getLast? = some (.acquire a)

theorem paired_nil : Paired ([] : List (Use α)) := by
  intro before a after h
  simp at h

theorem Paired.concat_acquire {log : List (Use α)} (h : Paired log) (b : α) :
    Paired (log ++ [.acquire b]) := by
  intro before a after heq
  rcases List.eq_nil_or_concat after with rfl | ⟨rest, u, rfl⟩
  · have hlast := List.append_inj_right' heq rfl
    cases hlast
  · rw [List.concat_eq_append, ← List.cons_append, ← List.append_assoc] at heq
    exact h before a rest (List.append_inj_left' heq rfl)

/-- A release of what the log acquired last keeps the pairing. -/
theorem Paired.concat_release {log : List (Use α)} (h : Paired log) {b : α}
    (hlast : log.getLast? = some (.acquire b)) : Paired (log ++ [.release b]) := by
  intro before a after heq
  rcases List.eq_nil_or_concat after with rfl | ⟨rest, u, rfl⟩
  · obtain ⟨rfl, hrelease⟩ := List.append_inj' heq rfl
    cases hrelease
    exact hlast
  · rw [List.concat_eq_append, ← List.cons_append, ← List.append_assoc] at heq
    exact h before a rest (List.append_inj_left' heq rfl)

end AcquireLog
