import SecretsGateway.Race

/-!
# Derived scopes

A scope may be derived from another in any number of steps. Its deadline is the earliest of all that were given on the way,
and it is cancelled whenever a scope is from which it is derived. Nothing that happens afterwards undoes a cancellation, and
the cancellation of a root reaches its own scopes only (`Scope.derived_inherits`).
-/

namespace SecretsGateway

/-- What happens around the scopes. -/
inductive Occurrence where
  /-- A root is cancelled through its handle. -/
  | cancel (r : Root)
  /-- The handle of a root is given up. -/
  | release (r : Root)
  /-- Some milliseconds pass. -/
  | pass (ms : Nat)
  deriving DecidableEq

namespace Setting

/-- Nobody cancels a root whose handle is gone. -/
def after (x : Setting) : Occurrence → Setting
  | .cancel r => if x.released.contains r then x else { x with cancelled := r :: x.cancelled }
  | .release r => { x with released := r :: x.released }
  | .pass ms => { x with now := x.now + ms }

/-- One occurrence after the other. -/
def afterAll (x : Setting) (os : List Occurrence) : Setting := os.foldl after x

variable {x : Setting} {r : Root}

theorem after_cancel_of_mem (h : r ∈ x.released) : x.after (.cancel r) = x := by
  rw [after, if_pos (List.contains_iff_mem.2 h)]

theorem after_cancel_of_notMem (h : r ∉ x.released) : x.after (.cancel r) = { x with cancelled := r :: x.cancelled } := by
  rw [after, if_neg (mt List.contains_iff_mem.1 h)]

/-- The clock does not go back, and no root is restored. -/
theorem after_le (x : Setting) (o : Occurrence) : x.now ≤ (x.after o).now ∧ x.cancelled ⊆ (x.after o).cancelled := by
  cases o with
  | cancel r =>
    by_cases h : r ∈ x.released
    · rw [after_cancel_of_mem h]
      exact ⟨Nat.le_refl _, List.Subset.refl _⟩
    · rw [after_cancel_of_notMem h]
      exact ⟨Nat.le_refl _, List.subset_cons_self r _⟩
  | release r => exact ⟨Nat.le_refl _, List.Subset.refl _⟩
  | pass ms => exact ⟨Nat.le_add_right _ ms, List.Subset.refl _⟩

end Setting

namespace Scope

variable {s u : Scope} {m m' : Moment} {x : Setting}

theorem isCancelled_iff : s.isCancelled m = true ↔ s.root ∈ m.cancelled ∨ ∃ d, s.deadline = some d ∧ d ≤ m.now := by
  rw [isCancelled, Bool.or_eq_true, List.contains_iff_mem, Option.any_eq_true]
  simp only [decide_eq_true_eq]

theorem isCancelled_mono (h : s.isCancelled m = true) (hnow : m.now ≤ m'.now) (hroots : m.cancelled ⊆ m'.cancelled) :
    s.isCancelled m' = true := by
  rw [isCancelled_iff] at h ⊢
  rcases h with hroot | ⟨d, hd, hle⟩
  · exact .inl (hroots hroot)
  · exact .inr ⟨d, hd, Nat.le_trans hle hnow⟩

private theorem isCancelled_after (h : s.isCancelled x.toMoment = true) (o : Occurrence) :
    s.isCancelled (x.after o).toMoment = true := by
  obtain ⟨hnow, hroots⟩ := x.after_le o
  exact isCancelled_mono h hnow hroots

private theorem isCancelled_afterAll (h : s.isCancelled x.toMoment = true) (os : List Occurrence) :
    s.isCancelled (x.afterAll os).toMoment = true := by
  induction os generalizing x with
  | nil => exact h
  | cons o os ih => exact ih (isCancelled_after h o)

private theorem isCancelled_after_cancel (h : s.root ∉ x.released) :
    s.isCancelled (x.after (.cancel s.root)).toMoment = true := by
  rw [isCancelled_iff, Setting.after_cancel_of_notMem h]
  exact .inl List.mem_cons_self

private theorem isCancelled_after_cancel_of_ne {r : Root} (h : s.root ≠ r) :
    s.isCancelled (x.after (.cancel r)).toMoment = s.isCancelled x.toMoment := by
  by_cases hreleased : r ∈ x.released
  · rw [Setting.after_cancel_of_mem hreleased]
  · rw [Bool.eq_iff_iff, isCancelled_iff, isCancelled_iff, Setting.after_cancel_of_notMem hreleased, List.mem_cons,
      or_iff_right h]

end Scope

/-- One step of a derivation. -/
inductive Derivation where
  | clone
  | deadline (t : Nat)
  | timeout (ms : Nat)

/-- The deadline that is given in a step at some time. -/
def Derivation.given (now : Nat) : Derivation → Option Nat
  | .clone => none
  | .deadline t => some t
  | .timeout ms => some (now + ms)

namespace Scope

variable {s u : Scope} {m : Moment} {x : Setting} {line : List (Nat × Derivation)}

def derive (s : Scope) (now : Nat) : Derivation → Scope
  | .clone => s
  | .deadline t => s.withDeadline t
  | .timeout ms => s.withTimeout now ms

/-- A scope derived from another step by step, each at some time. -/
def derived (s : Scope) (line : List (Nat × Derivation)) : Scope := line.foldl (fun s step => s.derive step.1 step.2) s

/-- The deadlines that are given in a derivation. -/
def givens (line : List (Nat × Derivation)) : List Nat := line.filterMap fun step => step.2.given step.1

private theorem derived_append (earlier later : List (Nat × Derivation)) :
    s.derived (earlier ++ later) = (s.derived earlier).derived later := List.foldl_append

private theorem root_derive (now : Nat) (step : Derivation) : (s.derive now step).root = s.root := by
  cases step <;> rfl

private theorem root_derived (s : Scope) (line : List (Nat × Derivation)) : (s.derived line).root = s.root := by
  induction line generalizing s with
  | nil => rfl
  | cons step line ih => exact (ih _).trans (root_derive step.1 step.2)

private theorem min?_deadline_withDeadline (s : Scope) (t : Nat) (rest : List Nat) :
    ((s.withDeadline t).deadline.toList ++ rest).min? = (s.deadline.toList ++ t :: rest).min? := by
  obtain ⟨root, deadline⟩ := s
  cases deadline with
  | none => rfl
  | some d => rfl

/-- One step takes the deadline that it gives into account. -/
private theorem min?_deadline_derive (s : Scope) (now : Nat) (step : Derivation) (rest : List Nat) :
    ((s.derive now step).deadline.toList ++ rest).min? = (s.deadline.toList ++ ((step.given now).toList ++ rest)).min? := by
  cases step with
  | clone => rfl
  | deadline t => exact s.min?_deadline_withDeadline t rest
  | timeout ms => exact s.min?_deadline_withDeadline (now + ms) rest

private theorem deadline_derived (s : Scope) (line : List (Nat × Derivation)) :
    (s.derived line).deadline = (s.deadline.toList ++ givens line).min? := by
  induction line generalizing s with
  | nil =>
    obtain ⟨root, deadline⟩ := s
    cases deadline <;> rfl
  | cons step line ih =>
    have hgivens : givens (step :: line) = (step.2.given step.1).toList ++ givens line := by
      rw [givens, List.filterMap_cons]
      cases step.2.given step.1 <;> rfl
    calc
      (s.derived (step :: line)).deadline = ((s.derive step.1 step.2).deadline.toList ++ givens line).min? := ih _
      _ = (s.deadline.toList ++ givens (step :: line)).min? := by rw [min?_deadline_derive, hgivens]

private theorem isCancelled_withDeadline (h : s.isCancelled m = true) (t : Nat) : (s.withDeadline t).isCancelled m = true := by
  rw [isCancelled_iff] at h ⊢
  rcases h with hroot | ⟨d, hd, hle⟩
  · exact .inl hroot
  · refine .inr ⟨min d t, ?_, Nat.le_trans (Nat.min_le_left d t) hle⟩
    rw [withDeadline, hd]

private theorem isCancelled_derived (h : s.isCancelled m = true) (line : List (Nat × Derivation)) :
    (s.derived line).isCancelled m = true := by
  induction line generalizing s with
  | nil => exact h
  | cons step line ih =>
    refine ih ?_
    obtain ⟨now, step⟩ := step
    cases step with
    | clone => exact h
    | deadline t => exact isCancelled_withDeadline h t
    | timeout ms => exact isCancelled_withDeadline h (now + ms)

/-- Derived scopes inherit, and cancellations are for ever. The deadline of a derived scope is the earliest on the way to it. The
scope is cancelled whenever one on the way is. To cancel the root once cancels it, and changes nothing for the scopes of other
roots. A cancelled scope stays cancelled, with all that are derived from it, whatever happens. -/
theorem derived_inherits (s : Scope) (line : List (Nat × Derivation)) :
    (s.derived line).deadline = (s.deadline.toList ++ givens line).min? ∧
    (∀ earlier later m, line = earlier ++ later → (s.derived earlier).isCancelled m → (s.derived line).isCancelled m) ∧
    (∀ x : Setting, s.root ∉ x.released → (s.derived line).isCancelled (x.after (.cancel s.root)).toMoment) ∧
    (∀ (x : Setting) (r : Root), r ≠ s.root →
      (s.derived line).isCancelled (x.after (.cancel r)).toMoment = (s.derived line).isCancelled x.toMoment) ∧
    ∀ x : Setting, (s.derived line).isCancelled x.toMoment →
      ∀ os later, (s.derived (line ++ later)).isCancelled (x.afterAll os).toMoment := by
  refine ⟨s.deadline_derived line, ?_, ?_, ?_, ?_⟩
  · rintro earlier later m rfl h
    rw [derived_append]
    exact isCancelled_derived h later
  · intro x h
    exact isCancelled_derived (isCancelled_after_cancel h) line
  · intro x r hr
    have hroot : (s.derived line).root ≠ r := by
      rw [root_derived]
      exact hr.symm
    exact isCancelled_after_cancel_of_ne hroot
  · intro x h os later
    rw [derived_append]
    exact isCancelled_derived (isCancelled_afterAll h os) later

end Scope

end SecretsGateway
