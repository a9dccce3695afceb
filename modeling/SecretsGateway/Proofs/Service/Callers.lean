import Mathlib.Data.List.Induction
import Mathlib.Logic.Function.Basic
import SecretsGateway.Service

/-!
# Calls to a service

Any number of calls try to start or stop one service, each under a ticket of its own. A call takes its test, begins its work,
is suspended as often as its work likes, ends the work well or badly, and leaves a state behind; between any two of these
steps other calls may take theirs, and a call that is suspended may be dropped for ever (`Callers`).

What a step can do is said once (`Callers.Moved`). How far a call is and what it has done are two sides of one thing
(`Callers.Traced`), and from this follows what a call returns.
-/

namespace SecretsGateway

/-- A call: what it attempts, and the name of the service for those who are refused. -/
structure ServiceCall where
  attempt : Attempt
  service : String

/-- How far a call is. -/
inductive CallStage (ε : Type) where
  | waiting
  /-- Its test has found the service in another state than it needs; the call has returned. -/
  | refused (found : ServiceState)
  | passed
  /-- Its work has begun, and is suspended now and then. -/
  | working
  /-- Its work has ended, and it still has to leave. -/
  | worked (result : Except ε Unit)
  | returned (result : Except ε Unit)
  /-- It was dropped before its test. -/
  | gone
  /-- It was dropped in the middle of its work. -/
  | abandoned

inductive CallStep (τ ε : Type) where
  | test (t : τ)
  | work (t : τ)
  | suspend (t : τ)
  | finish (t : τ) (result : Except ε Unit)
  | leave (t : τ)
  | drop (t : τ)

/-- What the calls of a service have done. -/
inductive Deed (τ ε : Type) where
  | refused (t : τ) (found : ServiceState)
  | passed (t : τ)
  | begun (t : τ)
  | ended (t : τ) (result : Except ε Unit)
  | left (t : τ)

/-- A service in use: how far each call is, and what has been done. -/
structure Callers (τ ε : Type) where
  service : Service τ := {}
  stage : τ → CallStage ε := fun _ => .waiting
  log : List (Deed τ ε) := []

variable {τ ε : Type}

/-- The call whose step it is. -/
def CallStep.ticket : CallStep τ ε → τ
  | test t | work t | suspend t | finish t _ | leave t | drop t => t

namespace Deed

def ticket : Deed τ ε → τ
  | refused t _ | passed t | begun t | ended t _ | left t => t

def isRefusal : Deed τ ε → Bool
  | refused .. => true
  | _ => false

/-- The attempt that has passed its test. -/
def passes? (calls : τ → ServiceCall) : Deed τ ε → Option Attempt
  | passed t => some (calls t).attempt
  | _ => none

/-- The attempt whose work has begun. -/
def begins? (calls : τ → ServiceCall) : Deed τ ε → Option Attempt
  | begun t => some (calls t).attempt
  | _ => none

end Deed

namespace CallStage

/-- The call has passed its test, and it has not left or been dropped. -/
def isInside : CallStage ε → Bool
  | passed | working | worked _ => true
  | _ => false

/-- What a call has done to get as far as this. -/
def trail (t : τ) : CallStage ε → List (Deed τ ε)
  | waiting | gone => []
  | refused found => [.refused t found]
  | passed => [.passed t]
  | working | abandoned => [.passed t, .begun t]
  | worked result => [.passed t, .begun t, .ended t result]
  | returned result => [.passed t, .begun t, .ended t result, .left t]

/-- What a call has returned: what its work has ended with, or the refusal. -/
def result? (call : ServiceCall) (refuse : LifecycleError → ε) : CallStage ε → Option (Except ε Unit)
  | returned result => some result
  | refused found => some (.error (refuse (call.attempt.refusal call.service found)))
  | _ => none

end CallStage

section Stages

variable {t : τ} {stage : CallStage ε} {r : Except ε Unit} {found : ServiceState}

private theorem CallStage.result?_eq_some_iff {call : ServiceCall} {refuse : LifecycleError → ε} :
    stage.result? call refuse = some r ↔ stage = .returned r ∨
      ∃ found, stage = .refused found ∧ r = .error (refuse (call.attempt.refusal call.service found)) := by
  cases stage <;> simp [result?, eq_comm]

private theorem CallStage.ended_mem_trail : .ended t r ∈ stage.trail t ↔ stage = .worked r ∨ stage = .returned r := by
  cases stage <;> simp [trail, eq_comm]

private theorem CallStage.refused_mem_trail : .refused t found ∈ stage.trail t ↔ stage = .refused found := by
  cases stage <;> simp [trail, eq_comm]

end Stages

variable [DecidableEq τ]

namespace Callers

/-- The service in use after a step. A step that a call cannot take from where it is changes nothing. -/
def move (calls : τ → ServiceCall) (s : Callers τ ε) : CallStep τ ε → Callers τ ε
  | .test t =>
    match s.stage t with
    | .waiting =>
      match s.service.begin t (calls t).service (calls t).attempt with
      | .error _ => { s with
          stage := Function.update s.stage t (.refused s.service.state), log := s.log ++ [.refused t s.service.state] }
      | .ok service => { service, stage := Function.update s.stage t .passed, log := s.log ++ [.passed t] }
    | _ => s
  | .work t =>
    match s.stage t with
    | .passed => { s with stage := Function.update s.stage t .working, log := s.log ++ [.begun t] }
    | _ => s
  | .suspend _ => s
  | .finish t result =>
    match s.stage t with
    | .working => { s with stage := Function.update s.stage t (.worked result), log := s.log ++ [.ended t result] }
    | _ => s
  | .leave t =>
    match s.stage t with
    | .worked result =>
      { service := s.service.finish t result.isOk, stage := Function.update s.stage t (.returned result),
        log := s.log ++ [.left t] }
    | _ => s
  | .drop t =>
    match s.stage t with
    | .waiting => { s with stage := Function.update s.stage t .gone }
    | .working => { s with service := s.service.abandon t, stage := Function.update s.stage t .abandoned }
    | _ => s

/-- A service that is used from the start. -/
def run (calls : τ → ServiceCall) (steps : List (CallStep τ ε)) : Callers τ ε := steps.foldl (move calls) {}

variable {calls : τ → ServiceCall} {s s' : Callers τ ε} {steps : List (CallStep τ ε)} {x : CallStep τ ε} {t u : τ}

/-- What a step can do. -/
inductive Moved (calls : τ → ServiceCall) (s : Callers τ ε) : CallStep τ ε → Callers τ ε → Prop
  | stays {x : CallStep τ ε} : Moved calls s x s
  | refused {t : τ} : s.stage t = .waiting → s.service.state ≠ (calls t).attempt.source →
      Moved calls s (.test t) { s with
        stage := Function.update s.stage t (.refused s.service.state), log := s.log ++ [.refused t s.service.state] }
  | passed {t : τ} : s.stage t = .waiting → s.service.state = (calls t).attempt.source →
      Moved calls s (.test t) {
        service := ⟨(calls t).attempt.during, (t, (calls t).attempt) :: s.service.others t,
          (calls t).attempt :: s.service.begun⟩
        stage := Function.update s.stage t .passed, log := s.log ++ [.passed t] }
  | begun {t : τ} : s.stage t = .passed →
      Moved calls s (.work t) { s with stage := Function.update s.stage t .working, log := s.log ++ [.begun t] }
  | ended {t : τ} {result : Except ε Unit} : s.stage t = .working →
      Moved calls s (.finish t result) { s with
        stage := Function.update s.stage t (.worked result), log := s.log ++ [.ended t result] }
  | left {t : τ} {result : Except ε Unit} : s.stage t = .worked result →
      Moved calls s (.leave t) {
        service := s.service.finish t result.isOk, stage := Function.update s.stage t (.returned result)
        log := s.log ++ [.left t] }
  | gone {t : τ} : s.stage t = .waiting → Moved calls s (.drop t) { s with stage := Function.update s.stage t .gone }
  | abandoned {t : τ} : s.stage t = .working →
      Moved calls s (.drop t) { s with
        service := s.service.abandon t, stage := Function.update s.stage t .abandoned }

theorem moved_move (calls : τ → ServiceCall) (s : Callers τ ε) (x : CallStep τ ε) : Moved calls s x (s.move calls x) := by
  cases x with
  | test t =>
    simp only [move]
    split
    · next hstage =>
      by_cases hsource : s.service.state = (calls t).attempt.source
      · rw [Service.begin, Attempt.begin, if_pos hsource]
        exact .passed hstage hsource
      · rw [Service.begin, Attempt.begin, if_neg hsource]
        exact .refused hstage hsource
    · exact .stays
  | work t =>
    simp only [move]
    split
    · next hstage => exact .begun hstage
    · exact .stays
  | suspend t => exact .stays
  | finish t result =>
    simp only [move]
    split
    · next hstage => exact .ended hstage
    · exact .stays
  | leave t =>
    simp only [move]
    split
    · next hstage => exact .left hstage
    · exact .stays
  | drop t =>
    simp only [move]
    split
    · next hstage => exact .gone hstage
    · next hstage => exact .abandoned hstage
    · exact .stays

theorem run_concat (calls : τ → ServiceCall) (steps : List (CallStep τ ε)) (x : CallStep τ ε) :
    run calls (steps ++ [x]) = (run calls steps).move calls x := by
  rw [run, List.foldl_append]
  rfl

private theorem Moved.prefix_log (h : Moved calls s x s') : s.log <+: s'.log := by
  cases h with
  | stays | gone | abandoned => exact List.prefix_rfl
  | refused | passed | begun | ended | left => exact List.prefix_append _ _

/-- A step adds at most one deed: work begins after a test that was passed, and a refusal is made by the test of its call. -/
theorem Moved.log_cases (h : Moved calls s x s') : s'.log = s.log ∨ ∃ deed, s'.log = s.log ++ [deed] ∧
    (∀ t, deed = .begun t → s.stage t = .passed) ∧
    ∀ t found, deed = .refused t found → x = .test t ∧ s.stage t = .waiting ∧ found = s.service.state := by
  cases h with
  | stays | gone | abandoned => exact .inl rfl
  | refused hstage =>
    refine .inr ⟨_, rfl, nofun, fun t found heq => ?_⟩
    cases heq
    exact ⟨rfl, hstage, rfl⟩
  | begun hstage =>
    refine .inr ⟨_, rfl, fun t heq => ?_, nofun⟩
    cases heq
    exact hstage
  | passed | ended | left => exact .inr ⟨_, rfl, nofun, nofun⟩

private theorem prefix_log_run (calls : τ → ServiceCall) (earlier later : List (CallStep τ ε)) :
    (run calls earlier).log <+: (run calls (earlier ++ later)).log := by
  induction later using List.reverseRecOn with
  | nil => simp
  | append_singleton later x ih =>
    rw [← List.append_assoc, run_concat]
    exact ih.trans (moved_move calls _ x).prefix_log

theorem prefix_log_of_split {earlier later : List (CallStep τ ε)} (hsteps : steps = earlier ++ x :: later) :
    ((run calls earlier).move calls x).log <+: (run calls steps).log := by
  have hgrow := prefix_log_run calls (earlier ++ [x]) later
  rwa [List.append_assoc, List.singleton_append, ← hsteps, run_concat] at hgrow

/-- What each call has done is known from how far it is. -/
def Traced (s : Callers τ ε) : Prop := ∀ t, s.log.filter (·.ticket = t) = (s.stage t).trail t

private theorem Traced.update {deeds : List (Deed τ ε)} {stage : CallStage ε} (h : s.Traced) (hlog : s'.log = s.log ++ deeds)
    (hstage : s'.stage = Function.update s.stage t stage) (hdeeds : ∀ x ∈ deeds, x.ticket = t)
    (htrail : stage.trail t = (s.stage t).trail t ++ deeds) : s'.Traced := by
  intro u
  rw [hlog, hstage, List.filter_append, h u]
  by_cases hu : u = t
  · subst hu
    rw [Function.update_self, htrail, List.filter_eq_self.2 fun x hx => decide_eq_true (hdeeds x hx)]
  · rw [Function.update_of_ne hu, List.filter_eq_nil_iff.2, List.append_nil]
    intro x hx hticket
    exact hu ((of_decide_eq_true hticket).symm.trans (hdeeds x hx))

private theorem Moved.traced (h : Moved calls s x s') (htraced : s.Traced) : s'.Traced := by
  cases h with
  | stays => exact htraced
  | refused hstage | passed hstage | begun hstage | ended hstage | left hstage =>
    exact htraced.update rfl rfl (List.forall_mem_singleton.2 rfl) (by rw [hstage]; rfl)
  | gone hstage | abandoned hstage =>
    exact htraced.update (List.append_nil _).symm rfl (List.forall_mem_nil _) (by rw [hstage]; rfl)

theorem traced_run (calls : τ → ServiceCall) (steps : List (CallStep τ ε)) : (run calls steps).Traced := by
  induction steps using List.reverseRecOn with
  | nil => exact fun _ => rfl
  | append_singleton steps x ih =>
    rw [run_concat]
    exact (moved_move calls _ x).traced ih

private theorem Traced.mem_log_iff {deed : Deed τ ε} (h : s.Traced) (t : τ) (ht : deed.ticket = t) :
    deed ∈ s.log ↔ deed ∈ (s.stage t).trail t := by
  rw [← h t, List.mem_filter, decide_eq_true_eq, and_iff_left ht]

/-! ### What a call returns -/

/-- A call that has not passed its test does nothing to the service. -/
theorem Moved.service_eq (h : Moved calls s x s') (htraced : s.Traced) (hout : .passed x.ticket ∉ s'.log) :
    s'.service = s.service := by
  have hearlier : .passed x.ticket ∉ s.log := fun hmem => hout (h.prefix_log.subset hmem)
  cases h with
  | stays | refused | begun | ended | gone => rfl
  | passed => exact absurd (List.mem_append_right _ (List.mem_singleton_self _)) hout
  | @left t _ hstage | @abandoned t hstage =>
    refine absurd ((htraced.mem_log_iff t rfl).2 ?_) hearlier
    rw [hstage]
    exact List.mem_cons_self

/-- A refusal was made by the test of its call, in the state that it has found. -/
theorem exists_test_of_refused {found : ServiceState} (h : .refused t found ∈ (run calls steps).log) :
    ∃ earlier later, steps = earlier ++ .test t :: later ∧ (run calls earlier).stage t = .waiting ∧
      found = (run calls earlier).service.state := by
  induction steps using List.reverseRecOn with
  | nil => cases h
  | append_singleton steps x ih =>
    have hearlier : .refused t found ∈ (run calls steps).log → ∃ earlier later, steps ++ [x] = earlier ++ .test t :: later ∧
        (run calls earlier).stage t = .waiting ∧ found = (run calls earlier).service.state := by
      intro hmem
      obtain ⟨earlier, later, rfl, htest⟩ := ih hmem
      exact ⟨earlier, later ++ [x], by rw [List.append_assoc, List.cons_append], htest⟩
    rw [run_concat] at h
    rcases (moved_move calls (run calls steps) x).log_cases with hsame | ⟨deed, hadd, -, hrefused⟩
    · exact hearlier (hsame ▸ h)
    · rw [hadd, List.mem_append, List.mem_singleton] at h
      rcases h with hmem | hdeed
      · exact hearlier hmem
      · obtain ⟨rfl, htest⟩ := hrefused t found hdeed.symm
        exact ⟨steps, [], rfl, htest⟩

/-- The test of a call that is waiting is passed or refused at once. -/
theorem mem_log_of_test {earlier later : List (CallStep τ ε)} (hsteps : steps = earlier ++ .test t :: later)
    (hstage : (run calls earlier).stage t = .waiting) :
    .passed t ∈ (run calls steps).log ∨ .refused t (run calls earlier).service.state ∈ (run calls steps).log := by
  have hgrow : ((run calls earlier).move calls (.test t)).log <+: (run calls steps).log := prefix_log_of_split hsteps
  simp only [move, hstage] at hgrow
  split at hgrow
  · exact .inr (hgrow.subset (List.mem_append_right _ List.mem_cons_self))
  · exact .inl (hgrow.subset (List.mem_append_right _ List.mem_cons_self))

section Results

variable {refuse : LifecycleError → ε} {call : ServiceCall} {r : Except ε Unit}

/-- A call that has passed its test returns what its work has ended with. -/
theorem Traced.ended_of_result? (h : s.Traced) (hpassed : .passed t ∈ s.log)
    (hr : (s.stage t).result? call refuse = some r) : .ended t r ∈ s.log := by
  rcases CallStage.result?_eq_some_iff.1 hr with hstage | ⟨found, hstage, -⟩
  · exact (h.mem_log_iff t rfl).2 (CallStage.ended_mem_trail.2 (.inr hstage))
  · have htrail := (h.mem_log_iff t rfl).1 hpassed
    rw [hstage] at htrail
    simp [CallStage.trail] at htrail

/-- A call whose work has ended returns that once it leaves. -/
theorem Traced.result?_of_ended (h : s.Traced) (hended : .ended t r ∈ s.log) :
    ((s.move calls (.leave t)).stage t).result? call refuse = some r := by
  have hreturned : (s.move calls (.leave t)).stage t = .returned r := by
    rcases CallStage.ended_mem_trail.1 ((h.mem_log_iff t rfl).1 hended) with hstage | hstage
    · simp only [move, hstage, Function.update_self]
    · simp only [move, hstage]
  exact CallStage.result?_eq_some_iff.2 (.inl hreturned)

/-- A call that has not passed its test returns nothing but its refusal. -/
theorem Traced.result?_iff_refused (h : s.Traced) (hout : .passed t ∉ s.log) : (s.stage t).result? call refuse = some r ↔
    ∃ found, .refused t found ∈ s.log ∧ r = .error (refuse (call.attempt.refusal call.service found)) := by
  have hrefused : ∀ found, .refused t found ∈ s.log ↔ s.stage t = .refused found := fun found =>
    (h.mem_log_iff t rfl).trans CallStage.refused_mem_trail
  have hreturned : s.stage t ≠ .returned r := by
    intro hstage
    refine hout ((h.mem_log_iff t rfl).2 ?_)
    rw [hstage]
    exact List.mem_cons_self
  simp only [hrefused, CallStage.result?_eq_some_iff, hreturned, false_or]

end Results

end Callers

end SecretsGateway
