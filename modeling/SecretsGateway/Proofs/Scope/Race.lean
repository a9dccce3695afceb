import SecretsGateway.Proofs.Scope.Waiter

/-!
# Work against cancellation

Work is run in a scope and the cancellation of the scope is waited for, in any interleaving with what happens around the scope
and with the turns of the driver, and with any number of polls (`Trial`). A poll touches the work only if there is no
cancellation to be heeded, however the waiter inside the race has got there: from outside a trial is a `Sight`, which knows
nothing of waiters (`Trial.Fits.after`).
-/

namespace SecretsGateway

variable {R : Runtime} {α : Type} {s : Scope} {x y : Scene}

namespace Race

variable {σ : Type} {work : Moment → σ → σ × Option α} {race : Race R α} {state : σ}

/-- The race is over, or its waiter goes on. -/
def Watches (s : Scope) (x : Scene) : Race R α → Prop
  | .fresh => False
  | .racing w => w.Watches s x
  | .ended _ => True

/-- The race has not begun, or it goes on, or it is over. -/
def Fits (s : Scope) (x : Scene) (race : Race R α) : Prop := race = .fresh ∨ race.Watches s x

theorem Watches.leads (h : race.Watches s x) (hleads : x.Leads y) : race.Watches s y := by
  cases race with
  | fresh => exact h
  | racing w => exact Waiter.Watches.leads h hleads
  | ended => trivial

theorem Fits.leads (h : race.Fits s x) (hleads : x.Leads y) : race.Fits s y := h.imp_right fun h => h.leads hleads

theorem Watches.isBegun_eq (h : race.Watches s x) : race.isBegun = true := by
  cases race with
  | fresh => cases h
  | racing w => rfl
  | ended => rfl

private theorem poll_of_outcome {e : Outcome α} (work : Moment → σ → σ × Option α) (state : σ) (h : race.outcome = some e) :
    poll s work x (race, state) = (race, state) ∧ race.Watches s x := by
  cases race with
  | fresh => cases h
  | racing w => cases h
  | ended e' => exact ⟨rfl, trivial⟩

/-- Where a cancellation is heeded the work is not touched. -/
theorem poll_of_heeds (h : race.Fits s x) (houtcome : race.outcome = none) (hheeds : R.heeds s x race.isBegun = true) :
    poll s work x (race, state) = (.ended .cancelled, state) := by
  rcases h with rfl | h
  · have hcancelled : s.isCancelled x.toMoment = true := hheeds
    rw [poll, if_pos hcancelled]
  · cases race with
    | fresh => cases h
    | racing w =>
      rw [poll, contest]
      simp only [Waiter.poll_of_notices (.inr (.inl h)) hheeds, Waiter.isOver, ↓reduceIte]
    | ended e => cases houtcome

private theorem contest_of_not_notices {w : Waiter R} (h : w.Fits s x) (hover : w ≠ .finished) (hnot : R.notices s x = false) :
    ∃ race' : Race R α, contest s work x w state = (race', (work x.toMoment state).1) ∧ race'.Watches s x ∧
      race'.outcome = (work x.toMoment state).2.map .done := by
  have hwatches := Waiter.watches_poll h hover hnot
  rcases hanswer : work x.toMoment state with ⟨state', answer⟩
  simp only [contest, hwatches.isOver_eq, Bool.false_eq_true, ↓reduceIte, hanswer]
  cases answer with
  | none => exact ⟨_, rfl, hwatches, rfl⟩
  | some a => exact ⟨_, rfl, trivial, rfl⟩

/-- Where there is none to be heeded the work is polled, and the race goes on until it answers. -/
theorem poll_of_not_heeds (work : Moment → σ → σ × Option α) (state : σ) (h : race.Fits s x) (houtcome : race.outcome = none)
    (hheeds : R.heeds s x race.isBegun = false) :
    ∃ race', poll s work x (race, state) = (race', (work x.toMoment state).1) ∧ race'.Watches s x ∧
      race'.outcome = (work x.toMoment state).2.map .done := by
  have hnot := Runtime.notices_eq_false_of_heeds hheeds
  rcases h with rfl | h
  · have hcancelled : ¬ s.isCancelled x.toMoment = true := Bool.not_eq_true _ ▸ hheeds
    rw [poll, if_neg hcancelled]
    exact contest_of_not_notices (.inl rfl) nofun hnot
  · cases race with
    | fresh => cases h
    | racing w =>
      refine contest_of_not_notices (.inr (.inl h)) ?_ hnot
      rintro rfl
      cases h
    | ended e => cases houtcome

/-- A race is woken with its waiter. -/
def isWoken (s : Scope) (x y : Scene) : Race R α → Bool
  | .racing w => w.isWoken s x y
  | _ => false

/-- When the cancellation of a scope can be noticed, the races that go on in it are woken. -/
private theorem Watches.isWoken (h : race.Watches s x) (hleads : x.Leads y) (houtcome : race.outcome = none)
    (hnot : R.notices s x = false) (hafter : R.notices s y = true) : race.isWoken s x y = true := by
  cases race with
  | fresh => cases h
  | racing w => exact Waiter.Watches.isWoken h hleads hnot hafter
  | ended e => cases houtcome

end Race

/-- What may happen next. -/
inductive Beat where
  | occur (o : Occurrence)
  /-- The driver has a turn. -/
  | turn
  /-- Work in the scope is polled. -/
  | run
  /-- The wait for the cancellation of the scope is polled. -/
  | wait
  deriving DecidableEq

namespace Scene

/-- Polls leave the scene as it is. -/
def beat (x : Scene) : Beat → Scene
  | .occur o => x.after o
  | .turn => x.turn
  | .run | .wait => x

def afterAll (x : Scene) (beats : List Beat) : Scene := beats.foldl beat x

theorem afterAll_append (x : Scene) (earlier later : List Beat) :
    x.afterAll (earlier ++ later) = (x.afterAll earlier).afterAll later := List.foldl_append

private theorem leads_beat (x : Scene) (b : Beat) : x.Leads (x.beat b) := by
  cases b with
  | occur o => exact x.leads_after o
  | turn => exact x.leads_turn
  | run => exact .refl x
  | wait => exact .refl x

theorem leads_afterAll (x : Scene) (beats : List Beat) : x.Leads (x.afterAll beats) := by
  induction beats generalizing x with
  | nil => exact .refl x
  | cons b beats ih => exact (x.leads_beat b).trans (ih _)

end Scene

/-- A race of work in a scope, and a wait for the cancellation of the same scope. Polls are owed from the start, and then whenever
the waiter in question has been woken. -/
structure Trial (R : Runtime) (α : Type) where
  scene : Scene
  race : Race R α := .fresh
  /-- How often the work was polled. -/
  polls : Nat := 0
  waiter : Waiter R
  owesRun : Bool := true
  owesWait : Bool := true

namespace Trial

def start (R : Runtime) (α : Type) (s : Scope) (x : Scene) : Trial R α := { scene := x, waiter := .start s }

/-- The scene becomes another. -/
def turnTo (s : Scope) (t : Trial R α) (y : Scene) : Trial R α :=
  { t with
    scene := y
    owesRun := t.owesRun || t.race.isWoken s t.scene y
    owesWait := t.owesWait || t.waiter.isWoken s t.scene y }

/-- Polls work that gives its answers one by one. -/
def step (s : Scope) (answers : Nat → Option α) (t : Trial R α) : Beat → Trial R α
  | .occur o => t.turnTo s (t.scene.after o)
  | .turn => t.turnTo s t.scene.turn
  | .run =>
    let (race, polls) := Race.poll s (fun _ n => (n + 1, answers n)) t.scene (t.race, t.polls)
    { t with race, polls, owesRun := false }
  | .wait => { t with waiter := t.waiter.poll s t.scene, owesWait := false }

def after (s : Scope) (answers : Nat → Option α) (t : Trial R α) (beats : List Beat) : Trial R α :=
  beats.foldl (step s answers) t

end Trial

/-- What can be told of a trial. -/
structure Sight (α : Type) where
  scene : Scene
  outcome : Option (Outcome α) := none
  isBegun : Bool := false
  polls : Nat := 0
  isOver : Bool := false

namespace Sight

/-- The work is touched in a poll if there is no cancellation to be heeded. -/
def step (R : Runtime) (s : Scope) (answers : Nat → Option α) (v : Sight α) : Beat → Sight α
  | .occur o => { v with scene := v.scene.after o }
  | .turn => { v with scene := v.scene.turn }
  | .run =>
    if v.outcome.isSome then v
    else if R.heeds s v.scene v.isBegun then { v with outcome := some .cancelled, isBegun := true }
    else { v with outcome := (answers v.polls).map .done, isBegun := true, polls := v.polls + 1 }
  | .wait => { v with isOver := v.isOver || R.notices s v.scene }

def after (R : Runtime) (s : Scope) (answers : Nat → Option α) (v : Sight α) (beats : List Beat) : Sight α :=
  beats.foldl (step R s answers) v

variable {answers : Nat → Option α} {v : Sight α}

theorem step_run_of_some (h : v.outcome.isSome = true) : v.step R s answers .run = v := by
  rw [step, if_pos h]

theorem step_run_of_heeds (h : v.outcome = none) (hheeds : R.heeds s v.scene v.isBegun = true) :
    v.step R s answers .run = { v with outcome := some .cancelled, isBegun := true } := by
  rw [step, if_neg (by rw [h]; exact Bool.false_ne_true), if_pos hheeds]

theorem step_run_of_not_heeds (h : v.outcome = none) (hheeds : R.heeds s v.scene v.isBegun = false) :
    v.step R s answers .run = { v with outcome := (answers v.polls).map .done, isBegun := true, polls := v.polls + 1 } := by
  rw [step, if_neg (by rw [h]; exact Bool.false_ne_true), if_neg (by rw [hheeds]; exact Bool.false_ne_true)]

end Sight

namespace Trial

variable {t : Trial R α} {answers : Nat → Option α}

def sight (t : Trial R α) : Sight α := ⟨t.scene, t.race.outcome, t.race.isBegun, t.polls, t.waiter.isOver⟩

/-- Both waiters go on as they should, and where no poll is owed there is no cancellation to be noticed. -/
structure Fits (s : Scope) (t : Trial R α) : Prop where
  race : t.race.Fits s t.scene
  waiter : t.waiter.Fits s t.scene
  run : t.owesRun = false → t.race.Watches s t.scene ∧ (t.race.outcome = none → R.notices s t.scene = false)
  wait : t.owesWait = false → t.waiter.isOver = false → t.waiter.Watches s t.scene ∧ R.notices s t.scene = false

private theorem Fits.turnTo (h : t.Fits s) (hleads : t.scene.Leads y) : (t.turnTo s y).Fits s where
  race := h.race.leads hleads
  waiter := h.waiter.leads hleads
  run howes := by
    obtain ⟨howes, hwoken⟩ := Bool.or_eq_false_iff.1 howes
    obtain ⟨hwatches, hnot⟩ := h.run howes
    refine ⟨hwatches.leads hleads, fun houtcome => ?_⟩
    -- had there come something to notice, the waiter would have been woken
    rw [← Bool.not_eq_true]
    intro hafter
    rw [hwatches.isWoken hleads houtcome (hnot houtcome) hafter] at hwoken
    cases hwoken
  wait howes hover := by
    obtain ⟨howes, hwoken⟩ := Bool.or_eq_false_iff.1 howes
    obtain ⟨hwatches, hnot⟩ := h.wait howes hover
    refine ⟨hwatches.leads hleads, ?_⟩
    rw [← Bool.not_eq_true]
    intro hafter
    rw [hwatches.isWoken hleads hnot hafter] at hwoken
    cases hwoken

private theorem step_run {race : Race R α} {polls : Nat}
    (h : Race.poll s (fun _ n => (n + 1, answers n)) t.scene (t.race, t.polls) = (race, polls)) :
    t.step s answers .run = { t with race, polls, owesRun := false } := by
  simp only [step, h]

private theorem Fits.run_step (h : t.Fits s) :
    (t.step s answers .run).Fits s ∧ (t.step s answers .run).sight = t.sight.step R s answers .run := by
  cases houtcome : t.race.outcome with
  | some e =>
    obtain ⟨hpoll, hwatches⟩ := Race.poll_of_outcome (fun _ n => (n + 1, answers n)) t.polls houtcome
    rw [step_run hpoll, Sight.step_run_of_some (congrArg Option.isSome houtcome)]
    refine ⟨⟨h.race, h.waiter, fun _ => ⟨hwatches, fun hnone => ?_⟩, h.wait⟩, rfl⟩
    rw [houtcome] at hnone
    cases hnone
  | none =>
    cases hheeds : R.heeds s t.scene t.race.isBegun with
    | true =>
      rw [step_run (Race.poll_of_heeds h.race houtcome hheeds), Sight.step_run_of_heeds houtcome hheeds]
      exact ⟨⟨.inr trivial, h.waiter, fun _ => ⟨trivial, nofun⟩, h.wait⟩, rfl⟩
    | false =>
      obtain ⟨race, hpoll, hwatches, houtcome'⟩ :=
        Race.poll_of_not_heeds (fun _ n => (n + 1, answers n)) t.polls h.race houtcome hheeds
      rw [step_run hpoll, Sight.step_run_of_not_heeds houtcome hheeds]
      refine ⟨⟨.inr hwatches, h.waiter, fun _ => ⟨hwatches, fun _ => Runtime.notices_eq_false_of_heeds hheeds⟩, h.wait⟩, ?_⟩
      simp only [sight, houtcome', hwatches.isBegun_eq]

private theorem Fits.wait_step (h : t.Fits s) :
    (t.step s answers .wait).Fits s ∧ (t.step s answers .wait).sight = t.sight.step R s answers .wait := by
  have hover := Waiter.isOver_poll h.waiter
  refine ⟨⟨h.race, h.waiter.poll, h.run, fun _ hnot => ?_⟩, ?_⟩
  · have hnot' : (t.waiter.isOver || R.notices s t.scene) = false := hover.symm.trans hnot
    obtain ⟨hbefore, hnotices⟩ := Bool.or_eq_false_iff.1 hnot'
    refine ⟨Waiter.watches_poll h.waiter ?_ hnotices, hnotices⟩
    intro hw
    rw [hw] at hbefore
    cases hbefore
  · simp only [sight, step, Sight.step, hover]

/-- A trial goes on as it looks from outside. -/
private theorem Fits.step (h : t.Fits s) (answers : Nat → Option α) (b : Beat) :
    (t.step s answers b).Fits s ∧ (t.step s answers b).sight = t.sight.step R s answers b := by
  cases b with
  | occur o => exact ⟨h.turnTo (t.scene.leads_after o), rfl⟩
  | turn => exact ⟨h.turnTo t.scene.leads_turn, rfl⟩
  | run => exact h.run_step
  | wait => exact h.wait_step

theorem Fits.after (h : t.Fits s) (answers : Nat → Option α) (beats : List Beat) :
    (t.after s answers beats).Fits s ∧ (t.after s answers beats).sight = t.sight.after R s answers beats := by
  induction beats generalizing t with
  | nil => exact ⟨h, rfl⟩
  | cons b beats ih =>
    obtain ⟨hfits, hsight⟩ := h.step answers b
    obtain ⟨hafter, hlast⟩ := ih hfits
    refine ⟨hafter, hlast.trans ?_⟩
    rw [hsight]
    rfl

end Trial

end SecretsGateway
