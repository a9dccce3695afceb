import SecretsGateway.Proofs.Service.Callers

/-!
# One start and one stop

The state that a call leaves behind when its work has ended is written without a second test. That is safe because a call that
has passed its test is the only one inside until it leaves (`Callers.Life`). So a service lives one life at most: one start,
and after a good start one stop (`Callers.one_life`).
-/

namespace SecretsGateway

/-- The ways of a service from one state to the next. -/
inductive ServiceState.Next : ServiceState → ServiceState → Prop
  | start : Next .unstarted .starting
  | started : Next .starting .started
  | failed : Next .starting .startFailed
  | stop : Next .started .stopping
  | stopped : Next .stopping .stopped

/-- While the work of an attempt runs, no attempt may begin. -/
private theorem Attempt.during_ne_source (attempt attempt' : Attempt) : attempt.during ≠ attempt'.source := by
  cases attempt <;> cases attempt' <;> decide

namespace Callers

variable {τ ε : Type} {calls : τ → ServiceCall} {s s' : Callers τ ε} {t : τ}

/-- What has been done, but for the refusals. -/
def deeds (s : Callers τ ε) : List (Deed τ ε) := s.log.filter (!·.isRefusal)

/-- What must have been done before an attempt can pass its test: nothing before a start, a good start before a stop. -/
inductive Before (calls : τ → ServiceCall) : Attempt → List (Deed τ ε) → Prop
  | start : Before calls .start []
  | stop {t : τ} : (calls t).attempt = .start → Before calls .stop ((CallStage.returned (.ok ())).trail t)

/-- What has been done while no call is inside, with the state of the service. -/
inductive Past (calls : τ → ServiceCall) : ServiceState → List (Deed τ ε) → Prop
  | ready {attempt : Attempt} {earlier : List (Deed τ ε)} : Before calls attempt earlier → Past calls attempt.source earlier
  /-- A call has been dropped in the middle of its work. -/
  | stuck {t : τ} {earlier : List (Deed τ ε)} : Before calls (calls t).attempt earlier →
      Past calls (calls t).attempt.during (earlier ++ CallStage.abandoned.trail t)
  | finished {t : τ} {earlier : List (Deed τ ε)} {result : Except ε Unit} : Before calls (calls t).attempt earlier →
      ((calls t).attempt = .start → result.isOk = false) →
      Past calls ((calls t).attempt.target result.isOk) (earlier ++ (CallStage.returned result).trail t)

/-- No call is inside. -/
structure Idle (calls : τ → ServiceCall) (s : Callers τ ε) : Prop where
  underWay : s.service.underWay = []
  outside (u : τ) : (s.stage u).isInside = false
  past : Past calls s.service.state s.deeds

/-- A call is inside, and no other; it is the one whose work is under way. -/
structure Busy (calls : τ → ServiceCall) (s : Callers τ ε) (t : τ) (earlier : List (Deed τ ε)) : Prop where
  underWay : s.service.underWay = [(t, (calls t).attempt)]
  inside : (s.stage t).isInside = true
  outside (u : τ) : u ≠ t → (s.stage u).isInside = false
  before : Before calls (calls t).attempt earlier
  state : s.service.state = (calls t).attempt.during
  deeds : s.deeds = earlier ++ (s.stage t).trail t

/-- At most one call is inside. -/
inductive Life (calls : τ → ServiceCall) (s : Callers τ ε) : Prop
  | idle : Idle calls s → Life calls s
  | busy {t : τ} {earlier : List (Deed τ ε)} : Busy calls s t earlier → Life calls s

private theorem Past.before {state : ServiceState} {deeds : List (Deed τ ε)} {attempt : Attempt} (h : Past calls state deeds)
    (hsource : state = attempt.source) : Before calls attempt deeds := by
  cases h with
  | @ready attempt' _ hbefore =>
    have heq : attempt' = attempt := by cases attempt' <;> cases attempt <;> first | rfl | cases hsource
    rwa [heq] at hbefore
  | stuck => exact absurd hsource (Attempt.during_ne_source _ _)
  | @finished t _ result _ hfailed =>
    exfalso
    cases hattempt : (calls t).attempt with
    | start =>
      rw [hattempt, hfailed hattempt] at hsource
      cases attempt <;> cases hsource
    | stop =>
      rw [hattempt] at hsource
      cases attempt <;> cases hsource

/-- The service is left by a call whose work has ended: a good start makes it ready for a stop, and else its life is over. -/
private theorem Before.past {earlier : List (Deed τ ε)} (h : Before calls (calls t).attempt earlier) (result : Except ε Unit) :
    Past calls ((calls t).attempt.target result.isOk) (earlier ++ (CallStage.returned result).trail t) := by
  by_cases hgood : (calls t).attempt = .start ∧ result.isOk = true
  · obtain ⟨hattempt, hok⟩ := hgood
    rw [hattempt] at h ⊢
    cases h
    cases result with
    | error e => cases hok
    | ok => exact .ready (.stop hattempt)
  · exact .finished h fun hattempt => Bool.eq_false_iff.2 fun hok => hgood ⟨hattempt, hok⟩

private theorem Life.busy_of_isInside (h : Life calls s) (ht : (s.stage t).isInside = true) :
    ∃ earlier, Busy calls s t earlier := by
  cases h with
  | idle hidle =>
    rw [hidle.outside t] at ht
    cases ht
  | @busy u earlier hbusy =>
    by_cases htu : t = u
    · exact ⟨earlier, htu ▸ hbusy⟩
    · rw [hbusy.outside t htu] at ht
      cases ht

private theorem Life.idle_of_source (h : Life calls s) {attempt : Attempt} (hsource : s.service.state = attempt.source) :
    Idle calls s := by
  cases h with
  | idle hidle => exact hidle
  | busy hbusy =>
    rw [hbusy.state] at hsource
    exact absurd hsource (Attempt.during_ne_source _ _)

private theorem deeds_of_log {x : Deed τ ε} (hlog : s'.log = s.log ++ [x]) (hx : x.isRefusal = false) :
    s'.deeds = s.deeds ++ [x] := by
  rw [deeds, hlog, List.filter_append, List.filter_cons_of_pos (by rw [hx]; rfl)]
  rfl

private theorem deeds_of_refusal {x : Deed τ ε} (hlog : s'.log = s.log ++ [x]) (hx : x.isRefusal = true) :
    s'.deeds = s.deeds := by
  rw [deeds, hlog, List.filter_append, List.filter_cons_of_neg (by simp [hx]), List.filter_nil, List.append_nil]
  rfl

/-- Something that every call does at most once on its way is done at most once by each kind of call, by a start first. -/
private theorem Life.once (h : Life calls s) {f : Deed τ ε → Option Attempt} (hrefused : ∀ t found, f (.refused t found) = none)
    (htrail : ∀ t (stage : CallStage ε), (stage.trail t).filterMap f <+: [(calls t).attempt])
    (hreturned : ∀ t (result : Except ε Unit), ((CallStage.returned result).trail t).filterMap f = [(calls t).attempt]) :
    s.log.filterMap f <+: [.start, .stop] := by
  -- refusals do not count, and what was done before a call enters is the whole trail of a start if that call is a stop
  have hdeeds : s.log.filterMap f = s.deeds.filterMap f := by
    rw [deeds, List.filterMap_filter]
    congr 1
    funext x
    cases x with
    | refused t found => rw [hrefused]; rfl
    | _ => rfl
  have hbefore : ∀ {attempt : Attempt} {earlier : List (Deed τ ε)}, Before calls attempt earlier →
      earlier.filterMap f ++ [attempt] <+: [.start, .stop] := by
    intro attempt earlier hb
    cases hb with
    | start => exact List.prefix_append [Attempt.start] [.stop]
    | stop hattempt =>
      rw [hreturned, hattempt]
      exact List.prefix_rfl
  have hcall : ∀ {t : τ} {earlier : List (Deed τ ε)} (stage : CallStage ε), Before calls (calls t).attempt earlier →
      (earlier ++ stage.trail t).filterMap f <+: [.start, .stop] := by
    intro t earlier stage hb
    rw [List.filterMap_append]
    exact ((List.prefix_append_right_inj _).2 (htrail t stage)).trans (hbefore hb)
  rw [hdeeds]
  cases h with
  | busy hbusy =>
    rw [hbusy.deeds]
    exact hcall _ hbusy.before
  | idle hidle =>
    have hpast := hidle.past
    generalize s.service.state = state, s.deeds = deeds at hpast
    cases hpast with
    | ready hb => exact (List.prefix_append _ _).trans (hbefore hb)
    | stuck hb => exact hcall _ hb
    | finished hb _ => exact hcall _ hb

variable [DecidableEq τ] {x : CallStep τ ε} {steps : List (CallStep τ ε)}

private theorem Busy.finish {earlier : List (Deed τ ε)} (h : Busy calls s t earlier) (ok : Bool) :
    s.service.finish t ok = { s.service with state := (calls t).attempt.target ok, underWay := [] } := by
  simp [Service.finish, Service.others, h.underWay]

section Update

variable {stage : CallStage ε}

private theorem outside_update (hstage : s'.stage = Function.update s.stage t stage) (hto : stage.isInside = false)
    (hothers : ∀ u, u ≠ t → (s.stage u).isInside = false) (u : τ) : (s'.stage u).isInside = false := by
  rw [hstage]
  by_cases hu : u = t
  · rw [hu, Function.update_self, hto]
  · rw [Function.update_of_ne hu, hothers u hu]

private theorem Life.update_outside (h : Life calls s) (hservice : s'.service = s.service) (hdeeds : s'.deeds = s.deeds)
    (hstage : s'.stage = Function.update s.stage t stage) (hfrom : (s.stage t).isInside = false)
    (hto : stage.isInside = false) : Life calls s' := by
  cases h with
  | idle hidle =>
    refine .idle ⟨?_, outside_update hstage hto fun u _ => hidle.outside u, ?_⟩
    · rw [hservice, hidle.underWay]
    · rw [hservice, hdeeds]
      exact hidle.past
  | @busy u earlier hbusy =>
    have hne : u ≠ t := by
      rintro rfl
      rw [hbusy.inside] at hfrom
      cases hfrom
    have hsame : s'.stage u = s.stage u := by rw [hstage, Function.update_of_ne hne]
    refine .busy (t := u) ⟨?_, ?_, ?_, hbusy.before, ?_, ?_⟩
    · rw [hservice, hbusy.underWay]
    · rw [hsame, hbusy.inside]
    · intro v hv
      by_cases hvt : v = t
      · rw [hstage, hvt, Function.update_self, hto]
      · rw [hstage, Function.update_of_ne hvt, hbusy.outside v hv]
    · rw [hservice, hbusy.state]
    · rw [hdeeds, hsame, hbusy.deeds]

private theorem Idle.enter (h : Idle calls s) (hbefore : Before calls (calls t).attempt s.deeds)
    (hservice : s'.service = ⟨(calls t).attempt.during, (t, (calls t).attempt) :: s.service.others t,
      (calls t).attempt :: s.service.begun⟩)
    (hstage : s'.stage = Function.update s.stage t .passed) (hdeeds : s'.deeds = s.deeds ++ [.passed t]) :
    Busy calls s' t s.deeds := by
  have hself : s'.stage t = .passed := by rw [hstage, Function.update_self]
  refine ⟨?_, ?_, fun u hu => ?_, hbefore, ?_, ?_⟩
  · rw [hservice, Service.others, h.underWay]
    rfl
  · rw [hself]
    rfl
  · rw [hstage, Function.update_of_ne hu, h.outside u]
  · rw [hservice]
  · rw [hdeeds, hself]
    rfl

private theorem Busy.update_inside {earlier deeds : List (Deed τ ε)} (h : Busy calls s t earlier)
    (hservice : s'.service = s.service)
    (hstage : s'.stage = Function.update s.stage t stage) (hto : stage.isInside = true)
    (hdeeds : s'.deeds = s.deeds ++ deeds) (htrail : stage.trail t = (s.stage t).trail t ++ deeds) :
    Busy calls s' t earlier := by
  have hself : s'.stage t = stage := by rw [hstage, Function.update_self]
  refine ⟨?_, ?_, fun u hu => ?_, h.before, ?_, ?_⟩
  · rw [hservice, h.underWay]
  · rw [hself, hto]
  · rw [hstage, Function.update_of_ne hu, h.outside u hu]
  · rw [hservice, h.state]
  · rw [hself, htrail, hdeeds, h.deeds, List.append_assoc]

end Update

private theorem Moved.life (h : Moved calls s x s') (hlife : Life calls s) : Life calls s' := by
  -- a test lets a call in, only the call inside goes on, and only it can leave the service idle again
  cases h with
  | stays => exact hlife
  | refused hstage =>
    exact hlife.update_outside rfl (deeds_of_refusal rfl rfl) rfl (by rw [hstage]; rfl) rfl
  | gone hstage => exact hlife.update_outside rfl rfl rfl (by rw [hstage]; rfl) rfl
  | passed hstage hsource =>
    have hidle := hlife.idle_of_source hsource
    exact .busy (hidle.enter (hidle.past.before hsource) rfl rfl (deeds_of_log rfl rfl))
  | @begun t hstage =>
    obtain ⟨earlier, hbusy⟩ := hlife.busy_of_isInside (t := t) (by rw [hstage]; rfl)
    exact .busy (hbusy.update_inside rfl rfl rfl (deeds_of_log rfl rfl) (by rw [hstage]; rfl))
  | @ended t result hstage =>
    obtain ⟨earlier, hbusy⟩ := hlife.busy_of_isInside (t := t) (by rw [hstage]; rfl)
    exact .busy (hbusy.update_inside rfl rfl rfl (deeds_of_log rfl rfl) (by rw [hstage]; rfl))
  | @left t result hstage =>
    obtain ⟨earlier, hbusy⟩ := hlife.busy_of_isInside (t := t) (by rw [hstage]; rfl)
    refine .idle ⟨?_, outside_update rfl rfl hbusy.outside, ?_⟩
    · rw [hbusy.finish]
    · rw [deeds_of_log rfl rfl, hbusy.deeds, hbusy.finish, hstage, List.append_assoc]
      exact hbusy.before.past result
  | @abandoned t hstage =>
    obtain ⟨earlier, hbusy⟩ := hlife.busy_of_isInside (t := t) (by rw [hstage]; rfl)
    refine .idle ⟨?_, outside_update rfl rfl hbusy.outside, ?_⟩
    · rw [Service.abandon, Service.others, hbusy.underWay]
      simp
    · have hdeeds := hbusy.deeds
      rw [hstage] at hdeeds
      rw [Service.abandon, hbusy.state]
      exact (congrArg (Past calls _) hdeeds).mpr (.stuck hbusy.before)

private theorem life_run (calls : τ → ServiceCall) (steps : List (CallStep τ ε)) : Life calls (run calls steps) := by
  induction steps using List.reverseRecOn with
  | nil => exact .idle ⟨rfl, fun _ => rfl, .ready .start⟩
  | append_singleton steps x ih =>
    rw [run_concat]
    exact (moved_move calls _ x).life ih

/-- The work of a stop begins only after the work of a start has ended well. -/
private theorem ended_of_begun {earlier later : List (Deed τ ε)} (hlog : (run calls steps).log = earlier ++ .begun t :: later)
    (hstop : (calls t).attempt = .stop) : ∃ u, (calls u).attempt = .start ∧ .ended u (.ok ()) ∈ earlier := by
  induction steps using List.reverseRecOn generalizing later with
  | nil => exact absurd hlog.symm (by simp [run])
  | append_singleton steps x ih =>
    rw [run_concat] at hlog
    rcases (moved_move calls (run calls steps) x).log_cases with hsame | ⟨deed, hadd, hbegun, -⟩
    · exact ih (hsame.symm.trans hlog)
    · rw [hadd] at hlog
      -- the work has begun just now, or it had begun before
      rcases List.eq_nil_or_concat later with rfl | ⟨later, last, rfl⟩
      · obtain ⟨hlog, hdeed⟩ := List.append_inj' hlog rfl
        have hpassed := hbegun t (List.singleton_inj.1 hdeed)
        obtain ⟨past, hbusy⟩ := (life_run calls steps).busy_of_isInside (t := t) (by rw [hpassed]; rfl)
        have hbefore := hbusy.before
        rw [hstop] at hbefore
        cases hbefore with
        | @stop u hstart =>
          have hended : .ended u (.ok ()) ∈ (run calls steps).deeds := by
            rw [hbusy.deeds]
            exact List.mem_append_left _ (by simp [CallStage.trail])
          exact ⟨u, hstart, hlog ▸ (List.mem_filter.1 hended).1⟩
      · rw [List.concat_eq_append, ← List.cons_append, ← List.append_assoc] at hlog
        exact ih (List.append_inj' hlog rfl).1

private theorem Moved.next (h : Moved calls s x s') (hlife : Life calls s) :
    s'.service.state = s.service.state ∨ s.service.state.Next s'.service.state := by
  cases h with
  | stays | refused | begun | ended | gone | abandoned => exact .inl rfl
  | @passed t _ hsource =>
    right
    rw [hsource]
    change (calls t).attempt.source.Next (calls t).attempt.during
    cases (calls t).attempt with
    | start => exact .start
    | stop => exact .stop
  | @left t result hstage =>
    right
    obtain ⟨earlier, hbusy⟩ := hlife.busy_of_isInside (t := t) (by rw [hstage]; rfl)
    rw [hbusy.finish, hbusy.state]
    change (calls t).attempt.during.Next ((calls t).attempt.target result.isOk)
    cases (calls t).attempt with
    | start =>
      cases result with
      | error e => exact .failed
      | ok => exact .started
    | stop => exact .stopped

/-- The life of one service under any number of calls that start or stop it, whatever the order of their steps, however often
their work is suspended, however it ends, and whichever calls are dropped. The work of at most one start is begun, and that of
at most one stop, which comes after a start whose work has ended well. At most one call of each kind passes its test. The
state takes only steps of a life. A call that has passed its test returns what its work has ended with, once it leaves. Every
other call is refused with the state that its own test has found, and it changes nothing. -/
theorem one_life (calls : τ → ServiceCall) (refuse : LifecycleError → ε) (steps : List (CallStep τ ε)) :
    let s := run calls steps
    (s.log.filterMap (Deed.begins? calls) <+: [.start, .stop] ∧ s.log.filterMap (Deed.passes? calls) <+: [.start, .stop]) ∧
    (∀ earlier t later, s.log = earlier ++ .begun t :: later → (calls t).attempt = .stop →
      ∃ u, (calls u).attempt = .start ∧ .ended u (.ok ()) ∈ earlier) ∧
    (∀ earlier x later, steps = earlier ++ x :: later →
      let before := run calls earlier
      let after := run calls (earlier ++ [x])
      (after.service.state = before.service.state ∨ before.service.state.Next after.service.state) ∧
        (.passed x.ticket ∉ s.log → after.service = before.service)) ∧
    ∀ t,
      let returns (s : Callers τ ε) r := (s.stage t).result? (calls t) refuse = some r
      (.passed t ∈ s.log → ∀ r, (returns s r → .ended t r ∈ s.log) ∧ (.ended t r ∈ s.log → returns (s.move calls (.leave t)) r)) ∧
      (.passed t ∉ s.log → ∀ r, returns s r ↔ ∃ earlier later, steps = earlier ++ .test t :: later ∧
        (run calls earlier).stage t = .waiting ∧
        r = .error (refuse ((calls t).attempt.refusal (calls t).service (run calls earlier).service.state))) := by
  intro s
  have hlife : Life calls s := life_run calls steps
  have htraced : s.Traced := traced_run calls steps
  refine ⟨⟨hlife.once (fun _ _ => rfl) ?_ fun _ _ => rfl, hlife.once (fun _ _ => rfl) ?_ fun _ _ => rfl⟩,
    fun earlier t later => ended_of_begun, ?_, ?_⟩
  · intro t stage
    cases stage with
    | waiting | refused | passed | gone => exact List.nil_prefix
    | working | abandoned | worked | returned => exact List.prefix_rfl
  · intro t stage
    cases stage with
    | waiting | refused | gone => exact List.nil_prefix
    | passed | working | abandoned | worked | returned => exact List.prefix_rfl
  · intro earlier x later hsteps before after
    have hafter : after = before.move calls x := run_concat calls earlier x
    have hmoved : Moved calls before x after := hafter ▸ moved_move calls before x
    refine ⟨hmoved.next (life_run calls earlier), fun hout => hmoved.service_eq (traced_run calls earlier) fun hmem => ?_⟩
    rw [hafter] at hmem
    exact hout ((prefix_log_of_split hsteps).subset hmem)
  · intro t returns
    refine ⟨fun hpassed r => ⟨htraced.ended_of_result? hpassed, htraced.result?_of_ended⟩, fun hout r => ?_⟩
    refine (htraced.result?_iff_refused hout).trans ⟨?_, ?_⟩
    · rintro ⟨found, hmem, hr⟩
      obtain ⟨earlier, later, hsteps, hstage, rfl⟩ := exists_test_of_refused hmem
      exact ⟨earlier, later, hsteps, hstage, hr⟩
    · rintro ⟨earlier, later, hsteps, hstage, hr⟩
      exact ⟨_, (mem_log_of_test hsteps hstage).resolve_left hout, hr⟩

end Callers

end SecretsGateway
