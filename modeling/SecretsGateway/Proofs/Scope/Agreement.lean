import Mathlib.Data.List.Induction
import Mathlib.Data.List.Infix
import SecretsGateway.Proofs.Scope.Race

/-!
# What a schedule decides

How work in a scope ends, how often it is polled and whether the wait for the cancellation is over, all this is told from the
beats alone: from whether the scope was cancelled before the work was begun, and from what could be noticed before each poll
(`Trial.agrees`). Where the driver is in step with the clock at the polls, this comes down to whether the scope is cancelled.
Nothing in it depends on whether a handle is given up.
-/

namespace SecretsGateway

variable {R : Runtime} {α : Type} {s : Scope} {x : Scene} {answers : Nat → Option α} {beats earlier later : List Beat}
  {b : Beat} {a : α}

/-- The scope is cancelled after some beats. -/
def Scope.IsCancelledAfter (s : Scope) (x : Scene) (beats : List Beat) : Prop :=
  s.isCancelled (x.afterAll beats).toMoment = true

namespace Runtime

/-- The cancellation of the scope can be noticed after some beats. -/
def NoticesAfter (R : Runtime) (s : Scope) (x : Scene) (beats : List Beat) : Prop := R.notices s (x.afterAll beats) = true

/-- The scope was cancelled before the work was polled at all, or its cancellation can be noticed. -/
def HeedsAfter (R : Runtime) (s : Scope) (x : Scene) (beats : List Beat) : Prop :=
  (∃ entry, entry <+: beats ∧ .run ∉ entry ∧ s.IsCancelledAfter x entry) ∨ R.NoticesAfter s x beats

end Runtime

private theorem Scope.IsCancelledAfter.mono (h : s.IsCancelledAfter x earlier) (hearly : earlier <+: beats) :
    s.IsCancelledAfter x beats := by
  obtain ⟨later, rfl⟩ := hearly
  have hleads := (x.afterAll earlier).leads_afterAll later
  rw [IsCancelledAfter, Scene.afterAll_append]
  exact isCancelled_mono h hleads.now hleads.cancelled

namespace Runtime

private theorem NoticesAfter.mono (h : R.NoticesAfter s x earlier) (hearly : earlier <+: beats) : R.NoticesAfter s x beats := by
  obtain ⟨later, rfl⟩ := hearly
  rw [NoticesAfter, Scene.afterAll_append]
  exact notices_mono h ((x.afterAll earlier).leads_afterAll later)

private theorem HeedsAfter.mono (h : R.HeedsAfter s x earlier) (hearly : earlier <+: beats) : R.HeedsAfter s x beats := by
  rcases h with ⟨entry, hentry, h⟩ | h
  · exact .inl ⟨entry, hentry.trans hearly, h⟩
  · exact .inr (h.mono hearly)

end Runtime

/-- Such a beat comes at some point of a schedule, and something holds of the beats before. -/
def Comes (b : Beat) (p : List Beat → Prop) (beats : List Beat) : Prop := ∃ earlier, earlier ++ [b] <+: beats ∧ p earlier

namespace Comes

variable {b' : Beat} {p q : List Beat → Prop}

private theorem snoc : Comes b p (beats ++ [b']) ↔ b = b' ∧ p beats ∨ Comes b p beats := by
  constructor
  · rintro ⟨earlier, hearly, hp⟩
    rcases List.prefix_concat_iff.1 hearly with heq | hearly
    · obtain ⟨rfl, hb⟩ := List.append_inj' heq rfl
      exact .inl ⟨List.singleton_inj.1 hb, hp⟩
    · exact .inr ⟨earlier, hearly, hp⟩
  · rintro (⟨rfl, hp⟩ | ⟨earlier, hearly, hp⟩)
    · exact ⟨beats, List.prefix_rfl, hp⟩
    · exact ⟨earlier, hearly.trans (List.prefix_append beats [b']), hp⟩

private theorem congr (h : ∀ earlier, earlier ++ [b] <+: beats → (p earlier ↔ q earlier)) : Comes b p beats ↔ Comes b q beats :=
  exists_congr fun earlier => and_congr_right fun hearly => h earlier hearly

/-- Of two points of a schedule at which a beat comes, one comes before the other if they are not the same. -/
private theorem compare (h : Comes b p beats) (h' : Comes b q beats) :
    ∃ earlier earlier', p earlier ∧ q earlier' ∧
      (earlier = earlier' ∨ earlier ++ [b] <+: earlier' ∨ earlier' ++ [b] <+: earlier) := by
  obtain ⟨earlier, hearly, hp⟩ := h
  obtain ⟨earlier', hearly', hq⟩ := h'
  refine ⟨earlier, earlier', hp, hq, ?_⟩
  rcases List.prefix_or_prefix_of_prefix hearly hearly' with h | h
  · rcases List.prefix_concat_iff.1 h with heq | h
    · exact .inl (List.append_inj' heq rfl).1
    · exact .inr (.inl h)
  · rcases List.prefix_concat_iff.1 h with heq | h
    · exact .inl (List.append_inj' heq rfl).1.symm
    · exact .inr (.inr h)

end Comes

namespace Sight

/-- What is seen in the beginning, and then after some beats. -/
def course (R : Runtime) (s : Scope) (answers : Nat → Option α) (x : Scene) (beats : List Beat) : Sight α :=
  after R s answers { scene := x } beats

variable {v v' : Sight α}

end Sight

/-- Two scenes that differ at most in whether the handle of a root is given up. -/
structure Scene.SameBut (r : Root) (x y : Scene) : Prop where
  moment : x.toMoment = y.toMoment
  fired : x.fired = y.fired
  released : ∀ r' ≠ r, r' ∈ x.released ↔ r' ∈ y.released

namespace Scene.SameBut

variable {y : Scene} {r : Root}

private theorem isCancelled_eq (h : SameBut r x y) : s.isCancelled x.toMoment = s.isCancelled y.toMoment := by rw [h.moment]

private theorem notices_eq (h : SameBut r x y) : R.notices s x = R.notices s y := by
  rw [Runtime.notices, Runtime.notices, h.fired, h.moment]

private theorem heeds_eq (h : SameBut r x y) (begun : Bool) : R.heeds s x begun = R.heeds s y begun := by
  rw [Runtime.heeds, Runtime.heeds, h.notices_eq, h.isCancelled_eq]

/-- As long as the root is not cancelled through its handle, it makes no difference whether the handle is there. -/
private theorem after {o : Occurrence} (h : SameBut r x y) (ho : o ≠ .cancel r) : SameBut r (x.after o) (y.after o) := by
  have hsetting : (x.toSetting.after o).toMoment = (y.toSetting.after o).toMoment ∧
      ∀ r' ≠ r, r' ∈ (x.toSetting.after o).released ↔ r' ∈ (y.toSetting.after o).released := by
    cases o with
    | cancel r' =>
      have hne : r' ≠ r := fun heq => ho (heq ▸ rfl)
      by_cases hr' : r' ∈ x.released
      · rw [Setting.after_cancel_of_mem hr', Setting.after_cancel_of_mem ((h.released r' hne).1 hr')]
        exact ⟨h.moment, h.released⟩
      · rw [Setting.after_cancel_of_notMem hr', Setting.after_cancel_of_notMem (mt (h.released r' hne).2 hr')]
        exact ⟨congrArg (fun m : Moment => { m with cancelled := r' :: m.cancelled }) h.moment, h.released⟩
    | release r' =>
      refine ⟨h.moment, fun r'' hne => ?_⟩
      rw [Setting.after, Setting.after, List.mem_cons, List.mem_cons, h.released r'' hne]
    | pass ms => exact ⟨congrArg (fun m : Moment => { m with now := m.now + ms }) h.moment, h.released⟩
  exact ⟨hsetting.1, h.fired, hsetting.2⟩

private theorem beat (h : SameBut r x y) (hb : b ≠ .occur (.cancel r)) : SameBut r (x.beat b) (y.beat b) := by
  cases b with
  | occur o => exact h.after fun ho => hb (ho ▸ rfl)
  | turn => exact ⟨h.moment, congrArg Moment.now h.moment, h.released⟩
  | run => exact h
  | wait => exact h

end Scene.SameBut

namespace Sight

variable {v v' : Sight α} {r : Root}

/-- Two sights of which the same can be told, up to whether the handle of a root is given up. -/
structure Alike (r : Root) (v v' : Sight α) : Prop where
  scene : Scene.SameBut r v.scene v'.scene
  outcome : v.outcome = v'.outcome
  isBegun : v.isBegun = v'.isBegun
  polls : v.polls = v'.polls
  isOver : v.isOver = v'.isOver

private theorem Alike.step (h : Alike r v v') (hb : b ≠ .occur (.cancel r)) :
    Alike r (v.step R s answers b) (v'.step R s answers b) := by
  obtain ⟨hscene, houtcome, hbegun, hpolls, hover⟩ := h
  cases b with
  | occur o => exact ⟨hscene.beat hb, houtcome, hbegun, hpolls, hover⟩
  | turn => exact ⟨hscene.beat hb, houtcome, hbegun, hpolls, hover⟩
  | run =>
    rw [Sight.step, Sight.step, ← houtcome, ← hpolls, ← hbegun, ← hscene.heeds_eq]
    split
    · exact ⟨hscene, houtcome, hbegun, hpolls, hover⟩
    · split
      · exact ⟨hscene, rfl, rfl, rfl, hover⟩
      · exact ⟨hscene, rfl, rfl, rfl, hover⟩
  | wait =>
    refine ⟨hscene, houtcome, hbegun, hpolls, ?_⟩
    rw [Sight.step, Sight.step, hover, hscene.notices_eq]

private theorem Alike.after (h : Alike r v v') (hbeats : .occur (.cancel r) ∉ beats) :
    Alike r (v.after R s answers beats) (v'.after R s answers beats) := by
  induction beats generalizing v v' with
  | nil => exact h
  | cons b beats ih =>
    rw [List.mem_cons, not_or] at hbeats
    exact ih (h.step fun heq => hbeats.1 heq.symm) hbeats.2

end Sight

/-- How work and the wait for the cancellation go in some beats, told from the beats before each poll: these stop the work, or
end the wait, or they do not. -/
structure Trial.GoesBy (answers : Nat → Option α) (t : Trial R α) (beats : List Beat) (stop finish : List Beat → Prop) :
    Prop where
  /-- The work is cancelled if a poll is stopped before the work has answered. -/
  cancelled : t.race.outcome = some .cancelled ↔
    Comes .run (fun earlier => stop earlier ∧ ∀ j < earlier.count .run, answers j = none) beats
  /-- It is done if it is polled for its answer before that. -/
  done : ∀ a, t.race.outcome = some (.done a) ↔
    Comes .run (fun earlier => ¬ stop earlier ∧ (∀ j < earlier.count .run, answers j = none) ∧
      answers (earlier.count .run) = some a) beats
  /-- A poll that is stopped does not touch the work, and no later one does. -/
  polls : ∀ earlier, earlier ++ [.run] <+: beats → stop earlier → t.polls ≤ earlier.count .run
  /-- The wait is over if a poll ended it. -/
  isOver : t.waiter.isOver = true ↔ Comes .wait finish beats
  /-- A poll that would be stopped is owed, if the work goes on. -/
  run : t.owesRun = false → stop beats → t.race.outcome ≠ none
  /-- A poll that would end the wait is owed. -/
  wait : t.owesWait = false → (t.waiter.isOver = true ↔ finish beats)

namespace Trial

private theorem GoesBy.congr {t : Trial R α} {stop finish stop' finish' : List Beat → Prop} (h : t.GoesBy answers beats stop finish)
    (hrun : ∀ earlier, earlier ++ [.run] <+: beats → (stop earlier ↔ stop' earlier))
    (hwait : ∀ earlier, earlier ++ [.wait] <+: beats → (finish earlier ↔ finish' earlier))
    (hstop : stop beats ↔ stop' beats) (hover : finish beats ↔ finish' beats) : t.GoesBy answers beats stop' finish' where
  cancelled := h.cancelled.trans (Comes.congr fun earlier hearly => and_congr_left' (hrun earlier hearly))
  done a := (h.done a).trans (Comes.congr fun earlier hearly => and_congr_left' (not_congr (hrun earlier hearly)))
  polls earlier hearly hstop' := h.polls earlier hearly ((hrun earlier hearly).2 hstop')
  isOver := h.isOver.trans (Comes.congr hwait)
  run howes hstop' := h.run howes (hstop.2 hstop')
  wait howes := (h.wait howes).trans hover

end Trial

end SecretsGateway
