import SecretsGateway.Proofs.Scope.Derivation

/-!
# Waiting for a cancellation

A waiter is over exactly if it is polled when the cancellation of its scope can be noticed (`Waiter.isOver_poll`), whether the
handle of the root is held or gone. That is when the flag is up or the timer has been fired: never before the scope is cancelled,
and at once where the driver is in step with the clock (`Runtime.notices_eq`). In between nothing is missed, for what can be
noticed also wakes a waiter that was polled before (`Waiter.Watches.isWoken`). All this is kept by whatever leads from one scene
to a later one (`Scene.Leads`).
-/

namespace SecretsGateway

variable {R : Runtime} {f : Flag} {s : Scope} {x y z : Scene}

namespace Setting

variable {o : Occurrence} {r : Root}

private theorem released_after (x : Setting) (o : Occurrence) : x.released ⊆ (x.after o).released := by
  cases o with
  | cancel r =>
    by_cases h : r ∈ x.released
    · rw [after_cancel_of_mem h]
      exact List.Subset.refl _
    · rw [after_cancel_of_notMem h]
      exact List.Subset.refl _
  | release r => exact List.subset_cons_self r _
  | pass ms => exact List.Subset.refl _

/-- A root whose handle is gone is not cancelled any more. -/
private theorem mem_cancelled_of_after {x : Setting} (hr : r ∈ x.released) (h : r ∈ (x.after o).cancelled) :
    r ∈ x.cancelled := by
  cases o with
  | cancel r' =>
    by_cases hreleased : r' ∈ x.released
    · rwa [after_cancel_of_mem hreleased] at h
    · rw [after_cancel_of_notMem hreleased, List.mem_cons] at h
      exact h.resolve_left fun heq => hreleased (heq ▸ hr)
  | release r' => exact h
  | pass ms => exact h

end Setting

namespace Scene

/-- Something happens around the scopes; the driver has no turn. -/
def after (x : Scene) (o : Occurrence) : Scene where
  toSetting := x.toSetting.after o
  fired := x.fired
  fired_le := Nat.le_trans x.fired_le (x.toSetting.after_le o).1

/-- A turn of the driver. -/
def turn (x : Scene) : Scene := { x with fired := x.now, fired_le := Nat.le_refl _ }

/-- What is the same in all that may become of a scene: neither the clock nor the driver goes back, no root is restored, and
nobody cancels a root whose handle is gone. -/
structure Leads (x y : Scene) : Prop where
  now : x.now ≤ y.now
  fired : x.fired ≤ y.fired
  cancelled : x.cancelled ⊆ y.cancelled
  released : x.released ⊆ y.released
  kept : ∀ r ∈ x.released, r ∈ y.cancelled → r ∈ x.cancelled

@[refl] theorem Leads.refl (x : Scene) : x.Leads x where
  now := Nat.le_refl _
  fired := Nat.le_refl _
  cancelled := List.Subset.refl _
  released := List.Subset.refl _
  kept _ _ h := h

theorem Leads.trans (h : x.Leads y) (h' : y.Leads z) : x.Leads z where
  now := Nat.le_trans h.now h'.now
  fired := Nat.le_trans h.fired h'.fired
  cancelled := List.Subset.trans h.cancelled h'.cancelled
  released := List.Subset.trans h.released h'.released
  kept r hr hz := h.kept r hr (h'.kept r (h.released hr) hz)

theorem leads_turn (x : Scene) : x.Leads x.turn := { Leads.refl x with fired := x.fired_le }

theorem leads_after (x : Scene) (o : Occurrence) : x.Leads (x.after o) where
  now := (x.toSetting.after_le o).1
  fired := Nat.le_refl _
  cancelled := (x.toSetting.after_le o).2
  released := x.toSetting.released_after o
  kept _ := Setting.mem_cancelled_of_after

end Scene

namespace Runtime

theorem notices_iff : R.notices s x = true ↔ s.root ∈ x.cancelled ∨ ∃ d, s.deadline = some d ∧ R.due d ≤ x.fired := by
  rw [notices, Bool.or_eq_true, List.contains_iff_mem, Option.any_eq_true]
  simp only [decide_eq_true_eq]

/-- Nothing is noticed before it has happened. -/
theorem isCancelled_of_notices (h : R.notices s x = true) : s.isCancelled x.toMoment = true := by
  rw [Scope.isCancelled_iff]
  refine (notices_iff.1 h).imp_right ?_
  rintro ⟨d, hd, hdue⟩
  exact ⟨d, hd, Nat.le_trans (R.le_due d) (Nat.le_trans hdue x.fired_le)⟩

theorem notices_of_inStep (hstep : R.InStep x) (h : s.isCancelled x.toMoment = true) : R.notices s x = true := by
  rw [notices_iff]
  refine (Scope.isCancelled_iff.1 h).imp_right ?_
  rintro ⟨d, hd, hle⟩
  exact ⟨d, hd, hstep d hle⟩

/-- Where the driver is in step with the clock, the cancellation of a scope is noticed at once. -/
theorem notices_eq (hstep : R.InStep x) : R.notices s x = s.isCancelled x.toMoment :=
  Bool.eq_iff_iff.2 ⟨isCancelled_of_notices, notices_of_inStep hstep⟩

theorem heeds_eq (hstep : R.InStep x) (begun : Bool) : R.heeds s x begun = s.isCancelled x.toMoment := by
  rw [heeds, notices_eq hstep, ite_self]

theorem notices_eq_false_of_heeds {begun : Bool} (h : R.heeds s x begun = false) : R.notices s x = false := by
  cases begun with
  | false =>
    rw [← Bool.not_eq_true] at h ⊢
    exact mt isCancelled_of_notices h
  | true => exact h

/-- What is noticed is noticed ever after. -/
theorem notices_mono (h : R.notices s x = true) (hleads : x.Leads y) : R.notices s y = true := by
  rw [notices_iff] at h ⊢
  rcases h with hroot | ⟨d, hd, hdue⟩
  · exact .inl (hleads.cancelled hroot)
  · exact .inr ⟨d, hd, Nat.le_trans hdue hleads.fired⟩

end Runtime

namespace Signal

variable {r : R.Receiver} {signal : Signal R} {root : Root}

/-- Reading the flag is followed by the same as waking up. -/
private theorem listen_eq (f : Flag) (r : R.Receiver) :
    listen f r = if f.isRaised then .raised else poll f (.listening (R.read f r).2) := by
  rw [listen, R.read_fst, poll]
  split
  · rfl
  · split <;> simp only [*]

private theorem poll_listening_of_ne (h : R.seen r ≠ f.writes) : ∃ r', poll f (.listening r) = listen f r' := by
  obtain ⟨hnews, -⟩ := R.news_of_ne h
  rcases hn : R.news f r with ⟨news, r'⟩
  rw [hn] at hnews
  cases hnews
  exact ⟨r', by rw [poll, hn]⟩

private theorem poll_listening_of_held (h : R.seen r = f.writes) (hheld : f.isHeld = true) :
    ∃ r', poll f (.listening r) = .listening r' ∧ R.seen r' = f.writes := by
  obtain ⟨hnews, hseen⟩ := R.news_of_held h hheld
  rcases hn : R.news f r with ⟨news, r'⟩
  rw [hn] at hnews hseen
  cases hnews
  exact ⟨r', by rw [poll, hn], hseen.trans h⟩

private theorem poll_listening_of_not_held (h : R.seen r = f.writes) (hheld : f.isHeld = false) :
    poll f (.listening r) = .resigned := by
  have hnews := R.news_of_not_held h hheld
  rcases hn : R.news f r with ⟨news, r'⟩
  rw [hn] at hnews
  cases hnews
  rw [poll, hn]

/-- Who reads a flag finds it raised, or has seen every write, and listens unless there will be no more. -/
private theorem listen_cases (f : Flag) (r : R.Receiver) :
    f.isRaised = true ∧ listen f r = .raised ∨
    f.isRaised = false ∧ f.isHeld = true ∧ (∃ r', listen f r = .listening r' ∧ R.seen r' = f.writes) ∨
    f.isRaised = false ∧ f.isHeld = false ∧ listen f r = .resigned := by
  rw [listen_eq]
  cases f.isRaised with
  | true => exact .inl ⟨rfl, rfl⟩
  | false =>
    rw [if_neg Bool.false_ne_true]
    cases hheld : f.isHeld with
    | true => exact .inr (.inl ⟨rfl, rfl, poll_listening_of_held (R.seen_read f r) hheld⟩)
    | false => exact .inr (.inr ⟨rfl, rfl, poll_listening_of_not_held (R.seen_read f r) hheld⟩)

/-- The wait for the flag of a root goes on: nothing has been seen yet, or nothing ever will be. -/
inductive Watches (root : Root) (x : Scene) : Signal R → Prop
  | listening {r : R.Receiver} : R.seen r = 0 → Watches root x (.listening r)
  | resigned : root ∈ x.released → root ∉ x.cancelled → Watches root x .resigned

private theorem Watches.leads (h : signal.Watches root x) (hleads : x.Leads y) : signal.Watches root y := by
  cases h with
  | listening hseen => exact .listening hseen
  | resigned hreleased hcancelled =>
    exact .resigned (hleads.released hreleased) fun h => hcancelled (hleads.kept root hreleased h)

private theorem Watches.isRaised_eq (h : signal.Watches root x) : signal.isRaised = false := by
  cases h with
  | listening => rfl
  | resigned => rfl

private theorem isRaised_flag : (x.flag root).isRaised = true ↔ root ∈ x.cancelled := List.contains_iff_mem

private theorem isHeld_flag : (x.flag root).isHeld = false ↔ root ∈ x.released := by
  rw [Setting.flag, Bool.not_eq_false', List.contains_iff_mem]

private theorem writes_flag_eq_zero : (x.flag root).writes = 0 ↔ root ∉ x.cancelled := List.count_eq_zero

private theorem listen_of_mem (h : root ∈ x.cancelled) (r : R.Receiver) : listen (x.flag root) r = .raised := by
  rcases listen_cases (x.flag root) r with ⟨-, h'⟩ | ⟨hraised, -, -⟩ | ⟨hraised, -, -⟩
  · exact h'
  · rw [isRaised_flag.2 h] at hraised
    cases hraised
  · rw [isRaised_flag.2 h] at hraised
    cases hraised

private theorem watches_listen (h : root ∉ x.cancelled) (r : R.Receiver) : (listen (x.flag root) r).Watches root x := by
  rcases listen_cases (x.flag root) r with ⟨hraised, -⟩ | ⟨-, -, r', h', hseen⟩ | ⟨-, hheld, h'⟩
  · exact absurd (isRaised_flag.1 hraised) h
  · rw [h']
    exact .listening (hseen.trans (writes_flag_eq_zero.2 h))
  · rw [h']
    exact .resigned (isHeld_flag.1 hheld) h

/-- Poll by poll, the flag is found raised as soon as the root is cancelled. -/
private theorem poll_of_mem (h : signal = .idle ∨ signal.Watches root x) (hroot : root ∈ x.cancelled) :
    signal.poll (x.flag root) = .raised := by
  rcases h with rfl | h
  · exact listen_of_mem hroot _
  · cases h with
    | @listening r hseen =>
      have hwrites : R.seen r ≠ (x.flag root).writes := fun h => writes_flag_eq_zero.1 (h.symm.trans hseen) hroot
      obtain ⟨r', h'⟩ := poll_listening_of_ne hwrites
      rw [h']
      exact listen_of_mem hroot r'
    | resigned _ hcancelled => exact absurd hroot hcancelled

private theorem watches_poll (h : signal = .idle ∨ signal.Watches root x) (hroot : root ∉ x.cancelled) :
    (signal.poll (x.flag root)).Watches root x := by
  rcases h with rfl | h
  · exact watches_listen hroot _
  · cases h with
    | listening hseen =>
      have hwrites := writes_flag_eq_zero.2 hroot
      cases hheld : (x.flag root).isHeld with
      | true =>
        obtain ⟨r', h', hseen'⟩ := poll_listening_of_held (hseen.trans hwrites.symm) hheld
        rw [h']
        exact .listening (hseen'.trans hwrites)
      | false =>
        rw [poll_listening_of_not_held (hseen.trans hwrites.symm) hheld]
        exact .resigned (isHeld_flag.1 hheld) hroot
    | resigned hreleased hcancelled => exact .resigned hreleased hcancelled

/-- Who listens is woken as the flag changes. -/
def isWoken (f f' : Flag) : Signal R → Bool
  | .listening r => R.wakes r f f'
  | _ => false

private theorem Watches.isWoken (h : signal.Watches root x) (hleads : x.Leads y) (hroot : root ∉ x.cancelled)
    (hafter : root ∈ y.cancelled) : signal.isWoken (x.flag root) (y.flag root) = true := by
  cases h with
  | listening hseen =>
    refine R.wakes_of_written (hseen.trans (writes_flag_eq_zero.2 hroot).symm) fun h => ?_
    exact writes_flag_eq_zero.1 (h.symm.trans hseen) hafter
  | resigned hreleased => exact absurd (hleads.kept root hreleased hafter) hroot

end Signal

namespace Waiter

variable {w : Waiter R} {signal : Signal R} {timer : Option R.Timer}

/-- The wait for the cancellation of a scope goes on. -/
inductive Watches (s : Scope) (x : Scene) : Waiter R → Prop
  | waiting {signal : Signal R} {timer : Option R.Timer} : signal.Watches s.root x → timer.map R.time = s.deadline →
      Watches s x (.waiting signal timer)

/-- The wait has not begun, or it goes on, or it is over. -/
def Fits (s : Scope) (x : Scene) (w : Waiter R) : Prop := w = .start s ∨ w.Watches s x ∨ w = .finished

theorem Watches.leads (h : w.Watches s x) (hleads : x.Leads y) : w.Watches s y := by
  cases h with
  | waiting hsignal htimer => exact .waiting (hsignal.leads hleads) htimer

theorem Fits.leads (h : w.Fits s x) (hleads : x.Leads y) : w.Fits s y := h.imp_right fun h => h.imp_left fun h => h.leads hleads

theorem Watches.isOver_eq (h : w.Watches s x) : w.isOver = false := by
  cases h with
  | waiting => rfl

private theorem map_time_start (s : Scope) : (s.deadline.map R.timer).map R.time = s.deadline := by
  cases s.deadline with
  | none => rfl
  | some d => exact congrArg some (R.time_timer d)

private theorem Fits.cases (h : w.Fits s x) : w = .finished ∨ ∃ signal timer, w = .waiting signal timer ∧
    (signal = .idle ∨ signal.Watches s.root x) ∧ timer.map R.time = s.deadline := by
  rcases h with rfl | h | rfl
  · exact .inr ⟨_, _, rfl, .inl rfl, map_time_start s⟩
  · cases h with
    | waiting hsignal htimer => exact .inr ⟨_, _, rfl, .inr hsignal, htimer⟩
  · exact .inl rfl

/-- The wait ends if the flag is raised or the timer is up, that is, if the cancellation can be noticed. -/
private theorem poll_waiting (hsignal : signal = .idle ∨ signal.Watches s.root x) (htimer : timer.map R.time = s.deadline) :
    R.notices s x = true ∧ (waiting signal timer).poll s x = .finished ∨
    R.notices s x = false ∧ ((waiting signal timer).poll s x).Watches s x := by
  rw [← Bool.not_eq_true, Runtime.notices_iff, ← htimer]
  by_cases hroot : s.root ∈ x.cancelled
  · refine .inl ⟨.inl hroot, ?_⟩
    simp only [poll, Signal.poll_of_mem hsignal hroot, Signal.isRaised, ↓reduceIte]
  · have hwatches := Signal.watches_poll hsignal hroot
    rw [or_iff_right hroot]
    simp only [poll, hwatches.isRaised_eq, Bool.false_eq_true, ↓reduceIte]
    cases timer with
    | none => exact .inr ⟨nofun, .waiting hwatches htimer⟩
    | some timer =>
      cases hup : (R.ask x.fired timer).1 with
      | true =>
        refine .inl ⟨⟨_, rfl, R.ask_iff.1 hup⟩, ?_⟩
        simp only [hup, ↓reduceIte]
      | false =>
        refine .inr ⟨?_, ?_⟩
        · rintro ⟨d, ⟨⟩, hdue⟩
          rw [R.ask_iff.2 hdue] at hup
          cases hup
        · simp only [hup, Bool.false_eq_true, ↓reduceIte]
          refine .waiting hwatches ?_
          rw [← htimer, Option.map_some, Option.map_some, R.time_ask]

/-- A wait is over when it is polled and the cancellation can be noticed. -/
theorem poll_of_notices (h : w.Fits s x) (hnotices : R.notices s x = true) : w.poll s x = .finished := by
  rcases h.cases with rfl | ⟨signal, timer, rfl, hsignal, htimer⟩
  · rfl
  · rcases poll_waiting hsignal htimer with ⟨-, hpoll⟩ | ⟨hnot, -⟩
    · exact hpoll
    · rw [hnotices] at hnot
      cases hnot

/-- A wait that is polled before goes on. -/
theorem watches_poll (h : w.Fits s x) (hover : w ≠ .finished) (hnotices : R.notices s x = false) :
    (w.poll s x).Watches s x := by
  rcases h.cases with rfl | ⟨signal, timer, rfl, hsignal, htimer⟩
  · exact absurd rfl hover
  · rcases poll_waiting hsignal htimer with ⟨hnotices', -⟩ | ⟨-, hpoll⟩
    · rw [hnotices] at hnotices'
      cases hnotices'
    · exact hpoll

theorem Fits.poll (h : w.Fits s x) : (w.poll s x).Fits s x := by
  by_cases hover : w = .finished
  · rw [hover]
    exact .inr (.inr rfl)
  · cases hnotices : R.notices s x with
    | true => exact .inr (.inr (poll_of_notices h hnotices))
    | false => exact .inr (.inl (watches_poll h hover hnotices))

/-- A wait is over once it has been polled when the cancellation could be noticed. -/
theorem isOver_poll (h : w.Fits s x) : (w.poll s x).isOver = (w.isOver || R.notices s x) := by
  cases hnotices : R.notices s x with
  | true =>
    rw [poll_of_notices h hnotices, Bool.or_true]
    rfl
  | false =>
    by_cases hover : w = .finished
    · rw [hover]
      rfl
    · rw [(watches_poll h hover hnotices).isOver_eq, Bool.or_false]
      cases w with
      | waiting => rfl
      | finished => exact absurd rfl hover

/-- A waiter is woken with the wait for its flag, and with its timer. -/
def isWoken (s : Scope) (x y : Scene) : Waiter R → Bool
  | .waiting signal timer =>
    signal.isWoken (x.flag s.root) (y.flag s.root) || timer.any fun t => R.rings t x.fired y.fired
  | .finished => false

/-- When the cancellation of a scope can be noticed, those who wait for it are woken. -/
theorem Watches.isWoken (h : w.Watches s x) (hleads : x.Leads y) (hnotices : R.notices s x = false)
    (hafter : R.notices s y = true) : w.isWoken s x y = true := by
  rw [← Bool.not_eq_true, Runtime.notices_iff, not_or] at hnotices
  obtain ⟨hroot, hnot⟩ := hnotices
  cases h with
  | waiting hsignal htimer =>
    rw [Waiter.isWoken, Bool.or_eq_true]
    rcases Runtime.notices_iff.1 hafter with hroot' | ⟨d, hd, hle⟩
    · exact .inl (hsignal.isWoken hleads hroot hroot')
    · right
      rw [hd, Option.map_eq_some_iff] at htimer
      obtain ⟨t, rfl, rfl⟩ := htimer
      exact R.rings_of_lt (Nat.lt_of_not_le fun hle => hnot ⟨_, hd, hle⟩) hle

end Waiter

end SecretsGateway
