import SecretsGateway.Proofs.Exchange.Writes
import SecretsGateway.Proofs.Store.Owner
import SecretsGateway.Proofs.Store.Readers
import SecretsGateway.Proofs.Traffic.Order
import SecretsGateway.Proofs.World

/-!
# Accounts do not see each other

Everything that concerns other accounts can be left out of a run, and an account does not notice. The two runs are compared
step by step. They stay alike for the account: the clocks, what the allowlist says about it, what the store holds for it, how
far its messages are, and what they have been answered (`Traffic.Alike`). The channel only has to have room.
-/

namespace SecretsGateway

namespace Allowlist

variable (l : Allowlist) (a b : Address)

private theorem allows_allow : (l.allow b).allows a = (l.allows a || decide (a = b)) := by
  unfold allow allows
  split
  · next hmem =>
    by_cases hab : a = b
    · simp [hab, hmem]
    · simp [hab]
  · by_cases hab : a = b <;> simp [hab]

private theorem allows_remove : (l.remove b).allows a = (l.allows a && decide (a ≠ b)) := by
  unfold remove allows
  rw [Bool.eq_iff_iff]
  simp [l.nodup_allowed.mem_erase_iff, and_comm]

end Allowlist

/-- The call is made for an account, or it is a sending. -/
def Call.IsFor (a : Address) : Call → Prop
  | .allow b => b = a
  | .list owner => owner = a
  | .put write => write.key.owner = a
  | .send _ => True

private theorem Story.isFor {σ : Type} {n : Node} {parts : Collaborators σ} {d : Delivery} {t : List (Told σ)} {call : Call}
    (h : Story n parts d t (some call)) : ∃ a, Address.parse d.message.body.sender = .ok a ∧ call.IsFor a := by
  cases h with
  | admission ha => exact ⟨_, ha, rfl⟩
  | listing ha => exact ⟨_, ha, rfl⟩
  | writing ha => exact ⟨_, ha, rfl⟩
  | sending hsettled =>
    obtain ⟨a, ha, -⟩ := hsettled.admitted
    exact ⟨a, ha, trivial⟩

namespace World

/-- The worlds are alike for an account, and the second has at least as much room in its channel as the first. -/
structure Alike (a : Address) (w w' : World) : Prop where
  timeline : w.timeline = w'.timeline
  allows : w.station.allowlist.allows a = w'.station.allowlist.allows a
  storage : ∃ store store' now, w.storage = .memory store now ∧ w'.storage = .memory store' now ∧ store.AgreeOn a store'
  link : ∃ c c', w.link = some c ∧ w'.link = some c' ∧ c'.capacity = c.capacity ∧ c'.isOpen = c.isOpen ∧
    c'.queue.length ≤ c.queue.length

/-- There is a receiver, and there is room for a message. -/
def HasRoom (w : World) : Prop := ∃ c, w.link = some c ∧ c.isOpen = true ∧ c.queue.length < c.capacity

variable {a : Address} {w w' : World}

private theorem Alike.view_eq (h : Alike a w w') (scope : Scope) :
    (collaborators scope).view w = (collaborators scope).view w' := by
  obtain ⟨c, c', hlink, hlink', -⟩ := h.link
  simp only [collaborators, h.timeline, hlink, hlink', Option.isSome_some]

private theorem Alike.poll_send (h : Alike a w w') (hroom : w.HasRoom) (root : Root) (begun : Bool) (out : Delivery) :
    (w.poll root begun (.send out)).2.answer = some (.ok ()) ∧ (w'.poll root begun (.send out)).2.answer = some (.ok ()) ∧
      Alike a (w.poll root begun (.send out)).1 (w'.poll root begun (.send out)).1 := by
  obtain ⟨c, c', hlink, hlink', hcapacity, hopen, hlength⟩ := h.link
  obtain ⟨c₀, hlink₀, hopen₀, hroom₀⟩ := hroom
  obtain rfl : c = c₀ := Option.some.inj (hlink.symm.trans hlink₀)
  obtain ⟨c₁, hqueue₁, hcapacity₁, hopen₁, hp⟩ := poll_send_of_room hlink hopen₀ hroom₀ root begun out
  obtain ⟨c₁', hqueue₁', hcapacity₁', hopen₁', hp'⟩ :=
    poll_send_of_room hlink' (hopen.trans hopen₀) (by omega) root begun out
  rw [hp, hp']
  refine ⟨rfl, rfl, h.timeline, h.allows, h.storage, c₁, c₁', rfl, rfl, ?_, ?_, ?_⟩
  · rw [hcapacity₁', hcapacity₁, hcapacity]
  · rw [hopen₁', hopen₁, hopen]
  · rw [hqueue₁', hqueue₁, List.length_append, List.length_append]
    exact Nat.add_le_add_right hlength _

/-- A call of the account gets the same answer in both worlds, and they stay alike. -/
private theorem Alike.poll (h : Alike a w w') (hroom : w.HasRoom) {call : Call} (hcall : call.IsFor a) (root : Root)
    (begun : Bool) :
    ∃ answer, (w.poll root begun call).2.answer = some answer ∧ (w'.poll root begun call).2.answer = some answer ∧
      Alike a (w.poll root begun call).1 (w'.poll root begun call).1 := by
  obtain ⟨store, store', now, hstorage, hstorage', hagree⟩ := h.storage
  obtain ⟨c, c', hlink, hlink', -⟩ := h.link
  cases call with
  | send out => exact ⟨_, h.poll_send hroom root begun out⟩
  | allow b =>
    cases hcall
    exact ⟨_, rfl, congrArg some h.allows.symm, h⟩
  | list owner =>
    cases hcall
    have hpolled := (polled hstorage hlink root begun (.list a)).of_list
    have hpolled' := (polled hstorage' hlink' root begun (.list a)).of_list
    rw [hpolled.1, hpolled.2, hpolled'.1, hpolled'.2, hagree.list_eq]
    exact ⟨_, rfl, rfl, h⟩
  | put write =>
    have hpolled := (polled hstorage hlink root begun (.put write)).of_put
    have hpolled' := (polled hstorage' hlink' root begun (.put write)).of_put
    rw [hpolled.1, hpolled.2, hpolled'.1, hpolled'.2, hagree.put_eq hcall]
    exact ⟨_, rfl, rfl, h.timeline, h.allows, ⟨_, _, now, rfl, rfl, hagree.use_put hcall now⟩, h.link⟩

/-- A call of another account changes nothing for this one. -/
private theorem Alike.poll_other (h : Alike a w w') {b : Address} (hb : b ≠ a) {call : Call}
    (hcall : call.IsFor b) (root : Root) (begun : Bool) : Alike a (w.poll root begun call).1 w' := by
  obtain ⟨store, store', now, hstorage, hstorage', hagree⟩ := h.storage
  obtain ⟨c, c', hlink, hlink', hcapacity, hopen, hlength⟩ := h.link
  have hpolled := polled hstorage hlink root begun call
  generalize (w.poll root begun call).1 = w₁ at hpolled ⊢
  generalize (w.poll root begun call).2.answer = answer at hpolled ⊢
  cases hpolled with
  | allow => exact h
  | list => exact h
  | full => exact h
  | closed => exact h
  | put write =>
    have howner : write.key.owner ≠ a := fun heq => hb (hcall.symm.trans heq)
    exact ⟨h.timeline, h.allows, ⟨_, store', now, rfl, hstorage', hagree.use_put_other howner now⟩, h.link⟩
  | @sent out channel hsend =>
    obtain ⟨hqueue, hcapacity₁, hopen₁⟩ := Channel.eq_of_send hsend
    refine ⟨h.timeline, h.allows, h.storage, channel, c', rfl, hlink', hcapacity.trans hcapacity₁.symm,
      hopen.trans hopen₁.symm, ?_⟩
    rw [hqueue, List.length_append]
    exact Nat.le_trans hlength (Nat.le_add_right _ _)

end World

/-- The happening concerns an account: it is not a step for a message of another sender, and does not change what the
allowlist says about another account. -/
def Happening.concerns {τ : Type} (arrivals : τ → Arrival) (a : Address) : Happening τ → Bool
  | .step t => (Address.parse (arrivals t).delivery.message.body.sender).toOption = some a
  | .allow b => b = a
  | .remove b => b = a
  | _ => true

private theorem Happening.concerns_step {τ : Type} {arrivals : τ → Arrival} {a : Address} {t : τ} :
    (Happening.step t).concerns arrivals a = true ↔ Address.parse (arrivals t).delivery.message.body.sender = .ok a := by
  rw [concerns, decide_eq_true_iff]
  cases Address.parse (arrivals t).delivery.message.body.sender <;> simp [Except.toOption]

namespace Traffic

variable {τ : Type} [DecidableEq τ] {n : Node} {arrivals : τ → Arrival} {a : Address} {s s' : Traffic τ}

/-- The traffic is alike for an account: the world is, and its messages are equally far and have been answered the same. -/
structure Alike (arrivals : τ → Arrival) (a : Address) (s s' : Traffic τ) : Prop where
  world : s.world.Alike a s'.world
  stage : ∀ t, Address.parse (arrivals t).delivery.message.body.sender = .ok a → s.stage t = s'.stage t
  sent : ∀ t, Address.parse (arrivals t).delivery.message.body.sender = .ok a → s.sentBy t = s'.sentBy t

/-- What leaves the messages of the account where they are. -/
private theorem Alike.around {s₁ s₁' : Traffic τ} (h : Alike arrivals a s s') (hworld : s₁.world.Alike a s₁'.world)
    (hsame : ∀ t, Address.parse (arrivals t).delivery.message.body.sender = .ok a →
      s₁.stage t = s.stage t ∧ s₁.looksOf t = s.looksOf t)
    (hsame' : ∀ t, Address.parse (arrivals t).delivery.message.body.sender = .ok a →
      s₁'.stage t = s'.stage t ∧ s₁'.looksOf t = s'.looksOf t) :
    Alike arrivals a s₁ s₁' := by
  refine ⟨hworld, fun t ht => ?_, fun t ht => ?_⟩
  · rw [(hsame t ht).1, (hsame' t ht).1]
    exact h.stage t ht
  · rw [sentBy, sentBy, (hsame t ht).2, (hsame' t ht).2]
    exact h.sent t ht

private theorem Alike.move_around (h : Alike arrivals a s s') {happening : Happening τ} (hstep : ∀ t, happening ≠ .step t)
    (hworld : (s.move n arrivals happening).world.Alike a (s'.move n arrivals happening).world) :
    Alike arrivals a (s.move n arrivals happening) (s'.move n arrivals happening) :=
  h.around hworld (fun t _ => stage_and_looksOf_move (hstep t)) fun t _ => stage_and_looksOf_move (hstep t)

private theorem Alike.update (h : Alike arrivals a s s') (t : τ) (stage : Stage) (t' : τ)
    (ht' : Address.parse (arrivals t').delivery.message.body.sender = .ok a) :
    Function.update s.stage t stage t' = Function.update s'.stage t stage t' := by
  by_cases heq : t' = t
  · rw [heq, Function.update_self, Function.update_self]
  · rw [Function.update_of_ne heq, Function.update_of_ne heq, h.stage t' ht']

private theorem Alike.step (h : Alike arrivals a s s') {t : τ}
    (ht : Address.parse (arrivals t).delivery.message.body.sender = .ok a)
    (hcalm : (arrivals t).scope.isCancelled s.world.timeline.moment = false) (hroom : s.world.HasRoom)
    (hcalls : ∀ call begun, s.stage t = .asking call begun → call.IsFor a) :
    Alike arrivals a (s.move n arrivals (.step t)) (s'.move n arrivals (.step t)) := by
  have hstage := h.stage t ht
  cases hs : s.stage t with
  | ended =>
    rw [move_step_of_ended n arrivals hs, move_step_of_ended n arrivals (hstage ▸ hs)]
    exact h
  | arrived =>
    rw [move_step_of_arrived n arrivals hs, move_step_of_arrived n arrivals (hstage ▸ hs)]
    exact ⟨h.world, h.update t _, h.sent⟩
  | asking call begun =>
    obtain ⟨answer, hanswer, hanswer', hworld⟩ := h.world.poll hroom (hcalls call begun hs) (arrivals t).scope.root begun
    have hcalm' : (arrivals t).scope.isCancelled s'.world.timeline.moment = false := h.world.timeline ▸ hcalm
    rcases hp : s.world.poll (arrivals t).scope.root begun call with ⟨w, events, answer₁⟩
    rcases hp' : s'.world.poll (arrivals t).scope.root begun call with ⟨w', events', answer₁'⟩
    rw [hp] at hanswer hworld
    rw [hp'] at hanswer' hworld
    subst hanswer hanswer'
    rw [move_step_of_some n arrivals hs hcalm hp, move_step_of_some n arrivals (hstage ▸ hs) hcalm' hp', hworld.view_eq]
    refine ⟨hworld, h.update t _, fun t' ht' => ?_⟩
    refine (sentBy_of_log (s := s) rfl).trans (Eq.trans ?_ (sentBy_of_log rfl).symm)
    rw [h.sent t' ht']
    rfl

section Moves

variable (h : Alike arrivals a s s') (hcalls : ∀ t call begun, s.stage t = .asking call begun →
  ∃ b, Address.parse (arrivals t).delivery.message.body.sender = .ok b ∧ call.IsFor b) {happening : Happening τ}

include h hcalls

/-- What concerns the account keeps the traffic alike. -/
private theorem Alike.move (hconcerns : happening.concerns arrivals a = true)
    (hsmooth : ∀ t, happening = .step t →
      (arrivals t).scope.isCancelled s.world.timeline.moment = false ∧ s.world.HasRoom) :
    Alike arrivals a (s.move n arrivals happening) (s'.move n arrivals happening) := by
  obtain ⟨htimeline, hallows, ⟨store, store', now, hstorage, hstorage', hagree⟩, c, c', hlink, hlink', hcapacity, hopen,
    hlength⟩ := h.world
  cases happening with
  | allow b =>
    refine h.move_around (fun _ => nofun) ⟨htimeline, ?_, h.world.storage, h.world.link⟩
    simp only [Traffic.move, Allowlist.allows_allow, hallows]
  | remove b =>
    refine h.move_around (fun _ => nofun) ⟨htimeline, ?_, h.world.storage, h.world.link⟩
    simp only [Traffic.move, Allowlist.allows_remove, hallows]
  | time change =>
    exact h.move_around (fun _ => nofun) ⟨congrArg change htimeline, hallows, h.world.storage, h.world.link⟩
  | clock now' =>
    refine h.move_around (fun _ => nofun) ?_
    simp only [Traffic.move, hstorage, hstorage']
    exact ⟨htimeline, hallows, ⟨store, store', now', rfl, rfl, hagree⟩, h.world.link⟩
  | purge =>
    refine h.move_around (fun _ => nofun) ?_
    simp only [Traffic.move, hstorage, hstorage']
    exact ⟨htimeline, hallows, ⟨_, _, now, rfl, rfl, hagree.purge now⟩, h.world.link⟩
  | receive =>
    refine h.move_around (fun _ => nofun) ?_
    simp only [Traffic.move, hlink, hlink']
    -- the receiver may take different messages in the two worlds, and none in the second
    refine ⟨htimeline, hallows, h.world.storage, c.receive.2, c'.receive.2, rfl, rfl, hcapacity, hopen, ?_⟩
    simp only [Channel.receive, List.length_tail]
    exact Nat.sub_le_sub_right hlength 1
  | step t =>
    have ht := Happening.concerns_step.1 hconcerns
    obtain ⟨hcalm, hroom⟩ := hsmooth t rfl
    refine h.step ht hcalm hroom fun call begun hstage => ?_
    obtain ⟨b, hb, hcall⟩ := hcalls t call begun hstage
    cases ht.symm.trans hb
    exact hcall

/-- What does not concern the account changes nothing for it. -/
private theorem Alike.skip (hconcerns : happening.concerns arrivals a = false) :
    Alike arrivals a (s.move n arrivals happening) s' := by
  have hother : ∀ t, Address.parse (arrivals t).delivery.message.body.sender = .ok a → happening ≠ .step t := by
    rintro t ht rfl
    rw [Happening.concerns_step.2 ht] at hconcerns
    cases hconcerns
  refine h.around ?_ (fun t ht => stage_and_looksOf_move (hother t ht)) fun _ _ => ⟨rfl, rfl⟩
  cases happening with
  | allow b =>
    have hb : a ≠ b := fun heq => of_decide_eq_false hconcerns heq.symm
    refine ⟨h.world.timeline, ?_, h.world.storage, h.world.link⟩
    simp only [Traffic.move, Allowlist.allows_allow, decide_eq_false hb, Bool.or_false]
    exact h.world.allows
  | remove b =>
    have hb : a ≠ b := fun heq => of_decide_eq_false hconcerns heq.symm
    refine ⟨h.world.timeline, ?_, h.world.storage, h.world.link⟩
    simp only [Traffic.move, Allowlist.allows_remove, decide_eq_true hb, Bool.and_true]
    exact h.world.allows
  | step t =>
    rcases world_move_step n arrivals s t with hsame | ⟨call, begun, hstage, hworld⟩
    · rw [hsame]
      exact h.world
    · obtain ⟨b, hb, hcall⟩ := hcalls t call begun hstage
      rw [hworld]
      refine h.world.poll_other ?_ hcall _ begun
      rintro rfl
      exact hother t hb rfl
  | _ => cases hconcerns

end Moves

end Traffic

/-! ### Runs -/

section Runs

variable {τ : Type} [DecidableEq τ]

/-- Whenever the exchange of a message of the account takes a step, its scope is not cancelled, and the channel has room. -/
def Node.Smooth (n : Node) (arrivals : τ → Arrival) (w : World) (a : Address) (hs : List (Happening τ)) : Prop :=
  ∀ earlier t, earlier ++ [.step t] <+: hs → Address.parse (arrivals t).delivery.message.body.sender = .ok a →
    (arrivals t).scope.isCancelled (n.traffic arrivals w earlier).world.timeline.moment = false ∧
      (n.traffic arrivals w earlier).world.HasRoom

variable {n : Node} {arrivals : τ → Arrival} {w : World} {a : Address} {hs : List (Happening τ)} {store : Store} {clock : Int64}
  {channel : Channel Delivery}

private theorem Node.Smooth.of_prefix {hs₀ : List (Happening τ)} (h : n.Smooth arrivals w a hs) (hpre : hs₀ <+: hs) :
    n.Smooth arrivals w a hs₀ :=
  fun earlier t hstep => h earlier t (hstep.trans hpre)

/-- For the account, a smooth run and what concerns the account in it are alike. -/
private theorem Node.alike_traffic (hstorage : w.storage = .memory store clock) (hlink : w.link = some channel)
    (hsmooth : n.Smooth arrivals w a hs) :
    Traffic.Alike arrivals a (n.traffic arrivals w hs) (n.traffic arrivals w (hs.filter (Happening.concerns arrivals a))) := by
  induction hs using List.reverseRecOn with
  | nil =>
    have hstore : store.AgreeOn a store := ⟨rfl, fun _ => rfl⟩
    have halike : w.Alike a w := ⟨rfl, rfl, ⟨store, store, clock, hstorage, hstorage, hstore⟩, channel, channel, hlink, hlink,
      rfl, rfl, Nat.le_refl _⟩
    exact ⟨halike, fun _ _ => rfl, fun _ _ => rfl⟩
  | append_singleton hs happening ih =>
    have h := ih (hsmooth.of_prefix (List.prefix_append _ _))
    have hcalls : ∀ t call begun, (n.traffic arrivals w hs).stage t = .asking call begun →
        ∃ b, Address.parse (arrivals t).delivery.message.body.sender = .ok b ∧ call.IsFor b :=
      fun t call begun hstage => (Traffic.story_of_asking hstage).isFor
    rw [n.traffic_concat, List.filter_append]
    cases hconcerns : happening.concerns arrivals a with
    | true =>
      rw [List.filter_cons_of_pos hconcerns, List.filter_nil, n.traffic_concat]
      refine h.move hcalls hconcerns ?_
      rintro t rfl
      exact hsmooth hs t (List.prefix_refl _) (Happening.concerns_step.1 hconcerns)
    | false =>
      rw [List.filter_cons_of_neg (by simp [hconcerns]), List.filter_nil, List.append_nil]
      exact h.skip hcalls hconcerns

/-- Exchanges take no time. -/
private theorem Node.timeline_traffic (hstorage : w.storage = .memory store clock) (hlink : w.link = some channel)
    (htime : ∀ change, Happening.time change ∉ hs) : (n.traffic arrivals w hs).world.timeline = w.timeline := by
  induction hs using List.reverseRecOn with
  | nil => rfl
  | append_singleton hs h ih =>
    have hsame := ih fun change hmem => htime change (List.mem_append_left _ hmem)
    obtain ⟨⟨now, hmemory⟩, c, hc, -⟩ := Traffic.ordered_traffic n arrivals hstorage hlink hs
    rw [n.traffic_concat]
    cases h with
    | allow b => exact hsame
    | remove b => exact hsame
    | time change => exact absurd (List.mem_append_right hs (List.mem_singleton.2 rfl)) (htime change)
    | clock now' =>
      simp only [Traffic.move, hmemory]
      exact hsame
    | purge =>
      simp only [Traffic.move, hmemory]
      exact hsame
    | receive =>
      simp only [Traffic.move, hc]
      exact hsame
    | step t =>
      rcases Traffic.world_move_step n arrivals (n.traffic arrivals w hs) t with hworld | ⟨call, begun, -, hworld⟩
      · rw [hworld]
        exact hsame
      · rw [hworld]
        exact (World.polled hmemory hc _ begun call).timeline_eq.trans hsame

/-- A run is smooth if no time passes in it, and the channel has room for as many messages as the run has happenings. -/
private theorem Node.smooth_of_room (hstorage : w.storage = .memory store clock) (hlink : w.link = some channel)
    (hopen : channel.isOpen = true) (hroom : channel.queue.length + hs.length ≤ channel.capacity)
    (htime : ∀ change, Happening.time change ∉ hs)
    (hcalm : ∀ t, (arrivals t).scope.isCancelled w.timeline.moment = false) : n.Smooth arrivals w a hs := by
  intro earlier t hpre _
  have htimeline : (n.traffic arrivals w earlier).world.timeline = w.timeline :=
    timeline_traffic hstorage hlink fun change hmem => htime change (hpre.subset (List.mem_append_left _ hmem))
  refine ⟨htimeline ▸ hcalm t, ?_⟩
  obtain ⟨-, c, hc, hcapacity, hopen', hqueue⟩ := Traffic.ordered_traffic n arrivals hstorage hlink earlier
  refine ⟨c, hc, hopen'.trans hopen, ?_⟩
  have hentered : (n.traffic arrivals w earlier).entered.length ≤ (n.traffic arrivals w earlier).log.length :=
    List.length_filterMap_le _ _
  have hlog := n.length_log_le arrivals w earlier
  have hlength := congrArg List.length hqueue
  have hsteps := hpre.length_le
  simp only [List.length_append, List.length_map, List.length_singleton] at hlength hsteps
  omega

end Runs

/-- An account does not notice the others. In a run in which its own messages are not cancelled and find room in the channel,
the allowlist, the purges, the clock and the receiver may do anything, and so may any messages of other senders. Leave out
all of these messages, and all changes of the allowlist for other accounts. Then every message of the account gets the same
answer, or none if it got none, and the store shows the account the same at each of its slots, at every point of the run. -/
theorem Node.traffic_isolated {τ : Type} [DecidableEq τ] (n : Node) (arrivals : τ → Arrival) (w : World) (store : Store)
    (clock : Int64) (channel : Channel Delivery) (a : Address) (hs : List (Happening τ))
    (hsmooth : n.Smooth arrivals { w with storage := .memory store clock, link := some channel } a hs) :
    let start : World := { w with storage := .memory store clock, link := some channel }
    ∀ earlier, earlier <+: hs →
      let full := n.traffic arrivals start earlier
      let own := n.traffic arrivals start (earlier.filter (Happening.concerns arrivals a))
      (∀ t, Address.parse (arrivals t).delivery.message.body.sender = .ok a →
        full.stage t = own.stage t ∧ full.sentBy t = own.sentBy t ∧ (full.sentBy t).length ≤ 1) ∧
      ∃ fullStore ownStore now, full.world.storage = .memory fullStore now ∧ own.world.storage = .memory ownStore now ∧
        ∀ slot, fullStore.get? now ⟨a, slot⟩ = ownStore.get? now ⟨a, slot⟩ := by
  intro start earlier hpre full own
  have h : Traffic.Alike arrivals a full own := alike_traffic (w := start) rfl rfl (hsmooth.of_prefix hpre)
  obtain ⟨fullStore, ownStore, now, hfull, hown, hagree⟩ := h.world.storage
  refine ⟨fun t ht => ⟨h.stage t ht, h.sent t ht, Traffic.length_sentBy_le_one n arrivals start earlier t⟩, ?_⟩
  exact ⟨fullStore, ownStore, now, hfull, hown, fun slot => hagree.get?_eq now slot⟩

namespace Traffic.Sample

open SecretsGateway.Sample (node)

/-- The secret that the account five asks to keep. -/
def write : SecretWrite := SetRequest.Sample.request.toWrite .five

def request : Delivery := ⟨"gateway", ⟨"", SetRequest.Sample.body.withPayload SetRequest.Sample.request.toJson⟩⟩

/-- The account five asks to keep its secret, and the account zero for the list of its own. -/
def arrivals : Bool → Arrival
  | true => ⟨request, ⟨0, none⟩⟩
  | false => ⟨⟨"gateway", ⟨"", ⟨"m-2", "secrets_list", "don-1", Address.zero.toHex, none⟩⟩⟩, ⟨1, none⟩⟩

/-- The account five is in the allowlist, the store is empty, and the channel has room for nine messages. -/
def world : World :=
  { station := { allowlist := .ofList [.five] }, storage := .memory (.fresh .standard) 0
    link := some { capacity := 9 } }

/-- Both messages are handled at the same time, and the account zero gets into the allowlist meanwhile. -/
def run : List (Happening Bool) :=
  [.step true, .allow .zero, .step false, .step true, .step false, .step true, .step false, .step true, .step false]

private def digest : Bytes :=
  [192, 70, 102, 21, 158, 134, 111, 221, 139, 120, 106, 48, 66, 57, 20, 67, 215, 157, 177, 140, 132, 243, 196, 243, 223, 98,
   151, 43, 16, 129, 45, 205]

/-- The signature of the answer to the account five. -/
def signature : Signature :=
  ⟨56433798326477620024199744254773532482752806403071758680474797971816464634708,
   7678313555865505555063007713805258787815721236036723338530807871556047242186, 1⟩

/-- The answer to the account five: its secret is kept. -/
def answer : Message :=
  ⟨Hex.marked signature.toBytes,
   { request.message.body with sender := Address.five.toHex }.withPayload (Response.ofWritten (.ok ())).toJson⟩

private theorem decode_request :
    Method.set.decode request.message.body.payloadBytes = .ok (.set SetRequest.Sample.request) := by
  rw [request, SetRequest.Sample.body]
  generalize SetRequest.Sample.request = r
  exact r.decode_write

private theorem reply_request : node.reply request.message.body (.ofWritten (.ok ())) = .ok answer := by
  have hsig : (node.key.signDigest digest).toOption = some signature := by decide +kernel
  obtain ⟨data, hdata, -, hsign, -⟩ :=
    MessageBody.exists_signed (b := answer.body) (by decide +kernel) hsig (by decide) (by decide +kernel)
  have haddress : node.address = .five := SigningKey.address_five
  rw [Node.reply, haddress]
  exact Message.sign_of_ok hdata hsign

private theorem put_write : (Store.fresh .standard).put 0 write = .ok ((Store.fresh .standard).insert write) :=
  Store.put_eq_ok_iff.2 ⟨rfl, SetRequest.Sample.isAuthorised_request, nofun, rfl⟩

/-- The world when the secret is kept. -/
private def kept : World := { world with storage := .memory ((Store.fresh .standard).insert write) 0 }

private theorem after_receive : Stage.after (Node.receive request) = .asking (.allow .five) false :=
  Stage.after_of_some (Node.next_receive_of_ok (Address.parse_toHex .five))

private theorem after_allow (v : View) :
    Stage.after (node.resume request v (.allow .five) (some true)) = .asking (.put write) false := by
  have hname : Method.ofName? request.message.body.method = some .set := rfl
  exact Stage.after_of_some (Node.next_serve_of_set hname decode_request)

private theorem after_put :
    Stage.after (node.resume request ⟨false, true⟩ (.put write) (some (.ok ()))) =
      .asking (.send ⟨"gateway", answer⟩) false := by
  have hout : node.outgoing request.message.body (.ofWritten (.ok ())) ⟨false, true⟩ = .ok answer := by
    rw [Node.outgoing_of_reply rfl reply_request]
    rfl
  have hnext : (node.answer request (.ofWritten (.ok ())) ⟨false, true⟩).next = some (.send ⟨"gateway", answer⟩) :=
    Node.next_answer_of_ok hout
  exact Stage.after_of_some hnext

/-- Left to itself, the account five is admitted, its secret is kept, and it is told so. -/
private theorem run_alone :
    let own := node.traffic arrivals world [.step true, .step true, .step true, .step true]
    own.sentBy true = [⟨"gateway", answer⟩] ∧ own.world.storage = .memory ((Store.fresh .standard).insert write) 0 := by
  let out : Delivery := ⟨"gateway", answer⟩
  have harrival : arrivals true = ⟨request, ⟨0, none⟩⟩ := rfl
  -- four steps: the message is received, admitted, taken to the store, and answered
  let s₁ : Traffic Bool := { world, stage := Function.update (fun _ => .arrived) true (.asking (.allow .five) false) }
  have hreceived : Traffic.move node arrivals { world } (.step true) = s₁ := by
    rw [move_step_of_arrived node arrivals rfl, harrival, after_receive]
  let s₂ : Traffic Bool := { s₁ with
    stage := Function.update s₁.stage true (.asking (.put write) false)
    log := [.look true ⟨.allow .five, true, world, world, some true⟩] }
  have hadmitted : s₁.move node arrivals (.step true) = s₂ := by
    have hstage : s₁.stage true = .asking (.allow .five) false := rfl
    have hallow : s₁.world.poll (arrivals true).scope.root false (.allow .five) = (world, ⟨[], some true⟩) := rfl
    rw [move_step_of_some node arrivals hstage rfl hallow, harrival, after_allow]
    rfl
  let s₃ : Traffic Bool := { s₂ with
    world := kept
    stage := Function.update s₂.stage true (.asking (.send out) false)
    log := s₂.log ++ [.look true ⟨.put write, true, world, kept, some (.ok ())⟩] }
  have hkept : s₂.move node arrivals (.step true) = s₃ := by
    have hstage : s₂.stage true = .asking (.put write) false := rfl
    have hput : s₂.world.poll (arrivals true).scope.root false (.put write) = (kept, ⟨[write.event], some (.ok ())⟩) :=
      World.poll_put_of_ok rfl put_write _ false
    have hview : (World.collaborators ⟨0, none⟩).view kept = ⟨false, true⟩ := rfl
    rw [move_step_of_some node arrivals hstage rfl hput, harrival, hview, after_put]
    rfl
  have hstage : s₃.stage true = .asking (.send out) false := rfl
  obtain ⟨w, hp, hw⟩ : ∃ w, s₃.world.poll (arrivals true).scope.root false (.send out) = (w, ⟨[], some (.ok ())⟩) ∧
      w.storage = kept.storage := ⟨_, rfl, rfl⟩
  have hsent := move_step_of_some node arrivals hstage rfl hp
  rw [Node.traffic, List.foldl_cons, List.foldl_cons, List.foldl_cons, List.foldl_cons, List.foldl_nil, hreceived, hadmitted,
    hkept, hsent]
  exact ⟨rfl, hw⟩

/-- The account five gets the same answer when both messages are handled at the same time, and its secret is kept in both
runs. -/
theorem isolated_run : node.Smooth arrivals world .five run ∧
    (node.traffic arrivals world run).sentBy true = [⟨"gateway", answer⟩] ∧
    ∃ store now, (node.traffic arrivals world run).world.storage = .memory store now ∧
      store.get? now ⟨.five, 9⟩ = some write := by
  have hcalm : ∀ t, (arrivals t).scope.isCancelled world.timeline.moment = false := fun t => by cases t <;> rfl
  have hsmooth : node.Smooth arrivals world .five run :=
    Node.smooth_of_room rfl rfl rfl (Nat.le_refl 9) (by simp [run]) hcalm
  have hfive : Address.parse (arrivals true).delivery.message.body.sender = .ok .five := Address.parse_toHex .five
  have hzero : Address.parse (arrivals false).delivery.message.body.sender = .ok .zero := Address.parse_toHex .zero
  have hown : run.filter (Happening.concerns arrivals .five) = [.step true, .step true, .step true, .step true] := by
    have hother : Address.zero ≠ .five := by decide
    simp [run, Happening.concerns, hzero, hfive, hother, Except.toOption]
  have hisolated := node.traffic_isolated arrivals world _ _ _ .five run hsmooth run (List.prefix_refl _)
  obtain ⟨hsame, store, ownStore, now, hstore, hownStore, hshown⟩ := hisolated
  rw [hown] at hsame hownStore
  obtain ⟨hsent, hkept⟩ := run_alone
  cases hkept.symm.trans hownStore
  refine ⟨hsmooth, (hsame true hfive).2.1.trans hsent, store, 0, hstore, (hshown 9).trans ?_⟩
  exact Store.get?_of_put put_write

end Traffic.Sample

end SecretsGateway
