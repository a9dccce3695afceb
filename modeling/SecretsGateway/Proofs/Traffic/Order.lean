import Mathlib.Data.List.Nodup
import SecretsGateway.Proofs.Exchange.Answers
import SecretsGateway.Proofs.Traffic.Run
import SecretsGateway.Proofs.World

/-!
# Messages that are handled together are handled in an order

However the steps of many exchanges are mixed, the store is used by one after the other. So in the end it is as if only the
uses had been made, in their order, and every answer tells what its own use has found there. The channel is a queue between
everybody who sends and the one receiver. Both are invariants of traffic (`Traffic.Ordered`); what concerns a single message
is read off the course of its exchange, and the two are put together in `Node.traffic_linearizable`.
-/

namespace SecretsGateway

variable {τ : Type} [DecidableEq τ]

/-- The response that a use of a store makes. -/
def Store.respond? (s : Store) (u : Use) : Option Response :=
  match u.access with
  | .list owner => some (.ofRows (.ok (s.list u.now owner)))
  | .put w => some (.ofWritten ((s.put u.now w).map fun _ => ()))
  | _ => none

section Looks

variable {store : Store} {now : Int64} {look : Look World} {u : Use}

private theorem Look.use?_of_list {owner : Address} (h : look.before.storage = .memory store now)
    (hcall : look.call = .list owner) : look.use? = some ⟨now, .list owner⟩ := by
  unfold use?
  rw [hcall, h]

private theorem Look.use?_of_put {w : SecretWrite} (h : look.before.storage = .memory store now) (hcall : look.call = .put w) :
    look.use? = some ⟨now, .put w⟩ := by
  unfold use?
  rw [hcall, h]

omit [DecidableEq τ] in
private theorem Record.use?_look {t : τ} (h : look.use? = some u) : (Record.look t look).use? = some (some t, u) := by
  rw [use?, h, Option.map_some]

private theorem Look.isStoring_of_use? (h : look.use?.isSome = true) : look.call.isStoring = true := by
  unfold use? at h
  split at h
  · next hcall _ => rw [hcall, Call.isStoring]
  · next hcall _ => rw [hcall, Call.isStoring]
  · cases h

private theorem Look.told_of_entered? {σ : Type} {look : Look σ} (h : look.entered?.isSome = true) :
    (look.told?.map fun u => u.call.sent?.isSome).getD false = true := by
  obtain ⟨out, hout⟩ := Option.isSome_iff_exists.1 h
  rw [Look.eq_of_entered? hout]
  rfl

private theorem World.Polled.isSome_answer {w w' : World} {channel : Channel Delivery} {call : Call}
    {answer : Option call.Answer}
    (h : Polled w store now channel call w' answer) (hcall : call.isStoring = true) : answer.isSome = true := by
  cases h with
  | list owner => rfl
  | put write => rfl
  | _ => cases hcall

end Looks

namespace Traffic

/-- The store is as after the uses in the log, and what has been handed to the channel is received or still there. -/
structure Ordered (store : Store) (channel : Channel Delivery) (s : Traffic τ) : Prop where
  storage : ∃ now, s.world.storage = .memory (store.after (s.uses.map Prod.snd)) now
  link : ∃ c, s.world.link = some c ∧ c.capacity = channel.capacity ∧ c.isOpen = channel.isOpen ∧
    s.received ++ c.queue = channel.queue ++ s.entered.map Prod.snd

variable {n : Node} {arrivals : τ → Arrival} {s s' : Traffic τ} {store : Store} {channel : Channel Delivery} {t : τ}

omit [DecidableEq τ] in
private theorem uses_of_log {r : Record τ} (h : s'.log = s.log ++ [r]) : s'.uses = s.uses ++ r.use?.toList := by
  rw [uses, h, List.filterMap_append, uses]
  cases hr : r.use? <;> simp [hr]

omit [DecidableEq τ] in
private theorem entered_of_log {r : Record τ} (h : s'.log = s.log ++ [r]) : s'.entered = s.entered ++ r.entered?.toList := by
  rw [entered, h, List.filterMap_append, entered]
  cases hr : r.entered? <;> simp [hr]

omit [DecidableEq τ] in
private theorem Ordered.of_idle {r : Record τ} (h : Ordered store channel s) (hlog : s'.log = s.log ++ [r])
    (hworld : s'.world = s.world) (hreceived : s'.received = s.received) (huse : r.use? = none)
    (hentered : r.entered? = none) : Ordered store channel s' := by
  constructor
  · rw [uses_of_log hlog, huse, hworld, Option.toList_none, List.append_nil]
    exact h.storage
  · rw [entered_of_log hlog, hentered, hworld, hreceived, Option.toList_none, List.append_nil]
    exact h.link

omit [DecidableEq τ] in
private theorem Ordered.of_use {r : Record τ} {user : Option τ} {u : Use} (h : Ordered store channel s)
    (hlog : s'.log = s.log ++ [r]) (hlink : s'.world.link = s.world.link) (hreceived : s'.received = s.received)
    (huse : r.use? = some (user, u)) (hentered : r.entered? = none)
    (hstorage : ∃ now, s'.world.storage = .memory ((store.after (s.uses.map Prod.snd)).use u) now) :
    Ordered store channel s' := by
  constructor
  · rw [uses_of_log hlog, huse, Option.toList_some, List.map_append, List.map_singleton, Store.after_concat]
    exact hstorage
  · rw [entered_of_log hlog, hentered, hlink, hreceived, Option.toList_none, List.append_nil]
    exact h.link

omit [DecidableEq τ] in
/-- A look at a call leaves everything in order, with its use or its message behind the others. -/
private theorem Ordered.look (h : Ordered store channel s) (stage : τ → Stage) (root : Root) (begun : Bool)
    (call : Call) :
    let p := s.world.poll root begun call
    Ordered store channel { s with
      world := p.1
      stage
      log := s.log ++ [.look t ⟨call, !begun, s.world, p.1, p.2.answer⟩] } := by
  obtain ⟨now, hstorage⟩ := h.storage
  obtain ⟨c, hlink, hcapacity, hopen, hqueue⟩ := h.link
  have hpolled := World.polled hstorage hlink root begun call
  dsimp only
  generalize (s.world.poll root begun call).1 = w at hpolled ⊢
  generalize (s.world.poll root begun call).2.answer = answer at hpolled ⊢
  cases hpolled with
  | allow a => exact h.of_idle rfl rfl rfl rfl rfl
  | list owner =>
    exact h.of_use rfl rfl rfl (Record.use?_look (Look.use?_of_list hstorage rfl)) rfl ⟨now, hstorage⟩
  | put write => exact h.of_use rfl rfl rfl (Record.use?_look (Look.use?_of_put hstorage rfl)) rfl ⟨now, rfl⟩
  | @sent out c' hsend =>
    obtain ⟨hqueue', hcapacity', hopen'⟩ := Channel.eq_of_send hsend
    constructor
    · rw [uses_of_log rfl]
      simpa [Record.use?, Look.use?] using h.storage
    · refine ⟨c', rfl, hcapacity'.trans hcapacity, hopen'.trans hopen, ?_⟩
      rw [entered_of_log rfl, hqueue', ← List.append_assoc, hqueue]
      simp [Record.entered?, Look.entered?, Call.entered?]
  | full hsend => exact h.of_idle rfl rfl rfl rfl rfl
  | closed hsend => exact h.of_idle rfl rfl rfl rfl rfl

private theorem Ordered.move (h : Ordered store channel s) (happening : Happening τ) :
    Ordered store channel (s.move n arrivals happening) := by
  cases happening with
  | allow a => exact ⟨h.storage, h.link⟩
  | remove a => exact ⟨h.storage, h.link⟩
  | time change => exact ⟨h.storage, h.link⟩
  | clock now =>
    obtain ⟨⟨now', hstorage⟩, hlink⟩ := h
    unfold Traffic.move
    rw [hstorage]
    exact ⟨⟨now, rfl⟩, hlink⟩
  | purge =>
    obtain ⟨now, hstorage⟩ := h.storage
    unfold Traffic.move
    rw [hstorage]
    exact h.of_use rfl rfl rfl rfl rfl ⟨now, rfl⟩
  | receive =>
    obtain ⟨hstorage, c, hlink, hcapacity, hopen, hqueue⟩ := h
    unfold Traffic.move
    rw [hlink]
    refine ⟨hstorage, c.receive.2, rfl, hcapacity, hopen, ?_⟩
    rw [List.append_assoc, c.receive_append]
    exact hqueue
  | step t =>
    -- a step that does not look at a call leaves the store and the channel alone
    have hstep := step_move n arrivals s t
    generalize s.move n arrivals (.step t) = s' at hstep ⊢
    cases hstep with
    | received => exact ⟨h.storage, h.link⟩
    | ended => exact h
    | cancelled => exact ⟨h.storage, h.link⟩
    | @waited call begun w events _ _ hp =>
      have hlook := h.look (t := t) (Function.update s.stage t (.asking call true)) (arrivals t).scope.root begun call
      rw [hp] at hlook
      exact hlook
    | @answered call begun w events a _ _ hp =>
      have hlook := h.look (t := t) (Function.update s.stage t
        (.after (n.resume (arrivals t).delivery ((World.collaborators (arrivals t).scope).view w) call (some a))))
        (arrivals t).scope.root begun call
      rw [hp] at hlook
      exact hlook

/-- Traffic is in order from the start. -/
theorem ordered_traffic (n : Node) (arrivals : τ → Arrival) {w : World} {clock : Int64}
    (hstorage : w.storage = .memory store clock) (hlink : w.link = some channel) (hs : List (Happening τ)) :
    Ordered store channel (n.traffic arrivals w hs) := by
  induction hs using List.reverseRecOn with
  | nil =>
    have hqueue : [] ++ channel.queue = channel.queue ++ [] := by rw [List.nil_append, List.append_nil]
    exact ⟨⟨clock, hstorage⟩, channel, hlink, rfl, rfl, hqueue⟩
  | append_singleton hs h ih =>
    rw [n.traffic_concat]
    exact ih.move h

end Traffic

section Stories

variable {σ : Type} {n : Node} {parts : Collaborators σ} {d : Delivery} {t u : List (Told σ)} {next : Option Call}

private theorem Story.length_sent_le_one (h : Story n parts d t next) :
    ((t.map Told.call).filterMap Call.sent?).length ≤ 1 := by
  cases h with
  | invalid => exact Nat.zero_le 1
  | admission => exact Nat.zero_le 1
  | notAllowed => exact Nat.zero_le 1
  | unsupported => exact Nat.zero_le 1
  | listing => exact Nat.zero_le 1
  | writing => exact Nat.zero_le 1
  | unsent hsettled =>
    rw [hsettled.filterMap_sent?]
    exact Nat.zero_le 1
  | sending hsettled =>
    rw [hsettled.filterMap_sent?]
    exact Nat.zero_le 1
  | sent hsettled =>
    rw [List.map_append, List.filterMap_append, hsettled.filterMap_sent?]
    exact Nat.le_refl 1

/-- When a response is settled, the storage is not called any more. -/
private theorem Settled.storings_eq {r : Response} {s : σ} (h : Settled d t r s) (hpre : t <+: u)
    (hstory : Story n parts d u next) :
    (u.map Told.call).filter Call.isStoring = (t.map Told.call).filter Call.isStoring := by
  have hall := hstory.stored
  rw [List.filter_append] at hall
  rcases h.stored hpre with ⟨call, hasks, hone⟩ | ⟨hnone, hnil⟩
  · rcases hall with ⟨call', -, hone'⟩ | ⟨hnone', -⟩
    · have hlength := congrArg List.length hone'
      rw [List.length_append, List.length_singleton] at hlength
      refine (((hpre.map Told.call).filter Call.isStoring).eq_of_length_le ?_).symm
      rw [hone, List.length_singleton]
      omega
    · exact absurd hasks (hnone' call)
  · rcases hall with ⟨call', hasks', -⟩ | ⟨-, hnil'⟩
    · exact absurd hasks' (hnone call')
    · rw [hnil, (List.append_eq_nil_iff.1 hnil').1]

end Stories

namespace Traffic

section Counts

variable (s : Traffic τ) (t : τ)

/-- A ticket stands before as many messages as its exchange has handed over. -/
private theorem count_entered : (s.entered.map Prod.fst).count t = (s.sentBy t).length := by
  rw [List.count_eq_countP, List.countP_map, entered, List.countP_filterMap, sentBy, looksOf, List.filterMap_filterMap,
    List.length_filterMap_eq_countP]
  refine List.countP_congr fun r _ => ?_
  cases r with
  | purge now => rfl
  | look t' seen =>
    by_cases ht : t' = t
    · cases hentered : seen.entered? <;> simp [Record.entered?, Record.of?, ht, hentered]
    · cases hentered : seen.entered? <;> simp [Record.entered?, Record.of?, ht, hentered]

/-- A ticket stands before as many uses of the store as its exchange has made. -/
private theorem countP_uses :
    s.uses.countP (fun use => use.1 = some t) = (s.looksOf t).countP (fun look => look.use?.isSome) := by
  rw [uses, List.countP_filterMap, looksOf, List.countP_filterMap]
  refine List.countP_congr fun r _ => ?_
  cases r with
  | purge now => rfl
  | look t' seen =>
    by_cases ht : t' = t
    · cases huse : seen.use? <;> simp [Record.use?, Record.of?, ht, huse]
    · cases huse : seen.use? <;> simp [Record.use?, Record.of?, ht, huse]

end Counts

section Ticket

variable {n : Node} {arrivals : τ → Arrival} {w : World} {store : Store} {clock : Int64} {channel : Channel Delivery}
  {hs : List (Happening τ)} {t : τ} {seen : Look World} (hstorage : w.storage = .memory store clock)
  (hlink : w.link = some channel)

include hstorage hlink

/-- A look was taken at the store as the uses before it have left it. -/
private theorem polled_of_mem_looksOf (h : seen ∈ (n.traffic arrivals w hs).looksOf t) :
    ∃ earlier later now c, (n.traffic arrivals w hs).log = earlier ++ .look t seen :: later ∧
      seen.before.storage = .memory (store.after ((earlier.filterMap Record.use?).map Prod.snd)) now ∧
      World.Polled seen.before (store.after ((earlier.filterMap Record.use?).map Prod.snd)) now c seen.call seen.after
        seen.answer := by
  obtain ⟨hs₀, later, begun, events, -, hlog, -, hworld, hp⟩ := n.exists_of_mem_looksOf arrivals w h
  obtain ⟨⟨now, hbefore⟩, c, hc, -⟩ := ordered_traffic n arrivals hstorage hlink hs₀
  rw [hworld] at hbefore hc
  have hpolled := World.polled hbefore hc (arrivals t).scope.root begun seen.call
  rw [hp] at hpolled
  exact ⟨_, later, now, c, hlog, hbefore, hpolled⟩

private theorem told_of_use (h : seen ∈ (n.traffic arrivals w hs).looksOf t) (huse : seen.use?.isSome = true) :
    (seen.told?.map fun u => u.call.isStoring).getD false = true := by
  obtain ⟨_, _, _, _, _, _, hpolled⟩ := polled_of_mem_looksOf hstorage hlink h
  have hstoring := Look.isStoring_of_use? huse
  obtain ⟨a, ha⟩ := Option.isSome_iff_exists.1 (hpolled.isSome_answer hstoring)
  simp [Look.told?, ha, hstoring]

/-- A ticket uses the store only in a story that comes to it. -/
private theorem countP_uses_le : (n.traffic arrivals w hs).uses.countP (fun use => use.1 = some t) ≤
    (((n.traffic arrivals w hs).toldTo t).map Told.call).countP Call.isStoring := by
  rw [countP_uses, List.countP_map, toldTo, List.countP_filterMap]
  exact List.countP_mono_left fun seen hseen huse => told_of_use hstorage hlink hseen huse

private theorem list_of_told {owner : Address} {rows : Except StorageError (List SecretRow)} {w' : World}
    (h : ⟨.list owner, rows, w'⟩ ∈ (n.traffic arrivals w hs).toldTo t) :
    ∃ earlier now later, (n.traffic arrivals w hs).uses = earlier ++ (some t, ⟨now, .list owner⟩) :: later ∧
      rows = .ok ((store.after (earlier.map Prod.snd)).list now owner) := by
  obtain ⟨seen, hseen, htold⟩ := List.mem_filterMap.1 h
  obtain ⟨earlier, later, now, c, hlog, hbefore, hpolled⟩ := polled_of_mem_looksOf hstorage hlink hseen
  have huse : seen.use? = some ⟨now, .list owner⟩ := by
    rw [Look.eq_of_told? htold] at hbefore ⊢
    exact Look.use?_of_list hbefore rfl
  refine ⟨earlier.filterMap Record.use?, now, later.filterMap Record.use?, ?_, ?_⟩
  · rw [uses, hlog, List.filterMap_append, List.filterMap_cons_some (Record.use?_look huse)]
  · rw [Look.eq_of_told? htold] at hpolled
    exact Option.some.inj hpolled.of_list.2

private theorem put_of_told {write : SecretWrite} {result : Except StorageError Unit} {w' : World}
    (h : ⟨.put write, result, w'⟩ ∈ (n.traffic arrivals w hs).toldTo t) :
    ∃ earlier now later, (n.traffic arrivals w hs).uses = earlier ++ (some t, ⟨now, .put write⟩) :: later ∧
      result = ((store.after (earlier.map Prod.snd)).put now write).map fun _ => () := by
  obtain ⟨seen, hseen, htold⟩ := List.mem_filterMap.1 h
  obtain ⟨earlier, later, now, c, hlog, hbefore, hpolled⟩ := polled_of_mem_looksOf hstorage hlink hseen
  have huse : seen.use? = some ⟨now, .put write⟩ := by
    rw [Look.eq_of_told? htold] at hbefore ⊢
    exact Look.use?_of_put hbefore rfl
  refine ⟨earlier.filterMap Record.use?, now, later.filterMap Record.use?, ?_, ?_⟩
  · rw [uses, hlog, List.filterMap_append, List.filterMap_cons_some (Record.use?_look huse)]
  · rw [Look.eq_of_told? htold] at hpolled
    exact Option.some.inj hpolled.of_put.2

end Ticket

/-- Whoever has been told whether its sender may use the node was told what the allowlist said at that step. -/
private theorem allow_of_told {n : Node} {arrivals : τ → Arrival} {w w' : World} {hs : List (Happening τ)} {t : τ} {a : Address}
    {allowed : Bool} (h : ⟨.allow a, allowed, w'⟩ ∈ (n.traffic arrivals w hs).toldTo t) :
    ∃ hs₀ begun, hs₀ ++ [.step t] <+: hs ∧ (n.traffic arrivals w hs₀).stage t = .asking (.allow a) begun ∧
      allowed = (n.traffic arrivals w hs₀).world.station.allowlist.allows a := by
  obtain ⟨seen, hseen, htold⟩ := List.mem_filterMap.1 h
  obtain ⟨hs₀, -, begun, events, hpre, -, hstage, hworld, hp⟩ := n.exists_of_mem_looksOf arrivals w hseen
  rw [Look.eq_of_told? htold] at hstage hp
  have hanswer : some (seen.before.station.allowlist.allows a) = some allowed := congrArg (fun p => p.2.answer) hp
  refine ⟨hs₀, begun, hpre, hstage, ?_⟩
  rw [hworld]
  exact (Option.some.inj hanswer).symm

end Traffic

/-! ### All messages together -/

namespace Delivery

/-- What a message asks of a store on behalf of its sender. -/
inductive Wants (d : Delivery) (a : Address) : Access → Prop
  | list : Method.ofName? d.message.body.method = some .list → d.Wants a (.list a)
  | put {r : SetRequest} : Method.ofName? d.message.body.method = some .set →
      Method.set.decode d.message.body.payloadBytes = .ok (.set r) → d.Wants a (.put (r.toWrite a))

/-- The response to the message of a ticket when a store is used again and again: that of its one use, at the store as the
uses before it have left it. A payload that does not fit is refused, and the store is not used. -/
inductive Responds {τ : Type} (d : Delivery) (a : Address) (store : Store) (uses : List (Option τ × Use)) (t : τ) :
    Response → Prop
  | refused {method : Method} {e : RequestError} : Method.ofName? d.message.body.method = some method →
      method.decode d.message.body.payloadBytes = .error e → (∀ use ∈ uses, use.1 ≠ some t) →
      Responds d a store uses t (.badRequest method e)
  | used {earlier later : List (Option τ × Use)} {u : Use} {r : Response} : uses = earlier ++ (some t, u) :: later →
      (∀ use ∈ earlier ++ later, use.1 ≠ some t) → d.Wants a u.access →
      (store.after (earlier.map Prod.snd)).respond? u = some r → Responds d a store uses t r

end Delivery

private theorem ne_of_countP_le_one {uses earlier later : List (Option τ × Use)} {t : τ} {u : Use}
    (huses : uses = earlier ++ (some t, u) :: later) (hone : uses.countP (fun use => use.1 = some t) ≤ 1) :
    ∀ use ∈ earlier ++ later, use.1 ≠ some t := by
  rw [huses, List.countP_append, List.countP_cons_of_pos (by simp)] at hone
  have hnone : (earlier ++ later).countP (fun use => use.1 = some t) = 0 := by
    rw [List.countP_append]
    omega
  intro use hmem heq
  exact List.countP_eq_zero.1 hnone use hmem (decide_eq_true heq)

namespace Traffic

variable {n : Node} {arrivals : τ → Arrival} {w : World} {store : Store} {clock : Int64} {channel : Channel Delivery}
  {hs : List (Happening τ)} {t : τ}

/-- A response that has been settled for a ticket is that of its own use of the store. -/
private theorem responds_of_settled (hstorage : w.storage = .memory store clock) (hlink : w.link = some channel)
    {told : List (Told World)} {r : Response} {s : World} (h : Settled (arrivals t).delivery told r s)
    (hpre : told <+: (n.traffic arrivals w hs).toldTo t) {parts : Collaborators World} {next : Option Call}
    (hstory : Story n parts (arrivals t).delivery ((n.traffic arrivals w hs).toldTo t) next) :
    ∃ a, Address.parse (arrivals t).delivery.message.body.sender = .ok a ∧
      (arrivals t).delivery.Responds a store (n.traffic arrivals w hs).uses t r := by
  have hcount : (n.traffic arrivals w hs).uses.countP (fun use => use.1 = some t) ≤
      (((n.traffic arrivals w hs).toldTo t).map Told.call).countP Call.isStoring := countP_uses_le hstorage hlink
  rw [List.countP_eq_length_filter (p := Call.isStoring), h.storings_eq hpre hstory] at hcount
  cases h with
  | @refused a _ _ _ ha hname hdecode =>
    have hnone := List.countP_eq_zero.1 (Nat.le_zero.1 hcount)
    exact ⟨a, ha, .refused hname hdecode fun use hmem heq => hnone use hmem (decide_eq_true heq)⟩
  | @listed a rows s₀ s ha hname =>
    have hmem : ⟨.list a, rows, s⟩ ∈ (n.traffic arrivals w hs).toldTo t := hpre.subset (by simp)
    obtain ⟨earlier, now, later, huses, hrows⟩ := list_of_told hstorage hlink hmem
    refine ⟨a, ha, .used huses (ne_of_countP_le_one huses hcount) (.list hname) ?_⟩
    rw [hrows]
    rfl
  | @written a request result s₀ s ha hname hdecode =>
    have hmem : ⟨.put (request.toWrite a), result, s⟩ ∈ (n.traffic arrivals w hs).toldTo t := hpre.subset (by simp)
    obtain ⟨earlier, now, later, huses, hresult⟩ := put_of_told hstorage hlink hmem
    refine ⟨a, ha, .used huses (ne_of_countP_le_one huses hcount) (.put hname hdecode) ?_⟩
    rw [hresult]
    rfl

private theorem mem_looksOf_of_entered {s : Traffic τ} {out : Delivery} (h : (t, out) ∈ s.entered) :
    ∃ seen ∈ s.looksOf t, seen.call = .send out := by
  obtain ⟨r, hr, hentered⟩ := List.mem_filterMap.1 h
  cases r with
  | purge now => cases hentered
  | look t' seen =>
    obtain ⟨out', hout, heq⟩ := Option.map_eq_some_iff.1 hentered
    cases heq
    exact ⟨seen, List.mem_filterMap.2 ⟨_, hr, if_pos rfl⟩, congrArg Look.call (Look.eq_of_entered? hout)⟩

/-- A ticket hands over at most one message. -/
theorem length_sentBy_le_one (n : Node) (arrivals : τ → Arrival) (w : World) (hs : List (Happening τ)) (t : τ) :
    ((n.traffic arrivals w hs).sentBy t).length ≤ 1 := by
  rcases exists_story n arrivals w t hs with hlooks | ⟨next, hstory⟩
  · rw [sentBy, hlooks]
    exact Nat.zero_le 1
  · refine Nat.le_trans ?_ hstory.length_sent_le_one
    rw [sentBy, List.length_filterMap_eq_countP, List.length_filterMap_eq_countP, List.countP_map, toldTo, List.countP_filterMap]
    exact List.countP_mono_left fun seen _ hentered => Look.told_of_entered? hentered

/-- What a ticket hands over is the signed answer of the node with a response that has been settled. -/
private theorem settled_of_entered {out : Delivery} (h : (t, out) ∈ (n.traffic arrivals w hs).entered) :
    ∃ told r s, told <+: (n.traffic arrivals w hs).toldTo t ∧ Settled (arrivals t).delivery told r s ∧
      out.gateway = (arrivals t).delivery.gateway ∧ n.reply (arrivals t).delivery.message.body r = .ok out.message := by
  obtain ⟨seen, hseen, hcall⟩ := mem_looksOf_of_entered h
  obtain ⟨moves, events, hreached⟩ := isCourse_traffic n arrivals w t hs
  obtain ⟨told, hpre, hstory⟩ := hreached.story_of_mem_looks hseen
  rw [hcall] at hstory
  cases hstory with
  | sending hsettled hout => exact ⟨told, _, _, hpre, hsettled, rfl, (Node.reply_of_outgoing hout).1⟩

end Traffic

/-- Any number of messages that are handled at the same time by one node with a store and a channel, whatever the order of
their steps and whatever happens in between. The store is in the end as if its uses had been made one at a time, in the order
in which they happened. Whatever has been handed to the channel answers the message of its ticket, to the gateway that this
came from and with its ids and its method; the sender of the message was in the allowlist at the step at which its exchange
asked for that, and the payload is the response that its own use of the store gets when the uses are made one at a time. No
ticket is answered twice. What the receiver has taken, and what waits for it, is what has been handed over, in this order,
and no more of it waits than there is room for. -/
theorem Node.traffic_linearizable (n : Node) (arrivals : τ → Arrival) (w : World) (store : Store) (clock : Int64)
    (channel : Channel Delivery) (hs : List (Happening τ)) :
    let start : World := { w with storage := .memory store clock, link := some channel }
    let s := n.traffic arrivals start hs
    (∃ now, s.world.storage = .memory (store.after (s.uses.map Prod.snd)) now) ∧
    (∀ t out, (t, out) ∈ s.entered →
      let d := (arrivals t).delivery
      (out.gateway = d.gateway ∧ out.message.body.messageId = d.message.body.messageId ∧
        out.message.body.donId = d.message.body.donId ∧ out.message.body.method = d.message.body.method) ∧
      ∃ a r, Address.parse d.message.body.sender = .ok a ∧
        (∃ hs₀ begun, hs₀ ++ [.step t] <+: hs ∧ (n.traffic arrivals start hs₀).stage t = .asking (.allow a) begun ∧
          (n.traffic arrivals start hs₀).world.station.allowlist.allows a = true) ∧
        d.Responds a store s.uses t r ∧ out.message.body.payload = some r.toJson.write) ∧
    (s.entered.map Prod.fst).Nodup ∧
    ∃ c, s.world.link = some c ∧ c.capacity = channel.capacity ∧ c.queue.length ≤ channel.capacity ∧
      s.received ++ c.queue = channel.queue ++ s.entered.map Prod.snd := by
  intro start s
  obtain ⟨hstore, c, hlink, hcapacity, -, hqueue⟩ := Traffic.ordered_traffic n arrivals (w := start) rfl rfl hs
  refine ⟨hstore, ?_, ?_, c, hlink, hcapacity, hcapacity ▸ c.length_queue_le, hqueue⟩
  · intro t out hentered d
    obtain ⟨told, r, s', hpre, hsettled, hgateway, hreply⟩ := Traffic.settled_of_entered hentered
    obtain ⟨⟨hid, hdon, hmethod⟩, -, hpayload⟩ := fields_of_reply hreply
    obtain ⟨next, hstory⟩ : ∃ next, Story n (World.collaborators (arrivals t).scope) d (s.toldTo t) next := by
      refine (Traffic.exists_story n arrivals start t hs).resolve_left fun hlooks => ?_
      obtain ⟨seen, hseen, -⟩ := Traffic.mem_looksOf_of_entered hentered
      rw [hlooks] at hseen
      cases hseen
    obtain ⟨a, ha, hresponds⟩ := Traffic.responds_of_settled rfl rfl hsettled hpre hstory
    obtain ⟨a', ha', w', hadmitted⟩ := hsettled.admitted
    cases ha.symm.trans ha'
    obtain ⟨hs₀, begun, hbefore, hstage, hallows⟩ := Traffic.allow_of_told (hpre.subset hadmitted)
    exact ⟨⟨hgateway, hid, hdon, hmethod⟩, a, r, ha, ⟨hs₀, begun, hbefore, hstage, hallows.symm⟩, hresponds, hpayload⟩
  · rw [List.nodup_iff_count_le_one]
    intro t
    rw [Traffic.count_entered]
    exact Traffic.length_sentBy_le_one n arrivals start hs t

end SecretsGateway
