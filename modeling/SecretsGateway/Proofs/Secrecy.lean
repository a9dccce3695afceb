import SecretsGateway.Proofs.Exchange.Mirror
import SecretsGateway.Proofs.Secret.Envelope
import SecretsGateway.Proofs.Store.Owner
import SecretsGateway.Proofs.World

/-!
# What a node gives away

The bytes of a secret and of its signature go into the store and nowhere else. Two worlds have the same outline if they differ
at most in such bytes (`World.SameOutline`); then they show an exchange the same (`World.mirrors`), and whatever a node reports
and sends is the same in both (`Node.course_discreet`).
-/

namespace SecretsGateway

/-- The scripts have the same answers ready. -/
structure Script.SameOutline (script script' : Script) : Prop where
  rows : script.rows = script'.rows
  written : script.written = script'.written
  delays : script.delays = script'.delays
  cancelNext : script.cancelNext = script'.cancelNext

/-- The storages differ at most in the bytes of secrets and of signatures that they have been given. -/
inductive Storage.SameOutline : Storage → Storage → Prop
  | memory {store store' : Store} (clock : Int64) : store.SameOutline store' →
      SameOutline (.memory store clock) (.memory store' clock)
  | scripted {script script' : Script} : script.SameOutline script' → SameOutline (.scripted script) (.scripted script')

/-- The worlds differ at most in the bytes of secrets and of signatures that the storage has been given. -/
structure World.SameOutline (w w' : World) : Prop where
  timeline : w.timeline = w'.timeline
  station : w.station = w'.station
  storage : w.storage.SameOutline w'.storage
  link : w.link = w'.link
  pending : w.pending = w'.pending
  nextRoot : w.nextRoot = w'.nextRoot

namespace World

variable {α : Type} {w w' : World} {script script' : Script}

private theorem SameOutline.settle (h : w.SameOutline w') (p : PendingCall) (answer : α) :
    (w.settle p answer).2 = (w'.settle p answer).2 ∧ (w.settle p answer).1.SameOutline (w'.settle p answer).1 := by
  have hnow : w.now = w'.now := congrArg Timeline.now h.timeline
  unfold World.settle
  rw [hnow]
  split
  · refine ⟨rfl, ?_, h.station, h.storage, h.link, ?_, h.nextRoot⟩
    · rw [h.timeline]
    · rw [h.pending]
  · exact ⟨rfl, h⟩

private theorem SameOutline.perform (h : w.SameOutline w') (hscript : script.SameOutline script') (caller : Root)
    (call call' : Call) (begun : Bool) (answer : α) :
    (w.perform script caller call begun answer).2 = (w'.perform script' caller call' begun answer).2 ∧
      (w.perform script caller call begun answer).1.SameOutline (w'.perform script' caller call' begun answer).1 := by
  have hnow : w.now = w'.now := congrArg Timeline.now h.timeline
  unfold World.perform
  cases begun with
  | true =>
    simp only [↓reduceIte, h.pending]
    split
    · exact h.settle _ answer
    · exact ⟨rfl, h⟩
  | false =>
    have hbegin : (script.begin w.now caller call).2 = (script'.begin w'.now caller call').2 := by
      simp only [Script.begin, hnow, hscript.delays, hscript.cancelNext]
    have hrest : (script.begin w.now caller call).1.SameOutline (script'.begin w'.now caller call').1 := by
      refine ⟨hscript.rows, hscript.written, ?_, rfl⟩
      simp only [Script.begin, hscript.delays]
    generalize script.begin w.now caller call = begun, script'.begin w'.now caller call' = begun' at hbegin hrest
    obtain ⟨rest, p⟩ := begun
    obtain ⟨rest', p'⟩ := begun'
    cases hbegin
    have hnext : SameOutline { w with storage := .scripted rest, pending := p :: w.pending }
        { w' with storage := .scripted rest', pending := p :: w'.pending } :=
      ⟨h.timeline, h.station, .scripted hrest, h.link, congrArg (p :: ·) h.pending, h.nextRoot⟩
    exact hnext.settle p answer

private theorem SameOutline.transmit (h : w.SameOutline w') (out : Delivery) :
    (w.transmit out).2 = (w'.transmit out).2 ∧ (w.transmit out).1.SameOutline (w'.transmit out).1 := by
  unfold World.transmit
  rw [← h.link]
  split
  · exact ⟨rfl, h⟩
  · split
    · exact ⟨rfl, h.timeline, h.station, h.storage, rfl, h.pending, h.nextRoot⟩
    · exact ⟨rfl, h⟩
    · exact ⟨rfl, h⟩

private theorem SameOutline.storage_cases (h : w.SameOutline w') :
    (∃ store store' clock, w.storage = .memory store clock ∧ w'.storage = .memory store' clock ∧ store.SameOutline store') ∨
      ∃ script script', w.storage = .scripted script ∧ w'.storage = .scripted script' ∧ script.SameOutline script' := by
  have hstorage := h.storage
  generalize w.storage = storage, w'.storage = storage' at hstorage
  cases hstorage with
  | memory clock hstore => exact .inl ⟨_, _, clock, rfl, rfl, hstore⟩
  | scripted hscript => exact .inr ⟨_, _, rfl, rfl, hscript⟩

private theorem SameOutline.poll_list (h : w.SameOutline w') (owner : Address) (root : Root) (begun : Bool) :
    (w.poll root begun (.list owner)).2 = (w'.poll root begun (.list owner)).2 ∧
      (w.poll root begun (.list owner)).1.SameOutline (w'.poll root begun (.list owner)).1 := by
  rcases h.storage_cases with ⟨store, store', clock, hs, hs', hstore⟩ | ⟨script, script', hs, hs', hscript⟩
  · simp only [World.poll, hs, hs', hstore.list_eq]
    exact ⟨trivial, h⟩
  · have hperform := h.perform hscript root (.list owner) (.list owner) begun script.rows
    simp only [World.poll, hs, hs', ← hscript.rows]
    exact ⟨congrArg (Reply.mk []) hperform.1, hperform.2⟩

/-- A store that is given two writes of one outline differs only in their results. -/
private theorem SameOutline.poll_put (h : w.SameOutline w') {u u' : SecretWrite} (hu : u.outline = u'.outline) (root : Root)
    (begun : Bool) :
    let p := w.poll root begun (.put u)
    let p' := w'.poll root begun (.put u')
    p.2.answer.isSome = p'.2.answer.isSome ∧
      (p.2.answer = p'.2.answer → p.2.events = p'.2.events ∧ p.1.SameOutline p'.1) := by
  dsimp only
  rcases h.storage_cases with ⟨store, store', clock, hs, hs', hstore⟩ | ⟨script, script', hs, hs', hscript⟩
  · simp only [World.poll, hs, hs']
    cases hput : store.put clock u with
    | error e =>
      cases hput' : store'.put clock u' with
      | error e' => exact ⟨rfl, fun _ => ⟨rfl, h⟩⟩
      | ok s' => exact ⟨rfl, fun hanswer => nomatch hanswer⟩
    | ok s =>
      cases hput' : store'.put clock u' with
      | error e' => exact ⟨rfl, fun hanswer => nomatch hanswer⟩
      | ok s' =>
        refine ⟨rfl, fun _ => ⟨congrArg ([·]) (SecretWrite.event_of_outline hu), ?_⟩⟩
        exact ⟨h.timeline, h.station, .memory clock (hstore.put hu hput hput'), h.link, h.pending, h.nextRoot⟩
  · have hperform := h.perform hscript root (.put u) (.put u') begun script.written
    simp only [World.poll, hs, hs', ← hscript.written]
    exact ⟨congrArg Option.isSome hperform.1, fun _ => ⟨trivial, hperform.2⟩⟩

theorem mirrors (scope : Scope) : (collaborators scope).Mirrors (collaborators scope) SameOutline where
  view h := by simp only [collaborators, h.timeline, h.link]
  poll := by
    intro w w' call begun h hcall
    cases call with
    | allow a =>
      refine ⟨?_, h⟩
      simp only [collaborators, World.poll, h.station]
    | list owner => exact h.poll_list owner scope.root begun
    | put u => exact absurd rfl (hcall u)
    | send out =>
      obtain ⟨hanswer, hstate⟩ := h.transmit out
      exact ⟨congrArg (Reply.mk []) hanswer, hstate⟩
  put begun h hu := h.poll_put hu scope.root begun

end World

/-- Whoever is told the result of a write has asked for it. -/
private theorem Story.asks_of_mem {σ : Type} {n : Node} {parts : Collaborators σ} {d : Delivery} {t : List (Told σ)}
    {next : Option Call} (h : Story n parts d t next) {u : SecretWrite} {result : Except StorageError Unit} {s : σ}
    (hmem : ⟨.put u, result, s⟩ ∈ t) : d.Asks t (.put u) := by
  have hstoring : .put u ∈ (t.map Told.call ++ next.toList).filter Call.isStoring :=
    List.mem_filter.2 ⟨List.mem_append_left _ (List.mem_map_of_mem hmem), rfl⟩
  rcases h.stored with ⟨call, hasks, hone⟩ | ⟨-, hnone⟩
  · rw [hone, List.mem_singleton] at hstoring
    exact hstoring ▸ hasks
  · rw [hnone] at hstoring
    cases hstoring

private theorem Node.asks_of_told {σ : Type} (n : Node) (parts : Collaborators σ) (d : Delivery) (state : σ)
    (moves : List (Move σ)) {u : SecretWrite} {result : Except StorageError Unit} {s : σ}
    (hmem : ⟨.put u, result, s⟩ ∈ (n.course parts d state moves).told) :
    ∃ r, d.message.body.method = Method.set.name ∧ Method.set.decode d.message.body.payloadBytes = .ok (.set r) ∧
      ∃ a, u = r.toWrite a := by
  rcases (n.reached_course parts d state moves).isTold.exists_story with hlooks | ⟨next, hstory⟩
  · rw [Course.told, hlooks] at hmem
    cases hmem
  · cases hstory.asks_of_mem hmem with
    | put _ hname hdecode => exact ⟨_, hname, hdecode, _, rfl⟩

/-- What a node reports and sends does not depend on the bytes of secrets and of their signatures, in two worlds that differ at
most in such bytes and around which the same happens. For two requests to keep a secret, with the same ids and sender and for
the same slot, version and expiration, this is so whenever the storage has the same result for both; for a request to list it
is always so. The reports are the same, and so are the messages; and the worlds that are left behind, with everything in the
channel, still differ at most in such bytes. -/
theorem Node.course_discreet (n : Node) (scope : Scope) (w w' : World) (moves moves' : List (Move World))
    (hworlds : w.SameOutline w') (hmoves : List.Forall₂ (Move.Alike World.SameOutline) moves moves') :
    let course d := n.course (World.collaborators scope) d w moves
    let course' d := n.course (World.collaborators scope) d w' moves'
    (∀ (d d' : Delivery) (r r' : SetRequest), d.SameHead d' → d.message.body.method = "secrets_set" →
      Method.set.decode d.message.body.payloadBytes = .ok (.set r) →
      Method.set.decode d'.message.body.payloadBytes = .ok (.set r') → r.SameOutline r' →
      (course d).Agree (course' d') →
      (course d).events = (course' d').events ∧ (course d).sendings = (course' d').sendings ∧
        (course d).state.SameOutline (course' d').state) ∧
    ∀ d : Delivery, d.message.body.method = "secrets_list" →
      (course d).events = (course' d).events ∧ (course d).sendings = (course' d).sendings ∧
        (course d).state.SameOutline (course' d).state := by
  intro course course'
  have hmirrors := World.mirrors scope
  refine ⟨fun d d' r r' hhead hset hdecode hdecode' hr hagree => ?_, fun d hlist => ?_⟩
  · have hd : d.Alike d' := by
      refine ⟨hhead, fun method hname => ?_⟩
      have hmethod : Method.ofName? d.message.body.method = some .set := hset ▸ Method.ofName?_name .set
      rw [hmethod] at hname
      cases hname
      rw [hdecode, hdecode']
      exact .set hr
    have halike := n.mirrored_course hmirrors hd hworlds hmoves hagree
    exact ⟨halike.events, halike.sendings, halike.state⟩
  · have hd : d.Alike d := ⟨⟨rfl, rfl, rfl, rfl, rfl⟩, fun _ _ => .same _⟩
    have hagree : (course d).Agree (course' d) := by
      intro u u' result result' s s' hmem
      obtain ⟨r, hset, -⟩ := n.asks_of_told _ d w moves hmem
      exact absurd (hlist.symm.trans hset) (by decide)
    have halike := n.mirrored_course hmirrors hd hworlds hmoves hagree
    exact ⟨halike.events, halike.sendings, halike.state⟩

namespace World.Sample

/-- A world with a store that keeps one secret of an admitted owner. -/
def keeping (secret signature : Bytes) : World :=
  { SecretsGateway.Sample.world with
    storage := .memory ((Store.fresh .standard).insert ⟨⟨.zero, 3, 1⟩, ⟨60, secret⟩, signature⟩) 0 }

def message (method : Method) (payload : Option Bytes) : Delivery :=
  ⟨"gateway", ⟨"", ⟨"id", method.name, "session", Address.zero.toHex, payload⟩⟩⟩

private theorem sameHead_message (method : Method) (payload payload' : Option Bytes) :
    (message method payload).SameHead (message method payload') := ⟨rfl, rfl, rfl, rfl, rfl⟩

/-- A request to keep a secret in the first slot that is too big. -/
def request (secret signature : Bytes) : SetRequest := ⟨10, 1, 60, secret, signature⟩

private def Keeps (w : World) : Prop :=
  ∃ store clock channel, w.storage = .memory store clock ∧ store.constraints = .standard ∧ w.link = some channel

private theorem Keeps.poll {w : World} (h : Keeps w) (root : Root) (begun : Bool) (call : Call) :
    Keeps (w.poll root begun call).1 := by
  obtain ⟨store, clock, channel, hstorage, hconstraints, hlink⟩ := h
  have hpolled := World.polled hstorage hlink root begun call
  generalize (w.poll root begun call).1 = w', (w.poll root begun call).2.answer = answer at hpolled
  cases hpolled with
  | put write => exact ⟨_, clock, channel, rfl, (Store.constraints_use_put ..).trans hconstraints, hlink⟩
  | sent => exact ⟨store, clock, _, hstorage, hconstraints, rfl⟩
  | _ => exact ⟨store, clock, channel, hstorage, hconstraints, hlink⟩

private theorem put_request {store : Store} (hconstraints : store.constraints = .standard) (now : Int64)
    (secret signature : Bytes) (a : Address) :
    ((store.put now ((request secret signature).toWrite a)).map fun _ => ()) = .error .slotTooBig := by
  have hcheck : store.constraints.check ((request secret signature).toWrite a).key
      ((request secret signature).toWrite a).record now = .error .slotTooBig := by
    rw [hconstraints]
    exact if_pos (UInt64.le_refl 10)
  rw [Store.put, hcheck]
  rfl

/-- The slot is too big, whatever the secret. -/
private theorem refused {w s : World} (hw : Keeps w) {secret signature : Bytes} {u : SecretWrite}
    {result : Except StorageError Unit} (hmem : ⟨.put u, result, s⟩ ∈ (SecretsGateway.Sample.node.course
      (collaborators ⟨0, none⟩) (message .set (some (request secret signature).toJson.write)) w [.wake]).told) :
    result = .error .slotTooBig := by
  have hreached := SecretsGateway.Sample.node.reached_course (collaborators ⟨0, none⟩)
    (message .set (some (request secret signature).toJson.write)) w [.wake]
  obtain ⟨r, -, hdecode, a, rfl⟩ := Node.asks_of_told _ _ _ _ _ hmem
  have hread := hdecode.symm.trans (SetRequest.decode_write (request secret signature))
  cases hread
  obtain ⟨look, hlook, htold⟩ := List.mem_filterMap.1 hmem
  obtain ⟨c, hc, -, -, hbefore, -, -⟩ := hreached.exists_of_mem_looks hlook
  obtain ⟨events, hpoll⟩ := hreached.poll_of_mem_looks hlook
  have hkeeps : Keeps look.before := by
    rw [← hbefore]
    exact hc.holds hw (fun call begun _ h => h.poll 0 begun call) (fun change hchange => by simp at hchange)
  obtain ⟨store, clock, channel, hstorage, hconstraints, hlink⟩ := hkeeps
  rw [Look.eq_of_told? htold] at hpoll hstorage
  have hanswer := World.answer_poll_put hstorage 0 (!look.isFirst) ((request secret signature).toWrite a)
  rw [put_request hconstraints] at hanswer
  have hsame : some result = some (.error .slotTooBig) := by
    rw [← hanswer]
    exact (congrArg (fun p => p.2.answer) hpoll).symm
  exact Option.some.inj hsame

theorem course_discreet_sample :
    (keeping [1] [2]).SameOutline (keeping [3, 4] [5]) ∧ List.Forall₂ (Move.Alike SameOutline) [.wake] [.wake] ∧
    let course payload method secret signature := SecretsGateway.Sample.node.course (collaborators ⟨0, none⟩)
      (message method payload) (keeping secret signature) [.wake]
    let asking secret signature := some (request secret signature).toJson.write
    ((course (asking [6] [7]) .set [1] [2]).events = (course (asking [8, 9] []) .set [3, 4] [5]).events ∧
      (course (asking [6] [7]) .set [1] [2]).sendings = (course (asking [8, 9] []) .set [3, 4] [5]).sendings) ∧
    (course none .list [1] [2]).events = (course none .list [3, 4] [5]).events ∧
      (course none .list [1] [2]).sendings = (course none .list [3, 4] [5]).sendings := by
  have hworlds : (keeping [1] [2]).SameOutline (keeping [3, 4] [5]) :=
    ⟨rfl, rfl, .memory 0 ⟨rfl, rfl⟩, rfl, rfl, rfl⟩
  have hmoves : List.Forall₂ (Move.Alike SameOutline) [.wake] [.wake] := .cons .wake .nil
  have hkeeps : ∀ secret signature, Keeps (keeping secret signature) := fun _ _ => ⟨_, _, _, rfl, rfl, rfl⟩
  obtain ⟨hset, hlist⟩ := Node.course_discreet SecretsGateway.Sample.node ⟨0, none⟩ _ _ _ _ hworlds hmoves
  have hrequest := hset (message .set (some (request [6] [7]).toJson.write))
    (message .set (some (request [8, 9] []).toJson.write)) (request [6] [7]) (request [8, 9] []) (sameHead_message ..) rfl
    (SetRequest.decode_write (request [6] [7])) (SetRequest.decode_write (request [8, 9] [])) ⟨rfl, rfl, rfl⟩
  obtain ⟨hevents, hsendings, -⟩ := hrequest fun u u' result result' s s' hmem hmem' =>
    (refused (hkeeps _ _) hmem).trans (refused (hkeeps _ _) hmem').symm
  obtain ⟨hevents', hsendings', -⟩ := hlist (message .list none) rfl
  exact ⟨hworlds, hmoves, ⟨hevents, hsendings⟩, hevents', hsendings'⟩

end World.Sample

end SecretsGateway
