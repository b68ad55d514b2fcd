import Mathlib.Control.Monad.Basic
import Reconnect.Proofs.Broker.Arrangement
import Reconnect.Proofs.Rehearsal.Layout
import Reconnect.Proofs.Schedule.Errand
import Reconnect.Rehearsal.Postroom

/-!
# Subscriptions that fail

What publishers and subscribers note of topics changes when an order is given, before the broker is
asked for anything, and is not changed back when the order fails (`noted_run`). A subscription that
has failed is noted all the same, and subscribing again asks the broker for the same. An order to
unsubscribe or to remove the main topic that has failed has forgotten the queue or the topic, and
giving it again asks the broker for nothing. `forgotten_by_refusal` is a case of this: the broker
refuses to delete a queue, which stays behind for ever.
-/

namespace Reconnect.Rehearsal

open Broker

/-! ## Orders -/

/-- The subscriber in a place. -/
def subscriberAt (w : PostWorld) (i : Nat) : Subscriber := w.site.subscribers.getD i default

/-- The publisher of topics in a place. -/
def announcerAt (w : PostWorld) (i : Nat) : Announcer := w.site.announcers.getD i default

/-- An order to a publisher or a subscriber in a place, which changes what it notes of topics. A
topic that is not given is the main topic. -/
inductive TopicOrder where
  | subscribe (subscriber : Nat) (given : Option String)
  | unsubscribe (subscriber : Nat) (given : Option String)
  | removeMainTopic (announcer : Nat)
  deriving DecidableEq, Repr

namespace TopicOrder

/-- What an order comes to at once. -/
def give (w : PostWorld) : TopicOrder → PostSession.Outcome
  | .subscribe i given => PostSession.tellSubscriber w "" i (.subscribe given)
  | .unsubscribe i given => PostSession.tellSubscriber w "" i (.unsubscribe given)
  | .removeMainTopic i => PostSession.tellAnnouncer w i (.removeTopic none)

/-- Whether the place of an order is taken in a world. -/
def IsPlaced (w : PostWorld) : TopicOrder → Prop
  | .subscribe i _ | .unsubscribe i _ => i < w.site.subscribers.length
  | .removeMainTopic i => i < w.site.announcers.length

/-- Whether what is in the place of an order is the same in two worlds. -/
def Same (w w' : PostWorld) : TopicOrder → Prop
  | .subscribe i _ | .unsubscribe i _ => subscriberAt w' i = subscriberAt w i
  | .removeMainTopic i => announcerAt w' i = announcerAt w i

end TopicOrder

/-- An order that has been given: the call that it has come to, or its result. -/
structure Undertaking where
  world : PostWorld
  call : PostResult ⊕ PostCall

namespace Undertaking

/-- What can happen next. -/
inductive Move (o : TopicOrder) where
  /-- The call takes a step. -/
  | work (opens : Bool)
  /-- Anything happens, except to what is in the place of the order. -/
  | drift (f : PostWorld → PostWorld) (hf : ∀ w, o.Same w (f w))

/-- The call takes a step, unless it has ended. -/
def work (y : Undertaking) (opens : Bool) : Undertaking :=
  match y.call with
  | .inl _ => y
  | .inr call =>
    let r := postMachine.step y.world opens call
    match r.2 with
    | .waits call | .moves call => ⟨r.1, .inr call⟩
    | .ends result => ⟨r.1, .inl result⟩

def step {o : TopicOrder} (y : Undertaking) : Move o → Undertaking
  | .work opens => y.work opens
  | .drift f _ => { y with world := f y.world }

/-- An order is given. -/
def start (o : TopicOrder) (w : PostWorld) : Undertaking := ⟨(o.give w).1, (o.give w).2⟩

/-- The undertaking that a list of moves leads to. -/
def run (o : TopicOrder) (y : Undertaking) (moves : List (Move o)) : Undertaking :=
  moves.foldl step y

/-- What an order has come to. -/
def result? (y : Undertaking) : Option (Except (MessagingError Fault) Unit) :=
  match y.call with
  | .inl (.ended result) => some result
  | _ => none

end Undertaking

/-! ## What calls leave alone -/

section Calls

variable {S C : Type} [Site S C] [Channels S C]

/-- Asking the broker changes no publisher or subscriber. -/
theorem clients_of_goes {r : Request} {w w' : World (Station S) C} {opens : Bool}
    {e : Execution C} {s : Step (Execution C) (Execution.Outcome (Broker.Reply C))}
    (h : e.Goes (asking r) w opens w' s) :
    w'.site.announcers = w.site.announcers ∧ w'.site.subscribers = w.site.subscribers := by
  cases h.atOnce with
  | idle => exact ⟨rfl, rfl⟩
  | succeed _ hr | refuse _ hr =>
    obtain ⟨rfl, -⟩ := Prod.mk.inj hr
    exact ⟨rfl, rfl⟩
  | retry _ hr =>
    obtain ⟨rfl, -⟩ := Prod.mk.inj hr
    rw [World.report_site]
    exact ⟨rfl, rfl⟩

theorem clients_of_arrangement (w : World (Station S) C) (opens : Bool) (a : Arrangement C) :
    (a.step w opens).1.site.announcers = w.site.announcers ∧
      (a.step w opens).1.site.subscribers = w.site.subscribers := by
  have hg := a.goes_step w opens
  generalize (a.step w opens).1 = w' at hg ⊢
  generalize (a.step w opens).2 = s at hg
  cases hg with
  | done | turn => exact ⟨rfl, rfl⟩
  | askWaits _ he | askMoves _ he | askFailed _ he | refused _ he | withdrawWaits _ he
  | withdrawMoves _ he | withdrawn _ he => exact clients_of_goes he
  | succeed _ _ he => exact (clients_of_goes he :)

end Calls

/-! ## What is noted -/

/-- What a subscriber notes once it has been told to subscribe. -/
structure Subscribing (w : PostWorld) (y : Undertaking) (i : Nat) (given : Option String) :
    Prop where
  mainTopic : (subscriberAt y.world i).mainTopic = (subscriberAt w i).mainTopic
  /-- The topic has a queue, whether the order succeeds or not. -/
  queues : ∀ topic, (subscriberAt y.world i).queue? topic = ((subscriberAt w i).queue? topic).or
    (if some topic = given.or (subscriberAt w i).mainTopic then
      some ((subscriberAt w i).queueName topic)
    else none)
  /-- The same order asks the broker for the same again. -/
  again : ((TopicOrder.subscribe i given).give y.world).2 =
    ((TopicOrder.subscribe i given).give w).2

/-- What a subscriber notes once it has been told to unsubscribe. -/
structure Unsubscribing (w : PostWorld) (y : Undertaking) (i : Nat) (given : Option String) :
    Prop where
  mainTopic : (subscriberAt y.world i).mainTopic =
    if given.isNone then none else (subscriberAt w i).mainTopic
  /-- The topic has no queue, whether the order succeeds or not. -/
  queues : ∀ topic, (subscriberAt y.world i).queue? topic =
    if some topic = given.or (subscriberAt w i).mainTopic then none
    else (subscriberAt w i).queue? topic
  /-- If the order has failed there was no topic, or its queue has been forgotten. -/
  failed : ∀ e, y.result? = some (.error e) →
    given.or (subscriberAt w i).mainTopic = none ∧ e = .mainTopicNotSet ∨
      ∃ topic queue, given.or (subscriberAt w i).mainTopic = some topic ∧
        (subscriberAt w i).queue? topic = some queue
  /-- The same order asks the broker for nothing any more. -/
  again : ∀ topic, given.or (subscriberAt w i).mainTopic = some topic →
    ((TopicOrder.unsubscribe i given).give y.world).2 =
      if given.isNone then .inl (.ended (.error .mainTopicNotSet))
      else .inr (.arrange { topology := (subscriberAt w i).topology, steps := [] })

/-- What a publisher notes once it has been told to remove its main topic. -/
structure Removing (y : Undertaking) (i : Nat) : Prop where
  mainTopic : (announcerAt y.world i).mainTopic = none
  again : ((TopicOrder.removeMainTopic i).give y.world).2 =
    .inl (.ended (.error .mainTopicNotSet))

/-- What is noted once an order has been given. -/
def Noted (w : PostWorld) (y : Undertaking) : TopicOrder → Prop
  | .subscribe i given => Subscribing w y i given
  | .unsubscribe i given => Unsubscribing w y i given
  | .removeMainTopic i => Removing y i

namespace Undertaking

/-- What all moves keep: what the order has made of what is in its place. -/
structure Sound (o : TopicOrder) (w : PostWorld) (y : Undertaking) : Prop where
  same : o.Same (o.give w).1 y.world
  call : (∃ r, y.call = .inl r) ∨ ∃ a, y.call = .inr (.arrange a)
  /-- An order that is refused stays so. -/
  refused : ∀ r, (o.give w).2 = .inl r → y.call = .inl r
  /-- An order for which nothing is to be done does not fail. -/
  idle : ∀ topology, (o.give w).2 = .inr (.arrange { topology, steps := [] }) →
    y.call = (o.give w).2 ∨ y.call = .inl (.ended (.ok ()))

end Undertaking

section Places

variable {w : PostWorld} {i : Nat}

/-- Puts a subscriber in a place. -/
def putSubscriber (w : PostWorld) (i : Nat) (s : Subscriber) : PostWorld :=
  { w with site := { w.site with subscribers := w.site.subscribers.set i s } }

/-- Puts a publisher of topics in a place. -/
def putAnnouncer (w : PostWorld) (i : Nat) (a : Announcer) : PostWorld :=
  { w with site := { w.site with announcers := w.site.announcers.set i a } }

theorem subscriberAt_put (h : i < w.site.subscribers.length) (s : Subscriber) :
    subscriberAt (putSubscriber w i s) i = s := by
  rw [subscriberAt, putSubscriber, List.getD_eq_getElem?_getD, List.getElem?_set_self h,
    Option.getD_some]

theorem announcerAt_put (h : i < w.site.announcers.length) (a : Announcer) :
    announcerAt (putAnnouncer w i a) i = a := by
  rw [announcerAt, putAnnouncer, List.getD_eq_getElem?_getD, List.getElem?_set_self h,
    Option.getD_some]

end Places

namespace TopicOrder

variable {w w' : PostWorld} {o : TopicOrder}

theorem Same.refl (o : TopicOrder) (w : PostWorld) : o.Same w w := by
  cases o <;> rfl

theorem Same.trans {w'' : PostWorld} (h : o.Same w w') (h' : o.Same w' w'') : o.Same w w'' := by
  cases o <;> exact Eq.trans h' h

theorem same_of_clients (ha : w'.site.announcers = w.site.announcers)
    (hs : w'.site.subscribers = w.site.subscribers) : o.Same w w' := by
  cases o with
  | subscribe | unsubscribe =>
    simp only [Same, subscriberAt]
    rw [hs]
  | removeMainTopic =>
    simp only [Same, announcerAt]
    rw [ha]

section Give

variable {w : PostWorld} {i : Nat} {given : Option String} {topic : String}

theorem give_subscribe_of_none (h : given.or (subscriberAt w i).mainTopic = none) :
    (subscribe i given).give w = (w, .inl (.ended (.error .mainTopicNotSet))) := by
  rw [subscriberAt] at h
  simp only [give, PostSession.tellSubscriber, h, requireTopic]

theorem give_subscribe_of_some (h : given.or (subscriberAt w i).mainTopic = some topic) :
    (subscribe i given).give w =
      (putSubscriber w i ((subscriberAt w i).subscribe (C := Nat) topic).1,
        .inr (.arrange ((subscriberAt w i).subscribe topic).2)) := by
  rw [subscriberAt] at h
  simp only [give, PostSession.tellSubscriber, h, requireTopic]
  rfl

/-- A subscriber without the main topic, unless a topic is given. -/
def unset (given : Option String) (s : Subscriber) : Subscriber :=
  { s with mainTopic := if given.isNone then none else s.mainTopic }

theorem give_unsubscribe_of_none (h : given.or (subscriberAt w i).mainTopic = none) :
    (unsubscribe i given).give w =
      (putSubscriber w i (unset given (subscriberAt w i)),
        .inl (.ended (.error .mainTopicNotSet))) := by
  obtain ⟨rfl, hmain⟩ := Option.or_eq_none_iff.1 h
  rw [subscriberAt] at hmain
  simp only [give, PostSession.tellSubscriber, Subscriber.unsubscribeMainTopic, hmain,
    PostSession.orFail]
  rfl

theorem give_unsubscribe_of_some (h : given.or (subscriberAt w i).mainTopic = some topic) :
    (unsubscribe i given).give w =
      (putSubscriber w i ((unset given (subscriberAt w i)).unsubscribe (C := Nat) topic).1,
        .inr (.arrange ((unset given (subscriberAt w i)).unsubscribe topic).2)) := by
  cases given with
  | some given =>
    obtain rfl : given = topic := by simpa using h
    rfl
  | none =>
    rw [subscriberAt, Option.none_or] at h
    simp only [give, PostSession.tellSubscriber, Subscriber.unsubscribeMainTopic, h,
      PostSession.orFail]
    rfl

/-- To subscribe again makes no difference. -/
theorem subscribe_subscribe (s : Subscriber) (topic : String) :
    (s.subscribe (C := Nat) topic).1.subscribe (C := Nat) topic = s.subscribe topic := by
  have hnew : (s.queues.insertNew topic (s.queueName topic)).contains topic = true := by
    rw [Table.contains, Hub.get?_insertNew, if_pos rfl]
    cases s.queues.get? topic <;> rfl
  have hsame : (s.queues.insertNew topic (s.queueName topic)).insertNew topic (s.queueName topic) =
      s.queues.insertNew topic (s.queueName topic) := if_pos hnew
  simp only [Subscriber.subscribe, Subscriber.queueName] at hsame ⊢
  rw [hsame]

/-- Without a queue there is nothing to do. -/
theorem unsubscribe_of_none {s : Subscriber} {given : Option String} {topic : String}
    (h : s.queue? topic = none) :
    ((unset given s).unsubscribe topic).2 =
      ({ topology := s.topology, steps := [] } : Arrangement Nat) := by
  have hunset : (unset given s).queue? topic = none := h
  rw [Subscriber.unsubscribe, hunset]
  rfl

theorem give_removeMainTopic :
    (removeMainTopic i).give w = PostSession.orFail
      (putAnnouncer w i { announcerAt w i with mainTopic := none }) .arrange
      ((requireTopic (announcerAt w i).mainTopic).map (announcerAt w i).removeTopic) := rfl

end Give

end TopicOrder

namespace Undertaking

variable {o : TopicOrder} {w : PostWorld} {y : Undertaking}

/-- The undertaking after a step of an arrangement. -/
def goOn (w : PostWorld) :
    Step (Arrangement Nat) (Except (MessagingError Fault) Unit) → Undertaking
  | .waits a | .moves a => ⟨w, .inr (.arrange a)⟩
  | .ends result => ⟨w, .inl (.ended result)⟩

theorem work_arrange {a : Arrangement Nat} (hc : y.call = .inr (.arrange a)) (opens : Bool) :
    y.work opens = goOn (a.step y.world opens).1 (a.step y.world opens).2 := by
  rw [Undertaking.work, hc]
  simp only [postMachine]
  rcases a.step y.world opens with ⟨w', _ | _ | _⟩ <;> rfl

theorem Sound.work (h : y.Sound o w) (opens : Bool) : (y.work opens).Sound o w := by
  obtain ⟨r, hc⟩ | ⟨a, hc⟩ := h.call
  · have hwork : y.work opens = y := by rw [Undertaking.work, hc]
    rw [hwork]
    exact h
  · obtain ⟨ha, hs⟩ := clients_of_arrangement y.world opens a
    have hnothing : ∀ {topology}, a = { topology, steps := [] } →
        (a.step y.world opens).2 = .ends (.ok ()) := by
      rintro topology rfl
      rfl
    rw [work_arrange hc]
    generalize (a.step y.world opens).1 = w' at ha hs ⊢
    generalize (a.step y.world opens).2 = s at hnothing ⊢
    have hworld : (goOn w' s).world = w' := by cases s <;> rfl
    refine ⟨?_, ?_, ?_, ?_⟩
    · rw [hworld]
      exact h.same.trans (o.same_of_clients ha hs)
    · cases s with
      | waits a | moves a => exact .inr ⟨a, rfl⟩
      | ends result => exact .inl ⟨_, rfl⟩
    · intro r hr
      rw [h.refused r hr] at hc
      cases hc
    · intro topology hg
      obtain hcall | hcall := h.idle topology hg
      · rw [hc, hg] at hcall
        cases hcall
        rw [hnothing rfl]
        exact .inr rfl
      · rw [hc] at hcall
        cases hcall

theorem Sound.step (h : y.Sound o w) (m : Move o) : (y.step m).Sound o w := by
  cases m with
  | work opens => exact h.work opens
  | drift f hf => exact ⟨h.same.trans (hf y.world), h.call, h.refused, h.idle⟩

theorem sound_start (o : TopicOrder) (w : PostWorld) : (start o w).Sound o w where
  same := .refl o _
  call := by
    cases o with
    | subscribe i given =>
      cases ht : given.or (subscriberAt w i).mainTopic with
      | none => exact .inl ⟨_, congrArg Prod.snd (TopicOrder.give_subscribe_of_none ht)⟩
      | some => exact .inr ⟨_, congrArg Prod.snd (TopicOrder.give_subscribe_of_some ht)⟩
    | unsubscribe i given =>
      cases ht : given.or (subscriberAt w i).mainTopic with
      | none => exact .inl ⟨_, congrArg Prod.snd (TopicOrder.give_unsubscribe_of_none ht)⟩
      | some => exact .inr ⟨_, congrArg Prod.snd (TopicOrder.give_unsubscribe_of_some ht)⟩
    | removeMainTopic i =>
      rw [start, TopicOrder.give_removeMainTopic]
      cases (announcerAt w i).mainTopic with
      | none => exact .inl ⟨_, rfl⟩
      | some => exact .inr ⟨_, rfl⟩
  refused _ hr := hr
  idle _ _ := .inl rfl

theorem Sound.run (h : y.Sound o w) (moves : List (Move o)) : (y.run o moves).Sound o w := by
  induction moves generalizing y with
  | nil => exact h
  | cons m moves ih => exact ih (h.step m)

theorem sound_run (o : TopicOrder) (w : PostWorld) (moves : List (Move o)) :
    (run o (start o w) moves).Sound o w :=
  (sound_start o w).run moves

variable {i : Nat} {given : Option String}

theorem Sound.subscribing (h : y.Sound (.subscribe i given) w)
    (hi : i < w.site.subscribers.length) : Subscribing w y i given := by
  have hsame : subscriberAt y.world i =
    subscriberAt ((TopicOrder.subscribe i given).give w).1 i := h.same
  cases ht : given.or (subscriberAt w i).mainTopic with
  | none =>
    rw [TopicOrder.give_subscribe_of_none ht] at hsame
    refine ⟨by rw [hsame], fun topic => by simp [hsame, ht], ?_⟩
    rw [TopicOrder.give_subscribe_of_none ht,
      TopicOrder.give_subscribe_of_none (by rw [hsame]; exact ht)]
  | some topic =>
    rw [TopicOrder.give_subscribe_of_some ht, subscriberAt_put hi] at hsame
    refine ⟨by rw [hsame]; rfl, fun other => ?_, ?_⟩
    · rw [hsame, ht]
      simp only [Subscriber.queue?, Subscriber.subscribe, Hub.get?_insertNew, Option.some.injEq]
      by_cases ho : other = topic
      · rw [ho]
      · rw [if_neg ho, if_neg ho]
    · have hagain : given.or (subscriberAt y.world i).mainTopic = some topic := by
        rw [hsame]
        exact ht
      rw [TopicOrder.give_subscribe_of_some ht, TopicOrder.give_subscribe_of_some hagain, hsame,
        TopicOrder.subscribe_subscribe]

theorem Sound.unsubscribing (h : y.Sound (.unsubscribe i given) w)
    (hi : i < w.site.subscribers.length) : Unsubscribing w y i given := by
  have hsame : subscriberAt y.world i =
    subscriberAt ((TopicOrder.unsubscribe i given).give w).1 i := h.same
  cases ht : given.or (subscriberAt w i).mainTopic with
  | none =>
    have hgive := TopicOrder.give_unsubscribe_of_none ht
    rw [hgive, subscriberAt_put hi] at hsame
    refine ⟨by rw [hsame]; rfl, fun other => ?_, fun e he => ?_, fun topic hn => ?_⟩
    · rw [hsame]
      simp [TopicOrder.unset, Subscriber.queue?, ht]
    · rw [result?, h.refused _ (congrArg Prod.snd hgive)] at he
      exact .inl ⟨ht, (Except.error.inj (Option.some.inj he)).symm⟩
    · rw [ht] at hn
      cases hn
  | some topic =>
    have hgive := TopicOrder.give_unsubscribe_of_some ht
    rw [hgive, subscriberAt_put hi] at hsame
    refine ⟨by rw [hsame]; rfl, fun other => ?_, fun e he => .inr ?_, fun topic' hn => ?_⟩
    · rw [hsame, ht]
      simp [TopicOrder.unset, Subscriber.unsubscribe, Subscriber.queue?]
    · cases hq : (subscriberAt w i).queue? topic with
      | some queue => exact ⟨topic, queue, ht, hq⟩
      | none =>
        -- without a queue there is nothing to delete, and the order cannot fail
        rw [TopicOrder.unsubscribe_of_none hq] at hgive
        rw [result?] at he
        obtain hc | hc := h.idle _ (congrArg Prod.snd hgive)
        · rw [hc, hgive] at he
          cases he
        · rw [hc] at he
          cases he
    · have hforgotten : (subscriberAt y.world i).queue? topic = none := by
        rw [hsame]
        simp [TopicOrder.unset, Subscriber.unsubscribe, Subscriber.queue?]
      have hmain : (subscriberAt y.world i).mainTopic =
          if given.isNone then none else (subscriberAt w i).mainTopic := by
        rw [hsame]
        rfl
      cases given with
      | none =>
        have hnone : (none : Option String).or (subscriberAt y.world i).mainTopic = none := hmain
        exact congrArg Prod.snd (TopicOrder.give_unsubscribe_of_none hnone)
      | some given =>
        obtain rfl : given = topic := by simpa using ht
        rw [TopicOrder.give_unsubscribe_of_some rfl,
          TopicOrder.unsubscribe_of_none hforgotten, hsame]
        rfl

theorem Sound.removing (h : y.Sound (.removeMainTopic i) w)
    (hi : i < w.site.announcers.length) : Removing y i := by
  have hsame : announcerAt y.world i =
    announcerAt ((TopicOrder.removeMainTopic i).give w).1 i := h.same
  have hunset : (announcerAt y.world i).mainTopic = none := by
    rw [hsame, TopicOrder.give_removeMainTopic]
    cases (announcerAt w i).mainTopic <;>
      simp [requireTopic, PostSession.orFail, Except.map, announcerAt_put hi]
  refine ⟨hunset, ?_⟩
  rw [TopicOrder.give_removeMainTopic, hunset]
  rfl

/-- Whatever an order comes to, and whatever happens meanwhile, what is noted is what the order has
made of it when it was given. -/
theorem noted_run (o : TopicOrder) (w : PostWorld) (h : o.IsPlaced w) (moves : List (Move o)) :
    Noted w (run o (start o w) moves) o := by
  have hs := sound_run o w moves
  cases o with
  | subscribe i given => exact hs.subscribing h
  | unsubscribe i given => exact hs.unsubscribing h
  | removeMainTopic i => exact hs.removing h

/-- A world with one subscriber, whose client has a channel. -/
def soleSubscriber : PostWorld :=
  { site := {
      store := { hub := { channels := 1 } }
      records := [[]]
      subscribers := [{ topology := ⟨⟨⟨⟨0⟩, 1000, 1000, 10, "root"⟩, 1000⟩, 0⟩, id := ⟨7⟩ }] }
    supervisor := .enroll {} ⟨0⟩ (some 1) }

/-- An order that has been given, after a number of steps. -/
def after (o : TopicOrder) (w : PostWorld) (steps : Nat) : Undertaking :=
  run o (start o w) (List.replicate steps (.work true))

/-- That world once the subscriber has subscribed to a topic, when the broker is about to refuse to
delete a queue. -/
def refusing : PostWorld :=
  (after (.subscribe 0 (some "t")) soleSubscriber 9).world.change fun p =>
    { p with mishaps := Table.empty.insert .deleteQueue [.fault (.application "refused")] }

/-- An order to unsubscribe that is refused. -/
theorem noted_refused_deletion :
    let o := TopicOrder.unsubscribe 0 (some "t")
    let y := after o refusing 5
    o.IsPlaced refusing ∧
      y.result? = some (.error (.client (.operation (.application "refused")))) ∧
      Noted refusing y o := by
  intro o y
  have hplaced : o.IsPlaced refusing := by
    show 0 < refusing.site.subscribers.length
    decide +kernel
  exact ⟨hplaced, by decide +kernel, noted_run o refusing hplaced _⟩

/-- An order to unsubscribe that is refused has forgotten the queue. Giving it again succeeds at
once, and the queue stays at the broker. -/
theorem forgotten_by_refusal :
    let o := TopicOrder.unsubscribe 0 (some "t")
    let queue := (subscriberAt soleSubscriber 0).queueName "t"
    let y := after o refusing 5
    let again := after o y.world 1
    (subscriberAt refusing 0).queue? "t" = some queue ∧
      y.result? = some (.error (.client (.operation (.application "refused")))) ∧
      (subscriberAt y.world 0).queue? "t" = none ∧
      again.result? = some (.ok ()) ∧
      (again.world.site.store.hub.queues.get? queue).isSome = true := by
  decide +kernel

end Undertaking

end Reconnect.Rehearsal
