import Mathlib.Data.List.Basic
import Reconnect.Proofs.Supervisor.Dismissal
import Reconnect.Provider

/-!
# What a provider holds

A store is held from the first valid profile on that is offered for it, and keeps that profile
whatever is asked of the provider afterwards (`firstValid_run`). The settings offer a profile for
each store, in order, and go on to the next store only when a valid profile has been offered for the
one before; so what is offered for a store depends on the calls that came before (`offers`).

A call that fails does so at one store and leaves that and all later ones alone. A client is made if
and only if its store is held, and adds one registration, at the supervisor of that store. Between
two calls the supervisors may go on with their recoveries.
-/

namespace Reconnect.Provider

variable {C : Type}

/-! ## Stores -/

/-- The stores, in the order in which the settings offer their profiles. -/
inductive Store where
  | broker | cache | documents
  deriving DecidableEq, Repr

namespace Store

/-- How a store is reached. -/
abbrev Profile : Store → Type
  | .broker => Broker.Profile
  | .cache => Cache.Profile
  | .documents => Documents.Profile

/-- What is wrong with a profile, if anything is. -/
def check : (k : Store) → k.Profile → Except ProfileError Unit
  | .broker, profile => profile.uri.map fun _ => ()
  | .cache, profile => profile.login.map fun _ => ()
  | .documents, profile => profile.uri.map fun _ => ()

def isValid (k : Store) (profile : k.Profile) : Bool := (k.check profile).isOk

/-- The place of a store in the order. -/
def place : Store → Nat
  | .broker => 0
  | .cache => 1
  | .documents => 2

theorem ne_of_place_lt {k k' : Store} (h : k.place < k'.place) : k' ≠ k := by
  rintro rfl
  exact Nat.lt_irrefl _ h

end Store

/-- What is held for a store. -/
def held (p : Provider C) : (k : Store) → Option (Holding k.Profile C)
  | .broker => p.broker
  | .cache => p.cache
  | .documents => p.documents

/-- The profile that is held for a store. -/
def profile? (p : Provider C) (k : Store) : Option k.Profile := (p.held k).map Holding.profile

/-- The clients that are registered at the supervisor of a store. -/
def registered (p : Provider C) (k : Store) : List Identifier :=
  ((p.held k).map fun h => h.supervisor.clients).getD []

/-- The provider that holds a store by a profile, without any client. -/
def hold (p : Provider C) : (k : Store) → k.Profile → Provider C
  | .broker, profile => { p with broker := some { profile } }
  | .cache, profile => { p with cache := some { profile } }
  | .documents, profile => { p with documents := some { profile } }

/-- Changes the supervisor of a store, if the store is held. -/
def steer (p : Provider C) (f : Supervisor C → Supervisor C) : Store → Provider C
  | .broker => { p with broker := p.broker.map fun h => { h with supervisor := f h.supervisor } }
  | .cache => { p with cache := p.cache.map fun h => { h with supervisor := f h.supervisor } }
  | .documents =>
    { p with documents := p.documents.map fun h => { h with supervisor := f h.supervisor } }

@[simp] theorem held_hold_self (p : Provider C) (k : Store) (profile : k.Profile) :
    (p.hold k profile).held k = some { profile } := by
  cases k <;> rfl

theorem held_hold_of_ne (p : Provider C) {k k' : Store} (profile : k.Profile) (hne : k' ≠ k) :
    (p.hold k profile).held k' = p.held k' := by
  cases k <;> cases k' <;> first | rfl | exact absurd rfl hne

@[simp] theorem held_steer_self (p : Provider C) (f : Supervisor C → Supervisor C) (k : Store) :
    (p.steer f k).held k = (p.held k).map fun h => { h with supervisor := f h.supervisor } := by
  cases k <;> rfl

theorem held_steer_of_ne (p : Provider C) (f : Supervisor C → Supervisor C) {k k' : Store}
    (hne : k' ≠ k) : (p.steer f k).held k' = p.held k' := by
  cases k <;> cases k' <;> first | rfl | exact absurd rfl hne

theorem profile?_congr {p p' : Provider C} {k : Store} (h : p.held k = p'.held k) :
    p.profile? k = p'.profile? k := by
  rw [profile?, profile?, h]

theorem isSome_profile? (p : Provider C) (k : Store) :
    (p.profile? k).isSome = (p.held k).isSome :=
  Option.isSome_map

@[simp] theorem held_shutDown (p : Provider C) (k : Store) :
    p.shutDown.held k = (p.held k).map Holding.dismiss := by
  cases k <;> rfl

@[simp] theorem drawn_hold (p : Provider C) (k : Store) (profile : k.Profile) :
    (p.hold k profile).drawn = p.drawn := by
  cases k <;> rfl

/-- A store that is newly held has no clients. -/
theorem registered_hold {p : Provider C} {k : Store} {profile : k.Profile} (hn : p.held k = none)
    (k' : Store) : (p.hold k profile).registered k' = p.registered k' := by
  by_cases hk : k' = k
  · subst hk
    simp [registered, hn]
  · rw [registered, registered, held_hold_of_ne p profile hk]

/-! ## Calls -/

/-- What can be asked of a provider, and what its supervisors do by themselves. -/
inductive Call (C : Type) where
  /-- A profile is given for a store. -/
  | begin (k : Store) (profile : k.Profile)
  /-- The settings give the profiles of all stores. -/
  | beginAll (s : Settings)
  /-- A client of a store is asked for. Its first connection is opened, or not. -/
  | client (k : Store) (opened : Option C)
  | shutDown
  /-- The supervisor of a store goes on with a recovery. -/
  | recover (k : Store) (stage : Supervisor.Stage C) (signal : Supervisor.Signal C)
      (h : stage.ofRecovery = true)

/-- How a provider answers a call. -/
inductive Answer where
  | done
  | refused (e : ProfileError)
  /-- A client, if one was made. -/
  | client (made : Option Client)

/-- Gives a profile of a store. -/
def begin (p : Provider C) : (k : Store) → k.Profile → Provider C × Except ProfileError Unit
  | .broker, profile => p.beginBroker profile
  | .cache, profile => p.beginCache profile
  | .documents, profile => p.beginDocuments profile

/-- Asks for a client of a store. -/
def ask (p : Provider C) (opened : Option C) : Store → Provider C × Option Client
  | .broker => let r := p.brokerClient opened; (r.1, r.2.map Broker.BrokerClient.client)
  | .cache => let r := p.cacheClient opened; (r.1, r.2.map Cache.LockClient.client)
  | .documents => p.documentClient opened

/-- The answer to a call that gives profiles. -/
def Answer.ofResult : Except ProfileError Unit → Answer
  | .ok _ => .done
  | .error e => .refused e

theorem Answer.ofResult_eq_refused {r : Except ProfileError Unit} {e : ProfileError} :
    ofResult r = .refused e ↔ r = .error e := by
  cases r <;> simp [ofResult]

/-- The provider after a call, and its answer. -/
def serve (p : Provider C) : Call C → Provider C × Answer
  | .begin k profile => let r := p.begin k profile; (r.1, .ofResult r.2)
  | .beginAll s => let r := p.beginAll s; (r.1, .ofResult r.2)
  | .client k opened => let r := p.ask opened k; (r.1, .client r.2)
  | .shutDown => (p.shutDown, .done)
  | .recover k stage signal _ => (p.steer (fun s => (s.resume stage signal).supervisor) k, .done)

/-- A provider that holds nothing yet, whose context may have been canceled, after some calls. -/
def run (canceled : Bool) (drawn : Nat) (calls : List (Call C)) : Provider C :=
  calls.foldl (fun p call => (p.serve call).1) { canceled, drawn }

theorem run_concat (canceled : Bool) (drawn : Nat) (calls : List (Call C)) (call : Call C) :
    run canceled drawn (calls ++ [call]) = ((run canceled drawn calls).serve call).1 := by
  simp [run]

/-! ## Offers -/

/-- The profiles of one store among those of several. -/
def ofStore (k : Store) : List ((k' : Store) × k'.Profile) → List k.Profile
  | [] => []
  | ⟨k', profile⟩ :: rest => if h : k' = k then h ▸ profile :: ofStore k rest else ofStore k rest

@[simp] theorem ofStore_nil (k : Store) : ofStore k [] = [] := rfl

@[simp] theorem ofStore_cons_self (k : Store) (profile : k.Profile)
    (rest : List ((k' : Store) × k'.Profile)) :
    ofStore k (⟨k, profile⟩ :: rest) = profile :: ofStore k rest :=
  dif_pos rfl

theorem ofStore_cons_of_ne {k k' : Store} (hne : k' ≠ k) (profile : k'.Profile)
    (rest : List ((k' : Store) × k'.Profile)) :
    ofStore k (⟨k', profile⟩ :: rest) = ofStore k rest :=
  dif_neg hne

theorem ofStore_eq_nil {k : Store} {plan : List ((k' : Store) × k'.Profile)}
    (hk : ∀ x ∈ plan, x.1 ≠ k) : ofStore k plan = [] := by
  induction plan with
  | nil => rfl
  | cons x rest ih =>
    rw [ofStore_cons_of_ne (hk x List.mem_cons_self)]
    exact ih fun y hy => hk y (List.mem_cons_of_mem x hy)

/-- The profiles that a call gives, in the order in which it gives them. -/
def Call.plan : Call C → List ((k : Store) × k.Profile)
  | .begin k profile => [⟨k, profile⟩]
  | .beginAll s =>
    [⟨.broker, s.broker.profile⟩, ⟨.cache, s.cache.profile⟩, ⟨.documents, s.documents.profile⟩]
  | _ => []

/-- The profiles of a store that the calls after some others give, of the calls that come so far. -/
def offersAfter (k : Store) (reaches : List (Call C) → Call C → Bool) (before : List (Call C)) :
    List (Call C) → List k.Profile
  | [] => []
  | call :: rest => (if reaches before call then ofStore k call.plan else []) ++
      offersAfter k reaches (before ++ [call]) rest

/-- The profiles that are offered for a store in the course of some calls. A call comes to a store
once a valid profile has been offered for each store that it comes to before. -/
def offers (k : Store) (calls : List (Call C)) : List k.Profile :=
  offersAfter k (fun before call => call.plan.all fun x =>
    if x.1.place < k.place then (offers x.1 (before ++ [call])).any x.1.isValid else true) [] calls
termination_by k.place

/-- Whether something holds of the stores of a plan that come before a store. -/
def allBefore (k : Store) (plan : List ((k' : Store) × k'.Profile)) (holds : Store → Bool) : Bool :=
  plan.all fun x => if x.1.place < k.place then holds x.1 else true

theorem allBefore_cons (k : Store) (x : (k' : Store) × k'.Profile)
    (rest : List ((k' : Store) × k'.Profile)) (holds : Store → Bool) :
    allBefore k (x :: rest) holds =
      ((if x.1.place < k.place then holds x.1 else true) && allBefore k rest holds) :=
  rfl

theorem allBefore_of_le {k : Store} {plan : List ((k' : Store) × k'.Profile)}
    (hle : ∀ x ∈ plan, k.place ≤ x.1.place) (holds : Store → Bool) :
    allBefore k plan holds = true := by
  rw [allBefore, List.all_eq_true]
  intro x hx
  rw [if_neg (Nat.not_lt_of_le (hle x hx))]

theorem allBefore_congr {k : Store} {holds holds' : Store → Bool}
    (h : ∀ k' : Store, k'.place < k.place → holds k' = holds' k')
    (plan : List ((k' : Store) × k'.Profile)) :
    allBefore k plan holds = allBefore k plan holds' := by
  rw [allBefore, allBefore]
  congr 1
  funext x
  split
  case isTrue hlt => exact h x.1 hlt
  case isFalse => rfl

/-- Whether a call comes to a store after some others. -/
def reaches (k : Store) (before : List (Call C)) (call : Call C) : Bool :=
  allBefore k call.plan fun k' => (offers k' (before ++ [call])).any k'.isValid

theorem offersAfter_concat (k : Store) (reaches : List (Call C) → Call C → Bool)
    (before calls : List (Call C)) (call : Call C) :
    offersAfter k reaches before (calls ++ [call]) = offersAfter k reaches before calls ++
      (if reaches (before ++ calls) call then ofStore k call.plan else []) := by
  induction calls generalizing before with
  | nil => simp [offersAfter]
  | cons c rest ih => simp [offersAfter, ih]

@[simp] theorem offers_nil (k : Store) : offers k ([] : List (Call C)) = [] := by
  rw [offers]
  rfl

theorem offers_concat (k : Store) (calls : List (Call C)) (call : Call C) :
    offers k (calls ++ [call]) =
      offers k calls ++ (if reaches k calls call then ofStore k call.plan else []) := by
  rw [offers, offersAfter_concat, offers]
  rfl

/-! ## One profile after the other -/

theorem begin_of_held {p : Provider C} {k : Store} {h : Holding k.Profile C}
    (hs : p.held k = some h) (profile : k.Profile) : p.begin k profile = (p, .ok ()) := by
  obtain ⟨_, _, broker, cache, documents⟩ := p
  cases k with
  | broker =>
    obtain rfl : broker = some h := hs
    rfl
  | cache =>
    obtain rfl : cache = some h := hs
    rfl
  | documents =>
    obtain rfl : documents = some h := hs
    rfl

theorem begin_of_valid {p : Provider C} {k : Store} {profile : k.Profile} (hn : p.held k = none)
    (hv : k.check profile = .ok ()) : p.begin k profile = (p.hold k profile, .ok ()) := by
  cases k <;> simp_all [held, Store.check, begin, beginBroker, beginCache, beginDocuments,
    Holding.offer, Except.map, hold]

theorem begin_of_invalid {p : Provider C} {k : Store} {profile : k.Profile} {e : ProfileError}
    (hn : p.held k = none) (hv : k.check profile = .error e) :
    p.begin k profile = (p, .error e) := by
  cases k <;> simp_all [held, Store.check, begin, beginBroker, beginCache, beginDocuments,
    Holding.offer, Except.map]

/-- Gives profiles one after the other, up to the first one that is refused. -/
def beginEach (p : Provider C) :
    List ((k : Store) × k.Profile) → Provider C × Except ProfileError Unit
  | [] => (p, .ok ())
  | ⟨k, profile⟩ :: rest =>
    match p.begin k profile with
    | (p', .ok _) => p'.beginEach rest
    | r => r

theorem beginEach_singleton (p : Provider C) (k : Store) (profile : k.Profile) :
    p.beginEach [⟨k, profile⟩] = p.begin k profile := by
  rw [beginEach]
  obtain ⟨p', e | u⟩ := p.begin k profile <;> rfl

theorem beginAll_eq (p : Provider C) (s : Settings) :
    p.beginAll s = p.beginEach (Call.beginAll (C := C) s).plan := by
  have hlast : ∀ p' : Provider C, p'.beginDocuments s.documents.profile =
      p'.beginEach [⟨.documents, s.documents.profile⟩] :=
    fun p' => (p'.beginEach_singleton .documents _).symm
  simp only [beginAll, hlast]
  rfl

/-- What comes of profiles that are given one after the other. -/
inductive Begun : Provider C → List ((k : Store) × k.Profile) →
    Provider C × Except ProfileError Unit → Prop
  | done (p : Provider C) : Begun p [] (p, .ok ())
  /-- The first store is held already. -/
  | kept {p : Provider C} {k : Store} (profile : k.Profile) {rest r}
      (hs : (p.held k).isSome = true) (h : Begun p rest r) : Begun p (⟨k, profile⟩ :: rest) r
  /-- The first profile is the first valid one for its store. -/
  | opened {p : Provider C} {k : Store} {profile : k.Profile} {rest r} (hn : p.held k = none)
      (hv : k.check profile = .ok ()) (h : Begun (p.hold k profile) rest r) :
      Begun p (⟨k, profile⟩ :: rest) r
  | refused {p : Provider C} {k : Store} {profile : k.Profile} (rest) {e : ProfileError}
      (hn : p.held k = none) (hv : k.check profile = .error e) :
      Begun p (⟨k, profile⟩ :: rest) (p, .error e)

theorem begun_beginEach (p : Provider C) (plan : List ((k : Store) × k.Profile)) :
    Begun p plan (p.beginEach plan) := by
  induction plan generalizing p with
  | nil => exact .done p
  | cons x rest ih =>
    obtain ⟨k, profile⟩ := x
    rw [beginEach]
    cases hs : p.held k with
    | some h =>
      rw [begin_of_held hs]
      exact .kept profile (hs ▸ rfl) (ih p)
    | none =>
      cases hv : k.check profile with
      | ok =>
        rw [begin_of_valid hs hv]
        exact .opened hs hv (ih _)
      | error e =>
        rw [begin_of_invalid hs hv]
        exact .refused rest hs hv

/-- The places of the stores for which profiles are given ascend. -/
def Ascends (plan : List ((k : Store) × k.Profile)) : Prop :=
  plan.Pairwise fun x y => x.1.place < y.1.place

theorem ascends_plan (call : Call C) : Ascends call.plan := by
  cases call with
  | beginAll s => simp [Ascends, Call.plan, Store.place]
  | _ => simp [Ascends, Call.plan]

namespace Begun

variable {p : Provider C} {plan : List ((k : Store) × k.Profile)}
  {r : Provider C × Except ProfileError Unit}

/-- A store that is held stays as it is, and so does one for which no profile is given. -/
theorem held_eq (h : Begun p plan r) {k : Store}
    (hk : (p.held k).isSome = true ∨ ∀ x ∈ plan, x.1 ≠ k) : r.1.held k = p.held k := by
  induction h with
  | done p => rfl
  | kept profile hs h ih =>
    exact ih (hk.imp_right fun hne x hx => hne x (List.mem_cons_of_mem _ hx))
  | @opened p k₀ profile rest r hn hv h ih =>
    have hne : k ≠ k₀ := by
      rintro rfl
      rcases hk with hk | hk
      · rw [hn] at hk
        cases hk
      · exact hk ⟨k, profile⟩ List.mem_cons_self rfl
    rw [← held_hold_of_ne p profile hne] at hk ⊢
    exact ih (hk.imp_right fun hne x hx => hne x (List.mem_cons_of_mem _ hx))
  | refused rest hn hv => rfl

/-- A refusal is that of one profile. Its store and the later ones are left alone. -/
theorem refusal (h : Begun p plan r) (ha : Ascends plan) {e : ProfileError}
    (he : r.2 = .error e) :
    ∃ (k : Store) (profile : k.Profile), ⟨k, profile⟩ ∈ plan ∧ k.check profile = .error e ∧
      p.held k = none ∧ ∀ k' : Store, k.place ≤ k'.place → r.1.held k' = p.held k' := by
  induction h with
  | done p => cases he
  | kept profile hs h ih =>
    obtain ⟨k, profile', hmem, hrest⟩ := ih (List.pairwise_cons.1 ha).2 he
    exact ⟨k, profile', List.mem_cons_of_mem _ hmem, hrest⟩
  | @opened p k₀ profile rest r hn hv h ih =>
    obtain ⟨hfirst, hascends⟩ := List.pairwise_cons.1 ha
    obtain ⟨k, profile', hmem, hv', hn', hlater⟩ := ih hascends he
    have hlt : k₀.place < k.place := hfirst _ hmem
    -- the stores from the refused one on come after the one that was opened
    have hne : ∀ k' : Store, k.place ≤ k'.place → k' ≠ k₀ := by
      rintro k' hle rfl
      omega
    rw [held_hold_of_ne p profile (hne k (Nat.le_refl _))] at hn'
    refine ⟨k, profile', List.mem_cons_of_mem _ hmem, hv', hn', fun k' hle => ?_⟩
    rw [hlater k' hle, held_hold_of_ne p profile (hne k' hle)]
  | refused rest hn hv =>
    cases he
    exact ⟨_, _, List.mem_cons_self, hv, hn, fun _ _ => rfl⟩

/-- A store that was not held is held by its profile afterwards if that is valid and the stores
before it are held. -/
theorem profile?_eq (h : Begun p plan r) (ha : Ascends plan) (k : Store) :
    r.1.profile? k = (p.profile? k).or
      ((if allBefore k plan fun k' => (r.1.profile? k').isSome then ofStore k plan else []).find?
        k.isValid) := by
  induction h with
  | done p => simp
  | @kept p k₀ profile rest r hs h ih =>
    have hsome : (p.profile? k₀).isSome = true := (isSome_profile? p k₀).trans hs
    have heq : r.1.profile? k₀ = p.profile? k₀ := profile?_congr (h.held_eq (.inl hs))
    by_cases hk : k₀ = k
    · subst hk
      obtain ⟨profile₀, hs⟩ := Option.isSome_iff_exists.1 hsome
      simp [heq, hs]
    · simpa [ofStore_cons_of_ne hk, allBefore_cons, heq, hsome] using
        ih (List.pairwise_cons.1 ha).2
  | @opened p k₀ profile rest r hn hv h ih =>
    obtain ⟨hfirst, hascends⟩ := List.pairwise_cons.1 ha
    have hnone : p.profile? k₀ = none := by simp [profile?, hn]
    have heq : r.1.profile? k₀ = some profile := by
      have hheld := h.held_eq (k := k₀) (.inl (by rw [held_hold_self]; rfl))
      simp [profile?, hheld]
    by_cases hk : k₀ = k
    · subst hk
      have hvalid : k₀.isValid profile = true := by rw [Store.isValid, hv]; rfl
      have hle : ∀ x ∈ (⟨k₀, profile⟩ : (k' : Store) × k'.Profile) :: rest, k₀.place ≤ x.1.place :=
        List.forall_mem_cons.2 ⟨Nat.le_refl _, fun x hx => Nat.le_of_lt (hfirst x hx)⟩
      have hall := allBefore_of_le hle fun k' => (r.1.profile? k').isSome
      simp [heq, hnone, hall, hvalid]
    · have hrest := ih hascends
      rw [profile?_congr (held_hold_of_ne p profile (Ne.symm hk))] at hrest
      simpa [ofStore_cons_of_ne hk, allBefore_cons, heq] using hrest
  | @refused p k₀ profile rest e hn hv =>
    obtain ⟨hfirst, -⟩ := List.pairwise_cons.1 ha
    have hnone : p.profile? k₀ = none := by simp [profile?, hn]
    rcases Nat.lt_or_ge k₀.place k.place with hlt | hge
    · -- the plan does not come to the store
      simp [allBefore_cons, hlt, hnone]
    · have hrest : ofStore k rest = [] :=
        ofStore_eq_nil fun x hx =>
          Store.ne_of_place_lt (Nat.lt_of_le_of_lt hge (hfirst x hx))
      by_cases hk : k₀ = k
      · subst hk
        have hinvalid : k₀.isValid profile = false := by rw [Store.isValid, hv]; rfl
        split <;> simp [hrest, hinvalid]
      · simp [ofStore_cons_of_ne hk, hrest]

theorem registered_eq (h : Begun p plan r) (k : Store) : r.1.registered k = p.registered k := by
  induction h with
  | done p => rfl
  | kept profile hs h ih => exact ih
  | opened hn hv h ih => rw [ih, registered_hold hn]
  | refused rest hn hv => rfl

theorem drawn_eq (h : Begun p plan r) : r.1.drawn = p.drawn := by
  induction h with
  | done p => rfl
  | kept profile hs h ih => exact ih
  | opened hn hv h ih => rw [ih, drawn_hold]
  | refused rest hn hv => rfl

end Begun

/-! ## Clients -/

/-- A client of a store that is not held is not made. -/
theorem ask_of_not_held {p : Provider C} {k : Store} (hn : p.held k = none) (opened : Option C) :
    p.ask opened k = (p, none) := by
  cases k <;> simp_all [held, ask, brokerClient, cacheClient, documentClient]

/-- A client of a store that is held gets the next identifier and is entered there. -/
theorem ask_of_held {p : Provider C} {k : Store} {h : Holding k.Profile C} (hs : p.held k = some h)
    (opened : Option C) :
    ∃ client, (p.ask opened k).2 = some client ∧ client.id = ⟨p.drawn + 1⟩ ∧
      (p.ask opened k).1.drawn = p.drawn + 1 ∧
      (p.ask opened k).1.held k = some (h.enter client.id opened) := by
  cases k with
  | broker =>
    refine ⟨p.nextClient h.profile.timeouts, ?_⟩
    have hs : p.broker = some h := hs
    simp [ask, brokerClient, hs, held, nextClient, Client.ofTimeouts]
  | cache =>
    refine ⟨p.nextClient h.profile.timeouts, ?_⟩
    have hs : p.cache = some h := hs
    simp [ask, cacheClient, hs, held, nextClient, Client.ofTimeouts]
  | documents =>
    refine ⟨p.nextClient h.profile.timeouts, ?_⟩
    have hs : p.documents = some h := hs
    simp [ask, documentClient, hs, held, nextClient, Client.ofTimeouts]

theorem held_ask_of_ne (p : Provider C) (opened : Option C) {k k' : Store} (hne : k' ≠ k) :
    (p.ask opened k).1.held k' = p.held k' := by
  cases hs : p.held k with
  | none => rw [ask_of_not_held hs]
  | some h =>
    cases k <;> cases k' <;>
      simp_all [ask, brokerClient, cacheClient, documentClient, held]

theorem enter_profile {P : Type} (h : Holding P C) (id : Identifier) (opened : Option C) :
    (h.enter id opened).profile = h.profile := by
  rw [Holding.enter]
  split <;> rfl

/-- A client that is new to the supervisor of its store becomes its last one. -/
theorem clients_enter {P : Type} (h : Holding P C) {id : Identifier} (opened : Option C)
    (hid : id ∉ h.supervisor.clients) :
    (h.enter id opened).supervisor.clients = h.supervisor.clients ++ [id] := by
  have henroll : ∀ slot, (h.supervisor.enroll id slot).clients = h.supervisor.clients ++ [id] :=
    Supervisor.Aligned.clients_enroll hid
  cases opened with
  | none => simp [Holding.enter, Supervisor.resume, henroll]
  | some c =>
    cases hr : h.supervisor.recovering <;>
      simp [Holding.enter, Supervisor.resume, hr, henroll]

/-- A recovery makes and dismisses no client. -/
theorem clients_resume {s : Supervisor C} {stage : Supervisor.Stage C}
    (hr : stage.ofRecovery = true) (signal : Supervisor.Signal C) :
    (s.resume stage signal).supervisor.clients = s.clients := by
  cases stage with
  | republishGive fresh =>
    cases signal with
    | go =>
      simp only [Supervisor.resume]
      split <;> simp
    | _ => rfl
  | republishOpen waiting fresh => cases waiting <;> cases signal <;> rfl
  | probe => cases signal <;> rfl
  | pause => cases signal <;> rfl
  | _ => first | (cases signal <;> rfl) | cases hr

theorem registered_shutDown (p : Provider C) (k : Store) : p.shutDown.registered k = [] := by
  rw [registered, held_shutDown]
  cases p.held k <;> rfl

/-! ## One call -/

/-- A call gives profiles one after the other, or gives none and keeps those that are held. -/
theorem serve_cases (p : Provider C) (call : Call C) :
    p.serve call = ((p.beginEach call.plan).1, .ofResult (p.beginEach call.plan).2) ∨
      call.plan = [] ∧ (∀ k, (p.serve call).1.profile? k = p.profile? k) ∧
        ∀ e, (p.serve call).2 ≠ .refused e := by
  cases call with
  | begin k profile =>
    left
    rw [Call.plan, beginEach_singleton]
    rfl
  | beginAll s =>
    left
    rw [← beginAll_eq]
    rfl
  | client k opened =>
    refine .inr ⟨rfl, fun k' => ?_, fun e => Answer.noConfusion⟩
    by_cases hk : k' = k
    · subst hk
      cases hs : p.held k' with
      | none => rw [serve, ask_of_not_held hs]
      | some h =>
        obtain ⟨client, -, -, -, hheld⟩ := ask_of_held hs opened
        simp [serve, profile?, hs, hheld, enter_profile]
    · exact profile?_congr (held_ask_of_ne p opened hk)
  | shutDown =>
    refine .inr ⟨rfl, fun k' => ?_, fun e => Answer.noConfusion⟩
    rw [serve, profile?, held_shutDown, Option.map_map]
    rfl
  | recover k stage signal h =>
    refine .inr ⟨rfl, fun k' => ?_, fun e => Answer.noConfusion⟩
    by_cases hk : k' = k
    · subst hk
      rw [serve, profile?, held_steer_self, Option.map_map]
      rfl
    · exact profile?_congr (held_steer_of_ne p _ hk)

theorem profile?_serve (p : Provider C) (call : Call C) (k : Store) :
    (p.serve call).1.profile? k = (p.profile? k).or
      ((if allBefore k call.plan fun k' => ((p.serve call).1.profile? k').isSome
        then ofStore k call.plan else []).find? k.isValid) := by
  obtain he | ⟨hplan, hkeep, -⟩ := p.serve_cases call
  · rw [he]
    exact (begun_beginEach p call.plan).profile?_eq (ascends_plan call) k
  · simp [hplan, hkeep]

/-- Whether a call makes or dismisses clients of a store. -/
def Call.enlists : Call C → Store → Bool
  | .client k _, k' => k == k'
  | .shutDown, _ => true
  | _, _ => false

theorem registered_serve (p : Provider C) {call : Call C} {k : Store}
    (h : call.enlists k = false) : (p.serve call).1.registered k = p.registered k := by
  obtain he | ⟨hplan, -, -⟩ := p.serve_cases call
  · rw [he]
    exact (begun_beginEach p call.plan).registered_eq k
  · cases call with
    | begin k' profile => cases hplan
    | beginAll s => cases hplan
    | client k' opened =>
      have hne : k ≠ k' := by
        rintro rfl
        simp [Call.enlists] at h
      rw [registered, registered, serve, held_ask_of_ne p opened hne]
    | shutDown => cases h
    | recover k' stage signal hr =>
      by_cases hk : k = k'
      · subst hk
        rw [registered, registered, serve, held_steer_self]
        cases p.held k with
        | none => rfl
        | some h => exact clients_resume hr signal
      · rw [registered, registered, serve, held_steer_of_ne p _ hk]

/-! ## All calls -/

/-- The clients that are registered were drawn before. -/
def Numbered (p : Provider C) : Prop :=
  ∀ k, ∀ id ∈ p.registered k, id.number ≤ p.drawn

theorem Numbered.fresh {p : Provider C} (h : p.Numbered) (k : Store) :
    ⟨p.drawn + 1⟩ ∉ p.registered k := by
  intro hmem
  exact absurd (h k _ hmem) (by simp)

/-- A client that is made is registered at its store, behind those from before. -/
theorem registered_ask {p : Provider C} (hp : p.Numbered) {k : Store} {opened : Option C}
    {client : Client} (hm : (p.ask opened k).2 = some client) :
    client.id = ⟨p.drawn + 1⟩ ∧ (p.ask opened k).1.drawn = p.drawn + 1 ∧
      (p.ask opened k).1.registered k = p.registered k ++ [client.id] := by
  cases hs : p.held k with
  | none =>
    rw [ask_of_not_held hs] at hm
    cases hm
  | some h =>
    obtain ⟨client', hmade, hid, hdrawn, hheld⟩ := ask_of_held hs opened
    obtain rfl : client' = client := by rw [hmade] at hm; exact Option.some.inj hm
    have hfresh : client'.id ∉ h.supervisor.clients := by
      have hnot := hp.fresh k
      rw [registered, hs] at hnot
      rw [hid]
      exact hnot
    refine ⟨hid, hdrawn, ?_⟩
    rw [registered, registered, hs, hheld]
    exact clients_enter h opened hfresh

theorem drawn_le_serve (p : Provider C) (call : Call C) : p.drawn ≤ (p.serve call).1.drawn := by
  obtain he | ⟨hplan, -, -⟩ := p.serve_cases call
  · rw [he]
    exact Nat.le_of_eq (begun_beginEach p call.plan).drawn_eq.symm
  · cases call with
    | begin k profile => cases hplan
    | beginAll s => cases hplan
    | client k opened =>
      rw [serve]
      cases hs : p.held k with
      | none =>
        exact Nat.le_of_eq (by rw [ask_of_not_held hs])
      | some h =>
        obtain ⟨client, -, -, hdrawn, -⟩ := ask_of_held hs opened
        rw [hdrawn]
        exact Nat.le_succ _
    | shutDown => exact Nat.le_refl _
    | recover k stage signal hr => cases k <;> exact Nat.le_refl _

theorem Numbered.serve {p : Provider C} (hp : p.Numbered) (call : Call C) :
    (p.serve call).1.Numbered := by
  intro k id hid
  cases he : call.enlists k with
  | false =>
    rw [registered_serve p he] at hid
    exact Nat.le_trans (hp k id hid) (p.drawn_le_serve call)
  | true =>
    cases call with
    | client k' opened =>
      obtain rfl : k' = k := by simpa [Call.enlists] using he
      rw [Provider.serve] at hid ⊢
      cases hs : p.held k' with
      | none =>
        rw [ask_of_not_held hs] at hid ⊢
        exact hp k' id hid
      | some h =>
        obtain ⟨client, hmade, -⟩ := ask_of_held hs opened
        obtain ⟨hnew, hdrawn, hregistered⟩ := registered_ask hp hmade
        rw [hregistered] at hid
        rw [hdrawn]
        rcases List.mem_append.1 hid with hold | hlast
        · exact Nat.le_succ_of_le (hp k' id hold)
        · exact Nat.le_of_eq (by rw [List.mem_singleton.1 hlast, hnew])
    | shutDown =>
      rw [Provider.serve, registered_shutDown] at hid
      exact absurd hid List.not_mem_nil
    | _ => cases he

theorem numbered_run (canceled : Bool) (drawn : Nat) (calls : List (Call C)) :
    (run canceled drawn calls).Numbered := by
  induction calls using List.reverseRecOn with
  | nil =>
    intro k id hid
    cases k <;> cases hid
  | append_singleton calls call ih =>
    rw [run_concat]
    exact ih.serve call

/-- A store is held by the first valid profile that was offered for it. The induction is on the
calls; whether one of them comes to a store depends on the stores before it. -/
theorem profile?_run (canceled : Bool) (drawn : Nat) (calls : List (Call C)) (k : Store) :
    (run canceled drawn calls).profile? k = (offers k calls).find? k.isValid := by
  induction hk : k.place using Nat.strongRecOn generalizing k calls with
  | ind place earlier =>
    subst hk
    induction calls using List.reverseRecOn with
    | nil => cases k <;> simp [run, profile?, held]
    | append_singleton calls call ih =>
      have hreach : (allBefore k call.plan fun k' =>
          ((run canceled drawn (calls ++ [call])).profile? k').isSome) = reaches k calls call := by
        apply allBefore_congr
        intro k' hlt
        rw [earlier k'.place hlt (calls ++ [call]) k' rfl, Bool.eq_iff_iff, List.find?_isSome,
          List.any_eq_true]
      rw [run_concat] at hreach ⊢
      rw [profile?_serve, ih, hreach, offers_concat, List.find?_append]

/-- How a provider gets what it holds, and what becomes of it. -/
structure FirstValid (calls : List (Call C)) (p : Provider C) : Prop where
  /-- A store is held by the first valid profile that was offered for it, and not before. -/
  first : ∀ k, p.profile? k = (offers k calls).find? k.isValid
  /-- What is held keeps its profile through every call, -/
  lasting : ∀ k profile call, p.profile? k = some profile →
    (p.serve call).1.profile? k = some profile
  /-- and is not touched at all when profiles are given. -/
  spared : ∀ k call, (p.held k).isSome = true → call.plan ≠ [] →
    (p.serve call).1.held k = p.held k
  /-- A call is refused for one profile of a store that is not held. That store and the later ones
  are left alone. -/
  refusal : ∀ call e, (p.serve call).2 = .refused e →
    ∃ (k : Store) (profile : k.Profile), ⟨k, profile⟩ ∈ call.plan ∧ k.check profile = .error e ∧
      p.held k = none ∧ ∀ k' : Store, k.place ≤ k'.place → (p.serve call).1.held k' = p.held k'
  /-- A client is made if and only if its store is held. -/
  made : ∀ k opened, (p.ask opened k).2.isSome = (p.held k).isSome
  /-- A client that is not made changes nothing. -/
  unmade : ∀ k opened, (p.ask opened k).2 = none → (p.ask opened k).1 = p
  /-- A client that is made is a new one and adds one registration, at the supervisor of its
  store. -/
  registered : ∀ k opened client, (p.ask opened k).2 = some client →
    (∀ k', client.id ∉ p.registered k') ∧
      (p.ask opened k).1.registered k = p.registered k ++ [client.id] ∧
        ∀ k', k' ≠ k → (p.ask opened k).1.held k' = p.held k'
  /-- Nothing else registers a client, and only shutting down takes registrations away. -/
  unregistered : ∀ k call, call.enlists k = false →
    (p.serve call).1.registered k = p.registered k

/-- The first valid profile wins, whatever is asked of a provider. -/
theorem firstValid_run (canceled : Bool) (drawn : Nat) (calls : List (Call C)) :
    FirstValid calls (run canceled drawn calls) := by
  have hnumbered := numbered_run (C := C) canceled drawn calls
  refine ⟨profile?_run canceled drawn calls, ?_, ?_, ?_, ?_, ?_, ?_, ?_⟩
  · intro k profile call hs
    rw [profile?_serve, hs]
    rfl
  · intro k call hs hplan
    obtain he | ⟨hnil, -⟩ := serve_cases (run canceled drawn calls) call
    · rw [he]
      exact (begun_beginEach _ call.plan).held_eq (.inl hs)
    · exact absurd hnil hplan
  · intro call e hrefused
    obtain he | ⟨-, -, hnot⟩ := serve_cases (run canceled drawn calls) call
    · rw [he] at hrefused ⊢
      exact (begun_beginEach _ call.plan).refusal (ascends_plan call)
        (Answer.ofResult_eq_refused.1 hrefused)
    · exact absurd hrefused (hnot e)
  · intro k opened
    cases hs : (run canceled drawn calls).held k with
    | none =>
      rw [ask_of_not_held hs]
      rfl
    | some h =>
      obtain ⟨client, hmade, -⟩ := ask_of_held hs opened
      rw [hmade]
      rfl
  · intro k opened hnone
    cases hs : (run canceled drawn calls).held k with
    | none => rw [ask_of_not_held hs]
    | some h =>
      obtain ⟨client, hmade, -⟩ := ask_of_held hs opened
      rw [hmade] at hnone
      cases hnone
  · intro k opened client hmade
    obtain ⟨hid, -, hregistered⟩ := registered_ask hnumbered hmade
    refine ⟨fun k' => ?_, hregistered, fun k' hne => held_ask_of_ne _ opened hne⟩
    rw [hid]
    exact hnumbered.fresh k'
  · intro k call hn
    exact registered_serve _ hn

end Reconnect.Provider
