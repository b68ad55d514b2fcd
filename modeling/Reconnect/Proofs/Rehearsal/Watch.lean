import Reconnect.Proofs.Rehearsal.Offered

/-!
# Calls on locks that fail

A call on a lock is watched among any others over one store. Beside it, locks are made, other calls
begin, take steps and are dropped, the world fades, and strangers write entries of their own to the
store (`Watch`). All steps of the watched call are kept, from world to world.

A call that has failed has left no trace (`traceless_run`). No step of an acquisition has changed
what a key holds, or of any lock more than whether an acquisition of it is under way; that is over,
unless it was another one that was under way; and no key holds the token that was drawn for it, then
or later. No step of a release has changed anything.
-/

namespace Reconnect.Rehearsal

open Cache

/-! ## A call that is watched -/

/-- A call that is watched among others. While it is under way it stands in front of them. -/
structure Watch where
  tenancy : Tenancy
  /-- The worlds before and after each of its steps. -/
  steps : List (VaultWorld × VaultWorld) := []
  /-- How it has ended. -/
  result : Option VaultResult := none

namespace Watch

/-- What can happen next. -/
inductive Move where
  /-- The call takes a step. -/
  | own (opens : Bool)
  /-- Something happens to locks, other calls or the world. -/
  | other (m : Tenancy.Move)
  /-- Strangers write to the store. -/
  | accrue (f : VaultWorld → VaultWorld)
    (hf : ∀ w, Accrues w (f w) ∧ (f w).site.locks = w.site.locks)

/-- A move of calls that stand behind one more. -/
def behind : Tenancy.Move → Tenancy.Move
  | .go place opens => .go (place + 1) opens
  | .drop place => .drop (place + 1)
  | m => m

/-- The result of a step that is the last one. -/
def resultOf : Step VaultCall VaultResult → Option VaultResult
  | .ends result => some result
  | .waits _ | .moves _ => none

/-- One move. A call that has ended takes no step. -/
def step (y : Watch) : Move → Watch
  | .own opens =>
    match y.result, y.tenancy.calls with
    | none, call :: _ =>
      let r := vaultMachine.step y.tenancy.world opens call
      { tenancy := y.tenancy.step (.go 0 opens)
        steps := y.steps ++ [(y.tenancy.world, r.1)]
        result := resultOf r.2 }
    | _, _ => y
  | .other m => { y with tenancy := y.tenancy.step (if y.result.isNone then behind m else m) }
  | .accrue f _ => { y with tenancy := { y.tenancy with world := f y.tenancy.world } }

/-- The error with which the call has ended, if it is one on a lock. -/
def error? (y : Watch) : Option (LockError Fault) :=
  match y.result with
  | some (.lock (.error e)) => some e
  | _ => none

/-- A watch before there is a call to watch. -/
def idle (w : VaultWorld) : Watch := { tenancy := Tenancy.start w, result := some .done }

/-- A call begins, and is watched from now on. -/
def follow (y : Watch) (call : VaultCall) : Watch :=
  { tenancy := { y.tenancy with calls := call :: y.tenancy.calls } }

/-- The watch that some moves lead to. -/
def run (y : Watch) (moves : List Move) : Watch := moves.foldl step y

/-- Tokens that are offered are offered once, and are not written yet. -/
def Sound (y : Watch) : Prop := Issued y.tenancy.world y.tenancy.stances

/-! ## What any move keeps -/

variable {y : Watch}

/-- What a move makes of the locks, the calls and the store: a move of all calls, or entries of
strangers. -/
theorem moves_or_accrues (y : Watch) (m : Move) :
    Tenancy.Moves y.tenancy (y.step m).tenancy ∨
      Accrues y.tenancy.world (y.step m).tenancy.world ∧
        (y.step m).tenancy.stances = y.tenancy.stances := by
  cases m with
  | own opens =>
    rw [step]
    split
    · exact .inl (y.tenancy.moves_step (.go 0 opens))
    · exact .inr ⟨.of_subset (Nat.le_refl _) (List.Subset.refl _), rfl⟩
  | other m => exact .inl (y.tenancy.moves_step _)
  | accrue f hf => exact .inr ⟨(hf y.tenancy.world).1, rfl⟩

theorem Sound.step (h : y.Sound) (m : Move) : (y.step m).Sound := by
  rcases y.moves_or_accrues m with hm | ⟨hw, hs⟩
  · exact issued_moves h hm
  · rw [Sound, hs]
    exact Issued.accrues h hw

theorem spent_step {token : String} (h : Spent token y.tenancy.world y.tenancy.stances) (m : Move) :
    Spent token (y.step m).tenancy.world (y.step m).tenancy.stances := by
  rcases y.moves_or_accrues m with hm | ⟨hw, hs⟩
  · exact spent_moves h hm
  · rw [hs]
    exact h.accrues hw

/-- What every move keeps holds in every watch. -/
theorem run_induction {P : Watch → Prop} (moves : List Move) (hs : P y)
    (hm : ∀ y m, P y → P (y.step m)) : P (y.run moves) :=
  List.foldlRecOn moves step hs fun y h m _ => hm y m h

theorem sound_idle (w : VaultWorld) : (idle w).Sound := ⟨nofun, List.nodup_nil, nofun, nofun⟩

theorem Sound.run (h : y.Sound) (moves : List Move) : (y.run moves).Sound :=
  run_induction moves h fun _ m h => h.step m

theorem Sound.follow (h : y.Sound) {call : VaultCall}
    (hf : call.stance.isFirst y.tenancy.world.site.locks.length = true) :
    (y.follow call).Sound := by
  have hconcat : Issued y.tenancy.world (y.tenancy.stances ++ [call.stance]) := by
    apply Issued.sublist h
    rw [offeredBy_concat hf]
  exact hconcat.perm (List.perm_append_singleton _ _)

/-- Calls that stand behind one more leave it in front. -/
theorem calls_behind {y : Tenancy} {call : VaultCall} {others : List VaultCall}
    (h : y.calls = call :: others) (m : Tenancy.Move) :
    ∃ others', (y.step (behind m)).calls = call :: others' := by
  cases m with
  | make resources => exact ⟨others, h⟩
  | begin call' =>
    simp only [behind, Tenancy.step]
    split
    · exact ⟨others ++ [call'], by rw [h]; rfl⟩
    · exact ⟨others, h⟩
  | go place opens =>
    simp only [behind, Tenancy.step]
    split
    · exact ⟨others, h⟩
    · rw [Tenancy.advance, h]
      exact ⟨_, rfl⟩
  | drop place => exact ⟨others.eraseIdx place, by rw [behind, Tenancy.step, h]; rfl⟩
  | fade f hf => exact ⟨others, h⟩

/-- A step of the call that stands in front. -/
theorem step_first {y : Tenancy} {call : VaultCall} {others : List VaultCall}
    (h : y.calls = call :: others) (opens : Bool) :
    y.step (.go 0 opens) = y.advance [] call others opens := by
  simp only [Tenancy.step, h]
  rfl

end Watch

/-! ## Acquisitions that fail -/

/-- Nothing has happened to what the keys hold, nor to the locks, but that an acquisition of one
lock may have begun or come to its end. -/
structure Harmless (lock : Nat) (w w' : VaultWorld) : Prop where
  held : ∀ key, w'.site.store.held? key = w.site.store.held? key
  own : lockAt w' lock = { lockAt w lock with acquiring := (lockAt w' lock).acquiring }
  others : ∀ i, i ≠ lock → lockAt w' i = lockAt w i

namespace Harmless

variable {lock : Nat} {w w' : VaultWorld}

theorem of_quiet (h : Quiet w w') : Harmless lock w w' where
  held := h.held
  own := by rw [h.lockAt]
  others i _ := h.lockAt i

theorem changeLock (h : Harmless lock w w') {f : Lock → Lock}
    (hf : ∀ l, f l = { l with acquiring := (f l).acquiring }) :
    Harmless lock w (changeLock w' lock f) where
  held := h.held
  own := by
    rw [lockAt_changeLock]
    split
    · rw [hf, h.own]
    · exact h.own
  others i hi := by
    rw [lockAt_changeLock, if_neg fun hc => hi hc.1.symm]
    exact h.others i hi

theorem draw (lock : Nat) (w : VaultWorld) : Harmless lock w w.draw.1 :=
  ⟨fun _ => rfl, rfl, fun _ _ => rfl⟩

end Harmless

/-- Once an acquisition has been given up, none is under way. -/
theorem acquiring_giveUp (w : VaultWorld) (lock : Nat) :
    (lockAt (changeLock w lock Lock.giveUp) lock).acquiring = false := by
  rw [lockAt_changeLock]
  split
  case isTrue => rfl
  case isFalse hl =>
    have hle : w.site.locks.length ≤ lock := Nat.le_of_not_lt fun hlt => hl ⟨rfl, hlt⟩
    rw [lockAt, List.getD_eq_getElem?_getD, List.getElem?_eq_none hle]
    rfl

/-- What one step of an acquisition does, unless it is granted. -/
inductive Tries (a : Acquisition Unit) (w w' : VaultWorld) :
    Step (Acquisition Unit) (Except (LockError Fault) Unit) → Prop
  | granted : Tries a w w' (.ends (.ok ()))
  | busy (hp : a.phase = .entering) (hw : w' = w) :
      Tries a w w' (.ends (.error .locksAlreadyAcquired))
  /-- It has drawn a token and goes on. -/
  | begins {a' : Acquisition Unit} (hp : a.phase = .entering) (hh : Harmless a.lock w w')
      (hl : a'.lock = a.lock) (hp' : a'.phase ≠ .entering) (ht : a'.token = w.draw.2.text) :
      Tries a w w' (.moves a')
  | goesOn {a' : Acquisition Unit}
      {s : Step (Acquisition Unit) (Except (LockError Fault) Unit)}
      (hs : s = .waits a' ∨ s = .moves a') (hp : a.phase ≠ .entering) (hq : Quiet w w')
      (hl : a'.lock = a.lock) (hp' : a'.phase ≠ .entering) (ht : a'.token = a.token) :
      Tries a w w' s
  /-- It is canceled as it begins, with a token that it has drawn. -/
  | refused {e : LockError Fault} (he : e ≠ .locksAlreadyAcquired) (hp : a.phase = .entering)
      (hh : Harmless a.lock w w') (hw : Accrues w.draw.1 w')
      (hi : (lockAt w' a.lock).acquiring = false) : Tries a w w' (.ends (.error e))
  | fails {e : LockError Fault} (he : e ≠ .locksAlreadyAcquired) (hp : a.phase ≠ .entering)
      (hh : Harmless a.lock w w') (hd : w'.drawn = w.drawn) (hw : Accrues w w')
      (hi : (lockAt w' a.lock).acquiring = false) : Tries a w w' (.ends (.error e))

theorem tries_of_goes {a : Acquisition Unit} {w w' : VaultWorld} {opens : Bool}
    {s : Step (Acquisition Unit) (Except (LockError Fault) Unit)} (h : a.Goes w opens w' s) :
    Tries a w w' s := by
  have hphase : ∀ {phase}, a.phase = phase → phase ≠ .entering → a.phase ≠ .entering := by
    rintro _ rfl hne
    exact hne
  have hgiveUp : ∀ {w₁ : VaultWorld} {e : LockError Fault}, Quiet w w₁ → a.phase ≠ .entering →
      e ≠ .locksAlreadyAcquired →
      Tries a w (changeLock w₁ a.lock Lock.giveUp) (.ends (.error e)) := by
    intro w₁ e hq hp he
    refine .fails he hp ((Harmless.of_quiet hq).changeLock fun _ => rfl) hq.drawn ?_ ?_
    · exact (Accrues.of_quiet hq).changeLock _ _
    · exact acquiring_giveUp w₁ a.lock
  cases h with
  | busy hp => exact .busy hp rfl
  | enterStopped hp =>
    refine .refused nofun hp ?_ ?_ ?_
    · exact ((Harmless.draw a.lock w).changeLock fun _ => rfl).changeLock fun _ => rfl
    · exact .of_subset (Nat.le_refl _) (List.Subset.refl _)
    · exact acquiring_giveUp _ a.lock
  | enter hp =>
    exact .begins hp ((Harmless.draw a.lock w).changeLock fun _ => rfl) rfl nofun rfl
  | stop hp => exact hgiveUp (.refl w) hp nofun
  | expire hp => exact hgiveUp (.refl w) (hphase hp nofun) nofun
  | ask hp => exact .goesOn (.inr rfl) (hphase hp nofun) (.refl w) rfl nofun rfl
  | askWaits hp _ he =>
    exact .goesOn (.inl rfl) (hphase hp nofun) (quiet_of_offer he nofun) rfl nofun rfl
  | askMoves hp _ he =>
    exact .goesOn (.inr rfl) (hphase hp nofun) (quiet_of_offer he nofun) rfl nofun rfl
  | take => exact .granted
  | takeNot hp _ he =>
    have hq := (quiet_of_offer he fun n => by simp).trans (.roll _)
    exact .goesOn (.inr rfl) (hphase hp nofun) hq rfl nofun rfl
  | outOfTime hp _ he =>
    exact hgiveUp (quiet_of_offer he fun n => by simp) (hphase hp nofun) nofun
  | askFailed hp _ he =>
    exact hgiveUp (quiet_of_offer he fun n => by simp) (hphase hp nofun) nofun
  | wake hp => exact .goesOn (.inr rfl) (hphase hp nofun) (.refl w) rfl nofun rfl
  | rest hp => exact .goesOn (.inl rfl) (hphase hp nofun) (.refl w) rfl (hphase hp nofun) rfl

namespace Watch

/-- The tokens that some steps have drawn. -/
def drawnBy (steps : List (VaultWorld × VaultWorld)) : List String :=
  (steps.filter fun s => s.1.drawn < s.2.drawn).map fun s => s.1.draw.2.text

theorem mem_drawnBy_concat {token : String} {steps : List (VaultWorld × VaultWorld)}
    {w w' : VaultWorld} :
    token ∈ drawnBy (steps ++ [(w, w')]) ↔
      token ∈ drawnBy steps ∨ w.drawn < w'.drawn ∧ token = w.draw.2.text := by
  rw [drawnBy, List.filter_append, List.map_append, List.mem_append]
  refine or_congr Iff.rfl ?_
  by_cases hd : w.drawn < w'.drawn <;> simp [hd]

/-- A step of the call that is watched. -/
theorem step_own {y : Watch} {call : VaultCall} {others : List VaultCall} (hr : y.result = none)
    (hc : y.tenancy.calls = call :: others) (opens : Bool) :
    y.step (.own opens) =
      { tenancy := y.tenancy.advance [] call others opens
        steps := y.steps ++ [(y.tenancy.world, (vaultMachine.step y.tenancy.world opens call).1)]
        result := resultOf (vaultMachine.step y.tenancy.world opens call).2 } := by
  simp only [step, hr, hc, step_first hc]

/-- Once the call has ended, no more of its steps are seen, nor another result. -/
theorem step_of_result {y : Watch} (h : y.result ≠ none) (m : Move) :
    (y.step m).steps = y.steps ∧ (y.step m).result = y.result := by
  cases m with
  | own opens =>
    cases hr : y.result with
    | none => exact absurd hr h
    | some result =>
      have hstep : y.step (.own opens) = y := by simp only [step, hr]
      rw [hstep]
      exact ⟨rfl, hr⟩
  | other m => exact ⟨rfl, rfl⟩
  | accrue f hf => exact ⟨rfl, rfl⟩

/-- Whatever happens beside a call that is under way leaves it in front. -/
theorem step_beside {y : Watch} {call : VaultCall} {others : List VaultCall} (hr : y.result = none)
    (hc : y.tenancy.calls = call :: others) (m : Move) (hm : ∀ opens, m ≠ .own opens) :
    (y.step m).result = none ∧ (y.step m).steps = y.steps ∧
      ∃ others', (y.step m).tenancy.calls = call :: others' := by
  cases m with
  | own opens => exact absurd rfl (hm opens)
  | other m =>
    refine ⟨hr, rfl, ?_⟩
    simp only [step, hr, Option.isNone_none, if_true]
    exact calls_behind hc m
  | accrue f hf => exact ⟨hr, rfl, others, hc⟩

/-- How far an acquisition that is watched has come. -/
inductive Acquiring (lock : Nat) (y : Watch) : Prop
  | entering {a : Acquisition Unit} {others : List VaultCall} (hr : y.result = none)
      (hc : y.tenancy.calls = .acquire a :: others) (hl : a.lock = lock)
      (hp : a.phase = .entering) (hs : y.steps = [])
  | underway {a : Acquisition Unit} {others : List VaultCall} (hr : y.result = none)
      (hc : y.tenancy.calls = .acquire a :: others) (hl : a.lock = lock)
      (hp : a.phase ≠ .entering) (hh : ∀ s ∈ y.steps, Harmless lock s.1 s.2)
      (ht : ∀ token ∈ drawnBy y.steps, token = a.token)
  | granted (hr : y.result = some (.lock (.ok ())))
  | busy {w : VaultWorld} (hr : y.result = some (.lock (.error .locksAlreadyAcquired)))
      (hs : y.steps = [(w, w)])
  | failed {e : LockError Fault} {s : VaultWorld × VaultWorld} (he : e ≠ .locksAlreadyAcquired)
      (hr : y.result = some (.lock (.error e))) (hh : ∀ s ∈ y.steps, Harmless lock s.1 s.2)
      (ht : ∀ token ∈ drawnBy y.steps, Spent token y.tenancy.world y.tenancy.stances)
      (hl : y.steps.getLast? = some s) (hi : (lockAt s.2 lock).acquiring = false)

/-- A step of an acquisition that is watched. -/
theorem Acquiring.own {y : Watch} {a : Acquisition Unit} {others : List VaultCall}
    (hy : y.Sound) (hr : y.result = none) (hc : y.tenancy.calls = .acquire a :: others)
    (hh : ∀ s ∈ y.steps, Harmless a.lock s.1 s.2)
    (he : a.phase = .entering → y.steps = [])
    (ht : a.phase ≠ .entering → ∀ token ∈ drawnBy y.steps, token = a.token) (opens : Bool) :
    (y.step (.own opens)).Acquiring a.lock := by
  have hissued : Issued y.tenancy.world (stanceOfAcquisition a :: others.map VaultCall.stance) := by
    have h : Issued y.tenancy.world (y.tenancy.calls.map VaultCall.stance) := hy
    rw [hc] at h
    exact h
  have htries := tries_of_goes (a.goes_step y.tenancy.world opens)
  have hharmless : ∀ {w'}, Harmless a.lock y.tenancy.world w' →
      ∀ s ∈ y.steps ++ [(y.tenancy.world, w')], Harmless a.lock s.1 s.2 := by
    intro w' hw s hs
    rcases List.mem_append.1 hs with hs | hs
    · exact hh s hs
    · obtain rfl := List.mem_singleton.1 hs
      exact hw
  rw [step_own hr hc]
  simp only [vaultMachine, Tenancy.advance]
  generalize a.step y.tenancy.world opens = r at htries ⊢
  obtain ⟨w', s⟩ := r
  cases htries with
  | granted => exact .granted rfl
  | busy hp hw =>
    obtain rfl : w' = _ := hw
    refine .busy (w := y.tenancy.world) rfl ?_
    rw [he hp]
    rfl
  | begins hp hw hl hp' htoken =>
    refine .underway rfl rfl hl hp' (hharmless hw) ?_
    intro token hm
    rw [he hp] at hm
    rcases mem_drawnBy_concat.1 hm with hm | ⟨-, rfl⟩
    · cases hm
    · exact htoken.symm
  | goesOn hs hp hq hl hp' htoken =>
    have hdrawn : ∀ token ∈ drawnBy (y.steps ++ [(y.tenancy.world, w')]), token = a.token := by
      intro token hm
      rcases mem_drawnBy_concat.1 hm with hm | ⟨hlt, -⟩
      · exact ht hp token hm
      · exact absurd hq.drawn (Nat.ne_of_gt hlt)
    rw [← htoken] at hdrawn
    rcases hs with rfl | rfl
    · exact .underway rfl rfl hl hp' (hharmless (.of_quiet hq)) hdrawn
    · exact .underway rfl rfl hl hp' (hharmless (.of_quiet hq)) hdrawn
  | refused hne hp hw haccrues hi =>
    refine .failed hne rfl (hharmless hw) ?_ List.getLast?_concat hi
    intro token hm
    rw [he hp] at hm
    rcases mem_drawnBy_concat.1 hm with hm | ⟨-, rfl⟩
    · cases hm
    · exact hissued.tail.fresh.accrues haccrues
  | fails hne hp hw hd haccrues hi =>
    refine .failed hne rfl (hharmless hw) ?_ List.getLast?_concat hi
    have hoffers : (stanceOfAcquisition a).token? = some a.token := by
      unfold stanceOfAcquisition
      split
      · contradiction
      · rfl
    intro token hm
    rcases mem_drawnBy_concat.1 hm with hm | ⟨hlt, -⟩
    · rw [ht hp token hm]
      exact (hissued.spent hoffers).accrues haccrues
    · exact absurd hd (Nat.ne_of_gt hlt)

theorem Acquiring.step {lock : Nat} {y : Watch} (h : y.Acquiring lock) (hy : y.Sound) (m : Move) :
    (y.step m).Acquiring lock := by
  cases h with
  | entering hr hc hl hp hs =>
    by_cases hm : ∃ opens, m = .own opens
    · obtain ⟨opens, rfl⟩ := hm
      refine hl ▸ .own hy hr hc ?_ (fun _ => hs) (absurd hp) opens
      rw [hs]
      exact List.forall_mem_nil _
    · obtain ⟨hr', hs', others', hc'⟩ := step_beside hr hc m fun opens he => hm ⟨opens, he⟩
      exact .entering hr' hc' hl hp (hs'.trans hs)
  | underway hr hc hl hp hh ht =>
    by_cases hm : ∃ opens, m = .own opens
    · obtain ⟨opens, rfl⟩ := hm
      subst hl
      exact .own hy hr hc hh (fun he => absurd he hp) (fun _ => ht) opens
    · obtain ⟨hr', hs', others', hc'⟩ := step_beside hr hc m fun opens he => hm ⟨opens, he⟩
      rw [← hs'] at hh ht
      exact .underway hr' hc' hl hp hh ht
  | granted hr =>
    obtain ⟨-, hr'⟩ := step_of_result (by rw [hr]; nofun) m
    exact .granted (hr'.trans hr)
  | busy hr hs =>
    obtain ⟨hs', hr'⟩ := step_of_result (by rw [hr]; nofun) m
    exact .busy (hr'.trans hr) (hs'.trans hs)
  | failed he hr hh ht hl hi =>
    obtain ⟨hs', hr'⟩ := step_of_result (by rw [hr]; nofun) m
    rw [← hs'] at hh ht hl
    exact .failed he (hr'.trans hr) hh (fun token hm => spent_step (ht token hm) m) hl hi

/-- How far a release that is watched has come. -/
inductive Releasing (y : Watch) : Prop
  | underway {r : Release Unit} {others : List VaultCall} (hr : y.result = none)
      (hc : y.tenancy.calls = .release r :: others) (hq : ∀ s ∈ y.steps, Quiet s.1 s.2)
  | answered (hr : y.result = some (.lock (.ok ())))
  | failed {e : LockError Fault} (hr : y.result = some (.lock (.error e)))
      (hq : ∀ s ∈ y.steps, Quiet s.1 s.2)

/-- A step of a release is quiet, unless the store answers it. -/
theorem quiet_of_release {r : Release Unit} {w w' : VaultWorld} {opens : Bool}
    {s : Step (Release Unit) (Except (LockError Fault) Unit)} (h : r.Goes w opens w' s)
    (hs : s ≠ .ends (.ok ())) : Quiet w w' := by
  cases h with
  | stop => exact .refl w
  | notHeld => exact .refl w
  | enter => exact .refl w
  | askWaits _ _ he => exact quiet_of_dropping he nofun
  | askMoves _ _ he => exact quiet_of_dropping he nofun
  | leave => exact absurd rfl hs
  | askFailed _ _ he => exact quiet_of_dropping he fun n dropped => by simp

theorem Releasing.own {y : Watch} {r : Release Unit} {others : List VaultCall}
    (hr : y.result = none) (hc : y.tenancy.calls = .release r :: others)
    (hq : ∀ s ∈ y.steps, Quiet s.1 s.2) (opens : Bool) : (y.step (.own opens)).Releasing := by
  have hgoes := quiet_of_release (r.goes_step y.tenancy.world opens)
  have hquiet : ∀ {w'}, Quiet y.tenancy.world w' →
      ∀ s ∈ y.steps ++ [(y.tenancy.world, w')], Quiet s.1 s.2 := by
    intro w' hw s hs
    rcases List.mem_append.1 hs with hs | hs
    · exact hq s hs
    · obtain rfl := List.mem_singleton.1 hs
      exact hw
  rw [step_own hr hc]
  simp only [vaultMachine, Tenancy.advance]
  generalize r.step y.tenancy.world opens = t at hgoes ⊢
  rcases t with ⟨w', r' | r' | (e | _)⟩
  · exact .underway rfl rfl (hquiet (hgoes (by simp)))
  · exact .underway rfl rfl (hquiet (hgoes (by simp)))
  · exact .failed rfl (hquiet (hgoes (by simp)))
  · exact .answered rfl

theorem Releasing.step {y : Watch} (h : y.Releasing) (m : Move) : (y.step m).Releasing := by
  cases h with
  | underway hr hc hq =>
    by_cases hm : ∃ opens, m = .own opens
    · obtain ⟨opens, rfl⟩ := hm
      exact .own hr hc hq opens
    · obtain ⟨hr', hs', others', hc'⟩ := step_beside hr hc m fun opens he => hm ⟨opens, he⟩
      rw [← hs'] at hq
      exact .underway hr' hc' hq
  | answered hr =>
    obtain ⟨-, hr'⟩ := step_of_result (by rw [hr]; nofun) m
    exact .answered (hr'.trans hr)
  | failed hr hq =>
    obtain ⟨hs', hr'⟩ := step_of_result (by rw [hr]; nofun) m
    rw [← hs'] at hq
    exact .failed (hr'.trans hr) hq

/-! ## No trace is left -/

/-- What an acquisition of a lock has left that has failed with an error. -/
structure NoTrace (lock : Nat) (e : LockError Fault) (y : Watch) : Prop where
  harmless : ∀ s ∈ y.steps, Harmless lock s.1 s.2
  /-- No key holds a token that was drawn for it. -/
  untraced : ∀ token ∈ drawnBy y.steps, ∀ key entry,
    y.tenancy.world.site.store.held? key = some entry → entry.token ≠ token
  /-- If the lock was held, or an acquisition of it was under way, the world is as it was. -/
  busy : e = .locksAlreadyAcquired → ∀ s ∈ y.steps, s.2 = s.1
  /-- Otherwise none is under way any more. -/
  idle : e ≠ .locksAlreadyAcquired →
    ∃ s, y.steps.getLast? = some s ∧ (lockAt s.2 lock).acquiring = false

theorem error?_of_result {y : Watch} {result : Option VaultResult} (h : y.result = result) :
    y.error? = error? { y with result } := by rw [← h]

theorem Acquiring.noTrace {lock : Nat} {y : Watch} {e : LockError Fault} (h : y.Acquiring lock)
    (he : y.error? = some e) : y.NoTrace lock e := by
  cases h with
  | entering hr => cases (error?_of_result hr).symm.trans he
  | underway hr => cases (error?_of_result hr).symm.trans he
  | granted hr => cases (error?_of_result hr).symm.trans he
  | @busy w hr hs =>
    cases (error?_of_result hr).symm.trans he
    have hsame : ∀ s ∈ y.steps, s = (w, w) := by
      rw [hs]
      exact fun s => List.mem_singleton.1
    refine ⟨?_, ?_, ?_, absurd rfl⟩
    · intro s hm
      rw [hsame s hm]
      exact .of_quiet (.refl w)
    · rw [hs, drawnBy]
      simp
    · intro _ s hm
      rw [hsame s hm]
  | @failed _ s hne hr hh ht hl hi =>
    cases (error?_of_result hr).symm.trans he
    refine ⟨hh, ?_, fun hb => absurd hb hne, fun _ => ⟨s, hl, hi⟩⟩
    intro token hm key entry hheld
    exact (ht token hm).unwritten _ (Vault.mem_entries_of_held? _ hheld)

/-- What a call has left that has failed. -/
structure Traceless (call : VaultCall) (y : Watch) : Prop where
  acquisition : ∀ a e, call = .acquire a → y.error? = some e → y.NoTrace a.lock e
  /-- A release has dropped nothing, and all locks are as they were. -/
  release : ∀ r e, call = .release r → y.error? = some e → ∀ s ∈ y.steps, Quiet s.1 s.2

/-- A call on a lock that fails leaves no trace, whatever happens before it and beside it. -/
theorem traceless_run (w : VaultWorld) (before : List Move) (call : VaultCall)
    (hf : call.stance.isFirst ((idle w).run before).tenancy.world.site.locks.length = true)
    (moves : List Move) : ((((idle w).run before).follow call).run moves).Traceless call := by
  constructor
  case acquisition =>
    rintro a e rfl he
    have hentering : a.phase = .entering := by
      cases hp : a.phase with
      | entering => rfl
      | _ => simp [VaultCall.stance, VaultCall.acquisition?, stanceOfAcquisition, hp,
          Stance.isFirst] at hf
    have hstart : (((idle w).run before).follow (.acquire a)).Sound :=
      ((sound_idle w).run before).follow hf
    have hrun := run_induction (P := fun y => y.Sound ∧ y.Acquiring a.lock) moves
      ⟨hstart, .entering rfl rfl rfl hentering rfl⟩ fun y m h => ⟨h.1.step m, h.2.step h.1 m⟩
    exact hrun.2.noTrace he
  case release =>
    rintro r e rfl he
    have hrun := run_induction (P := Releasing) moves
      (.underway (y := ((idle w).run before).follow (.release r)) rfl rfl (List.forall_mem_nil _))
      fun y m h => h.step m
    cases hrun with
    | underway hr => cases (error?_of_result hr).symm.trans he
    | answered hr => cases (error?_of_result hr).symm.trans he
    | failed _ hq => exact hq

theorem guest_ne_text (n : Nat) : "guest" ≠ Identifier.text ⟨n⟩ := by
  intro h
  have hlist := congrArg String.toList h
  rw [Identifier.toList_text] at hlist
  exact absurd (List.cons.inj hlist).1 (by decide)

/-- A stranger holds the key of a lock. The attempt to acquire the lock is answered, and after a
pause the time is up. -/
theorem traceless_contended :
    let call : VaultCall := .acquire { client := Tenancy.soleClient, context := none, lock := 0 }
    ∃ before moves,
      let y := (((idle Tenancy.soleWorld).run before).follow call).run moves
      y.error? = some .lockAcquireTimeout ∧
        (y.steps.length, drawnBy y.steps, y.tenancy.world.site.store.value? (lockKey "a")) =
          (7, [Identifier.text ⟨1⟩], some "guest") ∧
        y.NoTrace 0 .lockAcquireTimeout := by
  intro call
  let before : List Move :=
    [.other (.make ["a"]), .accrue _ fun w => ⟨.put w [lockKey "a"] 9999 guest_ne_text, rfl⟩]
  let moves : List Move :=
    List.replicate 5 (.own true) ++ [.other (.wait 20000)] ++ List.replicate 2 (.own true)
  have htraceless := traceless_run Tenancy.soleWorld before call rfl moves
  have herror : ((((idle Tenancy.soleWorld).run before).follow call).run moves).error? =
      some .lockAcquireTimeout := by decide +kernel
  refine ⟨before, moves, herror, ?_, htraceless.acquisition _ _ rfl herror⟩
  decide +kernel

end Watch

end Reconnect.Rehearsal
