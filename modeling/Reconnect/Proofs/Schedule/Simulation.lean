import Reconnect.Proofs.Schedule.Errand
import Reconnect.Proofs.Supervisor.Coverage

/-!
# Errands are an interplay

The calls of a supervisor run as errands in a world, where a stage goes on with what the site
answers, what the clock shows and whether the context of the world is canceled. `Follows` relates
the errands of one world to the tasks of an interplay. In whatever order errands take their steps,
the interplay can follow them, move by move: so what holds of every interplay holds of the
supervisor of the world.
-/

namespace Reconnect

open Supervisor
open scoped List

variable {S C : Type} [Site S C]

namespace Errand

/-- The stage before which an errand stands. -/
def stage : Errand C → Stage C
  | .ready stage => stage
  | .opening stage _ _ => stage
  | .asking stage _ _ => stage
  | .resting stage _ => stage

/-- Whether an errand waits for what its stage needs. -/
def Fits : Errand C → Prop
  | .ready _ => True
  | .opening stage _ _ => stage.need = .connection
  | .asking stage _ _ => ∃ c, stage.need = .answer c
  | .resting stage _ => stage.need = .rest

/-- What a step of an errand comes to: it stays before its stage, or the stage goes on with a signal
that it allows. -/
inductive Resumes (w : World S C) (e : Errand C) : World S C → Step (Errand C) Unit → Prop
  | stays {w' : World S C} {s : Step (Errand C) Unit} {e' : Errand C}
      (hw : w'.supervisor = w.supervisor) (hn : w'.started = w.started) (hs : s.state? = some e')
      (he : e'.stage = e.stage) (hf : e'.Fits) : Resumes w e w' s
  | goes {w' : World S C} {s : Step (Errand C) Unit} {signal : Signal C}
      (ha : e.stage.allows (w.isCanceled w.context) signal = true)
      (hw : w'.supervisor = (w.supervisor.resume e.stage signal).supervisor)
      (hn : w'.started =
        w.started + (w.supervisor.resume e.stage signal).startsRecovery.toNat)
      (hs : s.state? = (w.supervisor.resume e.stage signal).next.map .ready) : Resumes w e w' s

theorem resumes_turn {w w' : World S C} {e : Errand C} {signal : Signal C}
    (ha : e.stage.allows (w.isCanceled w.context) signal = true)
    (hw : w'.supervisor = w.supervisor) (hn : w'.started = w.started) :
    e.Resumes w (turn w' e.stage signal).1 (turn w' e.stage signal).2 := by
  rw [turn_world, hw]
  refine .goes ha rfl ?_ ?_
  · unfold World.carryOut
    rw [hn]
    cases (w.supervisor.resume e.stage signal).startsRecovery <;> rfl
  · unfold turn
    rw [hw]
    cases hnext : (w.supervisor.resume e.stage signal).next <;> simp only [hnext] <;> rfl

/-- A stage that needs something allows every signal that can come of it. -/
theorem resumes_step (w : World S C) {e : Errand C} (hf : e.Fits) :
    e.Resumes w (e.step w).1 (e.step w).2 := by
  cases e with
  | ready stage =>
    cases hn : stage.need with
    | nothing =>
      simp only [step, hn]
      refine resumes_turn (e := .ready stage) ?_ rfl rfl
      simp [Stage.allows, Errand.stage, hn]
    | connection =>
      simp only [step, hn]
      exact .stays rfl rfl rfl rfl hn
    | answer c =>
      simp only [step, hn]
      exact .stays rfl rfl rfl rfl ⟨c, hn⟩
    | leave =>
      simp only [step, hn]
      refine resumes_turn (e := .ready stage) ?_ rfl rfl
      cases hc : w.isCanceled w.context <;> simp [Stage.allows, Errand.stage, hn]
    | rest =>
      simp only [step, hn]
      exact .stays rfl rfl rfl rfl hn
  | opening stage due fault =>
    have hn : stage.need = .connection := hf
    simp only [step]
    split
    · exact .stays rfl rfl rfl rfl hn
    · split
      · refine resumes_turn (e := .opening stage due fault) ?_ rfl rfl
        simp [Stage.allows, Errand.stage, hn]
      · refine resumes_turn (e := .opening stage due fault) ?_ rfl rfl
        simp [Stage.allows, Errand.stage, hn]
  | asking stage due fault =>
    obtain ⟨c, hn⟩ := hf
    simp only [step]
    split
    · exact .stays rfl rfl rfl rfl ⟨c, hn⟩
    · refine resumes_turn (e := .asking stage due fault) ?_ rfl rfl
      cases fault <;> simp [Stage.allows, Errand.stage, hn]
  | resting stage till =>
    have hn : stage.need = .rest := hf
    simp only [step]
    split
    case isTrue hc =>
      refine resumes_turn (e := .resting stage till) ?_ rfl rfl
      simp [Stage.allows, Errand.stage, hn, hc]
    case isFalse =>
      split
      · refine resumes_turn (e := .resting stage till) ?_ rfl rfl
        simp [Stage.allows, Errand.stage, hn]
      · exact .stays rfl rfl rfl rfl hn

end Errand

/-! ## Errands of one world -/

/-- One step of a world and the errands on their way in it. -/
inductive Proceeds : World S C → List (Errand C) → World S C → List (Errand C) → Prop
  | errand (w : World S C) (before : List (Errand C)) (e : Errand C) (behind : List (Errand C)) :
      Proceeds w (before ++ e :: behind) (e.step w).1
        (before ++ (e.step w).2.state?.toList ++ behind)
  | begin (w : World S C) (es : List (Errand C)) {call : Call} {t : Supervisor.Task C}
      (ht : call.first? = some t) : Proceeds w es w (es ++ [.ready t.stage])
  | report (w : World S C) (es : List (Errand C)) : Proceeds w es w.report es
  | cancel (w : World S C) (es : List (Errand C)) (context : String) :
      Proceeds w es (w.cancel context) es
  /-- The recoveries that were started become errands. -/
  | adopt (w : World S C) (es : List (Errand C)) :
      Proceeds w es { w with started := 0 }
        (es ++ List.replicate w.started (.ready .recover))
  /-- Something else happens in the world. -/
  | elsewhere {w w' : World S C} (es : List (Errand C)) (hs : w'.supervisor = w.supervisor)
      (hn : w'.started = w.started) (hc : w'.canceled = w.canceled)
      (hx : w'.context = w.context) : Proceeds w es w' es

/-- A world with the errands on their way in it, after any steps from a world without any. -/
inductive Reached (w₀ : World S C) : World S C → List (Errand C) → Prop
  | start : Reached w₀ w₀ []
  | next {w w' : World S C} {es es' : List (Errand C)} (h : Reached w₀ w es)
      (hs : Proceeds w es w' es') : Reached w₀ w' es'

/-- The tasks of an interplay are the errands of a world and the recoveries that were started
there. -/
structure Follows (w : World S C) (es : List (Errand C)) (y : Interplay C) : Prop where
  supervisor : y.supervisor = w.supervisor
  canceled : y.canceled = w.isCanceled w.context
  stages : (y.tasks.map Supervisor.Task.stage).Perm
    (es.map Errand.stage ++ List.replicate w.started .recover)
  fits : ∀ e ∈ es, e.Fits

/-- The stages of errands and tasks still agree when one of each has taken the same turn. -/
theorem perm_turn {α : Type} {a : α} {before behind before' behind' others : List α}
    (h : (before ++ a :: behind).Perm (before' ++ a :: behind' ++ others)) (next more : List α) :
    (before ++ next ++ behind ++ more).Perm
      (before' ++ next ++ behind' ++ (others ++ more)) := by
  -- without the one that takes the turn, the others agree
  have hcore : (before ++ behind).Perm (before' ++ (behind' ++ others)) := by
    have hleft : (before ++ a :: behind).Perm (a :: (before ++ behind)) := List.perm_middle
    have hright : (before' ++ a :: (behind' ++ others)).Perm
        (a :: (before' ++ (behind' ++ others))) := List.perm_middle
    rw [List.append_assoc, List.cons_append] at h
    exact ((hleft.symm.trans h).trans hright).cons_inv
  -- what comes of the turn may stand in front of all the rest
  have hmove : ∀ xs ys : List α, (xs ++ next ++ ys).Perm (next ++ (xs ++ ys)) := by
    intro xs ys
    rw [List.append_assoc]
    exact List.perm_append_comm_assoc xs next ys
  calc before ++ next ++ behind ++ more
    _ ~ next ++ (before ++ behind) ++ more := (hmove before behind).append_right more
    _ ~ next ++ (before' ++ (behind' ++ others)) ++ more :=
      (hcore.append_left next).append_right more
    _ ~ before' ++ next ++ (behind' ++ others) ++ more :=
      (hmove before' (behind' ++ others)).symm.append_right more
    _ = before' ++ next ++ behind' ++ (others ++ more) := by simp

namespace Follows

variable {w w' : World S C} {es es' : List (Errand C)} {y : Interplay C}

omit [Site S C] in
theorem exists_task {e : Errand C} (h : Follows w es y) (he : e ∈ es) :
    ∃ before t behind, y.tasks = before ++ t :: behind ∧ t.stage = e.stage := by
  have hmem : e.stage ∈ y.tasks.map Supervisor.Task.stage :=
    h.stages.mem_iff.2 (List.mem_append_left _ (List.mem_map_of_mem he))
  obtain ⟨t, ht, hs⟩ := List.mem_map.1 hmem
  obtain ⟨before, behind, hb⟩ := List.append_of_mem ht
  exact ⟨before, t, behind, hb, hs⟩

/-- The interplay takes the turn of an errand. -/
theorem errand {before behind : List (Errand C)} {e : Errand C}
    (h : Follows w (before ++ e :: behind) y) :
    ∃ moves : List (Move C), Follows (e.step w).1
      (before ++ (e.step w).2.state?.toList ++ behind) (moves.foldl Interplay.step y) := by
  have hmem : e ∈ before ++ e :: behind := List.mem_append_right _ List.mem_cons_self
  have hcontext : (e.step w).1.isCanceled (e.step w).1.context = w.isCanceled w.context := by
    rw [(e.step_touches w).rest]
    rfl
  have hfits : ∀ e', e'.Fits → ∀ e'' ∈ before ++ [e'] ++ behind, e''.Fits := by
    intro e' he' e'' hmem'
    rw [List.append_assoc, List.mem_append, List.singleton_append, List.mem_cons] at hmem'
    rcases hmem' with hmem' | rfl | hmem'
    · exact h.fits e'' (List.mem_append_left _ hmem')
    · exact he'
    · exact h.fits e'' (List.mem_append_right _ (List.mem_cons_of_mem e hmem'))
  have hr := e.resumes_step w (h.fits e hmem)
  generalize (e.step w).1 = w' at hr hcontext ⊢
  generalize (e.step w).2 = s at hr ⊢
  cases hr with
  | @stays e' hw hn hs he hf =>
    -- the errand stays before its stage, and the interplay makes no move
    refine ⟨[], ?_, ?_, ?_, ?_⟩
    · rw [hw]
      exact h.supervisor
    · rw [hcontext]
      exact h.canceled
    · rw [hs, hn]
      simpa [he] using h.stages
    · rw [hs]
      exact hfits e' hf
  | @goes signal ha hw hn hs =>
    -- the task of the same stage takes the turn with the same signal
    obtain ⟨ts, t, us, ht, hstage⟩ := h.exists_task hmem
    rw [← hstage, ← h.canceled] at ha
    rw [← hstage, ← h.supervisor] at hw hn hs
    have hstages := h.stages
    rw [ht, List.map_append, List.map_cons, hstage, List.map_append, List.map_cons] at hstages
    refine ⟨[.go ts.length signal], ?_⟩
    rw [List.foldl_cons, List.foldl_nil, Interplay.step_go ht ha]
    refine ⟨?_, ?_, ?_, ?_⟩
    · rw [Interplay.advance, Interplay.settle_supervisor, hw]
    · rw [Interplay.advance, Interplay.settle_canceled, hcontext]
      exact h.canceled
    · have hnext : s.state?.toList.map Errand.stage =
          (y.supervisor.resume t.stage signal).next.toList := by
        rw [hs]
        cases (y.supervisor.resume t.stage signal).next <;> rfl
      have hstarted : (if (y.supervisor.resume t.stage signal).startsRecovery then
            [Supervisor.Task.recovery (C := C) y.started] else []).map Supervisor.Task.stage =
          List.replicate (y.supervisor.resume t.stage signal).startsRecovery.toNat .recover := by
        cases (y.supervisor.resume t.stage signal).startsRecovery <;> rfl
      rw [Interplay.advance, Interplay.settle_tasks]
      simp only [List.map_append, Task.map_stage_resume?, hnext, hstarted, hn,
        List.replicate_add]
      exact perm_turn hstages _ _
    · rw [hs]
      cases hnext : (y.supervisor.resume t.stage signal).next with
      | none =>
        intro e' he'
        rw [Option.map_none, Option.toList_none, List.append_nil] at he'
        apply h.fits e'
        rcases List.mem_append.1 he' with he' | he'
        · exact List.mem_append_left _ he'
        · exact List.mem_append_right _ (List.mem_cons_of_mem e he')
      | some next => exact hfits (.ready next) trivial

omit [Site S C] in
/-- The interplay begins a call. -/
theorem begin (h : Follows w es y) {call : Call} {t : Supervisor.Task C}
    (ht : call.first? = some t) :
    Follows w (es ++ [.ready t.stage]) (y.step (.begin call)) := by
  rw [Interplay.step, ht]
  refine ⟨h.supervisor, h.canceled, ?_, ?_⟩
  · have hlast : (es.map Errand.stage ++ List.replicate w.started Stage.recover ++ [t.stage]).Perm
        (es.map Errand.stage ++ [t.stage] ++ List.replicate w.started Stage.recover) := by
      rw [List.append_assoc, List.append_assoc]
      exact List.perm_append_comm.append_left _
    rw [Option.toList_some, List.map_append, List.map_append]
    exact (h.stages.append_right [t.stage]).trans hlast
  · intro e he
    rcases List.mem_append.1 he with he | he
    · exact h.fits e he
    · rw [List.mem_singleton.1 he]
      trivial

/-- The interplay takes the report of a network failure. -/
theorem report (h : Follows w es y) (ha : w.attached = true) :
    Follows w.report es (y.step .report) := by
  rw [World.report, if_pos ha, World.carryOut, Interplay.step, ← h.supervisor]
  refine ⟨?_, ?_, ?_, h.fits⟩
  · exact Interplay.settle_supervisor ..
  · rw [Interplay.settle_canceled]
    exact h.canceled
  · rw [Interplay.settle_tasks]
    cases (y.supervisor.report []).startsRecovery with
    | false =>
      rw [if_neg Bool.false_ne_true, if_neg Bool.false_ne_true, List.append_nil]
      exact h.stages
    | true =>
      have hboth := h.stages.append_right [.recover]
      rw [List.append_assoc, ← List.replicate_succ'] at hboth
      rw [if_pos rfl, if_pos rfl, List.map_append]
      exact hboth

omit [Site S C] in
theorem cancel (h : Follows w es y) (context : String) :
    ∃ moves : List (Move C), Follows (w.cancel context) es (moves.foldl Interplay.step y) := by
  rw [World.cancel]
  split
  · exact ⟨[], h⟩
  · -- contexts other than that of the supervisor do not concern the interplay
    by_cases hx : w.context = context
    · refine ⟨[.cancel], h.supervisor, ?_, h.stages, h.fits⟩
      simp [Interplay.step, World.isCanceled, hx]
    · refine ⟨[], h.supervisor, ?_, h.stages, h.fits⟩
      rw [List.foldl_nil, h.canceled]
      simp [World.isCanceled, hx]

omit [Site S C] in
theorem adopt (h : Follows w es y) :
    Follows { w with started := 0 } (es ++ List.replicate w.started (.ready .recover)) y := by
  refine ⟨h.supervisor, h.canceled, ?_, ?_⟩
  · rw [List.map_append, List.map_replicate]
    simpa [Errand.stage] using h.stages
  · intro e he
    rcases List.mem_append.1 he with he | he
    · exact h.fits e he
    · rw [List.eq_of_mem_replicate he]
      trivial

/-- The interplay follows every step of the world and its errands. -/
theorem proceeds (h : Follows w es y) (hs : Proceeds w es w' es') :
    ∃ moves : List (Move C), Follows w' es' (moves.foldl Interplay.step y) := by
  cases hs with
  | errand before e behind => exact h.errand
  | @begin _ call t ht => exact ⟨[.begin call], h.begin ht⟩
  | report =>
    cases ha : w.attached with
    | true => exact ⟨[.report], h.report ha⟩
    | false =>
      rw [World.report, if_neg (by rw [ha]; exact Bool.false_ne_true)]
      exact ⟨[], h⟩
  | cancel _ context => exact h.cancel context
  | adopt => exact ⟨[], h.adopt⟩
  | elsewhere _ hs hn hc hx =>
    refine ⟨[], ?_, ?_, ?_, h.fits⟩
    · rw [hs]
      exact h.supervisor
    · rw [World.isCanceled, hc, hx]
      exact h.canceled
    · rw [hn]
      exact h.stages

end Follows

/-- Whatever becomes of a new supervisor in a world is what becomes of it in an interplay. -/
theorem Reached.follows {w₀ w : World S C} {es : List (Errand C)} (h : Reached w₀ w es)
    (hs : w₀.supervisor = {}) (hn : w₀.started = 0) (hc : w₀.isCanceled w₀.context = false) :
    ∃ moves, Follows w es (Interplay.run moves) := by
  induction h with
  | start =>
    refine ⟨[], hs.symm, hc.symm, ?_, List.forall_mem_nil _⟩
    rw [hn]
    exact .refl _
  | next _ hstep ih =>
    obtain ⟨moves, h⟩ := ih
    obtain ⟨more, h'⟩ := h.proceeds hstep
    refine ⟨moves ++ more, ?_⟩
    rw [Interplay.run, List.foldl_append]
    exact h'

section Reached

variable {w₀ w : World S C} {es : List (Errand C)}

/-- While no recovery runs, an errand mends each client that waits for a connection. -/
theorem Reached.served (h : Reached w₀ w es) (hs : w₀.supervisor = {}) (hn : w₀.started = 0)
    (hc₀ : w₀.isCanceled w₀.context = false) (hc : w.isCanceled w.context = false)
    (hr : w.supervisor.recovering = false) {id : Identifier} (hid : id ∈ w.supervisor.clients)
    (hnone : w.supervisor.connection? id = none) : ∃ e ∈ es, Mends id e.stage := by
  obtain ⟨moves, hf⟩ := h.follows hs hn hc₀
  rw [← hf.canceled] at hc
  rw [← hf.supervisor] at hr hid hnone
  obtain ⟨t, ht, hserves, hmends⟩ := (Interplay.covered_run moves).served hc hr hid hnone
  have hmem := hf.stages.mem_iff.1 (List.mem_map_of_mem (f := Supervisor.Task.stage) ht)
  rcases List.mem_append.1 hmem with hmem | hmem
  · obtain ⟨e, he, hstage⟩ := List.mem_map.1 hmem
    rw [← hstage] at hmends
    exact ⟨e, he, hmends⟩
  · -- a recovery serves no single client
    have hruns := t.runs
    rw [List.eq_of_mem_replicate hmem] at hruns
    rcases hserves with hserves | hserves <;> rw [hserves] at hruns <;> cases hruns

/-- The mark of a recovery is set while one errand, or one recovery that was started, is to take it
back. -/
theorem Reached.marked (h : Reached w₀ w es) (hs : w₀.supervisor = {}) (hn : w₀.started = 0)
    (hc₀ : w₀.isCanceled w₀.context = false) :
    es.countP (·.stage.keepsMark) + w.started = w.supervisor.recovering.toNat := by
  obtain ⟨moves, hf⟩ := h.follows hs hn hc₀
  have hm := Interplay.marked_run moves
  have hcount := hf.stages.countP_eq Stage.keepsMark
  rw [List.countP_map, List.countP_append, List.countP_map, List.countP_replicate] at hcount
  rw [Interplay.Marked, hf.supervisor] at hm
  rw [← hm]
  exact hcount.symm

end Reached

end Reconnect
