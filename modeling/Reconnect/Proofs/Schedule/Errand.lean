import Reconnect.Schedule.Errand

/-!
# What errands leave alone

An errand works at the site of its world and on its supervisor; it leaves the rest of the world
alone (`Errand.step_touches`). What it does to the site are attempts to open, to ask and to close
connections (`Used`).
-/

namespace Reconnect

variable {S C : Type} [Site S C]

/-- The state in which a call goes on after a step, if it does. -/
def Step.state? {σ ρ : Type} : Step σ ρ → Option σ
  | .waits s => some s
  | .moves s => some s
  | .ends _ => none

/-- A site after some work on its connections. -/
inductive Used (s : S) : S → Prop
  | refl : Used s s
  | dial {s' : S} (h : Used s s') : Used s (Site.dial s').1
  | connect {s' : S} (h : Used s s') : Used s (Site.connect s').1
  | ping {s' : S} (h : Used s s') (c : C) : Used s (Site.ping s' c).1
  | close {s' : S} (h : Used s s') (c : C) : Used s (Site.close s' c)
  | shut {s' : S} (h : Used s s') : Used s (Site.shut s')

/-- Two worlds that differ in their sites, after some work on connections, and their supervisors
only. -/
structure Touches (w w' : World S C) : Prop where
  used : Used w.site w'.site
  rest : w' = { w with site := w'.site, supervisor := w'.supervisor, started := w'.started }

namespace Touches

theorem refl (w : World S C) : Touches w w := ⟨.refl, rfl⟩

theorem site (w : World S C) {s : S} (h : Used w.site s) : Touches w { w with site := s } :=
  ⟨h, rfl⟩

theorem used_foldl_close {s s' : S} (h : Used s s') (closed : List C) :
    Used s (closed.foldl Site.close s') := by
  induction closed generalizing s' with
  | nil => exact h
  | cons c rest ih => exact ih (h.close c)

theorem carryOut {w w' : World S C} (h : Touches w w') (t : Supervisor.Turn C) :
    Touches w (w'.carryOut t) := by
  have hclosed := used_foldl_close h.used t.closed
  constructor
  · unfold World.carryOut
    cases t.shutsTransport with
    | false => exact hclosed
    | true => exact hclosed.shut
  · rw [h.rest]
    rfl

theorem report {w w' : World S C} (h : Touches w w') : Touches w w'.report := by
  rw [World.report]
  split
  · exact h.carryOut _
  · exact h

end Touches

/-- A report of a failure leaves the site alone. -/
@[simp] theorem World.report_site (w : World S C) : w.report.site = w.site := by
  unfold World.report World.carryOut Supervisor.report
  split
  · split <;> rfl
  · rfl

@[simp] theorem World.report_drawn (w : World S C) : w.report.drawn = w.drawn := by
  unfold World.report
  split <;> rfl

namespace Errand

@[simp] theorem turn_world (w : World S C) (stage : Supervisor.Stage C)
    (signal : Supervisor.Signal C) :
    (turn w stage signal).1 = w.carryOut (w.supervisor.resume stage signal) := by
  unfold turn
  cases hn : (w.supervisor.resume stage signal).next <;> simp only [hn]

/-- A step of an errand touches the site and the supervisor only. -/
theorem step_touches (w : World S C) (e : Errand C) : Touches w (e.step w).1 := by
  have hw := Touches.refl w
  cases e with
  | ready stage =>
    cases hn : stage.need with
    | nothing =>
      simp only [step, hn, turn_world]
      exact hw.carryOut _
    | connection =>
      simp only [step, hn]
      exact .site w (.dial .refl)
    | answer c =>
      simp only [step, hn]
      exact .site w (.ping .refl c)
    | leave =>
      simp only [step, hn, turn_world]
      exact hw.carryOut _
    | rest =>
      simp only [step, hn]
      exact hw
  | opening stage due fault =>
    simp only [step]
    split
    · exact hw
    · split
      · rw [turn_world]
        exact hw.carryOut _
      · rw [turn_world]
        exact (Touches.site w (.connect .refl)).carryOut _
  | asking stage due fault =>
    simp only [step]
    split
    · exact hw
    · rw [turn_world]
      exact hw.carryOut _
  | resting stage till =>
    simp only [step]
    split
    · rw [turn_world]
      exact hw.carryOut _
    · split
      · rw [turn_world]
        exact hw.carryOut _
      · exact hw

end Errand

end Reconnect
