import Reconnect.Broker.Publication
import Reconnect.Proofs.Execution

/-!
# How a publication goes on

`Publication.Goes` lists, rule by rule, what one step of a publication does; `goes_step` shows that
the publications of every site follow these rules. The first step gives the message its name, and
all others are those of one execution under that name.
-/

namespace Reconnect.Broker.Publication

variable {S C : Type}

/-- A publication that has its name, and the execution of its request. -/
def sent (p : Publication C) (id : String) (e : Execution C) : Publication C :=
  { p with sending := some (id, e) }

/-- A publication that has just got its name. -/
def begun (p : Publication C) (id : String) : Publication C :=
  p.sent id (.start p.client.client p.client.client.writeTimeout)

variable [Site S C] [Channels S C]

/-- One step of a publication: the world and the step that come of it. -/
inductive Goes (w : World (Station S) C) (opens : Bool) (p : Publication C) :
    World (Station S) C → Step (Publication C) (Except (MessagingError Fault) String) → Prop
  | named {id : String} (hs : p.sending = none) (hh : p.headers.get? messageIdHeader = some id) :
      Goes w opens p w (.moves (p.begun id))
  | names (hs : p.sending = none) (hh : p.headers.get? messageIdHeader = none) :
      Goes w opens p w.draw.1 (.moves (p.begun w.draw.2.text))
  | waits {id : String} {e e' : Execution C} {w' : World (Station S) C}
      (hs : p.sending = some (id, e))
      (he : e.Goes (asking (p.request id)) w opens w' (.waits e')) :
      Goes w opens p w' (.waits (p.sent id e'))
  | moves {id : String} {e e' : Execution C} {w' : World (Station S) C}
      (hs : p.sending = some (id, e))
      (he : e.Goes (asking (p.request id)) w opens w' (.moves e')) :
      Goes w opens p w' (.moves (p.sent id e'))
  | ends {id : String} {e : Execution C} {w' : World (Station S) C}
      {o : Execution.Outcome (Reply C)} (hs : p.sending = some (id, e))
      (he : e.Goes (asking (p.request id)) w opens w' (.ends o)) :
      Goes w opens p w' (.ends (p.verdict id o.result))

/-- A step of a publication follows the rules. -/
theorem goes_step (w : World (Station S) C) (opens : Bool) (p : Publication C) :
    Goes w opens p (p.step w opens).1 (p.step w opens).2 := by
  cases hs : p.sending with
  | none =>
    simp only [step, hs]
    cases hh : p.headers.get? messageIdHeader with
    | some id => exact .named hs hh
    | none => exact .names hs hh
  | some sending =>
    obtain ⟨id, e⟩ := sending
    have he := e.goes_step (asking (p.request id)) w opens
    simp only [step, hs]
    generalize e.step (asking (p.request id)) w opens = r at he ⊢
    rcases r with ⟨w', e' | e' | o⟩
    · exact .waits hs he
    · exact .moves hs he
    · exact .ends hs he

end Reconnect.Broker.Publication
