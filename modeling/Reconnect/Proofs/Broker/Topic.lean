import Reconnect.Broker.Subscription
import Reconnect.Broker.Topic
import Reconnect.Proofs.Identifier

/-!
# The topics of subscribers

A topic that is read as a pattern takes itself, whatever words stand for other words in it. The
queues in which subscribers take topics have different names: neither two topics nor two subscribers
share one (`topicQueueName_inj`). What stands before the last dash of a name and what stands behind
it can be told apart, since digits are no dashes.
-/

namespace Reconnect.Broker

/-! ## Patterns -/

/-- A row of words that is read as a pattern takes itself: a word that stands for any number of
words can stand for the one that it is. -/
theorem matchesWords_self (words : List (List Char)) : matchesWords words words = true := by
  induction words with
  | nil => rfl
  | cons word rest ih =>
    rw [matchesWords]
    split
    case isTrue =>
      rw [List.any_eq_true]
      refine ⟨1, List.mem_range.2 ?_, ih⟩
      rw [List.length_cons]
      omega
    case isFalse => simp [ih]

theorem topicMatches_self (topic : String) : topicMatches topic topic = true :=
  matchesWords_self (topicWords topic.toList)

/-! ## Names of queues -/

/-- The name of the queue in which a subscriber takes a topic. -/
def topicQueueName (topic : String) (id : Identifier) : String := topic ++ "_" ++ id.text

@[simp] theorem queueName_eq (s : Subscriber) (topic : String) :
    s.queueName topic = topicQueueName topic s.id := rfl

/-- A list is told by what stands before and behind the last occurrence of an element. -/
theorem append_cons_inj_of_not_mem {α : Type} {front front' behind behind' : List α} {a : α}
    (hb : a ∉ behind) (hb' : a ∉ behind')
    (h : front ++ a :: behind = front' ++ a :: behind') : front = front' ∧ behind = behind' := by
  have hend : ∀ {more before before' : List α}, a ∉ before → a :: before = more ++ a :: before' →
      more = [] := by
    intro more before before' hn he
    cases more with
    | nil => rfl
    | cons a' more =>
      rw [List.cons_append, List.cons.injEq] at he
      exact absurd (he.2 ▸ List.mem_append_right more List.mem_cons_self) hn
  rcases List.append_eq_append_iff.1 h with ⟨more, hf, he⟩ | ⟨more, hf, he⟩
  · obtain rfl := hend hb he
    rw [List.append_nil] at hf
    exact ⟨hf.symm, (List.cons.inj he).2⟩
  · obtain rfl := hend hb' he
    rw [List.append_nil] at hf
    exact ⟨hf, (List.cons.inj he).2.symm⟩

/-- Neither two topics nor two subscribers share a queue. -/
theorem topicQueueName_inj {topic topic' : String} {id id' : Identifier} :
    topicQueueName topic id = topicQueueName topic' id' ↔ topic = topic' ∧ id = id' := by
  constructor
  · intro h
    have hdash : ∀ width n, '-' ∉ Duration.padded width n := fun _ _ hc =>
      absurd (isDigit_of_mem_padded hc) (by decide)
    have hlists := congrArg String.toList h
    unfold topicQueueName at hlists
    simp only [String.toList_append, Identifier.toList_text, ← List.append_assoc] at hlists
    have hfront := (append_cons_inj_of_not_mem (hdash _ _) (hdash _ _) hlists).1
    have htopic := List.append_cancel_right (List.append_cancel_right hfront)
    obtain rfl : topic = topic' := String.toList_inj.1 htopic
    exact ⟨rfl, Identifier.text_injective ((String.append_right_inj _).1 h)⟩
  · rintro ⟨rfl, rfl⟩
    rfl

end Reconnect.Broker
