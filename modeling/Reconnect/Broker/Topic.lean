/-!
# Topics

A topic is a row of words with dots between them. In a pattern the word `#` stands for any number
of words and the word `*` for exactly one; every other word stands for itself.
-/

namespace Reconnect.Broker

/-- The words of a topic. An empty text has one word, which is empty. -/
def topicWords : List Char → List (List Char)
  | [] => [[]]
  | '.' :: cs => [] :: topicWords cs
  | c :: cs =>
    match topicWords cs with
    | [] => [[c]]
    | w :: ws => (c :: w) :: ws

/-- Whether a row of words fits a pattern. -/
def matchesWords : List (List Char) → List (List Char) → Bool
  | [], key => key.isEmpty
  | p :: pattern, key =>
    if p = ['#'] then (List.range (key.length + 1)).any fun n => matchesWords pattern (key.drop n)
    else
      match key with
      | [] => false
      | w :: rest => (p = ['*'] || p = w) && matchesWords pattern rest

/-- Whether a routing key fits a topic pattern. -/
def topicMatches (pattern key : String) : Bool :=
  matchesWords (topicWords pattern.toList) (topicWords key.toList)

end Reconnect.Broker
