import Mathlib.Data.List.Forall2
import Reconnect.Proofs.Broker.Topic

/-!
# The language of a topic pattern

A row of words is in the language of a pattern if it can be cut into segments, one for each word of
the pattern, such that each word takes its segment (`Cut`). Matching is a search for such a cut
(`matchesWords_iff`): the first word of the pattern takes a segment at the front, and the other
words cut what is left (`cut_cons_iff`).

The words themselves are what stands between the dots of a text (`topicWords_eq`).
-/

namespace Reconnect.Broker

/-- A word of a topic. -/
abbrev Word := List Char

/-- What a word of a pattern takes: any row of words, a single word, or nothing but itself. -/
inductive Takes : Word → List Word → Prop
  | any (segment : List Word) : Takes ['#'] segment
  | one (word : Word) : Takes ['*'] [word]
  | itself {word : Word} (hash : word ≠ ['#']) (star : word ≠ ['*']) : Takes word [word]

/-- A cut of a row of words into consecutive segments, one for each word of a pattern. -/
structure Cut (pattern key : List Word) (segments : List (List Word)) : Prop where
  takes : List.Forall₂ Takes pattern segments
  flatten : segments.flatten = key

/-- The words of a text: what stands between its dots. -/
def wordsOf (text : String) : List Word := text.toList.splitOn '.'

variable {word : Word} {pattern key : List Word}

theorem topicWords_eq (cs : List Char) : topicWords cs = cs.splitOn '.' := by
  induction cs with
  | nil => rfl
  | cons c cs ih =>
    rw [List.splitOn_cons_eq_if_modifyHead]
    by_cases hc : c = '.'
    case pos =>
      subst hc
      rw [topicWords, ih, if_pos (beq_self_eq_true '.')]
    case neg =>
      rw [topicWords.eq_3 c cs hc, ih, if_neg (by simpa using hc)]
      -- there is always a first word to which the character belongs
      cases hwords : cs.splitOn '.' with
      | nil => exact absurd hwords (List.splitOn_ne_nil '.' cs)
      | cons word words => rfl

/-! ## Cuts -/

/-- Only the row without words is cut into no segments. -/
theorem cut_nil_iff : (∃ segments, Cut [] key segments) ↔ key = [] := by
  constructor
  · rintro ⟨segments, htakes, hflatten⟩
    rw [List.forall₂_nil_left_iff.1 htakes] at hflatten
    exact hflatten.symm
  · rintro rfl
    exact ⟨[], .nil, rfl⟩

/-- A cut consists of a segment for the first word and of a cut of what is left. -/
theorem cut_cons_iff : (∃ segments, Cut (word :: pattern) key segments) ↔
    ∃ segment rest, segment ++ rest = key ∧ Takes word segment ∧
      ∃ segments, Cut pattern rest segments := by
  constructor
  · rintro ⟨segments, htakes, hflatten⟩
    obtain ⟨segment, others, hsegment, hothers, rfl⟩ := List.forall₂_cons_left_iff.1 htakes
    exact ⟨segment, others.flatten, hflatten, hsegment, others, hothers, rfl⟩
  · rintro ⟨segment, rest, hkey, hsegment, others, hothers, rfl⟩
    exact ⟨segment :: others, .cons hsegment hothers, hkey⟩

/-- The word for any number of words takes each segment at the front of a row. -/
theorem exists_takes_hash_iff {p : List Word → Prop} :
    (∃ segment rest, segment ++ rest = key ∧ Takes ['#'] segment ∧ p rest) ↔
      ∃ n < key.length + 1, p (key.drop n) := by
  constructor
  · rintro ⟨segment, rest, rfl, -, hp⟩
    refine ⟨segment.length, ?_, ?_⟩
    · rw [List.length_append]
      omega
    · rwa [List.drop_left]
  · rintro ⟨n, -, hp⟩
    exact ⟨key.take n, key.drop n, List.take_append_drop n key, .any _, hp⟩

/-- Every other word takes one word at the front of a row. -/
theorem exists_takes_iff (hash : word ≠ ['#']) {p : List Word → Prop} :
    (∃ segment rest, segment ++ rest = key ∧ Takes word segment ∧ p rest) ↔
      ∃ first rest, key = first :: rest ∧ (word = ['*'] ∨ word = first) ∧ p rest := by
  constructor
  · rintro ⟨segment, rest, rfl, htakes, hp⟩
    cases htakes with
    | any => exact absurd rfl hash
    | one first => exact ⟨first, rest, rfl, .inl rfl, hp⟩
    | itself => exact ⟨word, rest, rfl, .inr rfl, hp⟩
  · rintro ⟨first, rest, rfl, hword, hp⟩
    refine ⟨[first], rest, rfl, ?_, hp⟩
    by_cases hstar : word = ['*']
    case pos =>
      subst hstar
      exact .one first
    case neg =>
      obtain rfl := hword.resolve_left hstar
      exact .itself hash hstar

/-! ## Matching -/

/-- A pattern matches the rows of words that can be cut for it. -/
theorem matchesWords_iff :
    matchesWords pattern key = true ↔ ∃ segments, Cut pattern key segments := by
  induction pattern generalizing key with
  | nil => rw [matchesWords, List.isEmpty_iff, cut_nil_iff]
  | cons word pattern ih =>
    rw [matchesWords.eq_def, cut_cons_iff]
    dsimp only
    by_cases hash : word = ['#']
    case pos =>
      -- the search tries all lengths of the first segment
      subst hash
      simp only [if_pos, List.any_eq_true, List.mem_range, exists_takes_hash_iff, ih]
    case neg =>
      rw [if_neg hash, exists_takes_iff hash]
      cases key with
      | nil => simp
      | cons first rest => simp [ih]

/-- A text fits a pattern exactly if the words of the text can be cut into consecutive segments,
one for each word of the pattern, such that each word takes its segment. Every text fits itself. -/
theorem topicMatches_language :
    (∀ pattern key, topicMatches pattern key = true ↔
      ∃ segments, Cut (wordsOf pattern) (wordsOf key) segments) ∧
    ∀ text, topicMatches text text = true := by
  constructor
  · intro pattern key
    rw [topicMatches, topicWords_eq, topicWords_eq]
    exact matchesWords_iff
  · intro text
    exact topicMatches_self text

/-- Words between dots may be empty, and the word for any number of words may take none. -/
example : topicMatches "a.#.b.#" "a..b" = true ∧ topicMatches "#.*" "" = true ∧
    topicMatches "*.*" "a" = false := by decide

end Reconnect.Broker
