import Reconnect.Cache.KeyStore

/-!
# Scripts for a key store

A script runs in a key store as one step. It is given keys and arguments, goes through the keys,
and answers a number. Two scripts take and drop the keys of a lock: the first writes a token under
all keys unless one of them is there, the second deletes the keys that hold a token and counts
them.

A script has a text, in which it is sent to a store, and a run, which says what it does there.
-/

namespace Reconnect.Cache

/-- A question about the key at hand. -/
inductive Question where
  | isPresent
  /-- Whether the key holds the value of an argument, counted from one. -/
  | holds (argument : Nat)
  deriving DecidableEq, Repr

/-- A script. -/
inductive Script where
  | andThen (first second : Script)
  | forEachKey (body : Script)
  | onlyIf (q : Question) (body : Script)
  /-- Writes the value of one argument under the key, for the time of another one. -/
  | write (value lifetime : Nat)
  | delete
  /-- Sets the count to zero. -/
  | beginCount
  | count
  /-- Ends the script with a number. -/
  | answer (n : Nat)
  /-- Ends the script with the count. -/
  | answerCount
  deriving DecidableEq, Repr

namespace Script

/-! ## The text of a script -/

/-- A line at a depth. -/
def line (depth : Nat) (text : String) : String :=
  String.ofList (List.replicate (4 * depth) ' ') ++ text ++ "\n"

/-- The text of an argument. -/
def argumentText (n : Nat) : String := "ARGV[" ++ toString n ++ "]"

/-- The text of a question. -/
def questionText : Question → String
  | .isPresent => "redis.call(\"EXISTS\", key) == 1"
  | .holds n => "redis.call(\"GET\", key) == " ++ argumentText n

/-- The lines of a script at a depth. -/
def lines (depth : Nat) : Script → String
  | .andThen a b => lines depth a ++ lines depth b
  | .forEachKey body =>
    line depth "for _, key in ipairs(KEYS) do" ++ lines (depth + 1) body ++ line depth "end"
  | .onlyIf q body =>
    line depth ("if " ++ questionText q ++ " then") ++ lines (depth + 1) body ++ line depth "end"
  | .write value lifetime =>
    line depth ("redis.call(\"SET\", key, " ++ argumentText value ++ ", \"PX\", "
      ++ argumentText lifetime ++ ")")
  | .delete => line depth "redis.call(\"DEL\", key)"
  | .beginCount => line depth "local released = 0"
  | .count => line depth "released = released + 1"
  | .answer n => line depth ("return " ++ toString n)
  | .answerCount => line depth "return released"

/-- The text of a script. -/
def text (s : Script) : String := "\n" ++ lines 2 s ++ "        "

/-! ## The run of a script -/

/-- An argument of a script. -/
inductive Argument where
  | text (s : String)
  | amount (n : Nat)
  deriving DecidableEq, Repr

/-- The text that an argument stands for. -/
def Argument.toText : Argument → String
  | .text s => s
  | .amount n => toString n

/-- The amount that an argument stands for. -/
def Argument.toAmount : Argument → Nat
  | .text _ => 0
  | .amount n => n

/-- What a run is given. -/
structure Call where
  now : Millis
  keys : List String
  arguments : List Argument
  deriving DecidableEq, Repr

/-- The argument of a number, counted from one. -/
def Call.argument (c : Call) (n : Nat) : Argument := c.arguments.getD (n - 1) (.text "")

/-- How far a run has come. -/
structure Progress where
  store : KeyStore
  counted : Nat := 0
  answered : Option Nat := none
  deriving DecidableEq, Repr

/-- Whether the answer to a question about a key is yes. -/
def isTrue (c : Call) (p : Progress) (key : String) : Question → Bool
  | .isPresent => (p.store.get? c.now key).isSome
  | .holds n => p.store.get? c.now key == some (c.argument n).toText

/-- Goes on unless the run has ended. -/
def Progress.goOn (p : Progress) (f : Progress → Progress) : Progress :=
  if p.answered.isSome then p else f p

/-- Runs a script with a key at hand. -/
def run (c : Call) : Script → String → Progress → Progress
  | .andThen a b, key, p => (run c a key p).goOn (run c b key)
  | .forEachKey body, _, p => c.keys.foldl (fun p key => p.goOn (run c body key)) p
  | .onlyIf q body, key, p => if isTrue c p key q then run c body key p else p
  | .write value lifetime, key, p =>
    { p with
      store := p.store.set key (c.argument value).toText (c.now + (c.argument lifetime).toAmount) }
  | .delete, key, p => { p with store := p.store.delete key }
  | .beginCount, _, p => { p with counted := 0 }
  | .count, _, p => { p with counted := p.counted + 1 }
  | .answer n, _, p => { p with answered := some n }
  | .answerCount, _, p => { p with answered := some p.counted }

/-- The store after a script has run in it, and its answer. -/
def eval (s : Script) (c : Call) (store : KeyStore) : KeyStore × Nat :=
  let p := s.run c "" { store }
  (p.store, p.answered.getD 0)

/-! ## The scripts of locks -/

/-- Writes the first argument under all keys for the time of the second one, unless one of them is
there. -/
def acquire : Script :=
  .andThen (.forEachKey (.onlyIf .isPresent (.answer 0)))
    (.andThen (.forEachKey (.write 1 2)) (.answer 1))

/-- Deletes the keys that hold the first argument, and counts them. -/
def release : Script :=
  .andThen .beginCount
    (.andThen (.forEachKey (.onlyIf (.holds 1) (.andThen .delete .count))) .answerCount)

/-- The lifetime that is asked of a store: at least a millisecond, and a number of 64 bits. -/
def lifetime (ttl : Millis) : Millis := max (min ttl 18446744073709551615) 1

end Script

/-- Takes keys by a script, and tells whether they were free. -/
def KeyStore.acquire (s : KeyStore) (now : Millis) (keys : List String) (token : String)
    (ttl : Millis) : KeyStore × Bool :=
  let r := Script.acquire.eval ⟨now, keys, [.text token, .amount (Script.lifetime ttl)]⟩ s
  (r.1, r.2 == 1)

/-- Drops the keys that hold a token by a script, and counts them. -/
def KeyStore.release (s : KeyStore) (now : Millis) (keys : List String) (token : String) :
    KeyStore × Nat :=
  Script.release.eval ⟨now, keys, [.text token]⟩ s

end Reconnect.Cache
