import Reconnect.Text.Utf8

/-!
# Telling network failures from refusals

A failure comes from the network if its kind says so or if its text names one of a few phrases.
Letters compare without regard to case, unless a rule says otherwise.
-/

namespace Reconnect

namespace Text

/-- The text with the letters A to Z in lower case. -/
def lowerAscii (cs : List Char) : List Char :=
  cs.map fun c => if 'A' ≤ c && c ≤ 'Z' then Char.ofNat (c.toNat + 32) else c

/-- Whether `part` occurs in `cs`. -/
def occursIn (part : List Char) : List Char → Bool
  | [] => part.isEmpty
  | c :: rest => part.isPrefixOf (c :: rest) || occursIn part rest

end Text

/-- The phrases, in lower case, that tell a network failure. -/
def networkPhrases : List String := [
  "broken pipe", "connection reset", "connection refused", "connection closed",
  "connection aborted", "i/o timeout", "timed out", "unexpected eof", "end of file"]

/-- Whether a text names a network failure. -/
def namesNetworkFailure (text : String) : Bool :=
  networkPhrases.any fun p => Text.occursIn p.toList (Text.lowerAscii text.toList)

/-- The kind of a failed system call. -/
inductive SystemFailure where
  | connectionRefused
  | connectionReset
  | connectionAborted
  | notConnected
  | brokenPipe
  | timedOut
  | unexpectedEnd
  | addressNotAvailable
  | other (name : String)
  deriving DecidableEq, Repr

/-- The kinds that stand for a lost or missing connection. -/
def SystemFailure.isNetwork : SystemFailure → Bool
  | .other _ => false
  | _ => true

/-- Whether a failed system call is a network failure. No phrase occurs in the description of a
kind outside the network, so a call without a text of its own is judged by its kind alone. -/
def isNetworkCall (kind : SystemFailure) (text : Option String) : Bool :=
  kind.isNetwork || (text.any namesNetworkFailure)

/-- A failure reported by the library that speaks to a message broker. -/
inductive BrokerFailure where
  | system (kind : SystemFailure) (text : Option String)
  /-- The channel was not in a state to be used. -/
  | channelState
  /-- The connection was not in a state to be used. -/
  | connectionState
  /-- The broker closed the whole connection. -/
  | hardError
  /-- The broker closed one channel. -/
  | softError
  | other (text : String)
  deriving DecidableEq, Repr

/-- Whether a broker failure is a network failure. What the broker says when it closes a channel
does not matter. -/
def BrokerFailure.isNetwork : BrokerFailure → Bool
  | .system kind text => isNetworkCall kind text
  | .channelState | .connectionState | .hardError => true
  | .softError => false
  | .other text => namesNetworkFailure text

/-- A failure reported by the library that speaks to a cache store. -/
inductive CacheFailure where
  | system (kind : SystemFailure) (text : Option String)
  | response (kind text : String) (detail : Option String)
  deriving DecidableEq, Repr

/-- The text of a response failure. -/
def CacheFailure.responseText (kind text : String) (detail : Option String) : String :=
  match detail with
  | none => text ++ "- " ++ kind
  | some detail => text ++ "- " ++ kind ++ ": " ++ detail

/-- The phrases, compared letter for letter, that tell a network failure of a cache store. -/
def cachePhrases : List String :=
  ["client is closed", "connection pool exhausted", "connection pool timeout"]

/-- Whether a cache failure is a network failure. A failed system call always is. -/
def CacheFailure.isNetwork : CacheFailure → Bool
  | .system _ _ => true
  | .response kind text detail =>
    let shown := CacheFailure.responseText kind text detail
    kind == "IoError" || namesNetworkFailure shown
      || cachePhrases.any fun p => Text.occursIn p.toList shown.toList

/-- A failure reported by the library that speaks to a document store. -/
inductive DocumentFailure where
  | system (kind : SystemFailure) (text : Option String)
  /-- No server could be selected, or the pool of connections was cleared. -/
  | unreachable
  | other (text : String)
  deriving DecidableEq, Repr

/-- Whether a document store failure is a network failure. -/
def DocumentFailure.isNetwork : DocumentFailure → Bool
  | .system kind text => isNetworkCall kind text
  | .unreachable => true
  | .other text => namesNetworkFailure text

end Reconnect
