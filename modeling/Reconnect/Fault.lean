/-!
# Faults of operations

An operation on a store fails because of the network, or because the store refuses it. Operations
that run through a client can also run out of time, be canceled, or find their client detached.
-/

namespace Reconnect

/-- Why one operation on a store failed. -/
inductive Fault where
  | network
  | application (text : String)
  deriving DecidableEq, Repr, Inhabited

/-- The text of a fault. -/
def Fault.message : Fault → String
  | .network => "connection reset by peer"
  | .application text => text

/-- Whether a fault comes from the network. -/
def Fault.isNetwork : Fault → Bool
  | .network => true
  | .application _ => false

/-- Why an operation run through a client failed. -/
inductive CallError (ε : Type) where
  | operationTimeout
  | contextCanceled
  | clientDetached
  | operation (e : ε)
  deriving DecidableEq, Repr, Inhabited

namespace CallError

variable {ε : Type}

/-- The text of an error, given the texts of the operation's own errors. -/
def message (text : ε → String) : CallError ε → String
  | .operationTimeout => "operation timed out"
  | .contextCanceled => "context canceled"
  | .clientDetached => "client is not attached to a connection manager"
  | .operation e => text e

/-- Whether the operation ran out of time. -/
def isTimeout : CallError ε → Bool
  | .operationTimeout => true
  | _ => false

/-- Whether the operation was canceled. -/
def isCanceled : CallError ε → Bool
  | .contextCanceled => true
  | _ => false

/-- The operation's own error. -/
def operation? : CallError ε → Option ε
  | .operation e => some e
  | _ => none

end CallError

/-- Why an operation of the messaging layer failed. -/
inductive MessagingError (ε : Type) where
  | client (e : CallError ε)
  | queueBind (queue exchange routingKey : String) (source : ε)
  | unroutable (exchange routingKey : String)
  | nacked (exchange : String)
  | mainTopicNotSet
  | topicNotSubscribed (topic : String)
  deriving DecidableEq, Repr, Inhabited

namespace MessagingError

variable {ε : Type}

/-- The text of an error, given the texts of the operation's own errors. -/
def message (text : ε → String) : MessagingError ε → String
  | .client e => e.message text
  | .queueBind queue exchange routingKey source =>
    "failed to bind queue '" ++ queue ++ "' to exchange '" ++ exchange ++ "' with routing key '"
      ++ routingKey ++ "': " ++ text source
  | .unroutable exchange routingKey =>
    "message to exchange '" ++ exchange ++ "' with routing key '" ++ routingKey
      ++ "' was returned unroutable"
  | .nacked exchange => "broker did not confirm message to exchange '" ++ exchange ++ "'"
  | .mainTopicNotSet => "main topic is not set"
  | .topicNotSubscribed topic => "not subscribed to topic '" ++ topic ++ "'"

/-- Whether the operation ran out of time. -/
def isTimeout : MessagingError ε → Bool
  | .client e => e.isTimeout
  | _ => false

/-- Whether the operation was canceled. -/
def isCanceled : MessagingError ε → Bool
  | .client e => e.isCanceled
  | _ => false

/-- The error that lies behind this one and is not shown as this one. -/
def source? : MessagingError ε → Option ε
  | .queueBind _ _ _ source => some source
  | _ => none

end MessagingError

/-- Why an operation on a lock failed. -/
inductive LockError (ε : Type) where
  | noResourceKeys
  | locksAlreadyAcquired
  | lockAcquireTimeout
  | lockReleaseBeforeAcquire
  | lockValueEmpty
  | canceled
  | client (e : CallError ε)
  deriving DecidableEq, Repr, Inhabited

namespace LockError

variable {ε : Type}

/-- The text of an error, given the texts of the operation's own errors. -/
def message (text : ε → String) : LockError ε → String
  | .noResourceKeys => "a distributed lock needs at least one resource key"
  | .locksAlreadyAcquired => "locks have already been acquired"
  | .lockAcquireTimeout => "locks were not acquired before the timeout"
  | .lockReleaseBeforeAcquire => "locks cannot be released before they are acquired"
  | .lockValueEmpty => "the lock value is empty"
  | .canceled => "lock operation canceled"
  | .client e => e.message text

/-- Whether the operation ran out of time. -/
def isTimeout : LockError ε → Bool
  | .lockAcquireTimeout => true
  | .client e => e.isTimeout
  | _ => false

end LockError

end Reconnect
