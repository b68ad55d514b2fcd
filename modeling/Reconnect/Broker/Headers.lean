import Reconnect.SortedTable
import Reconnect.Text.Utf8

/-!
# Message headers and field tables

A message carries a table of fields. Headers are those of its fields that hold text. Every header
is sent as a long text; a long text that is received need not be UTF-8 and is read leniently.
-/

namespace Reconnect.Broker

/-- The value of a field of a message. -/
inductive FieldValue where
  /-- Text of any length, as bytes. -/
  | long (bytes : Bytes)
  /-- Text of at most 255 bytes. -/
  | short (text : String)
  /-- A value of another type, by the name of the type. -/
  | other (type : String)
  deriving DecidableEq, Repr, Inhabited

/-- The fields of a message. -/
abbrev FieldTable := SortedTable FieldValue

/-- The headers of a message. -/
abbrev Headers := SortedTable String

/-- The header that names a message. -/
def messageIdHeader : String := "message_id"

/-- The text that a field holds. -/
def FieldValue.text? : FieldValue → Option String
  | .long bytes => some (Text.ofUtf8Lossy bytes)
  | .short text => some text
  | .other _ => none

/-- The fields that carry the given headers. -/
def FieldTable.ofHeaders (hs : Headers) : FieldTable := hs.map fun text => .long (Text.utf8 text)

/-- The headers among the fields. -/
def FieldTable.headers (t : FieldTable) : Headers := t.filterMap fun _ v => v.text?

/-- What becomes of a message once it has been handled. -/
inductive Verdict where
  /-- The broker forgets the message. -/
  | accept
  /-- The broker delivers the message again. -/
  | requeue
  /-- The broker discards the message. -/
  | reject
  deriving DecidableEq, Repr, Inhabited

/-- A message as the broker hands it out. -/
structure Parcel where
  body : Bytes
  fields : Option FieldTable
  /-- The name of the message outside its fields. -/
  idProperty : Option String
  redelivered : Bool
  deriving DecidableEq, Repr

/-- The headers of a delivered message. -/
def Parcel.headers (p : Parcel) : Headers := (p.fields.map FieldTable.headers).getD .empty

/-- The name of a delivered message. A header goes before the property. -/
def Parcel.messageId (p : Parcel) : Option String :=
  (p.headers.get? messageIdHeader).or p.idProperty

/-- A message as it is handed out after it was published with headers. The name among the headers
is also the name outside them. -/
def Parcel.ofPublished (body : Bytes) (headers : Headers) (redelivered : Bool) : Parcel :=
  ⟨body, some (.ofHeaders headers), headers.get? messageIdHeader, redelivered⟩

/-- Whether each of `count` settlements of one message takes effect. Only the first does. -/
def settlementsTaken : Nat → List Bool
  | 0 => []
  | n + 1 => true :: List.replicate n false

end Reconnect.Broker
