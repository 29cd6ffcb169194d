/-
What the modem sends for a list of messages in text mode: a header line
and the text for each, then the final result.

# The grammar

A header has the index and four quoted fields: the status, the sender,
the name that the modem has for the sender, and the time stamp. The body
is whatever was sent, so it may have line ends in it, or a text that
looks like a header; so may the name. What the form itself excludes is
in the types: a field has no quotes and no NULs, and the lengths of
those fields that the code stores are ones it has room for.

# Its use

`render` is the statement's side of reading a list back: it is written
from the form of the replies, not from the code that reads them.
-/
import ShZ001.Lib.Decimal
import ShZ001.Sms.Parse

namespace ShZ001.Sms

open Lib

/-- A field between quotes: without quotes itself, and without NULs, since
the reply is a C string. -/
structure FieldOk (field : List UInt8) : Prop where
  quote : 0x22 ∉ field
  nul : 0 ∉ field

/-- A message as it is listed. -/
structure Listed where
  index : Nat
  status : List UInt8
  sender : List UInt8
  name : List UInt8
  time : List UInt8
  body : List UInt8
  index_lt : index < 2147483648
  status_ok : FieldOk status ∧ status.length ≤ 30
  sender_ok : FieldOk sender ∧ sender.length ≤ 30
  name_ok : FieldOk name
  time_ok : FieldOk time ∧ time.length ≤ 30
  body_ok : 0 ∉ body

/-- A field between its quotes, behind a comma. -/
def quoted (field : List UInt8) : List UInt8 :=
  bytes ",\"" ++ field ++ bytes "\""

/-- The header behind its marker. -/
def Listed.header (m : Listed) : List UInt8 :=
  decimal m.index ++ quoted m.status ++ quoted m.sender ++ quoted m.name
    ++ quoted m.time

/-- The reply to `AT+CMGL="ALL"`. -/
def render : List Listed → List UInt8
  | [] => bytes "\r\nOK\r\n"
  | m :: ms =>
      cmglStr ++ m.header ++ crlfStr ++ m.body ++ crlfStr ++ render ms

end ShZ001.Sms
