/-
`smsRead` (libGSM.c 1010–1097): the message list as an array, in listing
order or sorted by time.

# Element addresses

`messages` is an `SMS_Msg *`, so `messages + i` is the `i`-th element;
the code adds `i * sizeof(SMS_Msg)` to it. `slot` is the element
position that expression names, 112 elements apart. The blocks record
every position touched (`Lib/Slots.lean`), and what lies past their ends
is an input, as are the outcomes of the allocations and the
uninitialised locals.

# The sort

It fills the places of a second array one by one: it searches the open
messages for the next time, by a linear scan from a start value, then
takes the first open message that has that time. A place for which the
scan ends with a time that no open message has stays as it was. The
ascending and the descending sort are one function with a start value
and a comparison; both are kept under the names of their lines.

# The result

The caller gets one of the two arrays and the number of messages. Both
arrays are in `ReadOut`, since what was accessed in them is of interest
whichever is handed over.
-/
import ShZ001.Sms.Parse
import ShZ001.Lib.Slots

namespace ShZ001.Sms

open Lib

/-- `sizeof(SMS_Msg)` on the target: four 4-byte fields (the index, the
body pointer, the time, the time zone) and three arrays of 32 bytes. -/
def sizeofSmsMsg : Nat := 112

/-- The element position of `messages + (i * sizeof(SMS_Msg))`. -/
def slot (i : Nat) : Nat := i * sizeofSmsMsg

/-- What `smsRead` gets from its surroundings: the result of
`sms_ready`, the allocations, the reply to `AT+CMGL` (`res`, and the
text in `rbuffer`), and the memory it does not initialise. -/
structure ReadEnv where
  ready : Bool
  rbufferAlloc : Bool
  res : Int
  rbuffer : List UInt8
  messagesAlloc : Bool
  smessagesAlloc : Bool
  locals : Nat → ScanLocals
  msg : SmsMsg
  pastMessages : Nat → SmsMsg
  pastSmessages : Nat → SmsMsg

/-- The variables of `smsRead` when it returns. `result` is
`SMSmesg->messages`, `none` for `NULL`; the two arrays are there for
their records of accesses. -/
structure ReadOut where
  nmsg : Nat
  result : Option (Slots SmsMsg)
  messages : Slots SmsMsg
  smessages : Slots SmsMsg

-- ================================================================ filling

/-- The variables of the fill loop: `msg`, `messages`,
`SMSmesg->nmsg`. -/
structure FillVars where
  msg : SmsMsg
  messages : Slots SmsMsg
  nmsg : Nat

/-- Lines 1037–1042. -/
def fillStep (env : ReadEnv) (v : FillVars) (i : Nat) : FillVars :=
  let (ret, parsed) := getSMS env.rbuffer (i + 1) (env.locals i)
  let msg := parsed.getD v.msg
  if 0 < ret then
    { msg := msg
      messages := v.messages.write (slot i) msg
      nmsg := v.nmsg + 1 }
  else { v with msg := msg }

/-- The fill loop for the first `n` listed messages. -/
def fill (env : ReadEnv) (messages : Slots SmsMsg) (n : Nat) : FillVars :=
  (List.range n).foldl (fillStep env)
    { msg := env.msg
      messages := messages
      nmsg := 0 }

-- ================================================================ sorting

/-- The variables of the sort: the two arrays and the marks `mm`. -/
structure SortVars where
  messages : Slots SmsMsg
  smessages : Slots SmsMsg
  mm : List Bool

/-- Is message `i` still to be placed? -/
def SortVars.open' (v : SortVars) (i : Nat) : Bool := v.mm.getD i false

/-- The time of message `i`. -/
def SortVars.timeValue (v : SortVars) (i : Nat) : Int :=
  (v.messages.cell (slot i)).timeValue

/-- Lines 1052–1056 and 1073–1077: one turn of the search for the next
time; a better one is read twice. -/
def scanStep (better : Int → Int → Bool) (p : SortVars × Int) (i : Nat) :
    SortVars × Int :=
  let (v, tm) := p
  if v.open' i then
    if better (v.timeValue i) tm then
      ({ v with messages := (v.messages.touch (slot i)).touch (slot i) },
        v.timeValue i)
    else ({ v with messages := v.messages.touch (slot i) }, tm)
  else (v, tm)

/-- Lines 1058–1066 and 1079–1087: the first open message with that time
is copied to place `idx`, and the loop is left. -/
def copyLoop (idx : Nat) (tm : Int) : List Nat → SortVars → SortVars
  | [], v => v
  | i :: rest, v =>
      if v.open' i then
        if v.timeValue i = tm then
          { messages := (v.messages.touch (slot i)).touch (slot i)
            smessages :=
              v.smessages.write (slot idx) (v.messages.cell (slot i))
            mm := v.mm.set i false }
        else
          copyLoop idx tm rest
            { v with messages := v.messages.touch (slot i) }
      else copyLoop idx tm rest v

/-- One place of the sorted array. -/
def sortStep (tm₀ : Int) (better : Int → Int → Bool) (nmsg : Nat)
    (v : SortVars) (idx : Nat) : SortVars :=
  let (v, tm) := (List.range nmsg).foldl (scanStep better) (v, tm₀)
  copyLoop idx tm (List.range nmsg) v

/-- The sort loops, which differ in the start value of `tm` and in the
comparison. -/
def sortLoop (tm₀ : Int) (better : Int → Int → Bool) (nmsg : Nat)
    (v : SortVars) : SortVars :=
  (List.range nmsg).foldl (sortStep tm₀ better nmsg) v

/-- `sort > 0` (lines 1047–1066). -/
def sortUp (nmsg : Nat) (v : SortVars) : SortVars :=
  sortLoop 0x7fffffff (fun t tm => decide (t < tm)) nmsg v

/-- `sort < 0` (lines 1068–1087). -/
def sortDown (nmsg : Nat) (v : SortVars) : SortVars :=
  sortLoop 0 (fun t tm => decide (t > tm)) nmsg v

/-- Lines 1045–1088, from the allocation of `smessages` on. -/
def sorted (env : ReadEnv) (sort : Int) (messages : Slots SmsMsg)
    (nmsg : Nat) : SortVars :=
  let v : SortVars :=
    { messages := messages
      smessages := .calloc (if env.smessagesAlloc then nmsg else 0) .zero
        env.pastSmessages
      mm := List.replicate nmsg true }
  if 0 < sort then sortUp nmsg v else sortDown nmsg v

-- ================================================================ smsRead

/-- A return before anything was listed. -/
def nothingRead (env : ReadEnv) : ReadOut where
  nmsg := 0
  result := none
  messages := .calloc 0 .zero env.pastMessages
  smessages := .calloc 0 .zero env.pastSmessages

/-- Lines 1045–1094: what is done with the filled array. -/
def handOver (env : ReadEnv) (sort : Int) (v : FillVars) : ReadOut :=
  if 0 < v.nmsg ∧ sort ≠ 0 then
    let w := sorted env sort v.messages v.nmsg
    { nmsg := v.nmsg
      result := if env.smessagesAlloc then some w.smessages else none
      messages := w.messages
      smessages := w.smessages }
  else
    { nmsg := v.nmsg
      result := if 0 < v.nmsg then some v.messages else none
      messages := v.messages
      smessages := .calloc 0 .zero env.pastSmessages }

/-- `smsRead`. -/
def smsRead (env : ReadEnv) (sort : Int) : ReadOut :=
  if env.ready = false then nothingRead env
  else if env.rbufferAlloc = false then nothingRead env
  else if env.res ≤ 0 then nothingRead env
  else
    let n := numSMS env.rbuffer
    if n = 0 then nothingRead env
    else if env.messagesAlloc = false then nothingRead env
    else handOver env sort (fill env (.calloc n .zero env.pastMessages) n)

end ShZ001.Sms
