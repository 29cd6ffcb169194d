/-
Reading the modem's message list (libGSM.c 911–1007): `numSMS` counts
the `+CMGL: ` headers of a reply, `getSMS` parses the message at the
given place.

# Pointers

Pointers into the reply and into the copied header line are the texts
they point at (`Lib/Bytes.lean`), so `pend - msgidx` is a difference of
lengths and `pend + 2` drops two bytes. The header line is copied into
`len + 4` zeroed bytes, so the pointer that the field loop moves one
past the terminator of a line that ends in a quote still points at a
NUL; `drop` past the end gives the same empty text.

# Loops

Both search loops and the field loop shorten the text at every turn;
they are written with the text's length as fuel. That it is enough is
proved where it matters (`fieldLoop_fuel`, `numSMSLoop_eq`).

# Locals

`getSMS` converts the time with `sscanf` into locals that it has not
initialised, and does not look at how many it has assigned. They are an
input here (`ScanLocals`), and so a result can be seen to depend on
them.

# Not modelled

The result of the body's `calloc`, which the source does not check (the
body is allocated here).
-/
import ShZ001.Lib.Scan

namespace ShZ001.Sms

open Lib

-- ============================================================ the record

/-- `SMS_Msg` (libGSM.h 16–25). `msg` is the body's block, `none` for
`NULL`; the three `char[32]` fields are their C strings. -/
structure SmsMsg where
  idx : Int
  msg : Option (List UInt8)
  stat : List UInt8
  from' : List UInt8
  time : List UInt8
  timeValue : Int
  tz : Int
  deriving DecidableEq

/-- A zeroed record. -/
def SmsMsg.zero : SmsMsg where
  idx := 0
  msg := none
  stat := []
  from' := []
  time := []
  timeValue := 0
  tz := 0

-- ============================================================== the time

/-- The fields of `struct tm` that `getSMS` sets. -/
structure Tm where
  sec : Int
  min : Int
  hour : Int
  mday : Int
  mon : Int
  year : Int

/-- Days from 1970-01-01 to a day of the proleptic Gregorian calendar
(`m` from 1), counting years from March. -/
def daysFromCivil (y m d : Int) : Int :=
  let y := if m ≤ 2 then y - 1 else y
  let era := y / 400
  let yoe := y - era * 400
  let doy := (153 * ((m + 9) % 12) + 2) / 5 + d - 1
  let doe := yoe * 365 + yoe / 4 - yoe / 100 + doy
  era * 146097 + doe - 719468

/-- `mktime` without a time zone set (nothing in the source sets one):
fields out of range are carried over, and a time that does not fit the
32-bit `time_t` is -1. -/
def mktime (tm : Tm) : Int :=
  let y := 1900 + tm.year + tm.mon / 12
  let m := tm.mon % 12 + 1
  let days := daysFromCivil y m 1 + (tm.mday - 1)
  let secs := days * 86400 + tm.hour * 3600 + tm.min * 60 + tm.sec
  if int32Min ≤ secs ∧ secs ≤ int32Max then secs else -1

example : mktime ⟨56, 34, 12, 10, 5, 117⟩ = 1497098096 := by decide

/-- The locals of line 994 that `sscanf` assigns. They are not
initialised: a field the text does not give keeps its old value. -/
structure ScanLocals where
  hh : Int
  mm : Int
  ss : Int
  yy : Int
  mn : Int
  dd : Int
  tz : Int

/-- `"%u/%u/%u,%u:%u:%u%d"` with the arguments of line 996. -/
def timeFormat : List (Directive ScanLocals) :=
  [.unsigned fun v l => { l with yy := v }, .literal 0x2f,
    .unsigned fun v l => { l with mn := v }, .literal 0x2f,
    .unsigned fun v l => { l with dd := v }, .literal 0x2c,
    .unsigned fun v l => { l with hh := v }, .literal 0x3a,
    .unsigned fun v l => { l with mm := v }, .literal 0x3a,
    .unsigned fun v l => { l with ss := v },
    .signed fun v l => { l with tz := v }]

/-- Lines 992–1005: the time fields of a message whose time text is long
enough. -/
def setTime (locals : ScanLocals) (msg : SmsMsg) : SmsMsg :=
  if 20 ≤ msg.time.length then
    let l := sscanf timeFormat msg.time locals
    { msg with
      timeValue := mktime
        { sec := l.ss
          min := l.mm
          hour := l.hh
          mday := l.dd
          mon := l.mn
          year := l.yy + 100 }
      tz := l.tz.tdiv 4 }
  else msg

-- ============================================================ the headers

/-- `"+CMGL: "`. -/
def cmglStr : List UInt8 := bytes "+CMGL: "

/-- The line end. -/
def crlfStr : List UInt8 := bytes "\r\n"

/-- The loop of lines 919–924. -/
def numSMSLoop : Nat → List UInt8 → Nat → Nat
  | 0, _, nmsg => nmsg
  | fuel + 1, msgidx, nmsg =>
      match strstr cmglStr msgidx with
      | none => nmsg
      | some msgidx => numSMSLoop fuel (msgidx.drop 7) (nmsg + 1)

/-- `numSMS`. -/
def numSMS (rbuffer : List UInt8) : Nat :=
  if rbuffer.length = 0 then 0
  else numSMSLoop (rbuffer.length + 1) rbuffer 0

/-- The loop of lines 935–941: where the `idx`-th header's text begins
(`none` for `NULL`), and the headers counted. -/
def findSMSLoop (idx : Nat) :
    Nat → List UInt8 → Nat → Option (List UInt8) × Nat
  | 0, _, nmsg => (none, nmsg)
  | fuel + 1, msgidx, nmsg =>
      match strstr cmglStr msgidx with
      | none => (none, nmsg)
      | some msgidx =>
          if nmsg + 1 = idx then (some (msgidx.drop 7), nmsg + 1)
          else findSMSLoop idx fuel (msgidx.drop 7) (nmsg + 1)

-- ============================================================= the fields

/-- Lines 976–979: a field's text without the quote that closes it. -/
def fieldText (buf : List UInt8) : List UInt8 :=
  if buf.getLast? = some 0x22 then buf.dropLast else buf

/-- Lines 981–984: what the `i`-th field of the header line is. -/
def setField (i : Nat) (buf : List UInt8) (msg : SmsMsg) : SmsMsg :=
  if i = 1 then { msg with idx := strtol buf }
  else if i = 2 then { msg with stat := buf }
  else if i = 3 then { msg with from' := buf }
  else if i = 5 then { msg with time := buf }
  else msg

/-- Lines 988–990: the next separator, `,"` or a single quote. -/
def nextField (msgidx : List UInt8) : Option (List UInt8) :=
  match strstr (bytes ",\"") msgidx with
  | some pend => some pend
  | none => strstr (bytes "\"") msgidx

/-- The loop of lines 972–991. -/
def fieldLoop :
    Nat → List UInt8 → Option (List UInt8) → Nat → SmsMsg → SmsMsg
  | 0, _, _, _, msg => msg
  | _ + 1, _, none, _, msg => msg
  | fuel + 1, msgidx, some pend, i, msg =>
      let len := msgidx.length - pend.length
      let msg :=
        if len < 32 ∧ 0 < len then
          setField i (fieldText (msgidx.take len)) msg
        else msg
      fieldLoop fuel (pend.drop 2) (nextField (pend.drop 2)) (i + 1) msg

/-- `getSMS`: the result, and the message written to `*msg` (`none`
where it is left as it was). -/
def getSMS (rbuffer : List UInt8) (idx : Nat) (locals : ScanLocals) :
    Nat × Option SmsMsg :=
  let (header, nmsg) := findSMSLoop idx (rbuffer.length + 1) rbuffer 0
  if nmsg ≠ idx then (0, none)
  else
    match header with
    -- only for index 0, which no caller asks for
    | none => (0, some .zero)
    | some msgidx =>
        match strstr crlfStr msgidx with
        | none => (0, some .zero)
        | some pend =>
            let hdr := msgidx.take (msgidx.length - pend.length)
            let msgidx := pend.drop 2
            match strstr crlfStr msgidx with
            | none => (0, some .zero)
            | some pend =>
                let body := msgidx.take (msgidx.length - pend.length)
                let msg := { SmsMsg.zero with msg := some body }
                let msg := fieldLoop (hdr.length + 1) hdr
                  (strstr (bytes ",\"") hdr) 1 msg
                (nmsg, some (setTime locals msg))

end ShZ001.Sms
