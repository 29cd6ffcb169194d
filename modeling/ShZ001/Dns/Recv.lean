/-
`captdnsRecv` (captdns.c 168–265): the answer to one datagram.

# The reply

The reply starts as a copy of the request with the response bit set;
every question of a known type adds a record behind it, at the cursor
`rend`. The name of the question is decoded into `buff` and encoded
again as the owner of the record. Neither array is initialised, and
neither cursor is tested against the end of the reply: the arrays are
parameters of the call, and what is written is on the record
(`Lib/Slots.lean`).

# What ends the call

A datagram that is too long, too short for a header, truncated or not
without records is ignored (`accepted`). One whose names leave the
datagram is dropped without an answer, whatever has been written. A name
that does not end keeps the call in its loop, which is `none` here.

# Left out

Not modelled: the `printf` of each question, its class (it is only
printed), and what `sendto` reports.
-/
import ShZ001.Dns.Name

namespace ShZ001.Dns

open Lib

/-- `DNS_LEN`. -/
def dnsLen : Nat := 512

/-- `sizeof(DnsHeader)`. -/
def sizeofDnsHeader : Nat := 12

/-- `sizeof(DnsQuestionFooter)`. -/
def sizeofDnsQuestionFooter : Nat := 4

/-- `sizeof(DnsResourceFooter)`. -/
def sizeofDnsResourceFooter : Nat := 10

/-- `sizeof(DnsUriHdr)`. -/
def sizeofDnsUriHdr : Nat := 4

def flagQR : UInt8 := 0x80
def flagTC : UInt8 := 0x02

def qtypeA : Nat := 1
def qtypeNS : Nat := 2
def qtypeURI : Nat := 256

def qclassIN : Nat := 1
def qclassURI : Nat := 256

/-- What `captdnsRecv` gets: the memory at `pusrdata`, the length of the
datagram in it, the address of the access point, and what its two local
arrays and the memory behind them hold. -/
structure RecvEnv where
  packet : Nat → UInt8
  length : Nat
  ip : UInt8 × UInt8 × UInt8 × UInt8
  buff : Nat → UInt8
  reply : Nat → UInt8

/-- The variables of the question loop. -/
structure RecvVars where
  p : Nat
  rend : Nat
  reply : Slots UInt8
  buff : Slots UInt8

/-- The outcome: the bytes sent, if any were, and the variables at the
end. -/
structure RecvOut where
  sent : Option (List UInt8)
  rend : Nat
  reply : Slots UInt8
  buff : Slots UInt8

-- ================================================================ the header

/-- `hdr->qdcount`. -/
def qdcount (packet : Nat → UInt8) : Nat := ntohs packet 4

/-- `hdr->ancount || hdr->nscount || hdr->arcount`. -/
def hasRecords (packet : Nat → UInt8) : Bool :=
  ntohs packet 6 ≠ 0 || ntohs packet 8 ≠ 0 || ntohs packet 10 ≠ 0

/-- Does the datagram get past the checks of lines 181–184? -/
def accepted (packet : Nat → UInt8) (length : Nat) : Bool :=
  length ≤ dnsLen && sizeofDnsHeader ≤ length && !hasRecords packet
    && packet 2 &&& flagTC = 0

/-- `setn16(&rhdr->ancount, my_ntohs(&rhdr->ancount)+1)`. -/
def countAnswer (reply : Slots UInt8) : Slots UInt8 :=
  setn16 6 (ntohs reply.cell 6 + 1) reply

-- =============================================================== the records

/-- The C string that `labelToStr` left in `buff`; its terminator is at
most one past the array. -/
def text (buff : Slots UInt8) : List UInt8 :=
  cstr (slice buff.cell 0 (buff.size + 1))

/-- The address record behind the owner name, at `rf` (lines 206–223). -/
def recordA (ip : UInt8 × UInt8 × UInt8 × UInt8) (rf : Nat)
    (reply : Slots UInt8) : Nat × Slots UInt8 :=
  let rend := rf + sizeofDnsResourceFooter
  let reply := setn16 rf qtypeA reply
  let reply := setn16 (rf + 2) qclassIN reply
  let reply := setn32 (rf + 4) 0 reply
  let reply := setn16 (rf + 8) 4 reply
  let (a₁, a₂, a₃, a₄) := ip
  (rend + 4, countAnswer (reply.writeAll rend [a₁, a₂, a₃, a₄]))

/-- The name server record (lines 230–240). Its `ttl` is set with
`setn16`. -/
def recordNS (rf : Nat) (reply : Slots UInt8) : Nat × Slots UInt8 :=
  let rend := rf + sizeofDnsResourceFooter
  let reply := setn16 rf qtypeNS reply
  let reply := setn16 (rf + 2) qclassIN reply
  let reply := setn16 (rf + 4) 0 reply
  let reply := setn16 (rf + 8) 4 reply
  (rend + 4, countAnswer (reply.writeAll rend [2, 0x6e, 0x73, 0]))

/-- The URI record (lines 245–257), `ttl` as in `recordNS`. -/
def recordURI (rf : Nat) (reply : Slots UInt8) : Nat × Slots UInt8 :=
  let uh := rf + sizeofDnsResourceFooter
  let rend := uh + sizeofDnsUriHdr
  let reply := setn16 rf qtypeURI reply
  let reply := setn16 (rf + 2) qclassURI reply
  let reply := setn16 (rf + 4) 0 reply
  let reply := setn16 (rf + 8) (4 + 16) reply
  let reply := setn16 uh 10 reply
  let reply := setn16 (uh + 2) 1 reply
  (rend + 16, countAnswer (reply.writeAll rend (bytes "http://esp.nonet")))

-- ============================================================= the questions

/-- Lines 200–259: what is added to the reply for a question of this
type. -/
def answer (env : RecvEnv) (type : Nat) (v : RecvVars) : RecvVars :=
  if type = qtypeA then
    let (rf, reply) := strToLabel (text v.buff) v.rend v.reply
    let (rend, reply) := recordA env.ip rf reply
    { v with
      rend := rend
      reply := reply }
  else if type = qtypeNS then
    let (rf, reply) := strToLabel (text v.buff) v.rend v.reply
    let (rend, reply) := recordNS rf reply
    { v with
      rend := rend
      reply := reply }
  else if type = qtypeURI then
    let (rf, reply) := strToLabel (text v.buff) v.rend v.reply
    let (rend, reply) := recordURI rf reply
    { v with
      rend := rend
      reply := reply }
  else v

/-- The loop of lines 189–260 for `n` more questions; is the datagram
dropped? `none` if a name does not end within `fuel` turns. -/
def questionLoop (fuel : Nat) (env : RecvEnv) :
    Nat → RecvVars → Option (RecvVars × Bool)
  | 0, v => some (v, false)
  | n + 1, v =>
      match labelToStr fuel env.packet v.p env.length v.buff dnsLen with
      | none => none
      | some (none, buff) => some ({ v with buff := buff }, true)
      | some (some qf, buff) =>
          let v := { v with
            p := qf + sizeofDnsQuestionFooter
            buff := buff }
          questionLoop fuel env n (answer env (ntohs env.packet qf) v)

/-- A return before the request is copied. -/
def ignored (env : RecvEnv) : RecvOut where
  sent := none
  rend := env.length
  reply := .array dnsLen env.reply
  buff := .array dnsLen env.buff

/-- The variables before the loop: the reply is the request, marked as a
response (lines 186–187). -/
def copied (env : RecvEnv) : RecvVars :=
  let reply := (Slots.array dnsLen env.reply).writeAll 0
    (slice env.packet 0 env.length)
  { p := sizeofDnsHeader
    rend := env.length
    reply := reply.write 2 (reply.cell 2 ||| flagQR)
    buff := .array dnsLen env.buff }

/-- `captdnsRecv`. -/
def captdnsRecv (fuel : Nat) (env : RecvEnv) : Option RecvOut :=
  if accepted env.packet env.length then
    match questionLoop fuel env (qdcount env.packet) (copied env) with
    | none => none
    | some (v, dropped) =>
        some
          { sent :=
              if dropped then none
              else some (slice v.reply.cell 0 v.rend)
            rend := v.rend
            reply := v.reply
            buff := v.buff }
  else some (ignored env)

end ShZ001.Dns
