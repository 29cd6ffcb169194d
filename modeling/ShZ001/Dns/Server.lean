/-
`captdnsTask` (captdns.c 267–306) against a network: the socket and its
queue, the one receive buffer that every datagram goes through, and what
is sent.

# The network

The network hands over and loses datagrams at any moment, also while one
is being answered, and decides what `socket`, `bind` and `recvfrom`
report. The address of the access point is fixed while it is up. A
datagram longer than the buffer is cut, as `recvfrom` does.

# What the source leaves open

Uninitialised arrays and the memory behind the receive buffer come with
the step that reads them, as `Scratch`, so a run may choose them anew
each time. The buffer itself is never cleared: behind a short datagram
stands what the last long one has left there.

# One task

A step of `captdnsRecv` exists only if its loops end; a task that stays
in one has no step left, while the network goes on. The log keeps what
`recvfrom` has delivered and what has been sent, newest first.

# Left out

Not modelled: the delay between two tries to open the socket, the
`printf`s, and what `sendto` reports.
-/
import ShZ001.Lib.History
import ShZ001.Lib.Machine
import ShZ001.Dns.Recv

namespace ShZ001.Dns

open Lib

-- =============================================================== the network

/-- `struct sockaddr_in`, the address and port in it. -/
structure SockAddr where
  addr : UInt32
  port : UInt16
  deriving DecidableEq, Repr

/-- `memset(&from, 0, sizeof(from))`. -/
def SockAddr.zero : SockAddr where
  addr := 0
  port := 0

/-- A datagram on its way to the socket, and who sent it. -/
structure Datagram where
  peer : SockAddr
  bytes : List UInt8
  deriving DecidableEq, Repr

-- ================================================================== the task

/-- Where the task is: opening the socket, binding it, inside `recvfrom`,
or behind it with the values of `from` and `ret`. -/
inductive ServerPhase where
  | socket
  | bind
  | recvfrom
  | received (peer : SockAddr) (ret : Nat)
  deriving DecidableEq

/-- What `recvfrom` and `captdnsRecv` have done. -/
inductive Seen where
  | took (d : Datagram)
  | failed
  | sent (peer : SockAddr) (bytes : List UInt8)
  | silent

structure Server where
  phase : ServerPhase
  sockFd : Int
  queue : List Datagram
  udpMsg : Slots UInt8
  log : List Seen

/-- What memory holds that the source does not set. -/
structure Scratch where
  buff : Nat → UInt8
  reply : Nat → UInt8
  beyond : Nat → UInt8

/-- `recvfrom` and `captdnsRecv` are the task's; the network does the
last two, and decides about the results of `socket` and `bind`. -/
inductive ServerAct where
  | socket (sockFd : Int)
  | bind (ret : Nat)
  | recvfrom
  | recvError
  | captdnsRecv (fuel : Nat) (x : Scratch)
  | arrive (d : Datagram)
  | lose

/-- Datagrams are queued from `bind` on. -/
def ServerPhase.bound : ServerPhase → Bool
  | .socket | .bind => false
  | .recvfrom | .received .. => true

/-- `(uint32_t) -1`. -/
def recvFailed : Nat := 4294967295

/-- `recvfrom` takes a datagram: its first `DNS_LEN` bytes go to
`udp_msg`. -/
def Server.take (s : Server) (d : Datagram) : Server :=
  let msg := d.bytes.take dnsLen
  { s with
    phase := .received d.peer msg.length
    udpMsg := s.udpMsg.writeAll 0 msg
    log := .took d :: s.log }

/-- The memory at `udp_msg`. -/
def Server.packet (s : Server) (x : Scratch) (p : Nat) : UInt8 :=
  if p < dnsLen then s.udpMsg.cell p else x.beyond p

/-- What `captdnsRecv` is called with; `length` is an
`unsigned short`. -/
def Server.recvEnv (s : Server) (ip : UInt8 × UInt8 × UInt8 × UInt8)
    (ret : Nat) (x : Scratch) : RecvEnv where
  packet := s.packet x
  length := ret % 65536
  ip := ip
  buff := x.buff
  reply := x.reply

/-- What a call of `captdnsRecv` has done. -/
def outcome (peer : SockAddr) : Option (List UInt8) → Seen
  | some r => .sent peer r
  | none => .silent

/-- Behind the call. -/
def Server.answered (s : Server) (peer : SockAddr)
    (sent : Option (List UInt8)) : Server :=
  { s with
    phase := .recvfrom
    log := outcome peer sent :: s.log }

/-- Lines 300–305 once a datagram or an error is there: `ret > 0` for an
error too. -/
def Server.handle (s : Server) (ip : UInt8 × UInt8 × UInt8 × UInt8)
    (peer : SockAddr) (ret fuel : Nat) (x : Scratch) : Option Server :=
  if 0 < ret then
    (Dns.captdnsRecv fuel (s.recvEnv ip ret x)).map fun out =>
      s.answered peer out.sent
  else some (s.answered peer none)

/-- One step. -/
def Server.step (ip : UInt8 × UInt8 × UInt8 × UInt8) (a : ServerAct)
    (s : Server) : Option Server :=
  match a, s.phase with
  | .socket fd, .socket =>
      some
        { s with
          sockFd := fd
          phase := if fd = -1 then .socket else .bind }
  | .bind ret, .bind =>
      some { s with phase := if ret = 0 then .recvfrom else .bind }
  | .recvfrom, .recvfrom =>
      match s.queue with
      | [] => none
      | d :: rest => some ({ s with queue := rest }.take d)
  | .recvError, .recvfrom =>
      some
        { s with
          phase := .received .zero recvFailed
          log := .failed :: s.log }
  | .captdnsRecv fuel x, .received peer ret => s.handle ip peer ret fuel x
  | .arrive d, _ =>
      if s.phase.bound then some { s with queue := s.queue ++ [d] }
      else none
  | .lose, _ => some { s with queue := s.queue.dropLast }
  | _, _ => none

/-- The task from its start, `udp_msg` holding `msg`. -/
def captdnsTask (ip : UInt8 × UInt8 × UInt8 × UInt8) (msg : Nat → UInt8) :
    Machine Server ServerAct where
  init :=
    { phase := .socket
      sockFd := 0
      queue := []
      udpMsg := .array dnsLen msg
      log := [] }
  apply := Server.step ip

end ShZ001.Dns
