/-
Traffic accounting: what `getRxTxCount` hands out against the bytes that
crossed the UART.

# Two counters, the wrong way round

Received bytes are added to `pppos_tx_count` and sent bytes to
`pppos_rx_count`: the two counters stand for the modem's side of the
line, their names and the header's "Get transmitted and received bytes
count" for the caller's. Each counter by itself keeps perfect books
(`books_of_reach`): no byte is lost or counted twice over any sequence
of reads, resets and task lives.

# Refused writes

`uart_write_bytes` answers -1 when it takes nothing. The callback keeps
the answer in a `uint32_t`, finds it greater than 0 and adds it, so that
a refused write counts as 4294967295 bytes. The meter counts no byte for
it and remembers that it happened (`Traffic.refused`).

# The law

A read is right exactly if the same number of bytes, modulo 2^32, went
either way since the last reset and no write was refused, again modulo
2^32 (`accounted_iff_balanced`).

A byte belongs to the critical section that counts it. What has been
read or written but not counted yet is in flight (`inFlight`); lines
300–310 and 628–635 leave nothing else uncounted (`Flow`).
-/
import Mathlib.Data.Nat.ModEq
import ShZ001.Lib.Observe
import ShZ001.Gsm.Handshake

namespace ShZ001.Gsm

open Lib Machine

-- ================================================================ the meter

/-- `uart_write_bytes`' -1 in the `uint32_t` of the callback. -/
def writeFailed : UInt32 := 4294967295

/-- Bytes a write with this result has put on the line. -/
def accepted (ret : UInt32) : Nat :=
  if ret = writeFailed then 0 else ret.toNat

/-- Is it a refused write? 1 or 0. -/
def refused (ret : UInt32) : Nat := if ret = writeFailed then 1 else 0

/-- Bytes in either direction, seen from the caller's side: received from
the modem, sent to it; and the writes the UART refused. -/
structure Traffic where
  rcvd : Nat
  sent : Nat
  refused : Nat
  deriving DecidableEq, Repr

def Traffic.zero : Traffic := ⟨0, 0, 0⟩

def Traffic.receive (n : Nat) (t : Traffic) : Traffic :=
  { t with rcvd := t.rcvd + n }

/-- A write with this result. -/
def Traffic.send (ret : UInt32) (t : Traffic) : Traffic :=
  { t with
    sent := t.sent + ShZ001.Gsm.accepted ret
    refused := t.refused + ShZ001.Gsm.refused ret }

/-- One read of the counters: what was handed out and what had crossed
the line since the last reset. -/
structure Reading where
  rx : UInt32
  tx : UInt32
  traffic : Traffic
  deriving DecidableEq, Repr

/-- The traffic counted since the last reset (`now`), since the counters
were last cleared unread (`kept`) and ever; the reads since the counters
were last cleared unread that reset them, and all reads. -/
structure Meter where
  now : Traffic
  kept : Traffic
  ever : Traffic
  resets : List Reading
  reads : List Reading

def Meter.zero : Meter where
  now := .zero
  kept := .zero
  ever := .zero
  resets := []
  reads := []

/-- The same happens to the three tallies. -/
def Meter.tally (f : Traffic → Traffic) (m : Meter) : Meter :=
  { m with now := f m.now, kept := f m.kept, ever := f m.ever }

/-- The counters are cleared and nobody is told. -/
def Meter.clear (m : Meter) : Meter :=
  { m with now := .zero, kept := .zero, resets := [] }

def Meter.read (rx tx : UInt32) (rst : Bool) (m : Meter) : Meter :=
  let r : Reading := ⟨rx, tx, m.now⟩
  if rst then
    { m with now := .zero, resets := r :: m.resets, reads := r :: m.reads }
  else { m with reads := r :: m.reads }

/-- What a step means for the meter. Lengths are those of the critical
sections that count them; what a read hands out is what the step logs. -/
def meterStep (s : Sys) (a : Act) (s' : Sys) (m : Meter) : Meter :=
  match a with
  | .task _ =>
      match s.task with
      | .count _ len => m.tally (.receive len)
      | .reset => m.clear
      | _ => m
  | .outCount =>
      match s.tcpip with
      | some ret => m.tally (.send ret)
      | none => m
  | .resetCounts => m.clear
  | .getCounts _ =>
      match s'.log with
      | .counts rx tx rst :: _ => m.read rx tx rst
      | _ => m
  | _ => m

/-- The system with its meter. -/
def metered : Machine (Sys × Meter) Act := client.observe .zero meterStep

-- ================================================================== the law

/-- The sum of one value over the resetting reads, modulo 2^32. -/
def handedOut (f : Reading → UInt32) : List Reading → UInt32
  | [] => 0
  | r :: rest => f r + handedOut f rest

/-- The accounting law: every read is right, and the resetting reads
together with what has been counted since are all the traffic since the
counters were last cleared unread. -/
structure Accounted (m : Meter) : Prop where
  each : ∀ r ∈ m.reads, r.rx = UInt32.ofNat r.traffic.rcvd ∧
    r.tx = UInt32.ofNat r.traffic.sent
  adds : handedOut Reading.rx m.resets + UInt32.ofNat m.now.rcvd
      = UInt32.ofNat m.kept.rcvd ∧
    handedOut Reading.tx m.resets + UInt32.ofNat m.now.sent
      = UInt32.ofNat m.kept.sent

/-- As much traffic one way as the other when the counters were read, and
no write refused. -/
def Balanced (m : Meter) : Prop :=
  ∀ r ∈ m.reads, r.traffic.rcvd ≡ r.traffic.sent [MOD 2 ^ 32] ∧
    r.traffic.refused ≡ 0 [MOD 2 ^ 32]

-- ================================================================ the books

/-- A value of the traffic, as the counters' type has it. -/
def Reading.sum (f : Traffic → Nat) (r : Reading) : UInt32 :=
  UInt32.ofNat (f r.traffic)

/-- The counters' own books: `pppos_rx_count` keeps the bytes sent, less
one for each refused write, and `pppos_tx_count` the bytes received. The
meter's own: what the resetting reads found and what has been counted
since are all that was counted. -/
structure Books (s : Sys) (m : Meter) : Prop where
  rx : s.ppposRxCount + UInt32.ofNat m.now.refused = UInt32.ofNat m.now.sent
  tx : s.ppposTxCount = UInt32.ofNat m.now.rcvd
  reads : ∀ r ∈ m.reads,
    r.rx + UInt32.ofNat r.traffic.refused = UInt32.ofNat r.traffic.sent ∧
    r.tx = UInt32.ofNat r.traffic.rcvd
  resets : ∀ r ∈ m.resets, r ∈ m.reads
  kept : ∀ f : Traffic → Nat, f = Traffic.rcvd ∨ f = Traffic.sent →
    handedOut (Reading.sum f) m.resets + UInt32.ofNat (f m.now)
      = UInt32.ofNat (f m.kept)

/-- An accepted write adds its bytes; a refused one takes one away. -/
theorem write_counts (ret : UInt32) :
    ret + UInt32.ofNat (refused ret) = UInt32.ofNat (accepted ret) := by
  unfold refused accepted
  split
  case isTrue h =>
      rw [h]
      rfl
  case isFalse =>
      rw [UInt32.ofNat_toNat]
      exact UInt32.add_zero ret

/-- What a step does that leaves the counters alone. -/
private theorem books_same {s s' : Sys} {m : Meter} (hi : Books s m)
    (hrx : s'.ppposRxCount = s.ppposRxCount)
    (htx : s'.ppposTxCount = s.ppposTxCount) : Books s' m :=
  ⟨by rw [hrx, hi.rx], by rw [htx, hi.tx], hi.reads, hi.resets, hi.kept⟩

/-- A tally moves `now` and `kept` by the same amount. -/
private theorem kept_tally {g : Traffic → Traffic} {m : Meter}
    {f : Traffic → Nat} {n : Nat} (hg : ∀ t, f (g t) = f t + n)
    (h : handedOut (Reading.sum f) m.resets + UInt32.ofNat (f m.now)
      = UInt32.ofNat (f m.kept)) :
    handedOut (Reading.sum f) (m.tally g).resets
        + UInt32.ofNat (f (m.tally g).now)
      = UInt32.ofNat (f (m.tally g).kept) := by
  show handedOut (Reading.sum f) m.resets + UInt32.ofNat (f (g m.now))
    = UInt32.ofNat (f (g m.kept))
  rw [hg, hg, UInt32.ofNat_add, UInt32.ofNat_add, ← UInt32.add_assoc, h]

/-- Lines 633–635 and 697–699: the bytes read go to `pppos_tx_count`. -/
private theorem books_receive {s s' : Sys} {m : Meter} {n : Nat}
    (hi : Books s m) (hrx : s'.ppposRxCount = s.ppposRxCount)
    (htx : s'.ppposTxCount = s.ppposTxCount + UInt32.ofNat n) :
    Books s' (m.tally (.receive n)) := by
  refine ⟨by rw [hrx]; exact hi.rx, ?_, hi.reads, hi.resets, ?_⟩
  · rw [htx, hi.tx]
    exact (UInt32.ofNat_add _ _).symm
  · rintro f (rfl | rfl)
    · exact kept_tally (fun _ => rfl) (hi.kept _ (.inl rfl))
    · exact kept_tally (n := 0) (fun _ => rfl) (hi.kept _ (.inr rfl))

/-- Lines 304–307: the callback's result goes to `pppos_rx_count`. -/
private theorem books_send {s s' : Sys} {m : Meter} {ret : UInt32}
    (hi : Books s m)
    (hrx : s'.ppposRxCount = s.ppposRxCount + ret)
    (htx : s'.ppposTxCount = s.ppposTxCount) :
    Books s' (m.tally (.send ret)) := by
  refine ⟨?_, by rw [htx]; exact hi.tx, hi.reads, hi.resets, ?_⟩
  · show s'.ppposRxCount + UInt32.ofNat (m.now.refused + refused ret)
      = UInt32.ofNat (m.now.sent + accepted ret)
    rw [hrx, UInt32.ofNat_add, UInt32.ofNat_add, ← write_counts, ← hi.rx]
    ac_rfl
  · rintro f (rfl | rfl)
    · exact kept_tally (n := 0) (fun _ => rfl) (hi.kept _ (.inl rfl))
    · exact kept_tally (fun _ => rfl) (hi.kept _ (.inr rfl))

private theorem books_clear {s s' : Sys} {m : Meter} (hi : Books s m)
    (hrx : s'.ppposRxCount = 0) (htx : s'.ppposTxCount = 0) :
    Books s' m.clear := by
  refine ⟨by rw [hrx]; rfl, htx, hi.reads, nofun, ?_⟩
  rintro f (rfl | rfl) <;> rfl

/-- A read hands out the counters as they stand. -/
private theorem books_read {s s' : Sys} {m : Meter} {rst : Bool}
    (hi : Books s m)
    (hrx : s'.ppposRxCount = if rst then 0 else s.ppposRxCount)
    (htx : s'.ppposTxCount = if rst then 0 else s.ppposTxCount) :
    Books s' (m.read s.ppposRxCount s.ppposTxCount rst) := by
  have hreads : ∀ r ∈ (⟨s.ppposRxCount, s.ppposTxCount, m.now⟩ : Reading)
      :: m.reads,
      r.rx + UInt32.ofNat r.traffic.refused = UInt32.ofNat r.traffic.sent ∧
        r.tx = UInt32.ofNat r.traffic.rcvd := by
    intro r hr
    rcases List.mem_cons.mp hr with rfl | hr
    · exact ⟨hi.rx, hi.tx⟩
    · exact hi.reads r hr
  cases rst with
  | false =>
      exact ⟨by rw [hrx]; exact hi.rx, htx.trans hi.tx, hreads,
        fun r hr => List.mem_cons_of_mem _ (hi.resets r hr), hi.kept⟩
  | true =>
      refine ⟨by rw [hrx]; rfl, htx, hreads, ?_, ?_⟩
      · intro r hr
        rcases List.mem_cons.mp hr with rfl | hr
        · exact List.mem_cons_self
        · exact List.mem_cons_of_mem _ (hi.resets r hr)
      · intro f hf
        have hzero : UInt32.ofNat (f .zero) = 0 := by
          rcases hf with rfl | rfl <;> rfl
        show UInt32.ofNat (f m.now) + handedOut (Reading.sum f) m.resets
          + UInt32.ofNat (f .zero) = _
        rw [hzero, UInt32.add_zero, UInt32.add_comm]
        exact hi.kept f hf

-- ============================================================ who counts

/-- What a step of the task does to the counters. -/
def TaskCounts (s s' : Sys) : Prop :=
  match s.task with
  | .count _ len =>
      s'.ppposRxCount = s.ppposRxCount ∧
        s'.ppposTxCount = s.ppposTxCount + UInt32.ofNat len
  | .reset => s'.ppposRxCount = 0 ∧ s'.ppposTxCount = 0
  | _ =>
      s'.ppposRxCount = s.ppposRxCount ∧ s'.ppposTxCount = s.ppposTxCount

/-- By cases on the locations; the counters are written at two. -/
theorem taskStep_counts {i : TaskIn} {s s' : Sys}
    (h : taskStep i s = some s') : TaskCounts s s' := by
  unfold taskStep offTail at h
  unfold TaskCounts
  repeat' split at h
  all_goals cases h
  all_goals simp [‹s.task = _›]

/-- The meter counts what the output callback has written. -/
theorem meterStep_outCount {ret : UInt32} {s : Sys}
    (h : s.tcpip = some ret) (s' : Sys) (m : Meter) :
    meterStep s .outCount s' m = m.tally (.send ret) := by
  unfold meterStep
  dsimp only
  rw [h]

/-- The parties that touch the counters. -/
def Act.counts : Act → Bool
  | .task _ => true
  | .outCount => true
  | .getCounts _ => true
  | .resetCounts => true
  | _ => false

/-- The others leave the counters and the meter alone. -/
theorem quiet_counts {a : Act} {s s' : Sys} {m : Meter}
    (ha : a.counts = false) (h : apply a s = some s') :
    s'.ppposRxCount = s.ppposRxCount ∧ s'.ppposTxCount = s.ppposTxCount ∧
      meterStep s a s' m = m := by
  cases a with
  | task i => cases ha
  | outCount => cases ha
  | getCounts rst => cases ha
  | resetCounts => cases ha
  | cb err =>
      obtain ⟨-, rfl⟩ := cb_cases h
      exact ⟨rfl, rfl, rfl⟩
  | out ret =>
      obtain ⟨-, rfl⟩ := out_cases h
      exact ⟨rfl, rfl, rfl⟩
  | init i =>
      simp only [apply, initStep] at h
      repeat' split at h
      all_goals cases h
      all_goals exact ⟨rfl, rfl, rfl⟩
  | disc i =>
      simp only [apply, discStep] at h
      repeat' split at h
      all_goals cases h
      all_goals exact ⟨rfl, rfl, rfl⟩
  | modem n i =>
      simp only [apply, atStep] at h
      repeat' split at h
      all_goals cases h
      all_goals exact ⟨rfl, rfl, rfl⟩

theorem books_step {a : Act} {s s' : Sys} {m : Meter} (hi : Books s m)
    (h : apply a s = some s') : Books s' (meterStep s a s' m) := by
  cases a with
  | task i =>
      have hcounts := taskStep_counts h
      unfold TaskCounts at hcounts
      unfold meterStep
      cases ht : s.task with
      | count d len =>
          rw [ht] at hcounts
          exact books_receive hi hcounts.1 hcounts.2
      | reset =>
          rw [ht] at hcounts
          exact books_clear hi hcounts.1 hcounts.2
      | _ =>
          rw [ht] at hcounts
          exact books_same hi hcounts.1 hcounts.2
  | outCount =>
      obtain ⟨ret, hret, rfl⟩ := outCount_cases h
      rw [meterStep_outCount hret]
      refine books_send hi ?_ rfl
      dsimp only
      split
      case isTrue => rfl
      case isFalse hzero =>
          have hret : ret = 0 := by simpa using hzero
          rw [hret, UInt32.add_zero]
  | getCounts rst =>
      obtain rfl := getCounts_cases h
      exact books_read hi rfl rfl
  | resetCounts =>
      obtain rfl := resetCounts_cases h
      exact books_clear hi rfl rfl
  | _ =>
      obtain ⟨hrx, htx, hm⟩ := quiet_counts rfl h
      rw [hm]
      exact books_same hi hrx htx

theorem books_of_reach {s : Sys × Meter} (h : metered.Reach anyStep s) :
    Books s.1 s.2 := by
  have hboot : Books Sys.boot .zero := by
    refine ⟨rfl, rfl, nofun, nofun, ?_⟩
    rintro f (rfl | rfl) <;> rfl
  refine h.invariant (I := fun s => Books s.1 s.2) hboot ?_
  intro x a x' hi _ h
  obtain ⟨s, m⟩ := x
  obtain ⟨s', m'⟩ := x'
  obtain ⟨happ, hm⟩ := observe_apply.mp h
  show Books s' m'
  rw [show m' = meterStep s a s' m from hm]
  exact books_step hi happ

-- =============================================================== in flight

/-- Bytes the UART delivered, over the whole log. -/
def received : List Ev → Nat
  | [] => 0
  | .uartRead len :: past => len + received past
  | _ :: past => received past

/-- Bytes the UART accepted, over the whole log. -/
def written : List Ev → Nat
  | [] => 0
  | .uartWrite ret :: past => accepted ret + written past
  | _ :: past => written past

/-- Bytes a receive turn has read and not counted yet. -/
def Loc.inFlight : Loc → Nat
  | .input _ len => len
  | .count _ len => len
  | _ => 0

/-- Bytes the output callback has written and not counted yet. -/
def outInFlight : Option UInt32 → Nat
  | some ret => accepted ret
  | none => 0

/-- No byte is lost between the UART and the counters. -/
structure Flow (s : Sys) (m : Meter) : Prop where
  rcvd : received s.log = m.ever.rcvd + s.task.inFlight
  sent : written s.log = m.ever.sent + outInFlight s.tcpip

@[simp] theorem inFlight_recvHead (d : Option Int) :
    (recvHead d).inFlight = 0 := by
  cases d <;> rfl

@[simp] theorem inFlight_offRet (ret : OffRet) : ret.loc.inFlight = 0 := by
  cases ret <;> rfl

/-- The task's receive turn has its bytes in flight from the read to the
count. -/
private theorem flow_task {i : TaskIn} {s s' : Sys} {m : Meter}
    (hi : Flow s m) (h : taskStep i s = some s') :
    Flow s' (meterStep s (.task i) s' m) := by
  obtain ⟨hrcvd, hsent⟩ := hi
  unfold taskStep offTail at h
  repeat' split at h
  all_goals cases h
  all_goals rw [‹s.task = _›] at hrcvd
  all_goals simp only [meterStep, ‹s.task = _›]
  all_goals refine ⟨?_, ?_⟩
  -- a read puts its bytes in flight, the count takes them out
  all_goals first
    | exact hsent
    | exact hrcvd
    | try simp only [inFlight_recvHead, inFlight_offRet]
      simp only [received, Meter.tally, Traffic.receive,
        Loc.inFlight] at hrcvd ⊢
      omega

/-- And the output callback its own. -/
theorem flow_step {a : Act} {s s' : Sys} {m : Meter} (hl : Life s)
    (hi : Flow s m) (h : apply a s = some s') :
    Flow s' (meterStep s a s' m) := by
  cases a with
  | task i => exact flow_task hi h
  | cb err =>
      obtain ⟨-, rfl⟩ := cb_cases h
      exact ⟨hi.rcvd, hi.sent⟩
  | out ret =>
      obtain ⟨hrcvd, hsent⟩ := hi
      obtain ⟨hidle, rfl⟩ := out_cases h
      rw [hidle] at hsent
      refine ⟨hrcvd, ?_⟩
      show accepted ret + written s.log = m.ever.sent + accepted ret
      rw [hsent, Nat.add_comm]
      rfl
  | outCount =>
      obtain ⟨hrcvd, hsent⟩ := hi
      obtain ⟨ret, hret, rfl⟩ := outCount_cases h
      rw [meterStep_outCount hret]
      rw [hret] at hsent
      exact ⟨hrcvd, hsent⟩
  | init i =>
      -- a task is created where there was none
      have hdead : s.initCall = .create → s.task.inFlight = 0 := by
        intro hc
        rw [phase_dead (hl.create hc)]
        rfl
      obtain ⟨hrcvd, hsent⟩ := hi
      simp only [apply, initStep] at h
      repeat' split at h
      all_goals cases h
      all_goals refine ⟨?_, hsent⟩
      all_goals first
        | exact hrcvd
        | rw [hdead ‹_›] at hrcvd
          exact hrcvd
  | disc i =>
      obtain ⟨hrcvd, hsent⟩ := hi
      simp only [apply, discStep] at h
      repeat' split at h
      all_goals cases h
      all_goals exact ⟨hrcvd, hsent⟩
  | modem n i =>
      obtain ⟨hrcvd, hsent⟩ := hi
      simp only [apply, atStep] at h
      repeat' split at h
      all_goals cases h
      all_goals exact ⟨hrcvd, hsent⟩
  | getCounts rst =>
      obtain rfl := getCounts_cases h
      cases rst <;> exact ⟨hi.rcvd, hi.sent⟩
  | resetCounts =>
      obtain rfl := resetCounts_cases h
      exact ⟨hi.rcvd, hi.sent⟩

theorem flow_of_reach {s : Sys × Meter} (h : metered.Reach anyStep s) :
    Flow s.1 s.2 := by
  have hboot : Flow Sys.boot .zero := ⟨rfl, rfl⟩
  refine h.invariant_of (I := fun s => Flow s.1 s.2)
    (fun _ hr => life_of_reach hr.fst) hboot ?_
  intro x a x' hi hl _ _ h
  obtain ⟨s, m⟩ := x
  obtain ⟨s', m'⟩ := x'
  obtain ⟨happ, hm⟩ := observe_apply.mp h
  show Flow s' m'
  rw [show m' = meterStep s a s' m from hm]
  exact flow_step hl hi happ

-- ================================================================ the law

/-- Counters agree where the numbers do modulo 2^32. -/
theorem ofNat_eq_iff_modEq (a b : Nat) :
    UInt32.ofNat a = UInt32.ofNat b ↔ a ≡ b [MOD 2 ^ 32] := by
  rw [UInt32.ofNat_eq_iff_mod_eq_toNat, UInt32.toNat_ofNat']
  exact Iff.rfl

/-- Two values that agree on every resetting read add up to the same. -/
theorem handedOut_congr {f g : Reading → UInt32} {rs : List Reading}
    (h : ∀ r ∈ rs, f r = g r) : handedOut f rs = handedOut g rs := by
  induction rs with
  | nil => rfl
  | cons r rest ih =>
      rw [handedOut, handedOut, h r List.mem_cons_self,
        ih fun r hr => h r (List.mem_cons_of_mem _ hr)]

/-- Given the books, the law holds exactly if every read found the same
traffic either way and no refused write. -/
theorem accounted_iff_of_books {s : Sys} {m : Meter} (hb : Books s m) :
    Accounted m ↔ Balanced m := by
  constructor
  · intro ha r hr
    obtain ⟨hrx, htx⟩ := hb.reads r hr
    obtain ⟨hrx', htx'⟩ := ha.each r hr
    have heq : UInt32.ofNat r.traffic.rcvd = UInt32.ofNat r.traffic.sent :=
      htx.symm.trans htx'
    refine ⟨(ofNat_eq_iff_modEq _ _).mp heq, (ofNat_eq_iff_modEq _ _).mp ?_⟩
    rw [← heq, ← hrx'] at hrx
    exact UInt32.add_eq_left.mp hrx
  · intro hbal
    have hreads : ∀ r ∈ m.reads, r.rx = r.sum Traffic.rcvd ∧
        r.tx = r.sum Traffic.sent := by
      intro r hr
      obtain ⟨hrx, htx⟩ := hb.reads r hr
      obtain ⟨hsame, hnone⟩ := hbal r hr
      have heq := (ofNat_eq_iff_modEq _ _).mpr hsame
      rw [(ofNat_eq_iff_modEq _ _).mpr hnone] at hrx
      have hrx : r.rx = _ := (UInt32.add_zero _).symm.trans hrx
      exact ⟨hrx.trans heq.symm, htx.trans heq⟩
    refine ⟨hreads, ?_, ?_⟩
    -- the resetting reads are reads, so they add up as the meter's do
    · rw [handedOut_congr fun r hr => (hreads r (hb.resets r hr)).1]
      exact hb.kept _ (.inl rfl)
    · rw [handedOut_congr fun r hr => (hreads r (hb.resets r hr)).2]
      exact hb.kept _ (.inr rfl)

/-- Over every run no byte is lost between the UART and the counters, and
the reads hand out the traffic since the last reset exactly if at every
read it was the same in both directions and no write had been refused.

Equality is that of the counters, modulo 2^32. The condition is on the
traffic, and says nothing of what a read has handed out. -/
theorem accounted_iff_balanced {s : Sys × Meter}
    (h : metered.Reach anyStep s) :
    Flow s.1 s.2 ∧ (Accounted s.2 ↔ Balanced s.2) :=
  ⟨flow_of_reach h, accounted_iff_of_books (books_of_reach h)⟩

/-- On a connected link, the receive turn that takes `len` bytes. -/
def receiveTurn (len : Nat) : List Act :=
  [.task .go, .task (.read len), .task .go, .task .go]

/-- Five bytes are received, none is sent, and the caller is told the
opposite. -/
theorem accounted_fails : ∃ s, metered.Reach anyStep s
    ∧ s.2.reads = [⟨0, 5, ⟨5, 0, 0⟩⟩] ∧ ¬ Accounted s.2 := by
  obtain ⟨s, hr, hs⟩ := exists_reach metered anyStep
    (bringUp ++ receiveTurn 5 ++ [.getCounts false])
    (fun s => s.2.reads = [⟨0, 5, ⟨5, 0, 0⟩⟩]) (by decide)
  have hreads := of_decide_eq_true hs
  refine ⟨s, hr, hreads, fun ha => ?_⟩
  have hr : (⟨0, 5, ⟨5, 0, 0⟩⟩ : Reading) ∈ s.2.reads := by simp [hreads]
  exact absurd (ha.each _ hr).1 (by decide)

/-- Five bytes either way, two resetting reads. -/
theorem accounted_iff_balanced_twice : ∃ s, metered.Reach anyStep s
    ∧ s.2.resets.length = 2
    ∧ Flow s.1 s.2 ∧ (Accounted s.2 ↔ Balanced s.2) := by
  obtain ⟨s, hr, hs⟩ := exists_reach metered anyStep
    (bringUp ++ receiveTurn 5 ++ [.out 5, .outCount, .getCounts true]
      ++ receiveTurn 7 ++ [.getCounts true])
    (fun s => s.2.resets.length = 2) (by decide)
  exact ⟨s, hr, of_decide_eq_true hs, accounted_iff_balanced hr⟩

end ShZ001.Gsm
