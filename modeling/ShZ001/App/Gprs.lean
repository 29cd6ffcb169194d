/-
The network task (internet.c): bring up the link, start SNTP, poll the
system clock until it has been set, give up after ten turns, and begin
again when the link is lost meanwhile.

# Three ways out of one loop

The inner loop ends when the clock is found in 2016 or later, when the
retry budget is used up, or by `break` when the link is found lost. What
happened is then reconstructed: the link is read a second time, and if
it is up the retry counter alone tells success from failure. A link that
is lost at the first reading and back at the second makes the third way
out look like the first.

# The law

`Honest` is what the exits, the wait for reconnection and `sntp_init`
promise. It holds over the runs in which a lost link is still lost when
it is read again (`honest_of_stillLost`); all but the success exit need
no condition, and every step against the condition breaks the promise of
the success exit.

# The invariants

`RoundInv` ties the retry counter and the state of SNTP to what the log
says of the present round, `ReadInv` the task's `timeinfo` to the last
reading. The test of line 65 is one of a year; `localtimeYear_lt` makes
it a bound on the clock, through the calendar.
-/
import ShZ001.Lib.Machine
import ShZ001.Lib.History
import ShZ001.Gsm.Sys

namespace ShZ001.App

open Lib Machine Gsm

-- ============================================================= the calendar

/-- The Gregorian year of a day counted from 1970-01-01, by eras of 400
years that begin in March. -/
def civilYear (days : Int) : Int :=
  let z := days + 719468
  let doe := z % 146097
  let yoe := (doe - doe / 1460 + doe / 36524 - doe / 146096) / 365
  let doy := doe - (365 * yoe + yoe / 4 - yoe / 100)
  let y := yoe + z / 146097 * 400
  if 306 ≤ doy then y + 1 else y

/-- `tm_year` as `localtime_r` sets it without a time zone (nothing in
the source sets one). -/
def localtimeYear (now : Int) : Int :=
  civilYear (now / 86400) - 1900

/-- 2016-01-01 00:00:00 UTC. -/
def year2016 : Int := 1451606400

/-- The era that begins in March 2000 reaches 2016 with its day 5784. -/
private theorem year_in_era {doe yoe doy : Int} (h0 : 0 ≤ doe)
    (h1 : doe < 146097)
    (hy : yoe = (doe - doe / 1460 + doe / 36524 - doe / 146096) / 365)
    (hd : doy = doe - (365 * yoe + yoe / 4 - yoe / 100)) :
    0 ≤ yoe ∧ yoe ≤ 399 ∧
      ((15 < yoe ∨ yoe = 15 ∧ 306 ≤ doy) ↔ 5784 ≤ doe) := by
  refine ⟨by omega, by omega, ?_⟩
  rcases Int.lt_or_le doe 36524 with hs | hs
  · have h4 : doe / 36524 = 0 := by omega
    have h6 : doe / 146096 = 0 := by omega
    rw [h4, h6] at hy
    have hc : yoe / 100 = 0 := by omega
    rw [hc] at hd
    omega
  · omega

/-- Day 16801 is the first of 2016. -/
theorem civilYear_ge (d : Int) : 2016 ≤ civilYear d ↔ 16801 ≤ d := by
  have h0 := Int.emod_nonneg (d + 719468) (by decide : (146097 : Int) ≠ 0)
  have h1 := Int.emod_lt_of_pos (d + 719468)
    (by decide : (0 : Int) < 146097)
  have hdiv := Int.emod_add_mul_ediv (d + 719468) 146097
  obtain ⟨hlo, hhi, hy⟩ := year_in_era h0 h1 rfl rfl
  unfold civilYear
  simp only
  generalize (d + 719468) % 146097 = doe at *
  generalize (doe - doe / 1460 + doe / 36524 - doe / 146096) / 365 = yoe
    at *
  generalize (d + 719468) / 146097 = era at *
  split <;> omega

/-- The test of line 65, as a bound on the clock. -/
theorem localtimeYear_lt (now : Int) :
    localtimeYear now < 2016 - 1900 ↔ now < year2016 := by
  have := civilYear_ge (now / 86400)
  unfold localtimeYear year2016
  omega

-- ================================================================= the task

/-- Entries of the log. `waitLink` is one turn of the loop that waits
for reconnection. -/
inductive GprsEv
  | reading (now : Int)
  | sntpInit
  | sntpStop
  | waitLink
  | timeSet
  | errorTime
  deriving DecidableEq, Repr

/-- Where the task stands; `delay` is before the pause and the clock
reading of one turn, `poll` before that turn's reading of the link,
`testLink` before the second one. -/
inductive GprsLoc
  | start
  | halted
  | firstRead
  | round
  | delay
  | poll
  | testLink
  | waitLink
  | done
  deriving DecidableEq, Repr

/-- The task's locals, the two variables other threads change, and the
log, newest first. -/
structure Gprs where
  loc : GprsLoc
  tmYear : Int
  retry : Nat
  clock : Int
  status : GsmState
  log : List GprsEv

def Gprs.boot : Gprs where
  loc := .start
  tmYear := 0
  retry := 0
  clock := 0
  status := .firstInit
  log := []

/-- `retry_count`. -/
def retryCount : Nat := 10

/-- The head of the inner loop (line 65): `++retry` is evaluated only
while the clock has not been set. -/
def loopTest (s : Gprs) : Gprs :=
  if s.tmYear < 2016 - 1900 then
    { s with
      retry := s.retry + 1
      loc := if s.retry + 1 < retryCount then .delay else .testLink }
  else { s with loc := .testLink }

/-- `time` and `localtime_r`. -/
def readClock (s : Gprs) : Gprs :=
  { s with
    tmYear := localtimeYear s.clock
    log := .reading s.clock :: s.log }

/-- One step of `gprs_task` (lines 37–96); `up` is what `ppposInit`
returns. -/
def gprsStep (up : Bool) (s : Gprs) : Option Gprs :=
  match s.loc with
  -- 38–43
  | .start => some { s with loc := if up then .firstRead else .halted }
  -- 46–52
  | .firstRead => some { readClock s with loc := .round }
  -- 55–65
  | .round => some (loopTest { s with log := .sntpInit :: s.log })
  -- 67–69
  | .delay => some { readClock s with loc := .poll }
  -- 70–71
  | .poll =>
      some (if s.status ≠ .connected then { s with loc := .testLink }
        else loopTest s)
  -- 73–90
  | .testLink =>
      if s.status ≠ .connected then
        some { s with
          retry := 0
          loc := .waitLink
          log := .sntpStop :: s.log }
      else if s.retry < retryCount then
        some { s with loc := .done, log := .timeSet :: s.log }
      else
        some { s with
          loc := .done
          log := .sntpStop :: .errorTime :: s.log }
  -- 77–80
  | .waitLink =>
      if s.status ≠ .connected then
        some { s with log := .waitLink :: s.log }
      else some { s with loc := .round }
  | .halted => none
  | .done => none

/-- One step of one party. -/
inductive GprsAct
  | task (up : Bool)
  | link (status : GsmState)
  | clock (now : Int)
  deriving DecidableEq, Repr

def gprsApply : GprsAct → Gprs → Option Gprs
  | .task up, s => gprsStep up s
  | .link status, s => some { s with status := status }
  | .clock now, s => some { s with clock := now }

/-- The task among the threads that change the link state and the
clock. -/
def gprs : Machine Gprs GprsAct where
  init := Gprs.boot
  apply := gprsApply

-- ================================================================== the law

/-- The most recent clock reading. -/
def lastReading : List GprsEv → Option Int
  | [] => none
  | .reading now :: _ => some now
  | _ :: past => lastReading past

/-- Is SNTP running? -/
def sntpRunning : List GprsEv → Bool
  | [] => false
  | .sntpInit :: _ => true
  | .sntpStop :: _ => false
  | _ :: past => sntpRunning past

/-- The clock readings of the current round, newest first. -/
def roundReadings : List GprsEv → List Int
  | [] => []
  | .sntpInit :: _ => []
  | .reading now :: past => now :: roundReadings past
  | _ :: past => roundReadings past

/-- What the entries other than the success exit promise about their
past: the error exit comes after a round in which every reading was early
and the budget (one reading less than its count) was used up; the wait
for reconnection and `sntp_init` find SNTP stopped. -/
def Sober (e : GprsEv) (past : List GprsEv) : Prop :=
  match e with
  | .errorTime =>
      (∀ now ∈ roundReadings past, now < year2016) ∧
        (roundReadings past).length + 1 = retryCount
  | .waitLink => sntpRunning past = false
  | .sntpInit => sntpRunning past = false
  | _ => True

/-- What the success exit promises: the last reading was in 2016 or
later. -/
def InTime (e : GprsEv) (past : List GprsEv) : Prop :=
  e = .timeSet → ∃ now, lastReading past = some now ∧ year2016 ≤ now

/-- The law of the log. -/
def Honest (log : List GprsEv) : Prop :=
  Always Sober log ∧ Always InTime log

/-- A link found lost by the inner loop, with the clock still early and
the budget not used up, is still lost when it is read again. -/
def StillLost (s : Gprs) : GprsAct → Prop
  | .task _ =>
      s.loc = .testLink → s.tmYear < 2016 - 1900 → s.retry < retryCount →
        s.status ≠ .connected
  | _ => True

instance (s : Gprs) : ∀ a, Decidable (StillLost s a)
  | .task _ =>
      inferInstanceAs (Decidable (s.loc = .testLink →
        s.tmYear < 2016 - 1900 → s.retry < retryCount →
          s.status ≠ .connected))
  | .link _ => isTrue trivial
  | .clock _ => isTrue trivial

-- ============================================================ the invariant

/-- What the log says at each location: whether SNTP is running, how far
the round's budget has been spent, and what its readings were. -/
def RoundInv (s : Gprs) : Prop :=
  match s.loc with
  | .start => sntpRunning s.log = false ∧ s.retry = 0
  | .firstRead => sntpRunning s.log = false ∧ s.retry = 0
  | .round => sntpRunning s.log = false ∧ s.retry = 0
  | .waitLink => sntpRunning s.log = false ∧ s.retry = 0
  | .delay =>
      s.retry < retryCount ∧
        (roundReadings s.log).length + 1 = s.retry ∧
        ∀ now ∈ roundReadings s.log, now < year2016
  | .poll =>
      s.retry < retryCount ∧ (roundReadings s.log).length = s.retry ∧
        (s.tmYear < 2016 - 1900 →
          ∀ now ∈ roundReadings s.log, now < year2016)
  | .testLink =>
      retryCount ≤ s.retry →
        (∀ now ∈ roundReadings s.log, now < year2016) ∧
          (roundReadings s.log).length + 1 = retryCount
  | .halted => True
  | .done => True

/-- From its first reading on the task's `timeinfo` is the last
reading. -/
def ReadInv (s : Gprs) : Prop :=
  s.loc ≠ .start → s.loc ≠ .halted → s.loc ≠ .firstRead →
    ∃ now, lastReading s.log = some now ∧ s.tmYear = localtimeYear now

/-- The head of the inner loop, from a round whose readings so far are
the retries so far and all early if the last one is. -/
private theorem roundInv_loopTest {s : Gprs} (hr : s.retry < retryCount)
    (hlen : (roundReadings s.log).length = s.retry)
    (hearly : s.tmYear < 2016 - 1900 →
      ∀ now ∈ roundReadings s.log, now < year2016) :
    RoundInv (loopTest s) := by
  unfold loopTest
  split
  case isTrue hyear =>
      have hearly := hearly hyear
      by_cases hmore : s.retry + 1 < retryCount
      · simp only [RoundInv, if_pos hmore]
        exact ⟨hmore, by rw [hlen], hearly⟩
      · simp only [RoundInv, if_neg hmore]
        exact fun _ => ⟨hearly, by omega⟩
  case isFalse =>
      intro hspent
      exact absurd hr (Nat.not_lt.mpr hspent)

/-- The loop's head touches neither the readings nor the law. -/
private theorem loopTest_log (s : Gprs) : (loopTest s).log = s.log := by
  unfold loopTest
  split <;> rfl

private theorem loopTest_tmYear (s : Gprs) :
    (loopTest s).tmYear = s.tmYear := by
  unfold loopTest
  split <;> rfl

/-- A step keeps it: a reading is counted, a retry spends the budget, a new
round starts over. -/
theorem roundInv_step {up : Bool} {s s' : Gprs} (hi : RoundInv s)
    (h : gprsStep up s = some s') : RoundInv s' := by
  unfold gprsStep at h
  unfold RoundInv at hi
  split at h
  case h_1 hloc =>
      cases h
      rw [hloc] at hi
      cases up with
      | true => exact hi
      | false => trivial
  case h_2 hloc =>
      cases h
      rw [hloc] at hi
      exact hi
  case h_3 hloc =>
      cases h
      rw [hloc] at hi
      obtain ⟨-, hretry⟩ := hi
      refine roundInv_loopTest ?_ hretry.symm nofun
      simp only [hretry]
      decide
  case h_4 hloc =>
      cases h
      rw [hloc] at hi
      obtain ⟨hr, hlen, hearly⟩ := hi
      refine ⟨hr, hlen, ?_⟩
      intro hyear now hmem
      rcases List.mem_cons.mp hmem with rfl | hmem
      · exact (localtimeYear_lt _).mp hyear
      · exact hearly now hmem
  case h_5 hloc =>
      rw [hloc] at hi
      obtain ⟨hr, hlen, hearly⟩ := hi
      split at h
      · cases h
        exact fun hspent => absurd hr (Nat.not_lt.mpr hspent)
      · cases h
        exact roundInv_loopTest hr hlen hearly
  case h_6 hloc =>
      repeat' split at h
      all_goals cases h
      · exact ⟨rfl, rfl⟩
      · trivial
      · trivial
  case h_7 hloc =>
      rw [hloc] at hi
      split at h
      · cases h
        simpa [RoundInv, hloc, sntpRunning] using hi
      · cases h
        exact hi
  case h_8 => cases h
  case h_9 => cases h

/-- What is read is what the log says was read. -/
theorem readInv_step {up : Bool} {s s' : Gprs} (hi : ReadInv s)
    (h : gprsStep up s = some s') : ReadInv s' := by
  unfold gprsStep at h
  unfold ReadInv at hi ⊢
  split at h
  case h_1 hloc =>
      cases h
      cases up <;> simp
  case h_2 hloc =>
      cases h
      exact fun _ _ _ => ⟨_, rfl, rfl⟩
  case h_3 hloc =>
      cases h
      intro _ _ _
      rw [loopTest_log, loopTest_tmYear]
      exact hi (by simp [hloc]) (by simp [hloc]) (by simp [hloc])
  case h_4 hloc =>
      cases h
      exact fun _ _ _ => ⟨_, rfl, rfl⟩
  case h_5 hloc =>
      have hi := hi (by simp [hloc]) (by simp [hloc]) (by simp [hloc])
      split at h
      · cases h
        exact fun _ _ _ => hi
      · cases h
        intro _ _ _
        rw [loopTest_log, loopTest_tmYear]
        exact hi
  case h_6 hloc =>
      have hi := hi (by simp [hloc]) (by simp [hloc]) (by simp [hloc])
      repeat' split at h
      all_goals cases h
      all_goals exact fun _ _ _ => hi
  case h_7 hloc =>
      have hi := hi (by simp [hloc]) (by simp [hloc]) (by simp [hloc])
      split at h
      all_goals cases h
      all_goals exact fun _ _ _ => hi
  case h_8 => cases h
  case h_9 => cases h

-- ================================================================= the runs

/-- The entries that need no condition. -/
theorem sober_step {up : Bool} {s s' : Gprs} (hs : Always Sober s.log)
    (hi : RoundInv s) (h : gprsStep up s = some s') :
    Always Sober s'.log := by
  unfold gprsStep at h
  unfold RoundInv at hi
  split at h
  case h_1 => cases h; exact hs
  case h_2 => cases h; exact ⟨trivial, hs⟩
  case h_3 hloc =>
      cases h
      rw [hloc] at hi
      rw [loopTest_log]
      exact ⟨hi.1, hs⟩
  case h_4 => cases h; exact ⟨trivial, hs⟩
  case h_5 =>
      split at h
      · cases h
        exact hs
      · cases h
        rw [loopTest_log]
        exact hs
  case h_6 hloc =>
      rw [hloc] at hi
      split at h
      · cases h
        exact ⟨trivial, hs⟩
      · split at h
        · cases h
          exact ⟨trivial, hs⟩
        · rename_i hspent
          cases h
          exact ⟨trivial, hi (Nat.not_lt.mp hspent), hs⟩
  case h_7 hloc =>
      rw [hloc] at hi
      split at h
      · cases h
        exact ⟨hi.1, hs⟩
      · cases h
        exact hs
  case h_8 => cases h
  case h_9 => cases h

/-- A step other than the success exit keeps the promise about it. -/
private theorem inTime_cons {e : GprsEv} {past : List GprsEv}
    (he : e ≠ .timeSet) (h : Always InTime past) :
    Always InTime (e :: past) :=
  ⟨fun heq => absurd heq he, h⟩

/-- The success exit: if the link has stayed lost, the budget is what was
left of a loop that ended by its clock. -/
theorem inTime_step {up : Bool} {s s' : Gprs} (ht : Always InTime s.log)
    (hi : ReadInv s) (hok : StillLost s (.task up))
    (h : gprsStep up s = some s') : Always InTime s'.log := by
  unfold gprsStep at h
  split at h
  case h_1 => cases h; exact ht
  case h_2 => cases h; exact inTime_cons nofun ht
  case h_3 =>
      cases h
      rw [loopTest_log]
      exact inTime_cons nofun ht
  case h_4 => cases h; exact inTime_cons nofun ht
  case h_5 =>
      split at h
      · cases h
        exact ht
      · cases h
        rw [loopTest_log]
        exact ht
  case h_6 hloc =>
      split at h
      · cases h
        exact inTime_cons nofun ht
      · rename_i hup
        split at h
        · rename_i hleft
          cases h
          refine ⟨fun _ => ?_, ht⟩
          obtain ⟨now, hlast, hyear⟩ :=
            hi (by simp [hloc]) (by simp [hloc]) (by simp [hloc])
          -- an early reading would be a lost link found up again
          have hlate : ¬ s.tmYear < 2016 - 1900 :=
            fun hearly => hup (hok hloc hearly hleft)
          rw [hyear, localtimeYear_lt] at hlate
          exact ⟨now, hlast, Int.not_lt.mp hlate⟩
        · cases h
          exact inTime_cons nofun (inTime_cons nofun ht)
  case h_7 =>
      split at h
      · cases h
        exact inTime_cons nofun ht
      · cases h
        exact ht
  case h_8 => cases h
  case h_9 => cases h

theorem roundInv_of_reach {s : Gprs} (h : gprs.Reach anyStep s) :
    RoundInv s := by
  have hboot : RoundInv Gprs.boot := ⟨rfl, rfl⟩
  refine h.invariant (I := RoundInv) hboot ?_
  intro s a s' hi _ h
  cases a with
  | task up => exact roundInv_step hi h
  | link status => cases h; exact hi
  | clock now => cases h; exact hi

theorem readInv_of_reach {s : Gprs} (h : gprs.Reach anyStep s) :
    ReadInv s := by
  refine h.invariant (I := ReadInv) (fun hstart => absurd rfl hstart) ?_
  intro s a s' hi _ h
  cases a with
  | task up => exact readInv_step hi h
  | link status => cases h; exact hi
  | clock now => cases h; exact hi

theorem sober_of_reach {s : Gprs} (h : gprs.Reach anyStep s) :
    Always Sober s.log := by
  refine h.invariant_of (I := fun s => Always Sober s.log)
    (fun _ => roundInv_of_reach) (always_nil _) ?_
  intro s a s' hs hi _ _ h
  cases a with
  | task up => exact sober_step hs hi h
  | link status => cases h; exact hs
  | clock now => cases h; exact hs

theorem inTime_of_reach {s : Gprs} (h : gprs.Reach StillLost s) :
    Always InTime s.log := by
  refine h.invariant_of (I := fun s => Always InTime s.log)
    (fun _ h => readInv_of_reach h.any) (always_nil _) ?_
  intro s a s' ht hi _ hok h
  cases a with
  | task up => exact inTime_step ht hi hok h
  | link status => cases h; exact ht
  | clock now => cases h; exact ht

/-- A lost link that is back at the second reading is reported as a
clock that has been set. -/
theorem not_inTime_of_back {a : GprsAct} {s s' : Gprs} (hi : ReadInv s)
    (hbad : ¬ StillLost s a) (h : gprs.apply a s = some s') :
    ¬ Always InTime s'.log := by
  cases a with
  | task up =>
      simp only [StillLost, Classical.not_imp, not_not] at hbad
      obtain ⟨hloc, hearly, hleft, hup⟩ := hbad
      simp only [gprs, gprsApply, gprsStep, hloc, hup, ne_eq,
        not_true_eq_false, if_false, if_pos hleft,
        Option.some.injEq] at h
      subst h
      intro h
      obtain ⟨htime, -⟩ := h
      obtain ⟨now, hlast, hlate⟩ := htime rfl
      obtain ⟨now', hlast', hyear⟩ :=
        hi (by simp [hloc]) (by simp [hloc]) (by simp [hloc])
      rw [hlast'] at hlast
      cases hlast
      rw [hyear, localtimeYear_lt] at hearly
      exact absurd hearly (Int.not_lt.mpr hlate)
  | link status => exact absurd trivial hbad
  | clock now => exact absurd trivial hbad

/-- The law of the log holds over the runs in which a lost link stays lost
until it has been read again; without the condition all of it does but the
promise of the success exit, and every step that breaks the condition
breaks that.

So the condition is the weakest one on steps: it forbids nothing but the
steps at which the promise is broken. -/
theorem honest_of_stillLost (s : Gprs) :
    (gprs.Reach StillLost s → Honest s.log) ∧
    (gprs.Reach anyStep s → Always Sober s.log) ∧
    (∀ a s', gprs.Reach anyStep s → ¬ StillLost s a →
      gprs.apply a s = some s' → ¬ Honest s'.log) := by
  refine ⟨?_, sober_of_reach, ?_⟩
  · exact fun h => ⟨sober_of_reach h.any, inTime_of_reach h⟩
  · intro a s' hr hbad h hlaw
    exact not_inTime_of_back (readInv_of_reach hr) hbad h hlaw.2

/-- Up to the second reading of the link, which the inner loop has found
lost after its first turn. -/
def gprsLost : List GprsAct :=
  [.task true, .task true, .link .connected, .task true, .task true,
    .link .disconnected, .task true]

/-- The link is back before it is read again: the clock is reported as
set at its reading of 1970. -/
theorem honest_fails : ∃ s, gprs.Reach anyStep s ∧ ¬ Honest s.log := by
  obtain ⟨s, hr, hs⟩ := exists_reach gprs anyStep
    (gprsLost ++ [.link .connected, .task true])
    (fun s => s.log = [.timeSet, .reading 0, .sntpInit, .reading 0])
    (by decide)
  refine ⟨s, hr, ?_⟩
  rw [of_decide_eq_true hs]
  intro h
  obtain ⟨-, htime, -⟩ := h
  obtain ⟨now, hlast, hlate⟩ := htime rfl
  cases hlast
  exact absurd hlate (by decide)

/-- The link stays lost, SNTP is stopped and started again, and the
second round finds the clock set. -/
theorem honest_of_stillLost_again : ∃ s, gprs.Reach StillLost s
    ∧ s.log.head? = some .timeSet ∧ Honest s.log := by
  obtain ⟨s, hr, hs⟩ := exists_reach gprs StillLost
    (gprsLost ++ [.task true, .task true, .link .connected, .task true,
      .task true, .clock year2016, .task true, .task true, .task true])
    (fun s => s.log.head? = some .timeSet) (by decide)
  exact ⟨s, hr, of_decide_eq_true hs, (honest_of_stillLost s).1 hr⟩

end ShZ001.App
