/-
Whether the times of messages are in the order of their stamps (libGSM.c
992–1005, 1042–1088).

# The month

The stamp counts months from 1 and `tm_mon` from 0, and `getSMS` passes
the one as the other. So a time is counted from the first day of the
month behind the stamp's own. Within a month that changes nothing. From
one month to the next, a late day of a long month is taken for a day
behind the beginning of the month after: 31 January and 1 February are
taken as 31 February, which is in March, and 1 March. And from 19
December 2037 on the month behind is too late for 32 bits.

# The calendar

`firstDay` counts the months from January 2000 on, so that the months of
all years are one sequence and each is as long as `daysInMonth` says
(`firstDay_succ`). Everything about the order of times is said with it:
a time is a first day and the seconds behind it, and the only thing that
can go wrong is that the seconds of a long month reach over the first
day of a short one's successor.

# The law

`timeValue_lt_iff` says that this is all: for two messages of one zone
the times are in the order of the stamps exactly if `KeepsOrder` holds
of them. Messages that are spared come out of the ascending sort in
order (`timeOrder_iff`).
-/
import Mathlib.Tactic.IntervalCases
import ShZ001.Sms.Proofs.Fields
import ShZ001.Sms.Proofs.Sorted

namespace ShZ001.Sms

open Lib

-- ================================================================ the stamps

/-- The days of a month, counted from 1. -/
def daysInMonth (y m : Nat) : Nat :=
  if m = 2 then
    if y % 4 = 0 ∧ (y % 100 ≠ 0 ∨ y % 400 = 0) then 29 else 28
  else if m = 4 ∨ m = 6 ∨ m = 9 ∨ m = 11 then 30
  else 31

/-- A stamp of the years 2000 to 2037, counted from 2000. -/
structure Stamp where
  year : Nat
  mon : Nat
  day : Nat
  hour : Nat
  min : Nat
  sec : Nat
  year_le : year ≤ 37
  mon_ok : 1 ≤ mon ∧ mon ≤ 12
  day_ok : 1 ≤ day ∧ day ≤ daysInMonth (2000 + year) mon
  hour_lt : hour < 24
  min_lt : min < 60
  sec_lt : sec < 60

/-- Two decimal digits. -/
def twoDigits (n : Nat) : List UInt8 :=
  [(0x30 + n / 10).toUInt8, (0x30 + n % 10).toUInt8]

/-- `yy/MM/dd,hh:mm:ss`. -/
def Stamp.text (s : Stamp) : List UInt8 :=
  twoDigits s.year ++ 0x2f :: twoDigits s.mon ++ 0x2f :: twoDigits s.day
    ++ 0x2c :: twoDigits s.hour ++ 0x3a :: twoDigits s.min
    ++ 0x3a :: twoDigits s.sec

/-- A zone behind it, such as `+08`: at least three characters, the first
of them no digit. -/
structure ZoneOk (zone : List UInt8) : Prop where
  length : 3 ≤ zone.length
  head : ∀ b ∈ zone.head?, isDigit 10 b = false

/-- The stamp is earlier. -/
def Stamp.Before (a b : Stamp) : Prop :=
  a.year < b.year ∨ a.year = b.year ∧
    (a.mon < b.mon ∨ a.mon = b.mon ∧
      (a.day < b.day ∨ a.day = b.day ∧
        (a.hour < b.hour ∨ a.hour = b.hour ∧
          (a.min < b.min ∨ a.min = b.min ∧ a.sec < b.sec))))

instance (a b : Stamp) : Decidable (a.Before b) :=
  inferInstanceAs (Decidable (_ ∨ _))

/-- `getSMS` has read the message, and its time is this stamp and zone. -/
def Stamped (zone : List UInt8) (s : Stamp) (msg : SmsMsg) : Prop :=
  ∃ rbuffer idx locals n, 0 < n ∧
    getSMS rbuffer idx locals = (n, some msg) ∧ msg.time = s.text ++ zone

-- ================================================================== the law

/-- The number of the month, 13 for January 2001. -/
def Stamp.month (s : Stamp) : Nat := 12 * s.year + s.mon

/-- The seconds since the month began. -/
def Stamp.seconds (s : Stamp) : Nat :=
  (s.day - 1) * 86400 + s.hour * 3600 + s.min * 60 + s.sec

/-- The last stamp whose time fits 32 bits. -/
def lastFit : Stamp where
  year := 37
  mon := 12
  day := 19
  hour := 3
  min := 14
  sec := 7
  year_le := by decide
  mon_ok := by decide
  day_ok := by decide
  hour_lt := by decide
  min_lt := by decide
  sec_lt := by decide

/-- `b` is not in the month behind `a`'s, so early that `a` without the
days of `b`'s month is not before it. -/
def Stamp.ClearOf (a b : Stamp) : Prop :=
  b.month = a.month + 1 →
    a.seconds < b.seconds + daysInMonth (2000 + b.year) b.mon * 86400

/-- An earlier stamp is read as an earlier time. -/
def KeepsOrder (a b : Stamp) : Prop := ¬ lastFit.Before b ∧ a.ClearOf b

instance (a b : Stamp) : Decidable (a.ClearOf b) :=
  inferInstanceAs (Decidable (_ → _))

instance (a b : Stamp) : Decidable (KeepsOrder a b) :=
  inferInstanceAs (Decidable (_ ∧ _))

-- ============================================================== the calendar

/-- From a month to the next are its days. -/
theorem daysFromCivil_month {y m : Nat} (hm : 1 ≤ m ∧ m < 12) :
    daysFromCivil y (m + 1 : Nat) 1
      = daysFromCivil y m 1 + daysInMonth y m := by
  obtain ⟨hlo, hhi⟩ := hm
  unfold daysFromCivil daysInMonth
  by_cases hfeb : m = 2
  · subst hfeb
    simp only [Nat.reduceAdd, Nat.cast_ofNat, Int.reduceAdd, Int.reduceMul,
      Int.reduceMod, Int.reduceDiv, Int.reduceLE, if_true, if_false]
    split <;> omega
  · rw [if_neg hfeb]
    interval_cases m <;> simp at hfeb ⊢ <;> omega

/-- From December to January there are 31 days. -/
theorem daysFromCivil_year (y : Nat) :
    daysFromCivil (y + 1 : Nat) 1 1 = daysFromCivil y 12 1 + 31 := by
  unfold daysFromCivil
  simp only [Int.reduceAdd, Int.reduceMul, Int.reduceMod, Int.reduceDiv,
    Int.reduceLE, if_true, if_false]
  omega

/-- The first day of a month, the months counted from January 2000 as
0. -/
def firstDay (n : Nat) : Int :=
  daysFromCivil (2000 + n / 12 : Nat) (n % 12 + 1 : Nat) 1

/-- The months follow each other without a gap, over the turn of the year
too. -/
theorem firstDay_succ (n : Nat) :
    firstDay (n + 1)
      = firstDay n + daysInMonth (2000 + n / 12) (n % 12 + 1) := by
  unfold firstDay
  rcases Nat.lt_or_ge (n % 12) 11 with hlt | hge
  · rw [show (n + 1) / 12 = n / 12 by omega,
      show (n + 1) % 12 = n % 12 + 1 by omega]
    exact daysFromCivil_month (by omega)
  · rw [show (n + 1) / 12 = n / 12 + 1 by omega,
      show (n + 1) % 12 + 1 = 1 by omega, show n % 12 + 1 = 12 by omega]
    exact daysFromCivil_year _

theorem daysInMonth_bounds (y m : Nat) :
    28 ≤ daysInMonth y m ∧ daysInMonth y m ≤ 31 := by
  unfold daysInMonth
  split_ifs <;> omega

/-- Months apart are at least 28 days apart each. -/
theorem firstDay_add (n k : Nat) : firstDay n + 28 * k ≤ firstDay (n + k) := by
  induction k with
  | zero => simp
  | succ k ih =>
      have hnext := firstDay_succ (n + k)
      have hbounds := daysInMonth_bounds (2000 + (n + k) / 12)
        ((n + k) % 12 + 1)
      rw [← Nat.add_assoc]
      omega

-- ============================================================= the reading

/-- Two digits are read as their number. -/
theorem scanNumber_twoDigits {n : Nat} (hn : n < 100) {rest : List UInt8}
    (hrest : ∀ b ∈ rest.head?, isDigit 10 b = false) :
    scanNumber (twoDigits n ++ rest) = some ((false, n), rest) := by
  have hten : n / 10 < 10 := by omega
  have hone : n % 10 < 10 := by omega
  have hdigits : ∀ b ∈ twoDigits n, isDigit 10 b = true := by
    intro b hb
    rcases List.mem_pair.mp hb with rfl | rfl
    · exact isDigit_digit hten
    · exact isDigit_digit hone
  have hval : digitsVal 10 (twoDigits n) = n := by
    show digitsVal 10 ([(0x30 + n / 10).toUInt8]
      ++ [(0x30 + n % 10).toUInt8]) = n
    rw [digitsVal_concat, digitVal_digit hone]
    simp only [digitsVal, List.foldl_cons, List.foldl_nil,
      digitVal_digit hten, Option.getD_some]
    omega
  have hne : twoDigits n ≠ [] := List.cons_ne_nil _ _
  have hread := scanNumber_digits hne hdigits hrest
  rwa [hval] at hread

/-- The same, as one conversion of the format. -/
theorem sscanf_twoDigits {σ : Type*} {ds : List (Directive σ)} {vars : σ}
    {n : Nat} (hn : n < 100) {rest : List UInt8}
    (hrest : ∀ b ∈ rest.head?, isDigit 10 b = false)
    (assign : Int → σ → σ) :
    sscanf (.unsigned assign :: ds) (twoDigits n ++ rest) vars
      = sscanf ds rest (assign n vars) :=
  sscanf_unsigned (by omega) (scanNumber_twoDigits hn hrest) assign

theorem Stamp.month_bounds (s : Stamp) : 1 ≤ s.month ∧ s.month ≤ 456 := by
  have hyear := s.year_le
  have hmon := s.mon_ok
  unfold Stamp.month
  omega

theorem Stamp.day_le (s : Stamp) : s.day ≤ 31 :=
  s.day_ok.2.trans (daysInMonth_bounds _ _).2

/-- A stamp and its zone are read field by field. -/
theorem sscanf_stamp (s : Stamp) {zone : List UInt8} (hz : ZoneOk zone)
    (locals : ScanLocals) :
    ∃ tz, sscanf timeFormat (s.text ++ zone) locals =
      { hh := s.hour
        mm := s.min
        ss := s.sec
        yy := s.year
        mn := s.mon
        dd := s.day
        tz := tz } := by
  have hyear := s.year_le
  have hmon := s.mon_ok
  have hday := s.day_le
  have hhour := s.hour_lt
  have hmin := s.min_lt
  have hsec := s.sec_lt
  have hsep : ∀ {c : UInt8} {t : List UInt8}, isDigit 10 c = false →
      ∀ b ∈ (c :: t).head?, isDigit 10 b = false := by
    intro c t hc b hb
    cases hb
    exact hc
  unfold timeFormat Stamp.text
  simp only [List.append_assoc, List.cons_append]
  rw [sscanf_twoDigits (by omega) (hsep (by decide)), sscanf_literal,
    sscanf_twoDigits (by omega) (hsep (by decide)), sscanf_literal,
    sscanf_twoDigits (by omega) (hsep (by decide)), sscanf_literal,
    sscanf_twoDigits (by omega) (hsep (by decide)), sscanf_literal,
    sscanf_twoDigits (by omega) (hsep (by decide)), sscanf_literal,
    sscanf_twoDigits (by omega) hz.head]
  unfold sscanf
  split
  · exact ⟨_, rfl⟩
  · exact ⟨_, rfl⟩

-- =============================================================== the times

/-- A message that is read has its time set last. -/
theorem setTime_of_getSMS {rbuffer : List UInt8} {idx n : Nat}
    {locals : ScanLocals} {msg : SmsMsg} (hn : 0 < n)
    (h : getSMS rbuffer idx locals = (n, some msg)) :
    ∃ msg₀, msg = setTime locals msg₀ := by
  unfold getSMS at h
  generalize findSMSLoop idx (rbuffer.length + 1) rbuffer 0 = r at h
  obtain ⟨header, nmsg⟩ := r
  dsimp only at h
  split at h
  · cases h
  · split at h
    · cases h
      exact absurd hn (Nat.lt_irrefl 0)
    · split at h
      · cases h
        exact absurd hn (Nat.lt_irrefl 0)
      · split at h
        · cases h
          exact absurd hn (Nat.lt_irrefl 0)
        · cases h
          exact ⟨_, rfl⟩

/-- The time of a stamp as it is computed, before it is cut to 32 bits:
counted from the month behind. -/
def Stamp.shifted (s : Stamp) : Int := firstDay s.month * 86400 + s.seconds

/-- What `mktime` is given is a stamp with its month one too high. -/
theorem mktime_stamp (s : Stamp) :
    mktime
      { sec := s.sec
        min := s.min
        hour := s.hour
        mday := s.day
        mon := s.mon
        year := (s.year : Int) + 100 } =
      if int32Min ≤ s.shifted ∧ s.shifted ≤ int32Max then s.shifted
      else -1 := by
  have hday := s.day_ok.1
  have hsecs : daysFromCivil (1900 + ((s.year : Int) + 100) + s.mon / 12)
      (s.mon % 12 + 1) 1 = firstDay s.month := by
    unfold firstDay Stamp.month
    congr 1
    · push_cast
      omega
    · push_cast
      omega
  unfold mktime
  dsimp only
  rw [hsecs]
  have htotal : (firstDay s.month + ((s.day : Int) - 1)) * 86400
      + s.hour * 3600 + s.min * 60 + s.sec = s.shifted := by
    unfold Stamp.shifted Stamp.seconds
    push_cast [Nat.cast_sub hday]
    omega
  rw [htotal]

/-- The time of a message with a stamp. -/
theorem Stamped.timeValue {zone : List UInt8} (hz : ZoneOk zone)
    {s : Stamp} {msg : SmsMsg} (h : Stamped zone s msg) :
    msg.timeValue =
      if int32Min ≤ s.shifted ∧ s.shifted ≤ int32Max then s.shifted
      else -1 := by
  obtain ⟨rbuffer, idx, locals, n, hn, hget, htime⟩ := h
  obtain ⟨msg₀, rfl⟩ := setTime_of_getSMS hn hget
  have hsame : (setTime locals msg₀).time = msg₀.time := by
    unfold setTime
    split <;> rfl
  rw [hsame] at htime
  have hlen : 20 ≤ msg₀.time.length := by
    have := hz.length
    rw [htime, List.length_append]
    show 20 ≤ 17 + zone.length
    omega
  obtain ⟨tz, hscan⟩ := sscanf_stamp s hz locals
  unfold setTime
  rw [if_pos hlen, htime, hscan]
  exact mktime_stamp s

-- =============================================================== the order

/-- Earlier is in an earlier month, or earlier in the same one. -/
theorem before_iff {a b : Stamp} :
    a.Before b ↔
      a.month < b.month ∨ a.month = b.month ∧ a.seconds < b.seconds := by
  have ha := a.mon_ok
  have hb := b.mon_ok
  have hda := a.day_ok.1
  have hdb := b.day_ok.1
  have hha := a.hour_lt
  have hhb := b.hour_lt
  have hma := a.min_lt
  have hmb := b.min_lt
  have hsa := a.sec_lt
  have hsb := b.sec_lt
  unfold Stamp.Before Stamp.month Stamp.seconds
  omega

theorem Stamp.seconds_lt (s : Stamp) : s.seconds < 31 * 86400 := by
  have hday := s.day_le
  have hhour := s.hour_lt
  have hmin := s.min_lt
  have hsec := s.sec_lt
  unfold Stamp.seconds
  omega

/-- The time is one of 32 bits up to the last stamp that fits. -/
theorem shifted_le_iff (s : Stamp) :
    s.shifted ≤ int32Max ↔ ¬ lastFit.Before s := by
  have hend : firstDay 456 = 24837 := by decide
  have hmonth : lastFit.month = 456 := rfl
  have hseconds : lastFit.seconds = 1566847 := rfl
  have hlt := s.seconds_lt
  rw [before_iff, hmonth, hseconds]
  obtain ⟨-, hle⟩ := s.month_bounds
  unfold Stamp.shifted int32Max
  rcases hle.lt_or_eq with hearly | hlast
  · have hbefore := firstDay_add s.month (456 - s.month)
    rw [show s.month + (456 - s.month) = 456 by omega, hend] at hbefore
    omega
  · rw [hlast, hend]
    omega

theorem shifted_nonneg (s : Stamp) : 0 ≤ s.shifted := by
  have hfirst : firstDay 0 = 10957 := by decide
  have hle := firstDay_add 0 s.month
  rw [Nat.zero_add, hfirst] at hle
  unfold Stamp.shifted
  omega

/-- As they are computed, the times keep the order unless the months
follow each other too closely. -/
theorem shifted_lt_iff {a b : Stamp} (h : a.Before b) :
    a.shifted < b.shifted ↔ a.ClearOf b := by
  have hb := b.mon_ok
  unfold Stamp.shifted Stamp.ClearOf
  rcases before_iff.mp h with hlt | ⟨heq, hlt⟩
  · rcases Nat.lt_or_ge (a.month + 1) b.month with hapart | hnext
    · -- a whole month lies between them
      have hsteps := firstDay_add a.month (b.month - a.month)
      rw [show a.month + (b.month - a.month) = b.month by omega] at hsteps
      have hsec := a.seconds_lt
      refine iff_of_true ?_ fun heq => absurd heq (by omega)
      omega
    · have heq : b.month = a.month + 1 := by omega
      have hdays := firstDay_succ a.month
      have hyear : 2000 + a.month / 12 = 2000 + b.year := by
        unfold Stamp.month at heq ⊢
        omega
      have hmon : a.month % 12 + 1 = b.mon := by
        unfold Stamp.month at heq ⊢
        omega
      rw [hyear, hmon] at hdays
      rw [imp_iff_right heq, heq, hdays]
      omega
  · rw [heq]
    exact iff_of_true (by omega) fun hno => absurd hno (by omega)

/-- The times of two messages of one zone are in the order of their
stamps exactly if these are spared by the wrong month. -/
theorem timeValue_lt_iff {zone : List UInt8} (hz : ZoneOk zone)
    {a b : Stamp} {m₁ m₂ : SmsMsg} (h₁ : Stamped zone a m₁)
    (h₂ : Stamped zone b m₂) (hab : a.Before b) :
    m₁.timeValue < m₂.timeValue ↔ KeepsOrder a b := by
  have hmin : ∀ s : Stamp, int32Min ≤ s.shifted := fun s =>
    le_trans (by decide) (shifted_nonneg s)
  have hpos := shifted_nonneg a
  rw [h₁.timeValue hz, h₂.timeValue hz]
  simp only [hmin, true_and]
  unfold KeepsOrder
  rw [← shifted_le_iff, ← shifted_lt_iff hab]
  by_cases hfit : b.shifted ≤ int32Max
  · have hfirst : a.shifted ≤ int32Max := by
      have hbefore := before_iff.mp hab
      rw [shifted_le_iff, before_iff] at hfit ⊢
      omega
    rw [if_pos hfit, if_pos hfirst, and_iff_right hfit]
  · rw [if_neg hfit]
    refine iff_of_false ?_ fun h => hfit h.1
    split_ifs
    · omega
    · exact Int.lt_irrefl _

/-- Listed with no later message before an earlier one. -/
def Chronological (stamp : SmsMsg → Stamp) (l : List SmsMsg) : Prop :=
  l.Pairwise fun m₁ m₂ => ¬ (stamp m₂).Before (stamp m₁)

/-- Messages of one zone: the times of two are in the order of their stamps
exactly if these are spared by the wrong month, and when all are, the
ascending sort lists them in this order.

The sort is taken as far as its own slots go (`Sorted.lean`): here it is
the times that matter, not where the messages are put. -/
theorem timeOrder_iff {zone : List UInt8} (hz : ZoneOk zone)
    {l : List SmsMsg} {stamp : SmsMsg → Stamp}
    (hl : ∀ msg ∈ l, Stamped zone (stamp msg) msg) :
    (∀ m₁ ∈ l, ∀ m₂ ∈ l, (stamp m₁).Before (stamp m₂) →
      (m₁.timeValue < m₂.timeValue ↔
        KeepsOrder (stamp m₁) (stamp m₂))) ∧
    ((∀ m₁ ∈ l, ∀ m₂ ∈ l, (stamp m₁).Before (stamp m₂) →
        KeepsOrder (stamp m₁) (stamp m₂)) →
      ∀ env messages sort, Arranged env l messages → 0 < sort →
        (sortedListing env sort l messages).Perm l ∧
          Chronological stamp (sortedListing env sort l messages)) := by
  have hpairs : ∀ m₁ ∈ l, ∀ m₂ ∈ l, (stamp m₁).Before (stamp m₂) →
      (m₁.timeValue < m₂.timeValue ↔
        KeepsOrder (stamp m₁) (stamp m₂)) :=
    fun m₁ h₁ m₂ h₂ hbefore =>
      timeValue_lt_iff hz (hl m₁ h₁) (hl m₂ h₂) hbefore
  refine ⟨hpairs, fun hkeeps env messages sort harr hsort => ?_⟩
  have hout : sortedListing env sort l messages = listing l.length
      (sortUp l.length (sortStart env messages l.length)).smessages := by
    unfold sortedListing sorted
    rw [if_pos hsort]
    rfl
  obtain ⟨hperm, hascending⟩ := harr.sortUp
  rw [hout]
  refine ⟨hperm, hascending.imp_of_mem ?_⟩
  intro m₁ m₂ h₁ h₂ hle hbefore
  -- an earlier message has a smaller time, and would stand before
  rw [hperm.mem_iff] at h₁ h₂
  have hlt := (hpairs m₂ h₂ m₁ h₁ hbefore).mpr (hkeeps m₂ h₂ m₁ h₁ hbefore)
  omega

/-- A reply with one message of this time, and what it is read as. -/
def oneListed (time : String) : List UInt8 :=
  bytes "+CMGL: 1,\"REC READ\",\"+386\",\"\",\"" ++ bytes time
    ++ bytes "\"\r\na\r\n\r\nOK\r\n"

def oneRead (time : String) : SmsMsg :=
  ((getSMS (oneListed time) 1 ⟨0, 0, 0, 0, 0, 0, 0⟩).2).getD .zero

/-- Noon of this day. -/
def noon (mon day : Nat) (hmon : 1 ≤ mon ∧ mon ≤ 12)
    (hday : 1 ≤ day ∧ day ≤ daysInMonth 2017 mon) : Stamp where
  year := 17
  mon := mon
  day := day
  hour := 12
  min := 0
  sec := 0
  year_le := by decide
  mon_ok := hmon
  day_ok := hday
  hour_lt := by decide
  min_lt := by decide
  sec_lt := by decide

theorem stamped_oneRead {s : Stamp} {time : String}
    (hread : getSMS (oneListed time) 1 ⟨0, 0, 0, 0, 0, 0, 0⟩
      = (1, some (oneRead time)))
    (htime : (oneRead time).time = s.text ++ bytes "+08") :
    Stamped (bytes "+08") s (oneRead time) :=
  ⟨oneListed time, 1, ⟨0, 0, 0, 0, 0, 0, 0⟩, 1, by decide, hread, htime⟩

/-- The last of January is read as later than the first of February, and
sorted behind it. -/
theorem timeOrder_fails :
    Stamped (bytes "+08") (noon 1 31 (by decide) (by decide))
        (oneRead "17/01/31,12:00:00+08") ∧
      Stamped (bytes "+08") (noon 2 1 (by decide) (by decide))
        (oneRead "17/02/01,12:00:00+08") ∧
      (noon 1 31 (by decide) (by decide)).Before
        (noon 2 1 (by decide) (by decide)) ∧
      ¬ (oneRead "17/01/31,12:00:00+08").timeValue
        < (oneRead "17/02/01,12:00:00+08").timeValue ∧
      sortedListing twoListed 1 [oneRead "17/01/31,12:00:00+08",
          oneRead "17/02/01,12:00:00+08"]
        (inSlots [oneRead "17/01/31,12:00:00+08",
          oneRead "17/02/01,12:00:00+08"])
        = [oneRead "17/02/01,12:00:00+08",
          oneRead "17/01/31,12:00:00+08"] := by
  refine ⟨stamped_oneRead (by decide +kernel) (by decide +kernel),
    stamped_oneRead (by decide +kernel) (by decide +kernel), ?_, ?_, ?_⟩
  · exact .inr ⟨rfl, .inl (by decide)⟩
  · decide +kernel
  · decide +kernel

/-- Two days in June are read in their order. -/
theorem timeOrder_june :
    (oneRead "17/06/10,12:00:00+08").timeValue
      < (oneRead "17/06/11,12:00:00+08").timeValue := by
  have hzone : ZoneOk (bytes "+08") :=
    ⟨by decide, by decide +kernel⟩
  have hfirst : Stamped (bytes "+08") (noon 6 10 (by decide) (by decide))
      (oneRead "17/06/10,12:00:00+08") :=
    stamped_oneRead (by decide +kernel) (by decide +kernel)
  have hsecond : Stamped (bytes "+08") (noon 6 11 (by decide) (by decide))
      (oneRead "17/06/11,12:00:00+08") :=
    stamped_oneRead (by decide +kernel) (by decide +kernel)
  have hne : oneRead "17/06/11,12:00:00+08"
      ≠ oneRead "17/06/10,12:00:00+08" := by
    decide +kernel
  generalize oneRead "17/06/10,12:00:00+08" = m₁ at hfirst hne ⊢
  generalize oneRead "17/06/11,12:00:00+08" = m₂ at hsecond hne ⊢
  let stamp (msg : SmsMsg) : Stamp :=
    if msg = m₁ then noon 6 10 (by decide) (by decide)
    else noon 6 11 (by decide) (by decide)
  have hm₁ : stamp m₁ = noon 6 10 (by decide) (by decide) := if_pos rfl
  have hm₂ : stamp m₂ = noon 6 11 (by decide) (by decide) := if_neg hne
  rw [← hm₁] at hfirst
  rw [← hm₂] at hsecond
  have hpair := (timeOrder_iff hzone (List.forall_mem_cons.mpr
    ⟨hfirst, List.forall_mem_singleton.mpr hsecond⟩)).1 m₁
    List.mem_cons_self m₂ (List.mem_cons_of_mem _ List.mem_cons_self)
  rw [hm₁, hm₂] at hpair
  exact (hpair (by decide)).mpr (by decide)

end ShZ001.Sms
