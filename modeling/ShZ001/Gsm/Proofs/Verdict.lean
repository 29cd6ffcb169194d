/-
What the verdict of an AT exchange says about the modem's output
(libGSM.c 327–344, 366–423).

# The rule

A timeline of reads opens with some silence, and then comes a first burst
of chunks, up to the next silent read. `waitResponse_burst` is the whole
function: if that read comes in time the verdict is the one on the burst,
else it is 0. So it does not matter how the UART cuts the burst up, and
nothing behind the burst matters at all.

# The copy

What is searched is not the burst but `sresp`, the burst's first 256
bytes with some of them replaced by `'.'`. Three kinds of expected
string differ:

- one of kept characters (`Copied`) that is in those 256 bytes is found,
  for the copy can only make more matches of it;
- one of kept characters other than `'.'` (`Printable`) is found in the
  copy only if it is in the text, so on a burst that fits the array the
  verdict is exact;
- one with a replaced character is not in any copy.

A full array has no terminator, and the search goes on behind it.

# Two consequences

A reply in one burst is judged rightly as long as `sresp` can hold it and
its terminator, or the expected string lies within what `sresp` holds
(`verdict_iff`). And the timeout is the time allowed for the first burst,
not for the expected string: text and a pause before it end the exchange
(`waits_for_burst`).
-/
import ShZ001.Gsm.At

namespace ShZ001.Gsm

open Lib

-- ================================================================ the bursts

/-- The silent reads a timeline opens with. -/
def silence (reads : List (List UInt8)) : Nat :=
  (reads.takeWhile (· = [])).length

/-- Its first uninterrupted run of chunks. -/
def burst (reads : List (List UInt8)) : List (List UInt8) :=
  (reads.dropWhile (· = [])).takeWhile (· ≠ [])

/-- There is a burst, and the read that ends it comes before more than
`timeout` has been counted. -/
structure InTime (timeout : Nat) (reads : List (List UInt8)) : Prop where
  some : burst reads ≠ []
  count : 10 * (silence reads + (burst reads).length) ≤ timeout

instance (timeout : Nat) (reads : List (List UInt8)) :
    Decidable (InTime timeout reads) :=
  decidable_of_iff (burst reads ≠ [] ∧
      10 * (silence reads + (burst reads).length) ≤ timeout)
    ⟨fun h => ⟨h.1, h.2⟩, fun h => ⟨h.1, h.2⟩⟩

theorem burst_silent (reads : List (List UInt8)) :
    burst ([] :: reads) = burst reads := rfl

theorem silence_silent (reads : List (List UInt8)) :
    silence ([] :: reads) = silence reads + 1 := rfl

theorem burst_chunk {chunk : List UInt8} (h : chunk ≠ [])
    (reads : List (List UInt8)) :
    burst (chunk :: reads) = chunk :: reads.takeWhile (· ≠ []) := by
  simp [burst, h]

theorem silence_chunk {chunk : List UInt8} (h : chunk ≠ [])
    (reads : List (List UInt8)) : silence (chunk :: reads) = 0 := by
  simp [silence, h]

/-- Silence, a run of chunks, and the silent read behind it. -/
theorem burst_eq {chunks : List (List UInt8)} (hne : chunks ≠ [])
    (h : ∀ c ∈ chunks, c ≠ []) (k : Nat) (rest : List (List UInt8)) :
    burst (List.replicate k [] ++ (chunks ++ [] :: rest)) = chunks ∧
      silence (List.replicate k [] ++ (chunks ++ [] :: rest)) = k := by
  induction k with
  | zero =>
      obtain ⟨c, chunks, rfl⟩ := List.exists_cons_of_ne_nil hne
      have hc : c ≠ [] := h c List.mem_cons_self
      have hall : ∀ c ∈ chunks, decide (c ≠ []) = true :=
        fun c hc => decide_eq_true (h c (List.mem_cons_of_mem _ hc))
      refine ⟨?_, silence_chunk hc _⟩
      rw [List.replicate_zero, List.nil_append, List.cons_append,
        burst_chunk hc, List.takeWhile_append_of_pos hall]
      simp
  | succ k ih =>
      rw [List.replicate_succ, List.cons_append, burst_silent,
        silence_silent]
      exact ⟨ih.1, congrArg (· + 1) ih.2⟩

-- ================================================================== the loop

section

variable {past resp : List UInt8} {resp1 : Option (List UInt8)}
  {timeout : Nat}

/-- Once something has come, the loop goes on to the end of the run. -/
theorem waitLoop_run (sresp : List UInt8) {tot cnt : Nat} (htot : 0 < tot)
    (hcnt : cnt ≤ timeout) (reads : List (List UInt8)) :
    waitLoop past resp resp1 timeout sresp tot cnt reads =
      if cnt + 10 * (reads.takeWhile (· ≠ [])).length ≤ timeout then
        judge past resp resp1
          (gather sresp (reads.takeWhile (· ≠ [])).flatten)
      else 0 := by
  induction reads generalizing sresp tot cnt with
  | nil =>
      unfold waitLoop
      rw [if_pos htot, List.takeWhile_nil, if_pos (by simpa using hcnt)]
      rfl
  | cons chunk reads ih =>
      unfold waitLoop
      by_cases hc : chunk = []
      · rw [if_pos ⟨hc, htot⟩, hc, List.takeWhile_cons_of_neg (by simp),
          if_pos (by simpa using hcnt)]
        rfl
      · rw [if_neg fun h => hc h.1,
          List.takeWhile_cons_of_pos (by simpa using hc), List.length_cons,
          List.flatten_cons]
        by_cases ht : timeout < cnt + 10
        · rw [if_pos ht, if_neg (by omega)]
        · rw [if_neg ht, ih _ (Nat.add_pos_left htot _) (by omega)]
          have hsum : cnt + 10 + 10 * (reads.takeWhile (· ≠ [])).length
              = cnt + 10 * ((reads.takeWhile (· ≠ [])).length + 1) := by
            omega
          have hgather : gather (gather sresp chunk)
              (reads.takeWhile (· ≠ [])).flatten
                = gather sresp
                  (chunk ++ (reads.takeWhile (· ≠ [])).flatten) := by
            unfold gather
            rw [List.foldl_append]
          rw [hsum, hgather]

/-- Before anything has come. -/
theorem waitLoop_silent {cnt : Nat} (hcnt : cnt ≤ timeout)
    (reads : List (List UInt8)) :
    waitLoop past resp resp1 timeout [] 0 cnt reads =
      if burst reads ≠ [] ∧
          cnt + 10 * (silence reads + (burst reads).length) ≤ timeout then
        judge past resp resp1 (gather [] (burst reads).flatten)
      else 0 := by
  induction reads generalizing cnt with
  | nil => rfl
  | cons chunk reads ih =>
      unfold waitLoop
      rw [if_neg fun h => absurd h.2 (Nat.lt_irrefl 0)]
      by_cases hc : chunk = []
      · rw [hc, burst_silent, silence_silent]
        by_cases ht : timeout < cnt + 10
        · rw [if_pos ht, if_neg fun h => by omega]
        · have hrest := ih (show cnt + 10 ≤ timeout by omega)
          have hsum : cnt + 10 + 10 * (silence reads + (burst reads).length)
              = cnt + 10 * (silence reads + 1 + (burst reads).length) := by
            omega
          rw [hsum] at hrest
          rw [if_neg ht]
          exact hrest
      · have hlen := List.length_pos_iff.mpr hc
        rw [burst_chunk hc, silence_chunk hc, List.length_cons,
          List.flatten_cons]
        by_cases ht : timeout < cnt + 10
        · rw [if_pos ht, if_neg fun h => by omega]
        · rw [if_neg ht, waitLoop_run _ (by omega) (by omega)]
          have hgather : gather (gather [] chunk)
              (reads.takeWhile (· ≠ [])).flatten
                = gather []
                  (chunk ++ (reads.takeWhile (· ≠ [])).flatten) := by
            unfold gather
            rw [List.foldl_append]
          have hsum : cnt + 10 + 10 * (reads.takeWhile (· ≠ [])).length
              = cnt + 10
                * (0 + ((reads.takeWhile (· ≠ [])).length + 1)) := by
            omega
          rw [hgather, hsum]
          simp

/-- The verdict is the one on the first burst, if that ends in time. -/
theorem waitResponse_burst (reads : List (List UInt8)) :
    atCmdWaitResponse past resp resp1 timeout reads =
      if InTime timeout reads then
        judge past resp resp1
          (((burst reads).flatten.take srespSize).map sanitise)
      else 0 := by
  unfold atCmdWaitResponse
  rw [waitLoop_silent (Nat.zero_le timeout), gather_nil]
  refine if_congr ?_ rfl rfl
  rw [Nat.zero_add]
  exact ⟨fun h => ⟨h.1, h.2⟩, fun h => ⟨h.1, h.2⟩⟩

end

-- ================================================================== the text

/-- Characters that the copy into `sresp` leaves as they are. -/
def Copied (pat : List UInt8) : Prop := ∀ b ∈ pat, 0x20 ≤ b ∧ b < 0x80

instance (pat : List UInt8) : Decidable (Copied pat) :=
  inferInstanceAs (Decidable (∀ b ∈ pat, _))

/-- Whatever it is given, the copy holds printable ASCII. -/
theorem sanitise_copied (b : UInt8) :
    0x20 ≤ sanitise b ∧ sanitise b < 0x80 := by
  unfold sanitise
  split
  case isTrue h => exact h
  case isFalse => decide

/-- The copy holds no other characters. -/
theorem copied_of_found {pat l : List UInt8}
    (h : pat <:+: l.map sanitise) : Copied pat := by
  intro b hb
  obtain ⟨c, -, rfl⟩ := List.mem_map.mp (h.subset hb)
  exact sanitise_copied c

/-- Printable characters other than the one that stands for the rest. -/
def Printable (pat : List UInt8) : Prop :=
  ∀ b ∈ pat, 0x20 ≤ b ∧ b < 0x7f ∧ b ≠ 0x2e

instance (pat : List UInt8) : Decidable (Printable pat) :=
  inferInstanceAs (Decidable (∀ b ∈ pat, _))

theorem printable_ok : Printable gsmOkStr := by decide +kernel

/-- The copy keeps them. -/
theorem Printable.copied {pat : List UInt8} (h : Printable pat) :
    Copied pat := by
  intro b hb
  obtain ⟨hge, hlt, -⟩ := h b hb
  refine ⟨hge, ?_⟩
  rw [UInt8.lt_iff_toNat_lt] at hlt ⊢
  exact hlt.trans (by decide)

theorem Printable.nul {pat : List UInt8} (h : Printable pat) : 0 ∉ pat :=
  fun h0 => absurd (h 0 h0).1 (by decide)

/-- A byte that is sanitised to something else than `'.'` is that byte. -/
theorem sanitise_eq {b c : UInt8} (h : sanitise b = c) (hc : c ≠ 0x2e) :
    b = c := by
  unfold sanitise at h
  split at h
  · exact h
  · exact absurd h.symm hc

/-- A copied text that is such a string was that string before. -/
theorem map_sanitise_eq {l pat : List UInt8} (hp : Printable pat)
    (h : l.map sanitise = pat) : l = pat := by
  subst h
  induction l with
  | nil => rfl
  | cons b l ih =>
      have hb := (hp (sanitise b) (by simp)).2.2
      have hl := ih fun c hc => hp c (List.mem_cons_of_mem _ hc)
      rw [List.map_cons, ← hl, ← sanitise_eq rfl hb]

/-- Sanitising a text neither hides such a pattern nor makes one up. -/
theorem infix_sanitise {pat l : List UInt8} (hp : Printable pat) :
    pat <:+: l.map sanitise ↔ pat <:+: l := by
  constructor
  · intro h'
    obtain ⟨s, t, h⟩ := h'
    obtain ⟨l₁, l₂, rfl, h₁, -⟩ := List.map_eq_append_iff.mp h.symm
    obtain ⟨l₃, l₄, rfl, -, h₄⟩ := List.map_eq_append_iff.mp h₁
    rw [map_sanitise_eq hp h₄]
    exact ⟨l₃, l₂, rfl⟩
  · exact infix_map_sanitise hp.copied

/-- What an exchange should answer to a reply. -/
def replyVerdict (resp : List UInt8) (resp1 : Option (List UInt8))
    (reply : List UInt8) : Nat :=
  if resp <:+: reply then 1
  else match resp1 with
    | some r => if r <:+: reply then 2 else 0
    | none => 0

/-- The search finds what is in the text. -/
theorem judge_eq (past resp sresp : List UInt8)
    (resp1 : Option (List UInt8)) :
    judge past resp resp1 sresp
      = replyVerdict resp resp1 (srespText past sresp) := by
  unfold judge replyVerdict
  refine if_congr strstr_isSome rfl ?_
  cases resp1 with
  | none => rfl
  | some r => exact if_congr strstr_isSome rfl rfl

section

variable {resp : List UInt8} {resp1 : Option (List UInt8)}

/-- The verdict 1 is that of the first string. -/
theorem replyVerdict_eq_one {reply : List UInt8} :
    replyVerdict resp resp1 reply = 1 ↔ resp <:+: reply := by
  unfold replyVerdict
  split
  case isTrue h => exact iff_of_true rfl h
  case isFalse h =>
      refine iff_of_false ?_ h
      cases resp1 with
      | none => exact Nat.zero_ne_one
      | some r =>
          dsimp only
          split <;> decide

/-- Two texts that hold the same of the patterns. -/
theorem replyVerdict_congr {reply reply' : List UInt8}
    (h : resp <:+: reply ↔ resp <:+: reply')
    (h1 : ∀ r ∈ resp1, r <:+: reply ↔ r <:+: reply') :
    replyVerdict resp resp1 reply = replyVerdict resp resp1 reply' := by
  unfold replyVerdict
  refine if_congr h rfl ?_
  cases resp1 with
  | none => rfl
  | some r => exact if_congr (h1 r rfl) rfl rfl

end

/-- What the search looks through, when a reply has been gathered. -/
def searched (past reply : List UInt8) : List UInt8 :=
  srespText past ((reply.take srespSize).map sanitise)

/-- A reply that leaves room for the terminator. -/
theorem searched_short {reply : List UInt8} (h : reply.length < srespSize)
    (past : List UInt8) : searched past reply = reply.map sanitise := by
  unfold searched srespText
  rw [List.take_of_length_le h.le, if_pos (by rwa [List.length_map])]

/-- A longer one: its first bytes, and what lies behind the array. -/
theorem searched_full {reply : List UInt8} (h : srespSize ≤ reply.length)
    (past : List UInt8) :
    searched past reply = (reply.take srespSize).map sanitise ++ past := by
  unfold searched srespText
  rw [if_neg]
  rw [List.length_map, List.length_take, Nat.min_eq_left h]
  exact Nat.lt_irrefl _

/-- What is within the array is found. -/
theorem infix_searched {pat reply : List UInt8} (hp : Copied pat)
    (h : pat <:+: reply.take srespSize) (past : List UInt8) :
    pat <:+: searched past reply := by
  have hin := infix_map_sanitise hp h
  unfold searched srespText
  split
  · exact hin
  · exact hin.trans (List.prefix_append _ _).isInfix

-- ========================================================= a reply in one burst

/-- An exchange that is answered in one burst, the read that ends it coming
in time. -/
structure Exchange where
  resp : List UInt8
  resp1 : Option (List UInt8)
  timeout : Nat
  silent : Nat
  chunks : List (List UInt8)
  rest : List (List UInt8)
  resp_ok : Printable resp
  resp1_ok : ∀ r ∈ resp1, Printable r
  some_chunk : chunks ≠ []
  chunk_ok : ∀ c ∈ chunks, c ≠ [] ∧ c.length ≤ 256
  in_time : 10 * (silent + chunks.length) ≤ timeout

/-- Its timeline. -/
def Exchange.reads (x : Exchange) : List (List UInt8) :=
  List.replicate x.silent [] ++ (x.chunks ++ [] :: x.rest)

/-- The bytes of the reply. -/
def Exchange.reply (x : Exchange) : List UInt8 := x.chunks.flatten

/-- The verdict is that on the reply, whatever lies behind `sresp` up to
the next NUL. -/
def VerdictLaw (x : Exchange) : Prop :=
  ∀ past, 0 ∉ past →
    atCmdWaitResponse past x.resp x.resp1 x.timeout x.reads
      = replyVerdict x.resp x.resp1 x.reply

/-- A reply of 256 bytes, and the expected string behind the array. -/
def fullReply : Exchange where
  resp := gsmOkStr
  resp1 := none
  timeout := 1000
  silent := 0
  chunks := [List.replicate 256 0x61]
  rest := []
  resp_ok := printable_ok
  resp1_ok := nofun
  some_chunk := by decide
  chunk_ok := by decide +kernel
  in_time := by decide

/-- The array is full, and the search runs on behind it. -/
theorem verdict_fails :
    ¬ VerdictLaw fullReply ∧
      atCmdWaitResponse gsmOkStr gsmOkStr none 1000 fullReply.reads = 1 ∧
      ¬ gsmOkStr <:+: fullReply.reply := by
  have hread : atCmdWaitResponse gsmOkStr gsmOkStr none 1000
      fullReply.reads = 1 := by
    decide +kernel
  have hno : ¬ gsmOkStr <:+: fullReply.reply := by
    decide +kernel
  refine ⟨fun hlaw => ?_, hread, hno⟩
  have h := hlaw gsmOkStr (by decide)
  rw [show atCmdWaitResponse gsmOkStr fullReply.resp fullReply.resp1
    fullReply.timeout fullReply.reads = 1 from hread] at h
  exact hno (replyVerdict_eq_one.mp h.symm)

section

variable (x : Exchange)

/-- The burst is the reply. -/
theorem Exchange.verdict (past : List UInt8) :
    atCmdWaitResponse past x.resp x.resp1 x.timeout x.reads
      = replyVerdict x.resp x.resp1 (searched past x.reply) := by
  obtain ⟨hburst, hsilence⟩ := burst_eq x.some_chunk
    (fun c hc => (x.chunk_ok c hc).1) x.silent x.rest
  have htime : InTime x.timeout x.reads := by
    refine ⟨?_, ?_⟩
    · unfold Exchange.reads
      rw [hburst]
      exact x.some_chunk
    · unfold Exchange.reads
      rw [hburst, hsilence]
      exact x.in_time
  rw [waitResponse_burst, if_pos htime, judge_eq]
  unfold Exchange.reads
  rw [hburst]
  rfl

/-- The verdict is right if there is room for the terminator, or if the
expected string is within the array. -/
theorem verdictLaw_of_fits (h : x.reply.length < srespSize ∨
    x.resp <:+: x.reply.take srespSize) : VerdictLaw x := by
  intro past _
  rw [x.verdict past]
  rcases h with hshort | hin
  · rw [searched_short hshort]
    exact replyVerdict_congr (infix_sanitise x.resp_ok)
      fun r hr => infix_sanitise (x.resp1_ok r hr)
  · have hall := hin.trans (List.take_prefix _ _).isInfix
    rw [replyVerdict_eq_one.mpr (infix_searched x.resp_ok.copied hin past),
      replyVerdict_eq_one.mpr hall]

/-- And only then: else the verdict depends on the memory.

A reply that fills the array and does not hold the string within it is
judged by what lies behind: with one memory the string is found there, with
another it is not. -/
theorem verdict_iff : VerdictLaw x ↔
    x.reply.length < srespSize ∨ x.resp <:+: x.reply.take srespSize := by
  refine ⟨fun hlaw => ?_, verdictLaw_of_fits x⟩
  by_contra hno
  obtain ⟨hlong, hout⟩ := not_or.mp hno
  have hfull := searched_full (Nat.le_of_not_lt hlong)
  -- with nothing behind the array the string is not found
  have hnone := hlaw [] nofun
  rw [x.verdict, hfull, List.append_nil] at hnone
  have hreply : ¬ x.resp <:+: x.reply := by
    intro hin
    rw [replyVerdict_eq_one.mpr hin, replyVerdict_eq_one,
      infix_sanitise x.resp_ok] at hnone
    exact hout hnone
  -- with the string behind the array it is
  have hsome := hlaw x.resp x.resp_ok.nul
  rw [x.verdict, hfull, replyVerdict_eq_one.mpr
    (List.suffix_append _ _).isInfix] at hsome
  exact hreply (replyVerdict_eq_one.mp hsome.symm)

/-- How the reply is cut into chunks makes no difference. -/
theorem verdict_unsplit {y : Exchange} (hresp : y.resp = x.resp)
    (hresp1 : y.resp1 = x.resp1) (hreply : y.reply = x.reply)
    (past : List UInt8) :
    atCmdWaitResponse past y.resp y.resp1 y.timeout y.reads
      = atCmdWaitResponse past x.resp x.resp1 x.timeout x.reads := by
  rw [x.verdict, y.verdict, hresp, hresp1, hreply]

end

-- ============================================================ any timeline

/-- The expected string has arrived, a silent read behind it, before more
than `timeout` has been counted. -/
def Arrived (timeout : Nat) (resp : List UInt8)
    (reads : List (List UInt8)) : Prop :=
  ∃ before after, reads = before ++ [] :: after ∧
    resp <:+: before.flatten ∧ 10 * (before.length + 1) ≤ timeout

/-- An echo, a pause, and the answer. -/
def echoed : List (List UInt8) :=
  [bytes "AT\r", [], bytes "OK", []]

/-- Three ways to arrive and not be found. The echo is judged by itself;
a string with a line end is not in the copy, even alone in its burst; and
behind 256 other bytes there is no copy. -/
theorem waits_fails :
    (Arrived 1000 gsmOkStr echoed ∧
      atCmdWaitResponse [] gsmOkStr none 1000 echoed = 0) ∧
    (Arrived 1000 (bytes "\r\nOK") [bytes "\r\nOK", []] ∧
      atCmdWaitResponse [] (bytes "\r\nOK") none 1000
        [bytes "\r\nOK", []] = 0) ∧
    Arrived 1000 gsmOkStr [List.replicate 256 0x61, gsmOkStr, []] ∧
      atCmdWaitResponse [] gsmOkStr none 1000
        [List.replicate 256 0x61, gsmOkStr, []] = 0 := by
  refine ⟨⟨⟨[bytes "AT\r", [], bytes "OK"], [], rfl, ?_, by decide⟩, ?_⟩,
    ⟨⟨[bytes "\r\nOK"], [], rfl, ?_, by decide⟩, ?_⟩,
    ⟨[List.replicate 256 0x61, gsmOkStr], [], rfl, ?_, by decide⟩, ?_⟩
  all_goals decide +kernel

/-- The timeout is that of the first burst. -/
structure BurstLaw (past resp : List UInt8) (timeout : Nat)
    (reads : List (List UInt8)) : Prop where
  /-- A string of kept characters within its first 256 bytes is found,
  whatever else it holds. -/
  found : Copied resp → InTime timeout reads →
    resp <:+: (burst reads).flatten.take srespSize →
    atCmdWaitResponse past resp none timeout reads = 1
  /-- A burst that fits `sresp` is judged by whether it ends in time and
  holds the string. -/
  exact : Printable resp → (burst reads).flatten.length < srespSize →
    atCmdWaitResponse past resp none timeout reads =
      if InTime timeout reads ∧ resp <:+: (burst reads).flatten then 1
      else 0
  /-- In such a burst a string with a replaced character is not found. -/
  replaced : ¬ Copied resp → (burst reads).flatten.length < srespSize →
    atCmdWaitResponse past resp none timeout reads = 0
  /-- What comes behind the burst makes no difference. -/
  behind : ∀ reads', silence reads' = silence reads →
    burst reads' = burst reads →
    atCmdWaitResponse past resp none timeout reads'
      = atCmdWaitResponse past resp none timeout reads

/-- Without an alternative string the verdict is that of the search. -/
theorem waitResponse_searched (past resp : List UInt8) (timeout : Nat)
    (reads : List (List UInt8)) :
    atCmdWaitResponse past resp none timeout reads =
      if InTime timeout reads ∧ resp <:+: searched past (burst reads).flatten
      then 1 else 0 := by
  rw [waitResponse_burst]
  by_cases htime : InTime timeout reads
  · rw [if_pos htime, judge_eq]
    exact if_congr (and_iff_right htime).symm rfl rfl
  · rw [if_neg htime, if_neg fun h => htime h.1]

/-- Whether a burst is in time depends on the silence before it and on
itself. -/
theorem inTime_congr {timeout : Nat} {reads reads' : List (List UInt8)}
    (hs : silence reads' = silence reads)
    (hb : burst reads' = burst reads) :
    InTime timeout reads' ↔ InTime timeout reads := by
  refine ⟨fun h => ⟨?_, ?_⟩, fun h => ⟨?_, ?_⟩⟩
  · exact hb ▸ h.some
  · exact hs ▸ hb ▸ h.count
  · exact hb ▸ h.some
  · exact hs.symm ▸ hb.symm ▸ h.count

/-- Every timeline is judged by its first burst.

Whether the burst came in time is a count of its reads and of the silence
before it. What it is judged by is the copy of its first 256 bytes; the law
says for each kind of string what that comes to. What follows the burst is
never read. -/
theorem waits_for_burst (past resp : List UInt8) (timeout : Nat)
    (reads : List (List UInt8)) : BurstLaw past resp timeout reads := by
  refine ⟨fun hp htime hin => ?_, fun hp hshort => ?_,
    fun hno hshort => ?_, fun reads' hs hb => ?_⟩
  · rw [waitResponse_searched,
      if_pos ⟨htime, infix_searched hp hin past⟩]
  · rw [waitResponse_searched, searched_short hshort]
    exact if_congr (by rw [infix_sanitise hp]) rfl rfl
  · rw [waitResponse_searched, searched_short hshort]
    exact if_neg fun h => hno (copied_of_found h.2)
  · rw [waitResponse_searched, waitResponse_searched, hb]
    exact if_congr (by rw [inTime_congr hs hb]) rfl rfl

/-- An echo and the answer in one burst, behind a pause: the answer is
found, with or without what follows, and the line end before it is not. -/
theorem waits_for_burst_echo :
    let reads := [[], bytes "AT.\r", bytes "\r\nOK", [], bytes "RING"]
    atCmdWaitResponse [] (bytes "AT.") none 1000 reads = 1 ∧
    atCmdWaitResponse [] gsmOkStr none 1000 reads = 1 ∧
    atCmdWaitResponse [] (bytes "\r\nOK") none 1000 reads = 0 ∧
    atCmdWaitResponse [] gsmOkStr none 1000 (reads.take 4)
      = atCmdWaitResponse [] gsmOkStr none 1000 reads := by
  refine ⟨?_, ?_, ?_, ?_⟩
  · exact (waits_for_burst [] (bytes "AT.") 1000 _).found (by decide +kernel)
      ⟨by decide, by decide⟩ (by decide)
  · rw [(waits_for_burst [] gsmOkStr 1000 _).exact printable_ok (by decide)]
    exact if_pos ⟨⟨by decide, by decide⟩, by decide⟩
  · exact (waits_for_burst [] (bytes "\r\nOK") 1000 _).replaced
      (by decide) (by decide)
  · exact (waits_for_burst [] gsmOkStr 1000 _).behind _ (by decide)
      (by decide)

end ShZ001.Gsm
