/-
The verdict of an AT exchange: `atCmd_waitResponse` (libGSM.c 327–423)
when the caller wants no copy of the reply (`response == NULL`).

# The timeline

The UART is a timeline of reads: entry `k` is what the `k`-th
`uart_read_bytes` call of the loop delivers, `[]` being a silent read
(10 ms without a byte), and the modem stays silent past the end of the
list. So the loop is structural in its timeline: once the list is used
up the next turn either judges what has been gathered or goes on
counting to the timeout.

# The array and what lies behind it

`sresp` is a 256-byte array searched with `strstr`. As long as fewer
than 256 bytes are gathered its zero fill terminates it; a full array
has no terminator, and the search runs on into whatever lies behind it
(`past`, a parameter: the bytes up to the next NUL in memory).

# The counters

`tot` and `timeoutCnt` are `int`s in the source and `Nat`s here. A turn
adds 10 to `timeoutCnt` and at most 256, the size of `data`, to `tot`,
and the loop ends with the turn in which `timeoutCnt` passes `timeout`.
No caller passes more than 40000, so there are at most 4001 turns:
`timeoutCnt` stays within 40010 and `tot` within 1024256, and neither
can overflow.
-/
import ShZ001.Gsm.Cmd

namespace ShZ001.Gsm

open Lib

/-- `sizeof(sresp)`. -/
def srespSize : Nat := 256

/-- Lines 376–377: unprintable bytes are replaced by `'.'`. -/
def sanitise (b : UInt8) : UInt8 :=
  if 0x20 ≤ b ∧ b < 0x80 then b else 0x2e

/-- Lines 374–379: one chunk is gathered into `sresp`, bytes past its
end dropped. -/
def gather (sresp chunk : List UInt8) : List UInt8 :=
  chunk.foldl (fun acc b =>
    if acc.length < srespSize then acc ++ [sanitise b] else acc) sresp

/-- What `strstr` sees of `sresp`. -/
def srespText (past sresp : List UInt8) : List UInt8 :=
  if sresp.length < srespSize then sresp else sresp ++ past

/-- Lines 385–406: 1 for the expected string, 2 for the alternative one,
0 for neither. -/
def judge (past resp : List UInt8) (resp1 : Option (List UInt8))
    (sresp : List UInt8) : Nat :=
  let text := srespText past sresp
  if (strstr resp text).isSome then 1
  else match resp1 with
    | some r => if (strstr r text).isSome then 2 else 0
    | none => 0

/-- The loop of lines 368–420, one read a turn. -/
def waitLoop (past resp : List UInt8) (resp1 : Option (List UInt8))
    (timeout : Nat) (sresp : List UInt8) (tot timeoutCnt : Nat) :
    List (List UInt8) → Nat
  | [] => if 0 < tot then judge past resp resp1 sresp else 0
  | chunk :: rest =>
      if chunk = [] ∧ 0 < tot then judge past resp resp1 sresp
      else if timeout < timeoutCnt + 10 then 0
      else waitLoop past resp resp1 timeout (gather sresp chunk)
        (tot + chunk.length) (timeoutCnt + 10) rest

/-- `atCmd_waitResponse(…, response = NULL, …)`: the verdict on a UART
timeline that starts after the command was sent. -/
def atCmdWaitResponse (past resp : List UInt8)
    (resp1 : Option (List UInt8)) (timeout : Nat)
    (reads : List (List UInt8)) : Nat :=
  waitLoop past resp resp1 timeout [] 0 0 reads

-- ============================================================ gathering

/-- Gathering is appending the sanitised chunk and cutting at the
array's size. -/
theorem gather_eq {sresp : List UInt8} (h : sresp.length ≤ srespSize)
    (chunk : List UInt8) :
    gather sresp chunk = (sresp ++ chunk.map sanitise).take srespSize := by
  induction chunk generalizing sresp with
  | nil => simp [gather, List.take_of_length_le h]
  | cons b rest ih =>
      unfold gather at ih ⊢
      rw [List.foldl_cons]
      split
      case isTrue hlt =>
          rw [ih (by rw [List.length_append, List.length_singleton]; omega)]
          simp
      case isFalse hge =>
          rw [ih h, List.take_append_of_le_length (by omega),
            List.take_append_of_le_length (by omega)]

/-- The first chunk is gathered from its start. -/
theorem gather_nil (chunk : List UInt8) :
    gather [] chunk = (chunk.take srespSize).map sanitise := by
  rw [gather_eq (by simp), List.nil_append, List.map_take]

/-- Printable bytes are gathered as they are. -/
theorem map_sanitise {l : List UInt8}
    (h : ∀ b ∈ l, 0x20 ≤ b ∧ b < 0x80) : l.map sanitise = l :=
  (List.map_congr_left fun b hb => if_pos (h b hb)).trans (List.map_id' l)

/-- A printable pattern survives the sanitising of the text around it. -/
theorem infix_map_sanitise {pat l : List UInt8}
    (hp : ∀ b ∈ pat, 0x20 ≤ b ∧ b < 0x80) (h : pat <:+: l) :
    pat <:+: l.map sanitise := by
  have := h.map sanitise
  rwa [map_sanitise hp] at this

-- ============================================== a reply in one chunk

/-- The expected string found in the gathered text gives verdict 1. -/
theorem judge_found {past resp sresp : List UInt8}
    (resp1 : Option (List UInt8)) (h : resp <:+: sresp) :
    judge past resp resp1 sresp = 1 := by
  have htext : resp <:+: srespText past sresp := by
    unfold srespText
    split
    · exact h
    · exact h.trans (List.prefix_append _ _).isInfix
  unfold judge
  rw [if_pos (strstr_isSome.mpr htext)]

/-- A reply delivered by the first read and followed by silence is
accepted as soon as the timeout lets one read through. -/
theorem atCmdWaitResponse_prompt {past resp reply : List UInt8}
    {timeout : Nat} (hp : ∀ b ∈ resp, 0x20 ≤ b ∧ b < 0x80)
    (hne : resp ≠ []) (hfind : resp <:+: reply.take srespSize)
    (ht : 10 ≤ timeout) :
    atCmdWaitResponse past resp none timeout [reply, []] = 1 := by
  have hreply : reply ≠ [] := by
    intro h
    subst h
    exact hne (List.eq_nil_of_infix_nil (by simpa using hfind))
  have hpos : 0 < reply.length := List.length_pos_iff.mpr hreply
  unfold atCmdWaitResponse waitLoop
  rw [if_neg (by simp [hreply]), if_neg (by omega)]
  unfold waitLoop
  rw [if_pos ⟨rfl, by omega⟩, gather_nil]
  exact judge_found none (infix_map_sanitise hp hfind)

/-- The first turn counts 10 ms before the reply is ever looked at: with
a smaller timeout every exchange that opens with data fails. -/
theorem atCmdWaitResponse_short {past resp chunk : List UInt8}
    {resp1 : Option (List UInt8)} {timeout : Nat}
    {rest : List (List UInt8)} (ht : timeout < 10) :
    atCmdWaitResponse past resp resp1 timeout (chunk :: rest) = 0 := by
  unfold atCmdWaitResponse waitLoop
  rw [if_neg (by simp), if_pos (by omega)]

end ShZ001.Gsm
