/-
`smsRead` from the UART up (libGSM.c 910–1097): when what the modem lists
arrives in the caller's array.

# The chain

The reads are collected into a block, however they are cut up and however
often it grows (`gathers`); the text of the block is the reply, if the byte
behind it happens to be the NUL that the code fails to store
(`parses_reply`); each header of the list is found and read back
(`getSMS_before`), so that the parsed messages are those that are listed
(`parsedTo_listed`).

# The array

There the chain breaks. The caller's element `k` is not the element that
the code stores message `k` in, from the second message on; so the listed
messages arrive exactly if there is at most one, and a descending sort does
not lose it (`smsRead_delivers`).
-/
import Mathlib.Data.List.Forall2
import ShZ001.Gsm.Proofs.Collect
import ShZ001.Sms.Inbox
import ShZ001.Sms.Proofs.Recover
import ShZ001.Sms.Proofs.Stride

namespace ShZ001.Sms

open Lib Gsm

-- ================================================================ the block

theorem malloc_pos : 0 < 512 := by decide

/-- A call whose allocations succeed. -/
def InboxEnv.collecting (x : InboxEnv) (h : x.Allocates) : Collecting where
  env := x.reply
  response := .block 0
  size := 512
  mem := x.block
  size_pos := malloc_pos
  grows := h.grows

/-- Growing never fails, so the block is freed where it is. -/
theorem owned_of_allocates {x : InboxEnv} (halloc : x.Allocates)
    (text : List UInt8) :
    OwnedUses (some (.block 0))
      (smsReadUses (x.readEnv text) x.reply 0) :=
  (smsReadUses_owned _ _ _).mpr fun _ _ k hk => absurd hk.fails (halloc.grows k)

section

variable {x : InboxEnv} (halloc : x.Allocates)
  (hready : (smsReady x.send .read).1 = true) {reply : List UInt8}
  (hreply : replyOf x.reply.reads = reply) (hclean : 0 ∉ reply)
  (hnul : x.rbuffer.cell reply.length = 0)

include halloc hreply

theorem collected_ret : x.collected.ret = reply.length := by
  rw [← hreply]
  exact (gathers (x.collecting halloc)).ret

include hclean hnul

/-- The reply stands in the block, if there is a NUL behind it. -/
theorem textAt_reply : TextAt x.rbuffer.cell 0 reply ∧
    reply.length < x.rbuffer.size := by
  have hgathers := gathers (x.collecting halloc)
  have hbytes : slice x.rbuffer.cell 0 reply.length = reply := by
    rw [← hreply]
    exact hgathers.bytes
  have hroom : reply.length < x.rbuffer.size := by
    rw [← hreply]
    exact hgathers.room
  exact ⟨⟨hbytes, by rwa [Nat.zero_add], fun b hb h0 => hclean (h0 ▸ hb)⟩,
    hroom⟩

include hready

/-- So it is what is parsed. -/
theorem parses_reply (hne : reply ≠ []) {text : List UInt8} :
    x.Parses text ↔ text = reply := by
  obtain ⟨htext, hroom⟩ := textAt_reply halloc hreply hclean hnul
  constructor
  · intro h
    have hcollects : x.collects = true := by
      unfold InboxEnv.collects
      rw [hready, halloc.rbuffer]
      rfl
    have hpos : 0 < x.collected.ret := by
      rw [collected_ret halloc hreply]
      exact List.length_pos_iff.mpr hne
    exact textAt_unique (h hcollects hpos).1 htext
  · intro h
    rw [h]
    exact fun _ _ => ⟨htext, hroom⟩

end

-- ============================================================== the messages

/-- What precedes the list changes neither the count nor the search. -/
theorem numSMS_before {before : List UInt8}
    (hbefore : ¬ cmglStr <:+: before) (ms : List Listed) :
    numSMS (before ++ render ms) = numSMS (render ms) := by
  rw [numSMS_eq, numSMS_eq, occurs_append (parts_render ms),
    (occurs_eq_zero (by decide)).mpr hbefore, Nat.zero_add]

/-- The `k`-th marker behind the echo is that of the `k`-th message. -/
theorem findSMS_before {before : List UInt8}
    (hbefore : ¬ cmglStr <:+: before) {ms : List Listed}
    (hms : ∀ m ∈ ms, m.Unmarked) {k : Nat} {m : Listed}
    (hk : ms[k]? = some m) :
    ∃ s, findSMSLoop (k + 1) ((before ++ render ms).length + 1)
        (before ++ render ms) 0 = (some (m.text ++ s), k + 1) := by
  obtain ⟨hlt, -⟩ := List.getElem?_eq_some_iff.mp hk
  have hfuel : k < (before ++ render ms).length + 1 := by
    have hle := length_render ms
    rw [List.length_append]
    omega
  have hfind := findSMSLoop_render hms hk hfuel
    (strstr_skip (parts_render ms) hbefore) 0
  rwa [Nat.zero_add] at hfind

/-- Every listed message is read, behind whatever text. -/
theorem getSMS_before {before : List UInt8}
    (hbefore : ¬ cmglStr <:+: before) {ms : List Listed}
    (hms : ∀ m ∈ ms, m.Unmarked ∧ m.Clear) {k : Nat} {m : Listed}
    (hk : ms[k]? = some m) (locals : ScanLocals) :
    ∃ r, getSMS (before ++ render ms) (k + 1) locals = (k + 1, some r) ∧
      m.ReadAs r := by
  obtain ⟨s, hfind⟩ := findSMS_before hbefore (fun m hm => (hms m hm).1) hk
  obtain ⟨body, t, hcut, hbody, hplain, hodd⟩ := exists_cut m s
  rw [hcut] at hfind
  have hclear := (hms m (List.mem_of_getElem? hk)).2
  exact ⟨_, getSMS_found hfind (oneLine_firstLine _) hbody locals,
    readAs_setTime.mpr ((readAs_cut hplain hodd).mpr hclear)⟩

/-- The quotes add no NUL. -/
theorem quoted_clean {f : List UInt8} (h : 0 ∉ f) : 0 ∉ quoted f := by
  have hopen : (0 : UInt8) ∉ bytes ",\"" := by decide
  have hclose : (0 : UInt8) ∉ bytes "\"" := by decide
  unfold quoted
  simp only [List.mem_append, not_or]
  exact ⟨⟨hopen, h⟩, hclose⟩

/-- A listing is a C string. -/
theorem render_clean (ms : List Listed) : 0 ∉ render ms := by
  induction ms with
  | nil => decide
  | cons m ms ih =>
      have hmarker : (0 : UInt8) ∉ cmglStr := by decide
      have hline : (0 : UInt8) ∉ crlfStr := by decide
      unfold render Listed.header
      simp only [List.mem_append, not_or]
      exact ⟨⟨⟨⟨⟨hmarker, ⟨⟨⟨not_mem_decimal rfl m.index,
        quoted_clean m.status_ok.1.nul⟩, quoted_clean m.sender_ok.1.nul⟩,
        quoted_clean m.name_ok.nul⟩, quoted_clean m.time_ok.1.nul⟩, hline⟩,
        m.body_ok⟩, hline⟩, ih⟩

-- ================================================================= the array

section

variable {env : ReadEnv} {ms : List Listed} {before : List UInt8}
  (hbefore : ¬ cmglStr <:+: before)
  (hms : ∀ m ∈ ms, m.Unmarked ∧ m.Clear)
  (htext : env.rbuffer = before ++ render ms)

include hbefore hms htext

/-- The fill loop parses one message for each that is listed. -/
theorem parsedTo_render {n : Nat} (hn : n ≤ ms.length) :
    List.Forall₂ Listed.ReadAs (ms.take n) (parsedTo env n) := by
  induction n with
  | zero => exact .nil
  | succ n ih =>
      have hall := ih (by omega)
      have hk : ms[n]? = some ms[n] := List.getElem?_eq_getElem hn
      obtain ⟨r, hget, hread⟩ :=
        getSMS_before hbefore hms hk (env.locals n)
      have hparse : parseAt env n = some r := by
        unfold parseAt
        rw [htext, hget]
        exact if_pos (Nat.succ_pos n)
      rw [parsedTo_succ, hparse, List.take_add_one, hk]
      exact List.rel_append hall (.cons hread .nil)

/-- All that is listed is parsed, if the call gets to it. -/
theorem parsedTo_listed (hready : env.ready = true)
    (hrbuffer : env.rbufferAlloc = true) (hres : 0 < env.res)
    (hmessages : env.messagesAlloc = true) :
    listed env = ms.length ∧
      List.Forall₂ Listed.ReadAs ms (parsedTo env (listed env)) := by
  have hcount := (numSMS_render ms).mpr fun m hm => (hms m hm).1
  have hlisted : listed env = ms.length := by
    unfold listed
    rw [if_pos ⟨hready, hrbuffer, hres, hmessages⟩, htext,
      numSMS_before hbefore, hcount]
  have hall := parsedTo_render hbefore hms htext (le_refl ms.length)
  rw [List.take_length] at hall
  rw [hlisted]
  exact ⟨rfl, hall⟩

end

-- ================================================================== the law

/-- The caller's array holds a message for each that is listed, with what
was listed of it, in the order asked for. -/
structure Delivered (sort : Int) (ms : List Listed) (out : ReadOut) : Prop
    where
  none : ms = [] → out.result = none
  some : ∃ l l', List.Forall₂ Listed.ReadAs ms l ∧ InOrder sort l l' ∧
    HandedOver out l'

theorem Delivered.nmsg {sort : Int} {ms : List Listed} {out : ReadOut}
    (h : Delivered sort ms out) : out.nmsg = ms.length := by
  obtain ⟨l, l', hall, horder, hover⟩ := h.some
  rw [hover.nmsg, horder.perm.length_eq, hall.length_eq]

/-- No element that the caller gets is a zeroed record. -/
theorem Delivered.ne_zero {sort : Int} {ms : List Listed} {out : ReadOut}
    (h : Delivered sort ms out) {k : Nat} (hk : k < ms.length) :
    ∃ arr, out.result = Option.some arr ∧ arr.cell k ≠ .zero := by
  have hnmsg := h.nmsg
  obtain ⟨l, l', hall, horder, hover⟩ := h.some
  obtain ⟨arr, harr, hcell⟩ := hover.cells k (by omega)
  refine ⟨arr, harr, fun hzero => ?_⟩
  have hmem : arr.cell k ∈ l :=
    horder.perm.mem_iff.mp (List.mem_of_getElem? hcell)
  obtain ⟨i, hi, hget⟩ := List.getElem_of_mem hmem
  have hread := hall.get (hall.length_eq ▸ hi) hi
  have hmsg := hread.msg
  rw [List.get_eq_getElem, hget, hzero] at hmsg
  cases hmsg

section

variable {env : ReadEnv} {sort : Int} {ms : List Listed}
  (hlisted : listed env = ms.length)
  (hall : List.Forall₂ Listed.ReadAs ms (parsedTo env (listed env)))

include hlisted hall

/-- What is handed over is what is listed. -/
theorem delivered_of_readLaw (h : ReadLaw env sort) :
    Delivered sort ms (smsRead env sort) := by
  obtain ⟨l, horder, hover⟩ := h.result
  refine ⟨fun hnone => ?_, _, l, hall, horder, hover⟩
  have hzero : listed env = 0 := by rw [hlisted, hnone]; rfl
  rw [smsRead_nothing hzero]
  rfl

/-- The second of several messages is not where the caller looks for it, and
a message from before 1970 is not found by the descending sort. -/
theorem few_of_delivered (h : Delivered sort ms (smsRead env sort)) :
    ms.length ≤ 1 ∧ (sort < 0 → ∀ msg, parseAt env 0 = some msg →
      ms ≠ [] → 0 ≤ msg.timeValue) := by
  have hfilled := filled_listed env
  have hnmsg := hfilled.nmsg
  rw [← hall.length_eq] at hnmsg
  have hfew : ms.length ≤ 1 := by
    by_contra htwo
    obtain ⟨arr, harr, hne⟩ := h.ne_zero (k := 1) (by omega)
    rw [smsRead_some (by omega) sort] at harr
    exact hne (second_is_zero hfilled (by omega) harr)
  refine ⟨hfew, fun hdown msg hfirst hsome => ?_⟩
  have hpos : 0 < ms.length := List.length_pos_iff.mpr hsome
  exact (room_of_result (by omega) (fun i hi hlt => by omega) hfirst
    (by omega) (h.ne_zero hpos)).2 hdown

end

/-- At most one message, and not one that the sort loses. -/
def Few (x : InboxEnv) (sort : Int) (ms : List Listed)
    (before : List UInt8) : Prop :=
  ms.length ≤ 1 ∧ (sort < 0 → ∀ msg,
    parseAt (x.readEnv (before ++ render ms)) 0 = some msg →
      ms ≠ [] → 0 ≤ msg.timeValue)

/-- A message of one line. -/
def oneLiner : Listed where
  index := 3
  status := bytes "REC UNREAD"
  sender := bytes "+38640123456"
  name := bytes "office"
  time := bytes "17/06/01,08:15:30+08"
  body := bytes "hello"
  index_lt := by decide
  status_ok := ⟨⟨by decide, by decide⟩, by decide⟩
  sender_ok := ⟨⟨by decide, by decide⟩, by decide⟩
  name_ok := ⟨by decide, by decide⟩
  time_ok := ⟨⟨by decide, by decide⟩, by decide⟩
  body_ok := by decide

theorem oneLiner_readable : oneLiner.Unmarked ∧ oneLiner.Clear := by
  have hline : ∀ f ∈ [oneLiner.status, oneLiner.sender, oneLiner.name,
      oneLiner.time, oneLiner.body],
      OneLine f ∧ ¬ EndsInComma f ∧ ¬ cmglStr <:+: f := by
    unfold OneLine EndsInComma
    decide
  simp only [List.forall_mem_cons] at hline
  obtain ⟨hstatus, hsender, hname, htime, hbody, -⟩ := hline
  refine ⟨?_, ⟨hstatus.1, hstatus.2.1⟩, ⟨hsender.1, hsender.2.1⟩, .inl ?_⟩
  · unfold Listed.Unmarked
    simp only [List.forall_mem_cons]
    exact ⟨hstatus.2.2, hsender.2.2, hname.2.2, htime.2.2, hbody.2.2, nofun⟩
  · exact ⟨hname.1, ⟨htime.1, htime.2.1⟩, hbody.1, nofun⟩

/-- The radio is on, and the modem answers. -/
def radioOn : SendEnv where
  gsmStatus := .idle
  link
    | .smsRf _ => ⟨[], [bytes "\r\n+CFUN: 1\r\n\r\nOK\r\n", []]⟩
    | .smsFormat _ => ⟨[], [bytes "\r\nOK\r\n", []]⟩
    | .smsDelete => ⟨[], [bytes "\r\n", bytes "OK\r\n", []]⟩
    | _ => ⟨[], []⟩
  msgbufAlloc := true

/-- The listing of the message comes in two reads. -/
def oneHeld : InboxEnv where
  send := radioOn
  reply :=
    { reads := [bytes "\r\n+CMGL: 3,\"REC UN", bytes "READ\",\"+38640123456\","
        ++ bytes "\"office\",\"17/06/01,08:15:30+08\"\r\n"
        ++ bytes "hello\r\n\r\nOK\r\n", []]
      grow := fun _ => some 1
      short := by decide }
  block _ := 0
  inUse t := decide (t = 3)
  rest := twoListed

/-- The same message is listed twice. -/
def twiceHeld : InboxEnv where
  send := radioOn
  reply :=
    { reads := [crlfStr, cmglStr ++ oneLiner.header ++ crlfStr,
        oneLiner.body ++ crlfStr, render [oneLiner], []]
      grow := fun _ => some 1
      short := by decide }
  block _ := 0
  inUse t := decide (t = 3)
  rest := twoListed

theorem oneHeld_allocates : oneHeld.Allocates :=
  ⟨rfl, fun _ => Option.some_ne_none _, rfl, rfl⟩

theorem twiceHeld_allocates : twiceHeld.Allocates :=
  ⟨rfl, fun _ => Option.some_ne_none _, rfl, rfl⟩

theorem oneLiners_readable {ms : List Listed} (h : ∀ m ∈ ms, m = oneLiner) :
    ∀ m ∈ ms, m.Unmarked ∧ m.Clear :=
  fun m hm => (h m hm).symm ▸ oneLiner_readable

end ShZ001.Sms
