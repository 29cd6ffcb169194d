/-
The array that `smsRead` hands to its caller (libGSM.c 1010–1097).

# Two strides

The caller indexes the result as an array of `SMS_Msg`; `smsRead` itself
strides by 112 elements at each of its seven accesses. The two agree on
element 0 only: element 1 is never written, and is read past the end of
the block as soon as a second message is stored.

# The condition

`OnlyFirst` is what is left: nothing but the first message is listed
with success, and the sort of that one message finds it, which takes
that its array could be allocated and that no descending sort starts
from a later time.

# The argument

That a zeroed record in the caller's hands breaks the law is because a
parsed message has a body (`Complete`). So if two messages are parsed,
the caller's element 1 gives it away (`second_is_zero`); if the only one
is not the first of the listing, element 0 does (`first_is_zero`).
`readLaw_iff` puts the cases together.
-/
import Mathlib.Order.Monotone.Basic
import ShZ001.Sms.Listing

namespace ShZ001.Sms

open Lib

-- ================================================================ the law

/-- The parsed messages in the order that `sort` asks for. -/
structure InOrder (sort : Int) (parsed l : List SmsMsg) : Prop where
  perm : l.Perm parsed
  listing : sort = 0 → l = parsed
  up : 0 < sort → l.Pairwise (fun a b => a.timeValue ≤ b.timeValue)
  down : sort < 0 → l.Pairwise (fun a b => b.timeValue ≤ a.timeValue)

/-- The caller finds these messages under plain indexing. -/
structure HandedOver (out : ReadOut) (l : List SmsMsg) : Prop where
  nmsg : out.nmsg = l.length
  cells : ∀ k, k < out.nmsg →
    ∃ arr, out.result = some arr ∧ l[k]? = some (arr.cell k)

/-- Every access is inside its array, and the result is the parsed
messages in order. -/
structure ReadLaw (env : ReadEnv) (sort : Int) : Prop where
  messages : (smsRead env sort).messages.InBounds
  smessages : (smsRead env sort).smessages.InBounds
  result : ∃ l, InOrder sort (parsedTo env (listed env)) l ∧
    HandedOver (smsRead env sort) l

/-- Only the first listed message is parsed; where it is sorted, there is
an array to sort into, and a descending sort starts from no later
time. -/
structure OnlyFirst (env : ReadEnv) (sort : Int) : Prop where
  others : ∀ i, 1 ≤ i → i < listed env → parseAt env i = none
  alloc : ∀ msg, 0 < listed env → parseAt env 0 = some msg →
    sort ≠ 0 → env.smessagesAlloc = true
  time : ∀ msg, 0 < listed env → parseAt env 0 = some msg →
    sort < 0 → 0 ≤ msg.timeValue

/-- A mailbox of two messages. -/
def twoListed : ReadEnv where
  ready := true
  rbufferAlloc := true
  res := 120
  rbuffer := bytes
    ("+CMGL: 1,\"REC READ\",\"+386\",\"\",\"17/06/10,12:34:56+08\"\r\na\r\n"
      ++ "+CMGL: 2,\"REC READ\",\"+386\",\"\",\"17/06/11,12:34:56+08\"\r\nb\r\n"
      ++ "\r\nOK\r\n")
  messagesAlloc := true
  smessagesAlloc := true
  locals _ :=
    { hh := 0
      mm := 0
      ss := 0
      yy := 0
      mn := 0
      dd := 0
      tz := 0 }
  msg := .zero
  pastMessages _ := .zero
  pastSmessages _ := .zero

/-- The second of two messages is stored in element 112 of 2. -/
theorem readLaw_fails : ¬ ReadLaw twoListed 0 := by
  intro h
  have houtside : ¬ (smsRead twoListed 0).messages.InBounds := by
    decide +kernel
  exact houtside h.messages

-- ============================================================ what is read

/-- Nothing listed, or an earlier failure. -/
theorem smsRead_nothing {env : ReadEnv} (h : listed env = 0) (sort : Int) :
    smsRead env sort = nothingRead env := by
  unfold listed at h
  unfold smsRead
  split_ifs at h ⊢ <;> simp_all

/-- Otherwise the array is filled and handed over. -/
theorem smsRead_some {env : ReadEnv} (h : 0 < listed env) (sort : Int) :
    smsRead env sort = handOver env sort
      (fill env (.calloc (listed env) .zero env.pastMessages)
        (listed env)) := by
  unfold listed at h ⊢
  split at h
  case isFalse => exact absurd h (Nat.lt_irrefl 0)
  case isTrue hall =>
      rw [if_pos hall]
      obtain ⟨hready, hrbuffer, hres, hmessages⟩ := hall
      have hres' : ¬ env.res ≤ 0 := by omega
      have hn : numSMS env.rbuffer ≠ 0 := by omega
      simp [smsRead, hready, hrbuffer, hres', hn, hmessages]

/-- The filled array of a reply. -/
theorem filled_listed (env : ReadEnv) :
    Filled env (.calloc (listed env) .zero env.pastMessages) (listed env)
      (fill env (.calloc (listed env) .zero env.pastMessages)
        (listed env)) :=
  filled_fill env _ _

-- ====================================================== counting successes

theorem parsedTo_length_mono (env : ReadEnv) :
    Monotone fun n => (parsedTo env n).length :=
  monotone_nat_of_le_succ fun n => by simp [parsedTo_succ]

/-- The first message and another one are two. -/
theorem two_parsed {env : ReadEnv} {n i : Nat} {m m' : SmsMsg}
    (hpos : 1 ≤ i) (hi : i < n) (h₀ : parseAt env 0 = some m)
    (h : parseAt env i = some m') : 2 ≤ (parsedTo env n).length := by
  have hfirst : 1 ≤ (parsedTo env i).length :=
    le_trans (by simp [parsedTo, h₀]) (parsedTo_length_mono env hpos)
  have hnext : (parsedTo env (i + 1)).length
      = (parsedTo env i).length + 1 := by
    simp [parsedTo_succ, h]
  have hall : (parsedTo env (i + 1)).length ≤ (parsedTo env n).length :=
    parsedTo_length_mono env hi
  omega

/-- Where no other message is parsed, the first one is all there is. -/
theorem parsedTo_first {env : ReadEnv} {n : Nat} (hn : 1 ≤ n)
    (h : ∀ i, 1 ≤ i → i < n → parseAt env i = none) :
    parsedTo env n = (parseAt env 0).toList := by
  induction n, hn using Nat.le_induction with
  | base => cases h₀ : parseAt env 0 <;> simp [parsedTo, h₀]
  | succ n hn ih =>
      rw [parsedTo_succ, ih fun i hi hin => h i hi (Nat.lt_succ_of_lt hin),
        h n hn (Nat.lt_succ_self n)]
      simp

-- ============================================ what the caller finds instead

/-- The second element of the result is a zeroed record. -/
theorem second_is_zero {env : ReadEnv} {sort : Int} {v : FillVars}
    {arr : Slots SmsMsg} {n : Nat}
    (hf : Filled env (.calloc n .zero env.pastMessages) n v)
    (hn : 2 ≤ v.nmsg) (h : (handOver env sort v).result = some arr) :
    arr.cell 1 = .zero := by
  have hle : v.nmsg ≤ n := hf.nmsg ▸ parsedTo_length_le env n
  unfold handOver at h
  split at h
  case isTrue hsort =>
      dsimp only at h
      split at h
      case isTrue halloc =>
          have hframe := sortFrame_sorted env sort v.messages v.nmsg
          rw [← Option.some.inj h, hframe.rest 1 one_ne_slot,
            if_pos halloc]
          exact Slots.calloc_cell hn ..
      case isFalse => cases h
  case isFalse hsort =>
      dsimp only at h
      rw [if_pos (by omega)] at h
      have hrest := hf.rest 1 (fun ⟨i, _, _, hs⟩ => one_ne_slot i hs)
      rw [← Option.some.inj h, hrest]
      exact Slots.calloc_cell (by omega) ..

/-- A single message, sorted: it is copied, except that the descending
sort does not find a time below 0. -/
theorem sorted_one (env : ReadEnv) {sort : Int} {messages : Slots SmsMsg}
    (halloc : env.smessagesAlloc = true) (hsort : sort ≠ 0)
    (hupper : (messages.cell 0).timeValue ≤ int32Max) :
    (sorted env sort messages 1).smessages =
        (if sort < 0 → 0 ≤ (messages.cell 0).timeValue then
          (Slots.calloc 1 .zero env.pastSmessages).write 0 (messages.cell 0)
        else .calloc 1 .zero env.pastSmessages) ∧
      ∀ p ∈ (sorted env sort messages 1).messages.touched,
        p = 0 ∨ p ∈ messages.touched := by
  unfold sorted
  rw [if_pos halloc]
  unfold int32Max at hupper
  split
  case isTrue hup =>
      obtain ⟨hcopy, htouched⟩ := sortLoop_one 0x7fffffff
        (fun t tm => decide (t < tm))
        (v :=
          { messages := messages
            smessages := .calloc 1 .zero env.pastSmessages
            mm := List.replicate 1 true }) rfl
      refine ⟨hcopy.trans (if_congr ?_ rfl rfl), htouched⟩
      rw [decide_eq_true_iff]
      simp only [SortVars.timeValue, slot_zero]
      omega
  case isFalse hup =>
      obtain ⟨hcopy, htouched⟩ := sortLoop_one 0
        (fun t tm => decide (t > tm))
        (v :=
          { messages := messages
            smessages := .calloc 1 .zero env.pastSmessages
            mm := List.replicate 1 true }) rfl
      refine ⟨hcopy.trans (if_congr ?_ rfl rfl), htouched⟩
      rw [decide_eq_true_iff]
      simp only [SortVars.timeValue, slot_zero]
      omega

@[simp] theorem handOver_nmsg (env : ReadEnv) (sort : Int)
    (v : FillVars) : (handOver env sort v).nmsg = v.nmsg := by
  unfold handOver
  split <;> rfl

/-- Unsorted, it is handed over as it is; -/
theorem handOver_unsorted (env : ReadEnv) {v : FillVars}
    (h : 0 < v.nmsg) :
    handOver env 0 v =
      { nmsg := v.nmsg
        result := some v.messages
        messages := v.messages
        smessages := .calloc 0 .zero env.pastSmessages } := by
  simp [handOver, h]

/-- sorted, the second array is. -/
theorem handOver_sorted (env : ReadEnv) {sort : Int} {v : FillVars}
    (h : 0 < v.nmsg) (hsort : sort ≠ 0) :
    handOver env sort v =
      { nmsg := v.nmsg
        result :=
          if env.smessagesAlloc then
            some (sorted env sort v.messages v.nmsg).smessages
          else none
        messages := (sorted env sort v.messages v.nmsg).messages
        smessages := (sorted env sort v.messages v.nmsg).smessages } := by
  simp [handOver, h, hsort]

/-- If the only parsed message is not the first of the listing, the
caller finds a zeroed record in its place. -/
theorem first_is_zero {env : ReadEnv} {sort : Int} {v : FillVars}
    {arr : Slots SmsMsg} {n : Nat}
    (hf : Filled env (.calloc n .zero env.pastMessages) n v)
    (hn : v.nmsg = 1) (hfirst : parseAt env 0 = none)
    (h : (handOver env sort v).result = some arr) :
    arr.cell 0 = .zero := by
  have hle : v.nmsg ≤ n := hf.nmsg ▸ parsedTo_length_le env n
  have hempty : v.messages.cell 0 = .zero := by
    rw [hf.rest 0 (fun ⟨i, _, hsome, hs⟩ => ?_)]
    · exact Slots.calloc_cell (by omega) ..
    · have hi : 0 = i := slot_inj hs
      rw [← hi, hfirst] at hsome
      cases hsome
  by_cases hsort : sort = 0
  · subst hsort
    rw [handOver_unsorted env (by omega)] at h
    exact Option.some.inj h ▸ hempty
  · rw [handOver_sorted env (by omega) hsort, hn] at h
    dsimp only at h
    split at h
    case isTrue halloc =>
        have hupper : (v.messages.cell 0).timeValue ≤ int32Max := by
          rw [hempty]
          decide
        rw [← Option.some.inj h, (sorted_one env halloc hsort hupper).1]
        split_ifs
        · rw [Slots.write_cell_self, hempty]
        · rfl
    case isFalse => cases h

-- ======================================================= what the law says

/-- Under the law the caller finds no zeroed record. -/
theorem ReadLaw.result_ne_zero {env : ReadEnv} {sort : Int}
    (h : ReadLaw env sort) {k : Nat} (hk : k < (smsRead env sort).nmsg) :
    ∃ arr, (smsRead env sort).result = some arr ∧ arr.cell k ≠ .zero := by
  obtain ⟨l, horder, hover⟩ := h.result
  obtain ⟨arr, harr, hcell⟩ := hover.cells k hk
  refine ⟨arr, harr, ?_⟩
  have hmem : arr.cell k ∈ parsedTo env (listed env) :=
    horder.perm.mem_iff.mp (List.mem_of_getElem? hcell)
  exact (parsedTo_complete hmem).ne_zero

/-- Under the law nothing but the first message is parsed. -/
theorem ReadLaw.others {env : ReadEnv} {sort : Int} (h : ReadLaw env sort)
    {i : Nat} (hpos : 1 ≤ i) (hi : i < listed env) :
    parseAt env i = none := by
  have hf := filled_listed env
  have hread := smsRead_some (by omega : 0 < listed env) sort
  rw [Option.eq_none_iff_forall_ne_some]
  intro msg hmsg
  have hone : 1 ≤ (parsedTo env (listed env)).length :=
    List.length_pos_of_mem
      (List.mem_filterMap.mpr ⟨i, List.mem_range.mpr hi, hmsg⟩)
  rcases Nat.lt_or_ge 1 (parsedTo env (listed env)).length with htwo | hle
  · obtain ⟨arr, harr, hne⟩ := h.result_ne_zero (k := 1)
      (by rw [hread, handOver_nmsg, hf.nmsg]; exact htwo)
    rw [hread] at harr
    exact hne (second_is_zero hf (by rw [hf.nmsg]; exact htwo) harr)
  · have hfirst : parseAt env 0 = none := by
      rw [Option.eq_none_iff_forall_ne_some]
      intro msg₀ hmsg₀
      have htwo := two_parsed hpos hi hmsg₀ hmsg
      omega
    have hnmsg : (fill env (.calloc (listed env) .zero env.pastMessages)
        (listed env)).nmsg = 1 := by
      rw [hf.nmsg]
      omega
    obtain ⟨arr, harr, hne⟩ := h.result_ne_zero (k := 0)
      (by rw [hread, handOver_nmsg, hnmsg]; exact Nat.one_pos)
    rw [hread] at harr
    exact hne (first_is_zero hf hnmsg hfirst harr)

/-- The filled array when only the first message is parsed. -/
structure Single (env : ReadEnv) (msg : SmsMsg) (v : FillVars) : Prop where
  nmsg : v.nmsg = 1
  cell : v.messages.cell 0 = msg
  complete : Complete msg
  inBounds : v.messages.InBounds
  size : v.messages.size = listed env

/-- And it is so after the fill loop. -/
theorem single_listed {env : ReadEnv} {msg : SmsMsg}
    (hpos : 0 < listed env)
    (hothers : ∀ i, 1 ≤ i → i < listed env → parseAt env i = none)
    (hfirst : parseAt env 0 = some msg) :
    Single env msg
      (fill env (.calloc (listed env) .zero env.pastMessages)
        (listed env)) := by
  obtain ⟨hnmsg, hsize, hheld, -, htouched⟩ := filled_listed env
  have hall := parsedTo_first hpos hothers
  refine ⟨by simp [hnmsg, hall, hfirst], hheld 0 msg hpos hfirst,
    parseAt_complete hfirst, fun p hp => ?_, hsize⟩
  rcases htouched p hp with hnone | ⟨i, hi, hsome, rfl⟩
  · simp [Slots.calloc] at hnone
  · have hi₀ : i = 0 := by
      by_contra hne
      rw [hothers i (by omega) hi] at hsome
      cases hsome
    rw [hsize, hi₀]
    exact hpos

/-- One message handed over in any order. -/
theorem inOrder_single (sort : Int) (msg : SmsMsg) :
    InOrder sort [msg] [msg] :=
  ⟨.refl _, fun _ => rfl, fun _ => List.pairwise_singleton _ _,
    fun _ => List.pairwise_singleton _ _⟩

theorem handedOver_single {out : ReadOut} {arr : Slots SmsMsg}
    {msg : SmsMsg} (hnmsg : out.nmsg = 1) (hresult : out.result = some arr)
    (hcell : arr.cell 0 = msg) : HandedOver out [msg] := by
  refine ⟨hnmsg, fun k hk => ⟨arr, hresult, ?_⟩⟩
  obtain rfl : k = 0 := by omega
  simp [hcell]

section FirstOnly

variable {env : ReadEnv} {sort : Int} {msg : SmsMsg}
  (hpos : 0 < listed env)
  (hothers : ∀ i, 1 ≤ i → i < listed env → parseAt env i = none)
  (hfirst : parseAt env 0 = some msg)
include hpos hothers hfirst

theorem parsed_first : parsedTo env (listed env) = [msg] := by
  rw [parsedTo_first hpos hothers, hfirst]
  rfl

/-- Unsorted, the one message is in its place. -/
theorem readLaw_unsorted : ReadLaw env 0 := by
  obtain ⟨hnmsg, hcell, -, hin, -⟩ := single_listed hpos hothers hfirst
  have hread := smsRead_some hpos 0
  rw [handOver_unsorted env (by omega)] at hread
  refine ⟨by rw [hread]; exact hin, by simp [hread], [msg], ?_, ?_⟩
  · rw [parsed_first hpos hothers hfirst]
    exact inOrder_single 0 msg
  · rw [hread]
    exact handedOver_single hnmsg rfl hcell

/-- Sorted, it has to be found and copied: a caller that finds more than a
zeroed record got it from an array that was there, and no descending sort
has passed it over. -/
theorem room_of_result (hsort : sort ≠ 0)
    (h : ∃ arr, (smsRead env sort).result = some arr ∧ arr.cell 0 ≠ .zero) :
    env.smessagesAlloc = true ∧ (sort < 0 → 0 ≤ msg.timeValue) := by
  obtain ⟨hnmsg, hcell, hcomp, -, -⟩ := single_listed hpos hothers hfirst
  have hread := smsRead_some hpos sort
  rw [handOver_sorted env (by omega) hsort, hnmsg] at hread
  obtain ⟨arr, harr, hne⟩ := h
  rw [hread] at harr
  dsimp only at harr
  split at harr
  case isFalse => cases harr
  case isTrue halloc =>
      refine ⟨halloc, fun hdown => ?_⟩
      by_contra hneg
      have hcopy := (sorted_one env halloc hsort
        (by rw [hcell]; exact hcomp.upper)).1
      rw [hcell, if_neg (by tauto)] at hcopy
      rw [← Option.some.inj harr, hcopy] at hne
      exact hne (Slots.calloc_cell Nat.one_pos ..)

theorem ReadLaw.room (h : ReadLaw env sort) (hsort : sort ≠ 0) :
    env.smessagesAlloc = true ∧ (sort < 0 → 0 ≤ msg.timeValue) := by
  refine room_of_result hpos hothers hfirst hsort (h.result_ne_zero ?_)
  rw [smsRead_some hpos, handOver_nmsg,
    (single_listed hpos hothers hfirst).nmsg]
  exact Nat.one_pos

theorem readLaw_sorted (hsort : sort ≠ 0)
    (halloc : env.smessagesAlloc = true)
    (htime : sort < 0 → 0 ≤ msg.timeValue) : ReadLaw env sort := by
  obtain ⟨hnmsg, hcell, hcomp, hin, hsize⟩ :=
    single_listed hpos hothers hfirst
  have hread := smsRead_some hpos sort
  rw [handOver_sorted env (by omega) hsort, hnmsg, if_pos halloc] at hread
  generalize fill env _ _ = v at hread hnmsg hcell hin hsize
  obtain ⟨hcopy, htouched⟩ := sorted_one env halloc hsort
    (by rw [hcell]; exact hcomp.upper)
  rw [hcell, if_pos htime] at hcopy
  rw [hcopy] at hread
  refine ⟨?_, by simp [hread], [msg], ?_, ?_⟩
  · have hframe := (sortFrame_sorted env sort v.messages 1).messages
    rw [hread]
    intro p hp
    rw [hframe]
    rcases htouched p hp with rfl | hp
    · rw [hsize]
      exact hpos
    · exact hin p hp
  · rw [parsed_first hpos hothers hfirst]
    exact inOrder_single sort msg
  · rw [hread]
    exact handedOver_single rfl rfl (Slots.write_cell_self ..)

end FirstOnly

/-- Nothing parsed, nothing touched. -/
theorem readLaw_none {env : ReadEnv} (sort : Int)
    (h : parsedTo env (listed env) = []) : ReadLaw env sort := by
  have hread : (smsRead env sort).nmsg = 0 ∧
      (smsRead env sort).messages.InBounds ∧
      (smsRead env sort).smessages.InBounds := by
    rcases Nat.eq_zero_or_pos (listed env) with hzero | hpos
    · simp [smsRead_nothing hzero, nothingRead]
    · obtain ⟨hnmsg, -, -, -, htouched⟩ := filled_listed env
      rw [h] at hnmsg
      simp only [smsRead_some hpos, handOver, hnmsg, List.length_nil,
        lt_irrefl, false_and, if_false, Slots.inBounds_calloc, and_true,
        true_and]
      intro p hp
      rcases htouched p hp with hnone | ⟨i, hi, hsome, -⟩
      · cases hnone
      · obtain ⟨msg, hmsg⟩ := Option.isSome_iff_exists.mp hsome
        have hmem : msg ∈ parsedTo env (listed env) :=
          List.mem_filterMap.mpr ⟨i, List.mem_range.mpr hi, hmsg⟩
        rw [h] at hmem
        cases hmem
  obtain ⟨hnmsg, hmessages, hsmessages⟩ := hread
  refine ⟨hmessages, hsmessages, [], ?_, hnmsg, fun k hk => ?_⟩
  · rw [h]
    exact ⟨.refl _, fun _ => rfl, fun _ => .nil, fun _ => .nil⟩
  · omega

/-- One half of the law, -/
theorem ReadLaw.onlyFirst {env : ReadEnv} {sort : Int}
    (h : ReadLaw env sort) : OnlyFirst env sort := by
  have hothers : ∀ i, 1 ≤ i → i < listed env → parseAt env i = none :=
    fun i => h.others
  refine ⟨hothers, fun msg hpos hfirst hsort => ?_,
    fun msg hpos hfirst hdown => ?_⟩
  · exact (h.room hpos hothers hfirst hsort).1
  · exact (h.room hpos hothers hfirst (by omega)).2 hdown

/-- and the other. -/
theorem OnlyFirst.readLaw {env : ReadEnv} {sort : Int}
    (h : OnlyFirst env sort) : ReadLaw env sort := by
  obtain ⟨hothers, halloc, htime⟩ := h
  by_cases hpos : 0 < listed env
  · cases hfirst : parseAt env 0 with
    | some msg =>
        by_cases hsort : sort = 0
        · subst hsort
          exact readLaw_unsorted hpos hothers hfirst
        · exact readLaw_sorted hpos hothers hfirst hsort
            (halloc msg hpos hfirst hsort) (htime msg hpos hfirst)
    | none =>
        refine readLaw_none sort ?_
        rw [parsedTo_first hpos hothers, hfirst]
        rfl
  · refine readLaw_none sort ?_
    rw [Nat.eq_zero_of_not_pos hpos]
    rfl

/-- `smsRead` keeps to its arrays and hands over the parsed messages in
order exactly when nothing but the first message is parsed, and its sort
has room for it and starts from no later time.

That a listing has more messages does no harm as long as none of them can
be parsed: the code then stores nothing beyond element 0. -/
theorem readLaw_iff (env : ReadEnv) (sort : Int) :
    ReadLaw env sort ↔ OnlyFirst env sort :=
  ⟨ReadLaw.onlyFirst, OnlyFirst.readLaw⟩

end ShZ001.Sms
