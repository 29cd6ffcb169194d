/-
What the two sorts of `smsRead` make of a list of messages (libGSM.c
1042–1090).

Both place by place look for the best time among the messages not placed
yet, and then for the first of these with that time. The search starts
from a constant, and finds something only if no time left is worse than
it.

# The two constants

For `sort > 0` the constant is `0x7FFFFFFF`. No 32-bit time is worse, and
the ascending sort is right for every list. For `sort < 0` it is 0: a
message from before 1970, or one whose time `mktime` could not represent,
is never placed, and the record `calloc` has zeroed stays in its slot.
`sortLaw_iff` says both, and that nothing else goes wrong.

# The argument

`scan_spec` says what the search ends with, `copyLoop_spec` what is
copied then. `Placed` carries both through the outer loop: the messages
of the places done are in the new array in the order of a selection sort
(`Lib.Picked`), and the others are open. Either order is `<` on a key, the
time or its negation (`Compares`), so one proof serves both loops.

# Elements and slots

Where the elements lie is another matter (`Stride.lean`). Here the slots
are taken as the code computes them, holding what they should hold.
-/
import Mathlib.Data.Int.Order.Basic
import ShZ001.Lib.Selection
import ShZ001.Sms.Proofs.Stride

namespace ShZ001.Sms

open Lib

-- ================================================================== the law

/-- The first `n` slots of a block. -/
def listing (n : Nat) (s : Slots SmsMsg) : List SmsMsg :=
  (List.range n).map fun i => s.cell (slot i)

/-- A list of parsed messages, with times of 32 bits, in the slots of
`messages`; those of `smessages` are zeroed. -/
structure Arranged (env : ReadEnv) (l : List SmsMsg)
    (messages : Slots SmsMsg) : Prop where
  held : ∀ i (hi : i < l.length), messages.cell (slot i) = l[i]
  zeroed : ∀ i, i < l.length → env.pastSmessages (slot i) = .zero
  bits : ∀ msg ∈ l, int32Min ≤ msg.timeValue ∧ msg.timeValue ≤ int32Max

/-- What a sort of the list leaves in the slots of the new array. -/
def sortedListing (env : ReadEnv) (sort : Int) (l : List SmsMsg)
    (messages : Slots SmsMsg) : List SmsMsg :=
  listing l.length (sorted env sort messages l.length).smessages

/-- Either sort rearranges the list, by time upwards or downwards. -/
structure SortLaw (env : ReadEnv) (l : List SmsMsg)
    (messages : Slots SmsMsg) : Prop where
  up : ∀ sort, 0 < sort →
    (sortedListing env sort l messages).Perm l ∧
      (sortedListing env sort l messages).Pairwise
        fun a b => a.timeValue ≤ b.timeValue
  down : ∀ sort, sort < 0 →
    (sortedListing env sort l messages).Perm l ∧
      (sortedListing env sort l messages).Pairwise
        fun a b => b.timeValue ≤ a.timeValue

/-- A list in its slots, nothing else in memory. -/
def inSlots (l : List SmsMsg) : Slots SmsMsg :=
  .array l.length fun p => l.getD (p / sizeofSmsMsg) .zero

theorem arranged_inSlots {l : List SmsMsg}
    (hbits : ∀ msg ∈ l,
      int32Min ≤ msg.timeValue ∧ msg.timeValue ≤ int32Max) :
    Arranged twoListed l (inSlots l) := by
  refine ⟨fun i hi => ?_, fun _ _ => rfl, hbits⟩
  show l.getD (slot i / sizeofSmsMsg) .zero = l[i]
  rw [slot, Nat.mul_div_cancel i (by decide : 0 < sizeofSmsMsg),
    List.getD_eq_getElem?_getD, List.getElem?_eq_getElem hi,
    Option.getD_some]

/-- A message with this time. -/
def timed (text : String) (timeValue : Int) : SmsMsg :=
  { SmsMsg.zero with
    msg := some (bytes "a")
    time := bytes text
    timeValue := timeValue }

/-- A message of 2038 has the time -1. In its place the descending sort
leaves a zeroed record. -/
theorem sortLaw_fails :
    Arranged twoListed [timed "38/06/10,12:34:56+08" (-1)]
        (inSlots [timed "38/06/10,12:34:56+08" (-1)]) ∧
      ¬ SortLaw twoListed [timed "38/06/10,12:34:56+08" (-1)]
        (inSlots [timed "38/06/10,12:34:56+08" (-1)]) := by
  refine ⟨arranged_inSlots (by decide), fun hlaw => ?_⟩
  have hout : sortedListing twoListed (-1)
      [timed "38/06/10,12:34:56+08" (-1)]
      (inSlots [timed "38/06/10,12:34:56+08" (-1)]) = [.zero] := by
    decide +kernel
  obtain ⟨hperm, -⟩ := hlaw.down (-1) (by decide)
  rw [hout] at hperm
  exact absurd (List.perm_singleton.mp hperm) (by decide)

-- =============================================================== the search

/-- What is compared: `key` turns either comparison into `<`. -/
def Compares (better : Int → Int → Bool) (key : Int → Int) : Prop :=
  ∀ a b, better a b = true ↔ key a < key b

/-- Only the record of accesses differs. -/
structure SameVars (v w : SortVars) : Prop where
  messages : w.messages.cell = v.messages.cell
  smessages : w.smessages = v.smessages
  mm : w.mm = v.mm

theorem SameVars.refl (v : SortVars) : SameVars v v := ⟨rfl, rfl, rfl⟩

theorem SameVars.trans {u v w : SortVars} (h : SameVars u v)
    (h' : SameVars v w) : SameVars u w :=
  ⟨h'.messages.trans h.messages, h'.smessages.trans h.smessages,
    h'.mm.trans h.mm⟩

section

variable {v w : SortVars} (h : SameVars v w)

include h

theorem SameVars.open' (i : Nat) : w.open' i = v.open' i := by
  unfold SortVars.open'
  rw [h.mm]

theorem SameVars.timeValue (i : Nat) : w.timeValue i = v.timeValue i := by
  unfold SortVars.timeValue
  rw [h.messages]

end

/-- The time the search ends with: the best of the start value and of the
times of the open messages. -/
structure BestTime (key : Int → Int) (v : SortVars) (is : List Nat)
    (tm₀ tm : Int) : Prop where
  start : key tm ≤ key tm₀
  best : ∀ i ∈ is, v.open' i = true → key tm ≤ key (v.timeValue i)
  from' : tm = tm₀ ∨ ∃ i ∈ is, v.open' i = true ∧ v.timeValue i = tm

/-- The scan ends with the best of the open times and the start value, and
changes nothing else. -/
theorem scan_spec {better : Int → Int → Bool} {key : Int → Int}
    (hb : Compares better key) (is : List Nat) (v : SortVars) (tm₀ : Int) :
    SameVars v (is.foldl (scanStep better) (v, tm₀)).1 ∧
      BestTime key v is tm₀ (is.foldl (scanStep better) (v, tm₀)).2 := by
  induction is generalizing v tm₀ with
  | nil => exact ⟨.refl v, le_refl _, nofun, .inl rfl⟩
  | cons i is ih =>
      rw [List.foldl_cons]
      have hstep : SameVars v (scanStep better (v, tm₀) i).1 ∧
          BestTime key v [i] tm₀ (scanStep better (v, tm₀) i).2 := by
        unfold scanStep
        dsimp only
        split_ifs with hopen hbetter
        · refine ⟨⟨rfl, rfl, rfl⟩, ((hb _ _).mp hbetter).le, ?_,
            .inr ⟨i, List.mem_singleton_self i, hopen, rfl⟩⟩
          intro j hj _
          rw [List.mem_singleton.mp hj]
        · refine ⟨⟨rfl, rfl, rfl⟩, le_refl _, ?_, .inl rfl⟩
          intro j hj _
          rw [List.mem_singleton.mp hj]
          exact not_lt.mp fun hlt => hbetter ((hb _ _).mpr hlt)
        · refine ⟨.refl v, le_refl _, ?_, .inl rfl⟩
          intro j hj hj'
          rw [List.mem_singleton.mp hj] at hj'
          exact absurd hj' hopen
      generalize scanStep better (v, tm₀) i = p at hstep ⊢
      obtain ⟨w, tm₁⟩ := p
      obtain ⟨hsame, hfirst⟩ := hstep
      obtain ⟨hsame', hrest⟩ := ih w tm₁
      refine ⟨hsame.trans hsame', hrest.start.trans hfirst.start, ?_, ?_⟩
      · intro j hj hopen
        rcases List.mem_cons.mp hj with rfl | hj
        · exact hrest.start.trans
            (hfirst.best j (List.mem_singleton_self j) hopen)
        · have := hrest.best j hj (by rwa [hsame.open'])
          rwa [hsame.timeValue] at this
      · rcases hrest.from' with heq | ⟨j, hj, hopen, htime⟩
        · rw [heq]
          rcases hfirst.from' with heq | ⟨j, hj, hopen, htime⟩
          · exact .inl heq
          · rw [List.mem_singleton.mp hj] at hopen htime
            exact .inr ⟨i, List.mem_cons_self, hopen, htime⟩
        · rw [hsame.open'] at hopen
          rw [hsame.timeValue] at htime
          exact .inr ⟨j, List.mem_cons_of_mem i hj, hopen, htime⟩

-- ================================================================= the copy

/-- Message `i` has been copied to place `idx`. -/
structure Copied (idx i : Nat) (v w : SortVars) : Prop where
  messages : w.messages.cell = v.messages.cell
  smessages : w.smessages
    = v.smessages.write (slot idx) (v.messages.cell (slot i))
  mm : w.mm = v.mm.set i false

/-- The first open message with that time is copied, if there is one. -/
theorem copyLoop_spec (idx : Nat) (tm : Int) (is : List Nat)
    (v : SortVars) :
    (∃ i ∈ is, v.open' i = true ∧ v.timeValue i = tm ∧
      Copied idx i v (copyLoop idx tm is v)) ∨
    ((∀ i ∈ is, v.open' i = true → v.timeValue i ≠ tm) ∧
      SameVars v (copyLoop idx tm is v)) := by
  induction is generalizing v with
  | nil => exact .inr ⟨nofun, .refl v⟩
  | cons i is ih =>
      -- what the rest of the loop does, after a turn that copies nothing
      have hrest : ∀ w, SameVars v w →
          (v.open' i = true → v.timeValue i ≠ tm) →
          (∃ j ∈ i :: is, v.open' j = true ∧ v.timeValue j = tm ∧
            Copied idx j v (copyLoop idx tm is w)) ∨
          ((∀ j ∈ i :: is, v.open' j = true → v.timeValue j ≠ tm) ∧
            SameVars v (copyLoop idx tm is w)) := by
        intro w hw hi
        rcases ih w with ⟨j, hj, hopen, htime, hm, hs, hmm⟩ | ⟨hno, hsame⟩
        · rw [hw.open'] at hopen
          rw [hw.timeValue] at htime
          refine .inl ⟨j, List.mem_cons_of_mem i hj, hopen, htime,
            hm.trans hw.messages, ?_, ?_⟩
          · rw [hs, hw.smessages, hw.messages]
          · rw [hmm, hw.mm]
        · refine .inr ⟨?_, hw.trans hsame⟩
          intro j hj
          rcases List.mem_cons.mp hj with rfl | hj
          · exact hi
          · have := hno j hj
            rwa [hw.open', hw.timeValue] at this
      unfold copyLoop
      split_ifs with hopen htime
      · exact .inl ⟨i, List.mem_cons_self, hopen, htime, rfl, rfl, rfl⟩
      · exact hrest _ ⟨rfl, rfl, rfl⟩ fun _ => htime
      · exact hrest v (.refl v) fun h => absurd h hopen

-- ============================================================ place by place

/-- One place more. -/
theorem listing_succ (n : Nat) (s : Slots SmsMsg) :
    listing (n + 1) s = listing n s ++ [s.cell (slot n)] := by
  simp [listing, List.range_succ]

/-- Writing the next slot. -/
theorem listing_write (n : Nat) (msg : SmsMsg) (s : Slots SmsMsg) :
    listing (n + 1) (s.write (slot n) msg) = listing n s ++ [msg] := by
  rw [listing_succ, Slots.write_cell_self]
  congr 1
  refine List.map_congr_left fun i hi => Slots.write_cell_ne ?_ _ s
  intro heq
  exact absurd (slot_inj heq) (Nat.ne_of_lt (List.mem_range.mp hi))

theorem open_set {mm : List Bool} {i j : Nat} :
    (mm.set i false).getD j false = true ↔
      mm.getD j false = true ∧ j ≠ i := by
  simp only [List.getD_eq_getElem?_getD, List.getElem?_set]
  by_cases hij : i = j
  · subst hij
    by_cases hi : i < mm.length <;> simp [hi]
  · simp [hij, Ne.symm hij]

/-- After the places of `is`: these messages are in the new array and no
longer open. -/
structure Placed (key : Int → Int) (n : Nat) (v₀ : SortVars)
    (is : List Nat) (v : SortVars) : Prop where
  picked : Picked n
    (fun i j => key (v₀.timeValue i) ≤ key (v₀.timeValue j)) is
  messages : v.messages.cell = v₀.messages.cell
  placed : listing is.length v.smessages
    = is.map fun i => v₀.messages.cell (slot i)
  opens : ∀ i, v.open' i = true ↔ i < n ∧ i ∉ is

section

variable {better : Int → Int → Bool} {key : Int → Int}
  (hb : Compares better key) {n : Nat} {v₀ : SortVars} {tm₀ : Int}

include hb

/-- A turn of the outer loop: the best time is searched for, then a
message with that time is copied. -/
theorem sortStep_spec (tm₀ : Int) (n : Nat) (v : SortVars) (idx : Nat) :
    ∃ w tm, SameVars v w ∧ BestTime key v (List.range n) tm₀ tm ∧
      sortStep tm₀ better n v idx = copyLoop idx tm (List.range n) w := by
  obtain ⟨hsame, htm⟩ := scan_spec hb (List.range n) v tm₀
  exact ⟨_, _, hsame, htm, rfl⟩

/-- One more place, if no message is worse than the start value. -/
theorem placed_step (hkey : Function.Injective key)
    (hstart : ∀ i, i < n → key (v₀.timeValue i) ≤ key tm₀)
    {is : List Nat} {v : SortVars} (h : Placed key n v₀ is v)
    (hlt : is.length < n) :
    ∃ i, Placed key n v₀ (is ++ [i])
      (sortStep tm₀ better n v is.length) := by
  have htime : ∀ i, v.timeValue i = v₀.timeValue i := by
    intro i
    unfold SortVars.timeValue
    rw [h.messages]
  obtain ⟨w, tm, hsame, htm, hstep⟩ :=
    sortStep_spec hb tm₀ n v is.length
  rw [hstep]
  -- the time that was found is that of an open message
  have hfound : ∃ i ∈ List.range n, w.open' i = true ∧
      w.timeValue i = tm := by
    rcases htm.from' with rfl | ⟨i, hi, hopen, hi'⟩
    · obtain ⟨i, hi, hleft⟩ := exists_left hlt
      have hopen := (h.opens i).mpr ⟨hi, hleft⟩
      have hi' := List.mem_range.mpr hi
      refine ⟨i, hi', by rwa [hsame.open'], ?_⟩
      rw [hsame.timeValue, htime]
      refine hkey (le_antisymm (hstart i hi) ?_)
      rw [← htime]
      exact htm.best i hi' hopen
    · exact ⟨i, hi, by rwa [hsame.open'], by rwa [hsame.timeValue]⟩
  rcases copyLoop_spec is.length tm (List.range n) w with
    ⟨i, hi, hopen, htm', hcopy⟩ | ⟨hno, -⟩
  case inr =>
      obtain ⟨i, hi, hopen, hi'⟩ := hfound
      exact absurd hi' (hno i hi hopen)
  rw [hsame.open', h.opens] at hopen
  rw [hsame.timeValue, htime] at htm'
  refine ⟨i, ?_, ?_, ?_, ?_⟩
  · refine h.picked.concat hopen.1 hopen.2 fun j hj hleft => ?_
    rw [htm', ← htime]
    exact htm.best j (List.mem_range.mpr hj) ((h.opens j).mpr ⟨hj, hleft⟩)
  · rw [hcopy.messages, hsame.messages, h.messages]
  · rw [hcopy.smessages, List.length_append, List.length_singleton,
      listing_write, hsame.smessages, h.placed, hsame.messages, h.messages,
      List.map_append]
    rfl
  · intro j
    unfold SortVars.open'
    rw [hcopy.mm, open_set, hsame.mm]
    have hj := h.opens j
    unfold SortVars.open' at hj
    rw [hj, List.mem_append, List.mem_singleton]
    tauto

/-- The sort places all messages. -/
theorem placed_sortLoop (hkey : Function.Injective key)
    (hstart : ∀ i, i < n → key (v₀.timeValue i) ≤ key tm₀)
    (hopen : ∀ i, v₀.open' i = true ↔ i < n) :
    ∃ is : List Nat, is.length = n ∧
      Placed key n v₀ is (sortLoop tm₀ better n v₀) := by
  have hrun : ∀ k, k ≤ n → ∃ is : List Nat, is.length = k ∧
      Placed key n v₀ is
        ((List.range k).foldl (sortStep tm₀ better n) v₀) := by
    intro k
    induction k with
    | zero =>
        intro _
        refine ⟨[], rfl, picked_nil _ _, rfl, rfl, fun i => ?_⟩
        simpa using hopen i
    | succ k ih =>
        intro hk
        obtain ⟨is, rfl, h⟩ := ih (by omega)
        obtain ⟨i, hi⟩ := placed_step hb hkey hstart h hk
        refine ⟨is ++ [i], by simp, ?_⟩
        rw [List.range_succ, List.foldl_append]
        exact hi
  exact hrun n (le_refl n)

/-- A message that is copied is no worse than the start value. -/
theorem sortStep_slots (v : SortVars) (idx j : Nat) :
    (sortStep tm₀ better n v idx).smessages.cell (slot j)
        = v.smessages.cell (slot j) ∨
      key ((sortStep tm₀ better n v idx).smessages.cell
        (slot j)).timeValue ≤ key tm₀ := by
  obtain ⟨w, tm, hsame, htm, hstep⟩ :=
    sortStep_spec hb tm₀ n v idx
  rw [hstep]
  rcases copyLoop_spec idx tm (List.range n) w with
    ⟨i, hi, hopen, htime, hcopy⟩ | ⟨-, hsame'⟩
  · rw [hcopy.smessages]
    rcases eq_or_ne j idx with rfl | hne
    · rw [Slots.write_cell_self]
      refine .inr ?_
      rw [show (w.messages.cell (slot i)).timeValue = tm from htime]
      exact htm.start
    · rw [Slots.write_cell_ne fun heq => hne (slot_inj heq),
        hsame.smessages]
      exact .inl rfl
  · exact .inl (by rw [hsame'.smessages, hsame.smessages])

theorem sortLoop_slots (v : SortVars) (j : Nat) :
    (sortLoop tm₀ better n v).smessages.cell (slot j)
        = v.smessages.cell (slot j) ∨
      key ((sortLoop tm₀ better n v).smessages.cell
        (slot j)).timeValue ≤ key tm₀ := by
  unfold sortLoop
  generalize List.range n = places
  induction places generalizing v with
  | nil => exact .inl rfl
  | cons idx places ih =>
      rw [List.foldl_cons]
      rcases ih (sortStep tm₀ better n v idx) with heq | hle
      · rw [heq]
        exact sortStep_slots hb v idx j
      · exact .inr hle

end

-- ================================================================= the lists

theorem compares_up : Compares (fun t tm => decide (t < tm)) id :=
  fun _ _ => decide_eq_true_iff

theorem compares_down : Compares (fun t tm => decide (t > tm)) Neg.neg :=
  fun _ _ => decide_eq_true_iff.trans Int.neg_lt_neg_iff.symm

/-- The variables of the sort before its first turn. -/
def sortStart (env : ReadEnv) (messages : Slots SmsMsg) (nmsg : Nat) :
    SortVars where
  messages := messages
  smessages := .calloc (if env.smessagesAlloc then nmsg else 0) .zero
    env.pastSmessages
  mm := List.replicate nmsg true

/-- A sort that starts from no better a value than any time of the list
puts the list in order, wherever the new array is. -/
theorem sort_of_held (env : ReadEnv) {l : List SmsMsg}
    {messages : Slots SmsMsg}
    (held : ∀ i (hi : i < l.length), messages.cell (slot i) = l[i])
    {better : Int → Int → Bool} {key : Int → Int}
    (hb : Compares better key) (hkey : Function.Injective key) {tm₀ : Int}
    (hstart : ∀ msg ∈ l, key msg.timeValue ≤ key tm₀) :
    (listing l.length (sortLoop tm₀ better l.length
      (sortStart env messages l.length)).smessages).Perm l ∧
    (listing l.length (sortLoop tm₀ better l.length
      (sortStart env messages l.length)).smessages).Pairwise
        fun a b => key a.timeValue ≤ key b.timeValue := by
  have htime : ∀ i (hi : i < l.length),
      (sortStart env messages l.length).timeValue i = l[i].timeValue :=
    fun i hi => congrArg SmsMsg.timeValue (held i hi)
  have hopen : ∀ i, (sortStart env messages l.length).open' i = true ↔
      i < l.length := by
    intro i
    unfold SortVars.open' sortStart
    dsimp only
    rw [List.getD_eq_getElem?_getD, List.getElem?_replicate]
    split <;> simp_all
  obtain ⟨is, hlen, hplaced⟩ := placed_sortLoop hb hkey
    (fun i hi => by
      rw [htime i hi]
      exact hstart _ (List.getElem_mem hi)) hopen
  have hout := hplaced.placed
  rw [hlen] at hout
  rw [hout]
  exact ⟨hplaced.picked.perm_map held hlen,
    List.pairwise_map.mpr hplaced.picked.ordered⟩

section

variable {env : ReadEnv} {l : List SmsMsg} {messages : Slots SmsMsg}
  (h : Arranged env l messages)

include h

/-- The slots of the new array are zeroed. -/
theorem Arranged.zero {i : Nat} (hi : i < l.length) :
    (sortStart env messages l.length).smessages.cell (slot i) = .zero := by
  by_cases hlt : slot i < if env.smessagesAlloc then l.length else 0
  · exact Slots.calloc_cell hlt _ _
  · exact (if_neg hlt).trans (h.zeroed i hi)

/-- A sort that starts from no better a value than any time of the list
puts the list in order. -/
theorem Arranged.sort {better : Int → Int → Bool} {key : Int → Int}
    (hb : Compares better key) (hkey : Function.Injective key) {tm₀ : Int}
    (hstart : ∀ msg ∈ l, key msg.timeValue ≤ key tm₀) :
    (listing l.length (sortLoop tm₀ better l.length
      (sortStart env messages l.length)).smessages).Perm l ∧
    (listing l.length (sortLoop tm₀ better l.length
      (sortStart env messages l.length)).smessages).Pairwise
        fun a b => key a.timeValue ≤ key b.timeValue :=
  sort_of_held env h.held hb hkey hstart

-- ================================================================== the law

/-- The ascending sort is right for every list. -/
theorem Arranged.sortUp :
    (listing l.length (sortUp l.length
      (sortStart env messages l.length)).smessages).Perm l ∧
    (listing l.length (sortUp l.length
      (sortStart env messages l.length)).smessages).Pairwise
        fun a b => a.timeValue ≤ b.timeValue :=
  h.sort compares_up Function.injective_id fun msg hmsg =>
    (h.bits msg hmsg).2

/-- What `sort > 0` chooses. -/
theorem Arranged.up (sort : Int) (hsort : 0 < sort) :
    (sortedListing env sort l messages).Perm l ∧
    (sortedListing env sort l messages).Pairwise
      fun a b => a.timeValue ≤ b.timeValue := by
  unfold sortedListing sorted
  rw [if_pos hsort]
  exact h.sortUp

/-- The descending sort copies no message from before 1970. -/
theorem Arranged.sortDown_nonneg {msg : SmsMsg}
    (hmsg : msg ∈ listing l.length (sortDown l.length
      (sortStart env messages l.length)).smessages) :
    0 ≤ msg.timeValue := by
  obtain ⟨j, hj, rfl⟩ := List.mem_map.mp hmsg
  rcases sortLoop_slots compares_down (sortStart env messages l.length) j
    with heq | hle
  · show 0 ≤ ((sortLoop 0 _ _ _).smessages.cell (slot j)).timeValue
    rw [heq, h.zero (List.mem_range.mp hj)]
    exact le_refl 0
  · exact Int.neg_nonpos_iff _ |>.mp hle

/-- The ascending sort is right for every list, both sorts are right
exactly for the lists without a negative time.

The descending one starts its search at 0, so that a place for which only
negative times are left is not filled; the ascending one starts at the
greatest time there is. -/
theorem sortLaw_iff :
    (∀ sort, 0 < sort →
      (sortedListing env sort l messages).Perm l ∧
      (sortedListing env sort l messages).Pairwise
        fun a b => a.timeValue ≤ b.timeValue) ∧
    (SortLaw env l messages ↔ ∀ msg ∈ l, 0 ≤ msg.timeValue) := by
  refine ⟨h.up, fun hlaw msg hmsg => ?_, fun hpos => ⟨h.up, ?_⟩⟩
  · obtain ⟨hperm, -⟩ := hlaw.down (-1) (by decide)
    exact h.sortDown_nonneg (hperm.mem_iff.mpr hmsg)
  · intro sort hsort
    unfold sortedListing sorted
    rw [if_neg (Int.not_lt.mpr hsort.le)]
    obtain ⟨hperm, hord⟩ := h.sort compares_down
      (fun a b hab => Int.neg_inj.mp hab)
      fun msg hmsg => Int.neg_le_neg (hpos msg hmsg)
    exact ⟨hperm, hord.imp fun hle => Int.neg_le_neg_iff.mp hle⟩

end

/-- Three messages, two of one time. -/
theorem sortLaw_ties :
    SortLaw twoListed [timed "17/06/10,12:34:56+08" 1499690096,
        timed "" 0, timed "17/06/10,12:34:56+08" 1499690096]
      (inSlots [timed "17/06/10,12:34:56+08" 1499690096,
        timed "" 0, timed "17/06/10,12:34:56+08" 1499690096]) :=
  (sortLaw_iff (arranged_inSlots (by decide))).2.mpr (by decide)

end ShZ001.Sms
