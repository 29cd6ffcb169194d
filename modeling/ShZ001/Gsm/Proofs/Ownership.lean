/-
Who owns the reply buffer (libGSM.c 346–364 and its callers).

# Two defects

`gsm_RFOff` and `gsm_RFOn` hand in an array, and a reply that does not
fit is given to `realloc` as if it were a block. And the caller's
pointer is set behind the loop only, so when a growth fails after an
earlier one has moved the block, `smsRead` frees the block that is gone.

# The condition

`owned_iff` is exact, for every cut of the reply into reads and all
answers of `realloc`. Growth fails at most once, since the branch
returns there; so what decides for `smsRead` is where the growth before
it has left the block, which may be, or be again, where it was
allocated. For the two RF functions it is the length of the reply.

# The two invariants

`InArray` holds until the first reallocation of the array, `InBlock`
through all reallocations of a block; both carry that the uses so far
are those of an owner. `LoopEnd` gives the ends of the loop: full, or
failed at the first growth that fails.
-/
import ShZ001.Gsm.Reply

namespace ShZ001.Gsm

open Lib

-- ============================================================= conditions

/-- The bytes of a reply: what is read until the first silent read. -/
def replyOf : List (List UInt8) → List UInt8
  | [] => []
  | data :: rest => if data = [] then [] else data ++ replyOf rest

/-- `gsm_RFOff` and `gsm_RFOn` do not run out of their array. -/
def FitsArray (env : RfEnv) : Prop :=
  env.gsmStatus = .idle → (replyOf env.reply.reads).length < 63

/-- Where the block is after `k` growths that succeeded. -/
def blockAfter (grow : Nat → Option Nat) (r : Nat) : Nat → Nat
  | 0 => r
  | k + 1 => (grow k).getD r

/-- Growth `k` is the first to fail. The reply asks for one at every 512
bytes. -/
structure FailsAt (reply : ReplyEnv) (k : Nat) : Prop where
  asked : k < (replyOf reply.reads).length / 512
  before : ∀ i, i < k → reply.grow i ≠ none
  fails : reply.grow k = none

/-- `smsRead` collects a reply, and if a growth fails, then with the block
where it was allocated. -/
def KeepsBlock (env : Sms.ReadEnv) (reply : ReplyEnv) (r : Nat) : Prop :=
  env.ready = true → env.rbufferAlloc = true →
    ∀ k, FailsAt reply k → blockAfter reply.grow r k = r

-- ================================================================ growing

/-- How room is made for `len` bytes. -/
inductive Reserved (grow : Nat → Option Nat) (len : Nat) (v : CollectVars) :
    CollectVars × Bool → Prop
  | room (h : v.tot + len < v.size) : Reserved grow len v (v, true)
  | failed (h : v.size ≤ v.tot + len) (hgrow : grow v.grown = none) :
      Reserved grow len v
        ({ v with
          grown := v.grown + 1
          uses := v.uses ++ [.realloc v.pbuf (v.size + 512) none] }, false)
  | grown {a} (h : v.size ≤ v.tot + len) (hgrow : grow v.grown = some a) :
      Reserved grow len v
        ({ v with
          grown := v.grown + 1
          uses := v.uses ++ [.realloc v.pbuf (v.size + 512) (some a)]
          size := v.size + 512
          pbuf := .block a }, true)

variable {grow : Nat → Option Nat}

theorem reserve_reserved (grow : Nat → Option Nat) (len : Nat)
    (v : CollectVars) :
    Reserved grow len v (reserve grow len v) := by
  unfold reserve
  dsimp only
  split
  case isFalse h => exact .room (Nat.lt_of_not_le h)
  case isTrue h =>
      cases hgrow : grow v.grown with
      | none => exact .failed h hgrow
      | some a => exact .grown h hgrow

/-- Uses are only added. -/
theorem collectLoop_uses (grow : Nat → Option Nat)
    (reads : List (List UInt8)) (v : CollectVars) :
    v.uses <+: (collectLoop grow reads v).1.uses := by
  induction reads generalizing v with
  | nil => exact List.prefix_rfl
  | cons data rest ih =>
      unfold collectLoop
      split
      case isTrue => exact List.prefix_rfl
      case isFalse =>
          have hres := reserve_reserved grow data.length v
          generalize reserve grow data.length v = res at hres ⊢
          cases hres with
          | room h =>
              exact (List.prefix_append _ _).trans (ih (store data v))
          | failed h hgrow => exact List.prefix_append _ _
          | grown h hgrow =>
              refine List.IsPrefix.trans ?_ (ih _)
              exact (List.prefix_append _ _).trans (List.prefix_append _ _)

-- ============================================================== the array

/-- `realloc` has not been called yet. -/
structure InArray (v : CollectVars) : Prop where
  pbuf : v.pbuf = .array
  size : v.size = 63
  room : v.tot < 63
  owned : OwnedUses (some .array) v.uses
  home : homeAfter (some .array) v.uses = some .array

/-- A store that fits leaves the array in its place. -/
theorem InArray.store {v : CollectVars} (h : InArray v) {data : List UInt8}
    (hfit : v.tot + data.length < 63) : InArray (store data v) := by
  refine ⟨h.pbuf, h.size, hfit, ?_, ?_⟩
  · exact owned_concat.mpr ⟨h.owned, by rw [h.home, h.pbuf]; rfl⟩
  · show homeAfter _ (v.uses ++ [_]) = _
    rw [homeAfter_append, h.home]
    rfl

/-- A reply that fits stays in the array. -/
theorem collectLoop_fits (grow : Nat → Option Nat)
    {reads : List (List UInt8)} {v : CollectVars}
    (hv : InArray v) (hfit : v.tot + (replyOf reads).length < 63) :
    (collectLoop grow reads v).2 = true ∧
      InArray (collectLoop grow reads v).1 := by
  induction reads generalizing v with
  | nil => exact ⟨rfl, hv⟩
  | cons data rest ih =>
      unfold replyOf at hfit
      unfold collectLoop
      split at hfit
      case isTrue hdata => rw [if_pos hdata]; exact ⟨rfl, hv⟩
      case isFalse hdata =>
          rw [if_neg hdata]
          rw [List.length_append] at hfit
          have hres := reserve_reserved grow data.length v
          generalize reserve grow data.length v = res at hres ⊢
          have hsize := hv.size
          cases hres with
          | room h =>
              refine ih (hv.store (by omega)) ?_
              show v.tot + data.length + _ < 63
              omega
          | failed h hgrow => omega
          | grown h hgrow => omega

/-- One that does not fit puts the array to `realloc`. -/
theorem collectLoop_overflows (grow : Nat → Option Nat)
    {reads : List (List UInt8)} {v : CollectVars}
    (hv : InArray v) (hover : 63 ≤ v.tot + (replyOf reads).length) :
    ¬ OwnedUses (some .array) (collectLoop grow reads v).1.uses := by
  induction reads generalizing v with
  | nil =>
      have hroom := hv.room
      exact absurd hover (by simpa [replyOf] using hroom)
  | cons data rest ih =>
      have hroom := hv.room
      unfold replyOf at hover
      unfold collectLoop
      split at hover
      case isTrue hdata =>
          rw [List.length_nil] at hover
          omega
      case isFalse hdata =>
          rw [if_neg hdata]
          rw [List.length_append] at hover
          have hres := reserve_reserved grow data.length v
          generalize reserve grow data.length v = res at hres ⊢
          have hsize := hv.size
          have hno : ∀ answer, ¬ OwnedUses (some .array)
              (v.uses ++ [.realloc v.pbuf (v.size + 512) answer]) := by
            intro answer howned
            exact (owned_concat.mp howned).2.2 hv.pbuf
          cases hres with
          | room h =>
              refine ih (hv.store (by omega)) ?_
              show 63 ≤ v.tot + data.length + _
              omega
          | failed h hgrow => exact hno none
          | @grown a h hgrow =>
              intro howned
              obtain ⟨us, hus⟩ := collectLoop_uses grow rest _
              rw [← hus] at howned
              exact hno (some a)
                (owned_append.mp (owned_append.mp howned).1).1

-- =============================================================== the blocks

/-- The block has been moved as `realloc` answered, and there is room. -/
structure InBlock (grow : Nat → Option Nat) (r : Nat) (v : CollectVars) :
    Prop where
  pbuf : v.pbuf = .block (blockAfter grow r v.grown)
  size : v.size = 512 * (v.grown + 1)
  low : 512 * v.grown ≤ v.tot
  room : v.tot < v.size
  before : ∀ i, i < v.grown → grow i ≠ none
  owned : OwnedUses (some (.block r)) v.uses
  home : homeAfter (some (.block r)) v.uses = some v.pbuf

/-- The bytes fit as it is, or after one more growth. -/
theorem InBlock.store {r : Nat} {v : CollectVars} (h : InBlock grow r v)
    {data : List UInt8} (hfit : v.tot + data.length < v.size) :
    InBlock grow r (store data v) := by
  refine ⟨h.pbuf, h.size, ?_, hfit, h.before, ?_, ?_⟩
  · exact h.low.trans (Nat.le_add_right _ _)
  · exact owned_concat.mpr ⟨h.owned, h.home⟩
  · show homeAfter _ (v.uses ++ [_]) = _
    rw [homeAfter_append, h.home]
    rfl

/-- With one growth there is room for any read, as a read has at most 256
bytes and a growth 512. -/
theorem InBlock.grown {r : Nat} {v : CollectVars} (h : InBlock grow r v)
    {data : List UInt8} (hshort : data.length ≤ 256)
    (hfull : v.size ≤ v.tot + data.length) {a : Nat}
    (hgrow : grow v.grown = some a) :
    InBlock grow r (Gsm.store data { v with
      grown := v.grown + 1
      uses := v.uses ++ [.realloc v.pbuf (v.size + 512) (some a)]
      size := v.size + 512
      pbuf := .block a }) := by
  have hsize := h.size
  have hroom := h.room
  have hpbuf : v.pbuf ≠ .array := by rw [h.pbuf]; nofun
  have howned : OwnedUses (some (.block r))
      (v.uses ++ [.realloc v.pbuf (v.size + 512) (some a)]) :=
    owned_concat.mpr ⟨h.owned, h.home, hpbuf⟩
  have hhome : homeAfter (some (.block r))
      (v.uses ++ [.realloc v.pbuf (v.size + 512) (some a)])
        = some (.block a) := by
    rw [homeAfter_append]
    rfl
  refine ⟨?_, ?_, ?_, ?_, ?_, ?_, ?_⟩
  · show Ptr.block a = .block ((grow v.grown).getD r)
    rw [hgrow, Option.getD_some]
  · show v.size + 512 = 512 * (v.grown + 1 + 1)
    omega
  · show 512 * (v.grown + 1) ≤ v.tot + data.length
    omega
  · show v.tot + data.length < v.size + 512
    omega
  · intro i hi
    rcases Nat.lt_succ_iff_lt_or_eq.mp hi with hlt | rfl
    · exact h.before i hlt
    · rw [hgrow]
      nofun
  · exact owned_concat.mpr ⟨howned, hhome⟩
  · show homeAfter _ (_ ++ [_]) = _
    rw [homeAfter_append, hhome]
    rfl

/-- How the loop ends on a reply of `total` bytes. -/
inductive LoopEnd (grow : Nat → Option Nat) (r total : Nat) :
    CollectVars × Bool → Prop
  | filled {v} (h : InBlock grow r v) (htot : v.tot = total) :
      LoopEnd grow r total (v, true)
  | failed {v k} (hk : k < total / 512) (hbefore : ∀ i, i < k → grow i ≠ none)
      (hfails : grow k = none) (howned : OwnedUses (some (.block r)) v.uses)
      (hhome : homeAfter (some (.block r)) v.uses
        = some (.block (blockAfter grow r k))) :
      LoopEnd grow r total (v, false)

theorem collectLoop_end (grow : Nat → Option Nat) {r : Nat}
    {reads : List (List UInt8)}
    (hshort : ∀ data ∈ reads, data.length ≤ 256) {v : CollectVars}
    (hv : InBlock grow r v) :
    LoopEnd grow r (v.tot + (replyOf reads).length)
      (collectLoop grow reads v) := by
  induction reads generalizing v with
  | nil => exact .filled hv rfl
  | cons data rest ih =>
      have hrest := fun d hd => hshort d (List.mem_cons_of_mem data hd)
      have hdata256 := hshort data List.mem_cons_self
      unfold replyOf collectLoop
      split
      case isTrue => exact .filled hv rfl
      case isFalse hdata =>
          rw [List.length_append, ← Nat.add_assoc]
          have hres := reserve_reserved grow data.length v
          generalize reserve grow data.length v = res at hres ⊢
          cases hres with
          | room h => exact ih hrest (hv.store h)
          | grown h hgrow => exact ih hrest (hv.grown hdata256 h hgrow)
          | failed h hgrow =>
              have hsize := hv.size
              have hpbuf : v.pbuf ≠ .array := by rw [hv.pbuf]; nofun
              refine .failed (k := v.grown) ?_ hv.before hgrow ?_ ?_
              · omega
              · exact owned_concat.mpr ⟨hv.owned, hv.home, hpbuf⟩
              · show homeAfter _ (v.uses ++ [_]) = _
                rw [homeAfter_append, hv.home, hv.pbuf]
                rfl

-- ================================================================== the law

theorem gsmRF_uses {setting : List UInt8} {timeoutMs : Nat} {env : RfEnv}
    (h : env.gsmStatus = .idle) :
    (gsmRF setting timeoutMs env).uses =
      if 0 < (collect env.reply .array 63).ret then
        (collect env.reply .array 63).uses ++ [.load .array]
      else (collect env.reply .array 63).uses := by
  unfold gsmRF
  rw [if_neg (not_not.mpr h)]
  dsimp only
  split
  · split <;> rfl
  · split <;> rfl

/-- The two functions own their array exactly if the reply fits. -/
theorem gsmRF_owned (setting : List UInt8) (timeoutMs : Nat) (env : RfEnv) :
    OwnedUses (some .array) (gsmRF setting timeoutMs env).uses
      ↔ FitsArray env := by
  by_cases hidle : env.gsmStatus = .idle
  case neg =>
      have huses : (gsmRF setting timeoutMs env).uses = [] := by
        unfold gsmRF
        rw [if_pos hidle]
      rw [huses]
      exact iff_of_true trivial fun h => absurd h hidle
  case pos =>
      rw [gsmRF_uses hidle, FitsArray, imp_iff_right hidle]
      have hstart : InArray (collectStart .array 63) :=
        ⟨rfl, rfl, by decide, trivial, rfl⟩
      unfold collect
      rcases Nat.lt_or_ge (replyOf env.reply.reads).length 63 with hfit | hover
      · obtain ⟨hret, hin⟩ := collectLoop_fits env.reply.grow
          hstart (show 0 + _ < 63 by rwa [Nat.zero_add])
        generalize collectLoop env.reply.grow _ _ = r at hret hin ⊢
        obtain ⟨v, _⟩ := r
        subst hret
        refine iff_of_true ?_ hfit
        dsimp only
        split
        · exact owned_concat.mpr ⟨hin.owned, hin.home⟩
        · exact hin.owned
      · have hno := collectLoop_overflows env.reply.grow hstart
          (show 63 ≤ 0 + _ by rwa [Nat.zero_add])
        generalize collectLoop env.reply.grow _ _ = r at hno ⊢
        refine iff_of_false ?_ (Nat.not_lt.mpr hover)
        obtain ⟨v, _ | _⟩ := r
        · exact hno
        · dsimp only
          split
          · exact fun howned => hno (owned_append.mp howned).1
          · exact hno

/-- The first growth to fail is one. -/
theorem FailsAt.unique {reply : ReplyEnv} {k k' : Nat}
    (h : FailsAt reply k) (h' : FailsAt reply k') : k = k' := by
  rcases Nat.lt_trichotomy k k' with hlt | heq | hgt
  · exact absurd h.fails (h'.before k hlt)
  · exact heq
  · exact absurd h'.fails (h.before k' hgt)

/-- And `smsRead` owns its block exactly if it is still where it was when
the growth failed. -/
theorem smsReadUses_owned (env : Sms.ReadEnv) (reply : ReplyEnv) (r : Nat) :
    OwnedUses (some (.block r)) (smsReadUses env reply r)
      ↔ KeepsBlock env reply r := by
  unfold smsReadUses KeepsBlock
  by_cases hready : env.ready = true
  case neg =>
      rw [if_pos (by simpa using hready)]
      exact iff_of_true trivial fun h => absurd h hready
  by_cases halloc : env.rbufferAlloc = true
  case neg =>
      rw [if_neg (by simp [hready]), if_pos (by simpa using halloc)]
      exact iff_of_true trivial fun _ h => absurd h halloc
  rw [if_neg (by simp [hready]), if_neg (by simp [halloc]),
    imp_iff_right hready, imp_iff_right halloc]
  have hend := collectLoop_end reply.grow (r := r) reply.short
    (v := collectStart (.block r) 512)
    ⟨rfl, rfl, Nat.le_refl _, Nat.zero_lt_succ _, nofun, trivial, rfl⟩
  rw [show (collectStart (.block r) 512).tot = 0 from rfl,
    Nat.zero_add] at hend
  unfold collect
  generalize collectLoop reply.grow _ _ = res at hend ⊢
  cases hend with
  | @filled v hin htot =>
      have hpbuf : v.pbuf ≠ .array := by rw [hin.pbuf]; nofun
      have hfree : ∀ n, OwnedUses (some (.block r))
          (v.uses ++ List.replicate n (.load v.pbuf) ++ [.free v.pbuf]) := by
        intro n
        obtain ⟨hloads, hhome⟩ := owned_loads (p := v.pbuf) n
        refine owned_concat.mpr ⟨owned_append.mpr ⟨hin.owned, ?_⟩, ?_⟩
        · rwa [hin.home]
        · rw [homeAfter_append, hin.home, hhome]
          exact ⟨rfl, hpbuf⟩
      refine iff_of_true ?_ ?_
      · dsimp only
        split
        · simpa using hfree 0
        · exact hfree _
      · -- all growths that the reply asked for have succeeded
        intro k hk
        have hsize := hin.size
        have hroom := hin.room
        have hasked := hk.asked
        exact absurd hk.fails (hin.before k (by omega))
  | @failed v k hk hbefore hfails howned hhome =>
      have hat : FailsAt reply k := ⟨hk, hbefore, hfails⟩
      dsimp only
      rw [if_pos rfl, owned_concat, hhome]
      constructor
      · intro h k' hk'
        obtain ⟨-, hfree, -⟩ := h
        rw [hk'.unique hat]
        exact Ptr.block.inj (Option.some.inj hfree)
      · intro hkeeps
        refine ⟨howned, ?_, by nofun⟩
        rw [hkeeps k hat]

/-- The callers own the buffers they use, exactly under their conditions.

To own is to use only what is there: a block is neither read nor freed
after it has been moved or freed, and what is no block is not given to
`realloc` at all. -/
theorem owned_iff (env : RfEnv) (renv : Sms.ReadEnv) (reply : ReplyEnv)
    (r : Nat) :
    (OwnedUses (some .array) (gsmRFOff env).uses ↔ FitsArray env) ∧
    (OwnedUses (some .array) (gsmRFOn env).uses ↔ FitsArray env) ∧
    (OwnedUses (some (.block r)) (smsReadUses renv reply r)
      ↔ KeepsBlock renv reply r) :=
  ⟨gsmRF_owned _ _ env, gsmRF_owned _ _ env, smsReadUses_owned renv reply r⟩

/-- Four full reads; the first growth moves the block to 2, the next one
fails. -/
def movedReply : ReplyEnv where
  reads := List.replicate 4 (List.replicate 256 0x2e)
  grow
    | 0 => some 2
    | _ => none
  short := by
    intro data hdata
    rw [List.eq_of_mem_replicate hdata, List.length_replicate]

/-- The status is idle, and the answer to `AT+CFUN?` is that long. -/
def longAnswer : RfEnv where
  gsmStatus := .idle
  reply := movedReply
  past := []
  reads := []

def plainRead : Sms.ReadEnv where
  ready := true
  rbufferAlloc := true
  res := 0
  rbuffer := []
  messagesAlloc := true
  smessagesAlloc := true
  locals _ :=
    { hh := 0
      mm := 0
      ss := 0
      yy := 0
      mn := 0
      dd := 0
      tz := 0 }
  msg := .zero
  pastMessages _ := .zero
  pastSmessages _ := .zero

/-- The array is put to `realloc`, and the block that was left behind is
freed. -/
theorem owned_fails :
    ¬ OwnedUses (some .array) (gsmRFOff longAnswer).uses ∧
    ¬ OwnedUses (some (.block 1)) (smsReadUses plainRead movedReply 1) := by
  decide +kernel

end ShZ001.Gsm
