/-
The life cycle of the PPP control block.

# The global pointer

`ppp` is a global: it outlives the task that created the block and is
not reset when the block is freed, and `pppapi_pppos_create` is reached
only after set-up and the first initialisation pass. A second task that
gives up before that point goes through the same exit label and frees
the first task's block again.

# The condition

`Owned` excludes those two ways of giving up while `ppp` is stale, and
takes from lwIP that the callback's codes come from a block that exists
(a callback for a freed block would make the status test skip the
creation). Whether the pointer is stale is a matter of the log, so the
condition is one on the state before the step.

# The invariant

`BlockInv` says that blocks are named in the order of their creation, so
that a new name is a fresh one, and `Loc.holds` says for each location
of the task what it may rely on: from the initialisation loop up to the
status test that its block exists or that the test will make one, behind
the test that it exists, and at the exit label that it exists or that
the pointer is null. The cases of the step lemma are the ways in which
the log grows: by nothing, by a call with a live block, by a creation,
by a free.
-/
import ShZ001.Gsm.Handshake

namespace ShZ001.Gsm

open Lib Machine

-- ================================================================ the law

/-- Every lwIP call that takes a control block takes one that was
created and has not been freed since. -/
def BlockOk (e : Ev) (past : List Ev) : Prop :=
  match e with
  | .pcb _ p => ∃ b, p = some b ∧ .create (some b) ∈ past ∧
      .pcb .free (some b) ∉ past
  | _ => True

/-- The life-cycle law. -/
structure BlockLaw (s : Sys) : Prop where
  calls : Always BlockOk s.log
  freed : ∀ b, s.log.count (.pcb .free (some b)) ≤ 1

/-- A history without calls on freed blocks frees each block once at
most. -/
theorem count_free_le_one {log : List Ev} (h : Always BlockOk log)
    (b : Nat) : log.count (.pcb .free (some b)) ≤ 1 := by
  induction log with
  | nil => simp
  | cons e past ih =>
      obtain ⟨he, hpast⟩ := h
      rw [List.count_cons]
      split
      case isTrue heq =>
          obtain rfl := beq_iff_eq.mp heq
          obtain ⟨b', hb, -, hnot⟩ := he
          obtain rfl := Option.some.inj hb
          rw [List.count_eq_zero.mpr hnot]
      case isFalse => exact ih hpast

/-- Connect, end the task, start a second one whose first set-up call
fails: the first task's block is freed twice. -/
theorem blockLaw_fails : ∃ s, client.Reach anyStep s ∧ ¬ BlockLaw s := by
  obtain ⟨s, hr, hs⟩ := exists_reach client anyStep
    (bringUp ++ hangUp true ++ [.task .go, .task .go, .init .call,
      .init (.make true), .task .go, .task .fail, .task .go])
    (fun s => s.log.count (.pcb .free (some 0)) = 2) (by decide)
  have hcount := of_decide_eq_true hs
  exact ⟨s, hr, fun hlaw => by have := hlaw.freed 0; omega⟩

/-- A free. -/
def Ev.isFree : Ev → Bool
  | .pcb .free _ => true
  | _ => false

-- ========================================================== the condition

/-- The global pointer is to a block that has been freed. -/
def Sys.stale (s : Sys) : Bool :=
  match s.ppp with
  | some b => decide (.pcb .free (some b) ∈ s.log)
  | none => false

/-- The global pointer is to a block that exists. -/
def Sys.owns (s : Sys) : Bool :=
  match s.ppp with
  | some b => decide (.create (some b) ∈ s.log) && !s.stale
  | none => false

/-- Set-up and the initialisation loop are not given up under a stale
pointer, and the codes that `ppp_status_cb` acts on come while the block
exists. -/
def Owned (s : Sys) : Act → Prop
  | .task i => failureExit i s = true → s.task ≠ .create → s.stale = false
  | .cb err => err.isHandled = true → s.owns = true
  | _ => True

instance (s : Sys) : (a : Act) → Decidable (Owned s a)
  | .task i =>
      inferInstanceAs (Decidable
        (failureExit i s = true → s.task ≠ .create → s.stale = false))
  | .cb err =>
      inferInstanceAs (Decidable (err.isHandled = true → s.owns = true))
  | .init _ | .disc _ => isTrue trivial
  | .out _ | .outCount | .modem _ _ | .getCounts _ | .resetCounts =>
      isTrue trivial

-- ============================================================ the invariant

/-- The block `ppp` points at exists. -/
def Live (ppp : Option Nat) (log : List Ev) : Prop :=
  ∃ b, ppp = some b ∧ .create (some b) ∈ log ∧ .pcb .free (some b) ∉ log

theorem live_of_owns {s : Sys} (h : s.owns = true) : Live s.ppp s.log := by
  unfold Sys.owns Sys.stale at h
  cases hp : s.ppp with
  | none => simp [hp] at h
  | some b =>
      simp only [hp, Bool.and_eq_true, decide_eq_true_eq,
        Bool.not_eq_true', decide_eq_false_iff_not] at h
      exact ⟨b, rfl, h.1, h.2⟩

/-- An entry other than a free keeps a block alive. -/
theorem Live.cons {ppp : Option Nat} {log : List Ev} (h : Live ppp log)
    {e : Ev} (he : e.isFree = false) : Live ppp (e :: log) := by
  obtain ⟨b, hp, hc, hf⟩ := h
  refine ⟨b, hp, List.mem_cons_of_mem _ hc, fun hb => ?_⟩
  rcases List.mem_cons.mp hb with rfl | hb
  · cases he
  · exact hf hb

/-- What holds of the pointer at each location. Up to the status test a
task that does not own a block has its status at `FIRSTINIT`, so that
the test creates one. -/
def Loc.holds (s : Sys) : Loc → Prop
  | .dead => True
  | .start => True
  | .setup _ => True
  | .off .boot _ _ _ => True
  | .off (.served _) _ _ _ => Live s.ppp s.log
  | .reset => True
  | .cmd _ _ => Live s.ppp s.log ∨ s.gsmStatus = .firstInit
  | .cmdWait _ _ => Live s.ppp s.log ∨ s.gsmStatus = .firstInit
  | .statusTest => Live s.ppp s.log ∨ s.gsmStatus = .firstInit
  | .create => True
  | .exit => s.ppp = none ∨ Live s.ppp s.log
  | .exitFlag => True
  | _ => Live s.ppp s.log

/-- Blocks are named in order, the pointer is to a created block, and
the task holds what its location needs. -/
structure BlockInv (s : Sys) : Prop where
  freed : ∀ b, .pcb .free (some b) ∈ s.log → b < s.nextBlock
  known : ∀ b, s.ppp = some b →
    b < s.nextBlock ∧ .create (some b) ∈ s.log
  loc : s.task.holds s
  calls : Always BlockOk s.log

/-- A pointer that is not stale is null or to a block that exists. -/
theorem BlockInv.live_of_not_stale {s : Sys} (hi : BlockInv s)
    (h : s.stale = false) : s.ppp = none ∨ Live s.ppp s.log := by
  unfold Sys.stale at h
  cases hp : s.ppp with
  | none => exact .inl rfl
  | some b =>
      simp only [hp, decide_eq_false_iff_not] at h
      exact .inr ⟨b, rfl, (hi.known b hp).2, h⟩

/-- A step that leaves pointer and names alone and logs at most one
entry, a lawful one that is no free. -/
private theorem blockInv_of {s s' : Sys} (hi : BlockInv s)
    (hppp : s'.ppp = s.ppp) (hnext : s'.nextBlock = s.nextBlock)
    (hlog : s'.log = s.log ∨ ∃ e : Ev, e.isFree = false ∧
      BlockOk e s.log ∧ s'.log = e :: s.log)
    (hloc : s'.task.holds s') : BlockInv s' := by
  rcases hlog with hl | ⟨e, hfree, hok, hl⟩
  · refine ⟨?_, ?_, hloc, ?_⟩
    · rw [hl, hnext]
      exact hi.freed
    · rw [hl, hnext, hppp]
      exact hi.known
    · rw [hl]
      exact hi.calls
  · refine ⟨?_, ?_, hloc, ?_⟩
    · rw [hl, hnext]
      intro b hb
      rcases List.mem_cons.mp hb with rfl | hb
      · cases hfree
      · exact hi.freed b hb
    · rw [hl, hnext, hppp]
      intro b hb
      obtain ⟨hlt, hc⟩ := hi.known b hb
      exact ⟨hlt, List.mem_cons_of_mem _ hc⟩
    · rw [hl]
      exact ⟨hok, hi.calls⟩

/-- A step that logs nothing. -/
private theorem blockInv_silent {s s' : Sys} (hi : BlockInv s)
    (hppp : s'.ppp = s.ppp) (hnext : s'.nextBlock = s.nextBlock)
    (hlog : s'.log = s.log) (hloc : s'.task.holds s') : BlockInv s' :=
  blockInv_of hi hppp hnext (.inl hlog) hloc

/-- A call into lwIP with a block that exists. -/
private theorem blockInv_pcb {s s' : Sys} (hi : BlockInv s)
    (hlive : Live s.ppp s.log) {call : PcbCall}
    (hcall : (Ev.pcb call s.ppp).isFree = false) (hppp : s'.ppp = s.ppp)
    (hnext : s'.nextBlock = s.nextBlock)
    (hlog : s'.log = .pcb call s.ppp :: s.log)
    (hloc : Live s'.ppp s'.log → s'.task.holds s') : BlockInv s' := by
  have hlive' : Live s'.ppp s'.log := by
    rw [hppp, hlog]
    exact hlive.cons hcall
  exact blockInv_of hi hppp hnext
    (.inr ⟨.pcb call s.ppp, hcall, hlive, hlog⟩) (hloc hlive')

/-- A new block has a name that was not used before, so it has not been
freed. -/
private theorem blockInv_create {s s' : Sys} (hi : BlockInv s)
    (hppp : s'.ppp = some s.nextBlock)
    (hnext : s'.nextBlock = s.nextBlock + 1)
    (hlog : s'.log = .create (some s.nextBlock) :: s.log)
    (hloc : Live s'.ppp s'.log → s'.task.holds s') : BlockInv s' := by
  have hfreed : ∀ b, .pcb .free (some b) ∈ s'.log → b < s.nextBlock := by
    rw [hlog]
    intro b hb
    rcases List.mem_cons.mp hb with heq | hb
    · cases heq
    · exact hi.freed b hb
  refine ⟨fun b hb => ?_, fun b hb => ?_, hloc ?_, ?_⟩
  · rw [hnext]
    exact Nat.lt_succ_of_lt (hfreed b hb)
  · obtain rfl : s.nextBlock = b := Option.some.inj (hppp.symm.trans hb)
    rw [hnext, hlog]
    exact ⟨Nat.lt_succ_self _, List.mem_cons_self⟩
  · refine ⟨s.nextBlock, hppp, ?_, fun hb => ?_⟩
    · rw [hlog]
      exact List.mem_cons_self
    · exact Nat.lt_irrefl _ (hfreed _ hb)
  · rw [hlog]
    exact ⟨trivial, hi.calls⟩

/-- The free of a block that exists is the first of its name. -/
private theorem blockInv_free {s s' : Sys} (hi : BlockInv s)
    (hlive : Live s.ppp s.log) (hppp : s'.ppp = s.ppp)
    (hnext : s'.nextBlock = s.nextBlock)
    (hlog : s'.log = .pcb .free s.ppp :: s.log)
    (hloc : s'.task.holds s') : BlockInv s' := by
  refine ⟨fun b hb => ?_, fun b hb => ?_, hloc, ?_⟩
  · rw [hnext]
    rw [hlog] at hb
    rcases List.mem_cons.mp hb with heq | hb
    · injection heq with _ hp
      exact (hi.known b hp.symm).1
    · exact hi.freed b hb
  · rw [hnext, hlog]
    obtain ⟨hlt, hc⟩ := hi.known b (hppp ▸ hb)
    exact ⟨hlt, List.mem_cons_of_mem _ hc⟩
  · rw [hlog]
    exact ⟨hlive, hi.calls⟩

/-- `_disconnect`'s tail returns to a location that needs what
`_disconnect` needed. -/
private theorem blockInv_offTail {s : Sys} (hi : BlockInv s) {ret : OffRet}
    {rfOff inside : Bool} {c : OffCmd} (b : Bool)
    (hloc : (Loc.off ret rfOff c inside).holds s) :
    BlockInv (offTail ret b s) := by
  unfold offTail
  split
  · refine blockInv_of hi rfl rfl
      (.inr ⟨.regTimeout .disconnect, rfl, trivial, rfl⟩) ?_
    cases ret with
    | boot => trivial
    | served endTask => exact Live.cons hloc rfl
  · refine blockInv_silent hi rfl rfl rfl ?_
    cases ret with
    | boot => trivial
    | served endTask => exact hloc

/-- Every owned step of the task keeps the invariant. -/
private theorem blockInv_task {i : TaskIn} {s s' : Sys} (hi : BlockInv s)
    (hok : Owned s (.task i)) (h : taskStep i s = some s') :
    BlockInv s' := by
  have hloc := hi.loc
  -- giving up: the pointer may not be stale
  have hgive : failureExit i s = true → s.task ≠ .create →
      s.ppp = none ∨ Live s.ppp s.log := fun hfail hne =>
    hi.live_of_not_stale (hok hfail hne)
  unfold taskStep at h
  split at h
  -- start and set-up
  case h_1 ht =>
      cases h
      exact blockInv_of hi rfl rfl (.inr ⟨.taskStart, rfl, trivial, rfl⟩)
        trivial
  case h_2 k ht =>
      cases h
      exact blockInv_silent hi rfl rfl rfl
        (hgive (by simp [failureExit, ht]) (by simp [ht]))
  case h_3 k ht =>
      split at h <;> cases h
      all_goals exact blockInv_silent hi rfl rfl rfl trivial
  -- `_disconnect`
  case h_4 ret rfOff c ht | h_7 ret rfOff c ht =>
      rw [ht] at hloc
      cases h
      refine blockInv_silent hi rfl rfl rfl ?_
      cases ret <;> exact hloc
  case h_5 ret rfOff v ht | h_6 ret rfOff n v ht =>
      rw [ht] at hloc
      have htail := blockInv_offTail hi rfOff hloc
      split at h <;> cases h
      all_goals first
        | exact htail
        | exact blockInv_silent hi rfl rfl rfl (by cases ret <;> exact hloc)
  case h_8 ht =>
      cases h
      exact blockInv_of hi rfl rfl (.inr ⟨.resetCounts, rfl, trivial, rfl⟩)
        (.inr rfl)
  -- the initialisation loop
  case h_9 iter nfail ht =>
      rw [ht] at hloc
      split at h
      case isTrue =>
          split at h <;> cases h
          · exact blockInv_silent hi rfl rfl rfl hloc
          · exact blockInv_of hi rfl rfl
              (.inr ⟨.tx iter, rfl, trivial, rfl⟩)
              (hloc.imp (fun hl => hl.cons rfl) id)
      case isFalse =>
          cases h
          exact blockInv_silent hi rfl rfl rfl hloc
  case h_10 iter nfail v ht =>
      rw [ht] at hloc
      split at h <;> cases h
      case isTrue hv =>
          refine blockInv_of hi rfl rfl
            (.inr ⟨.nack iter, rfl, trivial, rfl⟩) ?_
          show Loc.holds _ (if _ then _ else _)
          split
          case isTrue hn =>
              exact (hgive (by simp [failureExit, ht, hv, hn])
                (by simp [ht])).imp id fun hl => hl.cons rfl
          case isFalse => exact hloc.imp (fun hl => hl.cons rfl) id
      case isFalse =>
          exact blockInv_of hi rfl rfl
            (.inr ⟨.ack iter, rfl, trivial, rfl⟩)
            (hloc.imp (fun hl => hl.cons rfl) id)
  -- to the connection
  case h_11 ht =>
      rw [ht] at hloc
      cases h
      refine blockInv_silent hi rfl rfl rfl ?_
      show Loc.holds _ (if _ then _ else _)
      split
      case isTrue => trivial
      case isFalse hst => exact hloc.resolve_right hst
  case h_12 ht =>
      cases h
      exact blockInv_create hi rfl rfl rfl id
  case h_13 ht =>
      cases h
      refine ⟨?_, fun b hb => (by cases hb), .inl rfl,
        ⟨trivial, hi.calls⟩⟩
      intro b hb
      rcases List.mem_cons.mp hb with heq | hb
      · cases heq
      · exact hi.freed b hb
  -- calls with the block, and the steps between them
  case h_14 ht | h_15 ht | h_17 ht | h_20 d len ht | h_22 e ht | h_27 ht =>
      rw [ht] at hloc
      cases h
      exact blockInv_pcb hi hloc rfl rfl rfl rfl id
  case h_16 ht | h_24 e ht =>
      rw [ht] at hloc
      cases h
      exact blockInv_silent hi rfl rfl rfl hloc
  -- the data loop
  case h_18 ht =>
      rw [ht] at hloc
      split at h
      · cases h
        exact blockInv_silent hi rfl rfl rfl hloc
      · split at h <;> cases h
        all_goals exact blockInv_silent hi rfl rfl rfl hloc
  case h_19 d len ht =>
      rw [ht] at hloc
      split at h <;> cases h
      · exact blockInv_of hi rfl rfl
          (.inr ⟨.uartRead len, rfl, trivial, rfl⟩)
          (Live.cons hloc rfl)
      · refine blockInv_silent hi rfl rfl rfl ?_
        cases d <;> exact hloc
  case h_21 d len ht =>
      rw [ht] at hloc
      cases h
      refine blockInv_silent hi rfl rfl rfl ?_
      cases d <;> exact hloc
  -- a disconnect request
  case h_23 e ht =>
      rw [ht] at hloc
      cases h
      refine blockInv_silent hi rfl rfl rfl ?_
      show Loc.holds _ (if _ then _ else _)
      split <;> exact hloc
  case h_25 e ht =>
      rw [ht] at hloc
      cases h
      refine blockInv_silent hi rfl rfl rfl ?_
      show Loc.holds _ (if _ then _ else _)
      split
      · exact .inr hloc
      · exact hloc
  case h_26 ht =>
      rw [ht] at hloc
      cases h
      refine blockInv_silent hi rfl rfl rfl ?_
      show Loc.holds _ (if _ then _ else _)
      split
      · exact hloc
      · exact .inl hloc
  -- a dropped session, and the exit
  case h_28 ht =>
      rw [ht] at hloc
      cases h
      exact blockInv_silent hi rfl rfl rfl (.inl hloc)
  case h_29 ht =>
      rw [ht] at hloc
      cases h
      rcases hloc with hnone | hlive
      · exact blockInv_silent hi rfl rfl (by simp [hnone]) trivial
      · have hsome : s.ppp.isSome = true := by
          obtain ⟨b, hp, -⟩ := hlive
          simp [hp]
        exact blockInv_free hi hlive rfl rfl (if_pos hsome) trivial
  case h_30 ht =>
      cases h
      exact blockInv_of hi rfl rfl (.inr ⟨.taskEnd, rfl, trivial, rfl⟩)
        trivial
  case h_31 => cases h

/-- What holds of the pointer at a location depends on the pointer, on
which blocks have been created and freed, and before the status test on
the status. -/
private theorem holds_congr {s s' : Sys} {l : Loc}
    (hlive : Live s.ppp s.log → Live s'.ppp s'.log)
    (hnone : s.ppp = none → s'.ppp = none)
    (hst : s.gsmStatus = .firstInit →
      Live s'.ppp s'.log ∨ s'.gsmStatus = .firstInit)
    (h : l.holds s) : l.holds s' := by
  have htest : Live s.ppp s.log ∨ s.gsmStatus = .firstInit →
      Live s'.ppp s'.log ∨ s'.gsmStatus = .firstInit := fun h =>
    h.elim (fun hl => .inl (hlive hl)) hst
  cases l with
  | off ret rfOff c inside =>
      cases ret with
      | boot => trivial
      | served endTask => exact hlive h
  | cmd iter nfail => exact htest h
  | cmdWait iter nfail => exact htest h
  | statusTest => exact htest h
  | exit => exact h.imp hnone hlive
  | _ => first | trivial | exact hlive h

/-- The other parties create and free no block. -/
private theorem live_foreign {ppp : Option Nat} {es log : List Ev}
    (hes : ∀ e ∈ es, e.isTask = false) (h : Live ppp log) :
    Live ppp (es ++ log) := by
  obtain ⟨b, hp, hc, hf⟩ := h
  refine ⟨b, hp, List.mem_append_right _ hc, fun hb => ?_⟩
  rcases List.mem_append.mp hb with hb | hb
  · exact absurd (hes _ hb) (by simp [Ev.isTask])
  · exact hf hb

/-- A step of another party, given what it does to the status where that
matters. -/
private theorem blockInv_foreign {a : Act} {s s' : Sys} (hi : BlockInv s)
    (ha : a.isTask = false) (h : apply a s = some s')
    (hppp : s'.ppp = s.ppp) (hnext : s'.nextBlock = s.nextBlock)
    (hst : s.gsmStatus = .firstInit →
      Live s.ppp s.log ∨ s'.gsmStatus = .firstInit) : BlockInv s' := by
  obtain ⟨es, hlog, hes⟩ := foreign_log ha h
  have hlive : Live s.ppp s.log → Live s'.ppp s'.log := by
    rw [hppp, hlog]
    exact live_foreign hes
  refine ⟨?_, ?_, ?_, ?_⟩
  · rw [hlog, hnext]
    intro b hb
    rcases List.mem_append.mp hb with hb | hb
    · exact absurd (hes _ hb) (by simp [Ev.isTask])
    · exact hi.freed b hb
  · rw [hlog, hnext, hppp]
    intro b hb
    obtain ⟨hlt, hc⟩ := hi.known b hb
    exact ⟨hlt, List.mem_append_right _ hc⟩
  · rcases foreign_task ha h with ht | ⟨-, ht⟩
    · rw [ht]
      exact holds_congr hlive (by rw [hppp]; exact id)
        (fun hf => (hst hf).imp hlive id) hi.loc
    · rw [ht]
      trivial
  · rw [hlog]
    refine always_append (fun e he past => ?_) hi.calls
    have := hes e he
    cases e <;> trivial

/-- Every step of an owned run keeps the invariant. -/
theorem blockInv_step {a : Act} {s s' : Sys} (hi : BlockInv s)
    (hok : Owned s a) (h : apply a s = some s') : BlockInv s' := by
  cases a with
  | task i => exact blockInv_task hi hok h
  | cb err =>
      have hstep := h
      obtain ⟨-, rfl⟩ := cb_cases h
      refine blockInv_foreign hi (a := .cb err) rfl hstep rfl rfl fun hf => ?_
      cases hh : err.isHandled with
      | true => exact .inl (live_of_owns (hok hh))
      | false => exact .inr ((pppStatusCb_unhandled hh _).trans hf)
  | _ =>
      have hf := bystander_frame rfl h
      exact blockInv_foreign hi rfl h hf.ppp hf.nextBlock
        fun hs => .inr (hf.status.trans hs)

theorem blockInv_boot : BlockInv Sys.boot :=
  ⟨nofun, nofun, trivial, always_nil _⟩

/-- In an owned run every call gets a block that exists.

And each block is freed once at most, which follows: a second free would be
a call with a block that has been freed. -/
theorem blockLaw_of_owned {s : Sys} (h : client.Reach Owned s) :
    BlockLaw s := by
  have hi : BlockInv s := by
    refine h.invariant (I := BlockInv) blockInv_boot ?_
    exact fun _ _ _ hi hok h => blockInv_step hi hok h
  exact ⟨hi.calls, count_free_le_one hi.calls⟩

/-- An owned run through two lives of the task: each block is created,
used and freed. -/
theorem blockLaw_two_lives : ∃ s, client.Reach Owned s
    ∧ s.nextBlock = 2 ∧ .pcb .free (some 1) ∈ s.log ∧ BlockLaw s := by
  obtain ⟨s, hr, hs⟩ := exists_reach client Owned
    (bringUp ++ hangUp true ++ [.task .go, .task .go]
      ++ bringUp ++ hangUp true ++ [.task .go, .task .go])
    (fun s => s.nextBlock = 2 ∧ .pcb .free (some 1) ∈ s.log) (by decide)
  obtain ⟨hnext, hfree⟩ := of_decide_eq_true hs
  exact ⟨s, hr, hnext, hfree, blockLaw_of_owned hr⟩

end ShZ001.Gsm
