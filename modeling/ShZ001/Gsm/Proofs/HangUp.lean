/-
`_disconnect` and the modem (lines 426–472).

# The loop

A probe that is not answered with `OK` sends the task into a loop of
`ATH`s that only an answer the matcher accepts can end: the counter in
it is not a bound, the eleventh failure sets it back to 0.

# What stands behind it

`_disconnect` opens the task's start-up, and stands before everything in
it that can fail: the 20 failures of the initialisation loop, the
missing control block, the exit that clears `pppos_task_started`. With
any modem that gives such an answer the stages follow each other, each
within its own number of steps: `ExchangesLeft` counts down to the
answer, a pass of the initialisation loop has its bound, and from there
`closingLeft` does.

# The trap

With a modem that never gives one none of these is ever reached, and
neither is `pppapi_connect`. `Deaf` is the trap: a set of states that no
step leaves and in which exchanges go on. `disconnect_iff` puts the two
together: the law of the call holds at every reachable call exactly with
the modems that answer.
-/
import ShZ001.Lib.Within
import ShZ001.Gsm.Modem
import ShZ001.Gsm.Proofs.InitLoop

namespace ShZ001.Gsm

open Lib Machine

-- ================================================================ the law

/-- `pppapi_connect` has just been called. -/
def Dialled (s : Sys) : Prop :=
  s.task = .loopHead ∧ s.log.head? = some (.pcb .connect s.ppp)

/-- The task has ended with its flag down, and a `ppposInit` that waits
for the connection reports failure at its next poll. -/
def GaveUp (s : Sys) : Prop :=
  s.task = .dead ∧ s.ppposTaskStarted = false ∧
    (s.initCall = .upWait → ∃ s', initStep .poll s = some s' ∧
      s'.initCall = .outside ∧ s'.log = .initRet 0 :: s.log)

/-- From the call of `_disconnect` in `x` on: it returns after so many
exchanges, the task always has a step the modem allows, and if this is
the start-up call the start-up comes to an end. -/
structure DisconnectLaw (modem : Nat → Answer) (ret : OffRet)
    (x : Talk) : Prop where
  returns : ∃ n, (dialogue modem).Within Act.isAnswer n
    (fun x' => x'.sys.task = ret.loc) x
  moves : ∀ acts x', (dialogue modem).run anyStep x acts = some x' →
    x'.sys.task ≠ .dead →
    ∃ i x'', (dialogue modem).apply (.task i) x' = some x''
  startUp : ret = .boot → ∃ n, (dialogue modem).Within Act.isTask n
    (fun x' => Dialled x'.sys ∨ GaveUp x'.sys) x

/-- From its exchange `k` on the modem answers `AT` with `OK`, or else
one of the `ATH`s behind it with `OK` or `NO CARRIER`. -/
def Answers (modem : Nat → Answer) (k : Nat) : Prop :=
  (modem k).probe = 1 ∨ ∃ d, (modem (k + 1 + d)).ath ≠ 0

-- ====================================================== one step of the call

/-- Where `_disconnect` goes on when its exchange `c` ends with the
verdict `v`. -/
def offNext (ret : OffRet) (rfOff : Bool) (v : Nat) : OffCmd → Loc
  | .probe =>
      if v = 1 then if rfOff then .off ret rfOff .cfun false else ret.loc
      else .off ret rfOff (.ath 0) false
  | .ath n =>
      if v = 0 then
        .off ret rfOff (.ath (if n + 1 > 10 then 0 else n + 1)) false
      else if rfOff then .off ret rfOff .cfun false else ret.loc
  | .cfun => ret.loc

/-- The tail turns the radio off if it has been asked to, and returns. -/
theorem offTail_task (ret : OffRet) (rfOff : Bool) (s : Sys) :
    (offTail ret rfOff s).task
      = if rfOff then .off ret rfOff .cfun false else ret.loc := by
  unfold offTail
  split <;> rfl

/-- Inside `_disconnect` the task starts an exchange or ends one. -/
theorem off_cases {ret : OffRet} {rfOff inside : Bool} {c : OffCmd}
    {i : TaskIn} {s s' : Sys} (ht : s.task = .off ret rfOff c inside)
    (h : taskStep i s = some s') :
    (i = .go ∧ inside = false ∧ s'.task = .off ret rfOff c true) ∨
    ∃ v, i = .verdict v ∧ inside = true ∧
      s'.task = offNext ret rfOff v c := by
  cases i with
  | go =>
      cases inside with
      | false =>
          simp only [taskStep, ht] at h
          cases h
          exact .inl ⟨rfl, rfl, rfl⟩
      | true => simp [taskStep, ht] at h
  | verdict v =>
      cases inside with
      | false => cases c <;> simp [taskStep, ht] at h
      | true =>
          refine .inr ⟨v, rfl, rfl, ?_⟩
          cases c with
          | probe =>
              simp only [taskStep, ht] at h
              split at h
              case isTrue hv =>
                  cases h
                  exact (offTail_task ret rfOff s).trans (if_pos hv).symm
              case isFalse hv =>
                  cases h
                  exact (if_neg hv).symm
          | ath n =>
              simp only [taskStep, ht] at h
              split at h
              case isTrue hv =>
                  cases h
                  exact (if_pos hv).symm
              case isFalse hv =>
                  cases h
                  exact (offTail_task ret rfOff s).trans (if_neg hv).symm
          | cfun =>
              simp only [taskStep, ht] at h
              cases h
              rfl
  | _ => simp [taskStep, ht] at h

section

variable {modem : Nat → Answer} {ret : OffRet} {x x' : Talk}

/-- The same step of the task, against the modem: at the end of an
exchange the verdict is one the modem's answer allows. -/
theorem talk_cases {rfOff inside : Bool} {c : OffCmd} {i : TaskIn}
    (ht : x.sys.task = .off ret rfOff c inside)
    (h : (dialogue modem).apply (.task i) x = some x') :
    (Act.isAnswer (.task i) = false ∧ inside = false ∧
      x'.exchanges = x.exchanges ∧ x'.sys.task = .off ret rfOff c true) ∨
    ∃ v, Act.isAnswer (.task i) = true ∧ inside = true ∧
      x'.exchanges = x.exchanges + 1 ∧
      x.sys.hears (modem x.exchanges) v = true ∧
      x'.sys.task = offNext ret rfOff v c := by
  rcases off_cases ht (dialogue_sys _ _ _ h) with
    ⟨rfl, hin, ht'⟩ | ⟨v, rfl, hin, ht'⟩
  · exact .inl ⟨rfl, hin, ((dialogue_apply rfl).mp h).2, ht'⟩
  · obtain ⟨hhears, -, hk⟩ := dialogue_verdict.mp h
    exact .inr ⟨v, rfl, hin, hk, hhears, ht'⟩

/-- The other parties leave a task that is alive where it is. -/
theorem talk_foreign {a : Act} (ha : a.isTask = false)
    (hi : Life x.sys) (halive : x.sys.task ≠ .dead)
    (h : (dialogue modem).apply a x = some x') :
    x'.sys.task = x.sys.task ∧ x'.exchanges = x.exchanges := by
  have hans : a.isAnswer = false := by
    cases a with
    | task i => cases ha
    | _ => rfl
  obtain ⟨happ, hk⟩ := (dialogue_apply hans).mp h
  exact ⟨foreign_alive ha hi halive happ, hk⟩

-- ============================================================ the exchanges

/-- `_disconnect` has at most `n` exchanges left, of which it is in front
of `c`. -/
def ExchangesLeft (modem : Nat → Answer) (k : Nat) (n : Nat) :
    OffCmd → Prop
  | .probe =>
      (modem k).probe = 1 ∧ 2 ≤ n ∨
        ∃ d, (modem (k + 1 + d)).ath ≠ 0 ∧ d + 3 ≤ n
  | .ath _ => ∃ d, (modem (k + d)).ath ≠ 0 ∧ d + 2 ≤ n
  | .cfun => 1 ≤ n

/-- Inside `_disconnect`, with at most `n` exchanges left. -/
structure Hanging (modem : Nat → Answer) (ret : OffRet) (n : Nat)
    (inside : Bool) (x : Talk) : Prop where
  life : Life x.sys
  loc : ∃ rfOff c, x.sys.task = .off ret rfOff c inside ∧
    ExchangesLeft modem x.exchanges n c

theorem exchangesLeft_pos {k n : Nat} {c : OffCmd}
    (h : ExchangesLeft modem k n c) : 0 < n := by
  cases c with
  | probe => rcases h with ⟨-, hn⟩ | ⟨d, -, hn⟩ <;> omega
  | ath m =>
      obtain ⟨d, -, hn⟩ := h
      omega
  | cfun => exact h

/-- An exchange that is over has been one of them. -/
theorem exchangesLeft_next {rfOff : Bool} {c : OffCmd} {n v : Nat}
    (ht : x.sys.task = .off ret rfOff c true)
    (hleft : ExchangesLeft modem x.exchanges n c)
    (hv : x.sys.hears (modem x.exchanges) v = true) :
    offNext ret rfOff v c = ret.loc ∨
    ∃ c' n', offNext ret rfOff v c = .off ret rfOff c' false ∧ n' + 1 ≤ n ∧
      ExchangesLeft modem (x.exchanges + 1) n' c' := by
  -- the way out, over `AT+CFUN=4` or not
  have hout : 2 ≤ n → ∀ l : Loc,
      l = (if rfOff then .off ret rfOff .cfun false else ret.loc) →
      l = ret.loc ∨ ∃ c' n', l = .off ret rfOff c' false ∧ n' + 1 ≤ n ∧
        ExchangesLeft modem (x.exchanges + 1) n' c' := by
    intro hn l h
    subst h
    cases rfOff with
    | false => exact .inl rfl
    | true => exact .inr ⟨.cfun, 1, rfl, hn, Nat.le_refl 1⟩
  cases c with
  | probe =>
      obtain rfl : v = (modem x.exchanges).probe := by
        simpa [Sys.hears, ht] using hv
      by_cases hok : (modem x.exchanges).probe = 1
      · have hn : 2 ≤ n := by
          rcases hleft with ⟨-, hn⟩ | ⟨d, -, hn⟩ <;> omega
        exact hout hn _ (if_pos hok)
      · obtain ⟨d, hd, hn⟩ := hleft.resolve_left fun h => hok h.1
        exact .inr ⟨.ath 0, d + 2, if_neg hok, by omega, d, hd,
          Nat.le_refl _⟩
  | ath m =>
      obtain rfl : v = (modem x.exchanges).ath := by
        simpa [Sys.hears, ht] using hv
      obtain ⟨d, hd, hn⟩ := hleft
      by_cases hno : (modem x.exchanges).ath = 0
      · -- not this one, so the one that is accepted is still ahead
        cases d with
        | zero => exact absurd hno hd
        | succ d =>
            refine .inr ⟨_, d + 2, if_pos hno, by omega, d, ?_,
              Nat.le_refl _⟩
            rwa [Nat.add_assoc, Nat.add_comm 1 d]
      · exact hout (by omega) _ (if_neg hno)
  | cfun => exact .inl rfl

/-- One step from inside `_disconnect`. -/
theorem hanging_step {n : Nat} {inside : Bool} {a : Act}
    (hi : Hanging modem ret n inside x)
    (h : (dialogue modem).apply a x = some x') :
    x'.sys.task = ret.loc ∨
    (a.isTask = false ∧ a.isAnswer = false ∧
      Hanging modem ret n inside x') ∨
    (a.isAnswer = false ∧ inside = false ∧ Hanging modem ret n true x') ∨
    (inside = true ∧ ∃ n', n' + 1 ≤ n ∧ Hanging modem ret n' false x') := by
  have hlife := life_step hi.life (dialogue_sys _ _ _ h)
  obtain ⟨rfOff, c, ht, hleft⟩ := hi.loc
  have hforeign : a.isTask = false → Hanging modem ret n inside x' := by
    intro ha
    obtain ⟨ht', hk⟩ := talk_foreign ha hi.life (by rw [ht]; nofun) h
    exact ⟨hlife, rfOff, c, ht'.trans ht, hk ▸ hleft⟩
  cases a with
  | task i =>
      rcases talk_cases ht h with
        ⟨ha, rfl, hk, ht'⟩ | ⟨v, -, rfl, hk, hv, ht'⟩
      · exact .inr (.inr (.inl ⟨ha, rfl, hlife, rfOff, c, ht',
          hk ▸ hleft⟩))
      · rcases exchangesLeft_next ht hleft hv with
          hend | ⟨c', n', hnext, hn, hleft'⟩
        · exact .inl (ht'.trans hend)
        · exact .inr (.inr (.inr ⟨rfl, n', hn, hlife, rfOff, c',
            ht'.trans hnext, hk ▸ hleft'⟩))
  | _ => exact .inr (.inl ⟨rfl, rfl, hforeign rfl⟩)

/-- The call returns, and each exchange it still makes is paid for. -/
theorem hanging_returns {n : Nat} {inside : Bool}
    (hi : Hanging modem ret n inside x) :
    (dialogue modem).Within Act.isAnswer n
      (fun x' => x'.sys.task = ret.loc) x := by
  refine Within.of_budget (L := fun k x =>
    ∃ inside, Hanging modem ret k inside x) ?_ ⟨inside, hi⟩
  intro k x a x' hx h
  obtain ⟨inside, hi⟩ := hx
  rcases hanging_step hi h with
    hend | ⟨-, ha, hi'⟩ | ⟨ha, -, hi'⟩ | ⟨-, k', hk, hi'⟩
  · exact .inl hend
  · exact .inr ⟨k, ⟨_, hi'⟩, by simp [ha]⟩
  · exact .inr ⟨k, ⟨_, hi'⟩, by simp [ha]⟩
  · refine .inr ⟨k', ⟨_, hi'⟩, ?_⟩
    split <;> omega

/-- The same in steps of the task: an exchange is two of them. -/
theorem hanging_steps {n : Nat} (hi : Hanging modem ret n false x) :
    (dialogue modem).Within Act.isTask (2 * n)
      (fun x' => x'.sys.task = ret.loc) x := by
  refine Within.of_budget (L := fun k x => ∃ n inside,
    Hanging modem ret n inside x ∧ 2 * n ≤ k + inside.toNat) ?_
    ⟨n, false, hi, Nat.le_refl _⟩
  intro k x a x' hx h
  obtain ⟨n, inside, hi, hk⟩ := hx
  rcases hanging_step hi h with
    hend | ⟨ha, -, hi'⟩ | ⟨-, rfl, hi'⟩ | ⟨rfl, n', hn, hi'⟩
  · exact .inl hend
  · exact .inr ⟨k, ⟨n, inside, hi', hk⟩, by simp [ha]⟩
  · obtain ⟨rfOff, c, -, hleft⟩ := hi.loc
    have hn := exchangesLeft_pos hleft
    have hk : 2 * n ≤ k := hk
    refine .inr ⟨k - 1, ⟨n, true, hi', ?_⟩, ?_⟩
    · rw [Bool.toNat_true]
      omega
    · split <;> omega
  · refine .inr ⟨2 * n', ⟨n', false, hi', Nat.le_refl _⟩, ?_⟩
    rw [Bool.toNat_true] at hk
    split <;> omega

end

-- ========================================================= the rest of it

/-- Behind the initialisation loop, up to `pppapi_connect` or the end. -/
def Loc.closing : Loc → Bool
  | .statusTest => true
  | .create => true
  | .setDefault => true
  | .setAuth => true
  | .markIdle => true
  | .connect => true
  | .exit => true
  | .exitFlag => true
  | _ => false

/-- Steps ahead of the last one. -/
def closingLeft : Loc → Nat
  | .statusTest => 5
  | .create => 4
  | .setDefault => 3
  | .setAuth => 2
  | .markIdle => 1
  | .exit => 1
  | _ => 0

/-- A task that has cleared the flag leaves `ppposInit` with a failure to
report. -/
theorem gaveUp_of_die {s : Sys} (ht : s.task = .dead)
    (hflag : s.ppposTaskStarted = false) : GaveUp s := by
  refine ⟨ht, hflag, fun hup => ?_⟩
  simp only [initStep, hup, hflag, if_true]
  exact ⟨_, rfl, rfl, rfl⟩

/-- One step of the task behind the loop. -/
theorem closing_task {i : TaskIn} {s s' : Sys}
    (hloc : s.task.closing = true) (h : taskStep i s = some s') :
    (Dialled s' ∨ GaveUp s') ∨ s'.task.closing = true ∧
      closingLeft s'.task + 1 ≤ closingLeft s.task := by
  have hto : ∀ {l l' : Loc}, s'.task = l' → l'.closing = true →
      closingLeft l' + 1 ≤ closingLeft l →
      (Dialled s' ∨ GaveUp s') ∨ s'.task.closing = true ∧
        closingLeft s'.task + 1 ≤ closingLeft l := by
    intro l l' h hl hpay
    subst h
    exact .inr ⟨hl, hpay⟩
  cases ht : s.task with
  | statusTest =>
      cases i <;> simp only [taskStep, ht] at h <;> cases h
      by_cases hfirst : s.gsmStatus = .firstInit
      · exact hto (if_pos hfirst) rfl (Nat.le_of_ble_eq_true rfl)
      · exact hto (if_neg hfirst) rfl (Nat.le_of_ble_eq_true rfl)
  | create =>
      cases i <;> simp only [taskStep, ht] at h <;> cases h
      all_goals exact hto rfl rfl (Nat.le_of_ble_eq_true rfl)
  | setDefault | setAuth | markIdle | exit =>
      cases i <;> simp only [taskStep, ht] at h <;> cases h
      exact hto rfl rfl (Nat.le_of_ble_eq_true rfl)
  | connect =>
      cases i <;> simp only [taskStep, ht] at h <;> cases h
      exact .inl (.inl ⟨rfl, rfl⟩)
  | exitFlag =>
      cases i <;> simp only [taskStep, ht] at h <;> cases h
      exact .inl (.inr (gaveUp_of_die rfl rfl))
  | _ =>
      rw [ht] at hloc
      cases hloc

/-- From behind the loop the start-up ends. -/
theorem closing_ends {s : Sys} (hi : Life s)
    (hloc : s.task.closing = true) :
    client.Within Act.isTask 5 (fun s => Dialled s ∨ GaveUp s) s := by
  refine (Within.of_measure (L := fun s => Life s ∧ s.task.closing = true)
    (μ := fun s => closingLeft s.task) ?_ ⟨hi, hloc⟩).mono ?_ fun _ h => h
  · intro s a s' hs h
    obtain ⟨hi, hloc⟩ := hs
    have hlife := life_step hi h
    have hforeign : a.isTask = false → s'.task = s.task := by
      refine fun ha => foreign_alive ha hi (fun hdead => ?_) h
      rw [hdead] at hloc
      cases hloc
    cases a with
    | task i =>
        rcases closing_task hloc h with hend | ⟨hloc', hpay⟩
        · exact .inl hend
        · exact .inr ⟨⟨hlife, hloc'⟩, hpay⟩
    | _ =>
        have ht := hforeign rfl
        exact .inr ⟨⟨hlife, ht ▸ hloc⟩, by rw [ht]; exact Nat.le_refl _⟩
  · unfold closingLeft
    split <;> omega

/-- The task waits in front of the loop for nothing. -/
theorem reset_ends {s : Sys} (hr : client.Reach anyStep s)
    (ht : s.task = .reset) :
    client.Within Act.isTask 0 (fun s => s.task = .cmd 0 0) s := by
  refine Within.of_measure (L := fun s => Life s ∧ s.task = .reset)
    (μ := fun _ => 0) ?_ ⟨life_of_reach hr, ht⟩
  intro s a s' hs h
  obtain ⟨hi, ht⟩ := hs
  have hlife := life_step hi h
  have hforeign : a.isTask = false → s'.task = s.task :=
    fun ha => foreign_alive ha hi (by rw [ht]; nofun) h
  cases a with
  | task i =>
      change taskStep i s = some s' at h
      cases i <;> simp only [taskStep, ht] at h <;> cases h
      exact .inl rfl
  | _ =>
      exact .inr ⟨⟨hlife, (hforeign rfl).trans ht⟩, Nat.le_refl _⟩

/-- A pass of the loop is over within its bound. -/
theorem pass_ends {s : Sys} (hr : client.Reach anyStep s)
    (ht : s.task = .cmd 0 0) :
    client.Within Act.isTask passBound
      (fun s => s.task.closing = true) s := by
  have hpass : InPass (nacks s.log) s :=
    ⟨life_of_reach hr, ledgerInv_of_reach hr, by rw [ht]; rfl,
      by rw [ht]; rfl⟩
  have hend := Within.of_measure (M := client)
    (μ := fun s => passLeft s.task) pass_step hpass
  refine hend.mono (by rw [ht]; exact Nat.le_refl _) ?_
  intro s h
  rcases h with ⟨ht, -, -⟩ | ⟨ht, -⟩
  · rw [ht]
    rfl
  · rw [ht]
    rfl

/-- From the return of `_disconnect` on the start-up ends. -/
theorem startUp_ends {s : Sys} (hr : client.Reach anyStep s)
    (ht : s.task = .reset) :
    client.Within Act.isTask (passBound + 7)
      (fun s => Dialled s ∨ GaveUp s) s := by
  have hpass : ∀ s, client.Reach anyStep s → s.task = .cmd 0 0 →
      client.Within Act.isTask (passBound + 1 + 5)
        (fun s => Dialled s ∨ GaveUp s) s := fun s hr ht =>
    (pass_ends hr ht).seq hr fun s hr hloc =>
      closing_ends (life_of_reach hr) hloc
  exact ((reset_ends hr ht).seq hr hpass).mono (by omega) fun _ h => h

/-- Inside `_disconnect` the task can start its exchange, or take the
verdict the modem's answer comes to. -/
theorem off_moves (modem : Nat → Answer) {ret : OffRet}
    {rfOff inside : Bool} {c : OffCmd} {x : Talk}
    (ht : x.sys.task = .off ret rfOff c inside) :
    ∃ i x', (dialogue modem).apply (.task i) x = some x' := by
  cases inside with
  | false => exact dialogue_go (by simp [taskStep, ht])
  | true =>
      cases c with
      | probe =>
          have hv : x.sys.hears (modem x.exchanges)
              (modem x.exchanges).probe = true := by
            simp [Sys.hears, ht]
          refine dialogue_hears hv ?_
          simp only [taskStep, ht]
          split <;> rfl
      | ath n =>
          have hv : x.sys.hears (modem x.exchanges)
              (modem x.exchanges).ath = true := by
            simp [Sys.hears, ht]
          refine dialogue_hears hv ?_
          simp only [taskStep, ht]
          split <;> rfl
      | cfun =>
          exact dialogue_hears (v := 0) (by simp [Sys.hears, ht])
            (by simp [taskStep, ht])

/-- A task that is alive has a step. -/
theorem task_moves (modem : Nat → Answer) {x : Talk}
    (halive : x.sys.task ≠ .dead) :
    ∃ i x', (dialogue modem).apply (.task i) x = some x' := by
  cases ht : x.sys.task with
  | dead => exact absurd ht halive
  | off ret rfOff c inside => exact off_moves modem ht
  | cmdWait iter nfail =>
      exact dialogue_hears (v := 0) (by simp [Sys.hears, ht])
        (by simp [taskStep, ht])
  | read d =>
      refine ⟨.read 0, ⟨{ x.sys with task := recvHead d }, x.exchanges⟩,
        (dialogue_apply rfl).mpr ⟨?_, rfl⟩⟩
      simp [apply, taskStep, ht]
  | setup k =>
      refine dialogue_go ?_
      simp only [taskStep, ht]
      split <;> rfl
  | cmd iter nfail =>
      refine dialogue_go ?_
      simp only [taskStep, ht]
      split
      · split <;> rfl
      · rfl
  | loopHead =>
      refine dialogue_go ?_
      simp only [taskStep, ht]
      split
      · rfl
      · split <;> rfl
  | _ => exact dialogue_go (by simp [taskStep, ht])

-- ================================================================ the trap

section

variable {modem : Nat → Answer} {ret : OffRet} {x x' : Talk}

/-- None of the answers from exchange `k` on ends the loop in front of
which `c` stands. -/
def Unheard (modem : Nat → Answer) (k : Nat) : OffCmd → Prop
  | .probe => ¬ Answers modem k
  | .ath _ => ∀ d, (modem (k + d)).ath = 0
  | .cfun => False

/-- Inside `_disconnect`, and no way out. -/
structure Deaf (modem : Nat → Answer) (ret : OffRet) (x : Talk) :
    Prop where
  life : Life x.sys
  loc : ∃ rfOff c inside, x.sys.task = .off ret rfOff c inside ∧
    Unheard modem x.exchanges c

/-- Whatever the verdict, the next exchange is another `ATH`. -/
theorem unheard_next {rfOff : Bool} {c : OffCmd} {v : Nat}
    (ht : x.sys.task = .off ret rfOff c true)
    (hno : Unheard modem x.exchanges c)
    (hv : x.sys.hears (modem x.exchanges) v = true) :
    ∃ n, offNext ret rfOff v c = .off ret rfOff (.ath n) false ∧
      Unheard modem (x.exchanges + 1) (.ath n) := by
  cases c with
  | probe =>
      obtain rfl : v = (modem x.exchanges).probe := by
        simpa [Sys.hears, ht] using hv
      obtain ⟨hprobe, hath⟩ := not_or.mp hno
      exact ⟨0, if_neg hprobe, fun d => not_not.mp (not_exists.mp hath d)⟩
  | ath m =>
      obtain rfl : v = (modem x.exchanges).ath := by
        simpa [Sys.hears, ht] using hv
      refine ⟨_, if_pos (hno 0), fun d => ?_⟩
      rw [Nat.add_assoc, Nat.add_comm 1 d]
      exact hno (d + 1)
  | cfun => exact absurd hno id

/-- No step leads out of the trap. -/
theorem deaf_step {a : Act} (hi : Deaf modem ret x)
    (h : (dialogue modem).apply a x = some x') : Deaf modem ret x' := by
  have hlife := life_step hi.life (dialogue_sys _ _ _ h)
  obtain ⟨rfOff, c, inside, ht, hno⟩ := hi.loc
  have hforeign : a.isTask = false → Deaf modem ret x' := by
    intro ha
    obtain ⟨ht', hk⟩ := talk_foreign ha hi.life (by rw [ht]; nofun) h
    exact ⟨hlife, rfOff, c, inside, ht'.trans ht, hk ▸ hno⟩
  cases a with
  | task i =>
      rcases talk_cases ht h with
        ⟨-, rfl, hk, ht'⟩ | ⟨v, -, rfl, hk, hv, ht'⟩
      · exact ⟨hlife, rfOff, c, true, ht', hk ▸ hno⟩
      · obtain ⟨n, hnext, hno'⟩ := unheard_next ht hno hv
        exact ⟨hlife, rfOff, .ath n, false, ht'.trans hnext, hk ▸ hno'⟩
  | _ => exact hforeign rfl

/-- An exchange that has begun ends. -/
theorem off_answers (modem : Nat → Answer) {rfOff : Bool} {c : OffCmd}
    (ht : x.sys.task = .off ret rfOff c true) :
    ∃ i x', (dialogue modem).apply (.task i) x = some x' ∧
      Act.isAnswer (.task i) = true := by
  obtain ⟨i, x', h⟩ := off_moves modem ht
  rcases talk_cases ht h with ⟨-, hin, -⟩ | ⟨v, hans, -⟩
  · cases hin
  · exact ⟨i, x', h, hans⟩

/-- And the exchanges go on in it. -/
theorem deaf_moves (hi : Deaf modem ret x) :
    ∃ acts x', (dialogue modem).run anyStep x acts = some x' ∧
      0 < acts.countP Act.isAnswer := by
  obtain ⟨rfOff, c, inside, ht, -⟩ := hi.loc
  cases inside with
  | true =>
      obtain ⟨i, x', h, hans⟩ := off_answers modem ht
      exact ⟨[.task i], x', run_cons.mpr ⟨x', h, rfl⟩, by simp [hans]⟩
  | false =>
      -- the exchange has yet to begin
      obtain ⟨i, x₁, h₁⟩ := off_moves modem ht
      rcases talk_cases ht h₁ with ⟨-, -, -, ht₁⟩ | ⟨v, -, hin, -⟩
      · obtain ⟨j, x₂, h₂, hans⟩ := off_answers modem ht₁
        exact ⟨[.task i, .task j], x₂, run_cons.mpr ⟨x₁, h₁,
          run_cons.mpr ⟨x₂, h₂, rfl⟩⟩, by simp [hans]⟩
      · cases hin

/-- A modem that gives no such answer never lets the call return. -/
theorem deaf_never (hi : Deaf modem ret x) (n : Nat) :
    ¬ (dialogue modem).Within Act.isAnswer n
      (fun x' => x'.sys.task = ret.loc) x := by
  refine not_within (D := Deaf modem ret) (fun _ _ _ => deaf_step)
    (fun _ => deaf_moves) (fun x' hi' hret => ?_) hi n
  obtain ⟨rfOff, c, inside, ht, -⟩ := hi'.loc
  rw [ht] at hret
  cases ret <;> cases hret

end

-- ================================================================ the result

section

variable {modem : Nat → Answer} {ret : OffRet} {rfOff : Bool} {x : Talk}

/-- The system under a modem is in no state that it could not be in without
one. -/
theorem reach_sys (h : (dialogue modem).Reach anyStep x) :
    client.Reach anyStep x.sys :=
  h.image (f := Talk.sys) rfl dialogue_sys

/-- At its call `_disconnect` has as many exchanges left as the modem
lets pass before it answers. -/
theorem hanging_of_answers (hi : Life x.sys)
    (ht : x.sys.task = .off ret rfOff .probe false)
    (h : Answers modem x.exchanges) :
    ∃ n, Hanging modem ret n false x := by
  rcases h with hprobe | ⟨d, hd⟩
  · exact ⟨2, hi, rfOff, .probe, ht, .inl ⟨hprobe, Nat.le_refl 2⟩⟩
  · exact ⟨d + 3, hi, rfOff, .probe, ht, .inr ⟨d, hd, Nat.le_refl _⟩⟩

/-- Without an answer the law fails at the call. -/
theorem answers_of_law (hi : Life x.sys)
    (ht : x.sys.task = .off ret rfOff .probe false)
    (h : DisconnectLaw modem ret x) : Answers modem x.exchanges := by
  by_contra hno
  obtain ⟨n, hn⟩ := h.returns
  exact deaf_never ⟨hi, rfOff, .probe, false, ht, hno⟩ n hn

/-- `_disconnect` returns, and the start-up it opens ends, exactly with the
modems that answer it at some time.

The condition is about the answers from this exchange on, of which there
are infinitely many; so it can be neither tested nor forced by the code,
and the call has no bound that does not depend on the modem. -/
theorem disconnect_iff (hr : (dialogue modem).Reach anyStep x)
    (ht : x.sys.task = .off ret rfOff .probe false) :
    DisconnectLaw modem ret x ↔ Answers modem x.exchanges := by
  have hlife := life_of_reach (reach_sys hr)
  refine ⟨answers_of_law hlife ht, fun h => ?_⟩
  obtain ⟨n, hi⟩ := hanging_of_answers hlife ht h
  refine ⟨⟨n, hanging_returns hi⟩, fun _ _ _ => task_moves modem, ?_⟩
  intro h
  subst h
  -- behind the call the modem no longer matters
  exact ⟨_, (hanging_steps hi).seq hr fun x₁ hr₁ ht₁ =>
    (startUp_ends (reach_sys hr₁) ht₁).lift dialogue_sys⟩

end

-- ============================================================ at the boot

/-- The start-up call, the modem not asked anything yet. -/
theorem bootCall_reach (modem : Nat → Answer) :
    ∃ x, (dialogue modem).Reach anyStep x ∧
      x.sys.task = .off .boot true .probe false ∧ x.exchanges = 0 := by
  have hrun : ∃ x, (dialogue modem).run anyStep (dialogue modem).init
      ([.init .call, .init (.make true)] ++ List.replicate 8 (.task .go))
        = some x ∧ x.sys.task = .off .boot true .probe false ∧
      x.exchanges = 0 := ⟨_, rfl, rfl, rfl⟩
  obtain ⟨x, hx, ht, hk⟩ := hrun
  exact ⟨x, reach_run hx, ht, hk⟩

/-- A modem that always says the same, and nothing that is understood. -/
theorem refused_fails {a : Answer} (hprobe : a.probe ≠ 1)
    (hath : a.ath = 0) :
    ∃ x, (dialogue fun _ => a).Reach anyStep x ∧
      x.sys.task = .off .boot true .probe false ∧
      ¬ DisconnectLaw (fun _ => a) .boot x := by
  obtain ⟨x, hr, ht, -⟩ := bootCall_reach fun _ => a
  refine ⟨x, hr, ht, fun hlaw => ?_⟩
  rcases answers_of_law (life_of_reach (reach_sys hr)) ht hlaw with
    h | ⟨d, hd⟩
  · exact hprobe h
  · exact hd hath

/-- No answer at all. -/
def silent : Answer := ⟨[], []⟩

/-- `ERROR`, in one read. -/
def refusal : Answer := ⟨[bytes "\r\nERROR\r\n", []], []⟩

/-- With a modem that is switched off, and with one that answers `ERROR`
to everything, the start-up never gets past `_disconnect(1)`. -/
theorem disconnect_fails :
    (∃ x, (dialogue fun _ => silent).Reach anyStep x ∧
      x.sys.task = .off .boot true .probe false ∧
      ¬ DisconnectLaw (fun _ => silent) .boot x) ∧
    ∃ x, (dialogue fun _ => refusal).Reach anyStep x ∧
      x.sys.task = .off .boot true .probe false ∧
      ¬ DisconnectLaw (fun _ => refusal) .boot x :=
  ⟨refused_fails (by decide) (by decide),
    refused_fails (by decide) (by decide)⟩

/-- `OK` to the second `ATH`, after silence, is enough. -/
theorem disconnect_second :
    ∃ x, (dialogue fun k => if k = 2 then ⟨[bytes "OK", []], []⟩
        else silent).Reach anyStep x ∧
      x.sys.task = .off .boot true .probe false ∧
      DisconnectLaw (fun k => if k = 2 then ⟨[bytes "OK", []], []⟩
        else silent) .boot x := by
  obtain ⟨x, hr, ht, hk⟩ := bootCall_reach fun k =>
    if k = 2 then ⟨[bytes "OK", []], []⟩ else silent
  refine ⟨x, hr, ht, (disconnect_iff hr ht).mpr (.inr ⟨1, ?_⟩)⟩
  rw [hk]
  decide

end ShZ001.Gsm
