/-
At most one client task, at most one mutex, and no mutex given that was
not taken (libGSM.c 720–755).

# Test, then act

`ppposInit` tests and then acts, three times over: it looks for the
mutex before it creates one, looks at the flag before it creates a task,
and looks for the mutex once for the take and once for the give. Nothing
holds the system still in between. In `Spawn.lean` every access to a
shared variable is a step of its own, so that any number of callers may
come between a test and its act.

# The condition

`Orderly` says, of each of these, that nothing came in between, and that
no take has timed out. It is a condition on the state before the step of
the caller.

# The law

`single_of_orderly` is the law over the runs whose steps are orderly.
`CrewInv` carries it: who is on the way to create a task is alone and
finds none, who is about to store a mutex finds none stored, and who
waits for or holds a mutex waits for or holds the one there is. One
lemma for each kind of step (`moved`, `goto`, `take`, `give`, `store`,
`spawn`) says what it asks of its caller; the locations of `ppposInit`
are then gone through with these. `single_fails` is two callers and a
quick interleaving.
-/
import ShZ001.Lib.History
import ShZ001.Gsm.Spawn

namespace ShZ001.Gsm

open Lib Machine

-- ================================================================== the law

/-- The task exists. -/
def TaskLoc.alive : TaskLoc → Bool
  | .absent => false
  | .deleted => false
  | _ => true

/-- The caller has taken the mutex, and has not given it since. -/
def TookIt (c m : Nat) : List CrewEv → Prop
  | [] => False
  | e :: past =>
      e = .took (.caller c) m ∨
        e ≠ .gave (.caller c) m ∧ TookIt c m past

/-- A caller gives only what it took. -/
def Rightful : CrewEv → List CrewEv → Prop
  | .gave (.caller c) m, past => TookIt c m past
  | _, _ => True

structure Single (s : Crew) : Prop where
  task : ∀ t t', (s.tasks t).alive = true → (s.tasks t').alive = true → t = t'
  mutex : ∀ m m', .stored m ∈ s.log → .stored m' ∈ s.log → m = m'
  gives : Always Rightful s.log

/-- On its way to create a task: the flag was down. -/
def CallLoc.onWay : CallLoc → Bool
  | .giveTest _ false => true
  | .give false => true
  | .makeTest => true
  | .make => true
  | .store _ => true
  | .nullTest => true
  | .spawn => true
  | _ => false

/-- A caller sees the flag down only while there is no task and nobody
else is about to create one; it passes the second test of the pointer
without a take only if that comes out as the first; and its takes are
granted. -/
def OrderlyAt (s : Crew) (i : CrewIn) : CallLoc → Prop
  | .sample _ => s.ppposTaskStarted = false →
      (∀ t, (s.tasks t).alive = false) ∧ ∀ d, (s.calls d).onWay = false
  | .giveTest false _ => s.ppposMutex = none
  | .takeBlocked _ => i ≠ .timeOut
  | .wait _ (.blocked _) => i ≠ .timeOut
  | _ => True

/-- The condition on the step. -/
def Orderly (s : Crew) : CrewAct → Prop
  | .caller c i => OrderlyAt s i (s.calls c)
  | _ => True

-- ============================================================ the invariant

/-- About to create a mutex, or to store it. -/
def CallLoc.makes : CallLoc → Bool
  | .make => true
  | .store _ => true
  | _ => false

/-- The mutex a caller waits for. -/
def CallLoc.waitsFor : CallLoc → Option Nat
  | .takeBlocked m => some m
  | .wait _ (.blocked m) => some m
  | _ => none

/-- Between a take and its give. -/
def CallLoc.holding : CallLoc → Bool
  | .sample true => true
  | .giveTest true _ => true
  | .give _ => true
  | .wait _ .inside => true
  | .wait _ (.give _ _) => true
  | _ => false

/-- What a caller waits for or holds is the mutex there is. -/
structure Fine (mutex : Option Nat) (log : List CrewEv) (c : Nat)
    (loc : CallLoc) : Prop where
  waitsFor : ∀ m, loc.waitsFor = some m → mutex = some m
  holding : loc.holding = true → ∃ m, mutex = some m ∧ TookIt c m log

structure CrewInv (s : Crew) : Prop where
  way : ∀ c d, (s.calls c).onWay = true → (s.calls d).onWay = true → c = d
  idle : ∀ c t, (s.calls c).onWay = true → (s.tasks t).alive = false
  one : ∀ t t', (s.tasks t).alive = true → (s.tasks t').alive = true → t = t'
  makes : ∀ c, (s.calls c).makes = true → s.ppposMutex = none
  stored : ∀ m, .stored m ∈ s.log → s.ppposMutex = some m
  fine : ∀ c, Fine s.ppposMutex s.log c (s.calls c)
  gives : Always Rightful s.log

theorem crewInv_boot : CrewInv Crew.boot :=
  ⟨nofun, nofun, nofun, nofun, nofun, fun _ => ⟨nofun, nofun⟩, trivial⟩

/-- Entries of other threads do not take a mutex away. -/
theorem TookIt.mono {c m : Nat} {l log : List CrewEv}
    (hes : .gave (.caller c) m ∉ l) (h : TookIt c m log) :
    TookIt c m (l ++ log) := by
  induction l with
  | nil => exact h
  | cons e l ih =>
      obtain ⟨he, hes⟩ := not_or.mp (fun h => hes (List.mem_cons.mpr h))
      exact .inr ⟨Ne.symm he, ih hes⟩

/-- Takes and gives store no mutex. -/
theorem stored_append {th : Thread} {m : Nat} {l log : List CrewEv}
    (hes : ∀ e ∈ l, ∃ m, e = .took th m ∨ e = .gave th m)
    (hm : .stored m ∈ l ++ log) : .stored m ∈ log := by
  refine (List.mem_append.mp hm).resolve_left fun hm => ?_
  obtain ⟨_, h | h⟩ := hes _ hm <;> cases h

/-- A step of a caller that creates nothing. -/
theorem CrewInv.moved {c : Nat} {loc : CallLoc} {s s' : Crew}
    (hi : CrewInv s) (hcalls : s'.calls = Function.update s.calls c loc)
    (hmutex : s'.ppposMutex = s.ppposMutex) (htasks : s'.tasks = s.tasks)
    {l : List CrewEv} (hlog : s'.log = l ++ s.log)
    (hes : ∀ e ∈ l, ∃ m, e = .took (.caller c) m ∨ e = .gave (.caller c) m)
    (hgives : Always Rightful s'.log)
    (hway : loc.onWay = true → (s.calls c).onWay = true ∨
      (∀ t, (s.tasks t).alive = false) ∧ ∀ d, (s.calls d).onWay = false)
    (hmakes : loc.makes = true → s.ppposMutex = none)
    (hfine : Fine s.ppposMutex s'.log c loc) : CrewInv s' := by
  have hself : s'.calls c = loc := by rw [hcalls, Function.update_self]
  have hother : ∀ d, d ≠ c → s'.calls d = s.calls d := fun d hd => by
    rw [hcalls, Function.update_of_ne hd]
  -- nobody else is on its way when this one is
  have halone : loc.onWay = true → ∀ d, d ≠ c → (s.calls d).onWay = false := by
    intro hl d hd
    rcases hway hl with hon | ⟨-, hnone⟩
    · refine Bool.eq_false_iff.mpr fun hdon => hd ?_
      exact hi.way d c hdon hon
    · exact hnone d
  refine ⟨?_, ?_, ?_, ?_, ?_, ?_, hgives⟩
  · intro a b ha hb
    by_cases hac : a = c
    · by_cases hbc : b = c
      · rw [hac, hbc]
      · rw [hac, hself] at ha
        rw [hother b hbc, halone ha b hbc] at hb
        cases hb
    · by_cases hbc : b = c
      · rw [hbc, hself] at hb
        rw [hother a hac, halone hb a hac] at ha
        cases ha
      · rw [hother a hac] at ha
        rw [hother b hbc] at hb
        exact hi.way a b ha hb
  · intro a t ha
    rw [htasks]
    by_cases hac : a = c
    · rw [hac, hself] at ha
      rcases hway ha with hon | ⟨hnone, -⟩
      · exact hi.idle c t hon
      · exact hnone t
    · rw [hother a hac] at ha
      exact hi.idle a t ha
  · rw [htasks]
    exact hi.one
  · intro a ha
    rw [hmutex]
    by_cases hac : a = c
    · rw [hac, hself] at ha
      exact hmakes ha
    · rw [hother a hac] at ha
      exact hi.makes a ha
  · intro m hm
    rw [hmutex]
    rw [hlog] at hm
    exact hi.stored m (stored_append hes hm)
  · intro a
    rw [hmutex]
    by_cases hac : a = c
    · rw [hac, hself]
      exact hfine
    · obtain ⟨hwaits, hholds⟩ := hi.fine a
      rw [hother a hac]
      refine ⟨hwaits, fun h => ?_⟩
      obtain ⟨m, hm, htook⟩ := hholds h
      refine ⟨m, hm, ?_⟩
      rw [hlog]
      refine htook.mono fun hmem => ?_
      obtain ⟨_, h | h⟩ := hes _ hmem
      · cases h
      · cases h
        exact hac rfl

/-- A location at which a caller neither waits nor holds. -/
theorem fine_free {mutex : Option Nat} {log : List CrewEv} {c : Nat}
    {loc : CallLoc} (hwaits : loc.waitsFor = none)
    (hholds : loc.holding = false) : Fine mutex log c loc := by
  refine ⟨fun m hm => ?_, fun h => ?_⟩
  · rw [hwaits] at hm
    cases hm
  · rw [hholds] at h
    cases h

/-- A step of a caller that takes and gives nothing either. -/
theorem CrewInv.goto {c : Nat} {loc : CallLoc} {s : Crew} (hi : CrewInv s)
    (hway : loc.onWay = true → (s.calls c).onWay = true)
    (hmakes : loc.makes = true → s.ppposMutex = none)
    (hfine : Fine s.ppposMutex s.log c loc) : CrewInv (s.goto c loc) :=
  hi.moved (l := []) rfl rfl rfl rfl nofun hi.gives
    (fun h => .inl (hway h)) hmakes hfine

/-- A take that is granted. -/
theorem CrewInv.take {c m : Nat} {loc : CallLoc} {s s' : Crew}
    (hi : CrewInv s) (hm : s.ppposMutex = some m)
    (htake : xSemaphoreTake (.caller c) m s = some s')
    (hway : loc.onWay = false) (hmakes : loc.makes = false)
    (hwaits : loc.waitsFor = none) : CrewInv (s'.goto c loc) := by
  unfold xSemaphoreTake at htake
  split at htake
  case isFalse => cases htake
  case isTrue =>
      cases htake
      refine hi.moved (l := [.took (.caller c) m]) rfl rfl rfl rfl ?_
        (always_cons.mpr ⟨trivial, hi.gives⟩) ?_ ?_ ⟨?_, ?_⟩
      · intro e he
        exact ⟨m, .inl (List.mem_singleton.mp he)⟩
      · rw [hway]
        nofun
      · rw [hmakes]
        nofun
      · rw [hwaits]
        nofun
      · exact fun _ => ⟨m, hm, .inl rfl⟩

/-- A give by a caller that holds. -/
theorem CrewInv.give {c m : Nat} {loc : CallLoc} {s : Crew} (hi : CrewInv s)
    (hm : s.ppposMutex = some m) (hholds : (s.calls c).holding = true)
    (hway : loc.onWay = true → (s.calls c).onWay = true)
    (hmakes : loc.makes = false) (hwaits : loc.waitsFor = none)
    (hfree : loc.holding = false) :
    CrewInv ((xSemaphoreGive (.caller c) m s).goto c loc) := by
  obtain ⟨m', hm', htook⟩ := (hi.fine c).holding hholds
  rw [hm] at hm'
  cases hm'
  refine hi.moved (l := [.gave (.caller c) m]) rfl rfl rfl rfl ?_
    (always_cons.mpr ⟨htook, hi.gives⟩) (fun h => .inl (hway h)) ?_
    (fine_free hwaits hfree)
  · intro e he
    exact ⟨m, .inr (List.mem_singleton.mp he)⟩
  · rw [hmakes]
    nofun

/-- The store of what `xSemaphoreCreateMutex` returned. -/
theorem CrewInv.store {c : Nat} {m : Option Nat} {s : Crew} (hi : CrewInv s)
    (hloc : s.calls c = .store m) :
    CrewInv ({ s with
      ppposMutex := m
      log := (m.map CrewEv.stored).toList ++ s.log }.goto c .nullTest) := by
  have hnone : s.ppposMutex = none := hi.makes c (by rw [hloc]; rfl)
  have hon : (s.calls c).onWay = true := by rw [hloc]; rfl
  -- without a mutex nobody waits for one or holds one
  have hwaits : ∀ d, (s.calls d).waitsFor = none := by
    intro d
    refine Option.eq_none_iff_forall_not_mem.mpr fun n hn => ?_
    have hsome := (hi.fine d).waitsFor n hn
    rw [hnone] at hsome
    cases hsome
  have hholds : ∀ d, (s.calls d).holding = false := by
    intro d
    refine Bool.eq_false_iff.mpr fun h => ?_
    obtain ⟨n, hn, -⟩ := (hi.fine d).holding h
    rw [hnone] at hn
    cases hn
  have hself : Function.update s.calls c CallLoc.nullTest c = .nullTest :=
    Function.update_self ..
  have hother : ∀ d, d ≠ c →
      Function.update s.calls c CallLoc.nullTest d = s.calls d :=
    fun d hd => Function.update_of_ne hd ..
  refine ⟨?_, ?_, hi.one, ?_, ?_, ?_, ?_⟩
  · intro a b ha hb
    have hto : ∀ d,
        (Function.update s.calls c CallLoc.nullTest d).onWay = true →
        d = c := by
      intro d hd
      by_contra hdc
      rw [hother d hdc] at hd
      exact hdc (hi.way d c hd hon)
    rw [hto a ha, hto b hb]
  · intro a t _
    exact hi.idle c t hon
  · intro a ha
    by_cases hac : a = c
    · change (Function.update s.calls c CallLoc.nullTest a).makes = true at ha
      rw [hac, hself] at ha
      cases ha
    · change (Function.update s.calls c CallLoc.nullTest a).makes = true at ha
      rw [hother a hac] at ha
      have hway : (s.calls a).onWay = true := by
        cases hl : s.calls a with
        | make => rfl
        | store _ => rfl
        | _ =>
            rw [hl] at ha
            cases ha
      exact absurd (hi.way a c hway hon) hac
  · intro n hn
    have hold : CrewEv.stored n ∉ s.log := by
      intro h
      have hsome := hi.stored n h
      rw [hnone] at hsome
      cases hsome
    change CrewEv.stored n ∈ (m.map CrewEv.stored).toList ++ s.log at hn
    rw [List.mem_append] at hn
    have hn := hn.resolve_right hold
    cases m with
    | none => cases hn
    | some m =>
        cases List.mem_singleton.mp hn
        rfl
  · intro a
    by_cases hac : a = c
    · show Fine _ _ a (Function.update s.calls c CallLoc.nullTest a)
      rw [hac, hself]
      exact fine_free rfl rfl
    · show Fine _ _ a (Function.update s.calls c CallLoc.nullTest a)
      rw [hother a hac]
      exact fine_free (hwaits a) (hholds a)
  · refine always_append ?_ hi.gives
    intro e he past
    cases m with
    | none => cases he
    | some m =>
        cases List.mem_singleton.mp he
        trivial

/-- `xTaskCreate`. -/
theorem CrewInv.spawn {c : Nat} {s : Crew} (hi : CrewInv s)
    (hloc : s.calls c = .spawn) :
    CrewInv ({ s with
      nextTask := s.nextTask + 1
      tasks := Function.update s.tasks s.nextTask (.raise .load)
    }.goto c (.wait false .load)) := by
  have hon : (s.calls c).onWay = true := by rw [hloc]; rfl
  have hself : Function.update s.calls c (CallLoc.wait false .load) c
      = .wait false .load := Function.update_self ..
  have hother : ∀ d, d ≠ c →
      Function.update s.calls c (CallLoc.wait false .load) d = s.calls d :=
    fun d hd => Function.update_of_ne hd ..
  -- the one on its way has arrived
  have hnone : ∀ d, (Function.update s.calls c
      (CallLoc.wait false .load) d).onWay = false := by
    intro d
    by_cases hdc : d = c
    · rw [hdc, hself]
      rfl
    · rw [hother d hdc]
      exact Bool.eq_false_iff.mpr fun hd => hdc (hi.way d c hd hon)
  have honly : ∀ t, (Function.update s.tasks s.nextTask
      (TaskLoc.raise .load) t).alive = true → t = s.nextTask := by
    intro t ht
    by_contra hne
    rw [Function.update_of_ne hne, hi.idle c t hon] at ht
    cases ht
  refine ⟨?_, ?_, ?_, ?_, hi.stored, ?_, hi.gives⟩
  · intro a b ha _
    have := hnone a
    exact absurd ha (by simpa [Crew.goto] using this)
  · intro a t ha
    have := hnone a
    exact absurd ha (by simpa [Crew.goto] using this)
  · intro t t' ht ht'
    rw [honly t ht, honly t' ht']
  · intro a ha
    by_cases hac : a = c
    · change (Function.update s.calls c (CallLoc.wait false .load) a).makes
        = true at ha
      rw [hac, hself] at ha
      cases ha
    · change (Function.update s.calls c (CallLoc.wait false .load) a).makes
        = true at ha
      rw [hother a hac] at ha
      exact hi.makes a ha
  · intro a
    show Fine _ _ a (Function.update s.calls c (CallLoc.wait false .load) a)
    by_cases hac : a = c
    · rw [hac, hself]
      exact fine_free rfl rfl
    · rw [hother a hac]
      exact hi.fine a

/-- A step of a task that exists. -/
theorem CrewInv.taskMoved {t : Nat} {loc : TaskLoc} {s s' : Crew}
    (hi : CrewInv s) (hlive : (s.tasks t).alive = true)
    (hcalls : s'.calls = s.calls) (hmutex : s'.ppposMutex = s.ppposMutex)
    (htasks : s'.tasks = Function.update s.tasks t loc)
    {l : List CrewEv} (hlog : s'.log = l ++ s.log)
    (hes : ∀ e ∈ l, ∃ m, e = .took (.task t) m ∨ e = .gave (.task t) m) :
    CrewInv s' := by
  have hnone : ∀ c, (s.calls c).onWay = false := by
    intro c
    refine Bool.eq_false_iff.mpr fun hc => ?_
    rw [hi.idle c t hc] at hlive
    cases hlive
  have honly : ∀ t', (s'.tasks t').alive = true → t' = t := by
    intro t' ht'
    by_contra hne
    rw [htasks, Function.update_of_ne hne] at ht'
    exact hne (hi.one t' t ht' hlive)
  refine ⟨?_, ?_, ?_, ?_, ?_, ?_, ?_⟩
  · rw [hcalls]
    exact hi.way
  · intro c t' hc
    rw [hcalls, hnone c] at hc
    cases hc
  · intro a b ha hb
    rw [honly a ha, honly b hb]
  · rw [hcalls, hmutex]
    exact hi.makes
  · intro m hm
    rw [hmutex]
    rw [hlog] at hm
    exact hi.stored m (stored_append hes hm)
  · intro c
    obtain ⟨hwaits, hholds⟩ := hi.fine c
    rw [hcalls, hmutex]
    refine ⟨hwaits, fun h => ?_⟩
    obtain ⟨m, hm, htook⟩ := hholds h
    refine ⟨m, hm, ?_⟩
    rw [hlog]
    refine htook.mono fun hmem => ?_
    obtain ⟨_, h | h⟩ := hes _ hmem <;> cases h
  · rw [hlog]
    refine always_append ?_ hi.gives
    intro e he past
    obtain ⟨m, rfl | rfl⟩ := hes e he
    · trivial
    · trivial

-- =================================================================== steps

/-- The two polling loops of `ppposInit` look at the flag under the mutex.
-/
theorem crewInv_poll {c : Nat} {i : CrewIn} {up : Bool} {x : Poll}
    {s s' : Crew} (hi : CrewInv s) (hloc : s.calls c = .wait up x)
    (hok : Orderly s (.caller c i)) (h : pollStep c i up s x = some s') :
    CrewInv s' := by
  have hfine := hi.fine c
  change OrderlyAt s i (s.calls c) at hok
  rw [hloc] at hfine hok
  cases x with
  | load =>
      obtain ⟨m, hm, rfl⟩ := Option.map_eq_some_iff.mp h
      refine hi.goto nofun nofun ⟨fun n hn => ?_, nofun⟩
      rw [hm]
      exact hn
  | blocked m =>
      obtain ⟨s₁, htake, rfl⟩ := Option.map_eq_some_iff.mp h
      unfold takeStep at htake
      rw [if_neg hok] at htake
      exact hi.take (hfine.waitsFor m rfl) htake rfl rfl rfl
  | inside =>
      cases h
      exact hi.goto nofun nofun ⟨nofun, fun _ => hfine.holding rfl⟩
  | give taskS connected =>
      obtain ⟨m, hm, rfl⟩ := Option.map_eq_some_iff.mp h
      have hnext : (afterPoll up taskS connected).onWay = false ∧
          (afterPoll up taskS connected).makes = false ∧
          (afterPoll up taskS connected).waitsFor = none ∧
          (afterPoll up taskS connected).holding = false := by
        cases up <;> cases taskS <;> cases connected <;> decide
      obtain ⟨hway, hmakes, hwaits, hholds⟩ := hnext
      refine hi.give hm (by rw [hloc]; rfl) ?_ hmakes hwaits hholds
      rw [hway]
      nofun

/-- The steps of a caller, location by location. -/
theorem crewInv_caller {c : Nat} {i : CrewIn} {s s' : Crew}
    (hi : CrewInv s) (hok : Orderly s (.caller c i))
    (h : callerStep c i s = some s') : CrewInv s' := by
  have hfine := hi.fine c
  have hok' := hok
  change OrderlyAt s i (s.calls c) at hok
  unfold callerStep at h
  cases hloc : s.calls c with
  | outside =>
      rw [hloc] at h
      cases h
  | takeTest =>
      rw [hloc] at h
      cases h
      split
      · exact hi.goto nofun nofun (fine_free rfl rfl)
      · exact hi.goto nofun nofun (fine_free rfl rfl)
  | takeLoad =>
      rw [hloc] at h
      obtain ⟨m, hm, rfl⟩ := Option.map_eq_some_iff.mp h
      refine hi.goto nofun nofun ⟨fun n hn => ?_, nofun⟩
      rw [hm]
      exact hn
  | takeBlocked m =>
      rw [hloc] at h hok hfine
      obtain ⟨s₁, htake, rfl⟩ := Option.map_eq_some_iff.mp h
      unfold takeStep at htake
      rw [if_neg hok] at htake
      exact hi.take (hfine.waitsFor m rfl) htake rfl rfl rfl
  | sample tested =>
      rw [hloc] at h hok hfine
      cases h
      refine hi.moved (l := []) rfl rfl rfl rfl nofun hi.gives ?_ nofun
        ⟨nofun, ?_⟩
      · intro hway
        refine .inr (hok ?_)
        cases hflag : s.ppposTaskStarted with
        | false => rfl
        | true =>
            rw [hflag] at hway
            cases tested <;> cases hway
      · intro hholds
        cases tested with
        | false => cases hholds
        | true => exact hfine.holding rfl
  | giveTest tested taskS =>
      rw [hloc] at h hok hfine
      cases h
      split
      case isTrue hnone =>
          refine hi.goto ?_ ?_ ?_
          · intro hway
            rw [hloc]
            cases taskS with
            | false => cases tested <;> rfl
            | true => cases hway
          · exact fun _ => hnone
          · cases taskS <;> exact fine_free rfl rfl
      case isFalse hsome =>
          cases tested with
          | false => exact absurd hok hsome
          | true =>
              refine hi.goto ?_ nofun ⟨nofun, fun _ => hfine.holding rfl⟩
              intro hway
              rw [hloc]
              cases taskS with
              | false => rfl
              | true => cases hway
  | give taskS =>
      rw [hloc] at h
      obtain ⟨m, hm, rfl⟩ := Option.map_eq_some_iff.mp h
      refine hi.give hm (by rw [hloc]; rfl) ?_ ?_ ?_ ?_
      · intro hway
        rw [hloc]
        cases taskS with
        | false => rfl
        | true => cases hway
      · cases taskS <;> rfl
      · cases taskS <;> rfl
      · cases taskS <;> rfl
  | makeTest =>
      rw [hloc] at h
      cases h
      have hway : (s.calls c).onWay = true := by rw [hloc]; rfl
      split
      case isTrue hnone =>
          exact hi.goto (fun _ => hway) (fun _ => hnone) (fine_free rfl rfl)
      case isFalse =>
          exact hi.goto (fun _ => hway) nofun (fine_free rfl rfl)
  | make =>
      rw [hloc] at h
      have hway : (s.calls c).onWay = true := by rw [hloc]; rfl
      have hnone := hi.makes c (by rw [hloc]; rfl)
      dsimp only at h
      split at h
      · cases h
        exact hi.goto (fun _ => hway) (fun _ => hnone) (fine_free rfl rfl)
      · cases h
        exact hi.moved (l := []) rfl rfl rfl rfl nofun hi.gives
          (fun _ => .inl hway) (fun _ => hnone) (fine_free rfl rfl)
  | store m =>
      rw [hloc] at h
      cases h
      exact hi.store hloc
  | nullTest =>
      rw [hloc] at h
      cases h
      have hway : (s.calls c).onWay = true := by rw [hloc]; rfl
      split
      · exact hi.goto (fun _ => hway) nofun (fine_free rfl rfl)
      · exact hi.goto (fun _ => hway) nofun (fine_free rfl rfl)
  | spawn =>
      rw [hloc] at h
      dsimp only at h
      split at h
      · cases h
        exact hi.goto nofun nofun (fine_free rfl rfl)
      · cases h
        exact hi.spawn hloc
  | wait up x =>
      rw [hloc] at h
      exact crewInv_poll hi hloc hok' h

/-- A step of a critical section of a task. -/
theorem crewInv_section {t : Nat} {i : CrewIn} {at' : Section → TaskLoc}
    {body : Crew → Crew} {next : TaskLoc} {x : Section} {s s' : Crew}
    (hi : CrewInv s) (hlive : (s.tasks t).alive = true)
    (hbody : (body s).calls = s.calls ∧
      (body s).ppposMutex = s.ppposMutex ∧ (body s).tasks = s.tasks ∧
      (body s).log = s.log)
    (h : sectionStep t i at' body next s x = some s') : CrewInv s' := by
  cases x with
  | load =>
      obtain ⟨m, -, rfl⟩ := Option.map_eq_some_iff.mp h
      exact hi.taskMoved (l := []) hlive rfl rfl rfl rfl nofun
  | blocked m =>
      obtain ⟨s₁, htake, rfl⟩ := Option.map_eq_some_iff.mp h
      unfold takeStep xSemaphoreTake at htake
      split at htake
      · cases htake
        exact hi.taskMoved (l := []) hlive rfl rfl rfl rfl nofun
      · split at htake
        case isFalse => cases htake
        case isTrue =>
            cases htake
            refine hi.taskMoved (l := [.took (.task t) m]) hlive rfl rfl
              rfl rfl ?_
            intro e he
            exact ⟨m, .inl (List.mem_singleton.mp he)⟩
  | inside =>
      cases h
      obtain ⟨hcalls, hmutex, htasks, hlog⟩ := hbody
      have hgoes : Function.update (body s).tasks t (at' .give)
          = Function.update s.tasks t (at' .give) := by
        rw [htasks]
      exact hi.taskMoved (l := []) hlive hcalls hmutex hgoes hlog nofun
  | give =>
      obtain ⟨m, -, rfl⟩ := Option.map_eq_some_iff.mp h
      refine hi.taskMoved (l := [.gave (.task t) m]) hlive rfl rfl rfl rfl
        ?_
      intro e he
      exact ⟨m, .inr (List.mem_singleton.mp he)⟩

/-- A task takes and gives the mutex in critical sections, and ends. -/
theorem crewInv_task {t : Nat} {i : CrewIn} {s s' : Crew}
    (hi : CrewInv s) (h : clientStep t i s = some s') : CrewInv s' := by
  unfold clientStep at h
  cases hloc : s.tasks t with
  | absent =>
      rw [hloc] at h
      cases h
  | deleted =>
      rw [hloc] at h
      cases h
  | raise x =>
      rw [hloc] at h
      exact crewInv_section hi (by rw [hloc]; rfl) ⟨rfl, rfl, rfl, rfl⟩ h
  | use x =>
      rw [hloc] at h
      exact crewInv_section hi (by rw [hloc]; rfl) ⟨rfl, rfl, rfl, rfl⟩ h
  | lower x =>
      rw [hloc] at h
      exact crewInv_section hi (by rw [hloc]; rfl) ⟨rfl, rfl, rfl, rfl⟩ h
  | running =>
      rw [hloc] at h
      cases h
      exact hi.taskMoved (l := []) (by rw [hloc]; rfl) rfl rfl rfl rfl nofun
  | ended =>
      rw [hloc] at h
      cases h
      exact hi.taskMoved (l := []) (by rw [hloc]; rfl) rfl rfl rfl rfl nofun

theorem crewInv_step {a : CrewAct} {s s' : Crew} (hi : CrewInv s)
    (hok : Orderly s a) (h : crewApply a s = some s') : CrewInv s' := by
  cases a with
  | caller c i => exact crewInv_caller hi hok h
  | task t i => exact crewInv_task hi h
  | call c =>
      change callStep c s = some s' at h
      unfold callStep at h
      split at h
      case isFalse => cases h
      case isTrue =>
          cases h
          exact hi.goto nofun nofun (fine_free rfl rfl)

-- ================================================================== the law

/-- In orderly runs there is at most one task, at most one mutex has been
stored, and callers give what they took.

The number of callers is not bounded, and they may be anywhere in their
calls; what is asked of each is asked at its three tests only. -/
theorem single_of_orderly {s : Crew} (h : crew.Reach Orderly s) :
    Single s := by
  have hi : CrewInv s := h.invariant crewInv_boot
    fun _ _ _ hi hok happ => crewInv_step hi hok happ
  refine ⟨hi.one, fun m m' hm hm' => ?_, hi.gives⟩
  have heq := (hi.stored m hm).symm.trans (hi.stored m' hm')
  exact Option.some.inj heq

/-- Three calls before there is a mutex. Two of them create one each, and
a task each; the third finds a mutex to give. -/
def rush : List CrewAct :=
  [.call 0, .call 1, .call 2, .caller 0 .go, .caller 1 .go, .caller 2 .go,
    .caller 0 .go, .caller 1 .go, .caller 2 .go,
    .caller 0 .go, .caller 0 .go, .caller 0 .go,
    .caller 1 .go, .caller 1 .go, .caller 1 .go,
    .caller 0 .go, .caller 1 .go, .caller 2 .go, .caller 2 .go,
    .caller 0 .go, .caller 0 .go, .caller 1 .go, .caller 1 .go]

/-- Two tasks, two mutexes, and a give without a take. -/
theorem single_fails : ∃ s, crew.Reach anyStep s ∧
    ¬ (∀ t t', (s.tasks t).alive = true → (s.tasks t').alive = true →
      t = t') ∧
    ¬ (∀ m m', .stored m ∈ s.log → .stored m' ∈ s.log → m = m') ∧
    ¬ Always Rightful s.log := by
  obtain ⟨s, hr, hs⟩ := exists_reach crew anyStep rush
    (fun s => (s.tasks 0).alive = true ∧ (s.tasks 1).alive = true ∧
      s.log = [.gave (.caller 2) 1, .stored 1, .stored 0]) (by decide)
  obtain ⟨h0, h1, hlog⟩ := of_decide_eq_true hs
  refine ⟨s, hr, fun h => ?_, fun h => ?_, fun h => ?_⟩
  · exact absurd (h 0 1 h0 h1) (by decide)
  · exact absurd (h 0 1 (by simp [hlog]) (by simp [hlog])) (by decide)
  · rw [hlog] at h
    obtain ⟨hgave, -⟩ := h
    simp [Rightful, TookIt] at hgave

/-- A first call, up to the start of its task. -/
theorem single_of_orderly_first : ∃ s, crew.Reach Orderly s ∧
    s.tasks 0 = .running ∧ s.log.length = 3 ∧ Single s := by
  have h : crew.Reach Orderly crew.init := .init
  have h := Reach.step (CrewAct.call 0) h trivial rfl
  have h := Reach.step (CrewAct.caller 0 .go) h trivial rfl
  -- it sees the flag down, and everybody else is outside
  have h := Reach.step (CrewAct.caller 0 .go) h
    (fun _ => ⟨fun _ => rfl, fun d => by
      cases d with
      | zero => rfl
      | succ d => rfl⟩) rfl
  have h := Reach.step (CrewAct.caller 0 .go) h rfl rfl
  have h := Reach.step (CrewAct.caller 0 .go) h trivial rfl
  have h := Reach.step (CrewAct.caller 0 .go) h trivial rfl
  have h := Reach.step (CrewAct.caller 0 .go) h trivial rfl
  have h := Reach.step (CrewAct.caller 0 .go) h trivial rfl
  have h := Reach.step (CrewAct.caller 0 .go) h trivial rfl
  have h := Reach.step (CrewAct.task 0 .go) h trivial rfl
  have h := Reach.step (CrewAct.task 0 .go) h trivial rfl
  have h := Reach.step (CrewAct.task 0 .go) h trivial rfl
  have h := Reach.step (CrewAct.task 0 .go) h trivial rfl
  exact ⟨_, h, rfl, rfl, single_of_orderly h⟩

end ShZ001.Gsm
