/-
Threads that run code with one mutex (`Lib/Lock.lean`).

# The system

Any number of threads run against the mutex. A take is granted while
nobody holds it, or times out, and the thread goes on either way; a give
frees the mutex, whoever gives. Some calls wait until the server thread
answers, which it does between two pieces of code of its own. A thread
may start any piece of its code whenever it is through with the last
one, so a run is any interleaving of any paths.

# The invariant

`LockInv` says where each thread stands: its work is typed, the holder
is between its take and its give, the server waits for nobody and has no
call to make that would wait for itself. Threads touch each other
through the owner field alone, so a step of one thread is checked
against its own stack (`lockInv_thread`) and the owner.

# The laws

From the discipline of the code follows that the holder gets to its give
by its own steps, whatever way its branches go and without waiting for
anybody (`releases_of_reach`), and that no waits form a cycle: threads
wait for the holder or the server, the server for the holder at most,
the holder for nobody (`waitsFor_acyclic`). Neither law speaks of a fair
scheduler; both say what a thread can do if it is let.
-/
import Mathlib.Logic.Function.Basic
import Mathlib.Logic.Relation
import ShZ001.Lib.Lock
import ShZ001.Lib.Machine

namespace ShZ001.Lib.Lock

-- =================================================================== threads

/-- Threads `τ`, the code each may run, and the calls that wait for the
server. -/
structure LockSystem (τ β : Type*) where
  server : τ
  code : τ → List (Stmt β)
  waits : β → Bool

/-- Who holds the mutex, what each thread has left to do, and who waits for
an answer. -/
structure LockState (τ β : Type*) where
  owner : Option τ
  todo : τ → List (Item β)
  waiting : τ → Bool

/-- A thread starts on a piece of its code, takes a step, gets its
answer. -/
inductive LockAct (τ : Type*)
  | start (t : τ) (i : Nat)
  | step (t : τ) (c : Bool)
  | reply (t : τ)

variable {τ β : Type*} [DecidableEq τ]

/-- A step of a thread that does not wait. At a take, `c` says whether it is
granted or times out. -/
def threadStep (sys : LockSystem τ β) (t : τ) (c : Bool)
    (s : LockState τ β) : Option (LockState τ β) :=
  match next c (s.todo t) with
  | none => none
  | some (ev, k) =>
      let s' := { s with todo := Function.update s.todo t k }
      match ev with
      | none => some s'
      | some .take =>
          if c then
            if s.owner.isNone then some { s' with owner := some t } else none
          else some s'
      | some .give => some { s' with owner := none }
      | some (.call b) =>
          some { s' with
            waiting := Function.update s.waiting t (sys.waits b) }

/-- One step of one thread. A reply needs a server that is between two
pieces of its code. -/
def lockApply (sys : LockSystem τ β) :
    LockAct τ → LockState τ β → Option (LockState τ β)
  | .start t i, s =>
      match s.todo t, s.waiting t, (sys.code t)[i]? with
      | [], false, some code =>
          some { s with todo := Function.update s.todo t [.stmt code] }
      | _, _, _ => none
  | .step t c, s => if s.waiting t then none else threadStep sys t c s
  | .reply t, s =>
      match s.todo sys.server, s.waiting t with
      | [], true =>
          some { s with waiting := Function.update s.waiting t false }
      | _, _ => none

/-- The threads, nobody having started, the mutex free. -/
def LockSystem.machine (sys : LockSystem τ β) :
    Machine (LockState τ β) (LockAct τ) where
  init :=
    { owner := none
      todo := fun _ => []
      waiting := fun _ => false }
  apply := lockApply sys

/-- The thread is about to take the mutex and somebody holds it, or it
waits for the server. -/
def WaitsFor (sys : LockSystem τ β) (s : LockState τ β) (t u : τ) : Prop :=
  (s.waiting t = false ∧ (∃ k, s.todo t = .stmt .take :: k) ∧
    s.owner = some u) ∨
  (s.waiting t = true ∧ u = sys.server)

/-- The thread gets to a state in which it does not hold the mutex by its
own steps: each of them can be taken, whatever way its branches go. -/
inductive Releases (sys : LockSystem τ β) (t : τ) : LockState τ β → Prop
  | done {s} (h : s.owner ≠ some t) : Releases sys t s
  | own {s} (s' : Bool → LockState τ β)
      (happ : ∀ c, lockApply sys (.step t c) s = some (s' c))
      (hrel : ∀ c, Releases sys t (s' c)) : Releases sys t s

-- ================================================================= no calls

section

variable {β : Type*} (p : β → Bool)

/-- Every call in the code is one of these. -/
def Stmt.callsOnly : Stmt β → Bool
  | .call b => p b
  | .seq s t => s.callsOnly && t.callsOnly
  | .alt s t => s.callsOnly && t.callsOnly
  | .loop s => s.callsOnly
  | .scope s => s.callsOnly
  | .take => true
  | .give => true
  | .work => true
  | .brk => true
  | .exit => true

def Item.callsOnly : Item β → Bool
  | .stmt s => s.callsOnly p
  | .loop s => s.callsOnly p
  | .scope => true

variable {p}

/-- Leaving a loop drops work and adds none. -/
theorem popLoop_subset (k : List (Item β)) : popLoop k ⊆ k := by
  induction k with
  | nil => exact List.Subset.refl _
  | cons item k ih =>
      cases item with
      | stmt s => exact fun i hi => List.mem_cons_of_mem _ (ih hi)
      | loop s => exact List.subset_cons_self _ _
      | scope => exact fun i hi => List.mem_cons_of_mem _ (ih hi)

/-- Nor does leaving a function. -/
theorem popScope_subset (k : List (Item β)) : popScope k ⊆ k := by
  induction k with
  | nil => exact List.Subset.refl _
  | cons item k ih =>
      cases item with
      | stmt s => exact fun i hi => List.mem_cons_of_mem _ (ih hi)
      | loop s => exact fun i hi => List.mem_cons_of_mem _ (ih hi)
      | scope => exact List.subset_cons_self _ _

/-- A step calls nothing else, and leaves nothing else to call. -/
theorem next_callsOnly {c : Bool} {k k' : List (Item β)}
    {ev : Option (LockEv β)} (hk : ∀ i ∈ k, i.callsOnly p = true)
    (hnext : next c k = some (ev, k')) :
    (∀ i ∈ k', i.callsOnly p = true) ∧
      ∀ b, ev = some (.call b) → p b = true := by
  cases k with
  | nil => cases hnext
  | cons item k =>
      obtain ⟨hitem, hrest⟩ := List.forall_mem_cons.mp hk
      cases item with
      | loop s =>
          cases hnext
          exact ⟨List.forall_mem_cons.mpr ⟨hitem,
            List.forall_mem_cons.mpr ⟨hitem, hrest⟩⟩, nofun⟩
      | scope =>
          cases hnext
          exact ⟨hrest, nofun⟩
      | stmt s =>
          cases s with
          | take => cases hnext; exact ⟨hrest, nofun⟩
          | give => cases hnext; exact ⟨hrest, nofun⟩
          | work => cases hnext; exact ⟨hrest, nofun⟩
          | call b =>
              cases hnext
              refine ⟨hrest, fun b' hb => ?_⟩
              cases hb
              exact hitem
          | seq s t =>
              cases hnext
              obtain ⟨hs, ht⟩ := Bool.and_eq_true_iff.mp hitem
              exact ⟨List.forall_mem_cons.mpr ⟨hs,
                List.forall_mem_cons.mpr ⟨ht, hrest⟩⟩, nofun⟩
          | alt s t =>
              cases hnext
              obtain ⟨hs, ht⟩ := Bool.and_eq_true_iff.mp hitem
              refine ⟨List.forall_mem_cons.mpr ⟨?_, hrest⟩, nofun⟩
              cases c with
              | true => exact hs
              | false => exact ht
          | loop s =>
              cases hnext
              exact ⟨List.forall_mem_cons.mpr ⟨hitem, hrest⟩, nofun⟩
          | brk =>
              cases hnext
              exact ⟨fun i hi => hrest i (popLoop_subset k hi), nofun⟩
          | exit =>
              cases hnext
              exact ⟨fun i hi => hrest i (popScope_subset k hi), nofun⟩
          | scope s =>
              cases hnext
              exact ⟨List.forall_mem_cons.mpr ⟨hitem,
                List.forall_mem_cons.mpr ⟨rfl, hrest⟩⟩, nofun⟩

end

-- ============================================================ the invariant

/-- All code is sound, and the server calls nothing that waits for it. -/
structure LockSystem.Safe (sys : LockSystem τ β) : Prop where
  sound : ∀ t, ∀ s ∈ sys.code t, Sound s
  server : ∀ s ∈ sys.code sys.server,
    s.callsOnly (fun b => !sys.waits b) = true

/-- Threads keep the discipline; the holder is between its take and its
give; the server does not wait for itself. -/
structure LockInv (sys : LockSystem τ β) (s : LockState τ β) : Prop where
  typed : ∀ t, ∃ h, Typed (some h) (s.todo t)
  owner : ∀ t, s.owner = some t →
    Typed (some true) (s.todo t) ∧ s.waiting t = false
  answers : s.waiting sys.server = false
  server : ∀ i ∈ s.todo sys.server,
    i.callsOnly (fun b => !sys.waits b) = true

/-- Nobody has anything to do, the mutex is free. -/
theorem lockInv_init (sys : LockSystem τ β) :
    LockInv sys sys.machine.init :=
  ⟨fun _ => ⟨false, nofun⟩, nofun, rfl, nofun⟩

section

variable {sys : LockSystem τ β} {s s' : LockState τ β}

/-- What a thread is left to do with is replaced. -/
theorem LockInv.moved (hi : LockInv sys s) {t : τ} {k : List (Item β)}
    (htodo : s'.todo = Function.update s.todo t k) {h : Bool}
    (hk : Typed (some h) k)
    (howner : ∀ u, s'.owner = some u →
      u = t ∧ h = true ∨ u ≠ t ∧ s.owner = some u)
    (hwaiting : ∀ u, u ≠ t → s'.waiting u = s.waiting u)
    (hself : h = true → s'.waiting t = false)
    (hanswers : t = sys.server → s'.waiting t = false)
    (hserver : t = sys.server → ∀ i ∈ k,
      i.callsOnly (fun b => !sys.waits b) = true) : LockInv sys s' := by
  have hat : s'.todo t = k := by rw [htodo, Function.update_self]
  have hother : ∀ u, u ≠ t → s'.todo u = s.todo u := fun u hu => by
    rw [htodo, Function.update_of_ne hu]
  refine ⟨?_, ?_, ?_, ?_⟩
  · intro u
    by_cases hu : u = t
    · rw [hu, hat]
      exact ⟨h, hk⟩
    · rw [hother u hu]
      exact hi.typed u
  · intro u hown
    rcases howner u hown with ⟨rfl, rfl⟩ | ⟨hu, hown⟩
    · rw [hat]
      exact ⟨hk, hself rfl⟩
    · rw [hother u hu, hwaiting u hu]
      exact hi.owner u hown
  · by_cases ht : sys.server = t
    · rw [ht]
      exact hanswers ht.symm
    · rw [hwaiting _ ht]
      exact hi.answers
  · by_cases ht : sys.server = t
    · rw [ht, hat]
      exact hserver ht.symm
    · rw [hother _ ht]
      exact hi.server

/-- A step of a thread that does not wait: by its own type it takes only
what it does not hold, gives only what it holds, and waits only without the
mutex. -/
theorem lockInv_thread (hi : LockInv sys s) {t : τ} {c : Bool}
    (hwait : s.waiting t = false) (h : threadStep sys t c s = some s') :
    LockInv sys s' := by
  unfold threadStep at h
  cases hnext : next c (s.todo t) with
  | none =>
      rw [hnext] at h
      cases h
  | some r =>
      obtain ⟨ev, k⟩ := r
      rw [hnext] at h
      obtain ⟨l, hl⟩ := hi.typed t
      obtain ⟨hpaired, htyped⟩ := hl.next hnext
      have hcalls : t = sys.server →
          (∀ i ∈ k, i.callsOnly (fun b => !sys.waits b) = true) ∧
            ∀ b, ev = some (.call b) → (!sys.waits b) = true := by
        intro h
        subst h
        exact next_callsOnly hi.server hnext
      -- the holder is between its take and its give
      have hholds : s.owner = some t → ∀ e, ev = some e → e = .give := by
        intro hown e he
        subst he
        exact (((hi.owner t hown).1.next hnext).1.1).mpr rfl
      cases ev with
      | none =>
          cases h
          by_cases hown : s.owner = some t
          · have htyped := ((hi.owner t hown).1.next hnext).2
            refine hi.moved rfl htyped (fun u hu => ?_) (fun _ _ => rfl)
              (fun _ => hwait) (fun _ => hwait) fun ht => (hcalls ht).1
            by_cases hut : u = t
            · subst hut
              exact .inl ⟨rfl, rfl⟩
            · exact .inr ⟨hut, hu⟩
          · refine hi.moved rfl htyped (fun u hu => .inr ⟨?_, hu⟩)
              (fun _ _ => rfl) (fun _ => hwait) (fun _ => hwait)
              fun ht => (hcalls ht).1
            intro h
            subst h
            exact hown hu
      | some e =>
          cases e with
          | take =>
              have hno : s.owner ≠ some t := fun hown => by
                cases hholds hown _ rfl
              dsimp only at h
              split at h
              · split at h
                case isFalse => cases h
                case isTrue =>
                    cases h
                    refine hi.moved rfl htyped (fun u hu => ?_)
                      (fun _ _ => rfl) (fun _ => hwait) (fun _ => hwait)
                      fun ht => (hcalls ht).1
                    cases hu
                    exact .inl ⟨rfl, rfl⟩
              · cases h
                refine hi.moved rfl htyped (fun u hu => .inr ⟨?_, hu⟩)
                  (fun _ _ => rfl) (fun _ => hwait) (fun _ => hwait)
                  fun ht => (hcalls ht).1
                intro h
                subst h
                exact hno hu
          | give =>
              cases h
              exact hi.moved rfl htyped nofun (fun _ _ => rfl)
                (fun _ => hwait) (fun _ => hwait) fun ht => (hcalls ht).1
          | call b =>
              have hno : s.owner ≠ some t := fun hown => by
                cases hholds hown _ rfl
              cases h
              refine hi.moved rfl htyped (fun u hu => .inr ⟨?_, hu⟩)
                (fun u hu => Function.update_of_ne hu ..) ?_ ?_
                fun ht => (hcalls ht).1
              · intro h
                subst h
                exact hno hu
              · intro hl
                have hfree := hpaired.1.mpr hl
                cases hfree
              · intro ht
                have hb := (hcalls ht).2 b rfl
                show Function.update s.waiting t _ t = false
                rw [Function.update_self]
                simpa using hb

/-- Each of the three acts keeps the invariant: a start puts sound code on
an empty stack, a reply only clears a flag. -/
theorem lockInv_step (hsafe : sys.Safe) {a : LockAct τ}
    (hi : LockInv sys s) (h : lockApply sys a s = some s') :
    LockInv sys s' := by
  cases a with
  | step t c =>
      change (if s.waiting t then none else threadStep sys t c s) = _ at h
      split at h
      · cases h
      · rename_i hwait
        exact lockInv_thread hi (by simpa using hwait) h
  | reply t =>
      unfold lockApply at h
      dsimp only at h
      split at h
      case h_2 => cases h
      case h_1 hidle hwait =>
          cases h
          refine ⟨hi.typed, fun u hu => ?_, ?_, hi.server⟩
          · obtain ⟨htyped, hfree⟩ := hi.owner u hu
            refine ⟨htyped, ?_⟩
            show Function.update s.waiting t false u = false
            by_cases hut : u = t
            · subst hut
              rw [Function.update_self]
            · rw [Function.update_of_ne hut, hfree]
          · show Function.update s.waiting t false sys.server = false
            by_cases ht : sys.server = t
            · rw [ht, Function.update_self]
            · rw [Function.update_of_ne ht, hi.answers]
  | start t i =>
      unfold lockApply at h
      dsimp only at h
      split at h
      case h_2 => cases h
      case h_1 code hidle hwait hcode =>
          cases h
          have hmem := List.mem_of_getElem? hcode
          refine hi.moved rfl (hsafe.sound t code hmem).typed
            (fun u hu => .inr ⟨?_, hu⟩) (fun _ _ => rfl) (fun _ => hwait)
            (fun _ => hwait) ?_
          · intro h
            subst h
            have htyped := (hi.owner u hu).1
            rw [hidle] at htyped
            exact absurd rfl (typed_nil.mp htyped)
          · intro h
            subst h
            exact List.forall_mem_cons.mpr ⟨hsafe.server code hmem, nofun⟩

end

-- ================================================================== the laws

section

variable {sys : LockSystem τ β} (hsafe : sys.Safe) {s : LockState τ β}

include hsafe

/-- So it holds however the threads are interleaved. -/
theorem lockInv_of_reach (h : sys.machine.Reach Machine.anyStep s) :
    LockInv sys s :=
  h.invariant (lockInv_init sys)
    fun _ _ _ hi _ happ => lockInv_step hsafe hi happ

omit hsafe in
/-- What is between a take and its give is done by steps of its own. -/
theorem releases_of_givesNext {t : τ} {k : List (Item β)}
    (hk : GivesNext k) (htodo : s.todo t = k) (hwait : s.waiting t = false) :
    Releases sys t s := by
  have hstep : ∀ {s : LockState τ β} c, s.waiting t = false →
      lockApply sys (.step t c) s = threadStep sys t c s := by
    intro s c hw
    show (if s.waiting t = true then none else threadStep sys t c s) = _
    rw [if_neg (by simp [hw])]
  induction hk generalizing s with
  | give k =>
      refine .own (fun _ => { s with
        owner := none
        todo := Function.update s.todo t k }) (fun c => ?_)
        fun _ => .done nofun
      rw [hstep c hwait]
      unfold threadStep
      rw [htodo]
      rfl
  | @quiet k k' hnext _ ih =>
      refine .own (fun c => { s with
        todo := Function.update s.todo t (k' c) }) (fun c => ?_) fun c => ?_
      · rw [hstep c hwait]
        unfold threadStep
        rw [htodo, hnext c]
      · exact ih c (Function.update_self ..) hwait

/-- The holder can release the mutex by its own steps. -/
theorem releases_of_reach (h : sys.machine.Reach Machine.anyStep s) {t : τ}
    (hown : s.owner = some t) : Releases sys t s := by
  obtain ⟨htyped, hwait⟩ := (lockInv_of_reach hsafe h).owner t hown
  exact releases_of_givesNext htyped.givesNext rfl hwait

/-- Threads wait for the holder or for the server, the server for the
holder at most, and the holder for nobody. -/
theorem waitsFor_acyclic (h : sys.machine.Reach Machine.anyStep s) (t : τ) :
    ¬ Relation.TransGen (WaitsFor sys s) t t := by
  have hi := lockInv_of_reach hsafe h
  let rank : τ → Nat := fun u =>
    if s.owner = some u then 0 else if u = sys.server then 1 else 2
  have hdown : ∀ u v, WaitsFor sys s u v → rank v < rank u := by
    intro u v huv
    have hnot : s.owner ≠ some u := by
      intro hown
      obtain ⟨htyped, hwait⟩ := hi.owner u hown
      rcases huv with ⟨-, ⟨k, hk⟩, -⟩ | ⟨hw, -⟩
      · rw [hk] at htyped
        obtain ⟨r, hcheck, -⟩ := htyped
        cases hcheck
      · rw [hwait] at hw
        cases hw
    show (if s.owner = some v then 0 else if v = sys.server then 1 else 2)
      < (if s.owner = some u then 0 else if u = sys.server then 1 else 2)
    rw [if_neg hnot]
    rcases huv with ⟨-, -, hown⟩ | ⟨hw, rfl⟩
    · rw [if_pos hown]
      split <;> decide
    · have hne : u ≠ sys.server := by
        intro h
        subst h
        rw [hi.answers] at hw
        cases hw
      rw [if_neg hne, if_pos rfl]
      split <;> decide
  have htrans : ∀ v, Relation.TransGen (WaitsFor sys s) t v →
      rank v < rank t := by
    intro v hv
    induction hv with
    | single h => exact hdown _ _ h
    | tail _ h ih => exact Nat.lt_trans (hdown _ _ h) ih
  exact fun hcycle => Nat.lt_irrefl _ (htrans t hcycle)

end

end ShZ001.Lib.Lock
