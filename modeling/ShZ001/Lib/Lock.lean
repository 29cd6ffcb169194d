/-
One mutex, and the code that takes and gives it.

# Code and paths

A `Stmt` is code as far as locking goes: takes and gives, calls that may
block, branches that go either way, loops that run any number of turns,
`break` and `return`. It runs as a stack of what is left to do (`Item`,
`next`). The conditions of branches and loops are not kept, so the paths
here are at least those of the program, and what holds on every path
here holds on every path of the program.

# The check

`check` decides the lock discipline on the syntax: nothing is taken
twice or given untaken, and no call, loop, `break` or `return` is
reached while the mutex is taken. It is a computation on the statement,
so a body of code is checked by evaluating it.

# From the check to the paths

`Typed` carries the verdict along a run, as types are carried along
reductions: one lemma for one step (`Typed.next`), and from it what
every path does (`Sound.disciplined`). `Disciplined` is the meaning of
it: on a path takes and gives alternate, no call falls between them, and
a path that has taken the mutex can do nothing but get to its give
(`GivesNext`), in a number of steps that `weight` bounds.
-/
import Mathlib.Data.List.Basic

namespace ShZ001.Lib.Lock

-- ===================================================================== code

/-- Code with blocking calls `β`. -/
inductive Stmt (β : Type*)
  | take
  | give
  | call (b : β)
  | work
  | seq (s t : Stmt β)
  | alt (s t : Stmt β)
  | loop (s : Stmt β)
  | brk
  | exit
  | scope (s : Stmt β)

namespace Stmt

variable {β : Type*}

/-- One after the other. -/
def block : List (Stmt β) → Stmt β
  | [] => work
  | s :: ss => seq s (block ss)

/-- `if (…) s`. -/
def when (s : Stmt β) : Stmt β := alt s work

/-- `while (…) s`. -/
def whileDo (s : Stmt β) : Stmt β := loop (alt brk s)

/-- A critical section without branches. -/
def critical : Stmt β := block [take, work, give]

end Stmt

/-- What is left to do: a statement, the next turn of a loop, the end of a
function. -/
inductive Item (β : Type*)
  | stmt (s : Stmt β)
  | loop (s : Stmt β)
  | scope

/-- What a step does with the mutex, or the call it makes. -/
inductive LockEv (β : Type*)
  | take
  | give
  | call (b : β)

section

variable {β : Type*}

/-- Behind the innermost loop. -/
def popLoop : List (Item β) → List (Item β)
  | [] => []
  | .stmt _ :: k => popLoop k
  | .loop _ :: k => k
  | .scope :: k => popLoop k

/-- Behind the function. -/
def popScope : List (Item β) → List (Item β)
  | [] => []
  | .stmt _ :: k => popScope k
  | .loop _ :: k => popScope k
  | .scope :: k => k

/-- One step; `c` is the way a branch goes. -/
def next (c : Bool) :
    List (Item β) → Option (Option (LockEv β) × List (Item β))
  | [] => none
  | .stmt .take :: k => some (some .take, k)
  | .stmt .give :: k => some (some .give, k)
  | .stmt (.call b) :: k => some (some (.call b), k)
  | .stmt .work :: k => some (none, k)
  | .stmt (.seq s t) :: k => some (none, .stmt s :: .stmt t :: k)
  | .stmt (.alt s t) :: k =>
      some (none, .stmt (if c then s else t) :: k)
  | .stmt (.loop s) :: k => some (none, .loop s :: k)
  | .stmt .brk :: k => some (none, popLoop k)
  | .stmt .exit :: k => some (none, popScope k)
  | .stmt (.scope s) :: k => some (none, .stmt s :: .scope :: k)
  | .loop s :: k => some (none, .stmt s :: .loop s :: k)
  | .scope :: k => some (none, k)

/-- A path: what is left to do, what has been done (newest last), what is
left then. -/
inductive Path : List (Item β) → List (LockEv β) → List (Item β) → Prop
  | nil (k) : Path k [] k
  | snoc {k tr k' k''} (c : Bool) (ev : Option (LockEv β))
      (h : Path k tr k') (hnext : next c k' = some (ev, k'')) :
      Path k (tr ++ ev.toList) k''

-- =============================================================== discipline

/-- Is the mutex taken afterwards, and not yet given? -/
def lockedBy (h : Bool) : LockEv β → Bool
  | .take => true
  | .give => false
  | .call _ => h

/-- Takes and calls find the mutex not taken, gives find it taken. -/
def Paired : Bool → List (LockEv β) → Prop
  | _, [] => True
  | h, ev :: tr => (ev = .give ↔ h = true) ∧ Paired (lockedBy h ev) tr

/-- The next thing that is done, whatever way the branches go, is the
give. -/
inductive GivesNext : List (Item β) → Prop
  | give (k) : GivesNext (.stmt .give :: k)
  | quiet {k} (k' : Bool → List (Item β))
      (hnext : ∀ c, next c k = some (none, k' c))
      (hgives : ∀ c, GivesNext (k' c)) : GivesNext k

/-- On a path every take is followed by one give, before the next take,
the next call and the end. -/
structure Disciplined (tr : List (LockEv β)) (k : List (Item β)) : Prop where
  paired : Paired false tr
  ends : k = [] → tr.foldl lockedBy false = false
  gives : tr.foldl lockedBy false = true → GivesNext k

/-- A path is paired piece by piece: the second piece starts with the mutex
as the first one leaves it. -/
theorem paired_append {h : Bool} {tr tr' : List (LockEv β)} :
    Paired h (tr ++ tr') ↔
      Paired h tr ∧ Paired (tr.foldl lockedBy h) tr' := by
  induction tr generalizing h with
  | nil => simp [Paired]
  | cons ev tr ih =>
      show _ ∧ Paired _ (tr ++ tr') ↔ _
      rw [ih, ← and_assoc]
      rfl

-- ==================================================================== check

/-- Where two branches meet, with the mutex taken or not, if they do. -/
def joinExits : Option Bool → Option Bool → Option (Option Bool)
  | none, r => some r
  | r, none => some r
  | some a, some b => if a = b then some (some a) else none

/-- The verdict is none on a mutex left taken. -/
def leftFree : Option (Option Bool) → Bool
  | none => false
  | some r => r != some true

/-- The verdict on code entered with the mutex taken or not: `none` if it
breaks the discipline, else how it is left, if it is left at its end. -/
def check : Stmt β → Bool → Option (Option Bool)
  | .take, h => if h then none else some (some true)
  | .give, h => if h then some (some false) else none
  | .call _, h => if h then none else some (some false)
  | .work, h => some (some h)
  | .seq s t, h =>
      match check s h with
      | none => none
      | some none => some none
      | some (some h') => check t h'
  | .alt s t, h =>
      match check s h, check t h with
      | some r, some r' => joinExits r r'
      | _, _ => none
  | .loop s, h =>
      if !h && leftFree (check s false) then some (some false) else none
  | .brk, h => if h then none else some none
  | .exit, h => if h then none else some none
  | .scope s, h =>
      if !h && leftFree (check s false) then some (some false) else none

/-- What is left to do keeps the discipline, when it is come to with the
mutex taken or not (`some`), or by `break` and `return` only (`none`). -/
def Typed : Option Bool → List (Item β) → Prop
  | r, [] => r ≠ some true
  | none, .stmt _ :: k => Typed none k
  | some h, .stmt s :: k => ∃ r, check s h = some r ∧ Typed r k
  | r, .loop s :: k =>
      r ≠ some true ∧ leftFree (check s false) = true ∧
        Typed (some false) k
  | r, .scope :: k => r ≠ some true ∧ Typed (some false) k

/-- At the end of everything the mutex is not taken. -/
theorem typed_nil {r : Option Bool} :
    Typed r ([] : List (Item β)) ↔ r ≠ some true := by
  cases r <;> rfl

/-- A loop is come to with the mutex not taken, its body leaves it so, and
so what is behind it finds it. -/
theorem typed_loop {r : Option Bool} {s : Stmt β} {k : List (Item β)} :
    Typed r (.loop s :: k) ↔ r ≠ some true ∧
      leftFree (check s false) = true ∧ Typed (some false) k := by
  cases r <;> rfl

/-- The end of a function is come to with the mutex not taken. -/
theorem typed_scope {r : Option Bool} {k : List (Item β)} :
    Typed r (.scope :: k) ↔ r ≠ some true ∧ Typed (some false) k := by
  cases r <;> rfl

/-- What can be come to can be jumped over. -/
theorem Typed.jump {r : Option Bool} {k : List (Item β)} (h : Typed r k) :
    Typed none k := by
  induction k generalizing r with
  | nil => nofun
  | cons item k ih =>
      cases item with
      | stmt s =>
          cases r with
          | none => exact h
          | some _ =>
              obtain ⟨_, -, hk⟩ := h
              exact ih hk
      | loop s => exact typed_loop.mpr ⟨nofun, (typed_loop.mp h).2⟩
      | scope => exact typed_scope.mpr ⟨nofun, (typed_scope.mp h).2⟩

/-- `break` lands behind a loop. -/
theorem Typed.popLoop {k : List (Item β)} (h : Typed none k) :
    Typed (some false) (popLoop k) := by
  induction k with
  | nil => nofun
  | cons item k ih =>
      cases item with
      | stmt s => exact ih h
      | loop s => exact (typed_loop.mp h).2.2
      | scope => exact ih (typed_scope.mp h).2.jump

/-- `return` lands behind the function. -/
theorem Typed.popScope {k : List (Item β)} (h : Typed none k) :
    Typed (some false) (popScope k) := by
  induction k with
  | nil => nofun
  | cons item k ih =>
      cases item with
      | stmt s => exact ih h
      | loop s => exact ih (typed_loop.mp h).2.2.jump
      | scope => exact (typed_scope.mp h).2

/-- Code that is left with the mutex not taken. -/
theorem Typed.ofFree {s : Stmt β} {k : List (Item β)}
    (hs : leftFree (check s false) = true) (hk : Typed (some false) k) :
    Typed (some false) (.stmt s :: k) := by
  cases hc : check s false with
  | none =>
      rw [hc] at hs
      cases hs
  | some r =>
      refine ⟨r, hc, ?_⟩
      rw [hc] at hs
      match r, hs with
      | none, _ => exact hk.jump
      | some false, _ => exact hk

/-- Either branch leads to where they meet. -/
theorem Typed.ofJoin {r r' r'' : Option Bool} {k : List (Item β)}
    (hjoin : joinExits r r' = some r'') (hk : Typed r'' k) :
    Typed r k ∧ Typed r' k := by
  match r, r' with
  | none, _ =>
      cases hjoin
      exact ⟨hk.jump, hk⟩
  | some a, none =>
      cases hjoin
      exact ⟨hk, hk.jump⟩
  | some a, some b =>
      change (if a = b then some (some a) else none) = _ at hjoin
      split at hjoin
      case isFalse => cases hjoin
      case isTrue hab =>
          cases hjoin
          exact ⟨hk, hab ▸ hk⟩

/-- One step keeps the discipline. -/
theorem Typed.next {h c : Bool} {k k' : List (Item β)}
    {ev : Option (LockEv β)} (hk : Typed (some h) k)
    (hnext : next c k = some (ev, k')) :
    Paired h ev.toList ∧ Typed (some (ev.toList.foldl lockedBy h)) k' := by
  cases k with
  | nil => cases hnext
  | cons item k =>
      cases item with
      | loop s =>
          cases hnext
          obtain ⟨hfree, hs, hrest⟩ := typed_loop.mp hk
          cases h with
          | true => exact absurd rfl hfree
          | false => exact ⟨trivial, .ofFree hs hk⟩
      | scope =>
          cases hnext
          obtain ⟨hfree, hrest⟩ := typed_scope.mp hk
          cases h with
          | true => exact absurd rfl hfree
          | false => exact ⟨trivial, hrest⟩
      | stmt s =>
          obtain ⟨r, hcheck, hrest⟩ := hk
          cases s with
          | take =>
              cases hnext
              cases h with
              | true => cases hcheck
              | false =>
                  cases hcheck
                  exact ⟨⟨by simp, trivial⟩, hrest⟩
          | give =>
              cases hnext
              cases h with
              | false => cases hcheck
              | true =>
                  cases hcheck
                  exact ⟨⟨by simp, trivial⟩, hrest⟩
          | call b =>
              cases hnext
              cases h with
              | true => cases hcheck
              | false =>
                  cases hcheck
                  exact ⟨⟨by simp, trivial⟩, hrest⟩
          | work =>
              cases hnext
              cases hcheck
              exact ⟨trivial, hrest⟩
          | seq s t =>
              cases hnext
              refine ⟨trivial, ?_⟩
              unfold check at hcheck
              split at hcheck
              · cases hcheck
              · rename_i hs
                cases hcheck
                exact ⟨none, hs, hrest⟩
              · rename_i h' hs
                exact ⟨some h', hs, r, hcheck, hrest⟩
          | alt s t =>
              cases hnext
              refine ⟨trivial, ?_⟩
              unfold check at hcheck
              split at hcheck
              case h_2 => cases hcheck
              case h_1 r₁ r₂ hs ht =>
                  obtain ⟨h₁, h₂⟩ := Typed.ofJoin hcheck hrest
                  cases c with
                  | true => exact ⟨r₁, hs, h₁⟩
                  | false => exact ⟨r₂, ht, h₂⟩
          | loop s =>
              cases hnext
              cases h with
              | true => cases hcheck
              | false =>
                  unfold check at hcheck
                  split at hcheck
                  case isFalse => cases hcheck
                  case isTrue hs =>
                      cases hcheck
                      exact ⟨trivial, typed_loop.mpr ⟨nofun, hs, hrest⟩⟩
          | brk =>
              cases hnext
              cases h with
              | true => cases hcheck
              | false =>
                  cases hcheck
                  exact ⟨trivial, hrest.popLoop⟩
          | exit =>
              cases hnext
              cases h with
              | true => cases hcheck
              | false =>
                  cases hcheck
                  exact ⟨trivial, hrest.popScope⟩
          | scope s =>
              cases hnext
              cases h with
              | true => cases hcheck
              | false =>
                  unfold check at hcheck
                  split at hcheck
                  case isFalse => cases hcheck
                  case isTrue hs =>
                      cases hcheck
                      exact ⟨trivial,
                        .ofFree hs (typed_scope.mpr ⟨nofun, hrest⟩)⟩

-- ==================================================================== paths

/-- The statements to go. -/
def Stmt.size : Stmt β → Nat
  | .seq s t => s.size + t.size + 1
  | .alt s t => s.size + t.size + 1
  | _ => 1

/-- No statement is free: each counts for the step that takes it apart. -/
theorem Stmt.size_pos (s : Stmt β) : 0 < s.size := by
  cases s <;> exact Nat.succ_pos _

def weight : List (Item β) → Nat
  | [] => 0
  | .stmt s :: k => s.size + weight k
  | _ :: k => weight k

/-- With the mutex taken there is nothing to do but to get to the give: the
steps before it get less. -/
theorem Typed.givesNext {k : List (Item β)} (hk : Typed (some true) k) :
    GivesNext k := by
  induction hw : weight k using Nat.strongRecOn generalizing k with
  | ind n ih =>
      subst hw
      have hquiet : ∀ k' : Bool → List (Item β),
          (∀ c, Lock.next c k = some (none, k' c)) →
          (∀ c, weight (k' c) < weight k) → GivesNext k := by
        intro k' hnext hlt
        exact .quiet k' hnext fun c => ih _ (hlt c) (hk.next (hnext c)).2 rfl
      cases k with
      | nil => exact absurd rfl (typed_nil.mp hk)
      | cons item k =>
          cases item with
          | loop s => exact absurd rfl (typed_loop.mp hk).1
          | scope => exact absurd rfl (typed_scope.mp hk).1
          | stmt s =>
              obtain ⟨r, hcheck, -⟩ := hk
              cases s with
              | give => exact .give k
              | work =>
                  refine hquiet (fun _ => k) (fun _ => rfl) fun _ => ?_
                  exact Nat.lt_add_of_pos_left (Stmt.size_pos _)
              | seq s t =>
                  refine hquiet (fun _ => .stmt s :: .stmt t :: k)
                    (fun _ => rfl) fun _ => ?_
                  show s.size + (t.size + weight k)
                    < s.size + t.size + 1 + weight k
                  omega
              | alt s t =>
                  have hs := s.size_pos
                  have ht := t.size_pos
                  refine hquiet (fun c => .stmt (if c then s else t) :: k)
                    (fun _ => rfl) fun c => ?_
                  show (if c then s else t).size + weight k
                    < s.size + t.size + 1 + weight k
                  cases c with
                  | true =>
                      rw [if_pos rfl]
                      omega
                  | false =>
                      rw [if_neg Bool.false_ne_true]
                      omega
              | take => cases hcheck
              | call b => cases hcheck
              | loop s => cases hcheck
              | brk => cases hcheck
              | exit => cases hcheck
              | scope s => cases hcheck

/-- Code that keeps the discipline from its start to its end. -/
def Sound (s : Stmt β) : Prop := leftFree (check s false) = true

instance (s : Stmt β) : Decidable (Sound s) :=
  inferInstanceAs (Decidable (_ = true))

/-- Sound code may be started by whoever does not hold the mutex. -/
theorem Sound.typed {s : Stmt β} (h : Sound s) :
    Typed (some false) [.stmt s] :=
  .ofFree h nofun

/-- So does a path. -/
theorem Typed.path {k k' : List (Item β)} {tr : List (LockEv β)}
    (hk : Typed (some false) k) (hpath : Path k tr k') :
    Paired false tr ∧ Typed (some (tr.foldl lockedBy false)) k' := by
  induction hpath with
  | nil => exact ⟨trivial, hk⟩
  | snoc c ev _ hnext ih =>
      obtain ⟨hpaired, htyped⟩ := ih
      obtain ⟨hev, htyped⟩ := htyped.next hnext
      rw [List.foldl_append]
      exact ⟨paired_append.mpr ⟨hpaired, hev⟩, htyped⟩

/-- Every path of sound code is disciplined. -/
theorem Sound.disciplined {s : Stmt β} (h : Sound s)
    {tr : List (LockEv β)} {k : List (Item β)}
    (hpath : Path [.stmt s] tr k) : Disciplined tr k := by
  obtain ⟨hpaired, htyped⟩ := h.typed.path hpath
  refine ⟨hpaired, ?_, ?_⟩
  · intro h
    subst h
    cases hl : tr.foldl lockedBy false with
    | false => rfl
    | true =>
        rw [hl] at htyped
        exact absurd rfl (typed_nil.mp htyped)
  · intro hl
    rw [hl] at htyped
    exact htyped.givesNext

end

end ShZ001.Lib.Lock
