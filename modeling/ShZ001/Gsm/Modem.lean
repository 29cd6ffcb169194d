/-
The client task against one modem.

# Binding the verdicts

In `Sys.lean` the environment chooses the verdict of every exchange.
That is right for what must hold whatever a modem does, but says too
little where the question is how a given modem is driven. Here the
verdict is bound, where `_disconnect` looks at one, to what the modem
sends: `modem k` is what the task's `k`-th exchange gets from the UART,
and the verdict is the one `atCmd_waitResponse` comes to on it
(`Gsm/At.lean`).

# What stays free

What the other exchanges of the task come to is left to the environment,
as are the exchanges of the API callers: `hears` allows them any
verdict. The memory behind the 256 bytes of `sresp` belongs to the
answer, since the search may run into it.

# The machine

`dialogue` is the system with a counter of the task's exchanges. It
takes no step that the system does not take (`dialogue_sys`), so that
every invariant of the system holds of it.
-/
import ShZ001.Gsm.At
import ShZ001.Gsm.Sys

namespace ShZ001.Gsm

open Lib

/-- What an exchange gets: the reads after the command was sent, and the
bytes behind a full `sresp`. -/
structure Answer where
  reads : List (List UInt8)
  past : List UInt8

/-- Line 428: the `AT` that asks whether the modem is off-line. -/
def Answer.probe (a : Answer) : Nat :=
  atCmdWaitResponse a.past gsmOkStr none 1000 a.reads

/-- Lines 447 and 462: `ATH`. -/
def Answer.ath (a : Answer) : Nat :=
  atCmdWaitResponse a.past gsmOkStr (some (bytes "NO CARRIER")) 3000
    a.reads

/-- `v` can be the verdict of the exchange the task is in. -/
def Sys.hears (s : Sys) (a : Answer) (v : Nat) : Bool :=
  match s.task with
  | .off _ _ .probe _ => v == a.probe
  | .off _ _ (.ath _) _ => v == a.ath
  | _ => true

/-- The system, and how many exchanges the task has had. -/
structure Talk where
  sys : Sys
  exchanges : Nat

/-- The system with its modem. -/
def dialogue (modem : Nat → Answer) : Machine Talk Act where
  init := ⟨Sys.boot, 0⟩
  apply
    | .task (.verdict v), x =>
        if x.sys.hears (modem x.exchanges) v then
          (taskStep (.verdict v) x.sys).map (⟨·, x.exchanges + 1⟩)
        else none
    | a, x => (apply a x.sys).map (⟨·, x.exchanges⟩)

/-- The end of one of the task's exchanges. -/
def Act.isAnswer : Act → Bool
  | .task (.verdict _) => true
  | _ => false

section

variable {modem : Nat → Answer} {x x' : Talk}

/-- An exchange ends with a verdict the modem's answer allows. -/
theorem dialogue_verdict {v : Nat} :
    (dialogue modem).apply (.task (.verdict v)) x = some x' ↔
      x.sys.hears (modem x.exchanges) v = true ∧
      taskStep (.verdict v) x.sys = some x'.sys ∧
      x'.exchanges = x.exchanges + 1 := by
  obtain ⟨s', k'⟩ := x'
  simp only [dialogue]
  split
  case isTrue hhears => simp [hhears, eq_comm]
  case isFalse hhears => simp [hhears]

/-- All other steps are the system's. -/
theorem dialogue_apply {a : Act} (ha : a.isAnswer = false) :
    (dialogue modem).apply a x = some x' ↔
      apply a x.sys = some x'.sys ∧ x'.exchanges = x.exchanges := by
  obtain ⟨s', k'⟩ := x'
  have hstep : (dialogue modem).apply a x
      = (apply a x.sys).map (⟨·, x.exchanges⟩) := by
    cases a with
    | task i => cases i <;> first | rfl | cases ha
    | _ => rfl
  rw [hstep]
  simp [eq_comm]

/-- The task goes on where it can. -/
theorem dialogue_go (h : (taskStep .go x.sys).isSome = true) :
    ∃ i x', (dialogue modem).apply (.task i) x = some x' := by
  obtain ⟨s', hs'⟩ := Option.isSome_iff_exists.mp h
  exact ⟨.go, ⟨s', x.exchanges⟩, (dialogue_apply rfl).mpr ⟨hs', rfl⟩⟩

/-- And takes a verdict that the modem's answer allows. -/
theorem dialogue_hears {v : Nat}
    (hv : x.sys.hears (modem x.exchanges) v = true)
    (h : (taskStep (.verdict v) x.sys).isSome = true) :
    ∃ i x', (dialogue modem).apply (.task i) x = some x' := by
  obtain ⟨s', hs'⟩ := Option.isSome_iff_exists.mp h
  exact ⟨.verdict v, ⟨s', x.exchanges + 1⟩,
    dialogue_verdict.mpr ⟨hv, hs', rfl⟩⟩

/-- With a modem or without, the system takes the same steps. -/
theorem dialogue_sys (a : Act) (x x' : Talk)
    (h : (dialogue modem).apply a x = some x') :
    client.apply a x.sys = some x'.sys := by
  cases ha : a.isAnswer with
  | false => exact ((dialogue_apply ha).mp h).1
  | true =>
      cases a with
      | task i =>
          cases i with
          | verdict v => exact (dialogue_verdict.mp h).2.1
          | _ => cases ha
      | _ => cases ha

end

end ShZ001.Gsm
