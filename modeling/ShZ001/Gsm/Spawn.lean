/-
`ppposInit` and the tasks it creates, access by access (libGSM.c 720–755,
489–491, 705–717).

`Sys.lean` has one thread that calls `ppposInit` and takes a critical
section as one step. Here any number of threads call it, any number of
tasks come of it, and every access to `pppos_mutex` and to
`pppos_task_started` is a step: each test of the pointer, each load of it
for a take or a give, the creation of the mutex and its store.

# The mutex

Mutexes are named by the call that created them. A take is granted while
nobody holds the mutex, or times out (`PPPOSMUTEX_TIMEOUT`), and the
caller goes on either way: no result is looked at. A give frees the mutex,
whoever gives. Both need a pointer: with `NULL` they do not return.

# What is left out

A task is its critical sections: the one that raises the flag, the one
that lowers it, any number between them. What is computed in them, and
`gsm_status` and `do_pppos_connect`, are in `Sys.lean`; whether
`ppposInit` sees the status "connected" is an input here.
-/
import Mathlib.Logic.Function.Basic
import ShZ001.Lib.Machine

namespace ShZ001.Gsm

open Lib

-- ================================================================ the state

/-- Who takes and gives. -/
inductive Thread
  | caller (c : Nat)
  | task (t : Nat)
  deriving DecidableEq, Repr

/-- A critical section: about to load the pointer for the take, in the
take, past it, about to load the pointer for the give. -/
inductive Section
  | load
  | blocked (m : Nat)
  | inside
  | give
  deriving DecidableEq, Repr

/-- The same in the two waiting loops of `ppposInit`, with what was
sampled: `pppos_task_started`, and whether the status was 1. -/
inductive Poll
  | load
  | blocked (m : Nat)
  | inside
  | give (taskS connected : Bool)
  deriving DecidableEq, Repr

/-- `ppposInit`. `tested` is the outcome of the first test of the pointer
(line 722), `taskS` the variable `task_s`; `wait up` are the two loops. -/
inductive CallLoc
  | outside
  | takeTest
  | takeLoad
  | takeBlocked (m : Nat)
  | sample (tested : Bool)
  | giveTest (tested taskS : Bool)
  | give (taskS : Bool)
  | makeTest
  | make
  | store (m : Option Nat)
  | nullTest
  | spawn
  | wait (up : Bool) (x : Poll)
  deriving DecidableEq, Repr

/-- `pppos_client_task`; `ended` is past its last section, before
`vTaskDelete`. -/
inductive TaskLoc
  | absent
  | raise (x : Section)
  | running
  | use (x : Section)
  | lower (x : Section)
  | ended
  | deleted
  deriving DecidableEq, Repr

/-- What the properties are about. -/
inductive CrewEv
  | stored (m : Nat)
  | took (who : Thread) (m : Nat)
  | gave (who : Thread) (m : Nat)
  deriving DecidableEq, Repr

/-- The globals, the mutexes, the threads, and the log. -/
structure Crew where
  ppposMutex : Option Nat
  ppposTaskStarted : Bool
  nextMutex : Nat
  owner : Nat → Option Thread
  nextTask : Nat
  calls : Nat → CallLoc
  tasks : Nat → TaskLoc
  log : List CrewEv

def Crew.boot : Crew where
  ppposMutex := none
  ppposTaskStarted := false
  nextMutex := 0
  owner _ := none
  nextTask := 0
  calls _ := .outside
  tasks _ := .absent
  log := []

-- ================================================================ the mutex

/-- `xSemaphoreTake`, granted. -/
def xSemaphoreTake (who : Thread) (m : Nat) (s : Crew) : Option Crew :=
  if s.owner m = none then
    some { s with
      owner := Function.update s.owner m (some who)
      log := .took who m :: s.log }
  else none

/-- `xSemaphoreGive`. -/
def xSemaphoreGive (who : Thread) (m : Nat) (s : Crew) : Crew :=
  { s with
    owner := Function.update s.owner m none
    log := .gave who m :: s.log }

-- ================================================================ ppposInit

/-- What the surroundings contribute to a step: nothing, a failed call, a
take that times out, the status "connected", the end of a task. -/
inductive CrewIn
  | go
  | fail
  | timeOut
  | connected
  | exit
  deriving DecidableEq, Repr

/-- The caller goes on at a location. -/
def Crew.goto (c : Nat) (loc : CallLoc) (s : Crew) : Crew :=
  { s with calls := Function.update s.calls c loc }

/-- Line 728. -/
def afterSample (taskS : Bool) : CallLoc :=
  if taskS then .wait true .load else .makeTest

/-- Lines 739–744 and 747–753 behind the give. -/
def afterPoll (up taskS connected : Bool) : CallLoc :=
  if up then
    if taskS then if connected then .outside else .wait true .load
    else .outside
  else if taskS then .wait true .load
  else .wait false .load

/-- In a take: granted, or timed out. -/
def takeStep (who : Thread) (m : Nat) (i : CrewIn) (s : Crew) :
    Option Crew :=
  if i = .timeOut then some s else xSemaphoreTake who m s

/-- A step inside a waiting loop. -/
def pollStep (c : Nat) (i : CrewIn) (up : Bool) (s : Crew) :
    Poll → Option Crew
  | .load =>
      s.ppposMutex.map fun m => s.goto c (.wait up (.blocked m))
  | .blocked m =>
      (takeStep (.caller c) m i s).map (·.goto c (.wait up .inside))
  | .inside =>
      some (s.goto c
        (.wait up (.give s.ppposTaskStarted (i = .connected))))
  | .give taskS connected =>
      s.ppposMutex.map fun m =>
        (xSemaphoreGive (.caller c) m s).goto c
          (afterPoll up taskS connected)

/-- A step of a caller. -/
def callerStep (c : Nat) (i : CrewIn) (s : Crew) : Option Crew :=
  match s.calls c with
  | .outside => none
  | .takeTest =>
      some (s.goto c
        (if s.ppposMutex = none then .sample false else .takeLoad))
  | .takeLoad => s.ppposMutex.map fun m => s.goto c (.takeBlocked m)
  | .takeBlocked m =>
      (takeStep (.caller c) m i s).map (·.goto c (.sample true))
  | .sample tested =>
      some (s.goto c (.giveTest tested s.ppposTaskStarted))
  | .giveTest _ taskS =>
      some (s.goto c
        (if s.ppposMutex = none then afterSample taskS else .give taskS))
  | .give taskS =>
      s.ppposMutex.map fun m =>
        (xSemaphoreGive (.caller c) m s).goto c (afterSample taskS)
  | .makeTest =>
      some (s.goto c (if s.ppposMutex = none then .make else .nullTest))
  | .make =>
      if i = .fail then some (s.goto c (.store none))
      else
        some ({ s with nextMutex := s.nextMutex + 1 }.goto c
          (.store (some s.nextMutex)))
  | .store m =>
      some ({ s with
        ppposMutex := m
        log := (m.map CrewEv.stored).toList ++ s.log }.goto c .nullTest)
  | .nullTest =>
      some (s.goto c (if s.ppposMutex = none then .outside else .spawn))
  | .spawn =>
      -- the result of `xTaskCreate` is not looked at
      if i = .fail then some (s.goto c (.wait false .load))
      else
        some ({ s with
          nextTask := s.nextTask + 1
          tasks := Function.update s.tasks s.nextTask (.raise .load)
        }.goto c (.wait false .load))
  | .wait up x => pollStep c i up s x

/-- A thread calls `ppposInit`. -/
def callStep (c : Nat) (s : Crew) : Option Crew :=
  if s.calls c = .outside then some (s.goto c .takeTest) else none

-- ======================================================== pppos_client_task

/-- The task goes on at a location. -/
def Crew.gotoTask (t : Nat) (loc : TaskLoc) (s : Crew) : Crew :=
  { s with tasks := Function.update s.tasks t loc }

/-- A step of a critical section `at'` that does `body` and goes on at
`next`. -/
def sectionStep (t : Nat) (i : CrewIn) (at' : Section → TaskLoc)
    (body : Crew → Crew) (next : TaskLoc) (s : Crew) :
    Section → Option Crew
  | .load => s.ppposMutex.map fun m => s.gotoTask t (at' (.blocked m))
  | .blocked m =>
      (takeStep (.task t) m i s).map (·.gotoTask t (at' .inside))
  | .inside => some ((body s).gotoTask t (at' .give))
  | .give =>
      s.ppposMutex.map fun m =>
        (xSemaphoreGive (.task t) m s).gotoTask t next

/-- A step of a task. -/
def clientStep (t : Nat) (i : CrewIn) (s : Crew) : Option Crew :=
  match s.tasks t with
  | .absent => none
  | .raise x =>
      sectionStep t i .raise (fun s => { s with ppposTaskStarted := true })
        .running s x
  | .running =>
      some (s.gotoTask t (if i = .exit then .lower .load else .use .load))
  | .use x => sectionStep t i .use id .running s x
  | .lower x =>
      sectionStep t i .lower (fun s => { s with ppposTaskStarted := false })
        .ended s x
  | .ended => some (s.gotoTask t .deleted)
  | .deleted => none

-- =============================================================== the system

inductive CrewAct
  | call (c : Nat)
  | caller (c : Nat) (i : CrewIn)
  | task (t : Nat) (i : CrewIn)
  deriving DecidableEq, Repr

def crewApply : CrewAct → Crew → Option Crew
  | .call c, s => callStep c s
  | .caller c i, s => callerStep c i s
  | .task t i, s => clientStep t i s

/-- The callers among the tasks. -/
def crew : Machine Crew CrewAct where
  init := Crew.boot
  apply := crewApply

end ShZ001.Gsm
