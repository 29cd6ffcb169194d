/-
The modem command records (libGSM.c 66–181) and the small functions that
mutate them.

# Who owns the records

They are globals, shared by the client task and the API functions. The
initialisation table `GSM_Init` points at all nine of them, so the table
here owns the records: `cmd_Reg.timeoutMs = …`, which the source writes
through the global's own name, is `setRegTimeout`, a write at the table
position `regIdx`. The other commands of the file (`AT+CMGF`, `AT+CMGD`
and so on) are literals, and are found with the functions that send
them.

# What changes in them

Four things move. `skip` is set once a command has been acknowledged and
cleared by `enableAllInitCmd`; the registration query loses its delay
with its first success, and has its timeout written from three places;
the APN request gets its text and size when the task starts. Expected
answers and all other delays, sizes and timeouts stay as they were at
boot.

# The skip column

What the initialisation loop has still to do is told by the skip flags
alone. `skips` reads them off as a list, and the lemmas at the end say
what each mutation does to that list, so that the proofs about the loop
never look at a record.
-/
import ShZ001.Lib.Bytes

namespace ShZ001.Gsm

open Lib

/-- `GSM_Cmd`. `cmd` is `NULL` (`none`) only for `cmd_APN` before the
task has formatted the APN request. -/
structure GsmCmd where
  cmd : Option (List UInt8)
  cmdSize : Nat
  cmdResponseOnOk : List UInt8
  timeoutMs : Nat
  delayMs : Nat
  skip : Bool
  deriving DecidableEq

/-- `GSM_OK_Str`. -/
def gsmOkStr : List UInt8 := bytes "OK"

-- ============================================================ the table

def cmdAT : GsmCmd where
  cmd := some (bytes "AT\r\n")
  cmdSize := 4
  cmdResponseOnOk := gsmOkStr
  timeoutMs := 300
  delayMs := 0
  skip := false

def cmdNoSMSInd : GsmCmd where
  cmd := some (bytes "AT+CNMI=0,0,0,0,0\r\n")
  cmdSize := 19
  cmdResponseOnOk := gsmOkStr
  timeoutMs := 1000
  delayMs := 0
  skip := false

def cmdReset : GsmCmd where
  cmd := some (bytes "ATZ\r\n")
  cmdSize := 5
  cmdResponseOnOk := gsmOkStr
  timeoutMs := 300
  delayMs := 0
  skip := false

/-- The size is that of another literal, `"ATCFUN=1,0\r\n"`: one byte
more than the command, so its terminator is sent too. -/
def cmdRFOn : GsmCmd where
  cmd := some (bytes "AT+CFUN=1\r\n")
  cmdSize := 12
  cmdResponseOnOk := gsmOkStr
  timeoutMs := 10000
  delayMs := 1000
  skip := false

def cmdEchoOff : GsmCmd where
  cmd := some (bytes "ATE0\r\n")
  cmdSize := 6
  cmdResponseOnOk := gsmOkStr
  timeoutMs := 300
  delayMs := 0
  skip := false

def cmdPin : GsmCmd where
  cmd := some (bytes "AT+CPIN?\r\n")
  cmdSize := 10
  cmdResponseOnOk := bytes "CPIN: READY"
  timeoutMs := 5000
  delayMs := 0
  skip := false

def cmdReg : GsmCmd where
  cmd := some (bytes "AT+CREG?\r\n")
  cmdSize := 10
  cmdResponseOnOk := bytes "CREG: 0,1"
  timeoutMs := 3000
  delayMs := 2000
  skip := false

def cmdAPN : GsmCmd where
  cmd := none
  cmdSize := 0
  cmdResponseOnOk := gsmOkStr
  timeoutMs := 8000
  delayMs := 0
  skip := false

def cmdConnect : GsmCmd where
  cmd := some (bytes "AT+CGDATA=\"PPP\",1\r\n")
  cmdSize := 19
  cmdResponseOnOk := bytes "CONNECT"
  timeoutMs := 30000
  delayMs := 1000
  skip := false

/-- `GSM_Init`, as the globals stand at boot. -/
def gsmInit : List GsmCmd :=
  [cmdAT, cmdReset, cmdEchoOff, cmdRFOn, cmdNoSMSInd, cmdPin, cmdReg,
    cmdAPN, cmdConnect]

/-- `GSM_InitCmdsSize`. -/
def gsmInitCmdsSize : Nat := 9

/-- The table position of `cmd_Reg`. -/
def regIdx : Nat := 6

/-- The table position of `cmd_APN`. -/
def apnIdx : Nat := 7

example : gsmInit.length = gsmInitCmdsSize ∧ gsmInit[regIdx]? = some cmdReg
    ∧ gsmInit[apnIdx]? = some cmdAPN := by decide

-- ===================================================== the mutations

/-- `enableAllInitCmd`. -/
def enableAllInitCmd (cmds : List GsmCmd) : List GsmCmd :=
  cmds.map fun c => { c with skip := false }

/-- Lines 574–576: the command just acknowledged is skipped from now on,
and the registration query loses its delay after its first success. -/
def skipCmd (k : Nat) (cmds : List GsmCmd) : List GsmCmd :=
  cmds.modify k fun c =>
    { c with skip := true, delayMs := if k = regIdx then 0 else c.delayMs }

/-- `cmd_Reg.timeoutMs = ms`. -/
def setRegTimeout (ms : Nat) (cmds : List GsmCmd) : List GsmCmd :=
  cmds.modify regIdx fun c => { c with timeoutMs := ms }

/-- `CONFIG_GSM_APN` (sdkconfig). -/
def configGsmApn : List UInt8 := bytes "cmnet"

/-- `PPP_ApnATReq` as line 523 formats it. -/
def pppApnATReq : List UInt8 :=
  bytes "AT+CGDCONT=1,\"IP\",\"" ++ configGsmApn ++ bytes "\"\r\n"

/-- Lines 524–525: the APN request becomes `cmd_APN`'s command. -/
def setApn (cmds : List GsmCmd) : List GsmCmd :=
  cmds.modify apnIdx fun c =>
    { c with cmd := some pppApnATReq, cmdSize := pppApnATReq.length }

-- ==================================================== the skip column

/-- The skip flags, in table order. -/
def skips (cmds : List GsmCmd) : List Bool := cmds.map (·.skip)

@[simp] theorem skips_length (cmds : List GsmCmd) :
    (skips cmds).length = cmds.length := by
  simp [skips]

@[simp] theorem skips_enableAllInitCmd (cmds : List GsmCmd) :
    skips (enableAllInitCmd cmds) = List.replicate cmds.length false := by
  simp [skips, enableAllInitCmd, Function.comp_def, List.map_const']

/-- A write to one record, seen in the column. -/
theorem skips_modify {f : GsmCmd → GsmCmd} {g : Bool → Bool}
    (hf : ∀ c, (f c).skip = g c.skip) (k : Nat) (cmds : List GsmCmd) :
    skips (cmds.modify k f) = (skips cmds).modify k g := by
  induction cmds generalizing k with
  | nil => cases k <;> rfl
  | cons c rest ih =>
      cases k with
      | zero => simp [skips, hf]
      | succ k => simpa [skips] using ih k

@[simp] theorem skips_skipCmd (k : Nat) (cmds : List GsmCmd) :
    skips (skipCmd k cmds) = (skips cmds).set k true := by
  rw [List.set_eq_modify]
  exact skips_modify (fun _ => rfl) k cmds

@[simp] theorem skips_setRegTimeout (ms : Nat) (cmds : List GsmCmd) :
    skips (setRegTimeout ms cmds) = skips cmds := by
  have hid := skips_modify (g := id)
    (f := fun c => { c with timeoutMs := ms }) (fun _ => rfl) regIdx cmds
  rwa [List.modify_id] at hid

@[simp] theorem enableAllInitCmd_length (cmds : List GsmCmd) :
    (enableAllInitCmd cmds).length = cmds.length := by
  simp [enableAllInitCmd]

@[simp] theorem skipCmd_length (k : Nat) (cmds : List GsmCmd) :
    (skipCmd k cmds).length = cmds.length := by
  simp [skipCmd]

@[simp] theorem setRegTimeout_length (ms : Nat) (cmds : List GsmCmd) :
    (setRegTimeout ms cmds).length = cmds.length := by
  simp [setRegTimeout]

@[simp] theorem setApn_length (cmds : List GsmCmd) :
    (setApn cmds).length = cmds.length := by
  simp [setApn]

end ShZ001.Gsm
