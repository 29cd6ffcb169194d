/-
The text display (display.c): what is shown for the calls of
`display_clear`, `display_setpos` and `display_putstr`.

# The two sides

The driver's side is the list of transfers that a call sends: three
bytes for a command or for a character, the first of which tells the two
apart and the others carry the halves of one byte.

The display is not code of the repository, so it is a parameter: a
`Controller` with what the driver's transfers do to it, and `Documented`
for what the driver relies on. That is the serial format, the basic
instructions, the memory of two characters to an address, and the order
in which the lines lie in that memory: behind the first line of the
panel comes the third, which is why `display_setpos` has the commands it
has. `Documented` says nothing of a controller in another mode; `Ready`
is the one the driver puts it in.

# The purpose

`Screen` is four lines of sixteen characters. `display_refines` says
that the panel shows what the screen does, from any ready state, and
that `diaplay_spi_init` makes a controller ready that has been reset.

# The argument

A transfer of the driver does what its command or character does
(`transfer_sendCmd`, `transfer_sendData`), a text goes to consecutive
places (`run_text`), and a text that fits its line covers places of that
line only, since the lines lie sixteen places apart
(`lineAddress_disjoint`, `overwrite_line`). So each call does to what is
shown what it does to the screen (`run_op`), and any calls do
(`run_ops`).

`Panel` is a controller of this kind, so that the hypotheses are met by
something.
-/
import Mathlib.Logic.Function.Basic
import ShZ001.Lib.Bytes

namespace ShZ001.App

open Lib

-- =============================================================== the functions

/-- `send_cmd`: the bytes of the transfer. -/
def sendCmd (cmd : UInt8) : List UInt8 :=
  [0xf8, cmd &&& 0xf0, (cmd <<< 4) &&& 0xf0]

/-- `send_data`. -/
def sendData (data : UInt8) : List UInt8 :=
  [0xfa, data &&& 0xf0, (data <<< 4) &&& 0xf0]

/-- `display_putstr`. -/
def displayPutstr (str : List UInt8) : List (List UInt8) :=
  (cstr str).map sendData

/-- `display_clear`. -/
def displayClear : List (List UInt8) := [sendCmd 0x01]

/-- `display_setpos`; the argument of `send_cmd` is an `uint8_t`. -/
def displaySetpos (y x : Int) : List (List UInt8) :=
  if y = 0 then [sendCmd (UInt8.ofInt (0x80 + x))]
  else if y = 1 then [sendCmd (UInt8.ofInt (0x90 + x))]
  else if y = 2 then [sendCmd (UInt8.ofInt (0x88 + x))]
  else if y = 3 then [sendCmd (UInt8.ofInt (0x98 + x))]
  else []

/-- The transfers of `diaplay_spi_init`, behind the reset of the display. -/
def diaplaySpiInit : List (List UInt8) :=
  [sendCmd 0x30] ++ [sendCmd 0x0c] ++ displayClear ++ displaySetpos 0 0
    ++ displayPutstr (bytes "Hello world!")

-- ================================================================== the screen

/-- Four lines of sixteen characters. -/
abbrev Screen : Type := Fin 4 → Fin 16 → UInt8

def Screen.blank : Screen := fun _ _ => 0x20

/-- What is done to it: a text is put into a line, from one of eight
positions on. -/
inductive ScreenOp
  | clear
  | print (y : Fin 4) (x : Fin 8) (text : List UInt8) (clean : 0 ∉ text)
      (fits : 2 * x.val + text.length ≤ 16)

/-- With which calls. -/
def ScreenOp.transfers : ScreenOp → List (List UInt8)
  | .clear => displayClear
  | .print y x text _ _ => displaySetpos y.val x.val ++ displayPutstr text

/-- What is then to be seen. -/
def ScreenOp.onto (screen : Screen) : ScreenOp → Screen
  | .clear => .blank
  | .print y x text _ _ => fun r c =>
      if r = y ∧ 2 * x.val ≤ c.val then
        (text[c.val - 2 * x.val]?).getD (screen r c)
      else screen r c

/-- What the display comes up with. -/
def Screen.hello : Screen :=
  (ScreenOp.print 0 0 (bytes "Hello world!") (by decide +kernel)
    (by decide +kernel)).onto .blank

-- ============================================================== the controller

/-- A display with its controller: what transfers, commands and characters
do to it, the place in its memory that the next character goes to, the
codes that the panel shows, and three modes: it takes the basic
instructions, it shows its memory, and the place moves on behind every
character. -/
structure Controller (σ : Type*) where
  transfer : List UInt8 → σ → σ
  command : UInt8 → σ → σ
  data : UInt8 → σ → σ
  place : σ → Nat
  shown : σ → Screen
  basic : σ → Prop
  on : σ → Prop
  forward : σ → Prop

namespace Controller

variable {σ : Type*} (C : Controller σ)

/-- Several transfers. -/
def run (transfers : List (List UInt8)) (d : σ) : σ :=
  transfers.foldl (fun d t => C.transfer t d) d

/-- The three modes. -/
structure Ready (d : σ) : Prop where
  basic : C.basic d
  on : C.on d
  forward : C.forward d

end Controller

/-- The address of a line in the memory; there are two characters at each
address. -/
def lineAddress : Fin 4 → Nat
  | 0 => 0x00
  | 1 => 0x10
  | 2 => 0x08
  | 3 => 0x18

/-- The byte whose halves stand in the upper halves of two bytes. -/
def joined (high low : UInt8) : UInt8 :=
  (high &&& (0xf0 : UInt8)) ||| (low &&& (0xf0 : UInt8)) >>> (4 : UInt8)

/-- What the driver relies on. -/
structure Documented {σ : Type*} (C : Controller σ) : Prop where
  /-- A command comes behind 0xF8, each half of it in the upper half of a
  byte. -/
  serialCommand : ∀ high low d, C.transfer [0xf8, high, low] d
    = C.command (joined high low) d
  /-- A character comes behind 0xFA. -/
  serialData : ∀ high low d, C.transfer [0xfa, high, low] d
    = C.data (joined high low) d
  /-- 0x30 selects the basic instructions. -/
  functionSet : ∀ d, C.forward d →
    C.basic (C.command 0x30 d) ∧ C.forward (C.command 0x30 d)
  /-- 0x0C switches the display on. -/
  displayOn : ∀ d, C.basic d → C.forward d → C.Ready (C.command 0x0c d)
  /-- 0x01 clears it and goes to the first place. -/
  clear : ∀ d, C.Ready d → C.Ready (C.command 0x01 d) ∧
    C.place (C.command 0x01 d) = 0 ∧ C.shown (C.command 0x01 d) = .blank
  /-- 0x80 to 0xBF go to an address. -/
  setAddress : ∀ a d, a < 64 → C.Ready d →
    C.Ready (C.command (UInt8.ofNat (0x80 + a)) d) ∧
      C.place (C.command (UInt8.ofNat (0x80 + a)) d) = 2 * a ∧
      C.shown (C.command (UInt8.ofNat (0x80 + a)) d) = C.shown d
  /-- A character is put into its place, and the next one comes behind. -/
  write : ∀ c d, C.Ready d → C.place d + 1 < 128 →
    C.Ready (C.data c d) ∧ C.place (C.data c d) = C.place d + 1 ∧
      ∀ r k, C.shown (C.data c d) r k =
        if C.place d = 2 * lineAddress r + k.val then c else C.shown d r k

-- =============================================================== the transfers

/-- The halves of a byte make the byte. -/
theorem joined_halves (b : UInt8) :
    joined (b &&& (0xf0 : UInt8)) ((b <<< 4) &&& (0xf0 : UInt8)) = b := by
  have hall : ∀ n : Fin 256,
      joined (UInt8.ofNat n &&& (0xf0 : UInt8))
        ((UInt8.ofNat n <<< 4) &&& (0xf0 : UInt8)) = UInt8.ofNat n := by
    decide +kernel
  have hb := hall ⟨b.toNat, b.toNat_lt⟩
  rwa [UInt8.ofNat_toNat] at hb

/-- Lines do not overlap. -/
theorem lineAddress_disjoint {r y : Fin 4} (h : r ≠ y) :
    lineAddress r + 8 ≤ lineAddress y ∨
      lineAddress y + 8 ≤ lineAddress r := by
  revert r y
  decide

theorem lineAddress_le (r : Fin 4) : lineAddress r ≤ 24 := by
  revert r
  decide

/-- The command of `display_setpos` is the one for the address. -/
theorem displaySetpos_eq (y : Fin 4) (x : Fin 8) :
    displaySetpos y.val x.val
      = [sendCmd (UInt8.ofNat (0x80 + (lineAddress y + x.val)))] := by
  revert y x
  decide +kernel

/-- A text over what is shown, from a place on. -/
def overwrite (screen : Screen) (p : Nat) (text : List UInt8) : Screen :=
  fun r k =>
    if p ≤ 2 * lineAddress r + k.val then
      (text[2 * lineAddress r + k.val - p]?).getD (screen r k)
    else screen r k

/-- No text changes nothing. -/
theorem overwrite_nil (screen : Screen) (p : Nat) :
    overwrite screen p [] = screen := by
  funext r k
  simp [overwrite]

/-- One character, and the text behind it. -/
theorem overwrite_cons {screen screen' : Screen} {p : Nat} {c : UInt8}
    (h : ∀ r k, screen' r k =
      if p = 2 * lineAddress r + k.val then c else screen r k)
    (text : List UInt8) :
    overwrite screen' (p + 1) text = overwrite screen p (c :: text) := by
  funext r k
  unfold overwrite
  rw [h r k]
  rcases Nat.lt_trichotomy (2 * lineAddress r + k.val) p with hlt | heq | hgt
  · rw [if_neg (by omega), if_neg (by omega), if_neg (by omega)]
  · rw [if_neg (by omega), if_pos heq.symm, if_pos (by omega), heq,
      Nat.sub_self]
    rfl
  · obtain ⟨j, hj⟩ := Nat.exists_eq_add_of_lt hgt
    rw [if_pos (by omega), if_neg (by omega), if_pos (by omega), hj,
      show p + j + 1 - (p + 1) = j by omega,
      show p + j + 1 - p = j + 1 by omega, List.getElem?_cons_succ]

section

variable {σ : Type*} {C : Controller σ} (hC : Documented C)

include hC

/-- The three bytes of `send_cmd` are the command. -/
theorem transfer_sendCmd (cmd : UInt8) (d : σ) :
    C.transfer (sendCmd cmd) d = C.command cmd d := by
  unfold sendCmd
  rw [hC.serialCommand, joined_halves]

/-- Those of `send_data` are the character. -/
theorem transfer_sendData (c : UInt8) (d : σ) :
    C.transfer (sendData c) d = C.data c d := by
  unfold sendData
  rw [hC.serialData, joined_halves]

/-- The characters of a text are put one behind the other. -/
theorem run_text {text : List UInt8} {d : σ} (hd : C.Ready d)
    (hroom : C.place d + text.length < 128) :
    C.Ready (C.run (text.map sendData) d) ∧
      C.shown (C.run (text.map sendData) d)
        = overwrite (C.shown d) (C.place d) text := by
  induction text generalizing d with
  | nil => exact ⟨hd, (overwrite_nil _ _).symm⟩
  | cons c text ih =>
      rw [List.length_cons] at hroom
      obtain ⟨hready, hplace, hshown⟩ := hC.write c d hd (by omega)
      have hrun : C.run ((c :: text).map sendData) d
          = C.run (text.map sendData) (C.data c d) := by
        unfold Controller.run
        rw [List.map_cons, List.foldl_cons, transfer_sendData hC]
      obtain ⟨hready', hshown'⟩ := ih hready (by omega)
      rw [hrun]
      refine ⟨hready', ?_⟩
      rw [hshown', hplace, overwrite_cons hshown]

/-- `display_setpos` goes to the place of the position. -/
theorem run_setpos (y : Fin 4) (x : Fin 8) {d : σ} (hd : C.Ready d) :
    C.Ready (C.run (displaySetpos y.val x.val) d) ∧
      C.place (C.run (displaySetpos y.val x.val) d)
        = 2 * (lineAddress y + x.val) ∧
      C.shown (C.run (displaySetpos y.val x.val) d) = C.shown d := by
  have hle := lineAddress_le y
  have hrun : C.run (displaySetpos y.val x.val) d
      = C.command (UInt8.ofNat (0x80 + (lineAddress y + x.val))) d := by
    rw [displaySetpos_eq]
    exact transfer_sendCmd hC _ d
  rw [hrun]
  exact hC.setAddress _ d (by omega) hd

end

/-- A text that fits its line changes that line only, and there what the
text covers. -/
theorem overwrite_line (screen : Screen) (y : Fin 4) (x : Fin 8)
    {text : List UInt8} (fits : 2 * x.val + text.length ≤ 16) :
    overwrite screen (2 * (lineAddress y + x.val)) text = fun r k =>
      if r = y ∧ 2 * x.val ≤ k.val then
        (text[k.val - 2 * x.val]?).getD (screen r k)
      else screen r k := by
  funext r k
  have hk := k.isLt
  unfold overwrite
  by_cases hline : r = y
  · subst hline
    by_cases hcol : 2 * x.val ≤ k.val
    · rw [if_pos (by omega), if_pos ⟨rfl, hcol⟩,
        show 2 * lineAddress r + k.val - 2 * (lineAddress r + x.val)
          = k.val - 2 * x.val by omega]
    · rw [if_neg (by omega), if_neg fun h => hcol h.2]
  · -- in another line the place is before the text or behind it
    rw [if_neg fun h : r = y ∧ _ => hline h.1]
    have hother := lineAddress_disjoint hline
    split
    · rw [List.getElem?_eq_none (by omega)]
      rfl
    · rfl

-- ==================================================================== the law

section

variable {σ : Type*} {C : Controller σ} (hC : Documented C)

include hC

/-- One call does to what is shown what it does to the screen. -/
theorem run_op (op : ScreenOp) {d : σ} (hd : C.Ready d) :
    C.Ready (C.run op.transfers d) ∧
      C.shown (C.run op.transfers d) = op.onto (C.shown d) := by
  cases op with
  | clear =>
      have hrun : C.run displayClear d = C.command 0x01 d :=
        transfer_sendCmd hC 0x01 d
      obtain ⟨hready, -, hshown⟩ := hC.clear d hd
      unfold ScreenOp.transfers
      rw [hrun]
      exact ⟨hready, hshown⟩
  | print y x text clean fits =>
      have hstr : displayPutstr text = text.map sendData := by
        have hclean : cstr text = text := List.takeWhile_eq_self_iff.mpr
          fun b hb => decide_eq_true fun h0 => clean (h0 ▸ hb)
        rw [displayPutstr, hclean]
      have hrun : C.run (ScreenOp.print y x text clean fits).transfers d
          = C.run (text.map sendData)
            (C.run (displaySetpos y.val x.val) d) := by
        unfold ScreenOp.transfers Controller.run
        dsimp only
        rw [hstr, List.foldl_append]
      have hle := lineAddress_le y
      obtain ⟨hready, hplace, hshown⟩ := run_setpos hC y x hd
      have hroom : C.place (C.run (displaySetpos y.val x.val) d)
          + text.length < 128 := by omega
      obtain ⟨hready', hshown'⟩ := run_text hC hready hroom
      rw [hrun]
      refine ⟨hready', ?_⟩
      rw [hshown', hplace, hshown]
      exact overwrite_line (C.shown d) y x fits

/-- Any calls. -/
theorem run_ops (ops : List ScreenOp) {d : σ} (hd : C.Ready d) :
    C.Ready (C.run (ops.flatMap ScreenOp.transfers) d) ∧
      C.shown (C.run (ops.flatMap ScreenOp.transfers) d)
        = ops.foldl ScreenOp.onto (C.shown d) := by
  induction ops generalizing d with
  | nil => exact ⟨hd, rfl⟩
  | cons op ops ih =>
      have hrun : C.run ((op :: ops).flatMap ScreenOp.transfers) d
          = C.run (ops.flatMap ScreenOp.transfers)
            (C.run op.transfers d) := by
        unfold Controller.run
        rw [List.flatMap_cons, List.foldl_append]
      obtain ⟨hready, hshown⟩ := run_op hC op hd
      obtain ⟨hready', hshown'⟩ := ih hready
      rw [hrun]
      exact ⟨hready', by rw [hshown', hshown, List.foldl_cons]⟩

/-- A controller whose place moves forward, as behind a reset, is made
ready, cleared and written to. -/
theorem run_init {d : σ} (hd : C.forward d) :
    C.Ready (C.run diaplaySpiInit d) ∧
      C.shown (C.run diaplaySpiInit d) = .hello := by
  obtain ⟨hbasic, hforward⟩ := hC.functionSet d hd
  have hready := hC.displayOn _ hbasic hforward
  have hrun : C.run diaplaySpiInit d
      = C.run ([ScreenOp.clear, .print 0 0 (bytes "Hello world!")
          (by decide +kernel) (by decide +kernel)].flatMap
            ScreenOp.transfers)
        (C.command 0x0c (C.command 0x30 d)) := by
    rw [← transfer_sendCmd hC 0x30, ← transfer_sendCmd hC 0x0c]
    rfl
  rw [hrun]
  exact run_ops hC _ hready

/-- Whatever is shown by a controller that is ready: after any calls for
texts that fit their lines, and for clearing, the panel shows what the
screen does. And `diaplay_spi_init` is such a beginning.

The induction is on the calls. `Ready` is in it because a call takes the
controller's three modes for granted, and has to leave them to the next one
as it found them. -/
theorem display_refines (ops : List ScreenOp) (d : σ) :
    (C.Ready d → C.Ready (C.run (ops.flatMap ScreenOp.transfers) d) ∧
      C.shown (C.run (ops.flatMap ScreenOp.transfers) d)
        = ops.foldl ScreenOp.onto (C.shown d)) ∧
    (C.forward d →
      C.shown (C.run (diaplaySpiInit ++ ops.flatMap ScreenOp.transfers) d)
        = ops.foldl ScreenOp.onto .hello) := by
  refine ⟨run_ops hC ops, fun hd => ?_⟩
  obtain ⟨hready, hshown⟩ := run_init hC hd
  have hrun : C.run (diaplaySpiInit ++ ops.flatMap ScreenOp.transfers) d
      = C.run (ops.flatMap ScreenOp.transfers)
        (C.run diaplaySpiInit d) := by
    unfold Controller.run
    rw [List.foldl_append]
  rw [hrun, (run_ops hC ops hready).2, hshown]

end

-- ===================================================================== a panel

/-- A controller of this kind: its memory, the place for the next character,
and its modes. -/
structure Panel where
  ddram : Nat → UInt8
  place : Nat
  basic : Bool
  on : Bool
  forward : Bool

/-- Function set is taken in both instruction sets; of the extended ones
nothing else is followed. -/
def Panel.command (cmd : UInt8) (d : Panel) : Panel :=
  if 0x20 ≤ cmd ∧ cmd < 0x40 then
    { d with basic := decide (cmd &&& 0x04 = 0) }
  else if d.basic = false then d
  else if cmd = 0x01 then
    { d with
      ddram := fun _ => 0x20
      place := 0 }
  else if 0x04 ≤ cmd ∧ cmd < 0x08 then
    { d with forward := decide (cmd = 0x06) }
  else if 0x08 ≤ cmd ∧ cmd < 0x10 then
    { d with on := decide (cmd &&& 0x04 ≠ 0) }
  else if 0x80 ≤ cmd then { d with place := 2 * (cmd.toNat % 64) }
  else d

def Panel.data (c : UInt8) (d : Panel) : Panel :=
  { d with
    ddram := Function.update d.ddram d.place c
    place := if d.forward then (d.place + 1) % 128
      else (d.place + 127) % 128 }

/-- The panel as such a display. -/
def panel : Controller Panel where
  transfer
    | [0xf8, high, low] =>
        Panel.command (joined high low)
    | [0xfa, high, low] =>
        Panel.data (joined high low)
    | _ => id
  command := Panel.command
  data := Panel.data
  place := Panel.place
  shown d r k :=
    if d.on then d.ddram (2 * lineAddress r + k.val) else 0x20
  basic d := d.basic = true
  on d := d.on = true
  forward d := d.forward = true

/-- Commands from 0x80 on carry an address. -/
theorem panel_setAddress {a : Nat} (h : a < 64) {d : Panel}
    (hd : d.basic = true) :
    Panel.command (UInt8.ofNat (0x80 + a)) d
      = { d with place := 2 * a } := by
  have hall : ∀ a : Fin 64, let cmd := UInt8.ofNat (0x80 + a.val)
      ¬ (0x20 ≤ cmd ∧ cmd < 0x40) ∧ cmd ≠ 0x01 ∧
        ¬ (0x04 ≤ cmd ∧ cmd < 0x08) ∧ ¬ (0x08 ≤ cmd ∧ cmd < 0x10) ∧
        0x80 ≤ cmd ∧ cmd.toNat % 64 = a.val := by decide +kernel
  obtain ⟨hset, hclear, hentry, hon, haddr, hval⟩ := hall ⟨a, h⟩
  unfold Panel.command
  rw [if_neg hset, if_neg (by simp [hd]), if_neg hclear, if_neg hentry,
    if_neg hon, if_pos haddr, hval]

/-- It behaves as the driver relies on. -/
theorem panel_documented : Documented panel where
  serialCommand _ _ _ := rfl
  serialData _ _ _ := rfl
  functionSet d hd := ⟨rfl, hd⟩
  displayOn d hbasic hforward := by
    have hstep : Panel.command 0x0c d = { d with on := true } := by
      unfold Panel.command
      rw [show d.basic = true from hbasic]
      rfl
    show panel.Ready (Panel.command 0x0c d)
    rw [hstep]
    exact ⟨hbasic, rfl, hforward⟩
  clear d hd := by
    have hstep : Panel.command 0x01 d =
        { d with
          ddram := fun _ => 0x20
          place := 0 } := by
      unfold Panel.command
      rw [show d.basic = true from hd.basic]
      rfl
    show panel.Ready (Panel.command 0x01 d) ∧ _ ∧
      panel.shown (Panel.command 0x01 d) = _
    rw [hstep]
    refine ⟨⟨hd.basic, hd.on, hd.forward⟩, congrArg Panel.place hstep, ?_⟩
    funext r k
    exact if_pos hd.on
  setAddress a d ha hd := by
    show panel.Ready (Panel.command _ d) ∧ Panel.place (Panel.command _ d) = _
      ∧ panel.shown (Panel.command _ d) = _
    rw [panel_setAddress ha hd.basic]
    exact ⟨⟨hd.basic, hd.on, hd.forward⟩, rfl, rfl⟩
  write c d hd hroom := by
    have hplace : (Panel.data c d).place = d.place + 1 := by
      have hlt : d.place + 1 < 128 := hroom
      unfold Panel.data
      rw [if_pos (show d.forward = true from hd.forward),
        Nat.mod_eq_of_lt hlt]
    refine ⟨⟨hd.basic, hd.on, hd.forward⟩, hplace, fun r k => ?_⟩
    have hon : d.on = true := hd.on
    show (if d.on then Function.update d.ddram d.place c
        (2 * lineAddress r + k.val) else 0x20) = if d.place = _ then c
        else if d.on then d.ddram (2 * lineAddress r + k.val) else 0x20
    rw [if_pos hon, if_pos hon, Function.update_apply]
    exact if_congr eq_comm rfl rfl

/-- The panel behind a reset: switched off, with the extended instructions
still selected. -/
def freshPanel : Panel where
  ddram _ := 0x2a
  place := 5
  basic := false
  on := false
  forward := true

/-- It comes up, and a text is put into its third line. -/
theorem display_refines_panel :
    let time := ScreenOp.print 2 1 (bytes "12:34") (by decide +kernel)
      (by decide +kernel)
    panel.shown (panel.run (diaplaySpiInit ++ [time].flatMap
        ScreenOp.transfers) freshPanel) = [time].foldl ScreenOp.onto .hello ∧
      panel.shown (panel.run ([time].flatMap ScreenOp.transfers)
          (panel.run diaplaySpiInit freshPanel))
        = [time].foldl ScreenOp.onto
          (panel.shown (panel.run diaplaySpiInit freshPanel)) := by
  have hready := (run_init panel_documented (d := freshPanel) rfl).1
  exact ⟨(display_refines panel_documented _ freshPanel).2 rfl,
    ((display_refines panel_documented _ _).1 hready).2⟩

end ShZ001.App
