/-
What the header line of a listed message is read as (libGSM.c 969–991).

# The index and the fields

The index is a decimal text, so `strtol` reads it back. A field is read
up to the next separator and loses the quote at its end. `fields` is the
loop with fuel enough, as a function of the text behind the cursor, and
`fields_step` is a turn of it.

# What gets in the way

Two kinds of text do: a comma at the end of a field makes a separator of
the quote behind it (`fields_comma`), and a line end in a field ends the
header there, so that the rest of it is not read. A field without either
is `Kept`, and what is read of it is the field (`fields_kept`); of any
other one it is something else (`fields_lost`).

# Lines

`firstLine` is what `getSMS` takes for the header, the text up to the
first line end. Its lemmas push it over the parts of a header, so that
each field can be looked at by itself.
-/
import ShZ001.Lib.Search
import ShZ001.Sms.Render

namespace ShZ001.Sms

open Lib

-- ============================================================== the fields

/-- `setField` behind the guard of line 974. -/
def storeField (i : Nat) (buf : List UInt8) (msg : SmsMsg) : SmsMsg :=
  if buf.length < 32 ∧ 0 < buf.length then
    setField i (fieldText buf) msg
  else msg

/-- What the field loop makes of a text. -/
def fields (x : List UInt8) (i : Nat) (msg : SmsMsg) : SmsMsg :=
  fieldLoop (x.length + 1) x (nextField x) i msg

theorem strstr_length {pat s r : List UInt8} (h : strstr pat s = some r) :
    r.length ≤ s.length := by
  induction s with
  | nil =>
      unfold strstr at h
      split at h
      · cases h
        exact Nat.le_refl _
      · cases h
  | cons c s ih =>
      unfold strstr at h
      split at h
      · cases h
        exact Nat.le_refl _
      · exact (ih h).trans (Nat.le_succ _)

/-- The separator found is in the text. -/
theorem nextField_length {x pend : List UInt8} (h : nextField x = some pend) :
    pend.length ≤ x.length ∧ 0 < pend.length := by
  have hpos : ∀ {pat : List UInt8}, pat ≠ [] → pat <+: pend →
      0 < pend.length := fun hpat hpre =>
    lt_of_lt_of_le (List.length_pos_iff.mpr hpat) hpre.length_le
  unfold nextField at h
  split at h
  case h_1 r hr =>
      cases h
      exact ⟨strstr_length hr, hpos (by decide) (strstr_begins hr)⟩
  case h_2 =>
      exact ⟨strstr_length h, hpos (by decide) (strstr_begins h)⟩

/-- The text's length is fuel enough. -/
theorem fieldLoop_fuel {fuel : Nat} {x : List UInt8} (h : x.length < fuel)
    (i : Nat) (msg : SmsMsg) :
    fieldLoop fuel x (nextField x) i msg = fields x i msg := by
  have hall : ∀ {fuel fuel' : Nat} {x : List UInt8} {i : Nat} {msg : SmsMsg},
      x.length < fuel → x.length < fuel' →
      fieldLoop fuel x (nextField x) i msg
        = fieldLoop fuel' x (nextField x) i msg := by
    intro fuel
    induction fuel with
    | zero => exact fun h _ => absurd h (Nat.not_lt_zero _)
    | succ fuel ih =>
        intro fuel' x i msg h h'
        obtain ⟨fuel', rfl⟩ :=
          Nat.exists_eq_succ_of_ne_zero (by omega : fuel' ≠ 0)
        cases hp : nextField x with
        | none => rfl
        | some pend =>
            obtain ⟨hle, hpos⟩ := nextField_length hp
            have hdrop : (pend.drop 2).length < x.length := by
              rw [List.length_drop]
              omega
            unfold fieldLoop
            exact ih (by omega) (by omega)
  exact hall h (Nat.lt_succ_self _)

/-- Without a separator the loop is over. -/
theorem fields_end {x : List UInt8} (h : nextField x = none) (i : Nat)
    (msg : SmsMsg) : fields x i msg = msg := by
  unfold fields
  rw [h]
  rfl

/-- One turn of the loop. -/
theorem fields_step {f pend : List UInt8}
    (h : nextField (f ++ pend) = some pend) (i : Nat) (msg : SmsMsg) :
    fields (f ++ pend) i msg
      = fields (pend.drop 2) (i + 1) (storeField i f msg) := by
  obtain ⟨hle, hpos⟩ := nextField_length h
  have hdrop : (pend.drop 2).length < (f ++ pend).length := by
    rw [List.length_drop]
    omega
  have hlen : (f ++ pend).length - pend.length = f.length := by simp
  have hturn : fields (f ++ pend) i msg
      = fieldLoop (f ++ pend).length (pend.drop 2) (nextField (pend.drop 2))
        (i + 1) (storeField i f msg) := by
    unfold fields
    rw [h, fieldLoop, hlen, List.take_left]
    rfl
  rw [hturn, fieldLoop_fuel hdrop]

/-- What no field from `i` on sets stays as it is. -/
theorem fields_keeps {α : Type} (get : SmsMsg → α) {i : Nat}
    (h : ∀ j, i ≤ j → ∀ buf msg, get (setField j buf msg) = get msg)
    (x : List UInt8) (msg : SmsMsg) : get (fields x i msg) = get msg := by
  have hloop : ∀ (fuel : Nat) (x : List UInt8) (p : Option (List UInt8))
      (j : Nat) (msg : SmsMsg), i ≤ j →
      get (fieldLoop fuel x p j msg) = get msg := by
    intro fuel
    induction fuel with
    | zero => exact fun _ _ _ _ _ => rfl
    | succ fuel ih =>
        intro x p j msg hj
        cases p with
        | none => rfl
        | some pend =>
            unfold fieldLoop
            rw [ih _ _ _ _ (Nat.le_succ_of_le hj)]
            split
            · exact h j hj _ _
            · rfl
  exact hloop _ _ _ _ _ (Nat.le_refl i)

-- =========================================================== where they end

/-- The field's comma and the quote behind it read as a separator. -/
def EndsInComma (f : List UInt8) : Prop := f.getLast? = some 0x2c

/-- The separator of fields. -/
def sep : List UInt8 := [0x2c, 0x22]

/-- With its quote behind it a field holds a separator exactly if it ends
in a comma. -/
theorem sep_closed {f : List UInt8} (hq : 0x22 ∉ f) :
    sep <:+: f ++ [0x22] ↔ EndsInComma f := by
  induction f with
  | nil => simp [sep, EndsInComma, List.infix_cons_iff]
  | cons a f ih =>
      rw [List.mem_cons, not_or] at hq
      have hfirst : sep <+: a :: (f ++ [0x22]) ↔ a = 0x2c ∧ f = [] := by
        cases f with
        | nil => simp [sep, eq_comm]
        | cons b f =>
            have hb : b ≠ 0x22 := fun h => hq.2 (by simp [h])
            simp [sep, hb.symm]
      rw [List.cons_append, List.infix_cons_iff, hfirst, ih hq.2]
      unfold EndsInComma
      cases f with
      | nil => simp
      | cons b f => simp

theorem parts_sep (y : List UInt8) : Parts sep (sep ++ y) :=
  parts_cons.mpr (by decide)

/-- A text that holds no separator, up to a separator. -/
theorem nextField_sep {f : List UInt8} (hf : ¬ sep <:+: f)
    (y : List UInt8) : nextField (f ++ (sep ++ y)) = some (sep ++ y) := by
  unfold nextField
  rw [show bytes ",\"" = sep from rfl, strstr_skip (parts_sep y) hf,
    strstr_here (by decide)]

/-- A text that holds no separator, up to the quote that ends the line. -/
theorem nextField_last {f : List UInt8} (hq : 0x22 ∉ f)
    (hf : ¬ EndsInComma f) : nextField (f ++ [0x22]) = some [0x22] := by
  have hquote : strstr (bytes "\"") (f ++ [0x22]) = some [0x22] := by
    rw [show bytes "\"" = [0x22] from rfl,
      strstr_skip (parts_cons.mpr (by decide)) (not_infix_of_head hq)]
    rfl
  unfold nextField
  rw [show bytes ",\"" = sep from rfl,
    strstr_none (mt (sep_closed hq).mp hf)]
  exact hquote

/-- A text without quotes is the end. -/
theorem nextField_open {f : List UInt8} (hq : 0x22 ∉ f) :
    nextField f = none := by
  unfold nextField
  rw [strstr_none (fun h => hq (h.subset (by decide)))]
  exact strstr_none (not_infix_of_head hq)

/-- A quote at the end of a field is taken off. -/
theorem storeField_closed (i : Nat) {f : List UInt8} (msg : SmsMsg)
    (hlen : f.length ≤ 30) :
    storeField i (f ++ [0x22]) msg = setField i f msg := by
  unfold storeField fieldText
  rw [if_pos (by simp; omega), if_pos (by simp), List.dropLast_concat]

/-- Without one nothing is taken off. -/
theorem storeField_open (i : Nat) {f : List UInt8} (msg : SmsMsg)
    (hq : 0x22 ∉ f) (hne : f ≠ []) (hlen : f.length ≤ 30) :
    storeField i f msg = setField i f msg := by
  have hlast : f.getLast? ≠ some 0x22 := by
    intro h
    exact hq (List.mem_of_getLast? h)
  unfold storeField fieldText
  rw [if_pos ⟨by omega, List.length_pos_iff.mpr hne⟩, if_neg hlast]

/-- A field up to the separator behind its quote. -/
theorem fields_closed {f : List UInt8} (hq : 0x22 ∉ f)
    (hc : ¬ EndsInComma f) (y : List UInt8) (i : Nat) (msg : SmsMsg) :
    fields (f ++ 0x22 :: (sep ++ y)) i msg
      = fields y (i + 1) (storeField i (f ++ [0x22]) msg) := by
  have hshape : f ++ 0x22 :: (sep ++ y) = f ++ [0x22] ++ (sep ++ y) := by
    simp
  rw [hshape]
  exact fields_step (nextField_sep (mt (sep_closed hq).mp hc) y) i msg

/-- A field that ends in a comma is cut off there, and what is behind its
quote begins the next one. -/
theorem fields_comma {g : List UInt8} (hq : 0x22 ∉ g) (y : List UInt8)
    (i : Nat) (msg : SmsMsg) :
    fields (g ++ [0x2c] ++ 0x22 :: y) i msg
      = fields y (i + 1) (storeField i g msg) := by
  have hg : ¬ sep <:+: g := fun h => hq (h.subset (by decide))
  have hshape : g ++ [0x2c] ++ 0x22 :: y = g ++ (sep ++ y) := by
    simp [sep]
  rw [hshape]
  exact fields_step (nextField_sep hg y) i msg

/-- Nothing between two separators: nothing is stored. -/
theorem fields_sep (y : List UInt8) (i : Nat) (msg : SmsMsg) :
    fields (sep ++ y) i msg = fields y (i + 1) msg :=
  fields_step (f := []) (nextField_sep (by decide) y) i msg

/-- The last field, up to its quote. -/
theorem fields_last {f : List UInt8} (hq : 0x22 ∉ f)
    (hc : ¬ EndsInComma f) (i : Nat) (msg : SmsMsg) :
    fields (f ++ [0x22]) i msg = storeField i f msg := by
  rw [fields_step (nextField_last hq hc) i msg]
  exact fields_end rfl _ _

theorem endsInComma_iff {f : List UInt8} :
    EndsInComma f ↔ ∃ g, f = g ++ [0x2c] :=
  List.getLast?_eq_some_iff

-- =============================================================== the lines

/-- The text has no line end. -/
def OneLine (x : List UInt8) : Prop := ¬ crlfStr <:+: x

/-- The text up to its first line end. -/
def firstLine (x : List UInt8) : List UInt8 :=
  match strstr crlfStr x with
  | some pend => x.take (x.length - pend.length)
  | none => x

theorem oneLine_nil : OneLine [] := by
  unfold OneLine
  decide

theorem parts_crlf (s : List UInt8) : Parts crlfStr (crlfStr ++ s) :=
  parts_cons.mpr (by decide)

/-- A line is found to its end, -/
theorem strstr_line {a : List UInt8} (h : OneLine a) (s : List UInt8) :
    strstr crlfStr (a ++ (crlfStr ++ s)) = some (crlfStr ++ s) := by
  rw [strstr_skip (parts_crlf s) h, strstr_here (by decide)]

theorem firstLine_self {x : List UInt8} (h : OneLine x) :
    firstLine x = x := by
  unfold firstLine
  rw [strstr_none h]

/-- and is what stands before it. -/
theorem firstLine_cut {a : List UInt8} (h : OneLine a) (s : List UInt8) :
    firstLine (a ++ (crlfStr ++ s)) = a := by
  unfold firstLine
  rw [strstr_line h]
  simp

/-- A text with line ends, at its first one. -/
theorem exists_line {x : List UInt8} (h : ¬ OneLine x) :
    ∃ a b, x = a ++ (crlfStr ++ b) ∧ OneLine a := by
  obtain ⟨a, b, hx, ha⟩ := exists_first (not_not.mp h) (by decide)
  exact ⟨a, b, hx, ha (parts_cons.mpr (by decide))⟩

theorem oneLine_firstLine (x : List UInt8) : OneLine (firstLine x) := by
  by_cases h : OneLine x
  · rw [firstLine_self h]
    exact h
  · obtain ⟨a, b, rfl, ha⟩ := exists_line h
    rw [firstLine_cut ha]
    exact ha

/-- The search for the end of a line finds that of the first one. -/
theorem exists_rest (x s : List UInt8) :
    ∃ t, x ++ (crlfStr ++ s) = firstLine x ++ (crlfStr ++ t) := by
  by_cases h : OneLine x
  · exact ⟨s, by rw [firstLine_self h]⟩
  · obtain ⟨a, b, rfl, ha⟩ := exists_line h
    exact ⟨b ++ (crlfStr ++ s), by rw [firstLine_cut ha]; simp⟩

/-- A text without a line end is passed over, if it does not begin one with
what follows. -/
theorem firstLine_append {a s : List UInt8} (h : OneLine a)
    (hs : Parts crlfStr s) : firstLine (a ++ s) = a ++ firstLine s := by
  by_cases hline : OneLine s
  · have hboth : OneLine (a ++ s) := fun hin =>
      ((infix_append_parts hs).mp hin).elim h hline
    rw [firstLine_self hline, firstLine_self hboth]
  · obtain ⟨b, c, rfl, hb⟩ := exists_line hline
    have hboth : OneLine (a ++ b) := by
      intro hin
      have hb' : Parts crlfStr b := by
        cases b with
        | nil => exact parts_nil _
        | cons d b => exact parts_cons.mpr (parts_cons.mp hs)
      exact ((infix_append_parts hb').mp hin).elim h hb
    rw [firstLine_cut hb, ← List.append_assoc, firstLine_cut hboth]

/-- A byte that begins no line end. -/
theorem firstLine_cons {c : UInt8} (hc : c ≠ 0x0d) (s : List UInt8) :
    firstLine (c :: s) = c :: firstLine s := by
  have hskip : strstr crlfStr (c :: s) = strstr crlfStr s := by
    rw [strstr, if_neg]
    simp [crlfStr, bytes, hc.symm]
  unfold firstLine
  rw [hskip]
  cases h : strstr crlfStr s with
  | none => rfl
  | some pend =>
      have hle := strstr_length h
      dsimp only
      rw [List.length_cons, Nat.succ_sub hle, List.take_succ_cons]

theorem firstLine_sep (y : List UInt8) :
    firstLine (sep ++ y) = sep ++ firstLine y := by
  show firstLine (0x2c :: 0x22 :: y) = _
  rw [firstLine_cons (by decide), firstLine_cons (by decide)]
  rfl

/-- A field without a line end, and its quote. -/
theorem firstLine_field {f : List UInt8} (h : OneLine f) (y : List UInt8) :
    firstLine (f ++ 0x22 :: y) = f ++ 0x22 :: firstLine y := by
  rw [firstLine_append h (parts_cons.mpr (by decide)),
    firstLine_cons (by decide)]

/-- A field with one ends the line. -/
theorem firstLine_broken {f : List UInt8} (h : ¬ OneLine f)
    (y : List UInt8) : ∃ a b, f = a ++ (crlfStr ++ b) ∧ OneLine a ∧
      firstLine (f ++ y) = a := by
  obtain ⟨a, b, rfl, ha⟩ := exists_line h
  refine ⟨a, b, rfl, ha, ?_⟩
  rw [List.append_assoc, List.append_assoc, firstLine_cut ha]

-- ============================================================ what is read

/-- A field that is read as it is listed. -/
structure Kept (f : List UInt8) : Prop where
  line : OneLine f
  comma : ¬ EndsInComma f

theorem kept_nil : Kept [] := ⟨oneLine_nil, nofun⟩

/-- Behind it the next field is read. -/
theorem fields_kept {f : List UInt8} (h : Kept f) (hq : 0x22 ∉ f)
    (hlen : f.length ≤ 30) (y : List UInt8) (i : Nat) (msg : SmsMsg) :
    fields (firstLine (f ++ 0x22 :: (sep ++ y))) i msg
      = fields (firstLine y) (i + 1) (setField i f msg) := by
  rw [firstLine_field h.line, firstLine_sep, fields_closed hq h.comma,
    storeField_closed i msg hlen]

/-- A broken field is the end of the header. -/
theorem fields_broken {f : List UInt8} (h : ¬ OneLine f) (hq : 0x22 ∉ f)
    (y : List UInt8) (i : Nat) (msg : SmsMsg) :
    fields (firstLine (f ++ y)) i msg = msg := by
  obtain ⟨a, b, rfl, -, hline⟩ := firstLine_broken h y
  rw [hline]
  refine fields_end (nextField_open fun ha => hq ?_) i msg
  exact List.mem_append_left _ ha

/-- A field that is not kept is not read as listed: nothing is stored, or
it has lost its comma. -/
theorem fields_lost {f : List UInt8} (h : ¬ Kept f) (hq : 0x22 ∉ f)
    (get : SmsMsg → List UInt8) {i : Nat}
    (hset : ∀ buf msg, get (setField i buf msg) = buf)
    (hkeep : ∀ j, i + 1 ≤ j → ∀ buf msg,
      get (setField j buf msg) = get msg)
    (y : List UInt8) {msg : SmsMsg} (hmsg : get msg = []) :
    get (fields (firstLine (f ++ 0x22 :: y)) i msg) ≠ f := by
  by_cases hline : OneLine f
  · have hc : EndsInComma f := not_not.mp fun hc => h ⟨hline, hc⟩
    obtain ⟨g, rfl⟩ := endsInComma_iff.mp hc
    have hg : 0x22 ∉ g := fun hg => hq (List.mem_append_left _ hg)
    rw [firstLine_field hline, fields_comma hg, fields_keeps get hkeep]
    intro heq
    have hlen := congrArg List.length heq
    rw [List.length_append, List.length_singleton] at hlen
    unfold storeField at hlen
    split at hlen
    · rw [hset] at hlen
      unfold fieldText at hlen
      split at hlen
      · rw [List.length_dropLast] at hlen
        omega
      · omega
    · rw [hmsg, List.length_nil] at hlen
      omega
  · rw [fields_broken hline hq, hmsg]
    intro h
    subst h
    exact hline oneLine_nil

end ShZ001.Sms
