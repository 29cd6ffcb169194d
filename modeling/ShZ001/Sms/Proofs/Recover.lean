/-
Does reading the list give back what was listed? (libGSM.c 911–1007)

# The markers

`numSMS` counts the markers in the reply, so a marker in a field or a
body counts as a message (`numSMS_render`). The text between two
messages is such that no marker begins in one part of it and ends in the
next, so that the markers of a listing are those of its parts (`Parts`,
`occurs_append`).

# One message

Behind the right marker `getSMS` takes the header and the body up to the
next line ends, wherever these are, so a line end inside a field or a
body cuts it off, and a comma at the end of a field makes a separator of
the quote behind it (`Fields.lean`). `readAs_cut` is the whole of it: a
message is read as listed exactly if it is `Clear`.

# The condition

`recovered_iff` says exactly which lists come back. One odd kind of
message is among them: a line end in the name hides the time and makes a
body of what is behind it in the header, and both may happen to be what
was listed (`Listed.Odd`).
-/
import ShZ001.Sms.Proofs.Fields

namespace ShZ001.Sms

open Lib

-- ============================================================= the markers

/-- The markers inside a message, besides its own. -/
def Listed.marks (m : Listed) : Nat :=
  occurs cmglStr m.status + occurs cmglStr m.sender + occurs cmglStr m.name
    + occurs cmglStr m.time + occurs cmglStr m.body

/-- No field and not the body has the marker in it. -/
def Listed.Unmarked (m : Listed) : Prop :=
  ∀ x ∈ [m.status, m.sender, m.name, m.time, m.body], ¬ cmglStr <:+: x

theorem marks_eq_zero {m : Listed} : m.marks = 0 ↔ m.Unmarked := by
  have hne : cmglStr ≠ [] := by decide
  unfold Listed.marks Listed.Unmarked
  simp only [Nat.add_eq_zero_iff, occurs_eq_zero hne, List.forall_mem_cons,
    and_assoc]
  simp

/-- What follows the marker of a message, up to the next one. -/
def Listed.text (m : Listed) : List UInt8 :=
  m.header ++ (crlfStr ++ (m.body ++ crlfStr))

theorem render_cons (m : Listed) (ms : List Listed) :
    render (m :: ms) = cmglStr ++ (m.text ++ render ms) := by
  simp [render, Listed.text]

/-- A listing begins with a plus sign or a line end, so no marker reaches
into it from before. -/
theorem parts_render (ms : List Listed) : Parts cmglStr (render ms) := by
  cases ms with
  | nil => exact parts_cons.mpr (by decide)
  | cons m ms =>
      rw [render_cons]
      exact parts_cons.mpr (by decide)

/-- What is without a plus sign has no marker. -/
theorem occurs_plain {a : List UInt8} (h : 0x2b ∉ a) (s : List UInt8) :
    occurs cmglStr (a ++ s) = occurs cmglStr s :=
  occurs_free h (bytes "CMGL: ") s

theorem occurs_marker (s : List UInt8) :
    occurs cmglStr (cmglStr ++ s) = occurs cmglStr s + 1 :=
  occurs_self (c := 0x2b) (by decide) s

/-- A field between its quotes. -/
theorem occurs_quoted (f y : List UInt8) :
    occurs cmglStr (quoted f ++ y) = occurs cmglStr f + occurs cmglStr y := by
  have hquote : Parts cmglStr (bytes "\"" ++ y) :=
    parts_cons.mpr (by decide)
  unfold quoted
  rw [List.append_assoc, List.append_assoc, occurs_plain (by decide),
    occurs_append hquote, occurs_plain (by decide)]

/-- The markers of a message are those of its texts: none arises between
them. -/
theorem occurs_text (m : Listed) : occurs cmglStr m.text = m.marks := by
  have hdigits : 0x2b ∉ decimal m.index := not_mem_decimal rfl m.index
  have hline : 0x2b ∉ crlfStr := by decide
  have hbody : occurs cmglStr (m.body ++ crlfStr) = occurs cmglStr m.body :=
    occurs_append (parts_cons.mpr (by decide))
  unfold Listed.text Listed.header Listed.marks
  simp only [List.append_assoc]
  rw [occurs_plain hdigits, occurs_quoted, occurs_quoted, occurs_quoted,
    occurs_quoted, occurs_plain hline, hbody]
  omega

theorem occurs_render_cons (m : Listed) (ms : List Listed) :
    occurs cmglStr (render (m :: ms))
      = m.marks + occurs cmglStr (render ms) + 1 := by
  rw [render_cons, occurs_marker, occurs_append (parts_render ms),
    occurs_text]

-- ============================================================== the search

/-- The search loops stop at the marker and go on behind it. -/
theorem exists_marker {t r : List UInt8} (h : strstr cmglStr t = some r) :
    ∃ s, r = cmglStr ++ s ∧ r.drop 7 = s ∧ s.length < t.length ∧
      occurs cmglStr t = occurs cmglStr s + 1 := by
  obtain ⟨s, rfl⟩ := strstr_begins h
  refine ⟨s, rfl, rfl, ?_, ?_⟩
  · have hle := strstr_length h
    rw [List.length_append] at hle
    have hpos : 0 < cmglStr.length := by decide
    omega
  · rw [occurs_strstr h, occurs_marker]

/-- The loop counts on from where it is. -/
theorem numSMSLoop_eq {fuel : Nat} {t : List UInt8} (h : t.length < fuel)
    (n : Nat) : numSMSLoop fuel t n = n + occurs cmglStr t := by
  induction fuel generalizing t n with
  | zero => exact absurd h (Nat.not_lt_zero _)
  | succ fuel ih =>
      unfold numSMSLoop
      cases hr : strstr cmglStr t with
      | none =>
          rw [occurs_none (by decide) hr]
          rfl
      | some r =>
          obtain ⟨s, -, hdrop, hlt, hocc⟩ := exists_marker hr
          dsimp only
          rw [hdrop, ih (by omega), hocc]
          omega

/-- `numSMS` counts the markers. -/
theorem numSMS_eq (t : List UInt8) : numSMS t = occurs cmglStr t := by
  unfold numSMS
  split
  case isTrue h =>
      rw [List.eq_nil_of_length_eq_zero h]
      rfl
  case isFalse =>
      rw [numSMSLoop_eq (Nat.lt_succ_self _), Nat.zero_add]

/-- The number is right if and only if there are no other markers. -/
theorem numSMS_render (ms : List Listed) :
    numSMS (render ms) = ms.length ↔ ∀ m ∈ ms, m.Unmarked := by
  rw [numSMS_eq]
  have hge : ∀ ms : List Listed, ms.length ≤ occurs cmglStr (render ms) := by
    intro ms
    induction ms with
    | nil => exact Nat.zero_le _
    | cons m ms ih =>
        rw [occurs_render_cons, List.length_cons]
        omega
  induction ms with
  | nil => exact iff_of_true rfl nofun
  | cons m ms ih =>
      rw [occurs_render_cons, List.length_cons, List.forall_mem_cons]
      refine Iff.trans ?_ (and_congr marks_eq_zero ih)
      have hrest := hge ms
      omega

/-- The search for a message, from a text before the list, ends behind its
marker. -/
theorem findSMSLoop_render {ms : List Listed}
    (hms : ∀ m ∈ ms, m.Unmarked) {k : Nat} {m : Listed}
    (hk : ms[k]? = some m) {fuel : Nat} (hfuel : k < fuel) {t : List UInt8}
    (ht : strstr cmglStr t = strstr cmglStr (render ms)) (n : Nat) :
    ∃ s, findSMSLoop (n + k + 1) fuel t n
      = (some (m.text ++ s), n + k + 1) := by
  induction ms generalizing k fuel t n with
  | nil => cases hk
  | cons m₀ ms ih =>
      rw [List.forall_mem_cons] at hms
      obtain ⟨fuel, rfl⟩ :=
        Nat.exists_eq_succ_of_ne_zero (by omega : fuel ≠ 0)
      rw [render_cons, strstr_here (by decide)] at ht
      unfold findSMSLoop
      rw [ht]
      change ∃ s, (if n + 1 = n + k + 1 then
          (some (m₀.text ++ render ms), n + 1)
        else findSMSLoop (n + k + 1) fuel (m₀.text ++ render ms) (n + 1)) = _
      cases k with
      | zero =>
          obtain rfl : m₀ = m := Option.some.inj hk
          rw [if_pos rfl]
          exact ⟨render ms, rfl⟩
      | succ k =>
          have hfree : ¬ cmglStr <:+: m₀.text := by
            rw [← occurs_eq_zero (by decide), occurs_text]
            exact marks_eq_zero.mpr hms.1
          have hnext := ih hms.2 hk (show k < fuel by omega)
            (strstr_skip (parts_render ms) hfree) (n + 1)
          rw [if_neg (by omega),
            show n + (k + 1) + 1 = n + 1 + k + 1 by omega]
          exact hnext

-- ============================================================ one message

/-- The record made of a header line and a body. -/
def parsed (hdr body : List UInt8) : SmsMsg :=
  fieldLoop (hdr.length + 1) hdr (strstr (bytes ",\"") hdr) 1
    { SmsMsg.zero with msg := some body }

/-- `getSMS` behind the right marker: the header and the body up to the
next line ends. -/
theorem getSMS_found {rbuffer hdr body s : List UInt8} {idx : Nat}
    (hfind : findSMSLoop idx (rbuffer.length + 1) rbuffer 0
      = (some (hdr ++ (crlfStr ++ (body ++ (crlfStr ++ s)))), idx))
    (hhdr : OneLine hdr) (hbody : OneLine body) (locals : ScanLocals) :
    getSMS rbuffer idx locals
      = (idx, some (setTime locals (parsed hdr body))) := by
  have hdrop : ∀ t, (crlfStr ++ t).drop 2 = t := fun _ => rfl
  have htake : ∀ a t : List UInt8,
      (a ++ t).take ((a ++ t).length - t.length) = a := fun a t => by simp
  unfold getSMS
  rw [hfind]
  dsimp only
  rw [if_neg (not_not.mpr rfl), strstr_line hhdr]
  dsimp only
  rw [hdrop, strstr_line hbody]
  dsimp only
  rw [htake, htake]
  rfl

/-- The time fields are no field of the listing. -/
theorem setTime_frame (locals : ScanLocals) (msg : SmsMsg) :
    (setTime locals msg).idx = msg.idx ∧
      (setTime locals msg).stat = msg.stat ∧
      (setTime locals msg).from' = msg.from' ∧
      (setTime locals msg).time = msg.time ∧
      (setTime locals msg).msg = msg.msg := by
  unfold setTime
  split <;> exact ⟨rfl, rfl, rfl, rfl, rfl⟩

/-- The record has what was listed. -/
structure Listed.ReadAs (m : Listed) (r : SmsMsg) : Prop where
  idx : r.idx = m.index
  stat : r.stat = m.status
  from' : r.from' = m.sender
  time : r.time = m.time
  msg : r.msg = some m.body

/-- So they do not matter to what was listed. -/
theorem readAs_setTime {m : Listed} {locals : ScanLocals} {r : SmsMsg} :
    m.ReadAs (setTime locals r) ↔ m.ReadAs r := by
  obtain ⟨hidx, hstat, hfrom, htime, hmsg⟩ := setTime_frame locals r
  constructor
  · intro h
    obtain ⟨h₁, h₂, h₃, h₄, h₅⟩ := h
    exact ⟨hidx ▸ h₁, hstat ▸ h₂, hfrom ▸ h₃, htime ▸ h₄, hmsg ▸ h₅⟩
  · intro h
    obtain ⟨h₁, h₂, h₃, h₄, h₅⟩ := h
    exact ⟨hidx.trans h₁, hstat.trans h₂, hfrom.trans h₃, htime.trans h₄,
      hmsg.trans h₅⟩

-- ============================================================== the header

/-- The header from the name on. -/
def Listed.tail (m : Listed) : List UInt8 :=
  m.name ++ 0x22 :: (sep ++ (m.time ++ [0x22]))

/-- The header from the status on. -/
def Listed.columns (m : Listed) : List UInt8 :=
  m.status ++ 0x22 :: (sep ++ (m.sender ++ 0x22 :: (sep ++ m.tail)))

theorem header_eq (m : Listed) :
    m.header = decimal m.index ++ (sep ++ m.columns) := by
  simp [Listed.header, quoted, Listed.columns, Listed.tail, sep, bytes]

theorem firstLine_header (m : Listed) :
    firstLine m.header
      = decimal m.index ++ (sep ++ firstLine m.columns) := by
  have hdigits : OneLine (decimal m.index) :=
    not_infix_of_head (not_mem_decimal rfl m.index)
  have hsep : Parts crlfStr (sep ++ m.columns) :=
    parts_cons.mpr (by decide)
  rw [header_eq, firstLine_append hdigits hsep, firstLine_sep]

/-- Status and sender, if they are of one line, are in the header line with
all that follows them. -/
theorem firstLine_columns {m : Listed} (hstat : OneLine m.status)
    (hfrom : OneLine m.sender) :
    firstLine m.columns = m.status ++ 0x22 :: (sep ++ (m.sender ++
      0x22 :: (sep ++ firstLine m.tail))) := by
  unfold Listed.columns
  rw [firstLine_field hstat, firstLine_sep, firstLine_field hfrom,
    firstLine_sep]

/-- The index is read, and the fields are next. -/
theorem parsed_index (m : Listed) (x body : List UInt8) :
    parsed (decimal m.index ++ (sep ++ x)) body
      = fields x 2
        { SmsMsg.zero with msg := some body, idx := m.index } := by
  have hquote : (0x22 : UInt8) ∉ decimal m.index :=
    not_mem_decimal rfl m.index
  have hnext := nextField_sep (f := decimal m.index)
    (fun h => hquote (h.subset (by decide))) x
  have hfirst : strstr (bytes ",\"") (decimal m.index ++ (sep ++ x))
      = nextField (decimal m.index ++ (sep ++ x)) := by
    rw [hnext]
    exact (strstr_skip (parts_sep x)
      (fun h => hquote (h.subset (by decide)))).trans
      (strstr_here (by decide) x)
  have hlen : (decimal m.index).length ≤ 10 :=
    decimalLoop_length (Nat.lt_trans m.index_lt (by decide))
  have hne : decimal m.index ≠ [] := by
    obtain ⟨b, ds, hds, -⟩ := decimalLoop_head (Nat.lt_succ_self m.index)
    unfold decimal
    rw [hds]
    exact List.cons_ne_nil b ds
  unfold parsed
  rw [hfirst]
  change fields _ 1 _ = _
  rw [fields_step hnext, storeField_open _ _ hquote hne (by omega)]
  change fields x 2 { SmsMsg.zero with
    msg := some body, idx := strtol (decimal m.index) } = _
  rw [strtol_decimal m.index_lt]

/-- The name is not stored. -/
theorem storeField_name (f : List UInt8) (msg : SmsMsg) :
    storeField 4 f msg = msg := by
  unfold storeField setField
  simp

/-- A field behind another one leaves it as it is. -/
theorem setField_frame (j : Nat) (buf : List UInt8) (msg : SmsMsg) :
    (setField j buf msg).msg = msg.msg ∧
      (2 ≤ j → (setField j buf msg).idx = msg.idx) ∧
      (3 ≤ j → (setField j buf msg).stat = msg.stat) ∧
      (4 ≤ j → (setField j buf msg).from' = msg.from') ∧
      (6 ≤ j → (setField j buf msg).time = msg.time) := by
  unfold setField
  split_ifs <;> refine ⟨rfl, fun h => ?_, fun h => ?_, fun h => ?_,
    fun h => ?_⟩ <;> first | rfl | omega

theorem stat_frame {j : Nat} (hj : 3 ≤ j) (buf : List UInt8)
    (msg : SmsMsg) : (setField j buf msg).stat = msg.stat :=
  (setField_frame j buf msg).2.2.1 hj

theorem from_frame {j : Nat} (hj : 4 ≤ j) (buf : List UInt8)
    (msg : SmsMsg) : (setField j buf msg).from' = msg.from' :=
  (setField_frame j buf msg).2.2.2.1 hj

theorem time_frame {j : Nat} (hj : 6 ≤ j) (buf : List UInt8)
    (msg : SmsMsg) : (setField j buf msg).time = msg.time :=
  (setField_frame j buf msg).2.2.2.2 hj

/-- The last field. -/
theorem fields_time {m : Listed} {msg : SmsMsg} (hmsg : msg.time = []) :
    (fields (firstLine (m.time ++ [0x22])) 5 msg).time = m.time
      ↔ Kept m.time := by
  obtain ⟨⟨hq, -⟩, hlen⟩ := m.time_ok
  constructor
  · intro h
    by_contra hlost
    exact fields_lost hlost hq SmsMsg.time (fun _ _ => rfl)
      (fun _ hj => time_frame hj) [] hmsg h
  · intro hkept
    have hend : firstLine [] = [] := rfl
    rw [firstLine_field hkept.line, hend, fields_last hq hkept.comma]
    by_cases hne : m.time = []
    · rw [hne]
      exact hmsg
    · rw [storeField_open 5 msg hq hne hlen]
      rfl

/-- The time in what is left of a header from the name on. -/
structure Listed.TimeKept (m : Listed) : Prop where
  plain : OneLine m.name → Kept m.time
  comma : EndsInComma m.name → m.time = []
  broken : ¬ OneLine m.name → m.time = []

/-- What is left of the header gives the time back exactly then. -/
theorem fields_tail {m : Listed} {msg : SmsMsg} (hmsg : msg.time = []) :
    (fields (firstLine m.tail) 4 msg).time = m.time ↔ m.TimeKept := by
  have hq := m.name_ok.quote
  unfold Listed.tail
  by_cases hline : OneLine m.name
  · rw [firstLine_field hline, firstLine_sep]
    by_cases hc : EndsInComma m.name
    · -- the separator behind the name is taken for the time
      obtain ⟨g, hg⟩ := endsInComma_iff.mp hc
      have hread : (fields (m.name ++ 0x22 :: (sep ++
          firstLine (m.time ++ [0x22]))) 4 msg).time = [] := by
        rw [hg, fields_comma (fun hin => hq (by rw [hg]; simp [hin])),
          storeField_name, fields_sep, fields_keeps SmsMsg.time
            (fun _ hj => time_frame hj), hmsg]
      rw [hread]
      constructor
      · intro h
        exact ⟨fun _ => h ▸ kept_nil, fun _ => h.symm, fun h => absurd hline h⟩
      · exact fun h => (h.comma hc).symm
    · rw [fields_closed hq hc, storeField_name, fields_time hmsg]
      exact ⟨fun h => ⟨fun _ => h, fun h => absurd h hc,
        fun h => absurd hline h⟩, fun h => h.plain hline⟩
  · rw [fields_broken hline hq, hmsg]
    exact ⟨fun h => ⟨fun h => absurd h hline, fun _ => h.symm,
      fun _ => h.symm⟩, fun h => (h.broken hline).symm⟩

/-- What a message is read as, with this body. -/
theorem readAs_parsed {m : Listed} {body : List UInt8} :
    m.ReadAs (parsed (firstLine m.header) body) ↔
      Kept m.status ∧ Kept m.sender ∧ m.TimeKept ∧ body = m.body := by
  obtain ⟨⟨hqstat, -⟩, hlstat⟩ := m.status_ok
  obtain ⟨⟨hqfrom, -⟩, hlfrom⟩ := m.sender_ok
  rw [firstLine_header, parsed_index]
  unfold Listed.columns
  by_cases hstat : Kept m.status
  case neg =>
      refine iff_of_false (fun h => ?_) (fun h => hstat h.1)
      exact fields_lost hstat hqstat SmsMsg.stat
        (fun _ _ => rfl) (fun _ hj => stat_frame hj) _ rfl h.stat
  rw [fields_kept hstat hqstat hlstat]
  by_cases hfrom : Kept m.sender
  case neg =>
      refine iff_of_false (fun h => ?_) (fun h => hfrom h.2.1)
      exact fields_lost hfrom hqfrom SmsMsg.from'
        (fun _ _ => rfl) (fun _ hj => from_frame hj) _ rfl h.from'
  rw [fields_kept hfrom hqfrom hlfrom]
  -- from the name on only the time is stored
  change m.ReadAs (fields (firstLine m.tail) 4
    { SmsMsg.zero with
      msg := some body
      idx := m.index
      stat := m.status
      from' := m.sender }) ↔ _
  generalize hmsg : ({ SmsMsg.zero with
    msg := some body
    idx := m.index
    stat := m.status
    from' := m.sender } : SmsMsg) = msg
  have hidx : (fields (firstLine m.tail) 4 msg).idx = m.index := by
    rw [fields_keeps SmsMsg.idx (fun j hj buf msg =>
      (setField_frame j buf msg).2.1 (by omega)), ← hmsg]
  have hst : (fields (firstLine m.tail) 4 msg).stat = m.status := by
    rw [fields_keeps SmsMsg.stat (fun _ hj => stat_frame (by omega)),
      ← hmsg]
  have hfr : (fields (firstLine m.tail) 4 msg).from' = m.sender := by
    rw [fields_keeps SmsMsg.from' (fun _ hj => from_frame hj), ← hmsg]
  have hbody : (fields (firstLine m.tail) 4 msg).msg = some body := by
    rw [fields_keeps SmsMsg.msg (fun j _ buf msg =>
      (setField_frame j buf msg).1), ← hmsg]
  have htime : msg.time = [] := by
    rw [← hmsg]
    rfl
  constructor
  · intro h
    obtain ⟨-, -, -, ht, hb⟩ := h
    exact ⟨hstat, hfrom, (fields_tail htime).mp ht,
      Option.some.inj (hbody.symm.trans hb)⟩
  · intro h
    obtain ⟨-, -, ht, rfl⟩ := h
    exact ⟨hidx, hst, hfr, (fields_tail htime).mpr ht, hbody⟩

-- ============================================================ the condition

/-- No text with a line end. An empty time may be behind a name that ends
in a comma. -/
structure Listed.Plain (m : Listed) : Prop where
  name : OneLine m.name
  time : Kept m.time
  body : OneLine m.body
  comma : EndsInComma m.name → m.time = []

/-- There is no time, and the body is what follows a line end in the
name. -/
def Listed.Odd (m : Listed) : Prop :=
  m.time = [] ∧ ∃ a b, m.name = a ++ (crlfStr ++ b) ∧ OneLine a ∧
    m.body = firstLine (b ++ bytes "\",\"\"")

/-- The message is read as it is listed. -/
structure Listed.Clear (m : Listed) : Prop where
  status : Kept m.status
  sender : Kept m.sender
  rest : m.Plain ∨ m.Odd

/-- Where `getSMS` cuts the text behind a marker. -/
theorem exists_cut (m : Listed) (s : List UInt8) :
    ∃ body t, m.text ++ s
        = firstLine m.header ++ (crlfStr ++ (body ++ (crlfStr ++ t))) ∧
      OneLine body ∧
      (OneLine m.header → body = firstLine m.body) ∧
      (∀ a c, m.header = a ++ (crlfStr ++ c) → OneLine a →
        body = firstLine c) := by
  have htext : m.text ++ s
      = m.header ++ (crlfStr ++ (m.body ++ (crlfStr ++ s))) := by
    simp [Listed.text]
  rw [htext]
  by_cases hline : OneLine m.header
  · obtain ⟨t, ht⟩ := exists_rest m.body s
    refine ⟨firstLine m.body, t, ?_, oneLine_firstLine _, fun _ => rfl, ?_⟩
    · rw [firstLine_self hline, ht]
    · intro a c hac _
      refine absurd ?_ hline
      rw [hac]
      exact ⟨a, c, by simp⟩
  · obtain ⟨a, c, hac, ha⟩ := exists_line hline
    obtain ⟨t, ht⟩ := exists_rest c (m.body ++ (crlfStr ++ s))
    refine ⟨firstLine c, t, ?_, oneLine_firstLine _,
      fun h => absurd h hline, ?_⟩
    · rw [hac, firstLine_cut ha, List.append_assoc, List.append_assoc, ht]
    · intro a' c' hac' ha'
      have hsame : crlfStr ++ c = crlfStr ++ c' := by
        have hfound := strstr_line ha c
        rw [← hac, hac', strstr_line ha'] at hfound
        exact (Option.some.inj hfound).symm
      rw [List.append_cancel_left hsame]

/-- A header without a line end. -/
theorem oneLine_header {m : Listed} (hstat : OneLine m.status)
    (hfrom : OneLine m.sender) (hname : OneLine m.name)
    (htime : OneLine m.time) : OneLine m.header := by
  have hself : firstLine m.header = m.header := by
    have htail : firstLine m.tail = m.tail := by
      unfold Listed.tail
      rw [firstLine_field hname, firstLine_sep, firstLine_field htime]
      rfl
    rw [firstLine_header, firstLine_columns hstat hfrom, htail, header_eq]
    rfl
  rw [← hself]
  exact oneLine_firstLine _

/-- A header whose first line end is in the name. -/
theorem header_broken {m : Listed} (hstat : OneLine m.status)
    (hfrom : OneLine m.sender) {a b : List UInt8}
    (hname : m.name = a ++ (crlfStr ++ b)) (ha : OneLine a) :
    ∃ h, OneLine h ∧ m.header
      = h ++ (crlfStr ++ (b ++ 0x22 :: (sep ++ (m.time ++ [0x22])))) := by
  have htail : m.tail
      = a ++ (crlfStr ++ (b ++ 0x22 :: (sep ++ (m.time ++ [0x22])))) := by
    unfold Listed.tail
    rw [hname]
    simp
  refine ⟨firstLine m.header, oneLine_firstLine _, ?_⟩
  rw [firstLine_header, firstLine_columns hstat hfrom, htail,
    firstLine_cut ha, header_eq, Listed.columns, htail]
  simp

/-- A message is read as listed if and only if it is clear. -/
theorem readAs_cut {m : Listed} {body : List UInt8}
    (hplain : OneLine m.header → body = firstLine m.body)
    (hodd : ∀ a c, m.header = a ++ (crlfStr ++ c) → OneLine a →
      body = firstLine c) :
    m.ReadAs (parsed (firstLine m.header) body) ↔ m.Clear := by
  rw [readAs_parsed]
  constructor
  · intro h
    obtain ⟨hstat, hfrom, htime, hbody⟩ := h
    refine ⟨hstat, hfrom, ?_⟩
    by_cases hname : OneLine m.name
    · have hkept := htime.plain hname
      have hline := oneLine_header hstat.line hfrom.line hname hkept.line
      refine .inl ⟨hname, hkept, ?_, htime.comma⟩
      rw [← hbody, hplain hline]
      exact oneLine_firstLine _
    · obtain ⟨a, b, hab, ha⟩ := exists_line hname
      obtain ⟨h, hh, hheader⟩ := header_broken hstat.line hfrom.line hab ha
      have hnone := htime.broken hname
      refine .inr ⟨hnone, a, b, hab, ha, ?_⟩
      rw [← hbody, hodd _ _ hheader hh, hnone]
      rfl
  · intro h
    obtain ⟨hstat, hfrom, hrest⟩ := h
    refine ⟨hstat, hfrom, ?_⟩
    rcases hrest with ⟨hname, hkept, hone, hcomma⟩ | ⟨hnone, a, b, hab, ha, hb⟩
    · have hline := oneLine_header hstat.line hfrom.line hname hkept.line
      refine ⟨⟨fun _ => hkept, hcomma, fun h => absurd hname h⟩, ?_⟩
      rw [hplain hline, firstLine_self hone]
    · obtain ⟨h, hh, hheader⟩ := header_broken hstat.line hfrom.line hab ha
      refine ⟨⟨fun _ => hnone ▸ kept_nil, fun _ => hnone, fun _ => hnone⟩, ?_⟩
      rw [hodd _ _ hheader hh, hb, hnone]
      rfl

-- ================================================================= the law

/-- The list is read as it was listed, whatever the locals of `getSMS`
held. -/
structure Recovers (ms : List Listed) : Prop where
  count : numSMS (render ms) = ms.length
  each : ∀ k m, ms[k]? = some m → ∀ locals, ∃ r,
    getSMS (render ms) (k + 1) locals = (k + 1, some r) ∧ m.ReadAs r

theorem length_render (ms : List Listed) :
    ms.length ≤ (render ms).length := by
  induction ms with
  | nil => exact Nat.zero_le _
  | cons m ms ih =>
      have hmarker : cmglStr.length = 7 := rfl
      rw [render_cons, List.length_append, List.length_append, hmarker,
        List.length_cons]
      omega

/-- What `getSMS` reads for a listed message, if the markers are right. -/
theorem getSMS_render {ms : List Listed} (hms : ∀ m ∈ ms, m.Unmarked)
    {k : Nat} {m : Listed} (hk : ms[k]? = some m) (locals : ScanLocals) :
    ∃ r, getSMS (render ms) (k + 1) locals = (k + 1, some r) ∧
      (m.ReadAs r ↔ m.Clear) := by
  obtain ⟨hlt, -⟩ := List.getElem?_eq_some_iff.mp hk
  have hlen : k < (render ms).length + 1 :=
    (hlt.trans_le (length_render ms)).trans (Nat.lt_succ_self _)
  obtain ⟨s, hfind⟩ := findSMSLoop_render hms hk hlen rfl 0
  rw [Nat.zero_add] at hfind
  obtain ⟨body, t, hcut, hbody, hplain, hodd⟩ := exists_cut m s
  rw [hcut] at hfind
  exact ⟨_, getSMS_found hfind (oneLine_firstLine _) hbody locals,
    readAs_setTime.trans (readAs_cut hplain hodd)⟩

/-- What was listed is read back if and only if no text has the marker in
it and every message is clear.

The count asks for the first part and each message for both: a marker
inside a message is counted as one more, and moves all messages behind it
by one place. -/
theorem recovered_iff (ms : List Listed) :
    Recovers ms ↔ ∀ m ∈ ms, m.Unmarked ∧ m.Clear := by
  constructor
  · intro h m hm
    obtain ⟨hcount, heach⟩ := h
    have hms := (numSMS_render ms).mp hcount
    obtain ⟨k, hk⟩ := List.mem_iff_getElem?.mp hm
    let locals : ScanLocals := ⟨0, 0, 0, 0, 0, 0, 0⟩
    obtain ⟨r, hr, hread⟩ := heach k m hk locals
    obtain ⟨r', hr', hiff⟩ := getSMS_render hms hk locals
    obtain rfl : r = r' :=
      Option.some.inj (Prod.mk.inj (hr.symm.trans hr')).2
    exact ⟨hms m hm, hiff.mp hread⟩
  · intro h
    have hms : ∀ m ∈ ms, m.Unmarked := fun m hm => (h m hm).1
    refine ⟨(numSMS_render ms).mpr hms, fun k m hk locals => ?_⟩
    obtain ⟨r, hr, hiff⟩ := getSMS_render hms hk locals
    exact ⟨r, hr, hiff.mpr (h m (List.mem_of_getElem? hk)).2⟩

/-- A message of two lines. -/
def twoLines : Listed where
  index := 1
  status := bytes "REC READ"
  sender := bytes "+31612345678"
  name := []
  time := bytes "17/05/10,12:34:56+08"
  body := bytes "one\r\ntwo"
  index_lt := by decide
  status_ok := ⟨⟨by decide, by decide⟩, by decide⟩
  sender_ok := ⟨⟨by decide, by decide⟩, by decide⟩
  name_ok := ⟨by decide, by decide⟩
  time_ok := ⟨⟨by decide, by decide⟩, by decide⟩
  body_ok := by decide

/-- Only its first line is read. -/
theorem recovered_fails : ¬ Recovers [twoLines] := by
  intro h
  obtain ⟨-, heach⟩ := h
  obtain ⟨r, hr, hread⟩ := heach 0 twoLines rfl ⟨0, 0, 0, 0, 0, 0, 0⟩
  have hbody : (getSMS (render [twoLines]) 1 ⟨0, 0, 0, 0, 0, 0, 0⟩).2.map
      SmsMsg.msg = some (some (bytes "one")) := by
    decide +kernel
  rw [hr, Option.map_some, hread.msg] at hbody
  exact absurd hbody (by decide)

end ShZ001.Sms
