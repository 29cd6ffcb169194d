/-
The bytes of a record: what `strToLabel` and the three layouts put
behind the cursor, and what they do to the header.

# One statement

`Overflow.lean` asks where these writes go; here it is what they leave
there. `Added` is the one statement: these bytes at the cursor, so many
answers counted in the header, everything else before the cursor as it
was. Names and records are `Added`, pieces compose (`Added.append`), and
`addRecords_bytes` says it for all questions of a datagram.

# Building a record

A layout writes its fields one behind the other and then counts the
answer. `Built` is the first half, with a lemma for each kind of write
and one for positions that are passed over (`Built.skip`); `Built.count`
adds the second. The two bytes of a `ttl` that `setn16` leaves unset
(lines 234, 251) are whatever the reply held: they are a parameter of
`bytesNS` and `bytesURI`.
-/
import ShZ001.Dns.Answer
import ShZ001.Dns.Proofs.Overflow

namespace ShZ001.Dns

open Lib

-- ================================================================= the names

/-- The labels of a dotted text behind the `cur` already seen of the
first, in wire form. -/
def encodeText (cur : List UInt8) : List UInt8 → List UInt8
  | [] => cur.length.toUInt8 :: cur ++ [0]
  | c :: str =>
      if c = 0x2e then cur.length.toUInt8 :: cur ++ encodeText [] str
      else encodeText (cur ++ [c]) str

/-- A text takes two bytes more on the wire: the first length and the final
zero; a dot becomes a length. -/
@[simp] theorem encodeText_length (cur str : List UInt8) :
    (encodeText cur str).length = cur.length + str.length + 2 := by
  induction str generalizing cur with
  | nil => simp [encodeText]
  | cons c str ih =>
      unfold encodeText
      split
      · simp only [List.length_cons, List.length_append, ih, List.length_nil]
        omega
      · simp only [List.length_cons, List.length_append, ih, List.length_nil]
        omega

/-- The length byte of a label and the label, once the byte has been set
behind it. -/
theorem slice_label {len p : Nat} (h : len < p) (s : Slots UInt8) :
    slice (s.write len (p - len - 1).toUInt8).cell len (p - len)
      = (p - len - 1).toUInt8 :: slice s.cell (len + 1) (p - len - 1) := by
  have hstep : p - len = p - len - 1 + 1 := by omega
  rw [hstep, slice, Slots.write_cell_self, Nat.add_sub_cancel]
  congr 1
  exact slice_congr fun k _ => Slots.write_cell_ne (by omega) _ s

/-- The encoder leaves what is before the current length byte. -/
theorem strLoop_below {str : List UInt8} {len p q : Nat} (hq : q < len)
    (h : len < p) (s : Slots UInt8) :
    (strLoop str len p s).2.cell q = s.cell q := by
  induction str generalizing len p s with
  | nil =>
      unfold strLoop
      dsimp only
      rw [Slots.write_cell_ne (by omega), Slots.write_cell_ne (by omega)]
  | cons c str ih =>
      unfold strLoop
      split
      · rw [ih (hq.trans h) (Nat.lt_succ_self p),
          Slots.write_cell_ne (by omega)]
      · rw [ih hq (Nat.lt_succ_of_lt h), Slots.write_cell_ne (by omega)]

/-- The loop writes the rest of the text, from the place of the current
length byte on. -/
theorem strLoop_bytes (str : List UInt8) {len p : Nat} (h : len < p)
    (s : Slots UInt8) :
    slice (strLoop str len p s).2.cell len (p - len + (str.length + 1))
      = encodeText (slice s.cell (len + 1) (p - len - 1)) str := by
  induction str generalizing len p s with
  | nil =>
      unfold strLoop encodeText
      have hcut : slice ((s.write len (p - len - 1).toUInt8).write p 0).cell
          len (p - len)
            = slice (s.write len (p - len - 1).toUInt8).cell len
              (p - len) :=
        slice_congr fun k hk => Slots.write_cell_ne (by omega) _ _
      have hend : len + (p - len) = p := by omega
      dsimp only
      rw [slice_add, hcut, slice_label h, hend, slice_length]
      simp [slice]
  | cons c str ih =>
      unfold strLoop encodeText
      split
      case isTrue =>
          have hcut : slice (strLoop str p (p + 1)
              (s.write len (p - len - 1).toUInt8)).2.cell len (p - len)
                = slice (s.write len (p - len - 1).toUInt8).cell len
                  (p - len) :=
            slice_congr fun k hk =>
              strLoop_below (by omega) (Nat.lt_succ_self p) _
          have hend : len + (p - len) = p := by omega
          have hrest := ih (Nat.lt_succ_self p)
            (s.write len (p - len - 1).toUInt8)
          rw [show p + 1 - p = 1 by omega] at hrest
          rw [slice_add, hcut, slice_label h, hend, slice_length,
            List.length_cons, Nat.add_comm (str.length + 1) 1, hrest]
          rfl
      case isFalse =>
          have hrest := ih (Nat.lt_succ_of_lt h) (s.write p c)
          have hcur : slice (s.write p c).cell (len + 1) (p + 1 - len - 1)
              = slice s.cell (len + 1) (p - len - 1) ++ [c] := by
            rw [show p + 1 - len - 1 = p - len - 1 + 1 by omega, slice_add,
              show len + 1 + (p - len - 1) = p by omega]
            congr 1
            · exact slice_congr fun k hk =>
                Slots.write_cell_ne (by omega) _ _
            · simp [slice]
          rw [hcur] at hrest
          rw [← hrest, List.length_cons]
          congr 1
          omega

/-- Bytes written at `p`, with `k` answers counted in the header. -/
structure Added (p : Nat) (bs : List UInt8) (k : Nat) (s : Slots UInt8)
    (r : Nat × Slots UInt8) : Prop where
  cursor : r.1 = p + bs.length
  below : ∀ q, q < p → q ≠ 6 → q ≠ 7 → r.2.cell q = s.cell q
  count : ntohs r.2.cell 6 = (ntohs s.cell 6 + k) % 65536
  bytes : slice r.2.cell p bs.length = bs

/-- A number of two bytes has 16 bits. -/
theorem ntohs_lt (mem : Nat → UInt8) (p : Nat) : ntohs mem p < 65536 := by
  have hhi := (mem p).toNat_lt
  have hlo := (mem (p + 1)).toNat_lt
  unfold ntohs
  omega

/-- Bytes behind the header that count nothing. -/
theorem added_of_below {p : Nat} (hp : 8 ≤ p) {bs : List UInt8}
    {s : Slots UInt8} {r : Nat × Slots UInt8} (hcur : r.1 = p + bs.length)
    (hbelow : ∀ q, q < p → r.2.cell q = s.cell q)
    (hbytes : slice r.2.cell p bs.length = bs) : Added p bs 0 s r := by
  refine ⟨hcur, fun q hq _ _ => hbelow q hq, ?_, hbytes⟩
  have hsame : ntohs r.2.cell 6 = ntohs s.cell 6 := by
    unfold ntohs
    rw [hbelow 6 (by omega), hbelow 7 (by omega)]
  rw [hsame, Nat.add_zero, Nat.mod_eq_of_lt (ntohs_lt _ _)]

/-- Adding nothing. -/
theorem added_nil {p : Nat} (hp : 8 ≤ p) (s : Slots UInt8) :
    Added p [] 0 s (p, s) :=
  added_of_below hp rfl (fun _ _ => rfl) rfl

/-- One piece behind another. -/
theorem Added.append {p k k' : Nat} (hp : 8 ≤ p) {bs bs' : List UInt8}
    {s : Slots UInt8} {r r' : Nat × Slots UInt8} (h : Added p bs k s r)
    (h' : Added r.1 bs' k' r.2 r') :
    Added p (bs ++ bs') (k + k') s r' := by
  have hcur := h.cursor
  refine ⟨?_, ?_, ?_, ?_⟩
  · rw [h'.cursor, hcur, List.length_append, Nat.add_assoc]
  · intro q hq h6 h7
    rw [h'.below q (by omega) h6 h7, h.below q hq h6 h7]
  · rw [h'.count, h.count]
    omega
  · rw [List.length_append, slice_add]
    congr 1
    · refine (slice_congr fun j hj => ?_).trans h.bytes
      exact h'.below _ (by omega) (by omega) (by omega)
    · rw [← hcur]
      exact h'.bytes

/-- A name behind the cursor counts no answer. -/
theorem strToLabel_bytes (str : List UInt8) {p : Nat} (hp : 8 ≤ p)
    (s : Slots UInt8) :
    Added p (encodeText [] str) 0 s (strToLabel str p s) := by
  have hbytes := strLoop_bytes str (Nat.lt_succ_self p) s
  rw [show p + 1 - p = 1 by omega] at hbytes
  refine added_of_below hp ?_ (fun q hq =>
    strLoop_below hq (Nat.lt_succ_self p) s) ?_
  · unfold strToLabel
    rw [strLoop_cursor, encodeText_length, List.length_nil]
    omega
  · rw [encodeText_length, List.length_nil]
    unfold strToLabel
    rw [show 0 + str.length + 2 = 1 + (str.length + 1) by omega]
    exact hbytes

-- =============================================================== the records

/-- `htons` and back, modulo what fits. -/
theorem ntohs_setn16 (pp n : Nat) (s : Slots UInt8) :
    ntohs (setn16 pp n s).cell pp = n % 65536 := by
  have hhi : (setn16 pp n s).cell pp = (n / 256).toUInt8 := by
    unfold setn16
    rw [Slots.writeAll, Slots.writeAll_cell_below (Nat.lt_succ_self pp),
      Slots.write_cell_self]
  have hlo : (setn16 pp n s).cell (pp + 1) = n.toUInt8 := by
    unfold setn16
    rw [Slots.writeAll, Slots.writeAll, Slots.writeAll,
      Slots.write_cell_self]
  unfold ntohs
  rw [hhi, hlo]
  simp only [Nat.toUInt8, UInt8.toNat_ofNat']
  omega

/-- The bytes of the records, behind the owner name. -/
def bytesA (ip : UInt8 × UInt8 × UInt8 × UInt8) : List UInt8 :=
  [0, 1, 0, 1, 0, 0, 0, 0, 0, 4, ip.1, ip.2.1, ip.2.2.1, ip.2.2.2]

def bytesNS (ttl : List UInt8) : List UInt8 :=
  [0, 2, 0, 1, 0, 0] ++ ttl ++ [0, 4, 2, 0x6e, 0x73, 0]

def bytesURI (ttl : List UInt8) : List UInt8 :=
  [1, 0, 1, 0, 0, 0] ++ ttl ++ [0, 20, 0, 10, 0, 1]
    ++ bytes "http://esp.nonet"

/-- Counting an answer behind a record that has been written. -/
theorem added_count {p : Nat} (hp : 8 ≤ p) {bs : List UInt8}
    {s s' : Slots UInt8} (hbelow : ∀ q, q < p → s'.cell q = s.cell q)
    (hbytes : slice s'.cell p bs.length = bs) :
    Added p bs 1 s (p + bs.length, countAnswer s') := by
  refine ⟨rfl, ?_, ?_, ?_⟩
  · intro q hq h6 h7
    rw [← hbelow q hq]
    unfold countAnswer setn16
    rcases Nat.lt_or_ge q 6 with hlt | hge
    · exact Slots.writeAll_cell_below hlt _ s'
    · refine Slots.writeAll_cell_above ?_ s'
      simp only [List.length_cons, List.length_nil]
      omega
  · show ntohs (countAnswer s').cell 6 = _
    unfold countAnswer
    rw [ntohs_setn16]
    unfold ntohs
    rw [hbelow 6 (by omega), hbelow 7 (by omega)]
  · show slice (countAnswer s').cell p bs.length = bs
    unfold countAnswer setn16
    rw [Slots.slice_writeAll_above (by simpa using hp), hbytes]

/-- A stretch of memory from `p` on, built up by writes one behind the
other. -/
structure Built (p : Nat) (m : List UInt8) (s s' : Slots UInt8) : Prop where
  below : ∀ q, q < p → s'.cell q = s.cell q
  above : ∀ q, p + m.length ≤ q → s'.cell q = s.cell q
  bytes : slice s'.cell p m.length = m

/-- Nothing is built yet. -/
theorem Built.nil (p : Nat) (s : Slots UInt8) : Built p [] s s :=
  ⟨fun _ _ => rfl, fun _ _ => rfl, rfl⟩

section

variable {p : Nat} {m : List UInt8} {s s' : Slots UInt8}
  (h : Built p m s s')

include h

/-- A write right behind what is built extends it. -/
theorem Built.write {q : Nat} (hq : q = p + m.length) (vs : List UInt8) :
    Built p (m ++ vs) s (s'.writeAll q vs) := by
  refine ⟨?_, ?_, ?_⟩
  · intro k hk
    rw [Slots.writeAll_cell_below (by omega), h.below k hk]
  · intro k hk
    rw [List.length_append] at hk
    rw [Slots.writeAll_cell_above (by omega), h.above k (by omega)]
  · rw [List.length_append]
    exact Slots.slice_writeAll_append h.bytes hq vs

/-- Positions that are passed over keep what they held. -/
theorem Built.skip (k : Nat) :
    Built p (m ++ slice s.cell (p + m.length) k) s s' := by
  refine ⟨h.below, ?_, ?_⟩
  · intro q hq
    rw [List.length_append] at hq
    exact h.above q (by omega)
  · have hrest : slice s'.cell (p + m.length) k
        = slice s.cell (p + m.length) k :=
      slice_congr fun j _ => h.above _ (by omega)
    rw [List.length_append, slice_length, slice_add, h.bytes, hrest]

/-- And so does a number of two bytes, -/
theorem Built.setn16 {q : Nat} (hq : q = p + m.length) (n : Nat) :
    Built p (m ++ [(n / 256).toUInt8, n.toUInt8]) s (setn16 q n s') :=
  h.write hq _

/-- and one of four. -/
theorem Built.setn32 {q : Nat} (hq : q = p + m.length) (n : Nat) :
    Built p (m ++ [(n / 16777216).toUInt8, (n / 65536).toUInt8,
      (n / 256).toUInt8, n.toUInt8]) s (setn32 q n s') :=
  h.write hq _

/-- Counting the answer behind a record that has been built. -/
theorem Built.count (hp : 8 ≤ p) :
    Added p m 1 s (p + m.length, countAnswer s') :=
  added_count hp h.below h.bytes

end

section

variable {p : Nat} (hp : 8 ≤ p) (s : Slots UInt8)

include hp

/-- The address record: all its bytes are the code's. -/
theorem recordA_bytes (ip : UInt8 × UInt8 × UInt8 × UInt8) :
    Added p (bytesA ip) 1 s (recordA ip p s) := by
  have h := Built.nil p s
  have h := h.setn16 rfl qtypeA
  have h := h.setn16 rfl qclassIN
  have h := h.setn32 rfl 0
  have h := h.setn16 rfl 4
  have h := h.write rfl [ip.1, ip.2.1, ip.2.2.1, ip.2.2.2]
  exact h.count hp

/-- The name server record, with two bytes of what was there. -/
theorem recordNS_bytes :
    Added p (bytesNS (slice s.cell (p + 6) 2)) 1 s (recordNS p s) := by
  have h := Built.nil p s
  have h := h.setn16 rfl qtypeNS
  have h := h.setn16 rfl qclassIN
  have h := h.setn16 rfl 0
  -- half of the `ttl`
  have h := h.skip 2
  have h := h.setn16 rfl 4
  have h := h.write rfl [2, 0x6e, 0x73, 0]
  exact h.count hp

/-- The URI record, likewise. -/
theorem recordURI_bytes :
    Added p (bytesURI (slice s.cell (p + 6) 2)) 1 s (recordURI p s) := by
  have h := Built.nil p s
  have h := h.setn16 rfl qtypeURI
  have h := h.setn16 rfl qclassURI
  have h := h.setn16 rfl 0
  have h := h.skip 2
  have h := h.setn16 rfl (4 + 16)
  have h := h.setn16 rfl 10
  have h := h.setn16 rfl 1
  have h := (h.write rfl (bytes "http://esp.nonet")).count hp
  have huri : (bytes "http://esp.nonet").length = 16 := by decide
  have hcursor : (recordURI p s).1
      = p + (bytesURI (slice s.cell (p + 6) 2)).length := by
    simp [recordURI, bytesURI, huri, sizeofDnsResourceFooter,
      sizeofDnsUriHdr]
  have hpair : recordURI p s
      = (p + (bytesURI (slice s.cell (p + 6) 2)).length,
        (recordURI p s).2) := Prod.ext hcursor rfl
  rw [hpair]
  exact h

end

-- ================================================== a question's contribution

/-- The bytes of the record for a question of this type, where the reply
held `ttl` in the half of the `ttl` that is not set. -/
def recordBytes (ip : UInt8 × UInt8 × UInt8 × UInt8) (type : Nat)
    (ttl : List UInt8) : List UInt8 :=
  if type = qtypeA then bytesA ip
  else if type = qtypeNS then bytesNS ttl
  else bytesURI ttl

/-- A question of another type gets no record. -/
theorem addRecord_unknown {ip : UInt8 × UInt8 × UInt8 × UInt8}
    {q : Question} (h : recordSize q.type = 0) (w : Nat × Slots UInt8) :
    addRecord ip q w = w := by
  unfold recordSize at h
  unfold addRecord
  split_ifs at h ⊢
  rfl

/-- An owner name and its record behind the cursor, counted. -/
theorem addRecord_bytes (ip : UInt8 × UInt8 × UInt8 × UInt8) {q : Question}
    (hq : recordSize q.type ≠ 0) {w : Nat × Slots UInt8} (hw : 8 ≤ w.1) :
    ∃ ttl, ttl.length = 2 ∧
      Added w.1 (encodeText [] (cstr q.name) ++ recordBytes ip q.type ttl) 1
        w.2 (addRecord ip q w) := by
  obtain ⟨rend, reply⟩ := w
  have hname := strToLabel_bytes (cstr q.name) hw reply
  unfold addRecord recordBytes
  dsimp only at hw hname ⊢
  generalize strToLabel (cstr q.name) rend reply = named at hname ⊢
  obtain ⟨rf, named⟩ := named
  have hrf : 8 ≤ rf := by
    have hcur := hname.cursor
    dsimp only at hcur
    omega
  have hjoin : ∀ {bs r}, Added rf bs 1 named r →
      Added rend (encodeText [] (cstr q.name) ++ bs) 1 reply r := by
    intro bs r hr
    have h := hname.append hw hr
    rwa [Nat.zero_add] at h
  refine ⟨slice named.cell (rf + 6) 2, slice_length .., ?_⟩
  unfold recordSize at hq
  split_ifs at hq ⊢
  · exact hjoin (recordA_bytes hrf named ip)
  · exact hjoin (recordNS_bytes hrf named)
  · exact hjoin (recordURI_bytes hrf named)
  · exact absurd rfl hq

/-- The questions that get a record. -/
def answered (qs : List Question) : List Question :=
  qs.filter fun q => recordSize q.type ≠ 0

/-- The records of these questions, one behind the other. -/
inductive RecordsOf (ip : UInt8 × UInt8 × UInt8 × UInt8) :
    List Question → List UInt8 → Prop
  | nil : RecordsOf ip [] []
  | cons {q qs bs} (ttl : List UInt8) (httl : ttl.length = 2)
      (h : RecordsOf ip qs bs) :
      RecordsOf ip (q :: qs)
        (encodeText [] (cstr q.name) ++ recordBytes ip q.type ttl ++ bs)

/-- What the questions add to the reply. -/
theorem addRecords_bytes (ip : UInt8 × UInt8 × UInt8 × UInt8)
    (qs : List Question) {w : Nat × Slots UInt8} (hw : 8 ≤ w.1) :
    ∃ bs, RecordsOf ip (answered qs) bs ∧
      Added w.1 bs (answered qs).length w.2 (addRecords ip qs w) := by
  induction qs generalizing w with
  | nil => exact ⟨[], .nil, added_nil hw w.2⟩
  | cons q qs ih =>
      unfold addRecords answered
      rw [List.filter_cons]
      by_cases hq : recordSize q.type = 0
      · rw [addRecord_unknown hq, if_neg (by simpa using hq)]
        exact ih hw
      · rw [if_pos (by simpa using hq)]
        obtain ⟨ttl, httl, hadd⟩ := addRecord_bytes ip hq hw
        have hcur := hadd.cursor
        obtain ⟨bs, hof, hrest⟩ := ih (w := addRecord ip q w) (by omega)
        refine ⟨_, .cons ttl httl hof, ?_⟩
        have h := hadd.append hw hrest
        rwa [Nat.add_comm 1] at h

end ShZ001.Dns
