/-
What `labelToStr` makes of a well-formed name (captdns.c 115–145).

# Names of the format

`NameAt` is the name as the format has it: labels, then a zero byte or a
pointer to an earlier name. It is a relation on the packet and says
nothing of the code; `NameAt.unique` makes it a reading.

# Two slips

The text comes out right; two things around it do not. The loop tests
for the zero byte only after it has taken a part, so the name without
labels is read past its end. And every pointer sets `endPtr`, so the
caller goes on behind the last one, not behind the first. With one
pointer the two are the same, and `decodes_iff` says that this, and a
name with a part, is exactly what it takes; the name without labels
comes out right only if the bytes behind it happen to lead back to it
(`LedBack`).

# The proof

It follows the turns: after each the variables are those of `reading`,
the bytes written being the text so far. `Arrives` is one turn, with a
lemma for each kind of part, and `labelLoop_of_arrives` is the induction
over the name. The other direction needs what the loop has done when it
ended without text, which is to follow pointers (`led_of_labelLoop`).
-/
import Mathlib.Logic.Relation
import ShZ001.Dns.Proofs.Rings
import ShZ001.Dns.Proofs.Roundtrip

namespace ShZ001.Dns

open Lib Relation

-- ================================================================== the law

/-- Where the pointer at `p` leads. -/
def target (packet : Nat → UInt8) (p : Nat) : Nat :=
  ntohs packet p &&& 0x3FFF

/-- The name at a position, inside the packet: its labels, the position
behind it there, and its pointers in the order they are followed. -/
inductive NameAt (packet : Nat → UInt8) (packetSz : Nat) :
    Nat → List (List UInt8) → Nat → List Nat → Prop
  | root {p} (hin : p < packetSz) (h : packet p = 0) :
      NameAt packet packetSz p [] (p + 1) []
  | label {p l ls finish ps} (hl : IsLabel l)
      (hhead : packet p = l.length.toUInt8)
      (hbytes : slice packet (p + 1) l.length = l)
      (hrest : NameAt packet packetSz (p + 1 + l.length) ls finish ps) :
      NameAt packet packetSz p (l :: ls) finish ps
  | pointer {p ls finish ps} (h : packet p &&& 0xC0 = 0xC0)
      (hin : p + 1 < packetSz) (hearlier : target packet p < p)
      (hrest : NameAt packet packetSz (target packet p) ls finish ps) :
      NameAt packet packetSz p ls (p + 2) (p :: ps)

/-- `labelToStr` writes the text with its terminator, nothing else, and
returns `finish`. -/
def Decodes (packet : Nat → UInt8) (start packetSz : Nat)
    (res : Slots UInt8) (resMaxLen : Nat) (text : List UInt8)
    (finish : Nat) : Prop :=
  ∃ fuel, labelToStr fuel packet start packetSz res resMaxLen
    = some (some finish, res.writeAll 0 (text ++ [0]))

/-- A pointer from `p` to `q`. -/
def PointsTo (packet : Nat → UInt8) (packetSz p q : Nat) : Prop :=
  packet p &&& 0xC0 = 0xC0 ∧ target packet p = q ∧ q ≤ packetSz

/-- Behind the zero byte at `start` pointers lead to one that ends in it,
and that one to a zero byte. -/
def LedBack (packet : Nat → UInt8) (packetSz start : Nat) : Prop :=
  ∃ q z, q + 1 = start ∧
    ReflTransGen (PointsTo packet packetSz) (start + 1) q ∧
    PointsTo packet packetSz q z ∧ packet z = 0

-- ================================================================ the format

section

variable {packet : Nat → UInt8} {packetSz : Nat}

/-- A name begins inside the packet. -/
theorem NameAt.inside {p : Nat} {ls : List (List UInt8)} {finish : Nat}
    {ps : List Nat} (h : NameAt packet packetSz p ls finish ps) :
    p < packetSz := by
  induction h with
  | root hin _ => exact hin
  | label _ _ _ _ ih => omega
  | pointer _ hin _ _ _ => omega

/-- Its labels are labels. -/
theorem NameAt.isLabel {p : Nat} {ls : List (List UInt8)} {finish : Nat}
    {ps : List Nat} (h : NameAt packet packetSz p ls finish ps) :
    ∀ l ∈ ls, IsLabel l := by
  induction h with
  | root _ _ => exact fun _ hl => absurd hl List.not_mem_nil
  | label hl _ _ _ ih => exact List.forall_mem_cons.mpr ⟨hl, ih⟩
  | pointer _ _ _ _ ih => exact ih

/-- A byte with both top bits is not the head of a label. -/
theorem pointer_head {b : UInt8} (h : b &&& 0xC0 = 0xC0) :
    b &&& 0xC0 ≠ 0 := by
  rw [h]
  decide

/-- Nor is it the zero byte. -/
theorem pointer_ne_zero {b : UInt8} (h : b &&& 0xC0 = 0xC0) : b ≠ 0 := by
  intro h0
  rw [h0] at h
  exact absurd h (by decide)

/-- There is at most one name at a position. -/
theorem NameAt.unique {p : Nat} {ls ls' : List (List UInt8)}
    {finish finish' : Nat} {ps ps' : List Nat}
    (h : NameAt packet packetSz p ls finish ps)
    (h' : NameAt packet packetSz p ls' finish' ps') :
    ls = ls' ∧ finish = finish' ∧ ps = ps' := by
  induction h generalizing ls' finish' ps' with
  | root _ h0 =>
      cases h' with
      | root _ _ => exact ⟨rfl, rfl, rfl⟩
      | label hl hhead _ _ =>
          exact absurd (hhead.symm.trans h0) (label_ne_zero hl)
      | pointer h _ _ _ => exact absurd h0 (pointer_ne_zero h)
  | @label p l ls finish ps hl hhead hbytes _ ih =>
      cases h' with
      | root _ h0 => exact absurd (hhead.symm.trans h0) (label_ne_zero hl)
      | @label _ l' ls' _ _ hl' hhead' hbytes' hrest' =>
          have hlen : l.length = l'.length := by
            rw [← label_toNat hl, ← hhead, hhead', label_toNat hl']
          rw [hlen] at hbytes ih
          obtain ⟨hls, hfinish, hps⟩ := ih hrest'
          exact ⟨by rw [hls, ← hbytes, hbytes'], hfinish, hps⟩
      | pointer h _ _ _ =>
          rw [hhead] at h
          exact absurd (label_head hl) (pointer_head h)
  | pointer h _ _ _ ih =>
      cases h' with
      | root _ h0 => exact absurd h0 (pointer_ne_zero h)
      | label hl hhead _ _ =>
          rw [hhead] at h
          exact absurd (label_head hl) (pointer_head h)
      | pointer _ _ _ hrest' =>
          obtain ⟨hls, -, hps⟩ := ih hrest'
          exact ⟨hls, rfl, by rw [hps]⟩

/-- Each pointer begins a name with the pointers from there on. -/
theorem NameAt.of_mem {p : Nat} {ls : List (List UInt8)} {finish : Nat}
    {ps : List Nat} (h : NameAt packet packetSz p ls finish ps) {q : Nat}
    (hq : q ∈ ps) : ∃ ls' ps', NameAt packet packetSz q ls' (q + 2) ps' ∧
      ps'.length ≤ ps.length := by
  induction h with
  | root _ _ => exact absurd hq List.not_mem_nil
  | label _ _ _ _ ih => exact ih hq
  | @pointer p ls _ ps h hin hearlier hrest ih =>
      rcases List.mem_cons.mp hq with rfl | hq
      · exact ⟨ls, q :: ps, .pointer h hin hearlier hrest, Nat.le_refl _⟩
      · obtain ⟨ls', ps', hname, hlen⟩ := ih hq
        exact ⟨ls', ps', hname, hlen.trans (Nat.le_succ _)⟩

/-- The first pointer is not come to again. -/
theorem NameAt.first_not_mem {p : Nat} {ls : List (List UInt8)}
    {finish : Nat} {q : Nat} {ps : List Nat}
    (h : NameAt packet packetSz p ls finish (q :: ps)) :
    finish = q + 2 ∧ q ∉ ps := by
  generalize hqs : q :: ps = qs at h
  induction h with
  | root _ _ => cases hqs
  | label _ _ _ _ ih => exact ih hqs
  | @pointer p ls _ ps' h hin hearlier hrest _ =>
      obtain ⟨rfl, rfl⟩ := List.cons.inj hqs
      refine ⟨rfl, fun hmem => ?_⟩
      obtain ⟨_, qs, hname, hlen⟩ := hrest.of_mem hmem
      -- the name at `q` would have fewer pointers than it has
      obtain ⟨-, -, rfl⟩ := hname.unique (.pointer h hin hearlier hrest)
      exact absurd hlen (by simp)

end

-- =================================================================== turns

/-- The variables at `p`, with this text written to `res`. -/
def LabelVars.reading (res : Slots UInt8) (p : Nat) (text : List UInt8)
    (endPtr : Option Nat) : LabelVars where
  labelPtr := p
  i := text.length
  endPtr := endPtr
  res := res.writeAll 0 text

/-- A turn of `v` comes to `p`. -/
def Arrives (packet : Nat → UInt8) (packetSz max : Nat) (v w : LabelVars) :
    Prop :=
  turn packet packetSz max v
    = (w, if packet w.labelPtr ≠ 0 then .again else .done)

section

variable {packet : Nat → UInt8} {packetSz max : Nat} {res : Slots UInt8}

@[simp] theorem reading_labelPtr (p : Nat) (t : List UInt8)
    (e : Option Nat) : (LabelVars.reading res p t e).labelPtr = p := rfl

@[simp] theorem reading_i (p : Nat) (t : List UInt8) (e : Option Nat) :
    (LabelVars.reading res p t e).i = t.length := rfl

/-- A byte more is written. -/
theorem reading_put (p : Nat) (t : List UInt8) (e : Option Nat)
    (c : UInt8) :
    (LabelVars.reading res p t e).put c = .reading res p (t ++ [c]) e := by
  unfold LabelVars.put LabelVars.reading
  rw [Slots.writeAll_append, List.length_append, List.length_singleton,
    Nat.zero_add]
  rfl

/-- A label with room for it is copied. -/
theorem copyLabel_reading {n p : Nat} {t : List UInt8} {e : Option Nat}
    (hroom : t.length + n ≤ max) (hin : p + n ≤ packetSz) :
    copyLabel packet packetSz max n (.reading res p t e)
      = (.reading res (p + n) (t ++ slice packet p n) e, false) := by
  induction n generalizing p t with
  | zero => simp [copyLabel, slice]
  | succ n ih =>
      have hp : ¬ packetSz < p := by omega
      have hi : t.length < max := by omega
      have hrest := ih (p := p + 1) (t := t ++ [packet p])
        (by rw [List.length_append, List.length_singleton]; omega)
        (by omega)
      unfold copyLabel
      rw [reading_labelPtr, reading_i, if_neg hp, if_pos hi, reading_put]
      refine hrest.trans ?_
      rw [List.append_assoc, List.singleton_append, Nat.add_assoc,
        Nat.add_comm 1, slice]

/-- The tests at the end of a turn, inside the packet. -/
theorem arrives_end {w : LabelVars} (hin : ¬ packetSz < w.labelPtr) :
    (if packetSz < w.labelPtr then (w, .null)
      else if packet w.labelPtr ≠ 0 then (w, .again)
      else (w, .done)) =
      (w, if packet w.labelPtr ≠ 0 then TurnEnd.again else .done) := by
  rw [if_neg hin]
  split_ifs
  · rfl
  · rfl

/-- A label with room for it is taken, with a dot before it unless it is
the first. -/
theorem arrives_label {p : Nat} {l t : List UInt8} {e : Option Nat}
    (hl : IsLabel l) (hhead : packet p = l.length.toUInt8)
    (hbytes : slice packet (p + 1) l.length = l)
    (hin : p + 1 + l.length ≤ packetSz)
    (hroom : (addLabel t l).length ≤ max) :
    Arrives packet packetSz max (.reading res p t e)
      (.reading res (p + 1 + l.length) (addLabel t l) e) := by
  have hcopy : copyLabel packet packetSz max l.length
      (if t.length < max ∧ t.length ≠ 0 then
        (LabelVars.reading res (p + 1) t e).put 0x2e
      else LabelVars.reading res (p + 1) t e)
        = (.reading res (p + 1 + l.length) (addLabel t l) e, false) := by
    unfold addLabel at hroom ⊢
    rw [reading_put]
    split_ifs at hroom ⊢ with hsep hempty hempty
    · exact absurd (List.length_eq_zero_iff.mpr hempty) hsep.2
    · rw [List.length_append, List.length_cons] at hroom
      rw [copyLabel_reading (by simp; omega) hin, hbytes,
        List.append_assoc, List.singleton_append]
    · rw [hempty, copyLabel_reading (by simpa using hroom) hin, hbytes,
        List.nil_append]
    · have hpos := List.length_pos_iff.mpr hempty
      rw [List.length_append, List.length_cons] at hroom
      omega
  unfold LabelVars.reading at hcopy ⊢
  unfold Arrives turn
  dsimp only at hcopy ⊢
  rw [hhead, if_pos (label_head hl), label_toNat hl, hcopy]
  exact arrives_end (Nat.not_lt.mpr hin)

/-- A pointer is followed, and what is behind it becomes `endPtr`, whether
or not there was one. -/
theorem arrives_pointer {p : Nat} {v : LabelVars} (hv : v.labelPtr = p)
    (h : packet p &&& 0xC0 = 0xC0) (hin : target packet p ≤ packetSz) :
    Arrives packet packetSz max v
      { v with
        labelPtr := target packet p
        endPtr := some (p + 2) } := by
  subst hv
  unfold Arrives turn
  dsimp only
  rw [if_neg (pointer_head h), if_pos h]
  unfold target at hin ⊢
  rw [if_neg (Nat.not_lt.mpr hin)]
  exact arrives_end (Nat.not_lt.mpr hin)

/-- A reserved byte is stood upon. -/
theorem arrives_reserved {v : LabelVars}
    (h₀ : packet v.labelPtr &&& 0xC0 ≠ 0)
    (h₃ : packet v.labelPtr &&& 0xC0 ≠ 0xC0)
    (hin : v.labelPtr ≤ packetSz) : Arrives packet packetSz max v v := by
  unfold Arrives turn
  dsimp only
  rw [if_neg h₀, if_neg h₃]
  exact arrives_end (Nat.not_lt.mpr hin)

/-- The zero byte of the name without labels is passed. -/
theorem arrives_zero {p : Nat} (h : packet p = 0) (hin : p + 1 ≤ packetSz) :
    Arrives packet packetSz max (.reading res p [] none)
      (.reading res (p + 1) [] none) := by
  have hsep : ¬ ((LabelVars.reading res p [] none).i < max ∧
      (LabelVars.reading res p [] none).i ≠ 0) := fun h => h.2 rfl
  have hzero : (0 : UInt8) &&& 0xC0 = 0 := by decide
  unfold Arrives turn
  dsimp only
  rw [reading_labelPtr, h, if_pos hzero, if_neg hsep]
  exact arrives_end (w := .reading res (p + 1) [] none)
    (Nat.not_lt.mpr hin)

-- ==================================================================== runs

/-- A turn that does not come to a zero byte is followed by another. -/
theorem labelLoop_again {v w : LabelVars}
    (h : Arrives packet packetSz max v w) (hb : packet w.labelPtr ≠ 0)
    (fuel : Nat) :
    labelLoop packet packetSz max (fuel + 1) v
      = labelLoop packet packetSz max fuel w := by
  unfold Arrives at h
  rw [labelLoop, h, if_pos hb]

/-- One that does is the last. -/
theorem labelLoop_done {v w : LabelVars}
    (h : Arrives packet packetSz max v w) (hb : packet w.labelPtr = 0)
    (fuel : Nat) :
    labelLoop packet packetSz max (fuel + 1) v = some (w, false) := by
  unfold Arrives at h
  rw [labelLoop, h, if_neg (not_not.mpr hb)]

/-- More turns do not change how the loop ends. -/
theorem labelLoop_mono {fuel : Nat} {v : LabelVars} {r : LabelVars × Bool}
    (h : labelLoop packet packetSz max fuel v = some r) (more : Nat) :
    labelLoop packet packetSz max (fuel + more) v = some r := by
  induction fuel generalizing v with
  | zero => cases h
  | succ fuel ih =>
      rw [Nat.succ_add]
      unfold labelLoop at h ⊢
      generalize turn packet packetSz max v = r' at h ⊢
      obtain ⟨w, e⟩ := r'
      cases e with
      | null => exact h
      | again => exact ih h
      | done => exact h

/-- The text behind further labels. -/
def addLabels (t : List UInt8) : List (List UInt8) → List UInt8
  | [] => t
  | l :: ls => addLabels (addLabel t l) ls

/-- `endPtr` behind further pointers, or the end of the name when there
was none. -/
def lastEnd (endPtr : Option Nat) (finish : Nat) : List Nat → Nat
  | [] => endPtr.getD finish
  | p :: ps => lastEnd (some (p + 2)) finish ps

/-- With a pointer behind, where the name itself ends does not matter. -/
theorem lastEnd_some (e finish finish' : Nat) (ps : List Nat) :
    lastEnd (some e) finish ps = lastEnd (some e) finish' ps := by
  induction ps generalizing e with
  | nil => rfl
  | cons p ps ih => exact ih (p + 2)

/-- Behind pointers it is behind one of them. -/
theorem exists_lastEnd (e : Option Nat) (finish p : Nat) (ps : List Nat) :
    ∃ q ∈ p :: ps, lastEnd e finish (p :: ps) = q + 2 := by
  induction ps generalizing e p with
  | nil => exact ⟨p, List.mem_cons_self, rfl⟩
  | cons p' ps ih =>
      obtain ⟨q, hq, heq⟩ := ih (some (p + 2)) p'
      exact ⟨q, List.mem_cons_of_mem p hq, heq⟩

/-- Labels add to the text. -/
theorem addLabels_length_le (t : List UInt8) (ls : List (List UInt8)) :
    t.length ≤ (addLabels t ls).length := by
  induction ls generalizing t with
  | nil => exact Nat.le_refl _
  | cons l ls ih =>
      refine Nat.le_trans ?_ (ih (addLabel t l))
      unfold addLabel
      split
      case isTrue h => simp [h]
      case isFalse => simp

/-- Where a turn has come to a name, the loop goes through it. -/
theorem labelLoop_of_arrives {p : Nat} {ls : List (List UInt8)}
    {finish : Nat} {ps : List Nat}
    (h : NameAt packet packetSz p ls finish ps) {v : LabelVars}
    {t : List UInt8} {e : Option Nat}
    (hv : Arrives packet packetSz max v (.reading res p t e))
    (hroom : (addLabels t ls).length ≤ max) :
    ∃ fuel q e',
      labelLoop packet packetSz max fuel v
        = some (.reading res q (addLabels t ls) e', false) ∧
      e'.getD (q + 1) = lastEnd e finish ps := by
  induction h generalizing v t e with
  | @root p hin h0 => exact ⟨1, p, e, labelLoop_done hv h0 0, rfl⟩
  | @label p l ls finish ps hl hhead hbytes hrest ih =>
      have hne : packet p ≠ 0 := by
        rw [hhead]
        exact label_ne_zero hl
      have hnext : Arrives packet packetSz max (.reading res p t e) _ :=
        arrives_label hl hhead hbytes hrest.inside.le
          ((addLabels_length_le _ ls).trans hroom)
      obtain ⟨fuel, q, e', hloop, hend⟩ := ih hnext hroom
      exact ⟨fuel + 1, q, e', (labelLoop_again hv hne fuel).trans hloop,
        hend⟩
  | @pointer p ls finish ps h hin hearlier hrest ih =>
      have hne := pointer_ne_zero h
      have hnext : Arrives packet packetSz max (.reading res p t e) _ :=
        arrives_pointer rfl h hrest.inside.le
      obtain ⟨fuel, q, e', hloop, hend⟩ := ih hnext hroom
      refine ⟨fuel + 1, q, e', (labelLoop_again hv hne fuel).trans hloop,
        hend.trans ?_⟩
      exact lastEnd_some ..

/-- So it does from the first part of a name that has one. -/
theorem labelLoop_name (res : Slots UInt8) {p : Nat}
    {ls : List (List UInt8)} {finish : Nat} {ps : List Nat}
    (h : NameAt packet packetSz p ls finish ps) (hne : packet p ≠ 0)
    (hroom : (addLabels [] ls).length ≤ max) :
    ∃ fuel q e',
      labelLoop packet packetSz max fuel (.reading res p [] none)
        = some (.reading res q (addLabels [] ls) e', false) ∧
      e'.getD (q + 1) = lastEnd none finish ps := by
  cases h with
  | root _ h0 => exact absurd h0 hne
  | @label _ l ls _ _ hl hhead hbytes hrest =>
      exact labelLoop_of_arrives hrest (arrives_label hl hhead hbytes
        hrest.inside.le ((addLabels_length_le _ ls).trans hroom)) hroom
  | @pointer _ _ finish ps h hin hearlier hrest =>
      obtain ⟨fuel, q, e', hloop, hend⟩ := labelLoop_of_arrives hrest
        (arrives_pointer (v := .reading res p [] none) rfl h
          hrest.inside.le) hroom
      exact ⟨fuel, q, e', hloop, hend.trans (lastEnd_some ..)⟩

/-- The text is that of the labels. -/
theorem addLabels_eq {ls : List (List UInt8)} (h : ∀ l ∈ ls, IsLabel l) :
    addLabels [] ls = dotted ls := by
  have htail : ∀ (ls : List (List UInt8)) (t : List UInt8), t ≠ [] →
      addLabels t ls = t ++ dottedTail ls := by
    intro ls
    induction ls with
    | nil => exact fun t _ => (List.append_nil t).symm
    | cons l ls ih =>
        intro t ht
        have hadd : addLabel t l = t ++ 0x2e :: l := if_neg ht
        rw [addLabels, hadd, ih _ (by simp), dottedTail, List.append_assoc]
  cases ls with
  | nil => rfl
  | cons l ls =>
      have hl := (List.forall_mem_cons.mp h).1
      exact htail ls l hl.1

/-- What `labelToStr` does when its loop has come to an end. -/
theorem labelToStr_done {fuel start q : Nat} {t : List UInt8}
    {e : Option Nat}
    (h : labelLoop packet packetSz max fuel (.reading res start [] none)
      = some (.reading res q t e, false)) :
    labelToStr fuel packet start packetSz res max
      = some (some (e.getD (q + 1)), res.writeAll 0 (t ++ [0])) := by
  have hres : res.writeAll 0 (t ++ [0])
      = (res.writeAll 0 t).write t.length 0 := by
    rw [Slots.writeAll_append, Nat.zero_add]
    rfl
  unfold LabelVars.reading at h
  unfold labelToStr
  rw [show ([] : List UInt8).length = 0 from rfl] at h
  rw [hres]
  simp only [Slots.writeAll] at h
  rw [h]

-- ============================================================= empty texts

/-- A loop that ends inside the packet has its first part end there, and
keeps the text. -/
theorem labelLoop_next {fuel : Nat} {v w : LabelVars}
    (h : labelLoop packet packetSz max fuel v = some (w, false)) :
    (v.place.next packet max).pos ≤ packetSz ∧
      (v.place.next packet max).len ≤ w.i := by
  induction fuel generalizing v with
  | zero => cases h
  | succ fuel ih =>
      unfold labelLoop at h
      have hturn := turn_place packet packetSz max v
      generalize turn packet packetSz max v = r at h hturn
      cases hturn with
      | null _ => cases h
      | @again u hin _ hplace =>
          have hle := u.place.le_next_len packet max
          rw [hplace] at hle
          have hrest := (ih h).2
          rw [hplace] at hrest
          exact ⟨Nat.le_of_not_lt hin, hle.trans hrest⟩
      | done hin _ hplace =>
          cases h
          rw [← hplace] at hin ⊢
          exact ⟨Nat.le_of_not_lt hin, Nat.le_refl _⟩

/-- A loop that ends without text has followed pointers. -/
theorem led_of_labelLoop {fuel : Nat} {v w : LabelVars} (hmax : 0 < max)
    (h : labelLoop packet packetSz max fuel v = some (w, false))
    (hb : packet v.labelPtr ≠ 0) (hw : w.i = 0) :
    ∃ q, ReflTransGen (PointsTo packet packetSz) v.labelPtr q ∧
      PointsTo packet packetSz q w.labelPtr ∧ packet w.labelPtr = 0 ∧
      w.endPtr = some (q + 2) := by
  induction fuel generalizing v with
  | zero => cases h
  | succ fuel ih =>
      obtain ⟨hin, hlen⟩ := labelLoop_next h
      have hle := v.place.le_next_len packet max
      have hempty : v.place.len = 0 := by omega
      have hhop : Hop packet (max ≤ v.place.len) v.labelPtr
          (v.place.next packet max).pos := hop_of_level hb (by omega)
      rw [hempty] at hhop
      generalize (v.place.next packet max).pos = p at hin hhop
      cases hhop with
      | reserved h₀ h₃ =>
          rw [labelLoop_again (arrives_reserved h₀ h₃ hin) hb] at h
          exact ih h hb
      | pointer hptr =>
          have hnext : Arrives packet packetSz max v _ :=
            arrives_pointer rfl hptr hin
          have hstep : PointsTo packet packetSz v.labelPtr _ :=
            ⟨hptr, rfl, hin⟩
          by_cases hz : packet (target packet v.labelPtr) = 0
          · rw [labelLoop_done hnext hz] at h
            cases h
            exact ⟨v.labelPtr, .refl, hstep, hz, rfl⟩
          · rw [labelLoop_again hnext hz] at h
            obtain ⟨q, hway, hlast, hend⟩ := ih h hz
            exact ⟨q, .head hstep hway, hlast, hend⟩
      | length hfull _ => omega

/-- Pointers that lead to a zero byte are followed. -/
theorem labelLoop_of_led {p q z : Nat}
    (hpq : ReflTransGen (PointsTo packet packetSz) p q)
    (hqz : PointsTo packet packetSz q z) (hz : packet z = 0)
    {v : LabelVars} (hv : v.labelPtr = p) :
    packet p ≠ 0 ∧ ∃ fuel, labelLoop packet packetSz max fuel v
      = some ({ v with
        labelPtr := z
        endPtr := some (q + 2) }, false) := by
  have hne : ∀ {a b}, PointsTo packet packetSz a b → packet a ≠ 0 :=
    fun hab => pointer_ne_zero hab.1
  induction hpq using ReflTransGen.head_induction_on generalizing v with
  | refl =>
      refine ⟨hne hqz, ?_⟩
      obtain ⟨h, rfl, hin⟩ := hqz
      exact ⟨1, labelLoop_done (arrives_pointer hv h hin) hz 0⟩
  | @head a b hab hbq ih =>
      refine ⟨hne hab, ?_⟩
      obtain ⟨h, rfl, hin⟩ := hab
      obtain ⟨hb, fuel, hloop⟩ := ih (v := { v with
        labelPtr := target packet a
        endPtr := some (a + 2) }) rfl
      exact ⟨fuel + 1, (labelLoop_again (arrives_pointer hv h hin) hb
        fuel).trans hloop⟩

/-- What ran when `labelToStr` has returned a position. -/
theorem labelLoop_of_labelToStr {fuel start finish : Nat}
    {res' : Slots UInt8}
    (h : labelToStr fuel packet start packetSz res max
      = some (some finish, res')) :
    ∃ w, labelLoop packet packetSz max fuel (.reading res start [] none)
        = some (w, false) ∧
      w.endPtr.getD (w.labelPtr + 1) = finish ∧
      w.res.write w.i 0 = res' := by
  unfold labelToStr at h
  split at h
  · cases h
  · cases h
  · rename_i w hloop
    cases h
    exact ⟨w, hloop, rfl, rfl⟩

-- ================================================================== the law

/-- Runs that end return the same. -/
theorem labelToStr_unique {fuel fuel' start : Nat}
    {r r' : Option Nat × Slots UInt8}
    (h : labelToStr fuel packet start packetSz res max = some r)
    (h' : labelToStr fuel' packet start packetSz res max = some r') :
    r = r' := by
  have hmono : ∀ {fuel r}, labelToStr fuel packet start packetSz res max
      = some r → ∀ more, labelToStr (fuel + more) packet start packetSz res
        max = some r := by
    intro fuel r h more
    unfold labelToStr at h ⊢
    cases hloop : labelLoop packet packetSz max fuel
        { labelPtr := start
          i := 0
          endPtr := none
          res := res } with
    | none =>
        rw [hloop] at h
        cases h
    | some x =>
        rw [labelLoop_mono hloop more]
        rw [hloop] at h
        exact h
  have h := hmono h fuel'
  rw [Nat.add_comm, hmono h' fuel] at h
  exact (Option.some.inj h).symm

/-- A name with a part is decoded exactly if it has at most one
pointer. -/
theorem decodes_iff_of_part {start finish : Nat} {ls : List (List UInt8)}
    {ps : List Nat} (h : NameAt packet packetSz start ls finish ps)
    (hroom : (dotted ls).length ≤ max) (hne : packet start ≠ 0) :
    Decodes packet start packetSz res max (dotted ls) finish ↔
      ps.length ≤ 1 := by
  rw [← addLabels_eq h.isLabel] at hroom ⊢
  obtain ⟨fuel, q, e, hloop, hend⟩ := labelLoop_name res h hne hroom
  have hdone := labelToStr_done hloop
  rw [hend] at hdone
  have hiff : Decodes packet start packetSz res max (addLabels [] ls) finish
      ↔ lastEnd none finish ps = finish := by
    constructor
    · intro h
      obtain ⟨fuel', hfuel'⟩ := h
      have heq := labelToStr_unique hdone hfuel'
      exact Option.some.inj (congrArg Prod.fst heq)
    · intro heq
      exact ⟨fuel, by rw [hdone, heq]⟩
  rw [hiff]
  cases ps with
  | nil => exact iff_of_true rfl (Nat.zero_le 1)
  | cons p ps =>
      obtain ⟨hfirst, hnot⟩ := h.first_not_mem
      cases ps with
      | nil => exact iff_of_true hfirst.symm (Nat.le_refl 1)
      | cons p' ps =>
          refine iff_of_false (fun heq => ?_) (by simp)
          obtain ⟨q', hq', hlast⟩ := exists_lastEnd (some (p + 2)) finish p'
            ps
          rw [lastEnd, hlast, hfirst] at heq
          obtain rfl : q' = p := by omega
          exact hnot hq'

/-- The name without labels is decoded exactly if the bytes behind it lead
back to it. -/
theorem decodes_iff_of_zero {start : Nat} (hin : start < packetSz)
    (h0 : packet start = 0) (hmax : 0 < max) :
    Decodes packet start packetSz res max [] (start + 1) ↔
      LedBack packet packetSz start := by
  have hfirst : Arrives packet packetSz max (.reading res start [] none) _ :=
    arrives_zero h0 hin
  constructor
  · intro h
    obtain ⟨fuel, hfuel⟩ := h
    obtain ⟨w, hloop, hend, hwrite⟩ := labelLoop_of_labelToStr hfuel
    obtain ⟨fuel, rfl⟩ : ∃ k, fuel = k + 1 := by
      cases fuel with
      | zero => cases hloop
      | succ k => exact ⟨k, rfl⟩
    by_cases hz : packet (start + 1) = 0
    · -- the caller would go on one byte further
      rw [labelLoop_done hfirst hz] at hloop
      cases hloop
      exact absurd hend (by simp [LabelVars.reading])
    · rw [labelLoop_again hfirst hz] at hloop
      have htouched := congrArg Slots.touched hwrite
      have hi : w.i = 0 := (List.cons.inj htouched).1
      obtain ⟨q, hway, hlast, hw, hptr⟩ := led_of_labelLoop hmax hloop hz hi
      rw [hptr, Option.getD_some] at hend
      exact ⟨q, _, by omega, hway, hlast, hw⟩
  · intro h
    obtain ⟨q, z, rfl, hpq, hqz, hz⟩ := h
    obtain ⟨hne, fuel, hloop⟩ : _ ∧ ∃ fuel, labelLoop packet packetSz max
        fuel (.reading res (q + 1 + 1) [] none) = some (_, false) :=
      labelLoop_of_led hpq hqz hz rfl
    refine ⟨fuel + 1, ?_⟩
    exact labelToStr_done ((labelLoop_again hfirst hne fuel).trans hloop)

end

/-- `labelToStr` decodes a well-formed name exactly if it has a part and at
most one pointer, or if it has none and the bytes behind it lead back to
it.

Two things decide. The end that is returned is that behind the last pointer
followed, which is the name's own only if there is one at most. And a name
without parts is not noticed: the loop tests for the zero byte behind a
part only, so it reads on behind an empty name and comes right only where
that leads to it again. -/
theorem decodes_iff {packet : Nat → UInt8} {packetSz start finish : Nat}
    {ls : List (List UInt8)} {ps : List Nat}
    (h : NameAt packet packetSz start ls finish ps) {resMaxLen : Nat}
    (hlen : (dotted ls).length < resMaxLen) (res : Slots UInt8) :
    Decodes packet start packetSz res resMaxLen (dotted ls) finish ↔
      (packet start ≠ 0 ∧ ps.length ≤ 1) ∨
      (packet start = 0 ∧ LedBack packet packetSz start) := by
  by_cases h0 : packet start = 0
  · obtain ⟨rfl, rfl, -⟩ := h.unique (.root h.inside h0)
    rw [and_iff_right h0, or_iff_right fun hne => hne.1 h0]
    exact decodes_iff_of_zero h.inside h0 (Nat.zero_lt_of_lt hlen)
  · rw [and_iff_right h0, or_iff_left fun hz => h0 hz.1]
    exact decodes_iff_of_part h hlen.le h0

/-- The name "a", a pointer to it, a pointer to the pointer, and the name
without labels. -/
def names (p : Nat) : UInt8 :=
  [0, 1, 1, 0, 0, 1, 0, 0, 0, 0, 0, 0, 1, 0x61, 0, 0xC0, 0x0C, 0xC0, 0x0F,
    0, 0, 2, 0, 1].getD p 0

/-- The name that the pointer at 15 stands for. -/
theorem nameAt_pointer : NameAt names 24 15 [[0x61]] 17 [15] := by
  have hend : NameAt names 24 14 [] 15 [] := .root (by decide) (by decide)
  have hname : NameAt names 24 12 [[0x61]] 15 [] :=
    .label (by decide) (by decide) (by decide) hend
  exact .pointer (by decide) (by decide) (by decide) hname

/-- The pointer to the name is decoded. -/
theorem decodes_pointer :
    Decodes names 15 24 (.array dnsLen fun _ => 0) dnsLen [0x61] 17 :=
  (decodes_iff nameAt_pointer (by decide) _).mpr
    (.inl ⟨by decide, by decide⟩)

/-- Behind the pointer to the pointer, at 17, the caller is sent to 17
again, and behind the name without labels, at 19, to 21. -/
theorem decodes_fails :
    (NameAt names 24 17 [[0x61]] 19 [17, 15] ∧
      ¬ Decodes names 17 24 (.array dnsLen fun _ => 0) dnsLen [0x61] 19) ∧
    (NameAt names 24 19 [] 20 [] ∧
      ¬ Decodes names 19 24 (.array dnsLen fun _ => 0) dnsLen [] 20) := by
  have hno : ∀ {start finish fuel r text},
      labelToStr fuel names start 24 (.array dnsLen fun _ => 0) dnsLen
        = some r → r.1 ≠ some finish →
      ¬ Decodes names start 24 (.array dnsLen fun _ => 0) dnsLen text
        finish := by
    intro start finish fuel r text hrun hne h
    obtain ⟨fuel', hfuel'⟩ := h
    exact hne (congrArg Prod.fst (labelToStr_unique hrun hfuel'))
  have hchain : (labelToStr 3 names 17 24 (.array dnsLen fun _ => 0)
      dnsLen).any (fun r => r.1 = some 17) = true := by decide +kernel
  have hzero : (labelToStr 1 names 19 24 (.array dnsLen fun _ => 0)
      dnsLen).any (fun r => r.1 = some 21) = true := by decide +kernel
  obtain ⟨r, hr, hfst⟩ := (Option.any_eq_true _ _).mp hchain
  obtain ⟨r', hr', hfst'⟩ := (Option.any_eq_true _ _).mp hzero
  refine ⟨⟨.pointer (by decide) (by decide) (by decide) nameAt_pointer,
    hno hr ?_⟩, .root (by decide) (by decide), hno hr' ?_⟩
  · rw [of_decide_eq_true hfst]
    decide
  · rw [of_decide_eq_true hfst']
    decide

end ShZ001.Dns
