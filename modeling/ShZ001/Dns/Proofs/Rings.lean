/-
When the loop of `labelToStr` ends (captdns.c 117–145).

# Three ways round

The result only grows, and not beyond its bound, so a run that does not
end goes on for ever without adding to it. It then moves over the packet
by pointers, stands on a reserved byte, or, when the result is full,
goes from each length byte to the next byte without copying a label.
Positions outside the packet end it, so it comes round: `RingAt`. That
is also all it takes.

# The walk

What the loop does next depends on its position and on the length of its
text, and on nothing else: `Place` is these two, `Place.onward` the next
place, and the loop ends exactly if the walk does
(`terminates_iff_ends`). Inside the packet there are finitely many
places, so the general theorem of walks applies (`Lib/Walk.lean`): it
ends exactly if it does not come to a ring. Along a ring the length
cannot grow (`Place.le_next_len`), so its steps are the three hops, and
the ring is one of positions (`ring_iff`).
-/
import Mathlib.Data.Finite.Prod
import Mathlib.Order.Interval.Finset.Nat
import ShZ001.Lib.Walk
import ShZ001.Dns.Recv

namespace ShZ001.Dns

open Lib Relation

-- ================================================================== the law

/-- The loop of `labelToStr` ends. -/
def Terminates (packet : Nat → UInt8) (labelPtr packetSz : Nat)
    (res : Slots UInt8) (resMaxLen : Nat) : Prop :=
  ∃ fuel r, labelToStr fuel packet labelPtr packetSz res resMaxLen = some r

/-- A part of a name that adds no text, and where the next one is. -/
inductive Hop (packet : Nat → UInt8) (full : Prop) : Nat → Nat → Prop
  | reserved {p} (h₀ : packet p &&& 0xC0 ≠ 0)
      (h₃ : packet p &&& 0xC0 ≠ 0xC0) : Hop packet full p p
  | pointer {p} (h : packet p &&& 0xC0 = 0xC0) :
      Hop packet full p (ntohs packet p &&& 0x3FFF)
  | length {p} (hfull : full) (h : packet p &&& 0xC0 = 0) :
      Hop packet full p (p + 1)

/-- From `p` such parts lead back to `p`, inside the packet and past no
terminator. -/
def RingAt (packet : Nat → UInt8) (packetSz : Nat) (full : Prop)
    (p : Nat) : Prop :=
  TransGen (fun p q => Hop packet full p q ∧ q ≤ packetSz ∧ packet q ≠ 0)
    p p

/-- How far a name has been read: the position, and the length of its
text. -/
structure Place where
  pos : Nat
  len : Nat

/-- The place behind the next part. A label is separated from the text
before it, and copied as far as there is room. -/
def Place.next (packet : Nat → UInt8) (resMaxLen : Nat) (a : Place) :
    Place :=
  let b := packet a.pos
  if b &&& 0xC0 = 0 then
    let len := if a.len < resMaxLen ∧ a.len ≠ 0 then a.len + 1 else a.len
    let k := min b.toNat (resMaxLen - len)
    { pos := a.pos + 1 + k
      len := len + k }
  else if b &&& 0xC0 = 0xC0 then
    { a with pos := ntohs packet a.pos &&& 0x3FFF }
  else a

/-- The same, unless the name ends there or leaves the packet. -/
def Place.onward (packet : Nat → UInt8) (packetSz resMaxLen : Nat)
    (a : Place) : Option Place :=
  let b := a.next packet resMaxLen
  if packetSz < b.pos then none
  else if packet b.pos ≠ 0 then some b
  else none

/-- The name at `labelPtr` leads to such a ring. -/
def LeadsToRing (packet : Nat → UInt8) (labelPtr packetSz : Nat)
    (resMaxLen : Nat) : Prop :=
  ∃ a, ReflTransGen (Goes (Place.onward packet packetSz resMaxLen))
      { pos := labelPtr
        len := 0 } a ∧
    RingAt packet packetSz (resMaxLen ≤ a.len) a.pos

-- ============================================================ the variables

/-- The place of the variables. -/
def LabelVars.place (v : LabelVars) : Place where
  pos := v.labelPtr
  len := v.i

/-- The copy loop moves on by the bytes there is room for; it returns
`NULL` only where they lead out of the packet. -/
theorem copyLabel_place (packet : Nat → UInt8) (packetSz max n : Nat)
    (v : LabelVars) :
    ((copyLabel packet packetSz max n v).2 = true ∧
      packetSz < v.labelPtr + min n (max - v.i)) ∨
    ((copyLabel packet packetSz max n v).2 = false ∧
      (copyLabel packet packetSz max n v).1.place =
        { pos := v.labelPtr + min n (max - v.i)
          len := v.i + min n (max - v.i) }) := by
  induction n generalizing v with
  | zero => exact .inr ⟨rfl, by simp [copyLabel, LabelVars.place]⟩
  | succ n ih =>
      unfold copyLabel
      split
      case isTrue hout => exact .inl ⟨rfl, Nat.lt_add_right _ hout⟩
      case isFalse =>
          split
          case isTrue hroom =>
              have hk : min (n + 1) (max - v.i)
                  = 1 + min n (max - (v.i + 1)) := by omega
              have hrest := ih { v.put (packet v.labelPtr) with
                labelPtr := v.labelPtr + 1 }
              rw [hk, ← Nat.add_assoc, ← Nat.add_assoc]
              exact hrest
          case isFalse hfull =>
              have hk : ∀ m, min m (max - v.i) = 0 := by omega
              have hrest := ih v
              rw [hk] at hrest ⊢
              exact hrest

/-- A turn goes on exactly where the name does. -/
inductive TurnGoes (packet : Nat → UInt8) (packetSz : Nat) (b : Place) :
    LabelVars × TurnEnd → Prop
  | null {w} (hout : packetSz < b.pos) :
      TurnGoes packet packetSz b (w, .null)
  | again {w} (hin : ¬ packetSz < b.pos) (hb : packet b.pos ≠ 0)
      (h : w.place = b) : TurnGoes packet packetSz b (w, .again)
  | done {w} (hin : ¬ packetSz < b.pos) (hb : ¬ packet b.pos ≠ 0)
      (h : w.place = b) : TurnGoes packet packetSz b (w, .done)

/-- The tests at the end of a turn. -/
theorem turnGoes_end {packet : Nat → UInt8} {packetSz : Nat}
    {b : Place} {v : LabelVars} {null : Bool}
    (h : (null = true ∧ packetSz < b.pos) ∨
      (null = false ∧ v.place = b)) :
    TurnGoes packet packetSz b
      (if null then (v, .null)
      else if packetSz < v.labelPtr then (v, .null)
      else if packet v.labelPtr ≠ 0 then (v, .again)
      else (v, .done)) := by
  rcases h with ⟨rfl, hout⟩ | ⟨rfl, rfl⟩
  · exact .null hout
  · rw [if_neg Bool.false_ne_true]
    split_ifs with hout hb
    · exact .null hout
    · exact .again hout hb rfl
    · exact .done hout hb rfl

/-- A turn goes to the next place, or ends where that is outside or on a
zero byte. -/
theorem turn_place (packet : Nat → UInt8) (packetSz max : Nat)
    (v : LabelVars) :
    TurnGoes packet packetSz (v.place.next packet max)
      (turn packet packetSz max v) := by
  unfold turn
  dsimp only
  refine turnGoes_end ?_
  unfold Place.next
  dsimp only
  rw [show v.place.pos = v.labelPtr from rfl,
    show v.place.len = v.i from rfl]
  split_ifs with hlabel hsep hptr hout
  · exact copyLabel_place packet packetSz max _
      ({ v with labelPtr := v.labelPtr + 1 }.put 0x2e)
  · exact copyLabel_place packet packetSz max _
      { v with labelPtr := v.labelPtr + 1 }
  · exact .inl ⟨rfl, hout⟩
  · exact .inr ⟨rfl, rfl⟩
  · exact .inr ⟨rfl, rfl⟩

/-- The loop walks along the name. -/
theorem labelLoop_eq_none (packet : Nat → UInt8) (packetSz max fuel : Nat)
    (v : LabelVars) :
    labelLoop packet packetSz max fuel v = none ↔
      walk (Place.onward packet packetSz max) fuel v.place ≠ none := by
  induction fuel generalizing v with
  | zero => exact iff_of_true rfl (Option.some_ne_none _)
  | succ fuel ih =>
      unfold labelLoop walk Place.onward
      have hturn := turn_place packet packetSz max v
      generalize turn packet packetSz max v = r at hturn ⊢
      dsimp only
      cases hturn with
      | null hout =>
          rw [if_pos hout]
          exact iff_of_false (Option.some_ne_none _) (not_not.mpr rfl)
      | @again w hin hb h =>
          rw [if_neg hin, if_pos hb, ← h]
          exact ih w
      | done hin hb _ =>
          rw [if_neg hin, if_neg hb]
          exact iff_of_false (Option.some_ne_none _) (not_not.mpr rfl)

/-- The loop ends exactly if the walk along its places does; the buffer
plays no part. -/
theorem terminates_iff_ends {packet : Nat → UInt8}
    {labelPtr packetSz resMaxLen : Nat} {res : Slots UInt8} :
    Terminates packet labelPtr packetSz res resMaxLen ↔
      Ends (Place.onward packet packetSz resMaxLen)
        { pos := labelPtr
          len := 0 } := by
  refine exists_congr fun fuel => ?_
  rw [← Option.ne_none_iff_exists', ← not_iff_not, not_not]
  have hloop := labelLoop_eq_none packet packetSz resMaxLen fuel
    { labelPtr := labelPtr
      i := 0
      endPtr := none
      res := res }
  refine Iff.trans ?_ hloop
  unfold labelToStr
  split
  · rename_i h
    exact iff_of_true rfl h
  · rename_i h
    rw [h]
    exact iff_of_false (Option.some_ne_none _) (Option.some_ne_none _)
  · rename_i h
    rw [h]
    exact iff_of_false (Option.some_ne_none _) (Option.some_ne_none _)

-- ================================================================ the rings

section

variable {packet : Nat → UInt8} {packetSz max : Nat} {a b : Place}

/-- Where the name goes on, it is inside the packet and not at its
end. -/
theorem goes_iff :
    Goes (Place.onward packet packetSz max) a b ↔
      a.next packet max = b ∧ b.pos ≤ packetSz ∧ packet b.pos ≠ 0 := by
  unfold Goes Place.onward
  dsimp only
  split_ifs with hout hb
  · refine iff_of_false nofun ?_
    intro h
    obtain ⟨rfl, hin, -⟩ := h
    omega
  · rw [Option.some.injEq]
    constructor
    · intro h
      subst h
      exact ⟨rfl, Nat.le_of_not_lt hout, hb⟩
    · exact And.left
  · refine iff_of_false nofun ?_
    intro h
    obtain ⟨rfl, -, hne⟩ := h
    exact hb hne

/-- The text does not shrink. -/
theorem Place.le_next_len (packet : Nat → UInt8) (max : Nat) (a : Place) :
    a.len ≤ (a.next packet max).len := by
  unfold Place.next
  dsimp only
  split_ifs
  · dsimp only
    omega
  · exact Nat.le_add_right _ _
  · exact Nat.le_refl _
  · exact Nat.le_refl _

/-- It keeps to its bound. -/
theorem Place.next_len_le (h : a.len ≤ max) :
    (a.next packet max).len ≤ max := by
  unfold Place.next
  dsimp only
  split_ifs
  · dsimp only
    omega
  · dsimp only
    omega
  · exact h
  · exact h

/-- A part that adds no text is a hop. -/
theorem hop_of_level (hb : packet a.pos ≠ 0)
    (hlevel : (a.next packet max).len = a.len) :
    Hop packet (max ≤ a.len) a.pos (a.next packet max).pos := by
  have hpos : 0 < (packet a.pos).toNat :=
    Nat.pos_of_ne_zero fun h => hb (UInt8.toNat_inj.mp h)
  unfold Place.next at hlevel ⊢
  dsimp only at hlevel ⊢
  split_ifs at hlevel ⊢ with hlabel hsep hptr
  · dsimp only at hlevel
    omega
  · -- nothing was copied, so there was no room
    dsimp only at hlevel ⊢
    have hfull : max ≤ a.len := by omega
    rw [Nat.sub_eq_zero_of_le hfull, Nat.min_zero, Nat.add_zero]
    exact .length hfull hlabel
  · exact .pointer hptr
  · exact .reserved hlabel hptr

/-- A hop keeps the text as it is. -/
theorem next_of_hop {p q len : Nat} (h : Hop packet (max ≤ len) p q) :
    Place.next packet max
      { pos := p
        len := len } =
      { pos := q
        len := len } := by
  unfold Place.next
  dsimp only
  cases h with
  | reserved h₀ h₃ => rw [if_neg h₀, if_neg h₃]
  | pointer h =>
      rw [if_neg (by rw [h]; decide), if_pos h]
  | length hfull h =>
      rw [if_pos h, if_neg (by omega), Nat.sub_eq_zero_of_le hfull,
        Nat.min_zero]
      rfl

/-- The name comes round exactly on a ring of hops. -/
theorem ring_iff :
    TransGen (Goes (Place.onward packet packetSz max)) a a ↔
      RingAt packet packetSz (max ≤ a.len) a.pos := by
  constructor
  · intro h
    refine TransGen.lift Place.pos (fun b c hbc => ?_) a a (ring_on h)
    obtain ⟨hstep, hb, hc⟩ := hbc
    have hlevel : ∀ {d}, OnRing (Goes (Place.onward packet packetSz max))
        a d → d.len = a.len := fun hd =>
      hd.level fun b c hbc => by
        rw [← (goes_iff.mp hbc).1]
        exact b.le_next_len packet max
    obtain ⟨hnext, hin, hne⟩ := goes_iff.mp hstep
    -- the place `b` was come to as well
    obtain ⟨b', -, hb'⟩ := TransGen.tail'_iff.mp hb.1
    have hsame : (b.next packet max).len = b.len := by
      rw [hnext, hlevel hc, hlevel hb]
    have hhop := hop_of_level (goes_iff.mp hb').2.2 hsame
    rw [hnext, hlevel hb] at hhop
    exact ⟨hhop, hin, hne⟩
  · intro h
    refine TransGen.lift (fun p => (⟨p, a.len⟩ : Place))
      (fun p q hpq => ?_) a.pos a.pos h
    obtain ⟨hhop, hin, hne⟩ := hpq
    exact goes_iff.mpr ⟨next_of_hop hhop, hin, hne⟩

/-- There are finitely many places a name can be read to. -/
theorem finite_places (n m : Nat) :
    {a : Place | a.pos ≤ n ∧ a.len ≤ m}.Finite := by
  refine (((Set.finite_Iic n).prod (Set.finite_Iic m)).image
    fun p => Place.mk p.1 p.2).subset ?_
  intro a h
  obtain ⟨pos, len⟩ := a
  exact ⟨(pos, len), h, rfl⟩

end

/-- The loop of `labelToStr` ends exactly if the name does not lead to a
ring: a reserved byte, pointers in a circle or, with a full result,
pointers and lengths in a circle.

The positions are finitely many, and the result only grows; so a loop that
does not end comes to a position twice with a result of one length, and
from then on it turns. -/
theorem terminates_iff (packet : Nat → UInt8) (labelPtr packetSz : Nat)
    (res : Slots UInt8) (resMaxLen : Nat) :
    Terminates packet labelPtr packetSz res resMaxLen ↔
      ¬ LeadsToRing packet labelPtr packetSz resMaxLen := by
  have hgoes : ∀ a, TransGen (Goes (Place.onward packet packetSz resMaxLen))
      { pos := labelPtr
        len := 0 } a → a ∈ {a | a.pos ≤ packetSz ∧ a.len ≤ resMaxLen} := by
    intro a ha
    induction ha with
    | single hstep =>
        obtain ⟨rfl, hin, -⟩ := goes_iff.mp hstep
        exact ⟨hin, Place.next_len_le (Nat.zero_le _)⟩
    | tail _ hstep ih =>
        obtain ⟨rfl, hin, -⟩ := goes_iff.mp hstep
        exact ⟨hin, Place.next_len_le ih.2⟩
  rw [terminates_iff_ends, ends_iff (finite_places _ _) hgoes]
  unfold LeadsToRing
  simp only [ring_iff, not_exists, not_and]

/-- A pointer to itself behind a header. -/
def pointerToItself (p : Nat) : UInt8 :=
  [0, 1, 1, 0, 0, 1, 0, 0, 0, 0, 0, 0, 0xC0, 0x0C, 0, 1, 0, 1].getD p 0

/-- The loop follows it for ever. -/
theorem terminates_fails :
    ¬ Terminates pointerToItself 12 18 (.array dnsLen fun _ => 0) dnsLen := by
  have hloop : ∀ fuel (v : LabelVars), v.labelPtr = 12 →
      labelLoop pointerToItself 18 dnsLen fuel v = none := by
    intro fuel
    induction fuel with
    | zero => exact fun _ _ => rfl
    | succ fuel ih =>
        intro v hv
        have hturn : turn pointerToItself 18 dnsLen v =
            ({ v with
              endPtr := some 14
              labelPtr := 12 }, .again) := by
          unfold turn
          rw [hv]
          rfl
        rw [labelLoop, hturn]
        exact ih _ rfl
  intro h
  obtain ⟨fuel, r, hr⟩ := h
  unfold labelToStr at hr
  rw [hloop fuel _ rfl] at hr
  cases hr

end ShZ001.Dns
