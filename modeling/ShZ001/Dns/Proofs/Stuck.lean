/-
The converse of `blind_of_contained`, as far as it goes: an answered
datagram whose answer does not depend on the rest of the buffer has no
name with a head or a terminator there.

# A byte that stops the decoder

The reason is the reserved byte 0x40. Put in the place of an unknown
head or terminator it keeps `labelToStr` where it is for ever, or drops
the datagram (`exists_dropped`), so a buffer that holds it there gets no
answer, and the answer depended on the buffer.

# What stays open

For the second byte of a pointer and for a type there is no such value.
What they change may come to nothing (two offsets can lead to equal
names, and two types can both be unknown), and `namesKnown` does not ask
for them. So between the two conditions there are datagrams of which
neither theorem speaks.
-/
import Mathlib.Logic.Function.Basic
import ShZ001.Dns.Proofs.Isolation

namespace ShZ001.Dns

open Lib

-- =========================================================== the condition

/-- The heads and terminators of a name are known, up to a pointer whose
second byte is not. -/
def nameKnown (packet : Nat → UInt8) (length : Nat) : Nat → Name → Prop
  | 0, _ => True
  | fuel + 1, n =>
      Known length n.pos ∧
        (headInside packet length n.pos →
          let n := n.step packet dnsLen
          length < n.pos ∨
            Known length n.pos ∧
              (packet n.pos ≠ 0 → nameKnown packet length fuel n))

/-- And so for the next `n` questions, up to a name that is not
contained. -/
def namesKnown (packet : Nat → UInt8) (length fuel : Nat) :
    Nat → Nat → Prop
  | 0, _ => True
  | n + 1, p =>
      nameKnown packet length fuel (.start p) ∧
        (nameInside packet length fuel (.start p) →
          ∀ name, readName packet length dnsLen fuel (.start p)
            = some (some name) →
          namesKnown packet length fuel n
            (name.finish + sizeofDnsQuestionFooter))

-- ================================================================== a name

/-- On a reserved byte a name does not end. -/
theorem readName_reserved {packet : Nat → UInt8} {length : Nat} {n : Name}
    (hb : packet n.pos = 0x40) (fuel : Nat) (name : Name) :
    readName packet length dnsLen fuel n ≠ some (some name) := by
  have hstep : n.step packet dnsLen = n := by
    unfold Name.step
    rw [hb, if_neg (by decide), if_neg (by decide)]
  induction fuel with
  | zero =>
      intro h
      cases h
  | succ fuel ih =>
      unfold readName
      dsimp only
      rw [hstep, hb]
      split
      · intro h
        cases h
      · rw [if_pos (by decide)]
        exact ih

/-- The name does not end in any memory that has a reserved byte at an
unknown place `q`, and agrees otherwise. -/
def StuckAt (packet : Nat → UInt8) (length q : Nat) (n : Name) : Prop :=
  ∀ packet' : Nat → UInt8, (∀ p, Known length p → packet' p = packet p) →
    packet' q = 0x40 → ∀ fuel name,
      readName packet' length dnsLen fuel n ≠ some (some name)

/-- A name that does not end behind its first part does not end. -/
theorem stuckAt_step {packet : Nat → UInt8} {length q : Nat} {n : Name}
    (hhead : headInside packet length n.pos)
    (hin : ¬ length < (n.step packet dnsLen).pos)
    (hgoes : ∀ packet' : Nat → UInt8,
      (∀ p, Known length p → packet' p = packet p) → packet' q = 0x40 →
        packet' (n.step packet dnsLen).pos ≠ 0)
    (h : StuckAt packet length q (n.step packet dnsLen)) :
    StuckAt packet length q n := by
  intro packet' hagree hq fuel name
  cases fuel with
  | zero => nofun
  | succ fuel =>
      unfold readName
      dsimp only
      rcases step_agree hagree hhead with ⟨-, hout⟩ | heq
      · exact absurd hout hin
      · rw [heq, if_neg hin, if_pos (hgoes packet' hagree hq)]
        exact h packet' hagree hq fuel name

/-- A name with an unknown head or terminator has a place where the
reserved byte stops it. -/
theorem exists_stuckAt {packet : Nat → UInt8} {length fuel : Nat} {n : Name}
    (h : ¬ nameKnown packet length fuel n) :
    ∃ q, ¬ Known length q ∧ StuckAt packet length q n := by
  induction fuel generalizing n with
  | zero => exact absurd trivial h
  | succ fuel ih =>
      by_cases hpos : Known length n.pos
      case neg =>
          exact ⟨n.pos, hpos, fun _ _ hq => readName_reserved hq⟩
      unfold nameKnown at h
      dsimp only at h
      rw [not_and, Classical.not_imp, not_or, not_and] at h
      obtain ⟨hhead, hin, hnext⟩ := h hpos
      by_cases hend : Known length (n.step packet dnsLen).pos
      · obtain ⟨hb, hrest⟩ := Classical.not_imp.mp (hnext hend)
        obtain ⟨q, hq, hstuck⟩ := ih hrest
        refine ⟨q, hq, stuckAt_step hhead hin (fun packet' hagree _ => ?_)
          hstuck⟩
        rw [hagree _ hend]
        exact hb
      · refine ⟨_, hend, stuckAt_step hhead hin (fun packet' _ hq => ?_)
          fun _ _ hq => readName_reserved hq⟩
        rw [hq]
        decide

-- =============================================================== questions

/-- A name is read in one way. -/
theorem readName_unique {packet : Nat → UInt8} {size max fuel fuel' : Nat}
    {n : Name} {r r' : Option Name}
    (h : readName packet size max fuel n = some r)
    (h' : readName packet size max fuel' n = some r') : r = r' := by
  have h := readName_mono h fuel'
  rw [Nat.add_comm, readName_mono h' fuel] at h
  exact (Option.some.inj h).symm

/-- With it a list of questions is never read to its end. -/
theorem exists_dropped {packet : Nat → UInt8} {length fuel n p : Nat}
    (h : ¬ namesKnown packet length fuel n p) :
    ∃ q, ¬ Known length q ∧ ∀ packet' : Nat → UInt8,
      (∀ p, Known length p → packet' p = packet p) → packet' q = 0x40 →
      ∀ fuel' a, readQuestions fuel' packet' length n p = some a →
        a.dropped = true := by
  induction n generalizing p with
  | zero => exact absurd trivial h
  | succ n ih =>
      by_cases hname : nameKnown packet length fuel (.start p)
      case neg =>
          obtain ⟨q, hq, hstuck⟩ := exists_stuckAt hname
          refine ⟨q, hq, fun packet' hagree hb fuel' a ha => ?_⟩
          have hno := hstuck packet' hagree hb fuel'
          unfold readQuestions at ha
          cases hread : readName packet' length dnsLen fuel' (.start p) with
          | none =>
              rw [hread] at ha
              cases ha
          | some r =>
              rw [hread] at ha
              cases r with
              | none =>
                  cases ha
                  rfl
              | some name => exact absurd hread (hno name)
      unfold namesKnown at h
      rw [not_and, Classical.not_imp] at h
      obtain ⟨hinside, hrest⟩ := h hname
      obtain ⟨name, hrest⟩ := not_forall.mp hrest
      obtain ⟨hread, hrest⟩ := Classical.not_imp.mp hrest
      obtain ⟨q, hq, hstuck⟩ := ih hrest
      refine ⟨q, hq, fun packet' hagree hb fuel' a ha => ?_⟩
      have hsame := (readName_agree hagree hinside).trans hread
      unfold readQuestions at ha
      cases hread' : readName packet' length dnsLen fuel' (.start p) with
      | none =>
          rw [hread'] at ha
          cases ha
      | some r =>
          rw [hread', readName_unique hread' hsame] at ha
          dsimp only at ha
          cases hmore : readQuestions fuel' packet' length n
              (name.finish + sizeofDnsQuestionFooter) with
          | none =>
              rw [hmore] at ha
              cases ha
          | some rest =>
              rw [hmore] at ha
              cases ha
              exact hstuck packet' hagree hb fuel' rest hmore

-- ================================================================== the law

/-- An answered datagram that is answered alike whatever the rest of the
buffer holds has its names' heads and terminators in it. -/
theorem namesKnown_of_blind {env : RecvEnv} {r : List UInt8}
    (h : Sends env r) (hblind : Blind env) (fuel : Nat) :
    namesKnown env.packet env.length fuel (qdcount env.packet)
      sizeofDnsHeader := by
  by_contra hno
  obtain ⟨q, hq, hdropped⟩ := exists_dropped hno
  have hagree : ∀ p, Known env.length p →
      Function.update env.packet q 0x40 p = env.packet p := by
    intro p hp
    refine Function.update_of_ne ?_ _ _
    intro h
    subst h
    exact hq hp
  have hinside : ∀ p, p < env.length →
      Function.update env.packet q 0x40 p = env.packet p :=
    fun p hp => hagree p (.inl hp)
  have hsends := (hblind
    { env with packet := Function.update env.packet q 0x40 }
    ⟨rfl, hagree, rfl, rfl, rfl⟩ r).mpr h
  obtain ⟨fuel', a, ha, hsent, -⟩ := sends_iff.mp hsends
  have hacc := accepted_of_sends h
  unfold readDatagram at ha
  dsimp only at ha
  rw [if_pos ((accepted_agree hinside).trans hacc),
    qdcount_agree hinside hacc] at ha
  rw [hdropped _ hagree (Function.update_self ..) fuel' a ha] at hsent
  cases hsent

end ShZ001.Dns
