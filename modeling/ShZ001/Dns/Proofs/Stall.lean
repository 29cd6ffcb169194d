/-
When the responder stops for good (captdns.c 94–165, 267–306).

# One task, one buffer

A call of `captdnsRecv` that does not return is the end of the service:
the socket stays open, and nobody reads from it. The calls that do not
return are those in which the name of a question goes on for ever
(`Caught`), for one of the reasons of `Rings.lean`; a question behind it
is never come to, one before it does not matter. Opening and binding the
socket, errors of `recvfrom` and the other datagrams never stop the
task.

# Exactly when

`stalled_iff` is about every state of the server, reachable or not, and
both directions are about all continuations: in a call that hangs no
step of the task exists, whatever the network does (`stalled_of_hangs`),
and from any other state a few steps lead to an entry in the log.
-/
import ShZ001.Lib.Within
import ShZ001.Dns.Server
import ShZ001.Dns.Proofs.Rings
import ShZ001.Dns.Proofs.Served
import ShZ001.Dns.Proofs.Stuck

namespace ShZ001.Dns

open Lib Machine

-- =============================================================== questions

/-- Where the `k`-th question from `p` on begins, if the names before it
can be read. -/
def QuestionAt (packet : Nat → UInt8) (length : Nat) :
    Nat → Nat → Nat → Prop
  | p, 0, q => q = p
  | p, k + 1, q => ∃ fuel n,
      readName packet length dnsLen fuel (.start p) = some (some n) ∧
        QuestionAt packet length (n.finish + sizeofDnsQuestionFooter) k q

/-- The loop of `labelToStr` ends on the name at `p`. -/
def NameEnds (packet : Nat → UInt8) (length p : Nat) : Prop :=
  Terminates packet p length (.array dnsLen fun _ => 0) dnsLen

/-- The name of a question that is come to does not end. -/
def Caught (packet : Nat → UInt8) (length : Nat) : Prop :=
  accepted packet length = true ∧
    ∃ k p, k < qdcount packet ∧
      QuestionAt packet length sizeofDnsHeader k p ∧
      ¬ NameEnds packet length p

section

variable {packet : Nat → UInt8} {length : Nat}

/-- The loop ends on a name exactly if the name can be read. -/
theorem nameEnds_iff {p : Nat} : NameEnds packet length p ↔
    ∃ fuel r, readName packet length dnsLen fuel (.start p) = some r := by
  unfold NameEnds Terminates
  refine exists_congr fun fuel => ?_
  have hresult := labelToStr_result fuel packet p length
    (.array dnsLen fun _ => 0)
  rw [Slots.array_size] at hresult
  generalize labelToStr fuel packet p length _ dnsLen = l at hresult
  generalize readName packet length dnsLen fuel _ = r at hresult
  cases hresult with
  | running => exact iff_of_false nofun nofun
  | null => exact iff_of_true ⟨_, rfl⟩ ⟨_, rfl⟩
  | name => exact iff_of_true ⟨_, rfl⟩ ⟨_, rfl⟩

/-- The questions can be read if the names that are come to end. -/
theorem exists_readQuestions {n p : Nat} :
    (∃ fuel a, readQuestions fuel packet length n p = some a) ↔
      ∀ k q, k < n → QuestionAt packet length p k q →
        NameEnds packet length q := by
  induction n generalizing p with
  | zero =>
      exact iff_of_true ⟨0, _, rfl⟩
        fun _ _ hk => absurd hk (Nat.not_lt_zero _)
  | succ n ih =>
      constructor
      · intro h k q hk hq
        obtain ⟨fuel, a, ha⟩ := h
        unfold readQuestions at ha
        cases hname : readName packet length dnsLen fuel (.start p) with
        | none =>
            rw [hname] at ha
            cases ha
        | some r =>
            cases k with
            | zero =>
                obtain rfl : q = p := hq
                exact nameEnds_iff.mpr ⟨fuel, r, hname⟩
            | succ k =>
                obtain ⟨fuel', name, hread, hq⟩ := hq
                obtain rfl := readName_unique hname hread
                rw [hname] at ha
                dsimp only at ha
                cases hrest : readQuestions fuel packet length n
                    (name.finish + sizeofDnsQuestionFooter) with
                | none =>
                    rw [hrest] at ha
                    cases ha
                | some rest =>
                    exact ih.mp ⟨fuel, rest, hrest⟩ k q
                      (Nat.lt_of_succ_lt_succ hk) hq
      · intro h
        obtain ⟨fuel, r, hname⟩ :=
          nameEnds_iff.mp (h 0 p (Nat.succ_pos n) rfl)
        cases r with
        | none =>
            refine ⟨fuel, ⟨[], true⟩, ?_⟩
            unfold readQuestions
            rw [hname]
        | some name =>
            obtain ⟨fuel', rest, hrest⟩ := ih.mpr fun k q hk hq =>
              h (k + 1) q (Nat.succ_lt_succ hk) ⟨fuel, name, hname, hq⟩
            -- fuel for this name and for what is behind it
            refine ⟨fuel + fuel', { rest with
              questions := ⟨name.text, ntohs packet name.finish⟩
                :: rest.questions }, ?_⟩
            unfold readQuestions
            rw [readName_mono hname fuel']
            dsimp only
            rw [Nat.add_comm, readQuestions_mono hrest fuel]

/-- So a datagram can be read unless it is caught in a name. -/
theorem exists_readDatagram :
    (∃ fuel a, readDatagram fuel packet length = some a) ↔
      ¬ Caught packet length := by
  unfold readDatagram Caught
  by_cases hacc : accepted packet length = true
  · simp only [hacc, ↓reduceIte, exists_readQuestions, true_and, not_exists,
      not_and, not_not]
  · simp only [if_neg hacc]
    exact iff_of_true ⟨0, _, rfl⟩ fun h => hacc h.1

end

-- ================================================================ the server

variable {ip : UInt8 × UInt8 × UInt8 × UInt8} {msg : Nat → UInt8}
  {s t : Server}

/-- Nothing more is received or sent, whatever happens. -/
def Stalled (ip : UInt8 × UInt8 × UInt8 × UInt8) (msg : Nat → UInt8)
    (s : Server) : Prop :=
  ∀ acts t, (captdnsTask ip msg).run anyStep s acts = some t → t.log = s.log

/-- The call of `captdnsRecv` does not return, whatever the memory that
the source does not set. -/
def Server.Hangs (s : Server) : Prop :=
  ∃ peer ret, s.phase = .received peer ret ∧ 0 < ret ∧
    ∀ x, Caught (s.packet x) (ret % 65536)

/-- The call returns, with enough turns, exactly if it is not caught; with
nothing received there is nothing to be caught in. -/
theorem handle_returns {peer : SockAddr} {ret : Nat} {x : Scratch} :
    (∃ fuel t, s.handle ip peer ret fuel x = some t) ↔
      (0 < ret → ¬ Caught (s.packet x) (ret % 65536)) := by
  unfold Server.handle
  by_cases hret : 0 < ret
  · have hread : ∀ fuel,
        (∃ t, (captdnsRecv fuel (s.recvEnv ip ret x)).map
          (fun out => s.answered peer out.sent) = some t) ↔
        ∃ a, readDatagram fuel (s.packet x) (ret % 65536) = some a := by
      intro fuel
      have hsent := captdnsRecv_sent fuel (s.recvEnv ip ret x)
      rw [← Option.isSome_iff_exists, ← Option.isSome_iff_exists,
        Option.isSome_map, ← Option.isSome_map (f := RecvOut.sent), hsent,
        Option.isSome_map]
      rfl
    simp only [if_pos hret, hread, exists_readDatagram]
    exact ⟨fun h _ => h, fun h => h hret⟩
  · simp only [if_neg hret]
    exact iff_of_true ⟨0, _, rfl⟩ fun h => absurd h hret

/-- What it does to the server is to answer or to be silent. -/
theorem handle_answered {peer : SockAddr} {ret fuel : Nat} {x : Scratch}
    (h : s.handle ip peer ret fuel x = some t) :
    ∃ sent, t = s.answered peer sent := by
  unfold Server.handle at h
  split at h
  · obtain ⟨out, -, rfl⟩ := Option.map_eq_some_iff.mp h
    exact ⟨_, rfl⟩
  · exact ⟨none, (Option.some.inj h).symm⟩

/-- A call that does not return goes on as it is. -/
theorem hangs_step {a : ServerAct} (h : s.Hangs)
    (happ : (captdnsTask ip msg).apply a s = some t) :
    t.Hangs ∧ t.log = s.log := by
  obtain ⟨peer, ret, hphase, hpos, hcaught⟩ := h
  cases step_effect happ with
  | quiet hlog hmsg hphase' =>
      rcases hphase' with heq | hno
      · refine ⟨⟨peer, ret, heq.trans hphase, hpos, fun x => ?_⟩, hlog⟩
        have hsame : t.packet x = s.packet x := by
          funext p
          unfold Server.packet
          rw [hmsg]
        rw [hsame]
        exact hcaught x
      · exact absurd hphase (hno peer ret).1
  | took _ _ hphase' =>
      rw [hphase] at hphase'
      cases hphase'
  | failed hphase' _ _ =>
      rw [hphase] at hphase'
      cases hphase'
  | @handled fuel x _ peer' ret' hphase' h =>
      obtain ⟨rfl, rfl⟩ : peer = peer' ∧ ret = ret' := by
        simpa using hphase.symm.trans hphase'
      exact absurd (hcaught x) (handle_returns.mp ⟨fuel, t, h⟩ hpos)

/-- So nothing is received or sent in any continuation. -/
theorem stalled_of_hangs (h : s.Hangs) : Stalled ip msg s := by
  intro acts t hrun
  have hstep : ∀ t a t', t.Hangs ∧ t.log = s.log →
      (captdnsTask ip msg).apply a t = some t' →
        t'.Hangs ∧ t'.log = s.log := by
    intro t a t' ht happ
    obtain ⟨hhangs, hlog⟩ := hangs_step ht.1 happ
    exact ⟨hhangs, hlog.trans ht.2⟩
  exact (run_invariant hstep ⟨h, rfl⟩ hrun).2

/-- A call that returns is dealt with in one step. -/
theorem exists_answered {peer : SockAddr} {ret : Nat}
    (hphase : s.phase = .received peer ret) (h : ¬ s.Hangs) :
    ∃ fuel x sent, (captdnsTask ip msg).apply (.captdnsRecv fuel x) s
      = some (s.answered peer sent) := by
  obtain ⟨x, hx⟩ : ∃ x, 0 < ret → ¬ Caught (s.packet x) (ret % 65536) := by
    by_contra hall
    simp only [not_exists, Classical.not_imp, not_not] at hall
    have hpos := (hall ⟨fun _ => 0, fun _ => 0, fun _ => 0⟩).1
    exact h ⟨peer, ret, hphase, hpos, fun x => (hall x).2⟩
  obtain ⟨fuel, t, ht⟩ : ∃ fuel t, s.handle ip peer ret fuel x = some t :=
    handle_returns.mpr hx
  obtain ⟨sent, rfl⟩ := handle_answered ht
  refine ⟨fuel, x, sent, ?_⟩
  show s.step ip (.captdnsRecv fuel x) = _
  unfold Server.step
  rw [hphase]
  exact ht

/-- In whatever state, the server receives and sends no more exactly if it
is in a call of `captdnsRecv` for a datagram with a question whose name
does not end.

The other phases of the loop always have a step, and lead to the next
datagram; only this one can be left by nobody, since it depends on nothing
but bytes that have been received. -/
theorem stalled_iff (ip : UInt8 × UInt8 × UInt8 × UInt8) (msg : Nat → UInt8)
    (s : Server) : Stalled ip msg s ↔ s.Hangs := by
  refine ⟨fun h => ?_, stalled_of_hangs⟩
  by_contra hno
  -- a few steps that add to the log
  obtain ⟨acts, t, e, hrun, hlog⟩ : ∃ acts t e,
      (captdnsTask ip msg).run anyStep s acts = some t ∧
        t.log = e :: s.log := by
    let failed : Server :=
      { s with
        phase := .received .zero recvFailed
        log := .failed :: s.log }
    cases hphase : s.phase with
    | socket =>
        refine ⟨[.socket 0, .bind 0, .recvError], { failed with sockFd := 0 },
          .failed, ?_, rfl⟩
        simp [run, anyStep, captdnsTask, Server.step, hphase, failed]
    | bind =>
        refine ⟨[.bind 0, .recvError], failed, .failed, ?_, rfl⟩
        simp [run, anyStep, captdnsTask, Server.step, hphase, failed]
    | recvfrom =>
        refine ⟨[.recvError], failed, .failed, ?_, rfl⟩
        simp [run, anyStep, captdnsTask, Server.step, hphase, failed]
    | received peer ret =>
        obtain ⟨fuel, x, sent, happ⟩ : ∃ fuel x sent,
            (captdnsTask ip msg).apply (.captdnsRecv fuel x) s
              = some (s.answered peer sent) := exists_answered hphase hno
        refine ⟨[.captdnsRecv fuel x], s.answered peer sent, _, ?_, rfl⟩
        simp [run, anyStep, happ]
  have hsame := h acts t hrun
  rw [hlog] at hsame
  exact List.cons_ne_self e s.log hsame

/-- A name that is a pointer to itself does not end. -/
theorem not_nameEnds_pointer {packet : Nat → UInt8} {length p : Nat}
    (hptr : packet p &&& 0xC0 = 0xC0)
    (hself : ntohs packet p &&& 0x3FFF = p) (hin : p ≤ length) :
    ¬ NameEnds packet length p := by
  have hhop : Hop packet (dnsLen ≤ 0) p p := by
    have h : Hop packet (dnsLen ≤ 0) p (ntohs packet p &&& 0x3FFF) :=
      .pointer hptr
    rwa [hself] at h
  have hne : packet p ≠ 0 := by
    intro h0
    rw [h0] at hptr
    exact absurd hptr (by decide)
  unfold NameEnds
  rw [terminates_iff_ends]
  exact not_ends_of_ring .refl (ring_iff.mpr (.single ⟨hhop, hin, hne⟩))

/-- Such a question in eighteen bytes. -/
def pointerQuery : List UInt8 := (List.range 18).map pointerToItself

/-- From anyone, and whatever came before, it stops the server. -/
theorem stalled_pointerQuery (s : Server) (peer : SockAddr) :
    Stalled ip msg (s.take ⟨peer, pointerQuery⟩) := by
  refine stalled_of_hangs ⟨peer, 18, rfl, by decide, fun x => ?_⟩
  have hcell : ∀ p, p < 18 →
      (s.take ⟨peer, pointerQuery⟩).packet x p = pointerToItself p := by
    intro p hp
    have hbuf : slice (s.take ⟨peer, pointerQuery⟩).udpMsg.cell 0 18
        = pointerQuery := slice_take (s := s) ⟨peer, pointerQuery⟩
    have hbyte := slice_getElem?
      (s.take ⟨peer, pointerQuery⟩).udpMsg.cell 0 18 hp
    rw [hbuf, pointerQuery, List.getElem?_map, List.getElem?_range hp,
      Nat.zero_add] at hbyte
    unfold Server.packet
    rw [if_pos (hp.trans (by decide))]
    exact (Option.some.inj hbyte).symm
  have hacc : accepted pointerToItself 18 = true := by decide
  refine ⟨(accepted_agree hcell).trans hacc, 0, 12, ?_, rfl, ?_⟩
  · rw [qdcount_agree hcell hacc]
    decide
  · refine not_nameEnds_pointer ?_ ?_ (by decide)
    · rw [hcell 12 (by decide)]
      decide
    · unfold ntohs
      rw [hcell 12 (by decide), hcell 13 (by decide)]
      decide

end ShZ001.Dns
