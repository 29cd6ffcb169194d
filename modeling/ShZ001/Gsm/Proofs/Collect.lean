/-
What collecting a reply leaves in the caller's buffer (libGSM.c
346–364).

# The copy

It is right: however the reply is cut into reads and however often the
block grows, the bytes are there, in their order, with room for one
more, and every `memcpy` is inside the block of that moment (`gathers`).
`Gathering` is the loop's invariant; a turn either stores into the room
there is or moves the block first, and these are its two lemmas.

# The terminator

It is not. `response[tot] = '\0'` takes the address of the caller's
pointer for the buffer, so that no reply gets its NUL and every read
clears a word behind that pointer.

# What is left

`collectLaw_iff` gives the replies on which nothing goes wrong: the one
without a byte, if its buffer happens to begin with a NUL.
-/
import ShZ001.Lib.Contents
import ShZ001.Gsm.Proofs.Ownership

namespace ShZ001.Gsm

open Lib

-- ================================================================== the law

/-- What is collected from these reads, into a buffer of `size` bytes that
holds `mem`. -/
structure Collecting where
  env : ReplyEnv
  response : Ptr
  size : Nat
  mem : Nat → UInt8
  size_pos : 0 < size
  grows : ∀ k, env.grow k ≠ none

/-- The bytes up to the silent read. -/
def Collecting.reply (x : Collecting) : List UInt8 := replyOf x.env.reads

def Collecting.out (x : Collecting) : Collected :=
  collect x.env x.response x.size

/-- The buffer at the end. -/
def Collecting.buffer (x : Collecting) : Slots UInt8 :=
  contentsAfter (.array x.size x.mem) x.out.uses

/-- The bytes are in the block at `*response`, and were stored inside it. -/
structure Gathers (x : Collecting) : Prop where
  ret : x.out.ret = x.reply.length
  home : homeAfter (some x.response) x.out.uses = some x.out.response
  room : x.reply.length < x.buffer.size
  bytes : slice x.buffer.cell 0 x.reply.length = x.reply
  inside : StoresInside (some x.response) (.array x.size x.mem) x.out.uses

/-- And there is a NUL behind them, and nothing else was written to. -/
structure CollectLaw (x : Collecting) : Prop where
  gathers : Gathers x
  nul : x.buffer.cell x.reply.length = 0
  noStray : x.out.stray = []

-- ================================================================== one turn

/-- After the reads that brought `done`. -/
structure Gathering (response : Ptr) (s : Slots UInt8) (done : List UInt8)
    (v : CollectVars) : Prop where
  tot : v.tot = done.length
  room : v.tot < v.size
  home : homeAfter (some response) v.uses = some v.pbuf
  size : (contentsAfter s v.uses).size = v.size
  bytes : slice (contentsAfter s v.uses).cell 0 done.length = done
  inside : StoresInside (some response) s v.uses

section

variable {response : Ptr} {s : Slots UInt8} {done : List UInt8}
  {v : CollectVars} (h : Gathering response s done v)

include h

/-- There is room for the bytes. -/
theorem Gathering.store {data : List UInt8}
    (hfit : v.tot + data.length < v.size) :
    Gathering response s (done ++ data) (Gsm.store data v) := by
  refine ⟨?_, hfit, ?_, ?_, ?_, ?_⟩
  · show v.tot + data.length = _
    rw [h.tot, List.length_append]
  · exact (homeAfter_concat _ _ _).trans h.home
  · show (contentsAfter s (v.uses ++ [_])).size = v.size
    rw [contentsAfter_concat]
    exact (Slots.writeAll_size ..).trans h.size
  · show slice (contentsAfter s (v.uses ++ [_])).cell 0 _ = _
    rw [contentsAfter_concat, List.length_append]
    exact Slots.slice_writeAll_append h.bytes
      (h.tot.trans (Nat.zero_add _).symm) data
  · refine storesInside_concat.mpr ⟨h.inside, h.home, ?_⟩
    rw [h.size]
    exact hfit.le

/-- The block has grown, and has moved. -/
theorem Gathering.grown (a : Nat) :
    Gathering response s done { v with
      grown := v.grown + 1
      uses := v.uses ++ [.realloc v.pbuf (v.size + 512) (some a)]
      size := v.size + 512
      pbuf := .block a } := by
  refine ⟨h.tot, Nat.lt_add_right 512 h.room, homeAfter_concat _ _ _, ?_,
    ?_, storesInside_concat.mpr ⟨h.inside, trivial⟩⟩
  · show (contentsAfter s (v.uses ++ [_])).size = _
    rw [contentsAfter_concat]
    rfl
  · show slice (contentsAfter s (v.uses ++ [_])).cell 0 _ = _
    rw [contentsAfter_concat]
    exact h.bytes

end

-- ================================================================== the loop

/-- The loop collects the whole reply. -/
theorem gathering_loop {grow : Nat → Option Nat}
    (hgrow : ∀ k, grow k ≠ none) {reads : List (List UInt8)}
    (hshort : ∀ data ∈ reads, data.length ≤ 256) {response : Ptr}
    {s : Slots UInt8} {done : List UInt8} {v : CollectVars}
    (h : Gathering response s done v) :
    (collectLoop grow reads v).2 = true ∧
      Gathering response s (done ++ replyOf reads)
        (collectLoop grow reads v).1 := by
  induction reads generalizing done v with
  | nil => exact ⟨rfl, by rwa [replyOf, List.append_nil]⟩
  | cons data rest ih =>
      have hdata := hshort data List.mem_cons_self
      have hrest : ∀ d ∈ rest, d.length ≤ 256 :=
        fun d hd => hshort d (List.mem_cons_of_mem _ hd)
      unfold collectLoop replyOf
      split
      case isTrue => exact ⟨rfl, by rwa [List.append_nil]⟩
      case isFalse =>
          rw [← List.append_assoc]
          have hres := reserve_reserved grow data.length v
          generalize reserve grow data.length v = res at hres ⊢
          cases hres with
          | room hfit => exact ih hrest (h.store hfit)
          | failed _ hnone => exact absurd hnone (hgrow v.grown)
          | @grown a _ _ =>
              refine ih hrest ((h.grown a).store ?_)
              show v.tot + data.length < v.size + 512
              have hroom := h.room
              omega

/-- Whatever the loop has stored astray stays on the record. -/
theorem collectLoop_stray (grow : Nat → Option Nat)
    (reads : List (List UInt8)) {v : CollectVars} (h : v.stray ≠ []) :
    (collectLoop grow reads v).1.stray ≠ [] := by
  induction reads generalizing v with
  | nil => exact h
  | cons data rest ih =>
      unfold collectLoop
      split
      case isTrue => exact h
      case isFalse =>
          have hres := reserve_reserved grow data.length v
          generalize reserve grow data.length v = res at hres ⊢
          cases hres with
          | room _ => exact ih (by simp [store])
          | failed _ _ => exact h
          | grown _ _ => exact ih (by simp [store])

/-- The first read that brings something already stores its terminator
astray. -/
theorem collectLoop_strays {grow : Nat → Option Nat}
    (hgrow : ∀ k, grow k ≠ none) {reads : List (List UInt8)}
    (hne : replyOf reads ≠ []) (v : CollectVars) :
    (collectLoop grow reads v).1.stray ≠ [] := by
  cases reads with
  | nil => exact absurd rfl hne
  | cons data rest =>
      unfold replyOf at hne
      unfold collectLoop
      split
      case isTrue hdata => exact absurd (if_pos hdata) hne
      case isFalse =>
          have hres := reserve_reserved grow data.length v
          generalize reserve grow data.length v = res at hres ⊢
          cases hres with
          | room _ => exact collectLoop_stray grow rest (by simp [store])
          | failed _ hnone => exact absurd hnone (hgrow v.grown)
          | grown _ _ => exact collectLoop_stray grow rest (by simp [store])

-- ================================================================== the law

/-- A short reply into fresh memory. -/
def freshBuffer : Collecting where
  env :=
    { reads := [bytes "OK"]
      grow := some
      short := by decide }
  response := .block 0
  size := 512
  mem := fun _ => 0xff
  size_pos := by decide
  grows := nofun

/-- There is no NUL, and a store to the third word from the pointer. -/
theorem collect_fails :
    ¬ CollectLaw freshBuffer ∧
      freshBuffer.buffer.cell freshBuffer.reply.length = 0xff ∧
      freshBuffer.out.stray = [2] := by
  have hcell : freshBuffer.buffer.cell freshBuffer.reply.length = 0xff := by
    decide +kernel
  refine ⟨fun hlaw => ?_, hcell, rfl⟩
  exact absurd (hcell.symm.trans hlaw.nul) (by decide)

section

variable (x : Collecting)

/-- The copy of the reply is right. -/
theorem gathers : Gathers x := by
  have hstart : Gathering x.response (.array x.size x.mem) []
      (collectStart x.response x.size) :=
    ⟨rfl, x.size_pos, rfl, rfl, rfl, trivial⟩
  have hloop := gathering_loop x.grows x.env.short hstart
  rw [List.nil_append] at hloop
  have hout : x.out = collect x.env x.response x.size := rfl
  unfold collect at hout
  generalize collectLoop x.env.grow x.env.reads _ = r at hloop hout
  obtain ⟨v, ended⟩ := r
  obtain ⟨rfl, h⟩ := hloop
  dsimp only at h hout
  have hbuffer : x.buffer
      = contentsAfter (.array x.size x.mem) v.uses := by
    unfold Collecting.buffer
    rw [hout]
  refine ⟨?_, ?_, ?_, ?_, ?_⟩
  · rw [hout]
    exact h.tot
  · rw [hout]
    exact h.home
  · rw [hbuffer, h.size]
    exact h.tot ▸ h.room
  · rw [hbuffer]
    exact h.bytes
  · rw [hout]
    exact h.inside

/-- A reply with a byte in it leads to a store astray. -/
theorem stray_of_reply (hne : x.reply ≠ []) : x.out.stray ≠ [] := by
  have hstray := collectLoop_strays x.grows hne
    (collectStart x.response x.size)
  unfold Collecting.out collect
  generalize collectLoop x.env.grow x.env.reads _ = r at hstray ⊢
  obtain ⟨v, ended⟩ := r
  cases ended <;> exact hstray

/-- Without a byte nothing is done. -/
theorem out_of_silent (h : x.reply = []) :
    x.out.uses = [] ∧ x.out.stray = [] := by
  unfold Collecting.reply at h
  unfold Collecting.out collect
  cases hreads : x.env.reads with
  | nil => exact ⟨rfl, rfl⟩
  | cons data rest =>
      rw [hreads] at h
      have hdata : data = [] := by
        by_contra hno
        unfold replyOf at h
        rw [if_neg hno] at h
        exact hno (List.append_eq_nil_iff.mp h).1
      unfold collectLoop
      rw [if_pos hdata]
      exact ⟨rfl, rfl⟩

/-- The copy is right on every input; the terminator only where there is
nothing to terminate, and the buffer begins with a NUL.

So on every reply with a byte in it the law fails, and always in the same
way: a null pointer is stored behind the caller's variable, and what ends
the text is what the memory held. -/
theorem collectLaw_iff :
    Gathers x ∧ (CollectLaw x ↔ x.reply = [] ∧ x.mem 0 = 0) := by
  refine ⟨gathers x, fun hlaw => ?_, fun ⟨hempty, hmem⟩ => ?_⟩
  · have hempty : x.reply = [] := by
      by_contra hne
      exact stray_of_reply x hne hlaw.noStray
    have hnul := hlaw.nul
    unfold Collecting.buffer at hnul
    rw [(out_of_silent x hempty).1, hempty] at hnul
    exact ⟨hempty, hnul⟩
  · obtain ⟨huses, hstray⟩ := out_of_silent x hempty
    refine ⟨gathers x, ?_, hstray⟩
    unfold Collecting.buffer
    rw [huses, hempty]
    exact hmem

end

end ShZ001.Gsm
