/-
Which indices `getSMS` finds a message for (libGSM.c 913–969, 1027–1041).

# What `getSMS` does

`messageAt` is the part of it that looks for the message: the header
behind the `idx`-th marker, and two line ends behind that. The rest of
`getSMS` cannot fail (`getSMS_eq`). That a header has been found can be
told from outside, whether or not the message is read: `*msg` is cleared
behind the search for the marker and not before (`getSMS_clears`).

# Why counting agrees with fetching

The markers that are found are those that are counted
(`findSMSLoop_behind`), and the text behind a later one is a part of the
text behind an earlier one. So it has no more line ends, and a message
that cannot be parsed is followed by none that can (`messageAt_of_le`).
That is why `smsRead` may store by place and count successes
(`parseAt_iff_lt`, `touched_fill`).
-/
import ShZ001.Sms.Listing
import ShZ001.Sms.Proofs.Recover

namespace ShZ001.Sms

open Lib

-- ============================================================== the message

/-- The text behind the `idx`-th marker. -/
def headerAt (rbuffer : List UInt8) (idx : Nat) : Option (List UInt8) :=
  let (header, nmsg) := findSMSLoop idx (rbuffer.length + 1) rbuffer 0
  if nmsg = idx then header else none

/-- The header line and the body there: two lines, each with its end. -/
def messageAt (rbuffer : List UInt8) (idx : Nat) :
    Option (List UInt8 × List UInt8) := do
  let msgidx ← headerAt rbuffer idx
  let pend ← strstr crlfStr msgidx
  let pend' ← strstr crlfStr (pend.drop 2)
  return (msgidx.take (msgidx.length - pend.length),
    (pend.drop 2).take ((pend.drop 2).length - pend'.length))

/-- What is in `*msg` when no message is found: it is cleared once the
marker has been. -/
def noMessage (rbuffer : List UInt8) (idx : Nat) : Option SmsMsg :=
  if (findSMSLoop idx (rbuffer.length + 1) rbuffer 0).2 = idx then
    some .zero
  else none

/-- Behind the search `getSMS` cannot fail, and only the times may depend
on the locals. -/
theorem getSMS_eq (rbuffer : List UInt8) (idx : Nat) (locals : ScanLocals) :
    getSMS rbuffer idx locals =
      match messageAt rbuffer idx with
      | none => (0, noMessage rbuffer idx)
      | some (hdr, body) => (idx, some (setTime locals (parsed hdr body))) := by
  unfold getSMS messageAt headerAt noMessage
  generalize findSMSLoop idx (rbuffer.length + 1) rbuffer 0 = r
  obtain ⟨header, nmsg⟩ := r
  dsimp only
  by_cases hn : nmsg = idx
  · subst hn
    rw [if_neg (not_not.mpr rfl), if_pos rfl, if_pos rfl]
    cases header with
    | none => rfl
    | some msgidx =>
        dsimp only [Option.bind_eq_bind, Option.bind_some]
        cases strstr crlfStr msgidx with
        | none => rfl
        | some pend =>
            dsimp only [Option.bind_some]
            cases strstr crlfStr (pend.drop 2) with
            | none => rfl
            | some pend' => rfl
  · rw [if_pos hn, if_neg hn, if_neg hn]
    rfl

section

variable {rbuffer : List UInt8} {idx : Nat}

/-- A message that is found is parsed. -/
theorem getSMS_of_some {hdr body : List UInt8}
    (h : messageAt rbuffer idx = some (hdr, body)) (locals : ScanLocals) :
    getSMS rbuffer idx locals
      = (idx, some (setTime locals (parsed hdr body))) := by
  rw [getSMS_eq, h]

theorem getSMS_of_none (h : messageAt rbuffer idx = none)
    (locals : ScanLocals) :
    getSMS rbuffer idx locals = (0, noMessage rbuffer idx) := by
  rw [getSMS_eq, h]

end

-- =============================================================== the markers

/-- The text behind the `k`-th marker of a text. -/
def behind : Nat → List UInt8 → Option (List UInt8)
  | 0, t => some t
  | k + 1, t => (strstr cmglStr t).bind fun r => behind k (r.drop 7)

/-- The search stops behind the marker it is to find, if there is one. -/
theorem findSMSLoop_behind {fuel : Nat} {t : List UInt8}
    (h : t.length < fuel) (n k : Nat) :
    findSMSLoop (n + k + 1) fuel t n =
      match behind (k + 1) t with
      | some s => (some s, n + k + 1)
      | none => (none, n + occurs cmglStr t) := by
  induction fuel generalizing t n k with
  | zero => exact absurd h (Nat.not_lt_zero _)
  | succ fuel ih =>
      unfold findSMSLoop behind
      cases hr : strstr cmglStr t with
      | none =>
          rw [occurs_none (by decide) hr]
          rfl
      | some r =>
          obtain ⟨s, -, hdrop, hlt, hocc⟩ := exists_marker hr
          dsimp only [Option.bind_some]
          rw [hdrop, hocc]
          cases k with
          | zero => rw [if_pos rfl, behind]
          | succ k =>
              have hnext := ih (t := s) (by omega) (n + 1) k
              rw [show n + 1 + k + 1 = n + (k + 1) + 1 by omega,
                show n + 1 + occurs cmglStr s
                  = n + (occurs cmglStr s + 1) by omega] at hnext
              rw [if_neg (by omega), hnext]

/-- There is a `k`-th marker exactly if there are `k`. -/
theorem behind_isSome {k : Nat} {t : List UInt8} :
    (behind k t).isSome ↔ k ≤ occurs cmglStr t := by
  induction k generalizing t with
  | zero => exact iff_of_true rfl (Nat.zero_le _)
  | succ k ih =>
      unfold behind
      cases hr : strstr cmglStr t with
      | none =>
          rw [occurs_none (by decide) hr]
          exact iff_of_false (by simp) (by omega)
      | some r =>
          obtain ⟨s, -, hdrop, -, hocc⟩ := exists_marker hr
          rw [Option.bind_some, hdrop, ih, hocc]
          omega

/-- The search in `getSMS`: the marker it is asked for, or fewer than that
in all. -/
theorem findSMSLoop_count (rbuffer : List UInt8) (k : Nat) :
    (∃ s, behind (k + 1) rbuffer = some s ∧
      findSMSLoop (k + 1) (rbuffer.length + 1) rbuffer 0
        = (some s, k + 1)) ∨
    behind (k + 1) rbuffer = none ∧
      findSMSLoop (k + 1) (rbuffer.length + 1) rbuffer 0
        = (none, occurs cmglStr rbuffer) ∧
      occurs cmglStr rbuffer < k + 1 := by
  have hfind := findSMSLoop_behind (Nat.lt_succ_self rbuffer.length) 0 k
  rw [Nat.zero_add, Nat.zero_add] at hfind
  cases hs : behind (k + 1) rbuffer with
  | some s =>
      rw [hs] at hfind
      exact .inl ⟨s, rfl, hfind⟩
  | none =>
      rw [hs] at hfind
      refine .inr ⟨rfl, hfind, Nat.lt_of_not_le fun hle => ?_⟩
      have := behind_isSome.mpr hle
      rw [hs] at this
      cases this

theorem headerAt_succ (rbuffer : List UInt8) (k : Nat) :
    headerAt rbuffer (k + 1) = behind (k + 1) rbuffer := by
  unfold headerAt
  rcases findSMSLoop_count rbuffer k with ⟨s, hs, hfind⟩ | ⟨hs, hfind, hlt⟩
  · rw [hfind, hs]
    exact if_pos rfl
  · rw [hfind, hs]
    exact if_neg hlt.ne

/-- `*msg` is written exactly if the marker is found, whatever becomes of
the message behind it. -/
theorem getSMS_clears (rbuffer : List UInt8) (k : Nat)
    (locals : ScanLocals) :
    (getSMS rbuffer (k + 1) locals).2.isSome
      ↔ (headerAt rbuffer (k + 1)).isSome := by
  rw [headerAt_succ]
  cases hmsg : messageAt rbuffer (k + 1) with
  | none =>
      rw [getSMS_of_none hmsg]
      unfold noMessage
      rcases findSMSLoop_count rbuffer k with
        ⟨s, hs, hfind⟩ | ⟨hs, hfind, hlt⟩
      · rw [hfind, hs, if_pos rfl]
        exact iff_of_true rfl rfl
      · rw [hfind, hs, if_neg hlt.ne]
        exact Iff.rfl
  | some m =>
      obtain ⟨hdr, body⟩ := m
      rw [getSMS_of_some hmsg]
      refine iff_of_true rfl ?_
      unfold messageAt at hmsg
      obtain ⟨msgidx, hheader, -⟩ := Option.bind_eq_some_iff.mp hmsg
      rw [← headerAt_succ, hheader]
      rfl

/-- Behind a marker is less of the text than behind an earlier one. -/
theorem behind_suffix {j k : Nat} {t s s' : List UInt8}
    (h : behind j t = some s) (h' : behind (j + k) t = some s') :
    s' <:+ s := by
  have hsuffix : ∀ {k : Nat} {t s : List UInt8}, behind k t = some s →
      s <:+ t := by
    intro k
    induction k with
    | zero =>
        intro t s h
        cases h
        exact List.suffix_refl _
    | succ k ih =>
        intro t s h
        obtain ⟨r, hr, hs⟩ := Option.bind_eq_some_iff.mp h
        exact (ih hs).trans ((List.drop_suffix 7 r).trans (strstr_suffix hr))
  induction j generalizing t with
  | zero =>
      cases h
      rw [Nat.zero_add] at h'
      exact hsuffix h'
  | succ j ih =>
      rw [Nat.succ_add] at h'
      obtain ⟨r, hr, hs⟩ := Option.bind_eq_some_iff.mp h
      obtain ⟨r', hr', hs'⟩ := Option.bind_eq_some_iff.mp h'
      obtain rfl : r = r' := Option.some.inj (hr.symm.trans hr')
      exact ih hs hs'

-- ============================================================= the line ends

/-- Two line ends make a message. -/
theorem messageAt_isSome {rbuffer : List UInt8} {idx : Nat} :
    (messageAt rbuffer idx).isSome ↔
      ∃ s, headerAt rbuffer idx = some s ∧ 2 ≤ occurs crlfStr s := by
  have hself : ∀ t, occurs crlfStr (crlfStr ++ t) = occurs crlfStr t + 1 :=
    fun t => occurs_self (c := 13) (by decide) t
  unfold messageAt
  cases headerAt rbuffer idx with
  | none => simp
  | some s =>
      rw [Option.bind_eq_bind, Option.bind_some]
      cases hpend : strstr crlfStr s with
      | none => simp [occurs_none (by decide) hpend]
      | some pend =>
          obtain ⟨rest, rfl⟩ := strstr_begins hpend
          have hocc : occurs crlfStr s = occurs crlfStr rest + 1 := by
            rw [occurs_strstr hpend, hself]
          have hdrop : (crlfStr ++ rest).drop 2 = rest := rfl
          rw [Option.bind_some, hdrop]
          cases hpend' : strstr crlfStr rest with
          | none => simp [hocc, occurs_none (by decide) hpend']
          | some pend' =>
              obtain ⟨rest', rfl⟩ := strstr_begins hpend'
              have hocc' : occurs crlfStr rest = occurs crlfStr rest' + 1 := by
                rw [occurs_strstr hpend', hself]
              simp [hocc, hocc']

/-- Before a message that is found all are. -/
theorem messageAt_of_le {rbuffer : List UInt8} {i j : Nat} (hi : 0 < i)
    (hij : i ≤ j) (hj : (messageAt rbuffer j).isSome) :
    (messageAt rbuffer i).isSome := by
  obtain ⟨i, rfl⟩ := Nat.exists_eq_succ_of_ne_zero hi.ne'
  obtain ⟨k, rfl⟩ := Nat.exists_eq_add_of_le hij
  obtain ⟨s', hs', htwo⟩ := messageAt_isSome.mp hj
  rw [Nat.succ_add, headerAt_succ] at hs'
  have hsome : (behind (i + 1) rbuffer).isSome := by
    have hle := behind_isSome.mp (Option.isSome_of_mem hs')
    exact behind_isSome.mpr (by omega)
  obtain ⟨s, hs⟩ := Option.isSome_iff_exists.mp hsome
  have hsuffix : s' <:+ s :=
    behind_suffix hs (k := k) (by rw [Nat.succ_add]; exact hs')
  refine messageAt_isSome.mpr ⟨s, ?_, htwo.trans (occurs_suffix hsuffix)⟩
  rw [headerAt_succ, hs]

/-- `getSMS` fails where there is no message. -/
theorem getSMS_fails {rbuffer : List UInt8} {idx : Nat} (hidx : 0 < idx)
    (locals : ScanLocals) :
    (getSMS rbuffer idx locals).1 = 0 ↔ messageAt rbuffer idx = none := by
  cases hmsg : messageAt rbuffer idx with
  | none => simp [getSMS_of_none hmsg]
  | some m =>
      obtain ⟨hdr, body⟩ := m
      rw [getSMS_of_some hmsg]
      exact iff_of_false hidx.ne' (by simp)

-- ============================================================= the fill loop

section

variable (env : ReadEnv)

theorem parseAt_isSome {i : Nat} :
    (parseAt env i).isSome ↔ (messageAt env.rbuffer (i + 1)).isSome := by
  unfold parseAt
  cases hmsg : messageAt env.rbuffer (i + 1) with
  | none => simp [getSMS_of_none hmsg]
  | some m =>
      obtain ⟨hdr, body⟩ := m
      simp [getSMS_of_some hmsg]

/-- The parsed messages are the first ones. -/
theorem parseAt_iff_lt {n i : Nat} (hi : i < n) :
    (parseAt env i).isSome ↔ i < (parsedTo env n).length := by
  have hclosed : ∀ {i j : Nat}, i ≤ j → (parseAt env j).isSome →
      (parseAt env i).isSome := by
    intro i j hij hj
    rw [parseAt_isSome] at hj ⊢
    exact messageAt_of_le (Nat.succ_pos i) (Nat.succ_le_succ hij) hj
  induction n generalizing i with
  | zero => exact absurd hi (Nat.not_lt_zero i)
  | succ n ih =>
      have hle := parsedTo_length_le env n
      rw [parsedTo_succ, List.length_append]
      cases hn : parseAt env n with
      | none =>
          rw [Option.toList_none, List.length_nil, Nat.add_zero]
          rcases Nat.lt_succ_iff_lt_or_eq.mp hi with hlt | rfl
          · exact ih hlt
          · rw [hn]
            exact iff_of_false (by simp) (by omega)
      | some msg =>
          have hall : (parsedTo env n).length = n := by
            by_contra hne
            have hlt : (parsedTo env n).length < n := by omega
            have hearlier := hclosed hlt.le (by rw [hn]; rfl)
            exact lt_irrefl _ ((ih hlt).mp hearlier)
          rw [Option.toList_some, List.length_singleton, hall]
          exact iff_of_true
            (hclosed (Nat.le_of_lt_succ hi) (by rw [hn]; rfl)) hi

/-- Slots are only written for parsed messages, and for all of them. -/
theorem touched_fill {messages : Slots SmsMsg} (n p : Nat) :
    p ∈ (fill env messages n).messages.touched ↔
      p ∈ messages.touched ∨ IsFilled env n p := by
  refine ⟨(filled_fill env messages n).touched p, fun h => ?_⟩
  induction n with
  | zero =>
      rcases h with h | ⟨i, hi, -⟩
      · exact h
      · exact absurd hi (Nat.not_lt_zero i)
  | succ n ih =>
      rw [fill_succ]
      rcases fillStep_cases env (fill env messages n) n with
        ⟨msg, -, heq⟩ | ⟨hnone, hms, -⟩
      · rw [heq, Slots.mem_touched_write]
        rcases h with h | ⟨i, hi, hsome, rfl⟩
        · exact .inr (ih (.inl h))
        · rcases Nat.lt_succ_iff_lt_or_eq.mp hi with hlt | rfl
          · exact .inr (ih (.inr ⟨i, hlt, hsome, rfl⟩))
          · exact .inl rfl
      · rw [hms]
        rcases h with h | ⟨i, hi, hsome, rfl⟩
        · exact ih (.inl h)
        · rcases Nat.lt_succ_iff_lt_or_eq.mp hi with hlt | rfl
          · exact ih (.inr ⟨i, hlt, hsome, rfl⟩)
          · rw [hnone] at hsome
            cases hsome

/-- A slot holds the message that `getSMS` has parsed. -/
theorem getSMS_slot {messages : Slots SmsMsg} {n i : Nat} (hi : i < n)
    (h : (parseAt env i).isSome) :
    getSMS env.rbuffer (i + 1) (env.locals i)
      = (i + 1, some ((fill env messages n).messages.cell (slot i))) := by
  obtain ⟨msg, hmsg⟩ := Option.isSome_iff_exists.mp h
  have hheld := (filled_fill env messages n).held i msg hi hmsg
  obtain ⟨⟨hdr, body⟩, hm⟩ := Option.isSome_iff_exists.mp
    ((parseAt_isSome env).mp h)
  have hget := getSMS_of_some hm (env.locals i)
  unfold parseAt at hmsg
  rw [hget] at hmsg
  rw [hget, hheld]
  exact congrArg (Prod.mk (i + 1)) hmsg

end

-- ================================================================== the law

/-- What counting the messages of a reply and fetching them have to do with
each other: `getSMS` finds the header of the counted indices (it clears
`*msg`) and of no others, no message is fetched behind one that cannot be,
and the fill loop writes the first slots, each with its message, as many as
it counts. -/
structure FetchLaw (rbuffer : List UInt8) : Prop where
  found : ∀ idx locals, 0 < idx →
    ((getSMS rbuffer idx locals).2.isSome ↔ idx ≤ numSMS rbuffer)
  fails : ∀ i j locals locals', 0 < i → i ≤ j →
    (getSMS rbuffer i locals).1 = 0 → (getSMS rbuffer j locals').1 = 0
  slots : ∀ env : ReadEnv, env.rbuffer = rbuffer →
    let v := fill env (.calloc (numSMS rbuffer) .zero env.pastMessages)
      (numSMS rbuffer)
    (∀ p, p ∈ v.messages.touched ↔ ∃ i, i < v.nmsg ∧ p = slot i) ∧
      ∀ i, i < v.nmsg → getSMS rbuffer (i + 1) (env.locals i)
        = (i + 1, some (v.messages.cell (slot i)))

/-- Counting and fetching agree on every reply.

Both look for the markers with the same search. What may be missing behind
a marker is the line end of the header or of the body, and where one is
missing it is missing behind all later markers too. -/
theorem fetchLaw (rbuffer : List UInt8) : FetchLaw rbuffer where
  found := by
    intro idx locals hidx
    obtain ⟨k, rfl⟩ := Nat.exists_eq_succ_of_ne_zero hidx.ne'
    rw [getSMS_clears, headerAt_succ, behind_isSome, numSMS_eq]
  fails := by
    intro i j locals locals' hi hij h
    rw [getSMS_fails hi] at h
    rw [getSMS_fails (lt_of_lt_of_le hi hij)]
    cases hj : messageAt rbuffer j with
    | none => rfl
    | some m =>
        have hearlier := messageAt_of_le hi hij (Option.isSome_of_mem hj)
        rw [h] at hearlier
        cases hearlier
  slots := by
    intro env henv
    subst henv
    dsimp only
    have hfilled := filled_fill env
      (.calloc (numSMS env.rbuffer) .zero env.pastMessages)
      (numSMS env.rbuffer)
    have hle := parsedTo_length_le env (numSMS env.rbuffer)
    rw [hfilled.nmsg]
    refine ⟨fun p => ?_, fun i hi => ?_⟩
    · rw [touched_fill]
      constructor
      · intro h
        rcases h with h | ⟨i, hi, hsome, hp⟩
        · exact absurd h List.not_mem_nil
        · exact ⟨i, (parseAt_iff_lt env hi).mp hsome, hp⟩
      · intro h
        obtain ⟨i, hi, hp⟩ := h
        have hi' := hi.trans_le hle
        exact .inr ⟨i, hi', (parseAt_iff_lt env hi').mpr hi, hp⟩
    · have hi' := hi.trans_le hle
      exact getSMS_slot env hi' ((parseAt_iff_lt env hi').mpr hi)

end ShZ001.Sms
