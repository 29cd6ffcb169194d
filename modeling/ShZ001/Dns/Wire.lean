/-
DNS messages and an independent decoder for them: a header, then
questions, then resource records, each behind a name of labels.

# The decoder

It shares nothing with the responder's own reading of a packet, so that
what the responder sends can be judged by it. Compressed names are not
accepted, nor is anything left over behind the last record: a message is
decoded whole or not at all.

# Decoding what was encoded

The `decode…_encode` lemmas have one shape: decoding what was encoded,
with any bytes behind it, gives it back and leaves those bytes. So they
compose in the order of the message, and `decodeMessage_encode` is their
composition with nothing left.

# Queries

A `Query` is what a resolver sends; its fields carry what makes it well
formed (labels of 1 to 63 bytes, numbers that fit their places, the
truncation bit clear), so there is no ill-formed one to exclude later.
-/
import Mathlib.Data.List.Forall2
import ShZ001.Lib.Bytes

namespace ShZ001.Dns

open Lib

-- ================================================================ messages

structure DnsQuestion where
  name : List (List UInt8)
  type : Nat
  class_ : Nat
  deriving DecidableEq, Repr

structure DnsRecord where
  name : List (List UInt8)
  type : Nat
  class_ : Nat
  ttl : List UInt8
  rdlength : Nat
  rdata : List UInt8
  deriving DecidableEq, Repr

structure DnsMessage where
  id : Nat
  flags : UInt8
  rcode : UInt8
  questions : List DnsQuestion
  answers : List DnsRecord
  authority : List DnsRecord
  additional : List DnsRecord
  deriving DecidableEq, Repr

-- ================================================================= decoding

/-- A number in network order. -/
def decode16 : List UInt8 → Option (Nat × List UInt8)
  | a :: b :: rest => some (a.toNat * 256 + b.toNat, rest)
  | _ => none

def decodeByte : List UInt8 → Option (UInt8 × List UInt8)
  | b :: rest => some (b, rest)
  | [] => none

/-- `n` bytes as they are. -/
def decodeBytes (n : Nat) (bs : List UInt8) :
    Option (List UInt8 × List UInt8) :=
  if n ≤ bs.length then some (bs.take n, bs.drop n) else none

/-- Labels up to the empty one, at most `fuel` of them. -/
def decodeName : Nat → List UInt8 → Option (List (List UInt8) × List UInt8)
  | 0, _ => none
  | _ + 1, [] => none
  | fuel + 1, b :: rest =>
      if b = 0 then some ([], rest)
      else if b.toNat ≤ 63 then do
        let (label, rest) ← decodeBytes b.toNat rest
        let (labels, rest) ← decodeName fuel rest
        return (label :: labels, rest)
      else none

def decodeQuestion (bs : List UInt8) :
    Option (DnsQuestion × List UInt8) := do
  let (name, bs) ← decodeName bs.length bs
  let (type, bs) ← decode16 bs
  let (class_, bs) ← decode16 bs
  return (⟨name, type, class_⟩, bs)

def decodeRecord (bs : List UInt8) : Option (DnsRecord × List UInt8) := do
  let (name, bs) ← decodeName bs.length bs
  let (type, bs) ← decode16 bs
  let (class_, bs) ← decode16 bs
  let (ttl, bs) ← decodeBytes 4 bs
  let (rdlength, bs) ← decode16 bs
  let (rdata, bs) ← decodeBytes rdlength bs
  return (⟨name, type, class_, ttl, rdlength, rdata⟩, bs)

/-- `n` items, one behind the other. -/
def decodeMany {α : Type} (item : List UInt8 → Option (α × List UInt8)) :
    Nat → List UInt8 → Option (List α × List UInt8)
  | 0, bs => some ([], bs)
  | n + 1, bs => do
      let (x, bs) ← item bs
      let (xs, bs) ← decodeMany item n bs
      return (x :: xs, bs)

/-- A whole message. -/
def decodeMessage (bs : List UInt8) : Option DnsMessage := do
  let (id, bs) ← decode16 bs
  let (flags, bs) ← decodeByte bs
  let (rcode, bs) ← decodeByte bs
  let (qd, bs) ← decode16 bs
  let (an, bs) ← decode16 bs
  let (ns, bs) ← decode16 bs
  let (ar, bs) ← decode16 bs
  let (questions, bs) ← decodeMany decodeQuestion qd bs
  let (answers, bs) ← decodeMany decodeRecord an bs
  let (authority, bs) ← decodeMany decodeRecord ns bs
  let (additional, bs) ← decodeMany decodeRecord ar bs
  if bs = [] then
    return ⟨id, flags, rcode, questions, answers, authority, additional⟩
  else none

-- ================================================================= encoding

/-- A number in network order. -/
def encode16 (n : Nat) : List UInt8 := [(n / 256).toUInt8, n.toUInt8]

/-- A name: length and bytes of each label, then the empty one. -/
def encodeName : List (List UInt8) → List UInt8
  | [] => [0]
  | l :: ls => l.length.toUInt8 :: l ++ encodeName ls

@[simp] theorem encode16_length (n : Nat) : (encode16 n).length = 2 := rfl

/-- A number of two bytes is read back. -/
theorem decode16_encode {n : Nat} (h : n < 65536) (rest : List UInt8) :
    decode16 (encode16 n ++ rest) = some (n, rest) := by
  simp only [encode16, decode16, List.cons_append, List.nil_append,
    Nat.toUInt8, UInt8.toNat_ofNat']
  congr 2
  omega

/-- Bytes are read back as they are. -/
theorem decodeBytes_append (l rest : List UInt8) :
    decodeBytes l.length (l ++ rest) = some (l, rest) := by
  simp [decodeBytes]

/-- Labels as they go over the wire. -/
def IsLabel (l : List UInt8) : Prop := l ≠ [] ∧ l.length ≤ 63

instance (l : List UInt8) : Decidable (IsLabel l) :=
  inferInstanceAs (Decidable (l ≠ [] ∧ l.length ≤ 63))

/-- A name is read back, label by label, if its labels have lengths a
length byte can have. -/
theorem decodeName_encode {ls : List (List UInt8)} (h : ∀ l ∈ ls, IsLabel l)
    (rest : List UInt8) {fuel : Nat} (hfuel : ls.length < fuel) :
    decodeName fuel (encodeName ls ++ rest) = some (ls, rest) := by
  induction ls generalizing fuel with
  | nil =>
      obtain ⟨fuel, rfl⟩ := Nat.exists_eq_succ_of_ne_zero (by omega : fuel ≠ 0)
      simp [encodeName, decodeName]
  | cons l ls ih =>
      obtain ⟨fuel, rfl⟩ := Nat.exists_eq_succ_of_ne_zero (by omega : fuel ≠ 0)
      obtain ⟨hne, hlen⟩ := h l List.mem_cons_self
      have hpos := List.length_pos_iff.mpr hne
      have hb : l.length.toUInt8.toNat = l.length := by
        rw [Nat.toUInt8, UInt8.toNat_ofNat']
        omega
      have hb0 : l.length.toUInt8 ≠ 0 := by
        intro h0
        rw [h0] at hb
        exact hpos.ne hb
      have hrest := ih (fun l' hl => h l' (List.mem_cons_of_mem _ hl))
        (show ls.length < fuel by simpa using hfuel)
      rw [encodeName, List.cons_append, List.cons_append, List.append_assoc,
        decodeName, if_neg hb0, hb, if_pos hlen, decodeBytes_append]
      simp [hrest]

/-- An encoded name has a byte for each label and one more, which is fuel
enough to read it. -/
theorem length_encodeName_gt (ls : List (List UInt8)) :
    ls.length < (encodeName ls).length := by
  induction ls with
  | nil => simp [encodeName]
  | cons l ls ih =>
      simp only [encodeName, List.length_cons, List.length_append]
      omega

/-- A question. -/
def DnsQuestion.encode (q : DnsQuestion) : List UInt8 :=
  encodeName q.name ++ encode16 q.type ++ encode16 q.class_

def encodeQuestions : List DnsQuestion → List UInt8
  | [] => []
  | q :: qs => q.encode ++ encodeQuestions qs

/-- A record. -/
def DnsRecord.encode (r : DnsRecord) : List UInt8 :=
  encodeName r.name ++ encode16 r.type ++ encode16 r.class_ ++ r.ttl
    ++ encode16 r.rdlength ++ r.rdata

def encodeRecords : List DnsRecord → List UInt8
  | [] => []
  | r :: rs => r.encode ++ encodeRecords rs

/-- The numbers and labels of a question fit their places. -/
structure DnsQuestion.Ok (q : DnsQuestion) : Prop where
  name : ∀ l ∈ q.name, IsLabel l
  type : q.type < 65536
  class_ : q.class_ < 65536

/-- So do those of a record, and its length is that of its data. -/
structure DnsRecord.Ok (r : DnsRecord) : Prop where
  name : ∀ l ∈ r.name, IsLabel l
  type : r.type < 65536
  class_ : r.class_ < 65536
  ttl : r.ttl.length = 4
  rdlength : r.rdlength < 65536
  rdata : r.rdata.length = r.rdlength

/-- A question is read back. -/
theorem decodeQuestion_encode {q : DnsQuestion} (h : q.Ok)
    (rest : List UInt8) :
    decodeQuestion (q.encode ++ rest) = some (q, rest) := by
  unfold decodeQuestion DnsQuestion.encode
  simp only [List.append_assoc]
  rw [decodeName_encode h.name]
  · simp [decode16_encode h.type, decode16_encode h.class_]
  · have := length_encodeName_gt q.name
    rw [List.length_append]
    omega

/-- A record is read back, its data by the length in front of it. -/
theorem decodeRecord_encode {r : DnsRecord} (h : r.Ok)
    (rest : List UInt8) :
    decodeRecord (r.encode ++ rest) = some (r, rest) := by
  have httl := decodeBytes_append r.ttl
    (encode16 r.rdlength ++ (r.rdata ++ rest))
  have hdata := decodeBytes_append r.rdata rest
  rw [h.ttl] at httl
  rw [h.rdata] at hdata
  unfold decodeRecord DnsRecord.encode
  simp only [List.append_assoc]
  rw [decodeName_encode h.name]
  · simp [decode16_encode h.type, decode16_encode h.class_, httl,
      decode16_encode h.rdlength, hdata]
  · have := length_encodeName_gt r.name
    rw [List.length_append]
    omega

/-- Questions, one behind the other. -/
theorem decodeMany_questions {qs : List DnsQuestion} (h : ∀ q ∈ qs, q.Ok)
    (rest : List UInt8) :
    decodeMany decodeQuestion qs.length (encodeQuestions qs ++ rest)
      = some (qs, rest) := by
  induction qs with
  | nil => rfl
  | cons q qs ih =>
      have hq := decodeQuestion_encode (h q List.mem_cons_self)
        (encodeQuestions qs ++ rest)
      rw [encodeQuestions, List.append_assoc, List.length_cons, decodeMany,
        hq]
      simp [ih fun q' hq' => h q' (List.mem_cons_of_mem _ hq')]

/-- And records. -/
theorem decodeMany_records {rs : List DnsRecord} (h : ∀ r ∈ rs, r.Ok)
    (rest : List UInt8) :
    decodeMany decodeRecord rs.length (encodeRecords rs ++ rest)
      = some (rs, rest) := by
  induction rs with
  | nil => rfl
  | cons r rs ih =>
      have hr := decodeRecord_encode (h r List.mem_cons_self)
        (encodeRecords rs ++ rest)
      rw [encodeRecords, List.append_assoc, List.length_cons, decodeMany,
        hr]
      simp [ih fun r' hr' => h r' (List.mem_cons_of_mem _ hr')]

/-- A message without authority and additional records. -/
def encodeMessage (id : Nat) (flags rcode : UInt8) (qs : List DnsQuestion)
    (rs : List DnsRecord) : List UInt8 :=
  encode16 id ++ [flags, rcode] ++ encode16 qs.length
    ++ encode16 rs.length ++ encode16 0 ++ encode16 0
    ++ encodeQuestions qs ++ encodeRecords rs

/-- A message is read back, and nothing is left over: the counts of its
header are the numbers of what follows. -/
theorem decodeMessage_encode {id : Nat} {flags rcode : UInt8}
    {qs : List DnsQuestion} {rs : List DnsRecord} (hid : id < 65536)
    (hqs : ∀ q ∈ qs, q.Ok) (hrs : ∀ r ∈ rs, r.Ok)
    (hqd : qs.length < 65536) (han : rs.length < 65536) :
    decodeMessage (encodeMessage id flags rcode qs rs)
      = some ⟨id, flags, rcode, qs, rs, [], []⟩ := by
  have hrecs := decodeMany_records hrs []
  rw [List.append_nil] at hrecs
  unfold decodeMessage encodeMessage
  simp only [List.append_assoc]
  rw [decode16_encode hid]
  simp [decodeByte, decode16_encode hqd, decode16_encode han,
    decode16_encode (show 0 < 65536 by decide), decodeMany_questions hqs,
    hrecs, decodeMany]

-- ================================================================= queries

/-- A name as resolvers ask for it: labels of 1 to 63 bytes, at least
one, without dots and NULs. -/
structure QueryName where
  labels : List (List UInt8)
  ne_nil : labels ≠ []
  isLabel : ∀ l ∈ labels, IsLabel l
  plain : ∀ l ∈ labels, ∀ b ∈ l, b ≠ 0x2e ∧ b ≠ 0

structure QueryQuestion where
  name : QueryName
  type : Nat
  class_ : Nat
  type_lt : type < 65536
  class_lt : class_ < 65536

/-- The question as a decoder sees it. -/
def QueryQuestion.wire (q : QueryQuestion) : DnsQuestion where
  name := q.name.labels
  type := q.type
  class_ := q.class_

theorem QueryQuestion.wire_ok (q : QueryQuestion) : q.wire.Ok :=
  ⟨q.name.isLabel, q.type_lt, q.class_lt⟩

/-- A query; the bit of its flags that would mark it as truncated is
clear. -/
structure Query where
  id : Nat
  flags : UInt8
  rcode : UInt8
  questions : List QueryQuestion
  id_lt : id < 65536
  count_lt : questions.length < 65536
  whole : flags &&& 0x02 = 0

/-- The datagram it is sent in. -/
def Query.encode (q : Query) : List UInt8 :=
  encodeMessage q.id q.flags q.rcode (q.questions.map QueryQuestion.wire) []

end ShZ001.Dns
