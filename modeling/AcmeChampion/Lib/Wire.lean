import AcmeChampion.Lib.Bytes
import Mathlib.Data.List.Basic
import Mathlib.Tactic.SplitIfs

/-!
# The RFC 1035 message format

Names, questions, resource records and messages, with the octets they are written as and a decoder
that follows compression pointers (RFC 1035, 4.1.4).  A `Name` carries its bounds: labels of 1 to 63
octets, 255 octets in all.  `Yields p a bs` says that the parser `p` reads `a` from `bs` wherever
they stand in a message; it is closed under sequencing and repetition, and `decode_octets` is
assembled from it.  The octets of labels, of whatever length below 256, determine the labels
(`nameOctets_append_inj`).
-/

namespace Wire

open Bytes

/-! ## Names -/

abbrev Label := List UInt8

/-- Labels as written, each behind its length octet. -/
def labelOctets : List Label → List UInt8
  | [] => []
  | l :: ls => UInt8.ofNat l.length :: l ++ labelOctets ls

theorem lengthOctet_ne_zero {l : Label} (hpos : 0 < l.length) (hlt : l.length < 256) :
    UInt8.ofNat l.length ≠ 0 := by
  intro h0
  have hn := UInt8.toNat_ofNat_of_lt' (show l.length < UInt8.size from hlt)
  rw [h0] at hn
  exact hpos.ne hn

/-- A name as written: its labels and the zero octet of the root. -/
def nameOctets (ls : List Label) : List UInt8 := labelOctets ls ++ [0]

@[simp] theorem labelOctets_nil : labelOctets [] = [] := rfl

@[simp] theorem labelOctets_cons (l : Label) (ls : List Label) :
    labelOctets (l :: ls) = UInt8.ofNat l.length :: (l ++ labelOctets ls) := rfl

theorem labelOctets_append (ls ls' : List Label) :
    labelOctets (ls ++ ls') = labelOctets ls ++ labelOctets ls' := by
  induction ls with
  | nil => rfl
  | cons l ls ih => simp [ih]

theorem nameOctets_cons (l : Label) (ls : List Label) :
    nameOctets (l :: ls) = UInt8.ofNat l.length :: (l ++ nameOctets ls) := by
  simp [nameOctets]

/-- Labels that a name may have (RFC 1035, 2.3.4). -/
structure ValidLabels (ls : List Label) : Prop where
  pos : ∀ l ∈ ls, 0 < l.length
  le_63 : ∀ l ∈ ls, l.length ≤ 63
  le_255 : (nameOctets ls).length ≤ 255

instance (ls : List Label) : Decidable (ValidLabels ls) :=
  decidable_of_iff ((∀ l ∈ ls, 0 < l.length) ∧ (∀ l ∈ ls, l.length ≤ 63) ∧
    (nameOctets ls).length ≤ 255)
    ⟨fun h => ⟨h.1, h.2.1, h.2.2⟩, fun h => ⟨h.pos, h.le_63, h.le_255⟩⟩

theorem ValidLabels.tail {l : Label} {ls : List Label} (h : ValidLabels (l :: ls)) :
    ValidLabels ls := by
  refine ⟨fun k hk => h.pos k (by simp [hk]), fun k hk => h.le_63 k (by simp [hk]), ?_⟩
  have := h.le_255
  simp only [nameOctets_cons, List.length_cons, List.length_append] at this
  omega

theorem ValidLabels.length_lt {ls : List Label} (h : ValidLabels ls) :
    ∀ l ∈ ls, 0 < l.length ∧ l.length < 64 :=
  fun l hl => ⟨h.pos l hl, Nat.lt_succ_of_le (h.le_63 l hl)⟩

theorem ValidLabels.ne_nil {ls : List Label} (h : ValidLabels ls) : ∀ l ∈ ls, l ≠ [] :=
  fun l hl => List.length_pos_iff.1 (h.pos l hl)

structure Name where
  labels : List Label
  valid : ValidLabels labels
  deriving DecidableEq

def Name.octets (n : Name) : List UInt8 := nameOctets n.labels

/-- The name without its first label; the root is its own parent. -/
def Name.parent : Name → Name
  | ⟨[], h⟩ => ⟨[], h⟩
  | ⟨_ :: ls, h⟩ => ⟨ls, h.tail⟩

@[simp] theorem Name.labels_parent (n : Name) : n.parent.labels = n.labels.tail := by
  obtain ⟨_ | ⟨l, ls⟩, h⟩ := n <;> rfl

/-- The octets of nonempty labels of fewer than 256 octets determine them, whatever follows. -/
theorem nameOctets_append_inj : ∀ {ls ls' : List Label} {t t' : List UInt8},
    (∀ l ∈ ls, 0 < l.length ∧ l.length < 256) → (∀ l ∈ ls', 0 < l.length ∧ l.length < 256) →
      nameOctets ls ++ t = nameOctets ls' ++ t' → ls = ls' ∧ t = t'
  | [], [], t, t', _, _, h => by simpa [nameOctets] using h
  | [], l' :: ls', t, t', _, hls', h => by
    have hl := hls' l' (by simp)
    simp only [nameOctets, labelOctets_nil, labelOctets_cons, List.nil_append, List.cons_append,
      List.cons.injEq] at h
    exact absurd h.1.symm (lengthOctet_ne_zero hl.1 hl.2)
  | l :: ls, [], t, t', hls, _, h => by
    have hl := hls l (by simp)
    simp only [nameOctets, labelOctets_nil, labelOctets_cons, List.nil_append, List.cons_append,
      List.cons.injEq] at h
    exact absurd h.1 (lengthOctet_ne_zero hl.1 hl.2)
  | l :: ls, l' :: ls', t, t', hls, hls', h => by
    have hl := hls l (by simp)
    have hl' := hls' l' (by simp)
    simp only [nameOctets_cons, List.cons_append, List.cons.injEq, ← UInt8.toNat_inj,
      UInt8.toNat_ofNat', List.append_assoc] at h
    have hlen : l.length = l'.length := by omega
    have hl := List.append_inj h.2 hlen
    have ih := @nameOctets_append_inj ls ls' t t' (fun k hk => hls k (by simp [hk]))
      (fun k hk => hls' k (by simp [hk])) hl.2
    exact ⟨by rw [hl.1, ih.1], ih.2⟩

/-! ## Parsers -/

/-- A parser reads a value of the message at an offset, and says where the value ends. -/
def Parser (α : Type) := List UInt8 → ℕ → Option (α × ℕ)

namespace Parser

variable {α β : Type}

instance : Monad Parser where
  pure a := fun _ off => some (a, off)
  bind p f := fun msg off => (p msg off).bind fun r => f r.1 msg r.2

/-- `p` reads `a` from the octets `bs`, wherever they stand in a message. -/
def Yields (p : Parser α) (a : α) (bs : List UInt8) : Prop :=
  ∀ pre post, p (pre ++ (bs ++ post)) pre.length = some (a, pre.length + bs.length)

theorem Yields.pure (a : α) : Yields (Pure.pure a : Parser α) a [] := fun _ _ => rfl

theorem Yields.bind {p : Parser α} {f : α → Parser β} {a : α} {b : β} {bs cs : List UInt8}
    (hp : p.Yields a bs) (hf : (f a).Yields b cs) : (p >>= f).Yields b (bs ++ cs) := by
  intro pre post
  have h1 := hp pre (cs ++ post)
  have h2 := hf (pre ++ bs) post
  simp only [List.append_assoc, List.length_append] at h1 h2
  simp only [Bind.bind, List.append_assoc, List.length_append, h1, Option.bind_some, h2]
  rw [Nat.add_assoc]

def map (f : α → β) (p : Parser α) : Parser β := fun msg off =>
  (p msg off).map fun r => (f r.1, r.2)

theorem Yields.map {p : Parser α} {a : α} {bs : List UInt8} (hp : p.Yields a bs) (f : α → β) :
    (p.map f).Yields (f a) bs := by
  intro pre post
  simp [Parser.map, hp pre post]

def many (p : Parser α) : ℕ → Parser (List α)
  | 0 => return []
  | n + 1 => do
    let a ← p
    (many p n).map (a :: ·)

theorem Yields.many {p : Parser α} {enc : α → List UInt8} :
    ∀ {as : List α}, (∀ a ∈ as, p.Yields a (enc a)) →
      (p.many as.length).Yields as (as.flatMap enc)
  | [], _ => Yields.pure []
  | a :: as, h => by
    have ih := @Yields.many p enc as fun b hb => h b (by simp [hb])
    have ha := h a (by simp)
    rw [List.flatMap_cons]
    exact ha.bind (ih.map (a :: ·))

def take (n : ℕ) : Parser (List UInt8) := fun msg off =>
  if off + n ≤ msg.length then some ((msg.drop off).take n, off + n) else none

theorem yields_take (bs : List UInt8) : (take bs.length).Yields bs bs := by
  intro pre post
  simp [take, ← Nat.add_assoc]

def number (n : ℕ) : Parser ℕ := (take n).map fromBigEndian

theorem yields_number {n v : ℕ} (h : v < 256 ^ n) : (number n).Yields v (bigEndian n v) := by
  have ht := (yields_take (bigEndian n v)).map fromBigEndian
  rwa [length_bigEndian, fromBigEndian_bigEndian_of_lt h] at ht

def u16 : Parser UInt16 := (number 2).map UInt16.ofNat

def u32 : Parser UInt32 := (number 4).map UInt32.ofNat

theorem yields_u16 (v : UInt16) : u16.Yields v (bigEndian 2 v.toNat) := by
  have h := (@yields_number 2 v.toNat v.toNat_lt).map UInt16.ofNat
  rwa [UInt16.ofNat_toNat] at h

theorem yields_u32 (v : UInt32) : u32.Yields v (bigEndian 4 v.toNat) := by
  have h := (@yields_number 4 v.toNat v.toNat_lt).map UInt32.ofNat
  rwa [UInt32.ofNat_toNat] at h

/-- What `p` reads, when it ends after exactly `n` octets. -/
def exactly (n : ℕ) (p : Parser α) : Parser α := fun msg off =>
  (p msg off).filter fun r => r.2 = off + n

theorem Yields.exactly {p : Parser α} {a : α} {bs : List UInt8} (hp : p.Yields a bs) :
    (p.exactly bs.length).Yields a bs := by
  intro pre post
  simp [Parser.exactly, hp pre post]

end Parser

/-! ## Reading names -/

/-- The labels at an offset.  A pointer leads to octets before `start`, where the run of labels
that it ends began, so following pointers ends. -/
def labelsAt (msg : List UInt8) (start off : ℕ) : Option (List Label × ℕ) :=
  match msg[off]? with
  | none => none
  | some n =>
    if n = 0 then some ([], off + 1)
    else if n.toNat < 64 then
      if off + 1 + n.toNat ≤ msg.length then
        (labelsAt msg start (off + 1 + n.toNat)).map fun r =>
          ((msg.drop (off + 1)).take n.toNat :: r.1, r.2)
      else none
    else if 192 ≤ n.toNat then
      match msg[off + 1]? with
      | none => none
      | some lo =>
        if (n.toNat - 192) * 256 + lo.toNat < start then
          (labelsAt msg ((n.toNat - 192) * 256 + lo.toNat)
            ((n.toNat - 192) * 256 + lo.toNat)).map fun r => (r.1, off + 2)
        else none
    else none
termination_by start * (msg.length + 1) + (msg.length - off)
decreasing_by
  · omega
  · rename_i h
    have hmul := Nat.mul_le_mul_right (msg.length + 1) (Nat.succ_le_of_lt h)
    rw [Nat.succ_mul] at hmul
    omega

def name : Parser Name := fun msg off =>
  (labelsAt msg off off).bind fun r =>
    if h : ValidLabels r.1 then some (⟨r.1, h⟩, r.2) else none

theorem labelsAt_nameOctets (start : ℕ) : ∀ (ls : List Label) (pre post : List UInt8),
    (∀ l ∈ ls, 0 < l.length ∧ l.length ≤ 63) →
      labelsAt (pre ++ (nameOctets ls ++ post)) start pre.length
        = some (ls, pre.length + (nameOctets ls).length)
  | [], pre, post, _ => by
    unfold labelsAt
    simp [nameOctets]
  | l :: ls, pre, post, h => by
    have hl := h l (by simp)
    have ih := labelsAt_nameOctets start ls (pre ++ UInt8.ofNat l.length :: l) post
      fun k hk => h k (by simp [hk])
    have hn : (UInt8.ofNat l.length).toNat = l.length :=
      UInt8.toNat_ofNat_of_lt' (show l.length < 256 by omega)
    have hne := lengthOctet_ne_zero hl.1 (by omega)
    have hcat : pre ++ (nameOctets (l :: ls) ++ post)
        = (pre ++ UInt8.ofNat l.length :: l) ++ (nameOctets ls ++ post) := by
      simp [nameOctets_cons]
    have hlen : (pre ++ UInt8.ofNat l.length :: l).length = pre.length + 1 + l.length := by
      simp
      omega
    rw [hlen] at ih
    unfold labelsAt
    rw [hcat]
    have hget : ((pre ++ UInt8.ofNat l.length :: l) ++ (nameOctets ls ++ post))[pre.length]?
        = some (UInt8.ofNat l.length) := by simp
    have hdrop : ((pre ++ UInt8.ofNat l.length :: l) ++ (nameOctets ls ++ post)).drop
        (pre.length + 1) = l ++ (nameOctets ls ++ post) := by
      simp
    have hle : pre.length + 1 + l.length
        ≤ ((pre ++ UInt8.ofNat l.length :: l) ++ (nameOctets ls ++ post)).length := by
      rw [List.length_append, hlen]
      omega
    simp only [hget, hne, hn, hdrop, ih, if_false, Option.map_some]
    rw [if_pos (by omega), if_pos hle]
    simp only [List.take_left, nameOctets_cons, List.length_cons, List.length_append,
      Option.some.injEq, Prod.mk.injEq, true_and]
    omega

theorem yields_name (n : Name) : name.Yields n n.octets := by
  intro pre post
  have h := labelsAt_nameOctets pre.length n.labels pre post fun l hl =>
    ⟨n.valid.pos l hl, n.valid.le_63 l hl⟩
  simp only [name, Name.octets, h, Option.bind_some, n.valid, dite_true]

/-! ## What a name means -/

/-- The labels at `off` are `ls`, and the name ends before `e` (RFC 1035, 4.1.4): a pointer stands
for the rest of the name, wherever it leads, and ends it. -/
inductive Decompresses (msg : List UInt8) : ℕ → List Label → ℕ → Prop
  | root {off : ℕ} (hn : msg[off]? = some 0) : Decompresses msg off [] (off + 1)
  | label {off e : ℕ} {n : UInt8} {ls : List Label} (hn : msg[off]? = some n) (hpos : n ≠ 0)
      (h64 : n.toNat < 64) (hfit : off + 1 + n.toNat ≤ msg.length)
      (hrest : Decompresses msg (off + 1 + n.toNat) ls e) :
      Decompresses msg off ((msg.drop (off + 1)).take n.toNat :: ls) e
  | pointer {off e : ℕ} {hi lo : UInt8} {ls : List Label} (hhi : msg[off]? = some hi)
      (h192 : 192 ≤ hi.toNat) (hlo : msg[off + 1]? = some lo)
      (htarget : Decompresses msg ((hi.toNat - 192) * 256 + lo.toNat) ls e) :
      Decompresses msg off ls (off + 2)

theorem Decompresses.unique {msg : List UInt8} {off e e' : ℕ} {ls ls' : List Label}
    (h : Decompresses msg off ls e) (h' : Decompresses msg off ls' e') : ls = ls' ∧ e = e' := by
  induction h generalizing ls' e' with
  | root hn =>
    cases h' with
    | root _ => exact ⟨rfl, rfl⟩
    | label hn' hpos _ _ _ =>
      rw [hn, Option.some.injEq] at hn'
      exact absurd hn'.symm hpos
    | pointer hhi h192 _ _ =>
      rw [hn, Option.some.injEq] at hhi
      subst hhi
      simp at h192
  | label hn hpos h64 hfit _ ih =>
    cases h' with
    | root hn' =>
      rw [hn, Option.some.injEq] at hn'
      exact absurd hn' hpos
    | label hn' _ _ _ hrest' =>
      rw [hn, Option.some.injEq] at hn'
      subst hn'
      obtain ⟨rfl, rfl⟩ := ih hrest'
      exact ⟨rfl, rfl⟩
    | pointer hhi h192 _ _ =>
      rw [hn, Option.some.injEq] at hhi
      subst hhi
      omega
  | pointer hhi h192 hlo _ ih =>
    cases h' with
    | root hn' =>
      rw [hhi, Option.some.injEq] at hn'
      subst hn'
      simp at h192
    | label hn' _ h64 _ _ =>
      rw [hhi, Option.some.injEq] at hn'
      subst hn'
      omega
    | pointer hhi' _ hlo' htarget' =>
      rw [hhi, Option.some.injEq] at hhi'
      rw [hlo, Option.some.injEq] at hlo'
      subst hhi' hlo'
      exact ⟨(ih htarget').1, rfl⟩

/-- Labels as written come before the name that stands behind them. -/
theorem Decompresses.labels {msg : List UInt8} {e : ℕ} {ls' : List Label} :
    ∀ {ls : List Label} {off : ℕ} {rest : List UInt8}, (∀ l ∈ ls, 0 < l.length ∧ l.length < 64) →
      msg.drop off = labelOctets ls ++ rest → rest ≠ [] →
        Decompresses msg (off + (labelOctets ls).length) ls' e → Decompresses msg off (ls ++ ls') e
  | [], off, rest, _, _, _, h => h
  | l :: ls, off, rest, hls, hdrop, hrest, h => by
    have hl := hls l (by simp)
    have hn : (UInt8.ofNat l.length).toNat = l.length :=
      UInt8.toNat_ofNat_of_lt' (show l.length < 256 by omega)
    have hdrop' : msg.drop (off + 1) = l ++ (labelOctets ls ++ rest) := by
      rw [← List.drop_drop, hdrop]
      simp
    have hget : msg[off]? = some (UInt8.ofNat l.length) := by
      rw [← Nat.add_zero off, ← List.getElem?_drop, hdrop]
      rfl
    have hlen := congrArg List.length hdrop'
    simp only [List.length_drop, List.length_append] at hlen
    have hpos := List.length_pos_iff.2 hrest
    have hnext : msg.drop (off + 1 + l.length) = labelOctets ls ++ rest := by
      rw [← List.drop_drop, hdrop', List.drop_left]
    have hend : off + (labelOctets (l :: ls)).length
        = off + 1 + l.length + (labelOctets ls).length := by
      simp only [labelOctets_cons, List.length_cons, List.length_append]
      omega
    rw [hend] at h
    have ih := Decompresses.labels (fun k hk => hls k (by simp [hk])) hnext hrest h
    have hne := lengthOctet_ne_zero hl.1 (by omega)
    have hcons := Decompresses.label hget hne (by omega) (by omega) (hn.symm ▸ ih)
    rwa [hn, hdrop', List.take_left] at hcons

/-! ## Questions and records -/

open Wire.Parser

structure Question where
  name : Name
  qtype : UInt16
  qclass : UInt16
  deriving DecidableEq

def Question.octets (q : Question) : List UInt8 :=
  q.name.octets ++ (bigEndian 2 q.qtype.toNat ++ bigEndian 2 q.qclass.toNat)

def question : Parser Question := do
  let name ← name
  let qtype ← u16
  u16.map fun qclass => ⟨name, qtype, qclass⟩

theorem yields_question (q : Question) : question.Yields q q.octets :=
  (yields_name q.name).bind ((yields_u16 q.qtype).bind ((yields_u16 q.qclass).map _))

/-- The data of a record, by its type; the inside of TXT data is read by `charStrings`. -/
inductive Rdata
  | a (addr : BitVec 32)
  | ns (host : Name)
  | soa (mname rname : Name) (serial refresh retry expire minimum : UInt32)
  | txt (data : List UInt8)
  | aaaa (addr : BitVec 128)
  deriving DecidableEq

namespace Rdata

def rtype : Rdata → UInt16
  | a _ => 1
  | ns _ => 2
  | soa .. => 6
  | txt _ => 16
  | aaaa _ => 28

def octets : Rdata → List UInt8
  | a addr => bigEndian 4 addr.toNat
  | ns host => host.octets
  | soa mname rname serial refresh retry expire minimum =>
    mname.octets ++ (rname.octets ++ (bigEndian 4 serial.toNat ++ (bigEndian 4 refresh.toNat ++
      (bigEndian 4 retry.toNat ++ (bigEndian 4 expire.toNat ++ bigEndian 4 minimum.toNat)))))
  | txt data => data
  | aaaa addr => bigEndian 16 addr.toNat

end Rdata

def soaData : Parser Rdata := do
  let mname ← name
  let rname ← name
  let serial ← u32
  let refresh ← u32
  let retry ← u32
  let expire ← u32
  u32.map fun minimum => .soa mname rname serial refresh retry expire minimum

def rdata (rtype : UInt16) (len : ℕ) : Parser Rdata :=
  if rtype = 1 then ((number 4).map fun v => .a (BitVec.ofNat 32 v)).exactly len
  else if rtype = 2 then (name.map .ns).exactly len
  else if rtype = 6 then soaData.exactly len
  else if rtype = 16 then (take len).map .txt
  else if rtype = 28 then ((number 16).map fun v => .aaaa (BitVec.ofNat 128 v)).exactly len
  else fun _ _ => none

theorem yields_rdata (d : Rdata) : (rdata d.rtype d.octets.length).Yields d d.octets := by
  cases d with
  | a addr =>
    have h := (@yields_number 4 _ addr.isLt).map fun v => Rdata.a (BitVec.ofNat 32 v)
    rw [BitVec.ofNat_toNat, BitVec.setWidth_eq] at h
    exact h.exactly
  | ns host => exact ((yields_name host).map Rdata.ns).exactly
  | soa mname rname serial refresh retry expire minimum =>
    have h : soaData.Yields (.soa mname rname serial refresh retry expire minimum) _ :=
      (yields_name mname).bind ((yields_name rname).bind ((yields_u32 serial).bind
        ((yields_u32 refresh).bind ((yields_u32 retry).bind ((yields_u32 expire).bind
          ((yields_u32 minimum).map _))))))
    exact h.exactly
  | txt data => exact (yields_take data).map Rdata.txt
  | aaaa addr =>
    have h := (@yields_number 16 _ addr.isLt).map fun v => Rdata.aaaa (BitVec.ofNat 128 v)
    rw [BitVec.ofNat_toNat, BitVec.setWidth_eq] at h
    exact h.exactly

structure Record where
  name : Name
  rclass : UInt16
  ttl : UInt32
  data : Rdata
  deriving DecidableEq

def Record.octets (r : Record) : List UInt8 :=
  r.name.octets ++ (bigEndian 2 r.data.rtype.toNat ++ (bigEndian 2 r.rclass.toNat ++
    (bigEndian 4 r.ttl.toNat ++ (bigEndian 2 r.data.octets.length ++ r.data.octets))))

def record : Parser Record := do
  let name ← name
  let rtype ← u16
  let rclass ← u16
  let ttl ← u32
  let len ← number 2
  (rdata rtype len).map fun data => ⟨name, rclass, ttl, data⟩

theorem yields_record (r : Record) (h : r.data.octets.length < 2 ^ 16) :
    record.Yields r r.octets :=
  (yields_name r.name).bind ((yields_u16 r.data.rtype).bind ((yields_u16 r.rclass).bind
    ((yields_u32 r.ttl).bind ((yields_number h).bind ((yields_rdata r.data).map _)))))

/-! ## Messages -/

structure Message where
  id : UInt16
  flags : UInt16
  questions : List Question
  answers : List Record
  authority : List Record
  additional : List Record
  deriving DecidableEq

namespace Message

/-- The message is a response. -/
def qr (m : Message) : Bool := m.flags.toNat.testBit 15

/-- The answer is authoritative. -/
def aa (m : Message) : Bool := m.flags.toNat.testBit 10

def rcode (m : Message) : ℕ := m.flags.toNat % 16

structure Fits (m : Message) : Prop where
  questions : m.questions.length < 2 ^ 16
  answers : m.answers.length < 2 ^ 16
  authority : m.authority.length < 2 ^ 16
  additional : m.additional.length < 2 ^ 16
  data : ∀ r ∈ m.answers ++ m.authority ++ m.additional, r.data.octets.length < 2 ^ 16

def octets (m : Message) : List UInt8 :=
  bigEndian 2 m.id.toNat ++ (bigEndian 2 m.flags.toNat ++
    (bigEndian 2 m.questions.length ++ (bigEndian 2 m.answers.length ++
      (bigEndian 2 m.authority.length ++ (bigEndian 2 m.additional.length ++
        (m.questions.flatMap Question.octets ++ (m.answers.flatMap Record.octets ++
          (m.authority.flatMap Record.octets ++ m.additional.flatMap Record.octets))))))))

end Message

def message : Parser Message := do
  let id ← u16
  let flags ← u16
  let qdcount ← number 2
  let ancount ← number 2
  let nscount ← number 2
  let arcount ← number 2
  let questions ← question.many qdcount
  let answers ← record.many ancount
  let authority ← record.many nscount
  (record.many arcount).map fun additional =>
    ⟨id, flags, questions, answers, authority, additional⟩

theorem yields_message (m : Message) (h : m.Fits) : message.Yields m m.octets := by
  have hrec : ∀ rs : List Record, (∀ r ∈ rs, r ∈ m.answers ++ m.authority ++ m.additional) →
      (record.many rs.length).Yields rs (rs.flatMap Record.octets) := fun rs hrs =>
    Yields.many fun r hr => yields_record r (h.data r (hrs r hr))
  exact (yields_u16 m.id).bind ((yields_u16 m.flags).bind ((yields_number h.questions).bind
    ((yields_number h.answers).bind ((yields_number h.authority).bind
      ((yields_number h.additional).bind ((Yields.many fun q _ => yields_question q).bind
        ((hrec m.answers fun r hr => by simp [hr]).bind
          ((hrec m.authority fun r hr => by simp [hr]).bind
            ((hrec m.additional fun r hr => by simp [hr]).map _)))))))))

/-- The message the octets are, when nothing is left over. -/
def decode (bs : List UInt8) : Option Message :=
  (message bs 0).bind fun r => if r.2 = bs.length then some r.1 else none

/-- The bytes are a message, with none left over. -/
def WellFormed (bs : List UInt8) : Prop := ∃ m : Message, m.Fits ∧ m.octets = bs

theorem decode_octets (m : Message) (h : m.Fits) : decode m.octets = some m := by
  have hm := yields_message m h [] []
  simp only [List.nil_append, List.append_nil, List.length_nil, Nat.zero_add] at hm
  simp [decode, hm]

/-! ## Character strings -/

/-- Character strings as written, each behind its length octet (RFC 1035, 3.3). -/
def charStringOctets : List (List UInt8) → List UInt8
  | [] => []
  | s :: ss => UInt8.ofNat s.length :: (s ++ charStringOctets ss)

def charStrings : List UInt8 → Option (List (List UInt8))
  | [] => some []
  | n :: bs =>
    if n.toNat ≤ bs.length then (charStrings (bs.drop n.toNat)).map (bs.take n.toNat :: ·)
    else none
termination_by bs => bs.length
decreasing_by
  simp only [List.length_drop, List.length_cons]
  omega

theorem charStrings_octets : ∀ ss : List (List UInt8), (∀ s ∈ ss, s.length < 256) →
    charStrings (charStringOctets ss) = some ss
  | [], _ => by simp [charStringOctets, charStrings]
  | s :: ss, h => by
    have hs := h s (by simp)
    have hn : (UInt8.ofNat s.length).toNat = s.length :=
      UInt8.toNat_ofNat_of_lt' (show s.length < 256 by omega)
    have ih := charStrings_octets ss fun k hk => h k (by simp [hk])
    rw [charStringOctets, charStrings]
    simp [hn, ih]

/-- What reads as character strings is their octets. -/
theorem charStringOctets_of_charStrings : ∀ {bs : List UInt8} {ss : List (List UInt8)},
    charStrings bs = some ss → charStringOctets ss = bs ∧ ∀ s ∈ ss, s.length < 256 := by
  intro bs
  induction bs using charStrings.induct with
  | case1 =>
    intro ss h
    rw [charStrings, Option.some.injEq] at h
    subst h
    simp [charStringOctets]
  | case2 n bs hlen ih =>
    intro ss h
    rw [charStrings, if_pos hlen, Option.map_eq_some_iff] at h
    obtain ⟨rest, hrest, rfl⟩ := h
    obtain ⟨hoctets, hlt⟩ := ih hrest
    have hn : (bs.take n.toNat).length = n.toNat := by simp [hlen]
    have hn_lt : n.toNat < 256 := n.toNat_lt
    refine ⟨?_, List.forall_mem_cons.2 ⟨hn.trans_lt hn_lt, hlt⟩⟩
    rw [charStringOctets, hoctets, hn, UInt8.ofNat_toNat, List.take_append_drop]
  | case3 n bs hlen =>
    intro ss h
    rw [charStrings, if_neg hlen] at h
    cases h

theorem length_charStringOctets (ss : List (List UInt8)) :
    (charStringOctets ss).length = ss.flatten.length + ss.length := by
  induction ss with
  | nil => rfl
  | cons s ss ih =>
    simp only [charStringOctets, List.length_cons, List.length_append, List.flatten_cons, ih]
    omega

def Rdata.strings : Rdata → Option (List (List UInt8))
  | txt data => charStrings data
  | _ => none

end Wire
