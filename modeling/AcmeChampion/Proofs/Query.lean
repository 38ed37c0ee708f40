import AcmeChampion.Dns.Message
import AcmeChampion.Proofs.Labels

/-!
# What the question parser accepts

`Query.fromBytes` panics exactly on a question that the end of the message cuts short
(`fromBytes_error_iff`), and returns a query exactly for a complete question with an ASCII name of
at most 255 octets, which is the query of that name (`fromBytes_ok_iff`).
-/

namespace AcmeChampion

open Bytes Text Wire

/-- The parser reads a whole question after the header: the labels, the type and the class are as it
takes them, which takes a pointer for the one label that it leads to.  Where this is not what the
message says by RFC 1035 it is still what is answered and echoed. -/
def Asks (m : List UInt8) (ls : List Label) (queryType queryClass : UInt16) : Prop :=
  ∃ e e', LabelRun m QueryHeader.length ls e ∧ LabelEntry m e [] e' ∧
    u16At m e' = .ok queryType ∧ u16At m (e' + 2) = .ok queryClass

/-- The labels run into the end of the message, or leave it fewer octets than the type and the class
take. -/
def CutShort (m : List UInt8) : Prop :=
  ∃ ls e, LabelRun m QueryHeader.length ls e ∧
    (m.length ≤ e ∨ (∃ e', LabelEntry m e [] e' ∧ m.length < e' + 4) ∨ CutPointer m e)

structure Accepted (ls : List Label) : Prop where
  ascii : ∀ l ∈ ls, ∀ b ∈ l, isAscii b
  le_255 : (nameOctets ls).length ≤ 255

/-- The query is about the name that the labels make. -/
structure Query.Names (q : Query) (ls : List Label) : Prop where
  bytes : q.queryNameBytes = nameOctets ls
  key : utf8 q.queryNameString = dotted ls
  acme : q.isAcmeChallenge = Query.startsAcmeChallenge ls

/-! ## The loop that builds the name -/

theorem nameLoop_cons (l : Label) (ls : List Label) (bs : List UInt8) (s : String)
    (h : ∀ b ∈ l, isAscii b) :
    ∃ s', utf8 s' = utf8 s ++ (if utf8 s ≠ [] ∧ l ≠ [] then [46] else []) ++ l ∧
      nameLoop (l :: ls) bs s =
        if bs.length + l.length + 1 > 255 then .error .tooLong
        else nameLoop ls (bs ++ UInt8.ofNat l.length :: l) s' := by
  obtain ⟨t, ht, hutf⟩ := fromUtf8_of_ascii h
  refine ⟨(if s ≠ "" ∧ t ≠ "" then s.push '.' else s) ++ t, ?_, ?_⟩
  · have hiff : (s ≠ "" ∧ t ≠ "") ↔ (utf8 s ≠ [] ∧ l ≠ []) := by
      rw [← hutf, Ne, Ne, Ne, Ne, utf8_eq_nil, utf8_eq_nil]
    rw [utf8_append, hutf]
    by_cases hdot : utf8 s ≠ [] ∧ l ≠ []
    · rw [if_pos hdot, if_pos (hiff.2 hdot), utf8_push_ascii s (by decide)]
      rfl
    · rw [if_neg hdot, if_neg (mt hiff.1 hdot), List.append_nil]
  · simp [nameLoop, ht, List.all_eq_true.2 h]

theorem nameLoop_of_not_ascii {l : Label} (h : ¬ ∀ b ∈ l, isAscii b) (ls : List Label)
    (bs : List UInt8) (s : String) : nameLoop (l :: ls) bs s = .error .invalidNameEncoding := by
  unfold nameLoop
  rw [if_pos (by rwa [List.all_eq_true])]

/-- The name of the labels still to come behind the labels `done`. -/
theorem nameLoop_ok_iff : ∀ (ls done : List Label) (s : String), (∀ l ∈ done ++ ls, l ≠ []) →
    utf8 s = dotted done → ∀ bs' s', nameLoop (ls ++ [[]]) (labelOctets done) s = .ok (bs', s') ↔
      (∀ l ∈ ls, ∀ b ∈ l, isAscii b) ∧ (nameOctets (done ++ ls)).length ≤ 255 ∧
        bs' = nameOctets (done ++ ls) ∧ utf8 s' = dotted (done ++ ls)
  | [], done, s, _, hs, bs', s' => by
    -- the empty label of the root adds an octet and no dot
    obtain ⟨t, ht, heq⟩ := nameLoop_cons [] [] (labelOctets done) s (by simp)
    obtain rfl : t = s := utf8_inj (by simpa using ht)
    have hlen : (nameOctets done).length = (labelOctets done).length + 1 := by simp [nameOctets]
    have hinj : utf8 s' = utf8 t ↔ s' = t := ⟨utf8_inj, fun h => by rw [h]⟩
    rw [List.nil_append, heq, List.append_nil, hlen, ← hs, hinj]
    simp only [List.length_nil, Nat.add_zero, nameLoop]
    split_ifs with h255
    · simp
      omega
    · have hle : (labelOctets done).length + 1 ≤ 255 := by omega
      simp only [Except.ok.injEq, Prod.mk.injEq, List.not_mem_nil, false_implies, implies_true, hle,
        true_and]
      exact and_congr eq_comm eq_comm
  | l :: ls, done, s, hne, hs, bs', s' => by
    by_cases hascii : ∀ b ∈ l, isAscii b
    · obtain ⟨t, ht, heq⟩ := nameLoop_cons l (ls ++ [[]]) (labelOctets done) s hascii
      have hl : l ≠ [] := hne l (by simp)
      have hcat : done ++ l :: ls = done ++ [l] ++ ls := by simp
      have hkey : utf8 t = dotted (done ++ [l]) := by
        rw [ht, hs, dotted_concat]
        by_cases hd : done = []
        · simp [hd, dotted]
        · have hdne := dotted_ne_nil hd fun k hk => hne k (by simp [hk])
          simp [hd, hdne, hl]
      have ih := nameLoop_ok_iff ls (done ++ [l]) t (hcat ▸ hne) hkey bs' s'
      have hoct : labelOctets (done ++ [l]) = labelOctets done ++ UInt8.ofNat l.length :: l := by
        simp [labelOctets_append]
      rw [hoct, ← hcat] at ih
      rw [List.cons_append, heq]
      split_ifs with h255
      · simp [nameOctets, labelOctets_append]
        omega
      · rw [ih]
        simp only [List.forall_mem_cons, and_assoc]
        tauto
    · rw [List.cons_append, nameLoop_of_not_ascii hascii]
      simp [hascii]

/-- The loop accepts the labels of a question, and then makes their octets and their dotted form. -/
theorem nameLoop_root_iff {ls : List Label} (hne : ∀ l ∈ ls, l ≠ []) {bs : List UInt8}
    {s : String} :
    nameLoop (ls ++ [[]]) [] "" = .ok (bs, s) ↔
      Accepted ls ∧ bs = nameOctets ls ∧ utf8 s = dotted ls := by
  have h := nameLoop_ok_iff ls [] "" (by simpa using hne) (by simp [dotted]) bs s
  simp only [List.nil_append, labelOctets_nil] at h
  rw [h]
  constructor
  · rintro ⟨hascii, hlen, hname⟩
    exact ⟨⟨hascii, hlen⟩, hname⟩
  · rintro ⟨hacc, hname⟩
    exact ⟨hacc.ascii, hacc.le_255, hname⟩

/-! ## The question -/

theorem Asks.unique {m : List UInt8} {ls ls' : List Label} {t t' c c' : UInt16}
    (h : Asks m ls t c) (h' : Asks m ls' t' c') : ls = ls' ∧ t = t' ∧ c = c' := by
  obtain ⟨e, d, hrun, hroot, ht, hc⟩ := h
  obtain ⟨e', d', hrun', hroot', ht', hc'⟩ := h'
  have h1 := (labelLoop_of_run hrun []).trans (labelLoop_of_root hroot _)
  have h2 := (labelLoop_of_run hrun' []).trans (labelLoop_of_root hroot' _)
  have heq := h1.symm.trans h2
  simp only [List.nil_append, Except.ok.injEq, Prod.mk.injEq, List.append_cancel_right_eq] at heq
  obtain ⟨rfl, rfl⟩ := heq
  rw [ht] at ht'
  rw [hc] at hc'
  exact ⟨rfl, Except.ok.inj ht', Except.ok.inj hc'⟩

theorem Asks.ne_nil {m : List UInt8} {ls : List Label} {t c : UInt16} (h : Asks m ls t c) :
    ∀ l ∈ ls, l ≠ [] := by
  obtain ⟨e, e', hrun, -⟩ := h
  exact hrun.ne_nil

theorem Asks.length_lt {m : List UInt8} {ls : List Label} {t c : UInt16} (h : Asks m ls t c) :
    ∀ l ∈ ls, l.length < 256 := by
  obtain ⟨e, e', hrun, -⟩ := h
  exact hrun.length_lt

namespace Query

theorem startsAcmeChallenge_root (ls : List Label) :
    startsAcmeChallenge (ls ++ [[]]) = startsAcmeChallenge ls := by
  cases ls with
  | nil => decide +kernel
  | cons l ls => rfl

theorem fromBytes_of_run {m : List UInt8} {ls : List Label} {e : ℕ}
    (h : LabelRun m QueryHeader.length ls e) :
    fromBytes m QueryHeader.length = (labelLoop m ls e).bind fun
      | .error err => .ok (.error (err, 0))
      | .ok (labels, cursor) => (u16At m cursor).bind fun queryType =>
          (u16At m (cursor + 2)).bind fun queryClass =>
            match nameLoop labels [] "" with
            | .error err => .ok (.error (err, cursor + 4))
            | .ok (queryNameBytes, queryNameString) =>
              .ok (.ok (⟨queryNameBytes, queryNameString, queryType, queryClass,
                startsAcmeChallenge labels⟩, cursor + 4)) := by
  unfold fromBytes
  rw [labelLoop_of_run h, List.nil_append]
  rfl

theorem fromBytes_error_iff {m : List UInt8} :
    (∃ p, fromBytes m QueryHeader.length = .error p) ↔ CutShort m := by
  constructor
  · rintro ⟨p, h⟩
    obtain ⟨ls, e, hrun, hend⟩ := labelLoop_cases m [] QueryHeader.length
    refine ⟨ls, e, hrun, ?_⟩
    rw [fromBytes_of_run hrun] at h
    rcases hend with hlen | ⟨e', hroot⟩ | hcut | ⟨err, herr⟩
    · exact .inl hlen
    · refine .inr (.inl ⟨e', hroot, ?_⟩)
      by_contra hle
      obtain ⟨t, ht⟩ := (@u16At_ok_iff m e').2 (by omega)
      obtain ⟨c, hc⟩ := (@u16At_ok_iff m (e' + 2)).2 (by omega)
      simp only [labelLoop_of_root hroot, ht, hc, Except.bind] at h
      split at h <;> simp at h
    · exact .inr (.inr hcut)
    · rw [labelLoop_of_run hrun, List.nil_append] at herr
      simp [herr, Except.bind] at h
  · rintro ⟨ls, e, hrun, hend⟩
    have hread : ∀ {labels cursor}, labelLoop m ls e = .ok (.ok (labels, cursor)) →
        m.length < cursor + 4 → ∃ p, fromBytes m QueryHeader.length = .error p := by
      intro labels cursor hloop hlen
      rw [fromBytes_of_run hrun, hloop]
      rcases ht : u16At m cursor with p | t
      · exact ⟨p, by simp only [Except.bind, ht]⟩
      rcases hc : u16At m (cursor + 2) with p | c
      · exact ⟨p, by simp only [Except.bind, ht, hc]⟩
      · have := u16At_ok_iff.1 ⟨c, hc⟩
        omega
    rcases hend with hlen | ⟨e', hroot, hlen⟩ | hcut
    · exact hread (labelLoop_of_length_le hlen ls) (by omega)
    · exact hread (labelLoop_of_root hroot ls) hlen
    · obtain ⟨p, hp⟩ := labelLoop_of_cut hcut ls
      exact ⟨p, by rw [fromBytes_of_run hrun, hp]; rfl⟩

/-- A whole question is parsed up to its end. -/
theorem fromBytes_of_root {m : List UInt8} {ls : List Label} {e e' : ℕ} {t c : UInt16}
    (hrun : LabelRun m QueryHeader.length ls e) (hroot : LabelEntry m e [] e')
    (ht : u16At m e' = .ok t) (hc : u16At m (e' + 2) = .ok c) :
    fromBytes m QueryHeader.length = .ok (match nameLoop (ls ++ [[]]) [] "" with
      | .error err => .error (err, e' + 4)
      | .ok (queryNameBytes, queryNameString) =>
        .ok (⟨queryNameBytes, queryNameString, t, c, startsAcmeChallenge ls⟩, e' + 4)) := by
  rw [fromBytes_of_run hrun, labelLoop_of_root hroot]
  simp only [Except.bind, ht, hc, startsAcmeChallenge_root]
  split <;> rfl

/-- Every accepted name, type and class has a query, which is what their question is parsed to. -/
theorem exists_query {ls : List Label} (hacc : Accepted ls) (hne : ∀ l ∈ ls, l ≠ [])
    (t c : UInt16) :
    ∃ q : Query, q.Names ls ∧ q.queryType = t ∧ q.queryClass = c ∧
      ∀ {e e' m}, LabelRun m QueryHeader.length ls e → LabelEntry m e [] e' →
        u16At m e' = .ok t → u16At m (e' + 2) = .ok c →
          fromBytes m QueryHeader.length = .ok (.ok (q, e' + 4)) := by
  obtain ⟨key, -, hkey⟩ := fromUtf8_of_ascii (ascii_dotted hacc.ascii)
  have hloop := (nameLoop_root_iff hne).2 ⟨hacc, rfl, hkey⟩
  refine ⟨⟨nameOctets ls, key, t, c, startsAcmeChallenge ls⟩, ⟨rfl, hkey, rfl⟩, rfl, rfl, ?_⟩
  intro e e' m hrun hroot ht hc
  rw [fromBytes_of_root hrun hroot ht hc, hloop]

theorem fromBytes_of_asks {m : List UInt8} {ls : List Label} {t c : UInt16} (h : Asks m ls t c) :
    ∃ end', fromBytes m QueryHeader.length = .ok (match nameLoop (ls ++ [[]]) [] "" with
      | .error err => .error (err, end')
      | .ok (queryNameBytes, queryNameString) =>
        .ok (⟨queryNameBytes, queryNameString, t, c, startsAcmeChallenge ls⟩, end')) := by
  obtain ⟨e, e', hrun, hroot, ht, hc⟩ := h
  exact ⟨e' + 4, fromBytes_of_root hrun hroot ht hc⟩

theorem asks_of_fromBytes {m : List UInt8} {q : Query} {end' : ℕ}
    (h : fromBytes m QueryHeader.length = .ok (.ok (q, end'))) :
    ∃ ls, Asks m ls q.queryType q.queryClass := by
  obtain ⟨ls, e, hrun, hend⟩ := labelLoop_cases m [] QueryHeader.length
  have hshort : ¬ CutShort m := fun hcut => by
    obtain ⟨p, hp⟩ := fromBytes_error_iff.2 hcut
    simp [hp] at h
  rcases hend with hlen | ⟨e', hroot⟩ | hcut | ⟨err, herr⟩
  · exact absurd ⟨ls, e, hrun, .inl hlen⟩ hshort
  · have hfour : e' + 4 ≤ m.length := by
      by_contra hlt
      exact hshort ⟨ls, e, hrun, .inr (.inl ⟨e', hroot, by omega⟩)⟩
    obtain ⟨t, ht⟩ := (@u16At_ok_iff m e').2 (by omega)
    obtain ⟨c, hc⟩ := (@u16At_ok_iff m (e' + 2)).2 (by omega)
    have hasks : Asks m ls t c := ⟨e, e', hrun, hroot, ht, hc⟩
    obtain ⟨end'', heq⟩ := fromBytes_of_asks hasks
    rw [heq] at h
    split at h <;> simp only [Except.ok.injEq, Prod.mk.injEq, reduceCtorEq] at h
    obtain ⟨rfl, -⟩ := h
    exact ⟨ls, hasks⟩
  · exact absurd ⟨ls, e, hrun, .inr (.inr hcut)⟩ hshort
  · rw [labelLoop_of_run hrun, List.nil_append] at herr
    rw [fromBytes_of_run hrun, herr] at h
    simp [Except.bind] at h

/-- `Query.fromBytes` returns the query of a complete question whose name is ASCII and at most 255
octets, and of no other. -/
theorem fromBytes_ok_iff {m : List UInt8} {q : Query} :
    (∃ end', fromBytes m QueryHeader.length = .ok (.ok (q, end'))) ↔
      ∃ ls, Asks m ls q.queryType q.queryClass ∧ Accepted ls ∧ q.Names ls := by
  constructor
  · rintro ⟨end', h⟩
    obtain ⟨ls, hasks⟩ := asks_of_fromBytes h
    obtain ⟨end'', heq⟩ := fromBytes_of_asks hasks
    rw [heq] at h
    rcases hloop : nameLoop (ls ++ [[]]) [] "" with err | ⟨bs, s⟩ <;>
      simp only [hloop, Except.ok.injEq, Prod.mk.injEq, reduceCtorEq] at h
    obtain ⟨hacc, hbytes, hkey⟩ := (nameLoop_root_iff hasks.ne_nil).1 hloop
    exact ⟨ls, hasks, hacc, h.1 ▸ ⟨hbytes, hkey, rfl⟩⟩
  · rintro ⟨ls, hasks, hacc, hq⟩
    have hloop := (nameLoop_root_iff hasks.ne_nil).2 ⟨hacc, hq.bytes, hq.key⟩
    obtain ⟨end', heq⟩ := fromBytes_of_asks hasks
    refine ⟨end', ?_⟩
    rw [heq, hloop, ← hq.acme]

end Query

end AcmeChampion
