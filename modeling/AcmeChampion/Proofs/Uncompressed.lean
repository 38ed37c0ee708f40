import AcmeChampion.Proofs.Query

/-!
# Questions without pointers

Where no pointer stands, a run of labels is their octets and the parser reads the name's grammar off
the message (`fromBytes_uncompressed`).  What it makes of a whole question depends on the octets of
the question alone, whatever stands before and after it (`exists_fromBytes_octets`).
-/

namespace AcmeChampion

open Bytes Text Wire

/-- Behind labels of 1 to 63 octets stands the first octet of a pointer. -/
def MeetsPointer (m : List UInt8) (c : ℕ) : Prop :=
  ∃ (ls : List Label) (octet : UInt8) (post : List UInt8),
    (∀ l ∈ ls, 0 < l.length ∧ l.length < 64) ∧ 192 ≤ octet.toNat ∧
      m.drop c = labelOctets ls ++ octet :: post

/-! ## From the labels to the octets -/

section Read

variable {m : List UInt8}

theorem eq_take_append {k : ℕ} {bs : List UInt8} (h : m.drop k = bs) (hbs : bs ≠ []) :
    m = m.take k ++ bs ∧ (m.take k).length = k := by
  refine ⟨?_, ?_⟩
  · rw [← h, List.take_append_drop]
  · have hlen := congrArg List.length h
    have := List.length_pos_iff.2 hbs
    rw [List.length_drop] at hlen
    rw [List.length_take]
    omega

theorem drop_of_getElem? {c : ℕ} {b : UInt8} (h : m[c]? = some b) :
    m.drop c = b :: m.drop (c + 1) := by
  rw [List.drop_eq_getElem?_toList_append, h]
  rfl

theorem drop_of_u16At {c : ℕ} {v : UInt16} (h : u16At m c = .ok v) :
    m.drop c = u16ToBeBytes v ++ m.drop (c + 2) := by
  have hlen := u16At_ok_iff.1 ⟨v, h⟩
  obtain ⟨hi, hhi⟩ : ∃ hi, m[c]? = some hi := ⟨_, List.getElem?_eq_getElem (by omega)⟩
  obtain ⟨lo, hlo⟩ : ∃ lo, m[c + 1]? = some lo := ⟨_, List.getElem?_eq_getElem (by omega)⟩
  rw [u16At_of_getElem? hhi hlo, Except.ok.injEq] at h
  rw [← h, u16ToBeBytes_ofNat, drop_of_getElem? hhi, drop_of_getElem? hlo]
  exact congrArg (· ++ m.drop (c + 2)) (bigEndian_fromBigEndian [hi, lo]).symm

theorem exists_type_class {rest : List UInt8} (h : 4 ≤ rest.length) :
    ∃ t c post, rest = u16ToBeBytes t ++ (u16ToBeBytes c ++ post) := by
  obtain ⟨t, ht⟩ := (@u16At_ok_iff rest 0).2 (by omega)
  obtain ⟨c, hc⟩ := (@u16At_ok_iff rest 2).2 (by omega)
  have hdrop := drop_of_u16At ht
  rw [List.drop_zero, Nat.zero_add, drop_of_u16At hc] at hdrop
  exact ⟨t, c, _, hdrop⟩

theorem LabelEntry.drop_eq {c c' : ℕ} {l : Label} (h : LabelEntry m c l c')
    (hptr : ¬ MeetsPointer m c) :
    l.length < 64 ∧ c' = c + 1 + l.length ∧
      m.drop c = UInt8.ofNat l.length :: (l ++ m.drop c') := by
  cases h with
  | @literal n hn h64 hfit =>
    have hlen : ((m.drop (c + 1)).take n.toNat).length = n.toNat := by
      simp only [List.length_take, List.length_drop]
      omega
    have hcat := List.take_append_drop n.toNat (m.drop (c + 1))
    rw [List.drop_drop] at hcat
    rw [hlen, UInt8.ofNat_toNat, drop_of_getElem? hn, hcat]
    exact ⟨h64, rfl, rfl⟩
  | @pointer hi lo n hhi h192 hlo hback hn hfit =>
    exact absurd ⟨[], hi, m.drop (c + 1), by simp, h192, drop_of_getElem? hhi⟩ hptr

theorem MeetsPointer.cons {c c' : ℕ} {l : Label} (hl : 0 < l.length ∧ l.length < 64)
    (hdrop : m.drop c = UInt8.ofNat l.length :: (l ++ m.drop c')) (h : MeetsPointer m c') :
    MeetsPointer m c := by
  obtain ⟨ls, octet, post, hls, hoctet, heq⟩ := h
  refine ⟨l :: ls, octet, post, by simpa using ⟨hl, hls⟩, hoctet, ?_⟩
  rw [hdrop, heq]
  simp

theorem LabelRun.drop_eq {c e : ℕ} {ls : List Label} (h : LabelRun m c ls e)
    (hptr : ¬ MeetsPointer m c) :
    (∀ l ∈ ls, 0 < l.length ∧ l.length < 64) ∧ e = c + (labelOctets ls).length ∧
      m.drop c = labelOctets ls ++ m.drop e ∧ ¬ MeetsPointer m e := by
  induction h with
  | nil c => exact ⟨by simp, by simp, by simp, hptr⟩
  | @cons c c' e l ls hl hne _ ih =>
    obtain ⟨h64, hc', hdrop⟩ := hl.drop_eq hptr
    have hpos := List.length_pos_iff.2 hne
    obtain ⟨hls, he, hdrop', hend⟩ := ih fun h => hptr (h.cons ⟨hpos, h64⟩ hdrop)
    refine ⟨by simpa using ⟨⟨hpos, h64⟩, hls⟩, ?_, ?_, hend⟩
    · simp only [labelOctets_cons, List.length_cons, List.length_append]
      omega
    · rw [hdrop, hdrop']
      simp

/-- Labels that the root ends are not labels that a pointer ends. -/
theorem labelOctets_root_ne : ∀ {ls ks : List Label} {octet : UInt8} {post post' : List UInt8},
    (∀ l ∈ ls, 0 < l.length ∧ l.length < 64) → (∀ k ∈ ks, 0 < k.length ∧ k.length < 64) →
    192 ≤ octet.toNat → labelOctets ls ++ 0 :: post ≠ labelOctets ks ++ octet :: post'
  | [], [], octet, _, _, _, _, h192, h => by
    rw [← (List.cons.inj h).1] at h192
    exact absurd h192 (by decide)
  | [], k :: ks, _, _, _, _, hks, _, h => by
    obtain ⟨hpos, hlt⟩ := hks k (by simp)
    exact lengthOctet_ne_zero hpos (by omega) (List.cons.inj h).1.symm
  | l :: ls, [], octet, _, _, hls, _, h192, h => by
    obtain ⟨-, hlt⟩ := hls l (by simp)
    rw [← (List.cons.inj h).1, UInt8.toNat_ofNat', Nat.mod_eq_of_lt (by omega)] at h192
    omega
  | l :: ls, k :: ks, octet, post, post', hls, hks, h192, h => by
    obtain ⟨-, hl⟩ := hls l (by simp)
    obtain ⟨-, hk⟩ := hks k (by simp)
    rw [labelOctets_cons, labelOctets_cons, List.cons_append, List.cons_append] at h
    obtain ⟨hoctet, hrest⟩ := List.cons.inj h
    have hlen : l.length = k.length := by
      rw [← UInt8.toNat_inj, UInt8.toNat_ofNat', UInt8.toNat_ofNat'] at hoctet
      omega
    rw [List.append_assoc, List.append_assoc] at hrest
    exact labelOctets_root_ne (fun l hl => hls l (by simp [hl])) (fun k hk => hks k (by simp [hk]))
      h192 (List.append_inj hrest hlen).2

theorem not_meetsPointer {c : ℕ} {ls : List Label} {pre : List UInt8} (post : List UInt8)
    (hls : ∀ l ∈ ls, 0 < l.length ∧ l.length < 64) (hpre : pre.length = c) :
    ¬ MeetsPointer (pre ++ (nameOctets ls ++ post)) c := by
  rintro ⟨ks, octet, post', hks, h192, h⟩
  rw [← hpre, List.drop_left, nameOctets, List.append_assoc] at h
  exact labelOctets_root_ne hls hks h192 h

/-- A question without pointers is the octets of its name, its type and its class. -/
theorem asks_drop_eq {ls : List Label} {e e' : ℕ} {t c : UInt16}
    (hrun : LabelRun m QueryHeader.length ls e) (hroot : LabelEntry m e [] e')
    (ht : u16At m e' = .ok t) (hc : u16At m (e' + 2) = .ok c)
    (hptr : ¬ MeetsPointer m QueryHeader.length) :
    (∀ l ∈ ls, 0 < l.length ∧ l.length < 64) ∧
      e' = QueryHeader.length + (nameOctets ls).length ∧
      m.drop QueryHeader.length = nameOctets ls ++ (u16ToBeBytes t ++ (u16ToBeBytes c ++
        m.drop (e' + 4))) := by
  obtain ⟨hls, he, hdrop, hend⟩ := hrun.drop_eq hptr
  obtain ⟨-, he', hdrop'⟩ := hroot.drop_eq hend
  refine ⟨hls, ?_, ?_⟩
  · simp only [List.length_nil] at he'
    simp only [nameOctets, List.length_append, List.length_singleton]
    omega
  · rw [hdrop, hdrop', drop_of_u16At ht, drop_of_u16At hc]
    simp [nameOctets]

end Read

/-! ## From the octets to the labels -/

section Written

variable {ls : List Label} (t c : UInt16) {pre : List UInt8} (post : List UInt8)

theorem labelRun_name (hls : ∀ l ∈ ls, 0 < l.length ∧ l.length < 64)
    (hpre : pre.length = QueryHeader.length) {m : List UInt8}
    (hm : m = pre ++ (nameOctets ls ++ post)) :
    LabelRun m QueryHeader.length ls (QueryHeader.length + (labelOctets ls).length) ∧
      LabelEntry m (QueryHeader.length + (labelOctets ls).length) []
        (QueryHeader.length + (nameOctets ls).length) := by
  have hroot : (nameOctets ls).length = (labelOctets ls).length + 1 := by simp [nameOctets]
  refine ⟨?_, ?_⟩
  · have hrun := labelRun_octets ls pre (0 :: post) hls
    rw [hpre] at hrun
    rw [hm]
    simpa [nameOctets] using hrun
  · have hzero : m[QueryHeader.length + (labelOctets ls).length]? = some 0 := by
      rw [hm, List.getElem?_append_right (by omega), hpre]
      simp [nameOctets]
    have hlen := congrArg List.length hm
    simp only [List.length_append] at hlen
    have hentry := LabelEntry.literal hzero (by decide) (by simp only [UInt8.reduceToNat]; omega)
    rw [hroot, ← Nat.add_assoc]
    simpa using hentry

theorem u16At_question (hpre : pre.length = QueryHeader.length) {m : List UInt8}
    (hm : m = pre ++ (nameOctets ls ++ (u16ToBeBytes t ++ (u16ToBeBytes c ++ post)))) :
    u16At m (QueryHeader.length + (nameOctets ls).length) = .ok t ∧
      u16At m (QueryHeader.length + (nameOctets ls).length + 2) = .ok c := by
  have htype : (u16ToBeBytes t).length = 2 := by simp [u16ToBeBytes]
  refine ⟨?_, ?_⟩
  · have hat := u16At_append (pre ++ nameOctets ls) (u16ToBeBytes c ++ post) t
    rwa [List.length_append, hpre, List.append_assoc, ← hm] at hat
  · have hat := u16At_append (pre ++ (nameOctets ls ++ u16ToBeBytes t)) post c
    rw [List.length_append, List.length_append, hpre, htype, List.append_assoc, List.append_assoc,
      ← hm, ← Nat.add_assoc] at hat
    exact hat

theorem cutShort_name (hls : ∀ l ∈ ls, 0 < l.length ∧ l.length < 64)
    (hpre : pre.length = QueryHeader.length) (hpost : post.length < 4) :
    CutShort (pre ++ (nameOctets ls ++ post)) := by
  obtain ⟨hrun, hroot⟩ := labelRun_name post hls hpre rfl
  refine ⟨ls, _, hrun, .inr (.inl ⟨_, hroot, ?_⟩)⟩
  simp only [List.length_append]
  omega

theorem asks_question (hls : ∀ l ∈ ls, 0 < l.length ∧ l.length < 64)
    (hpre : pre.length = QueryHeader.length) :
    Asks (pre ++ (nameOctets ls ++ (u16ToBeBytes t ++ (u16ToBeBytes c ++ post)))) ls t c := by
  obtain ⟨hrun, hroot⟩ := labelRun_name (u16ToBeBytes t ++ (u16ToBeBytes c ++ post)) hls hpre rfl
  obtain ⟨ht, hc⟩ := u16At_question t c post hpre rfl
  exact ⟨_, _, hrun, hroot, ht, hc⟩

theorem fromBytes_question (hls : ∀ l ∈ ls, 0 < l.length ∧ l.length < 64)
    (hpre : pre.length = QueryHeader.length) :
    Query.fromBytes (pre ++ (nameOctets ls ++ (u16ToBeBytes t ++ (u16ToBeBytes c ++ post))))
      QueryHeader.length = .ok (match nameLoop (ls ++ [[]]) [] "" with
        | .error err => .error (err, QueryHeader.length + (nameOctets ls).length + 4)
        | .ok (queryNameBytes, queryNameString) =>
          .ok (⟨queryNameBytes, queryNameString, t, c, Query.startsAcmeChallenge ls⟩,
            QueryHeader.length + (nameOctets ls).length + 4)) := by
  obtain ⟨hrun, hroot⟩ := labelRun_name (u16ToBeBytes t ++ (u16ToBeBytes c ++ post)) hls hpre rfl
  obtain ⟨ht, hc⟩ := u16At_question t c post hpre rfl
  exact Query.fromBytes_of_root hrun hroot ht hc

/-- A label of 64 to 191 octets has a length octet that is refused. -/
theorem fromBytes_reserved {m : List UInt8} {n : UInt8} {e : ℕ}
    (hrun : LabelRun m QueryHeader.length ls e) (hn : m[e]? = some n) (h64 : 64 ≤ n.toNat)
    (h192 : n.toNat < 192) :
    Query.fromBytes m QueryHeader.length = .ok (.error (.invalidLabelLength n, 0)) := by
  have hread : readLabel m e = .ok (.error (.invalidLabelLength n)) := by
    rw [readLabel_eq, hn]
    simp only
    rw [if_neg (by omega), if_neg (by omega)]
  rw [Query.fromBytes_of_run hrun, labelLoop_of_lt (List.getElem?_eq_some_iff.1 hn).1, hread]
  rfl

/-- Whether it is accepted or refused, what the parser makes of a question without pointers depends
on the octets of the question alone. -/
theorem exists_fromBytes_octets (hls : ∀ l ∈ ls, 0 < l.length ∧ l.length < 192) :
    ∃ r, ∀ pre post : List UInt8, pre.length = QueryHeader.length →
      Query.fromBytes (pre ++ (nameOctets ls ++ (u16ToBeBytes t ++ (u16ToBeBytes c ++ post))))
        QueryHeader.length = .ok r := by
  rcases hfind : ls.find? (64 ≤ ·.length) with _ | l
  · have h63 : ∀ l ∈ ls, 0 < l.length ∧ l.length < 64 := by
      intro l hl
      have := List.find?_eq_none.1 hfind l hl
      simp only [decide_eq_true_eq] at this
      exact ⟨(hls l hl).1, by omega⟩
    exact ⟨_, fun pre post hpre => fromBytes_question t c post h63 hpre⟩
  · obtain ⟨h64, ks, ks', rfl, hks⟩ := List.find?_eq_some_iff_append.1 hfind
    simp only [decide_eq_true_eq] at h64
    have hl := (hls l (by simp)).2
    have hn : (UInt8.ofNat l.length).toNat = l.length :=
      UInt8.toNat_ofNat_of_lt' (show l.length < 256 by omega)
    have h63 : ∀ k ∈ ks, 0 < k.length ∧ k.length < 64 := by
      intro k hk
      have := hks k hk
      simp only [Bool.not_eq_true', decide_eq_false_iff_not] at this
      exact ⟨(hls k (by simp [hk])).1, by omega⟩
    refine ⟨.error (.invalidLabelLength (UInt8.ofNat l.length), 0), fun pre post hpre => ?_⟩
    have hcat : pre ++ (nameOctets (ks ++ l :: ks') ++ (u16ToBeBytes t ++ (u16ToBeBytes c ++ post)))
        = pre ++ (labelOctets ks ++ UInt8.ofNat l.length :: (l ++ nameOctets ks' ++
          (u16ToBeBytes t ++ (u16ToBeBytes c ++ post)))) := by
      simp [nameOctets, labelOctets_append]
    rw [hcat]
    have hrun := labelRun_octets ks pre (UInt8.ofNat l.length :: (l ++ nameOctets ks' ++
      (u16ToBeBytes t ++ (u16ToBeBytes c ++ post)))) h63
    rw [hpre] at hrun
    refine fromBytes_reserved hrun ?_ (by omega) (by omega)
    rw [List.getElem?_append_right (by omega), hpre]
    simp

end Written

/-! ## The grammar -/

theorem asks_of_ok {m : List UInt8} {q : Query} {cursor : ℕ}
    (h : Query.fromBytes m QueryHeader.length = .ok (.ok (q, cursor)))
    (hptr : ¬ MeetsPointer m QueryHeader.length) :
    ∃ (n : Name) (post : List UInt8), (∀ l ∈ n.labels, ∀ b ∈ l, isAscii b) ∧ q.Names n.labels ∧
      cursor = QueryHeader.length + n.octets.length + 4 ∧
      m.drop QueryHeader.length = n.octets ++ (u16ToBeBytes q.queryType ++
        (u16ToBeBytes q.queryClass ++ post)) := by
  obtain ⟨ls, hasks, hacc, hq⟩ := Query.fromBytes_ok_iff.1 ⟨cursor, h⟩
  obtain ⟨e, e', hrun, hroot, ht, hc⟩ := hasks
  obtain ⟨hls, he', hdrop⟩ := asks_drop_eq hrun hroot ht hc hptr
  have hvalid : ValidLabels ls :=
    ⟨fun l hl => (hls l hl).1, fun l hl => Nat.le_of_lt_succ (hls l hl).2, hacc.le_255⟩
  refine ⟨⟨ls, hvalid⟩, _, hacc.ascii, hq, ?_, hdrop⟩
  rw [Query.fromBytes_of_root hrun hroot ht hc] at h
  split at h <;> simp only [Except.ok.injEq, Prod.mk.injEq, reduceCtorEq] at h
  rw [← h.2, he']
  rfl

theorem ok_of_name {m post : List UInt8} {n : Name}
    (hok : ∃ r, Query.fromBytes m QueryHeader.length = .ok r)
    (hascii : ∀ l ∈ n.labels, ∀ b ∈ l, isAscii b)
    (hdrop : m.drop QueryHeader.length = n.octets ++ post) :
    ∃ q cursor, Query.fromBytes m QueryHeader.length = .ok (.ok (q, cursor)) := by
  obtain ⟨hm, hpre⟩ := eq_take_append hdrop (by simp [Name.octets, nameOctets])
  obtain ⟨hrun, hroot⟩ := labelRun_name post n.valid.length_lt hpre hm
  have hlen : QueryHeader.length + (nameOctets n.labels).length + 4 ≤ m.length := by
    by_contra hlt
    obtain ⟨r, hr⟩ := hok
    obtain ⟨p, hp⟩ := Query.fromBytes_error_iff.2
      ⟨n.labels, _, hrun, .inr (.inl ⟨_, hroot, by omega⟩)⟩
    simp [hp] at hr
  obtain ⟨t, ht⟩ :=
    (@u16At_ok_iff m (QueryHeader.length + (nameOctets n.labels).length)).2 (by omega)
  obtain ⟨c, hc⟩ :=
    (@u16At_ok_iff m (QueryHeader.length + (nameOctets n.labels).length + 2)).2 (by omega)
  obtain ⟨q, -, -, -, hq⟩ := Query.exists_query ⟨hascii, n.valid.le_255⟩ n.valid.ne_nil t c
  exact ⟨q, _, hq hrun hroot ht hc⟩

/-- Where the parser does not panic and meets no pointer, it accepts exactly the ASCII names, and
returns the name, the cursor behind the class and, written again, the octets it read.  It recovers
every such name, type and class from their octets. -/
theorem fromBytes_uncompressed :
    (∀ m, (∃ r, Query.fromBytes m QueryHeader.length = .ok r) →
      ¬ MeetsPointer m QueryHeader.length →
        ((∃ q cursor, Query.fromBytes m QueryHeader.length = .ok (.ok (q, cursor))) ↔
          ∃ (n : Name) (post : List UInt8), (∀ l ∈ n.labels, ∀ b ∈ l, isAscii b) ∧
            m.drop QueryHeader.length = n.octets ++ post) ∧
        ∀ q cursor, Query.fromBytes m QueryHeader.length = .ok (.ok (q, cursor)) →
          ∃ (n : Name) (post : List UInt8), (∀ l ∈ n.labels, ∀ b ∈ l, isAscii b) ∧
            m.drop QueryHeader.length = n.octets ++ (u16ToBeBytes q.queryType ++
              (u16ToBeBytes q.queryClass ++ post)) ∧
            q.queryNameBytes = n.octets ∧ utf8 q.queryNameString = dotted n.labels ∧
            cursor = QueryHeader.length + n.octets.length + 4 ∧ cursor ≤ m.length ∧
            q.toBytes = (m.take cursor).drop QueryHeader.length) ∧
    ∀ (n : Name) (t c : UInt16) (pre post : List UInt8), (∀ l ∈ n.labels, ∀ b ∈ l, isAscii b) →
      pre.length = QueryHeader.length →
        ∃ q, Query.fromBytes (pre ++ (n.octets ++ (u16ToBeBytes t ++ (u16ToBeBytes c ++ post))))
            QueryHeader.length = .ok (.ok (q, QueryHeader.length + n.octets.length + 4)) ∧
          q.queryNameBytes = n.octets ∧ utf8 q.queryNameString = dotted n.labels ∧
          q.queryType = t ∧ q.queryClass = c := by
  constructor
  · intro m hok hptr
    refine ⟨⟨?_, ?_⟩, ?_⟩
    · rintro ⟨q, cursor, h⟩
      obtain ⟨n, post, hascii, -, -, hdrop⟩ := asks_of_ok h hptr
      exact ⟨n, _, hascii, hdrop⟩
    · rintro ⟨n, post, hascii, hdrop⟩
      exact ok_of_name hok hascii hdrop
    · intro q cursor h
      obtain ⟨n, post, hascii, hq, hcursor, hdrop⟩ := asks_of_ok h hptr
      have hbytes : m.drop QueryHeader.length = q.toBytes ++ post := by
        simp [hdrop, Query.toBytes, hq.bytes, Name.octets]
      have htoBytes : q.toBytes.length = n.octets.length + 4 := by
        simp [Query.toBytes, hq.bytes, Name.octets, u16ToBeBytes]
      have hlen := congrArg List.length hbytes
      simp only [List.length_drop, List.length_append] at hlen
      refine ⟨n, post, hascii, hdrop, hq.bytes, hq.key, hcursor, by omega, ?_⟩
      rw [List.drop_take, hbytes, hcursor, Nat.add_assoc, Nat.add_sub_cancel_left, ← htoBytes,
        List.take_left]
  · intro n t c pre post hascii hpre
    obtain ⟨q, hq, htype, hclass, hfrom⟩ :=
      Query.exists_query ⟨hascii, n.valid.le_255⟩ n.valid.ne_nil t c
    obtain ⟨hrun, hroot⟩ :=
      labelRun_name (u16ToBeBytes t ++ (u16ToBeBytes c ++ post)) n.valid.length_lt hpre rfl
    obtain ⟨ht, hc⟩ := u16At_question t c post hpre rfl
    exact ⟨q, hfrom hrun hroot ht hc, hq.bytes, hq.key, htype, hclass⟩

/-- The question of the root behind a clear header. -/
def challengeName : Name := ⟨[acmeChallengeLabel, utf8 "d"], by decide +kernel⟩

def challengeQuestion : List UInt8 :=
  List.replicate 12 0 ++ (challengeName.octets ++ [0, 16, 0, 1])

theorem fromBytes_uncompressed_challenge :
    (∃ q, Query.fromBytes challengeQuestion QueryHeader.length = .ok (.ok (q, 35)) ∧
      q.queryNameBytes = challengeName.octets ∧
      q.toBytes = challengeName.octets ++ [0, 16, 0, 1]) ∧
    ∃ (n : Name) (post : List UInt8), (∀ l ∈ n.labels, ∀ b ∈ l, isAscii b) ∧
      challengeQuestion.drop QueryHeader.length = n.octets ++ post := by
  obtain ⟨q, h, hbytes, -⟩ := fromBytes_uncompressed.2 challengeName txtType 1
    (List.replicate 12 0) [] (by decide +kernel) rfl
  have hok : Query.fromBytes challengeQuestion QueryHeader.length = .ok (.ok (q, 35)) := h
  have hptr : ¬ MeetsPointer challengeQuestion QueryHeader.length :=
    not_meetsPointer [0, 16, 0, 1] challengeName.valid.length_lt rfl
  obtain ⟨hiff, hread⟩ := fromBytes_uncompressed.1 challengeQuestion ⟨_, hok⟩ hptr
  obtain ⟨-, -, -, -, -, -, -, -, hagain⟩ := hread q 35 hok
  exact ⟨⟨q, hok, hbytes, hagain⟩, hiff.1 ⟨q, 35, hok⟩⟩

end AcmeChampion
