import AcmeChampion.Proofs.Uncompressed

/-!
# Questions with a pointer

A pointer stands for the whole rest of a name and ends it.  The parser takes one label from where it
leads and reads on behind it, so it reads a name with a pointer as it is meant exactly when the
pointer leads to the root (`fromBytes_compressed_iff`).
-/

namespace AcmeChampion

open Bytes Text Wire

/-- The name of the question has a pointer at `p`. -/
def PointerAt (m : List UInt8) (p : ℕ) : Prop :=
  ∃ (ls : List Label) (octet : UInt8) (post : List UInt8),
    (∀ l ∈ ls, 0 < l.length ∧ l.length < 64) ∧ 192 ≤ octet.toNat ∧
      m.drop QueryHeader.length = labelOctets ls ++ octet :: post ∧
        p = QueryHeader.length + (labelOctets ls).length

/-- The pointer at `p` leads to the zero octet of a root. -/
def PointsToRoot (m : List UInt8) (p : ℕ) : Prop :=
  ∃ hi lo, m[p]? = some hi ∧ m[p + 1]? = some lo ∧ m[pointerTarget hi lo]? = some 0

section Runs

variable {m : List UInt8}

theorem LabelEntry.unique {c d d' : ℕ} {l l' : Label} (h : LabelEntry m c l d)
    (h' : LabelEntry m c l' d') : l = l' ∧ d = d' := by
  have heq := (readLabel_ok_iff.2 h).symm.trans (readLabel_ok_iff.2 h')
  simpa using heq

theorem LabelEntry.lt {c d : ℕ} {l : Label} (h : LabelEntry m c l d) : c < d :=
  lt_of_readLabel (readLabel_ok_iff.2 h)

theorem LabelRun.le {c e : ℕ} {ls : List Label} (h : LabelRun m c ls e) : c ≤ e := by
  induction h with
  | nil => exact le_rfl
  | cons hl _ _ ih => exact hl.lt.le.trans ih

/-- A run that an empty label ends passes through the end of every other run. -/
theorem LabelRun.through {c p e e' : ℕ} {ls ls' : List Label} (h : LabelRun m c ls p)
    (h' : LabelRun m c ls' e) (hroot : LabelEntry m e [] e') :
    ∃ ls'', ls' = ls ++ ls'' ∧ LabelRun m p ls'' e := by
  induction h generalizing ls' with
  | nil c => exact ⟨ls', rfl, h'⟩
  | cons hl hne _ ih =>
    cases h' with
    | nil => exact absurd (hl.unique hroot).1 hne
    | cons hl' _ hls' =>
      obtain ⟨rfl, rfl⟩ := hl.unique hl'
      obtain ⟨ls'', rfl, hrun⟩ := ih hls'
      exact ⟨ls'', rfl, hrun⟩

end Runs

section Pointer

variable {m : List UInt8} {p : ℕ}

/-- The entry at a pointer is empty where the pointer leads to the root, and ends behind it. -/
theorem LabelEntry.of_pointer {c : ℕ} {l : Label} {octet : UInt8} (hoctet : m[p]? = some octet)
    (h192 : 192 ≤ octet.toNat) (h : LabelEntry m p l c) :
    c = p + 2 ∧ (l = [] ↔ PointsToRoot m p) := by
  cases h with
  | literal hn h64 _ =>
    rw [hoctet, Option.some.injEq] at hn
    subst hn
    omega
  | @pointer hi lo n hhi _ hlo _ hn hfit =>
    refine ⟨rfl, ?_, ?_⟩
    · intro hnil
      have hlen := congrArg List.length hnil
      simp only [List.length_take, List.length_drop, List.length_nil] at hlen
      have hzero : n = 0 := UInt8.toNat_inj.1 (by simp only [UInt8.toNat_zero]; omega)
      exact ⟨hi, lo, hhi, hlo, hzero ▸ hn⟩
    · rintro ⟨hi', lo', hhi', hlo', hroot⟩
      rw [hhi, Option.some.injEq] at hhi'
      rw [hlo, Option.some.injEq] at hlo'
      subst hhi' hlo'
      rw [hn, Option.some.injEq] at hroot
      simp [hroot]

/-- Behind the labels before a pointer, the run of a question goes on with its entry. -/
theorem PointerAt.run {ls : List Label} {e e' : ℕ} (hp : PointerAt m p)
    (hrun : LabelRun m QueryHeader.length ls e) (hroot : LabelEntry m e [] e') :
    (PointsToRoot m p → e' = p + 2 ∧ Decompresses m QueryHeader.length ls (p + 2)) ∧
      (¬ PointsToRoot m p → p + 2 < e') := by
  obtain ⟨ks, octet, post, hks, h192, hdrop, rfl⟩ := hp
  obtain ⟨hm, hlen⟩ := eq_take_append hdrop (by simp)
  have hpre := labelRun_octets ks (m.take QueryHeader.length) (octet :: post) hks
  rw [← hm, hlen] at hpre
  have hoctet : m[QueryHeader.length + (labelOctets ks).length]? = some octet := by
    rw [← List.getElem?_drop, hdrop]
    simp
  obtain ⟨ls', rfl, hrest⟩ := hpre.through hrun hroot
  cases hrest with
  | nil =>
    obtain ⟨hend, hiff⟩ := hroot.of_pointer hoctet h192
    refine ⟨fun hpoints => ⟨hend, ?_⟩, fun hno => absurd (hiff.1 rfl) hno⟩
    obtain ⟨hi, lo, hhi, hlo, hzero⟩ := hpoints
    rw [hoctet, Option.some.injEq] at hhi
    subst hhi
    exact .labels hks hdrop (by simp) (.pointer hoctet h192 hlo (.root hzero))
  | cons hl hne hls =>
    obtain ⟨rfl, hiff⟩ := hl.of_pointer hoctet h192
    exact ⟨fun hpoints => absurd (hiff.2 hpoints) hne, fun _ => hls.le.trans_lt hroot.lt⟩

end Pointer

/-- What the parser returns for a question with a pointer is the name that it means, and the type
and the class right after it, exactly when the question is refused or the pointer leads to the
root. -/
theorem fromBytes_compressed_iff {m : List UInt8} {p : ℕ} (hp : PointerAt m p) :
    (∀ q cursor, Query.fromBytes m QueryHeader.length = .ok (.ok (q, cursor)) →
      ∃ ls, Decompresses m QueryHeader.length ls (p + 2) ∧ q.Names ls ∧
        u16At m (p + 2) = .ok q.queryType ∧ u16At m (p + 4) = .ok q.queryClass ∧
          cursor = p + 6) ↔
      (¬ ∃ ls t c, Asks m ls t c ∧ Accepted ls) ∨ PointsToRoot m p := by
  constructor
  · intro h
    by_cases hok : ∃ ls t c, Asks m ls t c ∧ Accepted ls
    · refine .inr (by_contra fun hno => ?_)
      obtain ⟨ls, t, c, hasks, hacc⟩ := hok
      obtain ⟨q, -, -, -, hq⟩ := Query.exists_query hacc hasks.ne_nil t c
      obtain ⟨e, e', hrun, hroot, ht, hc⟩ := hasks
      obtain ⟨ls', -, -, -, -, hcursor⟩ := h q (e' + 4) (hq hrun hroot ht hc)
      have hlt := (hp.run hrun hroot).2 hno
      omega
    · exact .inl hok
  · intro h q cursor hfrom
    obtain ⟨ls, hasks, hacc, hq⟩ := Query.fromBytes_ok_iff.1 ⟨cursor, hfrom⟩
    have hpoints := h.resolve_left fun hno => hno ⟨ls, _, _, hasks, hacc⟩
    obtain ⟨e, e', hrun, hroot, ht, hc⟩ := hasks
    obtain ⟨rfl, hname⟩ := (hp.run hrun hroot).1 hpoints
    rw [Query.fromBytes_of_root hrun hroot ht hc] at hfrom
    split at hfrom <;> simp only [Except.ok.injEq, Prod.mk.injEq, reduceCtorEq] at hfrom
    exact ⟨ls, hname, hq, ht, hc, hfrom.2.symm⟩

section HeaderPointer

/-- A question of type TXT and class IN whose name is a pointer to the header, where the octets of
the identifier and the flags spell the name `a`. -/
def headerPointer : List UInt8 :=
  [1, 97, 0, 0, 0, 1, 0, 0, 0, 0, 0, 0, 192, 0, 0, 16, 0, 1, 0]

theorem pointerAt_headerPointer : PointerAt headerPointer 12 :=
  ⟨[], 192, [0, 0, 16, 0, 1, 0], by simp, by decide, rfl, rfl⟩

theorem fromBytes_compressed_iff_headerPointer :
    (∀ q cursor, Query.fromBytes headerPointer QueryHeader.length = .ok (.ok (q, cursor)) →
      ∃ ls, Decompresses headerPointer QueryHeader.length ls 14 ∧ q.Names ls ∧
        u16At headerPointer 14 = .ok q.queryType ∧ u16At headerPointer 16 = .ok q.queryClass ∧
          cursor = 18) ↔
      (¬ ∃ ls t c, Asks headerPointer ls t c ∧ Accepted ls) ∨ PointsToRoot headerPointer 12 :=
  fromBytes_compressed_iff pointerAt_headerPointer

/-- The parser reads on behind the pointer and takes the type and the class one octet late. -/
theorem fromBytes_headerPointer :
    PointerAt headerPointer 12 ∧
    (∀ ls e, Decompresses headerPointer QueryHeader.length ls e ↔ ls = [[97]] ∧ e = 14) ∧
    u16At headerPointer 14 = .ok txtType ∧ u16At headerPointer 16 = .ok inClass ∧
    ∃ q, Query.fromBytes headerPointer QueryHeader.length = .ok (.ok (q, 19)) ∧
      q.queryType = 0x1000 ∧ q.queryClass = 0x0100 := by
  have htarget : Decompresses headerPointer 0 [[97]] 3 :=
    @Decompresses.label headerPointer 0 3 1 [] rfl (by decide) (by decide) (by decide) (.root rfl)
  have hname : Decompresses headerPointer QueryHeader.length [[97]] 14 :=
    .pointer rfl (by decide) rfl htarget
  have hentry : LabelEntry headerPointer QueryHeader.length [97] 14 :=
    @LabelEntry.pointer headerPointer 12 192 0 1 rfl (by decide) rfl (by decide) rfl (by decide)
  have hrun : LabelRun headerPointer QueryHeader.length [[97]] 14 :=
    .cons hentry (by decide) (.nil 14)
  have hroot : LabelEntry headerPointer 14 [] 15 :=
    @LabelEntry.literal headerPointer 14 0 rfl (by decide) (by decide)
  have hacc : Accepted [[97]] := ⟨by simp [isAscii], by decide⟩
  obtain ⟨q, -, htype, hclass, hq⟩ := Query.exists_query hacc (by simp) 0x1000 0x0100
  refine ⟨pointerAt_headerPointer, fun ls e => ⟨fun h => h.unique hname, ?_⟩, rfl, rfl, q, ?_,
    htype, hclass⟩
  · rintro ⟨rfl, rfl⟩
    exact hname
  · exact hq hrun hroot rfl rfl

end HeaderPointer

end AcmeChampion
