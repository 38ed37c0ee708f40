import AcmeChampion.Proofs.Codes

/-!
# The name that is looked up

A challenge is looked up by the dotted name, which splits at its dots into the question's labels
only when none of them holds a dot.  So an answer from the store is about a challenge of these
labels exactly for such names (`labels_registered_iff`), and among them the key determines the
labels (`labels_eq_iff_of_dotted`).
-/

namespace AcmeChampion

open Text Wire

def labelsOf (name : String) : List Label := (utf8 name).splitOn 46

theorem mem_lowered_dot {l : Label} : 46 ∈ lowered l ↔ 46 ∈ l := by
  rw [lowered, List.mem_map]
  simp [toAsciiLowercase_eq_dot]

theorem not_mem_of_eq_labelsOf {name : String} {ls : List Label}
    (h : ls.map lowered = (labelsOf name).map lowered) : ∀ l ∈ ls, 46 ∉ l := by
  intro l hl hdot
  have hsplit : lowered l ∈ (labelsOf name).map lowered := h ▸ List.mem_map_of_mem hl
  obtain ⟨k, hk, hlow⟩ := List.mem_map.1 hsplit
  rw [← mem_lowered_dot, ← hlow, mem_lowered_dot] at hdot
  exact not_mem_of_mem_splitOn hk hdot

theorem eq_labelsOf {name : String} {ls : List Label} (hls : ls ≠ [])
    (h : lowered (utf8 name) = lowered (dotted ls)) (hdot : ∀ l ∈ ls, 46 ∉ l) :
    ls.map lowered = (labelsOf name).map lowered := by
  have hsplit : (labelsOf name).map lowered = (dotted (ls.map lowered)).splitOn 46 := by
    rw [← lowered_dotted, ← h]
    exact (splitOn_map toAsciiLowercase_eq_dot (utf8 name)).symm
  rw [hsplit, dotted]
  refine (List.splitOn_intercalate 46 ?_ (by simpa using hls)).symm
  simpa [mem_lowered_dot] using hdot

/-- An answer of the store's types is about a stored challenge. -/
theorem exists_registered_of_answer {m : List UInt8} {ips : ServerIps} {cs : Challenges}
    {ls : List Label} {t c : UInt16} {r : Response} (hasks : Asks m ls t c)
    (hr : buildResponse m ips cs = .ok (some r))
    (ha : ∃ a ∈ r.answers, a.queryType.fromStore) :
    ls ≠ [] ∧ ∃ ch ∈ cs.list, lowered (utf8 ch.name) = lowered (dotted ls) := by
  obtain ⟨a, hmem, hstore⟩ := ha
  obtain ⟨ls', t', c', h, hacme, heq⟩ := answers_eq hr (List.ne_nil_of_mem hmem)
  obtain ⟨rfl, -⟩ := hasks.unique h.asks
  refine ⟨?_, ?_⟩
  · rintro rfl
    simp [Query.startsAcmeChallenge] at hacme
  · have hne := List.ne_nil_of_mem hmem
    rw [heq, Ne, answersFor_eq_nil_iff] at hne
    rw [heq, answersFor, List.mem_map] at hmem
    obtain ⟨value, -, rfl⟩ := hmem
    cases t' <;> simp_all [SourceEmpty, ValidQueryType.fromStore]

theorem labels_eq_iff_of_dotted {ls ls' : List Label} (hne : ∀ l ∈ ls, l ≠ [])
    (hne' : ∀ l ∈ ls', l ≠ []) (hkey : dotted ls = dotted ls') (hdot : ∀ l ∈ ls, 46 ∉ l) :
    ls = ls' ↔ ∀ l ∈ ls', 46 ∉ l := by
  refine ⟨fun h => h ▸ hdot, fun hdot' => ?_⟩
  by_cases hnil : ls = [] <;> by_cases hnil' : ls' = []
  · rw [hnil, hnil']
  · exact absurd (hkey.symm.trans (by rw [hnil]; rfl)) (dotted_ne_nil hnil' hne')
  · exact absurd (hkey.trans (by rw [hnil']; rfl)) (dotted_ne_nil hnil hne)
  · exact intercalate_inj hnil hnil' hdot hdot' hkey

/-- An answer from the store is about a challenge whose name splits into the question's labels, in
any letter case, exactly when no label holds a dot; and of two names with one key, the first without
dots in its labels, they are the same exactly when the second has none either.  The labels are those
that the parser reads and the response echoes. -/
theorem labels_registered_iff {m : List UInt8} {ls : List Label} {t c : UInt16}
    (hasks : Asks m ls t c) :
    (∀ ips cs r, buildResponse m ips cs = .ok (some r) →
      (∃ a ∈ r.answers, a.queryType.fromStore) →
        ((∃ ch ∈ cs.list, ls.map lowered = (labelsOf ch.name).map lowered) ↔
          ∀ l ∈ ls, 46 ∉ l)) ∧
    (∀ m' ls' t' c' q q' e e', Asks m' ls' t' c' →
      Query.fromBytes m QueryHeader.length = .ok (.ok (q, e)) →
      Query.fromBytes m' QueryHeader.length = .ok (.ok (q', e')) →
      q.queryNameString = q'.queryNameString → (∀ l ∈ ls, 46 ∉ l) →
        (ls = ls' ↔ ∀ l ∈ ls', 46 ∉ l)) := by
  constructor
  · intro ips cs r hr ha
    obtain ⟨hne, ch, hch, hname⟩ := exists_registered_of_answer hasks hr ha
    exact ⟨fun ⟨_, _, h⟩ => not_mem_of_eq_labelsOf h, fun h => ⟨ch, hch, eq_labelsOf hne hname h⟩⟩
  · intro m' ls' t' c' q q' e e' hasks' hq hq' hkey hdot
    obtain ⟨ks, hks, -, hnames⟩ := Query.fromBytes_ok_iff.1 ⟨e, hq⟩
    obtain ⟨ks', hks', -, hnames'⟩ := Query.fromBytes_ok_iff.1 ⟨e', hq'⟩
    obtain ⟨rfl, -⟩ := hasks.unique hks
    obtain ⟨rfl, -⟩ := hasks'.unique hks'
    refine labels_eq_iff_of_dotted hasks.ne_nil hasks'.ne_nil ?_ hdot
    rw [← hnames.key, ← hnames'.key, hkey]

def hostQuery : StandardMessage :=
  .plain ⟨[acmeChallengeLabel, utf8 "host"], by decide +kernel⟩ txtType (by decide +kernel)

theorem labels_registered_host :
    (∃ ch ∈ [(⟨"host", "_acme-challenge.HOST", "v"⟩ : Challenge)],
      hostQuery.name.labels.map lowered = (labelsOf ch.name).map lowered) ↔
        ∀ l ∈ hostQuery.name.labels, 46 ∉ l := by
  obtain ⟨r, hr, hout⟩ := hostQuery.exists_response ⟨none, none⟩
    ⟨[⟨"host", "_acme-challenge.HOST", "v"⟩]⟩
  have hval : outcome hostQuery.name.labels hostQuery.queryType ⟨none, none⟩
      ⟨[⟨"host", "_acme-challenge.HOST", "v"⟩]⟩
        = (.noError, [⟨hostQuery.name.octets, .txt, [1, 118]⟩]) := by decide +kernel
  obtain ⟨-, hanswers⟩ := Prod.mk.inj (hout.trans hval)
  exact (labels_registered_iff hostQuery.asks).1 _ _ r hr (by rw [hanswers]; decide)

def dottedQuery : StandardMessage :=
  .plain ⟨[acmeChallengeLabel, utf8 "a.b"], by decide +kernel⟩ txtType (by decide +kernel)

/-- A name of two labels, the second with a dot, is answered for a registered name of three. -/
theorem labels_registered_dotted : ∃ r,
    Asks dottedQuery.toBytes dottedQuery.name.labels txtType inClass ∧
      buildResponse dottedQuery.toBytes ⟨none, none⟩
        ⟨[⟨"a.b", "_acme-challenge.a.b", "v"⟩]⟩ = .ok (some r) ∧
      (∃ a ∈ r.answers, a.queryType.fromStore) ∧
      ¬ ∃ ch ∈ [(⟨"a.b", "_acme-challenge.a.b", "v"⟩ : Challenge)],
        dottedQuery.name.labels.map lowered = (labelsOf ch.name).map lowered := by
  obtain ⟨r, hr, hout⟩ := dottedQuery.exists_response ⟨none, none⟩
    ⟨[⟨"a.b", "_acme-challenge.a.b", "v"⟩]⟩
  have hval : outcome dottedQuery.name.labels dottedQuery.queryType ⟨none, none⟩
      ⟨[⟨"a.b", "_acme-challenge.a.b", "v"⟩]⟩
        = (.noError, [⟨dottedQuery.name.octets, .txt, [1, 118]⟩]) := by decide +kernel
  obtain ⟨-, hanswers⟩ := Prod.mk.inj (hout.trans hval)
  exact ⟨r, dottedQuery.asks, hr, by rw [hanswers]; decide, by decide +kernel⟩

end AcmeChampion
