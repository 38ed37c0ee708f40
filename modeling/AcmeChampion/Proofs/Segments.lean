import AcmeChampion.Proofs.HeaderCase

/-!
# A request in several segments

The handler reads the stream once.  A request that arrives in pieces is answered as it is in one
read exactly when its head is in the first piece, or it is refused as a bad request anyway
(`servedAlike_segmented_iff`).
-/

namespace AcmeChampion

open Text

variable {ε π : Type}

/-- The parser takes the head for `req` whatever follows it, and asks for more of a part of it. -/
structure Parses (parse : List UInt8 → Except π (Status × Request)) (head : List UInt8)
    (req : Request) : Prop where
  whole : ∀ body, parse (head ++ body) = .ok (.complete head.length, req)
  part : ∀ pre, pre <+: head → pre ≠ head → ∃ req', parse pre = .ok (.incomplete, req')

theorem parses_parseAmong (req : Request) : Parses (parseAmong [req]) req.head req := by
  refine ⟨fun body => ?_, fun pre hpre hne => ?_⟩
  · have hhead : req.head.isPrefixOf (req.head ++ body) = true :=
      List.isPrefixOf_iff_prefix.2 (List.prefix_append _ _)
    unfold parseAmong
    simp only [List.find?_cons, hhead]
  · have hshort : req.head.isPrefixOf pre = false := by
      refine Bool.eq_false_iff.2 fun h => hne ?_
      exact hpre.eq_of_length_le (List.isPrefixOf_iff_prefix.1 h).length_le
    have hpart : pre.isPrefixOf req.head = true := List.isPrefixOf_iff_prefix.2 hpre
    unfold parseAmong
    simp only [List.find?_cons, hshort, List.find?_nil, List.any_cons, hpart, Bool.true_or, if_true]
    exact ⟨_, rfl⟩

/-- The reads of the stream return these pieces, and then nothing. -/
def Stream.Delivers (stream : Stream ε) (chunks : List (List UInt8)) : Prop :=
  stream.reads = chunks.map .ok

theorem Stream.Delivers.read {stream : Stream ε} {chunks : List (List UInt8)} {len : ℕ}
    (h : stream.Delivers chunks) (hlen : chunks.flatten.length ≤ len) :
    (stream.read len).1 = .ok (chunks.headD []) := by
  unfold Stream.Delivers at h
  unfold Stream.read
  rw [h]
  cases chunks with
  | nil => rfl
  | cons chunk chunks =>
    have hchunk : chunk.length ≤ len := by
      simp only [List.flatten_cons, List.length_append] at hlen
      omega
    simp only [List.map_cons, if_pos hchunk]
    rfl

theorem headD_prefix_flatten (chunks : List (List UInt8)) : chunks.headD [] <+: chunks.flatten := by
  cases chunks with
  | nil => exact List.prefix_rfl
  | cons chunk chunks => exact List.prefix_append chunk chunks.flatten

section Pieces

variable {parse : List UInt8 → Except π (Status × Request)} {head body : List UInt8} {req : Request}
  {stream : Stream ε} {chunks : List (List UInt8)} {len : ℕ}

theorem receives_of_prefix (hparse : Parses parse head req) (h : stream.Delivers chunks)
    (hlen : chunks.flatten.length ≤ len) (hhead : head <+: chunks.headD []) :
    Receives parse stream len req := by
  obtain ⟨rest, hrest⟩ := hhead
  refine ⟨head ++ rest, head.length, ?_, hparse.whole rest⟩
  rw [h.read hlen, hrest]

/-- When the first read brings only a part of the head, the request is refused. -/
theorem handleHttp_of_part (hparse : Parses parse head req) (h : stream.Delivers chunks)
    (hlen : chunks.flatten.length ≤ len) (hbytes : chunks.flatten = head ++ body)
    (hhead : ¬ head <+: chunks.headD []) (cs : Challenges) :
    ∃ served, handleHttp parse stream len cs = .ok served ∧
      Leaves served stream [.badRequest] cs := by
  have hfirst : chunks.headD [] <+: head := by
    refine (List.prefix_or_prefix_of_prefix ?_ (List.prefix_append head body)).resolve_right hhead
    exact hbytes ▸ headD_prefix_flatten chunks
  have hne : chunks.headD [] ≠ head := fun h => hhead (h ▸ List.prefix_rfl)
  obtain ⟨req', hpart⟩ := hparse.part _ hfirst hne
  exact handleHttp_of_incomplete (h.read hlen) hpart cs

end Pieces

/-- A request that arrives in pieces is answered, and leaves the store, as in one read exactly when
the first piece holds its head or the answer is 400 in either case. -/
theorem servedAlike_segmented_iff {ε π : Type} {parse : List UInt8 → Except π (Status × Request)}
    {head body : List UInt8} {req : Request} {stream stream' : Stream ε}
    {chunks : List (List UInt8)} {len : ℕ} (hparse : Parses parse head req)
    (hbytes : chunks.flatten = head ++ body) (hlen : (head ++ body).length ≤ len)
    (h : stream.Delivers chunks) (h' : stream'.Delivers [head ++ body])
    (hwritten : stream.written = stream'.written) (cs : Challenges) :
    ServedAlike (handleHttp parse stream len cs) (handleHttp parse stream' len cs) ↔
      head <+: chunks.headD [] ∨ req.Declined .badRequest := by
  have hlen' : [head ++ body].flatten.length ≤ len := by simpa using hlen
  have hone : Receives parse stream' len req :=
    receives_of_prefix hparse h' hlen' (List.prefix_append head body)
  rw [← hbytes] at hlen
  by_cases hhead : head <+: chunks.headD []
  · refine iff_of_true ?_ (.inl hhead)
    have hfirst := receives_of_prefix hparse h hlen hhead
    rcases performs_or_declined req with ⟨op, hop⟩ | ⟨status, hdecl⟩
    · exact servedAlike_of_performs hfirst hone hwritten hop hop cs rfl rfl
    · exact servedAlike_of_declined hfirst hone hwritten hdecl hdecl cs
  · obtain ⟨served, hserved, hleaves⟩ := handleHttp_of_part hparse h hlen hbytes hhead cs
    rw [hserved]
    constructor
    · rintro ⟨s, s', hs, hs', hsw, -⟩
      obtain rfl := Except.ok.inj hs
      rcases performs_or_declined req with ⟨op, hop⟩ | ⟨status, hdecl⟩
      · obtain ⟨served', hserved', hleaves'⟩ := handleHttp_of_performs hone hop cs
        obtain rfl := Except.ok.inj (hserved'.symm.trans hs')
        have hstatus := hleaves.status_eq hleaves' hwritten hsw
        cases op <;> simp [StoreOp.status] at hstatus
      · obtain ⟨served', hserved', hleaves'⟩ := handleHttp_of_declined hone hdecl cs
        obtain rfl := Except.ok.inj (hserved'.symm.trans hs')
        rw [hleaves.status_eq hleaves' hwritten hsw]
        exact .inr hdecl
    · intro hdecl
      obtain ⟨served', hserved', hleaves'⟩ :=
        handleHttp_of_declined hone (hdecl.resolve_left hhead) cs
      rw [hserved']
      exact hleaves.servedAlike hleaves' hwritten

section Split

/-- The head of `postRequest` in two pieces, the first of them the request line. -/
def headPieces : List (List UInt8) := [postRequest.head.take 27, postRequest.head.drop 27]

theorem flatten_headPieces : headPieces.flatten = postRequest.head := by simp [headPieces]

theorem servedAlike_segmented_iff_headPieces :
    ServedAlike
        (handleHttp (parseAmong [postRequest]) (connection headPieces) bufLen Challenges.new)
        (handleHttp (parseAmong [postRequest]) (connection [postRequest.head ++ []]) bufLen
          Challenges.new) ↔
      postRequest.head <+: headPieces.headD [] ∨ postRequest.Declined .badRequest := by
  have hpieces : (connection headPieces).Delivers headPieces := rfl
  have hwhole : (connection [postRequest.head ++ []]).Delivers [postRequest.head ++ []] := rfl
  have hlen : (postRequest.head ++ []).length ≤ bufLen := by decide +kernel
  exact servedAlike_segmented_iff (parses_parseAmong postRequest)
    (by rw [flatten_headPieces, List.append_nil]) hlen hpieces hwhole rfl Challenges.new

/-- In one read the registration is stored, and in two it is refused. -/
theorem handleHttp_headPieces : headPieces.flatten = postRequest.head ∧
    ∃ served served',
      handleHttp (parseAmong [postRequest]) (connection [postRequest.head]) bufLen Challenges.new =
        .ok served ∧
      handleHttp (parseAmong [postRequest]) (connection headPieces) bufLen Challenges.new =
        .ok served' ∧
      served.stream.written = [responseText .created] ∧
      served.challenges.list = [⟨"d", "n", "v"⟩] ∧
      served'.stream.written = [responseText .badRequest] ∧ served'.challenges.list = [] := by
  have hlen : postRequest.head.length ≤ bufLen := by decide +kernel
  have hparse := parses_parseAmong postRequest
  have hone : Receives (parseAmong [postRequest]) (connection [postRequest.head]) bufLen
      postRequest := by
    have hwhole : (connection [postRequest.head]).Delivers [postRequest.head] := rfl
    refine receives_of_prefix hparse hwhole ?_ List.prefix_rfl
    simpa using hlen
  obtain ⟨served, hserved, hleaves⟩ :=
    handleHttp_of_performs hone performs_postRequest Challenges.new
  have hsplit : headPieces.flatten = postRequest.head ++ [] := by
    rw [flatten_headPieces, List.append_nil]
  have hpieces : (connection headPieces).Delivers headPieces := rfl
  obtain ⟨served', hserved', hleaves'⟩ := handleHttp_of_part hparse hpieces
    (flatten_headPieces ▸ hlen) hsplit (by decide +kernel) Challenges.new
  refine ⟨flatten_headPieces, served, served', hserved, hserved', hleaves.written, ?_,
    hleaves'.written, ?_⟩
  · rw [hleaves.challenges]
    rfl
  · rw [hleaves'.challenges]
    rfl

end Split

end AcmeChampion
