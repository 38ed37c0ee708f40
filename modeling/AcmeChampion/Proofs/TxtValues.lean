import AcmeChampion.Dns.Response
import AcmeChampion.Lib.Wire
import AcmeChampion.Proofs.Http

/-!
# The data of a TXT answer

The data of a TXT answer is one length octet and the value.  It reads back as the value exactly when
the length fits the octet (`addTxtAnswer_reads_iff`), while a registration takes values of any
length.
-/

namespace AcmeChampion

open Bytes Text Wire

/-- The data of a record whose name has `nameLen` octets, as its length field delimits it. -/
def rdataOf (nameLen : ℕ) (octets : List UInt8) : List UInt8 :=
  (octets.drop (nameLen + 10)).take (fromBigEndian ((octets.drop (nameLen + 8)).take 2))

theorem rdataOf_toBytes (a : Answer) :
    rdataOf a.name.length a.toBytes = a.value.take (a.value.length % 2 ^ 16) := by
  have hlen : a.toBytes.drop (a.name.length + 8) = bigEndian 2 a.value.length ++ a.value := by
    rw [Answer.toBytes, u16ToBeBytes_ofNat, List.append_assoc, List.append_assoc, List.append_assoc,
      List.append_assoc, ← List.drop_drop, List.drop_left]
    rfl
  have hval : a.toBytes.drop (a.name.length + 10) = a.value := by
    rw [show a.name.length + 10 = a.name.length + 8 + 2 from rfl, ← List.drop_drop, hlen]
    rfl
  have hfield : (bigEndian 2 a.value.length ++ a.value).take 2 = bigEndian 2 a.value.length := rfl
  unfold rdataOf
  rw [hval, hlen, hfield, fromBigEndian_bigEndian]
  rfl

/-- The data reads as character strings that are the value, one after the other. -/
def ReadsAs (data : List UInt8) (value : String) : Prop :=
  ∃ ss, charStrings data = some ss ∧ ss.flatten = utf8 value

/-- A length octet and the value read back when the octet is the length, and only then. -/
theorem readsAs_iff (value : String) :
    ReadsAs ((UInt8.ofNat (utf8 value).length :: utf8 value).take
      (((utf8 value).length + 1) % 2 ^ 16)) value ↔ (utf8 value).length ≤ 255 := by
  constructor
  · rintro ⟨ss, hss, hflat⟩
    obtain ⟨hoctets, hlt⟩ := charStringOctets_of_charStrings hss
    have hlen := congrArg List.length hoctets
    rw [length_charStringOctets, hflat, List.length_take, List.length_cons] at hlen
    match ss with
    | [] => simp [← hflat]
    | [s] =>
      have hs := hlt s List.mem_cons_self
      rw [← hflat, List.flatten_singleton]
      omega
    | s :: t :: ss =>
      simp only [List.length_cons] at hlen
      omega
  · intro hle
    rw [Nat.mod_eq_of_lt (by omega), ← List.length_cons, List.take_length]
    refine ⟨[utf8 value], ?_, List.flatten_singleton⟩
    have hread := charStrings_octets [utf8 value] fun s hs => by
      rw [List.mem_singleton.1 hs]
      omega
    rwa [charStringOctets, charStringOctets, List.append_nil] at hread

theorem readsAs_txtAnswer_iff (name : List UInt8) (value : String) :
    ReadsAs (rdataOf name.length
      (Answer.toBytes ⟨name, .txt, UInt8.ofNat (utf8 value).length :: utf8 value⟩)) value ↔
        (utf8 value).length ≤ 255 := by
  have hdata := rdataOf_toBytes ⟨name, .txt, UInt8.ofNat (utf8 value).length :: utf8 value⟩
  simp only [List.length_cons] at hdata
  rw [hdata]
  exact readsAs_iff value

/-- The answer built for a value carries it intact exactly when it has at most 255 bytes. -/
theorem addTxtAnswer_reads_iff (r : Response) (name : List UInt8) (value : String) :
    ∃ a, (r.addTxtAnswer name value).answers = r.answers ++ [a] ∧
      (ReadsAs (rdataOf name.length a.toBytes) value ↔ (utf8 value).length ≤ 255) :=
  ⟨_, rfl, readsAs_txtAnswer_iff name value⟩

section LongValue

/-- A value of 256 bytes. -/
def longValue : String := String.ofList (List.replicate 256 'v')

def longValueRequest : Request where
  method := some "POST"
  path := some "/register/d"
  headers := [⟨"X-ACME-Challenge-Name", utf8 "n"⟩, ⟨"X-ACME-Challenge-Value", utf8 longValue⟩]

/-- The value is registered, and the answer's data does not read back as it. -/
theorem not_reads_longValue :
    ∃ served, handleHttp (parseAmong [longValueRequest]) (connection [longValueRequest.head]) bufLen
      Challenges.new = .ok served ∧ served.challenges.named "n" = [longValue] ∧
    ∀ (r : Response) (name : List UInt8), ∃ a,
      (r.addTxtAnswer name longValue).answers = r.answers ++ [a] ∧
        ¬ ReadsAs (rdataOf name.length a.toBytes) longValue := by
  have hlen : (utf8 longValue).length = 256 := by decide +kernel
  have hpost : longValueRequest.Performs (.set ⟨"d", "n", longValue⟩) :=
    ⟨rfl, ⟨"d", rfl, by decide⟩, ⟨"n", rfl, by decide⟩, by decide +kernel⟩
  have hreceives : Receives (parseAmong [longValueRequest]) (connection [longValueRequest.head])
      bufLen longValueRequest :=
    receives_connection longValueRequest.head.length (by decide +kernel) (by decide +kernel)
  obtain ⟨served, hserved, hleaves⟩ := handleHttp_of_performs hreceives hpost Challenges.new
  refine ⟨served, hserved, ?_, fun r name => ⟨_, rfl, fun hreads => ?_⟩⟩
  · rw [hleaves.challenges]
    decide +kernel
  · have hle := (readsAs_txtAnswer_iff name longValue).1 hreads
    omega

end LongValue

end AcmeChampion
