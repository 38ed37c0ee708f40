import AcmeChampion.Dns.Response

/-!
# What a message is answered with

`responseForMessage` decides whether a message is dropped, answered at once, or looked up.
-/

namespace AcmeChampion

inductive ReadMessageResult
  | process (response : Response) (queryName : List UInt8) (queryType : ValidQueryType)
      (challengeKey : String)
  | earlyExit (response : Response)
  | dontRespond
  deriving DecidableEq

def validQueryType (queryType : UInt16) : Option ValidQueryType :=
  if queryType = aType then some .a
  else if queryType = txtType then some .txt
  else if queryType = soaType then some .soa
  else if queryType = nsType then some .ns
  else if queryType = aaaaType then some .aaaa
  else none

def responseForMessage (bytes : List UInt8) : Checked ReadMessageResult := do
  match ← QueryHeader.fromBytes bytes with
  | .error .tooShort => return .dontRespond
  | .ok header =>
    let response := Response.new header
    if header.messageType = .reply then
      return .dontRespond
    if header.opcode ≠ .standard then
      return .earlyExit { response with rcode := .refused }
    if header.numQuestions ≠ 1 then
      return .earlyExit { response with rcode := .formErr }
    match ← Query.fromBytes bytes QueryHeader.length with
    | .error _ => return .earlyExit { response with rcode := .formErr }
    | .ok (query, _) =>
      let response := { response with query := some query }
      match validQueryType query.queryType with
      | none => return .earlyExit { response with rcode := .refused }
      | some queryType =>
        if ¬ query.isAcmeChallenge then
          return .earlyExit { response with rcode := .refused }
        return .process response query.queryNameBytes queryType query.queryNameString

end AcmeChampion
