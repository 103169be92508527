import Vitals.Proofs.Endpoint
import Vitals.Proofs.Server
import Vitals.Query

/-!
# A query reads what the server shows

The client and the server of the stats fit together. What the client sends is asked at the path
of reads (`path_question`), is not blank, and is read by the server as the request that was sent
(`Server.read_ofText`) ; what the server sends back is read by the client as the response
(`decode_json`). So a query gives what a read on the spot gives, as long as the server takes a
body of that length, and leaves what is published as it is (`query_server`).
-/

namespace Vitals

open Http

/-! ## The question -/

/-- A request is written as an object, so it is not blank. -/
theorem ReadRequest.not_blank_text (request : ReadRequest) :
    ¬Server.Blank (Utf8.encode (ReadRequest.codec.text request)) := by
  have hbytes : Utf8.encode (ReadRequest.codec.text request) =
      ReadRequest.codec.written request := Utf8.encode_ofList _
  intro hblank
  rw [hbytes, show ReadRequest.codec.written request = _ from Json.bytes_object _] at hblank
  exact absurd (hblank _ List.mem_cons_self) (by decide)

/-- A server takes a body that is not blank for the request that it writes, unless the body is
too long. -/
theorem Server.read_ofText {text : String} {request : ReadRequest} (published : Published)
    (limit : Nat) (hblank : ¬Blank (Utf8.encode text))
    (hparse : ReadRequest.codec.parse (Utf8.encode text) = .ok request) :
    read published limit (.ofText text) =
      if (Utf8.encode text).length ≤ 65536 then
        json .ok (ReadResponse.codec.toJson (published.read limit request))
      else plain .payloadTooLarge "request body exceeds 65536 bytes" := by
  split_ifs with hsize
  · exact read_of_parse hsize rfl hblank hparse
  · exact read_of_lt (Nat.lt_of_not_le hsize)

theorem url_queryQuestion (address : String) (request : ReadRequest) :
    (queryQuestion address request).url = Endpoint.read address := by
  rw [queryQuestion, Question.postJson]

/-- The query of a URL and its fragment are no part of the path, and here there is neither. -/
theorem path_question {url : Url} (htarget : url.target = "/stats/read") (question : Question) :
    (question.request url).path = "/stats/read" := by
  have hrequest : (question.request url).target = "/stats/read" := htarget
  rw [Request.path, hrequest]
  decide

/-! ## The answer -/

theorem ask_eq {network : Network} {question : Question} {url : Url} {response : Response}
    (hurl : askable question.url = .ok url)
    (hanswer : network url (question.request url) = .answered response) :
    ask network question = .ok response := by
  simp only [ask, hurl, bind, Except.bind, hanswer]
  rfl

/-- What a client makes of an answer of the stats server. -/
theorem query_of_answer {network : Network} {address : String} {request : ReadRequest}
    {response : Response} (hask : ask network (queryQuestion address request) = .ok response) :
    query network address request =
      if response.status.isSuccess then
        (response.decode ReadResponse.codec.parse).mapError .undecodable
      else .error (.refused response.status (String.ofList (trim response.detail.toList))) := by
  unfold query
  rw [hask]

/-- The response that an answer carries is read back. -/
theorem decode_json (read : ReadResponse) :
    (Server.json .ok (ReadResponse.codec.toJson read)).decode ReadResponse.codec.parse =
      .ok read := by
  have hparse : ReadResponse.codec.parse
      (Server.json .ok (ReadResponse.codec.toJson read)).body.bytes = .ok read :=
    ReadResponse.faithful_codec.parse_text read
  simp only [Response.decode, hparse]
  rfl

/-- The text of the answer to a body that is too long is taken as it is. -/
theorem trim_detail_tooLong :
    String.ofList (trim (Server.plain .payloadTooLarge
      "request body exceeds 65536 bytes").detail.toList) = "request body exceeds 65536 bytes" := by
  decide +kernel

/-! ## The query -/

/-- A query to a server that is asked at the path of reads. -/
theorem query_of_target {published : Published} {limit : Nat} {network : Network} {url : Url}
    {address : String} (htarget : url.target = "/stats/read")
    (hurl : askable (Endpoint.read address) = .ok url)
    (hserver : ∀ request, network url request = .answered (Server.handle published limit request))
    (request : ReadRequest) :
    query network address request =
      if (Utf8.encode (ReadRequest.codec.text request)).length ≤ 65536 then
        .ok (published.read limit request)
      else .error (.refused .payloadTooLarge "request body exceeds 65536 bytes") := by
  have hpath := path_question htarget (queryQuestion address request)
  have hanswer := hserver ((queryQuestion address request).request url)
  rw [Server.handle_read published limit hpath rfl] at hanswer
  have hbody : ((queryQuestion address request).request url).body =
      .ofText (ReadRequest.codec.text request) := rfl
  rw [← url_queryQuestion address request] at hurl
  rw [query_of_answer (ask_eq hurl hanswer), hbody, Server.read_ofText published limit
    request.not_blank_text (ReadRequest.faithful_codec.parse_text request)]
  by_cases hsize : (Utf8.encode (ReadRequest.codec.text request)).length ≤ 65536
  · simp only [if_pos hsize]
    rw [decode_json]
    rfl
  · simp only [if_neg hsize, trim_detail_tooLong]
    rfl

theorem parse_of_askable {text : String} {url : Url} (h : askable text = .ok url) :
    Url.parse text = .ok url := by
  unfold askable at h
  cases hparse : Url.parse text with
  | error fault => simp [hparse] at h
  | ok parsed =>
    simp only [hparse] at h
    split_ifs at h
    rw [Except.ok.inj h]

/-- A query to the host at which a server answers gives what a read on the spot gives, if the
JSON of the request has at most 65536 bytes, and the refusal of the server otherwise. Neither
changes what is published. -/
theorem query_server {published : Published} {limit : Nat} {network : Network} {host : List Char}
    {address : String} {url : Url} (haddress : Endpoint.IsAddressOf host address)
    (hurl : askable (Endpoint.read address) = .ok url)
    (hserver : ∀ request, network url request = .answered (Server.handle published limit request))
    (service version : Option String) (past : Bool) :
    let request := ReadRequest.ofArguments service version past
    query network address request =
      (if (Utf8.encode (ReadRequest.codec.text request)).length ≤ 65536 then
        .ok (published.read limit request)
      else .error (.refused .payloadTooLarge "request body exceeds 65536 bytes")) ∧
    (Server.serve limit published
      [.request ((queryQuestion address request).request url)]).1 = published := by
  intro request
  have htarget := Endpoint.target_read haddress (parse_of_askable hurl)
  exact ⟨query_of_target htarget hurl hserver request, rfl⟩

/-- A server on the loopback interface that is asked for the history of a service. -/
theorem query_server_loopback :
    let published := (Published.ofWindow 2).publish
      [{ service := { name := "orders" } }, { service := { name := "users" } }]
    query (Server.network published 8) "http://127.0.0.1:8089/"
        (ReadRequest.ofArguments (some "orders") none true) =
      .ok { stats := [{ service := { name := "orders" } }] } := by
  intro published
  have haddress : Endpoint.IsAddressOf "127.0.0.1:8089".toList "http://127.0.0.1:8089/" :=
    ⟨⟨by decide, List.all_iff_forall_prop.1 (by decide)⟩, "http://".toList, by decide, 1,
      by decide⟩
  have hurl : askable (Endpoint.read "http://127.0.0.1:8089/") =
      .ok { scheme := "http", host := some "127.0.0.1", port := some 8089,
            path := "/stats/read" } := by decide +kernel
  have hserver (url : Url) (request : Request) : Server.network published 8 url request =
      .answered (Server.handle published 8 request) := rfl
  have hsize : (Utf8.encode (ReadRequest.codec.text
      (ReadRequest.ofArguments (some "orders") none true))).length ≤ 65536 := by decide +kernel
  have hread : published.read 8 (ReadRequest.ofArguments (some "orders") none true) =
      { stats := [{ service := { name := "orders" } }] } := by decide +kernel
  have hquery := (query_server haddress hurl (hserver _) (some "orders") none true).1
  rw [if_pos hsize, hread] at hquery
  exact hquery

end Vitals
