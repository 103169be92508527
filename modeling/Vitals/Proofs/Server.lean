import Vitals.Proofs.Wire.Json
import Vitals.Server

/-!
# What the stats server answers

The five paths that the server knows are `/stats/read`, `/stats/write`, `/stats/stream`,
`/health` and `/healthz`. Only a read looks at the body of a request, and it does so in an
order : first how long the body is, then whether all of it arrived, then whether it is blank, and
only then what it writes (`answersRead_read`). `answers` says what comes of every method and
path. Requests change nothing : whatever they are, and whatever is published between them, what
the server shows is the work of the scrapes alone (`serve_fst`), and each request is answered out
of the batches that were published before it (`serve_request_snd`).
-/

namespace Vitals.Server

open Http

/-! ## Bodies of reads -/

/-- The body consists of spaces, tabs, line feeds, form feeds and carriage returns, or is
empty. -/
def Blank (body : List UInt8) : Prop := ∀ b ∈ body, b ∈ [0x20, 0x09, 0x0a, 0x0c, 0x0d]

theorem all_isAsciiBlank_iff {body : List UInt8} : body.all isAsciiBlank ↔ Blank body := by
  simp [Blank, isAsciiBlank, or_assoc]

/-- The response carries what a read gives, and a reader of the response gets that back. -/
structure Gives (published : Published) (limit : Nat) (request : ReadRequest)
    (response : Response) : Prop where
  status : response.status = .ok
  body : response.body = .ofText (ReadResponse.codec.text (published.read limit request))
  readBack : ReadResponse.codec.parse response.body.bytes = .ok (published.read limit request)

/-- The answer that carries what a read gives. -/
theorem gives_json (published : Published) (limit : Nat) (request : ReadRequest) :
    Gives published limit request
      (json .ok (ReadResponse.codec.toJson (published.read limit request))) where
  status := rfl
  body := rfl
  readBack := ReadResponse.faithful_codec.parse_text _

/-- What a body that is sent to be read has to be answered with. -/
structure AnswersRead (published : Published) (limit : Nat) (body : Body) (response : Response) :
    Prop where
  tooLarge : response.status = .payloadTooLarge ↔ 65536 < body.bytes.length
  blank (hsize : body.bytes.length ≤ 65536) (harrived : body.complete) (hblank : Blank body.bytes) :
    Gives published limit {} response
  parsed (hsize : body.bytes.length ≤ 65536) (harrived : body.complete)
    (hblank : ¬Blank body.bytes) (request : ReadRequest)
    (hparse : ReadRequest.codec.parse body.bytes = .ok request) :
    Gives published limit request response
  other (hsize : body.bytes.length ≤ 65536) (hother : ¬body.complete ∨
    ¬Blank body.bytes ∧ ∀ request, ReadRequest.codec.parse body.bytes ≠ .ok request) :
    response.status = .badRequest

variable {published : Published} {limit : Nat}

/-- The size is looked at before anything else. -/
theorem read_of_lt {body : Body} (hsize : 65536 < body.bytes.length) :
    read published limit body = plain .payloadTooLarge "request body exceeds 65536 bytes" := by
  have hlong : maxBody < body.bytes.length := hsize
  rw [read, readBody, if_pos hlong]
  rfl

/-- A body of blanks alone asks for all that is current. -/
theorem read_of_blank {body : Body} (hsize : body.bytes.length ≤ 65536) (harrived : body.complete)
    (hblank : Blank body.bytes) :
    read published limit body = json .ok (ReadResponse.codec.toJson (published.read limit {})) := by
  have hall := all_isAsciiBlank_iff.2 hblank
  simp [read, readBody, maxBody, Nat.not_lt.2 hsize, harrived, hall]

/-- A request that parses is answered with what it asks for. -/
theorem read_of_parse {body : Body} (hsize : body.bytes.length ≤ 65536) (harrived : body.complete)
    (hblank : ¬Blank body.bytes) {request : ReadRequest}
    (hparse : ReadRequest.codec.parse body.bytes = .ok request) :
    read published limit body =
      json .ok (ReadResponse.codec.toJson (published.read limit request)) := by
  have hall := mt all_isAsciiBlank_iff.1 hblank
  simp [read, readBody, maxBody, Nat.not_lt.2 hsize, harrived, hall, hparse]

/-- Whatever else there is in a body of moderate size is a bad request. -/
theorem status_read_of_other {body : Body} (hsize : body.bytes.length ≤ 65536)
    (hother : ¬body.complete ∨
      ¬Blank body.bytes ∧ ∀ request, ReadRequest.codec.parse body.bytes ≠ .ok request) :
    (read published limit body).status = .badRequest := by
  by_cases harrived : body.complete
  · obtain ⟨hblank, hparse⟩ := hother.resolve_left (not_not_intro harrived)
    have hall := mt all_isAsciiBlank_iff.1 hblank
    cases hread : ReadRequest.codec.parse body.bytes with
    | ok request => exact absurd hread (hparse request)
    | error fault =>
      simp [read, readBody, maxBody, Nat.not_lt.2 hsize, harrived, hall, hread, plain]
  · simp [read, readBody, maxBody, Nat.not_lt.2 hsize, harrived, plain]

theorem status_read_of_le {body : Body} (hsize : body.bytes.length ≤ 65536) :
    (read published limit body).status = .ok ∨
      (read published limit body).status = .badRequest := by
  by_cases harrived : body.complete
  · by_cases hblank : Blank body.bytes
    · rw [read_of_blank hsize harrived hblank]
      exact Or.inl rfl
    · by_cases hparse : ∃ request, ReadRequest.codec.parse body.bytes = .ok request
      · obtain ⟨request, hparse⟩ := hparse
        rw [read_of_parse hsize harrived hblank hparse]
        exact Or.inl rfl
      · exact Or.inr (status_read_of_other hsize (Or.inr ⟨hblank, not_exists.1 hparse⟩))
  · exact Or.inr (status_read_of_other hsize (Or.inl harrived))

theorem answersRead_read (published : Published) (limit : Nat) (body : Body) :
    AnswersRead published limit body (read published limit body) where
  tooLarge := by
    refine ⟨fun hstatus => ?_, fun hsize => congrArg Response.status (read_of_lt hsize)⟩
    by_contra hlong
    rcases status_read_of_le (Nat.not_lt.1 hlong) with hread | hread
    · exact absurd (hread.symm.trans hstatus) (by decide)
    · exact absurd (hread.symm.trans hstatus) (by decide)
  blank hsize harrived hblank := by
    rw [read_of_blank hsize harrived hblank]
    exact gives_json published limit {}
  parsed hsize harrived hblank request hparse := by
    rw [read_of_parse hsize harrived hblank hparse]
    exact gives_json published limit request
  other hsize hother := status_read_of_other hsize hother

/-! ## Methods and paths -/

/-- The path is one of the five that the server knows, or there is nothing at it. -/
theorem Route.ofPath?_eq_none {path : String} (h : path ∉ ["/stats/read", "/stats/write",
    "/stats/stream", "/health", "/healthz"]) : ofPath? path = none := by
  unfold ofPath?
  split <;> simp_all

theorem handle_read (published : Published) (limit : Nat) {request : Request}
    (hpath : request.path = "/stats/read") (hmethod : request.method = "POST") :
    handle published limit request = read published limit request.body := by
  simp [handle, Route.ofPath?, Route.method, hpath, hmethod]

/-! ## Requests one after another -/

/-- Something that happens to a server. -/
inductive Event where
  /-- A scrape publishes a batch. -/
  | scrape (batch : Batch)
  /-- A request arrives. -/
  | request (request : Request)

/-- What is published after some events, and the answers to the requests among them. -/
def serve (limit : Nat) : Published → List Event → Published × List Response
  | published, [] => (published, [])
  | published, .scrape batch :: events => serve limit (published.publish batch) events
  | published, .request request :: events =>
    let (after, responses) := serve limit published events
    (after, handle published limit request :: responses)

/-- The batches that are published by some events. -/
def scrapes (events : List Event) : List Batch :=
  events.filterMap fun
    | .scrape batch => some batch
    | .request _ => none

/-- What is published is the work of the scrapes, whatever is asked between them. -/
theorem serve_fst (limit : Nat) (published : Published) (events : List Event) :
    (serve limit published events).1 = (scrapes events).foldl Published.publish published := by
  induction events generalizing published with
  | nil => rfl
  | cons event events ih =>
    cases event with
    | scrape batch => exact ih _
    | request request => exact ih _

/-- The answers to what comes later are those over what has been published by then. -/
theorem serve_append_snd (limit : Nat) (published : Published) (before after : List Event) :
    (serve limit published (before ++ after)).2 = (serve limit published before).2 ++
      (serve limit ((scrapes before).foldl Published.publish published) after).2 := by
  induction before generalizing published with
  | nil => rfl
  | cons event before ih =>
    cases event with
    | scrape batch => exact ih _
    | request request => exact congrArg (handle published limit request :: ·) (ih _)

/-- A request is answered out of what was published before it. -/
theorem serve_request_snd (limit : Nat) (published : Published) (before after : List Event)
    (request : Request) :
    let shown := (scrapes before).foldl Published.publish published
    (serve limit published (before ++ .request request :: after)).2 =
      (serve limit published before).2 ++
        handle shown limit request :: (serve limit shown after).2 :=
  serve_append_snd limit published before (.request request :: after)

theorem scrapes_requests (requests : List Request) : scrapes (requests.map .request) = [] := by
  induction requests with
  | nil => rfl
  | cons request requests ih => exact ih

/-! ## Every request -/

/-- Reads are answered by size, blanks and content, the two requests that the service refuses by
the refusal whatever their body is, and the health of the server by a plain text; no other method
is allowed at these paths, and there is nothing at any other path. Requests leave what is
published as it is, and each is answered out of the batches that scrapes published before it. -/
theorem answers (published : Published) (limit : Nat) :
    (∀ request : Request, request.path = "/stats/read" → request.method = "POST" →
      AnswersRead published limit request.body (handle published limit request)) ∧
    (∀ (request : Request) (operation : String), (request.path, operation) ∈
        [("/stats/write", "write"), ("/stats/stream", "stream")] → request.method = "POST" →
      handle published limit request = json .badRequest (.object
        [("id", .text "go.micro.debug.stats"), ("code", .integer 400),
          ("detail", .text ("go.micro.debug.stats: " ++ operation ++ " not implemented")),
          ("status", .text "Bad Request")])) ∧
    (∀ request : Request, request.path ∈ ["/health", "/healthz"] → request.method = "GET" →
      (handle published limit request).status = .ok) ∧
    (∀ request : Request,
      request.path ∈ ["/stats/read", "/stats/write", "/stats/stream"] ∧ request.method ≠ "POST" ∨
        request.path ∈ ["/health", "/healthz"] ∧ request.method ≠ "GET" →
      (handle published limit request).status = .methodNotAllowed) ∧
    (∀ request : Request, request.path ∉
        ["/stats/read", "/stats/write", "/stats/stream", "/health", "/healthz"] →
      (handle published limit request).status = .notFound) ∧
    (∀ requests : List Request, (serve limit published (requests.map .request)).1 = published) ∧
    ∀ (before after : List Event) (request : Request),
      let shown := (scrapes before).foldl Published.publish published
      (serve limit published before).1 = shown ∧
        (serve limit published (before ++ .request request :: after)).2 =
          (serve limit published before).2 ++
            handle shown limit request :: (serve limit shown after).2 := by
  refine ⟨fun request hpath hmethod => ?_, fun request operation hpath hmethod => ?_,
    fun request hpath hmethod => ?_, fun request h => ?_, fun request hpath => ?_,
    fun requests => ?_, fun before after request => ?_⟩
  · rw [handle_read published limit hpath hmethod]
    exact answersRead_read published limit request.body
  · simp only [List.mem_cons, Prod.mk.injEq, List.not_mem_nil, or_false] at hpath
    rcases hpath with ⟨hpath, rfl⟩ | ⟨hpath, rfl⟩
    · simp only [handle, Route.ofPath?, hpath, hmethod]
      rfl
    · simp only [handle, Route.ofPath?, hpath, hmethod]
      rfl
  · simp only [List.mem_cons, List.not_mem_nil, or_false] at hpath
    rcases hpath with hpath | hpath <;>
      simp [handle, Route.ofPath?, Route.method, hpath, hmethod, plain]
  · simp only [List.mem_cons, List.not_mem_nil, or_false] at h
    rcases h with ⟨hpath | hpath | hpath, hmethod⟩ | ⟨hpath | hpath, hmethod⟩ <;>
      simp [handle, Route.ofPath?, Route.method, hpath, hmethod, plain]
  · simp [handle, Route.ofPath?_eq_none hpath, plain]
  · rw [serve_fst, scrapes_requests]
    rfl
  · exact ⟨serve_fst limit published before,
      serve_request_snd limit published before after request⟩

/-- Form feeds are blanks of a body, though not of JSON : as many of them as a body may have ask
for the latest snapshots, and one more is too much. -/
theorem answers_formFeeds :
    let published := (Published.ofWindow 4).publish [{ timestamp := 1 }]
    let post (count : Nat) : Request :=
      { method := "POST", target := "/stats/read?past",
        body := { bytes := List.replicate count 0x0c } }
    Gives published 8 {} (handle published 8 (post 65536)) ∧
      (handle published 8 (post 65537)).status = .payloadTooLarge := by
  intro published post
  have hpath : Request.path ⟨"POST", "/stats/read?past", none, {}⟩ = "/stats/read" := by decide
  have hread (count : Nat) : AnswersRead published 8 (post count).body
      (handle published 8 (post count)) :=
    (answers published 8).1 (post count) hpath rfl
  have hsize (count : Nat) : (post count).body.bytes.length = count := List.length_replicate
  refine ⟨(hread 65536).blank (Nat.le_of_eq (hsize 65536)) rfl fun b hb => ?_,
    (hread 65537).tooLarge.2 (by rw [hsize]; decide)⟩
  rw [List.eq_of_mem_replicate hb]
  decide

end Vitals.Server
