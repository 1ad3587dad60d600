import Mathlib.Data.List.Infix

/-!
# Mixpanel uploads

`bulkerlib/implementations/api_based/mixpanel.go`: `MixpanelBulker.Upload` reads the whole batch from its reader, then
posts it to the import endpoint once per entry of `retryDelaysMs`. After a transport error or a `500`, `502` or `503`
response it sleeps that entry's delay and tries again; at any other response it returns. The HTTP client's answer to
each attempt is an input, so a call is determined by the bulker, what the reader gives and those answers.

* `attempt_eq`: one attempt's `switch`, read as whether the answer is retried, the status code and body it leaves, and
  whether it accepted the batch;
* `retryLoop_spec`: the loop posts the same request once per attempt, goes on exactly while the answers are retried
  and delays are left, and leaves the last answer's results;
* `upload_retries`: so an open bulker posts the bytes read at most five times, tries again after each transport error
  and each `500`, `502` or `503` response but the last, stops at the first other response and returns no error
  exactly when that response accepted the batch; without the bytes or a request it posts nothing and fails;
* `upload_stops_on_gateway_timeout`: a `504`, although a server error, ends `Upload` at its first attempt;
* `upload_bounded`: whatever the answers, one call sleeps at most one second in total and posts at most five times;
* `createStream_batch_only`: `CreateStream` accepts the `batch` mode only.
-/

namespace Bulker.ApiBased

/-- The bytes of an ASCII string literal, its UTF-8 encoding. -/
def asciiBytes (s : String) : List UInt8 := s.toList.map fun c => c.val.toUInt8

/-- `retryDelaysMs`: the sleep after each failed attempt, in milliseconds; one attempt per entry. -/
def retryDelaysMs : List Nat := [100, 200, 200, 500, 0]

/-- The text whose presence in the body of a `400` response means that only some events failed validation. -/
def partialFailureMarker : List UInt8 := asciiBytes "some data points in the request failed validation"

/-- `MixpanelConfig`: the project the batches are imported into. -/
structure MixpanelConfig where
  projectId : String

/-- `MixpanelBulker`: its configuration and whether `Close` has been called. -/
structure MixpanelBulker where
  config : MixpanelConfig
  closed : Bool

/-- The errors `Upload` returns. -/
inductive UploadError where
  /-- The bulker is closed. -/
  | closed
  /-- `io.ReadAll` failed on the reader. -/
  | readBody (err : String)
  /-- `http.NewRequest` failed. -/
  | newRequest (err : String)
  /-- `httpClient.Do` failed. -/
  | transport (err : String)
  /-- `mp.NewError` on a status code and the error of reading the response body, if any. -/
  | httpStatus (statusCode : Int) (errText : String)
  deriving DecidableEq, Repr

/-- The text of an error; `NewError` (`appbase`, outside the source) formats it as `fmt.Sprintf` does. -/
def UploadError.message : UploadError → String
  | .closed => "attempt to use closed Mixpanel instance"
  | .readBody err => "failed to read request body: " ++ err
  | .newRequest err | .transport err => err
  | .httpStatus statusCode errText => "http status: " ++ toString statusCode ++ errText

/-- The answer of `httpClient.Do` to one attempt: a transport error, or a response with its status code, the bytes
`io.ReadAll` read from its body and the error of that read, if any. -/
inductive Outcome where
  | transportError (err : String)
  | response (statusCode : Int) (body : List UInt8) (readErr : Option String)
  deriving DecidableEq, Repr

/-- A request `Upload` sends: its method, URL and body. -/
structure Request where
  method : String
  url : String
  body : List UInt8
  deriving DecidableEq, Repr

/-- What `Upload` does that is seen from outside: it posts a request, or it sleeps. -/
inductive Event where
  | post (req : Request)
  | sleep (ms : Nat)
  deriving DecidableEq, Repr

/-- What `Upload` reads from outside the source: what `io.ReadAll(reader)` returns, the error `http.NewRequest` gives
on a URL (it rejects the URLs `url.Parse` rejects), if any, and the client's answer to each attempt, by number. -/
structure UploadEnv where
  read : Except String (List UInt8)
  newRequestError : String → Option String
  outcome : Nat → Outcome

/-- `Upload`'s named results. -/
structure UploadResult where
  statusCode : Int
  respBody : List UInt8
  err : Option UploadError
  deriving DecidableEq, Repr

/-- One attempt once `httpClient.Do` has answered: the named results it leaves, and whether it ends in `continue` (a
transport error, or the `switch`'s `500, 502, 503` case) rather than in `return`. The `switch` on the status code is
its cases tried in order. -/
def attempt : Outcome → Bool × UploadResult
  | .transportError err => (true, ⟨0, [], some (.transport err)⟩)
  | .response statusCode respBody readErr =>
    let errText := readErr.getD ""
    if statusCode = 200 then (false, ⟨statusCode, respBody, none⟩)
    else if statusCode = 400 then
      if partialFailureMarker <:+: respBody then (false, ⟨statusCode, respBody, none⟩)
      else (false, ⟨statusCode, respBody, some (.httpStatus statusCode errText)⟩)
    else if statusCode = 500 ∨ statusCode = 502 ∨ statusCode = 503 then
      (true, ⟨statusCode, respBody, some (.httpStatus statusCode errText)⟩)
    else (false, ⟨statusCode, respBody, some (.httpStatus statusCode errText)⟩)

/-- The `for` loop of `Upload` over the delays still to come, from attempt `i` on, with the named results `r` so far:
each attempt builds its request (and returns at once when `http.NewRequest` fails), posts it, and sleeps its delay
before a `continue`. -/
def retryLoop (env : UploadEnv) (url : String) (body : List UInt8) :
    List Nat → Nat → UploadResult → List Event × UploadResult
  | [], _, r => ([], r)
  | retryDelayMs :: ds, i, _ =>
    match env.newRequestError url with
    | some err => ([], ⟨0, [], some (.newRequest err)⟩)
    | none =>
      if (attempt (env.outcome i)).1 then
        (.post ⟨"POST", url, body⟩ :: .sleep retryDelayMs ::
            (retryLoop env url body ds (i + 1) (attempt (env.outcome i)).2).1,
          (retryLoop env url body ds (i + 1) (attempt (env.outcome i)).2).2)
      else ([.post ⟨"POST", url, body⟩], (attempt (env.outcome i)).2)

/-- The URL `Upload` posts to. -/
def importURL (projectId : String) : String := "https://api.mixpanel.com/import?strict=1&project_id=" ++ projectId

/-- `MixpanelBulker.Upload`: what it does, and its named results. -/
def MixpanelBulker.upload (mp : MixpanelBulker) (env : UploadEnv) : List Event × UploadResult :=
  if mp.closed then ([], ⟨0, [], some .closed⟩)
  else
    match env.read with
    | .error err => ([], ⟨0, [], some (.readBody err)⟩)
    | .ok body => retryLoop env (importURL mp.config.projectId) body retryDelaysMs 0 ⟨0, [], none⟩

/-- The requests posted, in order. -/
def posts (es : List Event) : List Request :=
  es.filterMap fun
    | .post req => some req
    | .sleep _ => none

/-- The time spent asleep, in milliseconds. -/
def sleptMs : List Event → Nat
  | [] => 0
  | .post _ :: es => sleptMs es
  | .sleep ms :: es => ms + sleptMs es

/-! ## One attempt -/

/-- The status code an answer leaves: `0` after a transport error. -/
def Outcome.statusCode : Outcome → Int
  | .transportError _ => 0
  | .response statusCode _ _ => statusCode

/-- The response body an answer leaves: empty after a transport error. -/
def Outcome.body : Outcome → List UInt8
  | .transportError _ => []
  | .response _ body _ => body

/-- An answer `Upload` tries again after: a transport error, or a `500`, `502` or `503` response. -/
def Outcome.retryable : Outcome → Bool
  | .transportError _ => true
  | .response statusCode _ _ => statusCode = 500 || statusCode = 502 || statusCode = 503

/-- An answer that accepted the batch: `200`, or a `400` saying that only some events failed validation. -/
def Outcome.accepted : Outcome → Bool
  | .transportError _ => false
  | .response statusCode body _ => statusCode = 200 || statusCode = 400 && partialFailureMarker <:+: body

/-- The error an answer that did not accept the batch leaves. -/
def Outcome.error : Outcome → UploadError
  | .transportError err => .transport err
  | .response statusCode _ readErr => .httpStatus statusCode (readErr.getD "")

/-- **One attempt** ends in `continue` exactly on a retryable answer, and leaves the answer's status code and body,
with no error exactly when the answer accepted the batch. -/
theorem attempt_eq (o : Outcome) :
    attempt o = (o.retryable, ⟨o.statusCode, o.body, if o.accepted then none else some o.error⟩) := by
  cases o with
  | transportError err => rfl
  | response statusCode body readErr =>
    simp only [attempt, Outcome.retryable, Outcome.accepted, Outcome.statusCode, Outcome.body, Outcome.error]
    split_ifs <;> simp_all [or_assoc]

/-! ## The retry loop -/

section Loop

variable {env : UploadEnv} {url : String} {body : List UInt8}

@[simp] theorem retryLoop_nil (i : Nat) (r : UploadResult) : retryLoop env url body [] i r = ([], r) := rfl

theorem retryLoop_cons (hurl : env.newRequestError url = none) (d : Nat) (ds : List Nat) (i : Nat)
    (r : UploadResult) :
    retryLoop env url body (d :: ds) i r =
      if (env.outcome i).retryable then
        (.post ⟨"POST", url, body⟩ :: .sleep d :: (retryLoop env url body ds (i + 1) (attempt (env.outcome i)).2).1,
          (retryLoop env url body ds (i + 1) (attempt (env.outcome i)).2).2)
      else ([.post ⟨"POST", url, body⟩], (attempt (env.outcome i)).2) := by
  rw [retryLoop, hurl, attempt_eq]

/-- **The retry loop** over delays `d :: ds`, from attempt `i` on, makes the attempts `i` to `i + m` for some
`m ≤ len(ds)`, posting the same request at each: every answer but the last is retried, the last one too only when no
delay is left, and the loop leaves the last answer's named results. -/
theorem retryLoop_spec (hurl : env.newRequestError url = none) (ds : List Nat) :
    ∀ (d i : Nat) (r : UploadResult), ∃ m ≤ ds.length,
      posts (retryLoop env url body (d :: ds) i r).1 = List.replicate (m + 1) ⟨"POST", url, body⟩ ∧
      (∀ j < m, (env.outcome (i + j)).retryable = true) ∧
      (m < ds.length → (env.outcome (i + m)).retryable = false) ∧
      (retryLoop env url body (d :: ds) i r).2 = (attempt (env.outcome (i + m))).2 := by
  induction ds with
  | nil =>
    intro d i r
    refine ⟨0, le_rfl, ?_, fun j hj => absurd hj (Nat.not_lt_zero j), fun h => absurd h (Nat.lt_irrefl 0), ?_⟩ <;>
      cases hr : (env.outcome i).retryable <;> simp [retryLoop_cons hurl, hr, posts]
  | cons d' ds ih =>
    intro d i r
    cases hr : (env.outcome i).retryable with
    | false => exact ⟨0, Nat.zero_le _, by simp [retryLoop_cons hurl, hr, posts], by simp, by simp [hr],
        by simp [retryLoop_cons hurl, hr]⟩
    | true =>
      obtain ⟨m, hm, hposts, hretry, hlast, hres⟩ := ih d' (i + 1) (attempt (env.outcome i)).2
      have hi : i + 1 + m = i + (m + 1) := by omega
      refine ⟨m + 1, by simpa using hm, ?_, fun j hj => ?_, fun h => ?_, ?_⟩
      · rw [retryLoop_cons hurl, hr, if_pos rfl]
        simpa [posts, List.replicate_succ] using hposts
      · rcases j with _ | j
        · exact hr
        · simpa [Nat.add_right_comm, Nat.add_assoc] using hretry j (by omega)
      · rw [← hi]; exact hlast (by simpa using h)
      · rw [retryLoop_cons hurl, hr, if_pos rfl, ← hi]; exact hres

/-- The loop sleeps at most its delays in total, and posts at most once per delay. -/
theorem retryLoop_bounded : ∀ (ds : List Nat) (i : Nat) (r : UploadResult),
    sleptMs (retryLoop env url body ds i r).1 ≤ ds.foldr (· + ·) 0 ∧
      (posts (retryLoop env url body ds i r).1).length ≤ ds.length
  | [], _, _ => by simp [sleptMs, posts]
  | d :: ds, i, r => by
    have ih := retryLoop_bounded ds (i + 1) (attempt (env.outcome i)).2
    unfold retryLoop
    split
    · simp [sleptMs, posts]
    · split_ifs
      · simp only [sleptMs, posts, List.foldr_cons, List.filterMap_cons, List.length_cons] at ih ⊢
        omega
      · simp [sleptMs, posts]

end Loop

/-! ## `Upload` -/

/-- **`Upload`'s retries.** An open bulker that read the bytes `body` posts them at most `len(retryDelaysMs)` times,
each time to the import URL: it tries again after each transport error and each `500`, `502` or `503` response but
the last, stops at the first other answer, and returns that answer's status code, with no error exactly when it
accepted the batch. When the reader or `http.NewRequest` fails it posts nothing and returns an error with status `0`. -/
theorem upload_retries {mp : MixpanelBulker} (hopen : mp.closed = false) (env : UploadEnv) :
    (∀ body, env.read = .ok body → env.newRequestError (importURL mp.config.projectId) = none →
      ∃ m < retryDelaysMs.length,
        posts (mp.upload env).1 = List.replicate (m + 1) ⟨"POST", importURL mp.config.projectId, body⟩ ∧
        (∀ j < m, (env.outcome j).retryable = true) ∧
        (m + 1 < retryDelaysMs.length → (env.outcome m).retryable = false) ∧
        ((mp.upload env).2.err = none ↔ (env.outcome m).accepted = true) ∧
        (mp.upload env).2.statusCode = (env.outcome m).statusCode) ∧
    ((∃ err, env.read = .error err) ∨ (env.newRequestError (importURL mp.config.projectId)).isSome →
      (mp.upload env).1 = [] ∧ (mp.upload env).2.err.isSome ∧ (mp.upload env).2.statusCode = 0) := by
  refine ⟨fun body hread hurl => ?_, fun h => ?_⟩
  · obtain ⟨m, hm, hposts, hretry, hlast, hres⟩ := retryLoop_spec hurl [200, 200, 500, 0] 100 0 ⟨0, [], none⟩
    have hup : mp.upload env =
        retryLoop env (importURL mp.config.projectId) body retryDelaysMs 0 ⟨0, [], none⟩ := by
      simp [MixpanelBulker.upload, hopen, hread]
    simp only [Nat.zero_add] at hretry hlast hres
    rw [hup]
    refine ⟨m, Nat.lt_succ_of_le hm, hposts, hretry, fun h => hlast (Nat.lt_of_succ_lt_succ h), ?_⟩
    rw [retryDelaysMs, hres, attempt_eq]
    cases (env.outcome m).accepted <;> simp
  · simp only [MixpanelBulker.upload, hopen, Bool.false_eq_true, if_false]
    rcases h with ⟨err, hread⟩ | hurl
    · simp [hread]
    · obtain ⟨err, hurl⟩ := Option.isSome_iff_exists.1 hurl
      cases env.read <;> simp [retryDelaysMs, retryLoop, hurl]

/-- **`Upload` is bounded**: whatever the reader, `http.NewRequest` and the server answer, one call sleeps at most the
sum of `retryDelaysMs`, one second, in total, and posts at most once per delay. -/
theorem upload_bounded (mp : MixpanelBulker) (env : UploadEnv) :
    sleptMs (mp.upload env).1 ≤ 1000 ∧ (posts (mp.upload env).1).length ≤ retryDelaysMs.length := by
  unfold MixpanelBulker.upload
  split_ifs
  · simp [sleptMs, posts]
  · cases env.read with
    | error err => simp [sleptMs, posts]
    | ok body => exact retryLoop_bounded retryDelaysMs 0 _

/-- An open bulker with the empty project id. -/
def openBulker : MixpanelBulker := ⟨⟨""⟩, false⟩

/-- An empty batch answered `503 Service Unavailable` at every attempt. -/
def serviceUnavailable : UploadEnv := ⟨.ok [], fun _ => none, fun _ => .response 503 [] none⟩

theorem upload_retries_unavailable :
    openBulker.closed = false ∧
      (∀ body, serviceUnavailable.read = .ok body →
          serviceUnavailable.newRequestError (importURL openBulker.config.projectId) = none →
        ∃ m < retryDelaysMs.length,
          posts (openBulker.upload serviceUnavailable).1 =
              List.replicate (m + 1) ⟨"POST", importURL openBulker.config.projectId, body⟩ ∧
          (∀ j < m, (serviceUnavailable.outcome j).retryable = true) ∧
          (m + 1 < retryDelaysMs.length → (serviceUnavailable.outcome m).retryable = false) ∧
          ((openBulker.upload serviceUnavailable).2.err = none ↔ (serviceUnavailable.outcome m).accepted = true) ∧
          (openBulker.upload serviceUnavailable).2.statusCode = (serviceUnavailable.outcome m).statusCode) ∧
      ((∃ err, serviceUnavailable.read = .error err) ∨
          (serviceUnavailable.newRequestError (importURL openBulker.config.projectId)).isSome →
        (openBulker.upload serviceUnavailable).1 = [] ∧ (openBulker.upload serviceUnavailable).2.err.isSome ∧
          (openBulker.upload serviceUnavailable).2.statusCode = 0) :=
  ⟨rfl, upload_retries rfl serviceUnavailable⟩

/-- The five attempts, each followed by its delay, the last one `0`. -/
example : (openBulker.upload serviceUnavailable).1 =
    [.post ⟨"POST", importURL "", []⟩, .sleep 100, .post ⟨"POST", importURL "", []⟩, .sleep 200,
      .post ⟨"POST", importURL "", []⟩, .sleep 200, .post ⟨"POST", importURL "", []⟩, .sleep 500,
      .post ⟨"POST", importURL "", []⟩, .sleep 0] := by
  decide

/-- An empty batch answered `504 Gateway Timeout` at every attempt. -/
def gatewayTimeouts : UploadEnv := ⟨.ok [], fun _ => none, fun _ => .response 504 [] none⟩

/-- A `504` ends `Upload` at its first attempt, with an error: it is a server error, but not one the `switch`
retries. -/
theorem upload_stops_on_gateway_timeout :
    openBulker.upload gatewayTimeouts =
      ([.post ⟨"POST", importURL "", []⟩], ⟨504, [], some (.httpStatus 504 "")⟩) := by
  decide

/-! ## `CreateStream` -/

/-- `MixpanelUnsupported`. -/
def mixpanelUnsupported : String := "Only 'batch' mode is supported"

/-- `bulker.BulkMode`, declared outside the source: its four modes, and `other` for any other value of the string
type, with the text `%s` prints for it. -/
inductive BulkMode where
  | stream
  | batch
  | replaceTable
  | replacePartition
  | other (text : String)
  deriving DecidableEq, Repr

/-- What `NewTransactionalStream` (outside the source) is called with: the stream id, the bulker and the table. -/
structure TransactionalStream where
  id : String
  bulker : MixpanelBulker
  tableName : String

/-- `MixpanelBulker.CreateStream`: the `switch` on the mode. -/
def MixpanelBulker.createStream (mp : MixpanelBulker) (id tableName : String) :
    BulkMode → Except String TransactionalStream
  | .stream => .error mixpanelUnsupported
  | .batch => .ok ⟨id, mp, tableName⟩
  | .replaceTable => .error mixpanelUnsupported
  | .replacePartition => .error mixpanelUnsupported
  | .other text => .error ("unsupported bulk mode: " ++ text)

/-- `CreateStream` builds a stream for `batch` only, and rejects every other mode at creation: the three other modes
with `MixpanelUnsupported`, any other value with a message naming it. -/
theorem createStream_batch_only (mp : MixpanelBulker) (id tableName : String) (mode : BulkMode) :
    (mp.createStream id tableName mode = .ok ⟨id, mp, tableName⟩ ↔ mode = .batch) ∧
    (mode ≠ .batch → ∃ msg, mp.createStream id tableName mode = .error msg ∧
      (msg = mixpanelUnsupported ∨ ∃ text, mode = .other text ∧ msg = "unsupported bulk mode: " ++ text)) := by
  cases mode <;> simp [MixpanelBulker.createStream]

end Bulker.ApiBased
