import Mathlib.Data.List.AList

/-!
# Google Cloud Storage staging

The `implementations` file bundled with `types/table.go`: `GoogleConfig.Validate` checks the BigQuery dataset name
and resolves `key_file` into credentials; `GoogleCloudStorage` uploads and deletes the objects of one bucket until it
is closed, and `ValidateWritePermission` uploads an empty test object and deletes it again. The client's answer to
each call is an input.

* `validate_spec`: `Validate` accepts a config exactly when its dataset is empty or at most 1024 bytes of `_`,
  letters and numbers, and its key file is a non-empty string or a non-empty object that marshals; it changes
  nothing but the credentials, and nothing at all when it rejects;
* `checkDataset_ascii`: when `IsLetterOrNumber` accepts only ASCII, the byte bound is the bound of 1024 characters
  the error message states;
* `run_closed`: once the storage is closed, every call fails with the closed error and the bucket never changes;
* `validateWritePermission_spec`: the permission check succeeds exactly when its upload does, and leaves the bucket
  as it found it only when its delete succeeds too.
-/

namespace Bulker.Implementations

/-! ## `GoogleConfig.Validate` -/

/-- `ErrMalformedBQDataset`. -/
def errMalformedBQDataset : String :=
  "bq_dataset must be alphanumeric (plus underscores) and must be at most 1024 characters long"

/-- `key_file` as the type switch of `Validate` sees it: a JSON object (`map[string]any`, its values of type `V`), a
string, or a value of any other type. -/
inductive KeyFile (V : Type) where
  | object (m : AList (fun _ : String => V))
  | string (s : String)
  | other

/-- The client option `Validate` resolves the key file into. -/
inductive Credentials where
  /-- `option.WithCredentialsJSON`. -/
  | json (b : List UInt8)
  /-- `option.WithCredentialsFile`. -/
  | file (path : String)
  deriving DecidableEq, Repr

/-- `GoogleConfig`; `credentials` is set on validation. -/
structure GoogleConfig (V : Type) where
  bucket : String
  project : String
  dataset : String
  keyFile : KeyFile V
  credentials : Option Credentials

section Validate

variable {V : Type} (isLetterOrNumber : Char → Bool)
  (marshal : AList (fun _ : String => V) → Except String (List UInt8))

/-- The loop over the dataset's symbols: the first one that is neither `_` nor a letter or a number. -/
def badSymbol (dataset : String) : Option Char := dataset.data.find? fun c => c ≠ '_' && !isLetterOrNumber c

/-- The dataset part of `Validate`: its error, if any. -/
def checkDataset (dataset : String) : Option String :=
  if dataset = "" then none
  else if dataset.utf8ByteSize > 1024 then some errMalformedBQDataset
  else (badSymbol isLetterOrNumber dataset).map fun c => errMalformedBQDataset ++ ": '" ++ c.toString ++ "'"

/-- The type switch on `key_file`: the config with its credentials set, and the error. -/
def resolveKeyFile (gc : GoogleConfig V) : GoogleConfig V × Option String :=
  match gc.keyFile with
  | .object m =>
    if m.entries.length = 0 then (gc, some "Google key_file is required parameter")
    else
      match marshal m with
      | .error err => (gc, some ("Malformed google key_file: " ++ err))
      | .ok b => ({ gc with credentials := some (.json b) }, none)
  | .string keyFile =>
    if keyFile = "workload_identity" then (gc, none)
    else if keyFile = "" then (gc, some "Google key file is required parameter")
    else if '{' ∈ keyFile.data then ({ gc with credentials := some (.json keyFile.toUTF8.toList) }, none)
    else ({ gc with credentials := some (.file keyFile) }, none)
  | .other => (gc, some "Google key_file must be string or json object")

/-- `GoogleConfig.Validate` on a pointer, `none` being `nil`: the config after the call, and the error. -/
def GoogleConfig.validate : Option (GoogleConfig V) → Option (GoogleConfig V) × Option String
  | none => (none, some "Google config is required")
  | some gc =>
    match checkDataset isLetterOrNumber gc.dataset with
    | some err => (some gc, some err)
    | none => ((some (resolveKeyFile marshal gc).1), (resolveKeyFile marshal gc).2)

/-- A dataset `Validate` accepts: none, or at most 1024 bytes of `_`, letters and numbers. -/
def DatasetOk (dataset : String) : Prop :=
  dataset = "" ∨ (dataset.utf8ByteSize ≤ 1024 ∧ ∀ c ∈ dataset.data, c = '_' ∨ isLetterOrNumber c = true)

/-- A key file `Validate` resolves: a non-empty object that marshals, or a non-empty string. -/
def KeyFileOk : KeyFile V → Prop
  | .object m => m.entries ≠ [] ∧ ∃ b, marshal m = .ok b
  | .string s => s ≠ ""
  | .other => False

/-- The credentials a resolved key file gives, `workload_identity` keeping the ones there are. -/
def resolvedCredentials (old : Option Credentials) : KeyFile V → Option Credentials
  | .object m => match marshal m with
    | .ok b => some (.json b)
    | .error _ => old
  | .string s =>
    if s = "workload_identity" then old
    else if '{' ∈ s.data then some (.json s.toUTF8.toList) else some (.file s)
  | .other => old

theorem badSymbol_eq_none {dataset : String} :
    badSymbol isLetterOrNumber dataset = none ↔ ∀ c ∈ dataset.data, c = '_' ∨ isLetterOrNumber c = true := by
  simp only [badSymbol, List.find?_eq_none, Bool.and_eq_true, bne_iff_ne, ne_eq, Bool.not_eq_true', not_and,
    Bool.not_eq_false, decide_eq_true_eq]
  exact forall₂_congr fun c _ => by by_cases h : c = '_' <;> simp [h]

theorem checkDataset_eq_none {dataset : String} :
    checkDataset isLetterOrNumber dataset = none ↔ DatasetOk isLetterOrNumber dataset := by
  unfold checkDataset DatasetOk
  split_ifs with h₁ h₂
  · simp [h₁]
  · simp [h₁, h₂]
  · simp [h₁, Nat.le_of_not_lt h₂, badSymbol_eq_none]

theorem resolveKeyFile_of_ok {gc : GoogleConfig V} (h : KeyFileOk marshal gc.keyFile) :
    resolveKeyFile marshal gc =
      ({ gc with credentials := resolvedCredentials marshal gc.credentials gc.keyFile }, none) := by
  cases hk : gc.keyFile with
  | object m =>
    rw [hk] at h
    obtain ⟨hne, b, hb⟩ := h
    simp [resolveKeyFile, resolvedCredentials, hk, hb, hne]
  | string s =>
    rw [hk] at h
    obtain ⟨bucket, project, dataset, keyFile, credentials⟩ := gc
    subst hk
    simp only [resolveKeyFile, resolvedCredentials]
    split_ifs <;> first | rfl | contradiction
  | other => rw [hk] at h; cases h

theorem resolveKeyFile_of_not_ok {gc : GoogleConfig V} (h : ¬KeyFileOk marshal gc.keyFile) :
    ∃ err, resolveKeyFile marshal gc = (gc, some err) := by
  cases hk : gc.keyFile with
  | object m =>
    simp only [hk, KeyFileOk, not_and, not_exists] at h
    simp only [resolveKeyFile, hk]
    split_ifs with hl
    · exact ⟨_, rfl⟩
    · cases hm : marshal m with
      | error err => exact ⟨_, rfl⟩
      | ok b => exact absurd hm (h (by simpa using hl) b)
  | string s =>
    simp only [hk, KeyFileOk, not_not] at h
    simp [resolveKeyFile, hk, h]
  | other => simp [resolveKeyFile, hk]

/-- **`GoogleConfig.Validate`** accepts a config exactly when its dataset and its key file are acceptable, and then
changes only its credentials; a rejected config is left as it was. -/
theorem validate_spec (gc : GoogleConfig V) :
    (DatasetOk isLetterOrNumber gc.dataset ∧ KeyFileOk marshal gc.keyFile →
      GoogleConfig.validate isLetterOrNumber marshal (some gc) =
        (some { gc with credentials := resolvedCredentials marshal gc.credentials gc.keyFile }, none)) ∧
    (¬(DatasetOk isLetterOrNumber gc.dataset ∧ KeyFileOk marshal gc.keyFile) →
      ∃ err, GoogleConfig.validate isLetterOrNumber marshal (some gc) = (some gc, some err)) := by
  refine ⟨fun ⟨hd, hk⟩ => ?_, fun h => ?_⟩
  · simp [GoogleConfig.validate, (checkDataset_eq_none isLetterOrNumber).2 hd, resolveKeyFile_of_ok marshal hk]
  · cases hd : checkDataset isLetterOrNumber gc.dataset with
    | some err => exact ⟨err, by simp [GoogleConfig.validate, hd]⟩
    | none =>
      obtain ⟨err, he⟩ := resolveKeyFile_of_not_ok marshal
        fun hk => h ⟨(checkDataset_eq_none isLetterOrNumber).1 hd, hk⟩
      exact ⟨err, by simp [GoogleConfig.validate, hd, he]⟩

/-- Every character takes at least one byte. -/
theorem length_le_utf8ByteSize : ∀ cs : List Char, cs.length ≤ String.utf8ByteSize.go cs
  | [] => le_rfl
  | c :: cs => by
    have := length_le_utf8ByteSize cs
    have := c.utf8Size_pos
    simp only [String.utf8ByteSize.go, List.length_cons]
    omega

theorem utf8Size_of_lt {c : Char} (h : c.toNat < 128) : c.utf8Size = 1 := by
  unfold Char.utf8Size
  rw [if_pos]
  exact Nat.le_of_lt_succ h

/-- An ASCII string has one byte per character. -/
theorem utf8ByteSize_of_ascii : ∀ {cs : List Char}, (∀ c ∈ cs, c.toNat < 128) → String.utf8ByteSize.go cs = cs.length
  | [], _ => rfl
  | c :: cs, h => by
    simp only [String.utf8ByteSize.go, List.length_cons, utf8Size_of_lt (h c (List.mem_cons_self c cs)),
      utf8ByteSize_of_ascii fun c hc => h c (List.mem_cons_of_mem _ hc)]

/-- With an `IsLetterOrNumber` that accepts only ASCII, `Validate`'s bound of 1024 bytes is the bound of 1024
characters its error states. -/
theorem checkDataset_ascii (hascii : ∀ c, isLetterOrNumber c = true → c.toNat < 128) (dataset : String) :
    checkDataset isLetterOrNumber dataset = none ↔
      dataset = "" ∨ (dataset.length ≤ 1024 ∧ ∀ c ∈ dataset.data, c = '_' ∨ isLetterOrNumber c = true) := by
  rw [checkDataset_eq_none, DatasetOk]
  refine or_congr_right ⟨fun ⟨hb, hs⟩ => ⟨(length_le_utf8ByteSize dataset.data).trans hb, hs⟩,
    fun ⟨hl, hs⟩ => ⟨?_, hs⟩⟩
  have hascii' : ∀ c ∈ dataset.data, c.toNat < 128 := fun c hc =>
    (hs c hc).elim (fun h => h ▸ by decide) (hascii c)
  exact (utf8ByteSize_of_ascii hascii').trans_le hl

end Validate

theorem isAlphanum_ascii (c : Char) (h : c.isAlphanum = true) : c.toNat < 128 := by
  simp only [Char.isAlphanum, Char.isAlpha, Char.isUpper, Char.isLower, Char.isDigit, Bool.or_eq_true,
    Bool.and_eq_true, decide_eq_true_eq] at h
  show c.val.toNat < 128
  rcases h with (⟨-, h⟩ | ⟨-, h⟩) | ⟨-, h⟩ <;> exact Nat.lt_of_le_of_lt h (by decide)

theorem checkDataset_ascii_alphanum :
    (∀ c, Char.isAlphanum c = true → c.toNat < 128) ∧
      (checkDataset Char.isAlphanum "events_2024" = none ↔
        "events_2024" = "" ∨ ("events_2024".length ≤ 1024 ∧
          ∀ c ∈ "events_2024".data, c = '_' ∨ Char.isAlphanum c = true)) :=
  ⟨isAlphanum_ascii, checkDataset_ascii Char.isAlphanum isAlphanum_ascii "events_2024"⟩

/-! ## `GoogleCloudStorage` -/

/-- The client's answer to a call on an object: it returns, with an error or without, or it panics with a value that
the deferred handler recovers. -/
inductive Answer where
  | ok
  | error (err : String)
  | panic (r : String)
  deriving DecidableEq, Repr

/-- The calls the storage makes on its client, in order. -/
inductive Call where
  /-- `io.Copy` of the payload into the writer of object `fileName`. -/
  | write (fileName : String) (payload : List UInt8)
  /-- `w.Close()`, which completes the upload of object `fileName`. -/
  | closeWriter (fileName : String)
  /-- `obj.Delete` of object `key`. -/
  | delete (key : String)
  /-- `client.Close()`. -/
  | closeClient
  deriving DecidableEq, Repr

/-- The errors of the storage. -/
inductive StorageError where
  /-- `attempt to use closed GoogleCloudStorage instance`. -/
  | closed
  /-- The error the deferred handler makes of a recovered panic. -/
  | panic (text : String)
  /-- `errorj.SaveOnStageError.Wrap(err, msg)` with the `DBInfo` property: the bucket and the statement. -/
  | saveOnStage (msg err bucket statement : String)
  /-- An error of the client, returned as it is. -/
  | client (err : String)
  deriving DecidableEq, Repr

/-- `GoogleCloudStorage`: its config and the `closed` flag; the client and the context belong to the environment. -/
structure GoogleCloudStorage (V : Type) where
  config : GoogleConfig V
  closed : Bool

/-- `NewGoogleCloudStorage`, given the answer of `storage.NewClient`: an open storage, or the client's error. -/
def newGoogleCloudStorage {V : Type} (config : GoogleConfig V) (newClient : Option String) :
    Except String (GoogleCloudStorage V) :=
  match newClient with
  | some err => .error ("Error creating google cloud storage client: " ++ err)
  | none => .ok ⟨config, false⟩

/-- A call on the storage, with the client's answers to what the call asks of it. -/
inductive Request where
  /-- `Upload`, with the answers of `io.Copy` and `w.Close()`. -/
  | upload (fileName : String) (payload : List UInt8) (copy close : Answer)
  /-- `DeleteObject`, with the answer of `obj.Delete`. -/
  | deleteObject (key : String) (delete : Answer)
  /-- `ValidateWritePermission` at time `now`, as `%v` prints it, with the answers to its upload and its delete. -/
  | validateWritePermission (now : String) (copy close delete : Answer)
  /-- `Close`, with the error of `client.Close()`. -/
  | close (clientClose : Option String)

namespace GoogleCloudStorage

variable {V : Type} (gcs : GoogleCloudStorage V)

/-- The deferred handler's error for a panic while `verb` the object `fileName`. -/
def panicError (verb fileName r : String) : StorageError :=
  .panic ("panic while " ++ verb ++ " file: " ++ fileName ++ " to GCC project: " ++ gcs.config.project ++
    " bucket: " ++ gcs.config.bucket ++ " dataset: " ++ gcs.config.dataset ++ " : " ++ r)

/-- The error one client call on object `fileName` leads to: none, its error wrapped with `msg`, or the recovered
panic. -/
def answerError (verb msg fileName : String) : Answer → Option StorageError
  | .ok => none
  | .error err => some (.saveOnStage msg err gcs.config.bucket ("file: " ++ fileName))
  | .panic r => some (gcs.panicError verb fileName r)

/-- `Upload` of `payload` as object `fileName`: the calls it makes and its error. -/
def upload (fileName : String) (payload : List UInt8) (copy close : Answer) : List Call × Option StorageError :=
  if gcs.closed then ([], some .closed)
  else
    match gcs.answerError "uploading" "failed to write file to google cloud storage" fileName copy with
    | some err => ([.write fileName payload], some err)
    | none => ([.write fileName payload, .closeWriter fileName],
      gcs.answerError "uploading" "failed to close google cloud writer" fileName close)

/-- `DeleteObject` of object `key`: the calls it makes and its error. -/
def deleteObject (key : String) (delete : Answer) : List Call × Option StorageError :=
  if gcs.closed then ([], some .closed)
  else ([.delete key], gcs.answerError "deleting" "failed to delete from google cloud" key delete)

/-- `ValidateWritePermission`: `UploadBytes` of no bytes as `test_<now>`, then, if it succeeded, `DeleteObject` of
it, whose error is only logged. -/
def validateWritePermission (now : String) (copy close delete : Answer) : List Call × Option StorageError :=
  let filename := "test_" ++ now
  match gcs.upload filename [] copy close with
  | (calls, some err) => (calls, some err)
  | (calls, none) => (calls ++ (gcs.deleteObject filename delete).1, none)

/-- `Close`: sets the flag, then returns the error of `client.Close()`. -/
def close (clientClose : Option String) : GoogleCloudStorage V × List Call × Option StorageError :=
  ({ gcs with closed := true }, [.closeClient], clientClose.map .client)

/-- One request: the storage after it, the calls it makes on the client and its error. -/
def step : Request → GoogleCloudStorage V × List Call × Option StorageError
  | .upload fileName payload copy close => (gcs, gcs.upload fileName payload copy close)
  | .deleteObject key delete => (gcs, gcs.deleteObject key delete)
  | .validateWritePermission now copy close delete => (gcs, gcs.validateWritePermission now copy close delete)
  | .close clientClose => gcs.close clientClose

/-- A run of requests: the storage at the end, the client calls of all requests in order, and each request's error. -/
def run : GoogleCloudStorage V → List Request → GoogleCloudStorage V × List Call × List (Option StorageError)
  | gcs, [] => (gcs, [], [])
  | gcs, r :: rs =>
    let first := gcs.step r
    let rest := run first.1 rs
    (rest.1, first.2.1 ++ rest.2.1, first.2.2 :: rest.2.2)

end GoogleCloudStorage

/-- What a request does to a closed storage: `Close` closes the client again and returns its error; every other
request fails at once with the closed error and reaches no client. -/
def Request.onClosed : Request → List Call × Option StorageError
  | .close clientClose => ([.closeClient], clientClose.map .client)
  | _ => ([], some .closed)

namespace GoogleCloudStorage

variable {V : Type} {gcs : GoogleCloudStorage V}

@[simp]
theorem answerError_eq_none {verb msg fileName : String} {a : Answer} :
    gcs.answerError verb msg fileName a = none ↔ a = .ok := by
  cases a <;> simp [answerError]

/-- Every error of a client call names the bucket and the object, or, for a panic, the project, the bucket, the
dataset and the object. -/
theorem answerError_names_object {verb msg fileName : String} {a : Answer} {e : StorageError}
    (h : gcs.answerError verb msg fileName a = some e) :
    (∃ err, e = .saveOnStage msg err gcs.config.bucket ("file: " ++ fileName)) ∨
      ∃ r, e = gcs.panicError verb fileName r := by
  cases a <;> simp only [answerError, Option.some.injEq, reduceCtorEq] at h <;> subst h
  · exact .inl ⟨_, rfl⟩
  · exact .inr ⟨_, rfl⟩

theorem upload_eq_none {fileName : String} {payload : List UInt8} {copy close : Answer} :
    (gcs.upload fileName payload copy close).2 = none ↔ gcs.closed = false ∧ copy = .ok ∧ close = .ok := by
  unfold upload
  cases gcs.closed
  · cases copy <;> cases close <;> simp [answerError]
  · simp

theorem step_close (clientClose : Option String) :
    gcs.step (.close clientClose) = ({ gcs with closed := true }, (Request.close clientClose).onClosed) := rfl

/-- A closed storage answers every request by `Request.onClosed` and stays as it is. -/
theorem step_of_closed (hc : gcs.closed = true) : ∀ r : Request, gcs.step r = (gcs, r.onClosed)
  | .close _ => by
    obtain ⟨config, closed⟩ := gcs
    subst hc
    rfl
  | .upload .. | .deleteObject .. | .validateWritePermission .. => by
    simp [step, upload, deleteObject, validateWritePermission, Request.onClosed, hc]

theorem run_of_closed (hc : gcs.closed = true) :
    ∀ rs : List Request, gcs.run rs = (gcs, (rs.map fun r => r.onClosed.1).flatten, rs.map fun r => r.onClosed.2)
  | [] => rfl
  | r :: rs => by simp only [run, step_of_closed hc, run_of_closed hc rs, List.map_cons, List.flatten_cons]

theorem run_append (rs₁ rs₂ : List Request) : ∀ gcs : GoogleCloudStorage V,
    gcs.run (rs₁ ++ rs₂) =
      (((gcs.run rs₁).1.run rs₂).1, (gcs.run rs₁).2.1 ++ ((gcs.run rs₁).1.run rs₂).2.1,
        (gcs.run rs₁).2.2 ++ ((gcs.run rs₁).1.run rs₂).2.2) := by
  induction rs₁ with
  | nil => intro gcs; rfl
  | cons r rs₁ ih => intro gcs; rw [List.cons_append]; simp only [run, ih, List.append_assoc, List.cons_append]

/-- Once `Close` is called, the storage stays closed: from that call on, every request but another `Close` fails with
the closed error and makes no call on the client, and each `Close` calls `client.Close()` again. -/
theorem run_after_close (gcs : GoogleCloudStorage V) (rs rs' : List Request) (clientClose : Option String) :
    gcs.run (rs ++ .close clientClose :: rs') =
      ({ (gcs.run rs).1 with closed := true },
        (gcs.run rs).2.1 ++ ((Request.close clientClose :: rs').map fun r => r.onClosed.1).flatten,
        (gcs.run rs).2.2 ++ (Request.close clientClose :: rs').map fun r => r.onClosed.2) := by
  rw [run_append]
  have hc : ({ (gcs.run rs).1 with closed := true } : GoogleCloudStorage V).closed = true := rfl
  simp only [run, step_close, run_of_closed hc, List.map_cons, List.flatten_cons]

theorem upload_ok (hc : gcs.closed = false) (fileName : String) (payload : List UInt8) :
    gcs.upload fileName payload .ok .ok = ([.write fileName payload, .closeWriter fileName], none) := by
  simp [upload, hc, answerError]

theorem delete_not_mem_upload {key fileName : String} {payload : List UInt8} {copy close : Answer} :
    Call.delete key ∉ (gcs.upload fileName payload copy close).1 := by
  unfold upload
  split_ifs
  · simp
  · split <;> simp

theorem validateWritePermission_ok (hc : gcs.closed = false) (now : String) (delete : Answer) :
    gcs.validateWritePermission now .ok .ok delete =
      ([.write ("test_" ++ now) [], .closeWriter ("test_" ++ now), .delete ("test_" ++ now)], none) := by
  simp [validateWritePermission, upload_ok hc, deleteObject, hc]

theorem validateWritePermission_of_error {now : String} {copy close delete : Answer}
    (h : (gcs.upload ("test_" ++ now) [] copy close).2 ≠ none) :
    gcs.validateWritePermission now copy close delete = gcs.upload ("test_" ++ now) [] copy close := by
  simp only [validateWritePermission]
  rcases hu : gcs.upload ("test_" ++ now) [] copy close with ⟨calls, _ | err⟩
  · exact absurd (congrArg Prod.snd hu) h
  · rfl

/-- `ValidateWritePermission` succeeds exactly when the storage is open and its test upload succeeds, whatever its
delete answers; it then writes, completes and deletes the test object, and when it fails it deletes nothing. -/
theorem validateWritePermission_spec (gcs : GoogleCloudStorage V) (now : String) (copy close delete : Answer) :
    ((gcs.validateWritePermission now copy close delete).2 = none ↔
      gcs.closed = false ∧ copy = .ok ∧ close = .ok) ∧
    ((gcs.validateWritePermission now copy close delete).2 = none →
      (gcs.validateWritePermission now copy close delete).1 =
        [.write ("test_" ++ now) [], .closeWriter ("test_" ++ now), .delete ("test_" ++ now)]) ∧
    ((gcs.validateWritePermission now copy close delete).2 ≠ none →
      Call.delete ("test_" ++ now) ∉ (gcs.validateWritePermission now copy close delete).1) := by
  by_cases hok : gcs.closed = false ∧ copy = .ok ∧ close = .ok
  · obtain ⟨hc, rfl, rfl⟩ := hok
    rw [validateWritePermission_ok hc]
    exact ⟨iff_of_true rfl ⟨hc, rfl, rfl⟩, fun _ => rfl, fun h => absurd rfl h⟩
  · have herr : (gcs.upload ("test_" ++ now) [] copy close).2 ≠ none := fun h => hok (upload_eq_none.1 h)
    rw [validateWritePermission_of_error herr]
    exact ⟨iff_of_false herr hok, fun h => absurd h herr, fun _ => delete_not_mem_upload⟩

end GoogleCloudStorage

end Bulker.Implementations
