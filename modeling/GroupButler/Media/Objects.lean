import GroupButler.Foundation.Text
import Mathlib.Data.List.Induction

/-!
# Private objects

A stored object is reached under the organisation of its reader only: by a signed URL, or by reading its
bytes up to the reader's own cap.
-/

namespace GroupButler.Media
open Foundation

inductive MediaError where
  /-- `ForeignMediaKeyError` -/
  | foreignKey
  /-- `R2ConfigurationError` -/
  | configuration (message : String)
  /-- `RangeError` -/
  | range (message : String)
  deriving DecidableEq, Repr

/-- `MAX_PRESIGN_TTL_SECONDS` -/
def maxPresignTtlSeconds : Int := 604800

structure R2Config where
  accountId : String
  bucket : String
  accessKeyId : String
  secretAccessKey : String
  ttlSeconds : Int
  deriving DecidableEq, Repr

/-- What the body of an object answers to one read. -/
inductive BodyRead where
  | chunk (bytes : List UInt8)
  | fails
  deriving DecidableEq, Repr

/-- What the service answers to a request for an object. -/
inductive Fetched where
  | fails
  | noBody
  | object (contentLength : Option Nat) (body : List BodyRead)
  deriving DecidableEq, Repr

/-- The process's settings, `Number` of one where that is an integer, and the service's library. -/
structure Storage where
  setting : String → Option String
  integer : String → Option Int
  getSignedUrl : R2Config → String → String
  getObject : R2Config → String → Fetched

def r2Endpoint (accountId : String) : String :=
  if accountId = "" then "" else "https://" ++ accountId ++ ".r2.cloudflarestorage.com"

def required (storage : Storage) (name : String) : Except MediaError String :=
  let value := jsTrim ((storage.setting name).getD "")
  if value = "" then .error (.configuration (name ++ " is required to presign media")) else .ok value

def r2Config (storage : Storage) : Except MediaError R2Config := do
  let accountId ← required storage "R2_ACCOUNT_ID"
  let bucket ← required storage "R2_BUCKET"
  let accessKeyId ← required storage "R2_ACCESS_KEY_ID"
  let secretAccessKey ← required storage "R2_SECRET_ACCESS_KEY"
  let ttl ← required storage "R2_PRESIGN_TTL_SECONDS"
  match (storage.integer ttl).filter fun seconds => 0 < seconds && seconds ≤ maxPresignTtlSeconds with
  | none => .error (.configuration "R2_PRESIGN_TTL_SECONDS must be an integer between 1 and 604800")
  | some ttlSeconds => .ok ⟨accountId, bucket, accessKeyId, secretAccessKey, ttlSeconds⟩

def orgPrefix (organizationId : String) : List Char := ("org/" ++ organizationId ++ "/").toList

def ownKey (key organizationId : String) : Bool := (orgPrefix organizationId).isPrefixOf key.toList

structure PresignedMedia where
  url : String
  expiresInSeconds : Int
  deriving DecidableEq, Repr

def presignMediaUrl (storage : Storage) (key organizationId : String) : Except MediaError PresignedMedia :=
  if ownKey key organizationId = false then .error .foreignKey
  else (r2Config storage).map fun config => ⟨storage.getSignedUrl config key, config.ttlSeconds⟩

/-! ### Reading -/

/-- The loop over a body: the bytes kept so far, and how many reads were made. -/
structure Reading where
  total : Nat
  chunks : List (List UInt8)
  reads : Nat
  /-- `return null`, or the body failed. -/
  stopped : Bool
  deriving DecidableEq, Repr

def Reading.start : Reading := ⟨0, [], 0, false⟩

def readStep (maxBytes : Nat) (r : Reading) (read : BodyRead) : Reading :=
  if r.stopped then r
  else
    match read with
    | .fails => { r with reads := r.reads + 1, stopped := true }
    | .chunk bytes =>
      let total := r.total + bytes.length
      if maxBytes < total then { r with total, reads := r.reads + 1, stopped := true }
      else ⟨total, r.chunks ++ [bytes], r.reads + 1, false⟩

def readBody (maxBytes : Nat) (body : List BodyRead) : Reading := body.foldl (readStep maxBytes) Reading.start

/-- `Number.MAX_SAFE_INTEGER` -/
def maxSafeInteger : Int := 9007199254740991

def readMediaObject (storage : Storage) (key organizationId : String) (maxBytes : Int) : Except MediaError (Option (List UInt8)) :=
  if ownKey key organizationId = false then .error .foreignKey
  else if maxBytes ≤ 0 ∨ maxSafeInteger < maxBytes then .error (.range "maxBytes must be a positive integer")
  else
    (r2Config storage).map fun config =>
      match storage.getObject config key with
      | .fails | .noBody => none
      | .object contentLength body =>
        if contentLength.any fun length => maxBytes.toNat < length then none
        else
          let reading := readBody maxBytes.toNat body
          if reading.stopped ∨ reading.total = 0 then none else some reading.chunks.flatten

/-! ### One read -/

def BodyRead.bytes? : BodyRead → Option (List UInt8)
  | .chunk bytes => some bytes
  | .fails => none

/-- The bytes of a body, unless it fails. -/
def wholeBody (body : List BodyRead) : Option (List UInt8) := (body.mapM BodyRead.bytes?).map List.flatten

theorem wholeBody_concat (body : List BodyRead) (read : BodyRead) :
    wholeBody (body ++ [read]) = (wholeBody body).bind fun front => read.bytes?.map fun bytes => front ++ bytes := by
  unfold wholeBody
  rw [List.mapM_append]
  cases body.mapM BodyRead.bytes? with
  | none => rfl
  | some chunks =>
    cases read with
    | fails => rfl
    | chunk bytes => simp [BodyRead.bytes?]

/-- The body is whole and fits. -/
def Fits (maxBytes : Nat) (body : List BodyRead) : Prop := ∃ bytes, wholeBody body = some bytes ∧ bytes.length ≤ maxBytes

/-- What was read of a body is all of it and fits, or the body does not, and what is kept fits all the same. -/
structure Read (maxBytes : Nat) (body : List BodyRead) (r : Reading) : Prop where
  kept : r.chunks.flatten.length ≤ maxBytes
  going : r.stopped = false → wholeBody body = some r.chunks.flatten ∧ r.total = r.chunks.flatten.length ∧ r.reads = body.length
  ended : r.stopped = true → ¬ Fits maxBytes body ∧ r.reads ≤ body.length

theorem fits_of_concat {maxBytes : Nat} {body : List BodyRead} {read : BodyRead} (fits : Fits maxBytes (body ++ [read])) :
    Fits maxBytes body := by
  obtain ⟨bytes, whole, within⟩ := fits
  rw [wholeBody_concat] at whole
  obtain ⟨front, first, rest⟩ := Option.bind_eq_some_iff.mp whole
  obtain ⟨last, -, rfl⟩ := Option.map_eq_some_iff.mp rest
  rw [List.length_append] at within
  exact ⟨front, first, by omega⟩

theorem start_read (maxBytes : Nat) : Read maxBytes [] Reading.start :=
  ⟨Nat.zero_le _, fun _ => ⟨rfl, rfl, rfl⟩, fun stopped => by cases stopped⟩

theorem readStep_read {maxBytes : Nat} {body : List BodyRead} {r : Reading} (known : Read maxBytes body r) (read : BodyRead) :
    Read maxBytes (body ++ [read]) (readStep maxBytes r read) := by
  have length : (body ++ [read]).length = body.length + 1 := List.length_append
  unfold readStep
  split
  · rename_i stopped
    obtain ⟨beyond, reads⟩ := known.ended stopped
    refine ⟨known.kept, fun going => ?_, fun _ => ⟨fun fits => beyond (fits_of_concat fits), ?_⟩⟩
    · rw [stopped] at going
      cases going
    · omega
  · rename_i running
    obtain ⟨whole, total, reads⟩ := known.going (Bool.not_eq_true _ ▸ running)
    split
    · refine ⟨known.kept, (fun going => by cases going), fun _ => ⟨?_, ?_⟩⟩
      · intro fits
        obtain ⟨bytes, all, -⟩ := fits
        rw [wholeBody_concat, whole] at all
        cases all
      · dsimp only
        omega
    · rename_i bytes
      have more : wholeBody (body ++ [.chunk bytes]) = some (r.chunks.flatten ++ bytes) := by
        rw [wholeBody_concat, whole]
        rfl
      dsimp only
      split
      · rename_i beyond
        refine ⟨known.kept, (fun going => by cases going), fun _ => ⟨?_, ?_⟩⟩
        · intro fits
          obtain ⟨all, same, within⟩ := fits
          rw [more] at same
          obtain rfl := Option.some.inj same
          rw [List.length_append] at within
          omega
        · dsimp only
          omega
      · rename_i within
        have joined : (r.chunks ++ [bytes]).flatten = r.chunks.flatten ++ bytes := by simp
        have size : (r.chunks.flatten ++ bytes).length = r.chunks.flatten.length + bytes.length := List.length_append
        refine ⟨?_, fun _ => ⟨?_, ?_, ?_⟩, (fun stopped => by cases stopped)⟩
        · rw [joined]
          omega
        · rw [joined]
          exact more
        · rw [joined]
          dsimp only
          omega
        · dsimp only
          omega

theorem readBody_read (maxBytes : Nat) (body : List BodyRead) : Read maxBytes body (readBody maxBytes body) := by
  induction body using List.reverseRecOn with
  | nil => exact start_read maxBytes
  | append_singleton body read ih =>
    rw [readBody, List.foldl_concat]
    exact readStep_read ih read

/-- Once the loop has returned it reads nothing more. -/
theorem readBody_stopped {maxBytes : Nat} {front : List BodyRead} (stopped : (readBody maxBytes front).stopped = true)
    (rest : List BodyRead) : readBody maxBytes (front ++ rest) = readBody maxBytes front := by
  induction rest using List.reverseRecOn with
  | nil => rw [List.append_nil]
  | append_singleton rest read ih =>
    rw [← List.append_assoc, readBody, List.foldl_concat]
    change readStep maxBytes (readBody maxBytes (front ++ rest)) read = _
    rw [ih]
    unfold readStep
    rw [if_pos stopped]

/-! ### A whole object -/

section
variable {storage : Storage} {key organizationId : String} {maxBytes : Int} {config : R2Config} {contentLength : Option Nat}
  {body : List BodyRead}

theorem readMediaObject_object (own : ownKey key organizationId = true) (positive : 0 < maxBytes)
    (safe : maxBytes ≤ maxSafeInteger) (configured : r2Config storage = .ok config) (answered : storage.getObject config key = .object contentLength body) :
    readMediaObject storage key organizationId maxBytes = .ok
      (if contentLength.any fun length => maxBytes.toNat < length then none
      else if (readBody maxBytes.toNat body).stopped ∨ (readBody maxBytes.toNat body).total = 0 then none
      else some (readBody maxBytes.toNat body).chunks.flatten) := by
  have inside : ¬ (maxBytes ≤ 0 ∨ maxSafeInteger < maxBytes) := by omega
  rw [readMediaObject, own, if_neg (by decide), if_neg inside, configured]
  simp only [Except.map, answered]

theorem undeclared_iff (positive : 0 < maxBytes) : (contentLength.any fun length => maxBytes.toNat < length) = false ↔
    ∀ length ∈ contentLength, (length : Int) ≤ maxBytes := by
  cases contentLength with
  | none => simp
  | some length =>
    simp only [Option.any_some, decide_eq_false_iff_not, Option.mem_def, Option.some.injEq, forall_eq']
    omega

theorem readMediaObject_some_iff (own : ownKey key organizationId = true) (positive : 0 < maxBytes)
    (safe : maxBytes ≤ maxSafeInteger) (configured : r2Config storage = .ok config)
    (answered : storage.getObject config key = .object contentLength body) (bytes : List UInt8) :
    readMediaObject storage key organizationId maxBytes = .ok (some bytes) ↔
      wholeBody body = some bytes ∧ bytes ≠ [] ∧ (bytes.length : Int) ≤ maxBytes ∧
        ∀ length ∈ contentLength, (length : Int) ≤ maxBytes := by
  have whole := readBody_read maxBytes.toNat body
  have undeclared := @undeclared_iff maxBytes contentLength positive
  rw [readMediaObject_object own positive safe configured answered]
  constructor
  · intro found
    have found := Except.ok.inj found
    split at found
    · cases found
    · rename_i fits
      split at found
      · cases found
      · rename_i some_
        rw [not_or, Bool.not_eq_true] at some_
        obtain rfl := Option.some.inj found
        obtain ⟨all, total, -⟩ := whole.going some_.1
        refine ⟨all, ?_, ?_, undeclared.mp (Bool.not_eq_true _ ▸ fits)⟩
        · intro none_
          rw [none_] at total
          exact some_.2 total
        · have kept := whole.kept
          omega
  · intro facts
    obtain ⟨all, some_, within, declared⟩ := facts
    have running : (readBody maxBytes.toNat body).stopped = false := by
      rw [← Bool.not_eq_true]
      intro stopped
      apply (whole.ended stopped).1
      exact ⟨bytes, all, by omega⟩
    obtain ⟨same, total, -⟩ := whole.going running
    obtain rfl := Option.some.inj (same.symm.trans all)
    have counted : (readBody maxBytes.toNat body).chunks.flatten.length ≠ 0 :=
      fun none_ => some_ (List.length_eq_zero_iff.mp none_)
    rw [undeclared.mpr declared, running, total, if_neg (by decide),
      if_neg (by simpa only [Bool.false_eq_true, false_or] using counted)]

/-- A front that does not fit is the last that is read. -/
theorem readBody_reads {maxBytes n : Nat} (beyond : ¬ Fits maxBytes (body.take n)) : (readBody maxBytes body).reads ≤ n := by
  have front := readBody_read maxBytes (body.take n)
  have stopped : (readBody maxBytes (body.take n)).stopped = true := by
    rw [← Bool.not_eq_false]
    intro running
    obtain ⟨all, -, -⟩ := front.going running
    exact beyond ⟨_, all, front.kept⟩
  have same := readBody_stopped stopped (body.drop n)
  rw [List.take_append_drop] at same
  rw [same]
  have reads := (front.ended stopped).2
  rw [List.length_take] at reads
  omega

/-- However an object's bytes are cut into chunks, they are read exactly where there are some, the body does not fail
and neither they nor the declared length exceed the cap. Never is more kept than the cap, and nothing is read after the
first chunk that exceeds it. -/
theorem readMediaObject_exact (own : ownKey key organizationId = true) (positive : 0 < maxBytes) (safe : maxBytes ≤ maxSafeInteger)
    (configured : r2Config storage = .ok config) (answered : storage.getObject config key = .object contentLength body) :
    (∀ bytes, readMediaObject storage key organizationId maxBytes = .ok (some bytes) ↔
        wholeBody body = some bytes ∧ bytes ≠ [] ∧ (bytes.length : Int) ≤ maxBytes ∧
          ∀ length ∈ contentLength, (length : Int) ≤ maxBytes) ∧
      (∃ found, readMediaObject storage key organizationId maxBytes = .ok found) ∧
      (∀ n, ((readBody maxBytes.toNat (body.take n)).chunks.flatten.length : Int) ≤ maxBytes) ∧
      ∀ n, ¬ Fits maxBytes.toNat (body.take n) → (readBody maxBytes.toNat body).reads ≤ n := by
  refine ⟨readMediaObject_some_iff own positive safe configured answered, ?_, ?_, fun n beyond => readBody_reads beyond⟩
  · exact ⟨_, readMediaObject_object own positive safe configured answered⟩
  · intro n
    have kept := (readBody_read maxBytes.toNat (body.take n)).kept
    omega

end

/-- A deployment whose bucket holds one object, which arrives in two chunks. -/
def deployment : Storage where
  setting name :=
    if name = "R2_ACCOUNT_ID" then some "acct123" else if name = "R2_BUCKET" then some "butler"
    else if name = "R2_ACCESS_KEY_ID" then some "AKIA00" else if name = "R2_SECRET_ACCESS_KEY" then some "secret"
    else if name = "R2_PRESIGN_TTL_SECONDS" then some "300" else none
  integer value := if value = "300" then some 300 else none
  getSignedUrl config key := "https://" ++ config.bucket ++ "." ++ config.accountId ++ ".r2.cloudflarestorage.com/" ++ key
  getObject _ key :=
    if key = "org/o/instance/i/group/1_g.us/2026/09/M.png" then .object (some 3) [.chunk [0x89, 0x50], .chunk [0x4E]] else .fails

theorem deployment_config : r2Config deployment = .ok ⟨"acct123", "butler", "AKIA00", "secret", 300⟩ := by decide +kernel

theorem readMediaObject_exact_chunks :
    readMediaObject deployment "org/o/instance/i/group/1_g.us/2026/09/M.png" "o" 3 = .ok (some [0x89, 0x50, 0x4E]) :=
  ((readMediaObject_exact (by decide) (by decide) (by decide) deployment_config rfl).1 [0x89, 0x50, 0x4E]).mpr (by decide)

end GroupButler.Media
