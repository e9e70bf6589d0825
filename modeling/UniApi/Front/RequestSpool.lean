/-
**The request spool of the Rust front.**

A request body is written to a file of the spool directory, chunk by chunk, and read back from it.
Whoever holds the file removes it when it is dropped: first the `RequestSpoolWriter`, then the
`StoredBody`, then the `LocalBodyStream`. Every awaited call may fail, and the request may be
dropped at every one of them.

* `append_spools`: an accepted chunk is written and hashed, and the writer still owns the file after
  one that is not;
* `readSpooledBody_cases`: the body of a request is stored, or its file is left to nobody, or the
  directory is as it was;
* `upload_cleans_up_iff`: what `finish` returns holds the body, and the directory is as before once
  the request is gone, exactly when no created file is lost on the way.
-/

import Mathlib.Data.List.Infix
import Mathlib.Logic.Function.Basic
import UniApi.Front.Idempotency
import UniApi.Lib.Raise

namespace UniApi.Front.RequestSpooling

open UniApi.Lib

open UniApi.Front.Idempotency (RequestIdentity)

/-! ### Awaited calls -/

/-- What ends an awaited call instead of its value. -/
inductive Stop (ε : Type) where
  | error (error : ε)
  /-- The request is dropped while it waits for the call. -/
  | dropped
  | panicked (message : String)
  deriving DecidableEq

def Stop.map {ε ε' : Type} (translate : ε → ε') : Stop ε → Stop ε'
  | .error cause => .error (translate cause)
  | .dropped => .dropped
  | .panicked message => .panicked message

/-- How an awaited call ends. -/
abbrev Awaited (ε α : Type) := Except (Stop ε) α

/-- `map_err` on what an awaited call ended with. -/
def Awaited.mapErr {ε ε' α : Type} (translate : ε → ε') (awaited : Awaited ε α) : Awaited ε' α :=
  awaited.mapError (Stop.map translate)

/-! ### Failures and what is observed -/

def u64Max : Nat := 2 ^ 64 - 1

def saturatingAdd (left right : Nat) : Nat := min (left + right) u64Max

/-- A duration is in nanoseconds. -/
def durationMs (duration : Nat) : Nat := min (duration / 1000000) u64Max

inductive ResourceKind where
  | memory
  | fileDescriptor
  | ephemeralPort
  | connection
  | localDisk
  | localInode
  deriving DecidableEq

namespace ResourceKind

def asStr : ResourceKind → String
  | memory => "memory_headroom"
  | fileDescriptor => "file_descriptor_headroom"
  | ephemeralPort => "ephemeral_port_headroom"
  | connection => "connection_headroom"
  | localDisk => "local_disk_headroom"
  | localInode => "local_inode_headroom"

def exhaustedStatus : ResourceKind → Nat
  | localDisk | localInode => 507
  | _ => 503

end ResourceKind

structure CapacityFailure where
  resource : ResourceKind
  waited : Nat

structure ResourceWait where
  waited : Nat

structure LocalCapacity where
  freeBytes : Nat
  writableBytes : Nat
  freeInodes : Nat
  writableInodes : Nat

structure SpoolObservation where
  bodyBytes : Nat := 0
  memoryPeakBytes : Nat := 0
  localDiskBytes : Nat := 0
  localFreeBytesAtStart : Nat := 0
  localWritableBytesAtStart : Nat := 0
  localFreeInodesAtStart : Nat := 0
  localWritableInodesAtStart : Nat := 0
  resourceWaitMs : Nat := 0
  finalTier : String := ""
  failureResource : Option String := none
  deriving DecidableEq

structure SpoolFailure where
  status : Nat
  message : String
  resource : Option ResourceKind
  retryAfter : Bool
  observation : SpoolObservation
  deriving DecidableEq

def SpoolFailure.capacity (failure : CapacityFailure) (observation : SpoolObservation) :
    SpoolFailure where
  status := failure.resource.exhaustedStatus
  message := "request spool resource wait timed out: " ++ failure.resource.asStr
  resource := some failure.resource
  retryAfter := true
  observation :=
    { observation with
      resourceWaitMs := saturatingAdd observation.resourceWaitMs (durationMs failure.waited)
      failureResource := some failure.resource.asStr }

def SpoolFailure.ofFile (message : String) (observation : SpoolObservation) : SpoolFailure where
  status := 507
  message := message
  resource := some .localDisk
  retryAfter := true
  observation := { observation with failureResource := some ResourceKind.localDisk.asStr }

/-- What the governor answers to a wait for room for some bytes. -/
abbrev CapacityCall := Nat → Awaited CapacityFailure (ResourceWait × LocalCapacity)

/-! ### The request identity -/

/-- The hasher keeps what it was fed: a SHA-256 state stands for the bytes behind it. -/
structure RequestHasher where
  recordKey : String
  request : Bytes
  deriving DecidableEq

namespace RequestHasher

def update (hasher : RequestHasher) (bytes : Bytes) : RequestHasher :=
  { hasher with request := hasher.request ++ bytes }

def finish (sha256Hex : Bytes → String) (hasher : RequestHasher) : RequestIdentity :=
  { recordKey := hasher.recordKey, requestHash := sha256Hex hasher.request }

theorem update_update (hasher : RequestHasher) (first second : Bytes) :
    (hasher.update first).update second = hasher.update (first ++ second) := by
  simp [update]

end RequestHasher

/-! ### The spool directory -/

/-- The contents of the files that are in the directory. -/
abbrev Directory (Path : Type) := Path → Option Bytes

namespace Directory

variable {Path : Type} [DecidableEq Path]

/-- An open file is written by its handle: if its name is gone, no name shows the bytes. -/
def write (path : Path) (bytes : Bytes) (directory : Directory Path) : Directory Path :=
  Function.update directory path ((directory path).map (· ++ bytes))

def removeFile (path : Path) (directory : Directory Path) : Directory Path :=
  Function.update directory path none

theorem write_update (directory : Directory Path) (path : Path) (content bytes : Bytes) :
    write path bytes (Function.update directory path (some content)) =
      Function.update directory path (some (content ++ bytes)) := by
  simp [write]

/-- **Removing a file that was created** leaves the directory that was there before. -/
theorem removeFile_update {directory : Directory Path} {path : Path}
    (fresh : directory path = none) (content : Option Bytes) :
    removeFile path (Function.update directory path content) = directory := by
  rw [removeFile, Function.update_idem, ← fresh, Function.update_eq_self]

end Directory

/-! ### The writer of a file -/

/-- A write or a flush: how many of the bytes under way reach the file by its end, and its end. -/
structure WriteCall where
  written : Nat
  ending : Awaited String Unit

/-- An open file: what it accepted reaches the disk later, and is there after a flush. It has no
`Drop` of its own. -/
structure LocalWriter (Path : Type) where
  path : Path
  buffered : Bytes := []

namespace LocalWriter

variable {Path : Type} [DecidableEq Path]

/-- `file.write_all(&chunk).await`. -/
def writeAll (chunk : Bytes) (call : WriteCall) (writer : LocalWriter Path)
    (directory : Directory Path) : LocalWriter Path × Directory Path :=
  let underWay := writer.buffered ++ chunk
  ({ writer with buffered := underWay.drop call.written },
    directory.write writer.path (underWay.take call.written))

/-- `file.flush().await`: without an error, every byte has reached the file. -/
def flush (call : WriteCall) (writer : LocalWriter Path) (directory : Directory Path) :
    Directory Path :=
  if call.ending.isOk then directory.write writer.path writer.buffered
  else directory.write writer.path (writer.buffered.take call.written)

end LocalWriter

/-- A call that creates a file. The call runs to its end even when the request that waits for it is
dropped. -/
structure CreateCall (Path : Type) where
  /-- The unique name. -/
  path : Path
  /-- An error other than `AlreadyExists`. -/
  error : Option String := none
  dropped : Bool := false

section Create

variable {Path : Type} [DecidableEq Path]

/-- `create_local_writer`, over the names that are left to try. -/
def createLocalWriter : List (CreateCall Path) →
    Raise (Stop String) (Directory Path) (LocalWriter Path)
  | [] => Raise.throw (.error "could not allocate a unique spool path")
  | call :: rest => fun directory =>
    match call.error, directory call.path with
    | some error, _ => (.error (if call.dropped then .dropped else .error error), directory)
    | none, some _ =>
      if call.dropped then (.error .dropped, directory) else createLocalWriter rest directory
    | none, none =>
      let after := Function.update directory call.path (some [])
      if call.dropped then (.error .dropped, after) else (.ok { path := call.path }, after)

end Create

/-! ### The spool of one request -/

structure RequestSpoolWriter (Path : Type) where
  requestHasher : Option RequestHasher
  writer : Option (LocalWriter Path)
  observation : SpoolObservation

/-- The body on disk; whoever has the `cleanup` removes the file when it is dropped. -/
structure LocalCleanup (Path : Type) where
  path : Path
  deriving DecidableEq

structure StoredBody (Path : Type) where
  path : Path
  cleanup : LocalCleanup Path
  deriving DecidableEq

structure RequestSpool (Path : Type) where
  identity : Option RequestIdentity
  observation : SpoolObservation
  storage : StoredBody Path

/-- The awaited calls of `begin`. -/
structure BeginCalls (Path : Type) where
  capacity : CapacityCall
  /-- The attempts to create a file, each with its unique name. -/
  attempts : Nat → CreateCall Path

/-- The awaited calls of `append`. -/
structure AppendCalls where
  capacity : CapacityCall
  write : WriteCall

section Code

variable {Path : Type} [DecidableEq Path]

/-- `SpoolManager::begin`. -/
def begin (requestHasher : Option RequestHasher) (contentLength : Option Nat) (initialWait : Nat)
    (calls : BeginCalls Path) :
    Raise (Stop SpoolFailure) (Directory Path) (RequestSpoolWriter Path) := fun directory =>
  let observation : SpoolObservation := { resourceWaitMs := durationMs initialWait }
  match (calls.capacity (contentLength.getD 0)).mapErr (SpoolFailure.capacity · observation) with
  | .error stop => (.error stop, directory)
  | .ok (wait, capacity) =>
    let observation :=
      { observation with
        resourceWaitMs := saturatingAdd observation.resourceWaitMs (durationMs wait.waited)
        localFreeBytesAtStart := capacity.freeBytes
        localWritableBytesAtStart := capacity.writableBytes
        localFreeInodesAtStart := capacity.freeInodes
        localWritableInodesAtStart := capacity.writableInodes }
    match createLocalWriter ((List.range 16).map calls.attempts) directory with
    | (.error stop, after) =>
      (.error (stop.map fun error =>
        .ofFile ("create local request spool: " ++ error) observation), after)
    | (.ok writer, after) => (.ok { requestHasher, writer := some writer, observation }, after)

namespace RequestSpoolWriter

/-- The writer with its observation changed. -/
def observe (change : SpoolObservation → SpoolObservation) (spool : RequestSpoolWriter Path) :
    RequestSpoolWriter Path :=
  { spool with observation := change spool.observation }

/-- `RequestSpoolWriter::append`, on the writer and the directory. -/
def append (chunk : Bytes) (calls : AppendCalls) :
    Raise (Stop SpoolFailure) (RequestSpoolWriter Path × Directory Path) Unit :=
  fun (spool, directory) =>
  if chunk.isEmpty then (.ok (), spool, directory)
  else
    let spool := spool.observe fun observation =>
      { observation with
        bodyBytes := saturatingAdd observation.bodyBytes chunk.length
        memoryPeakBytes := max observation.memoryPeakBytes chunk.length }
    match (calls.capacity chunk.length).mapErr (SpoolFailure.capacity · spool.observation) with
    | .error stop => (.error stop, spool, directory)
    | .ok (wait, _) =>
      let spool := spool.observe fun observation =>
        { observation with
          resourceWaitMs := saturatingAdd observation.resourceWaitMs (durationMs wait.waited) }
      match spool.writer with
      | none => (.error (.panicked "request spool writer missing"), spool, directory)
      | some writer =>
        let (writer, directory) := writer.writeAll chunk calls.write directory
        let spool := { spool with writer := some writer }
        match calls.write.ending.mapErr fun error =>
            SpoolFailure.ofFile ("write local request spool: " ++ error) spool.observation with
        | .error stop => (.error stop, spool, directory)
        | .ok () =>
          let spool :=
            { spool with
              requestHasher := spool.requestHasher.map (RequestHasher.update · chunk) }
          let spool := spool.observe fun observation =>
            { observation with
              localDiskBytes := saturatingAdd observation.localDiskBytes chunk.length }
          (.ok (), spool, directory)

/-- `Drop for RequestSpoolWriter`. -/
def drop (spool : RequestSpoolWriter Path) (directory : Directory Path) : Directory Path :=
  match spool.writer with
  | none => directory
  | some writer => directory.removeFile writer.path

end RequestSpoolWriter

def StoredBody.local (path : Path) : StoredBody Path := { path, cleanup := { path } }

/-- `RequestSpoolWriter::finish`. The writer is taken out of `self` before the flush, so that the
drop of `self` finds none. -/
def RequestSpoolWriter.finish (sha256Hex : Bytes → String) (call : WriteCall)
    (spool : RequestSpoolWriter Path) :
    Raise (Stop SpoolFailure) (Directory Path) (RequestSpool Path) := fun directory =>
  match spool.writer with
  | none => (.error (.panicked "request spool writer missing"), spool.drop directory)
  | some writer =>
    let spool := { spool with writer := none }
    let directory := writer.flush call directory
    match call.ending.mapErr fun error =>
        SpoolFailure.ofFile ("flush local request spool: " ++ error) spool.observation with
    | .error stop => (.error stop, spool.drop directory)
    | .ok () =>
      let spool := spool.observe fun observation => { observation with finalTier := "local_disk" }
      (.ok
        { identity := spool.requestHasher.map fun hasher => hasher.finish sha256Hex
          observation := spool.observation
          storage := StoredBody.local writer.path }, spool.drop directory)

/-- `Drop for LocalCleanup`. -/
def LocalCleanup.drop (cleanup : LocalCleanup Path) (directory : Directory Path) : Directory Path :=
  directory.removeFile cleanup.path

/-- A stored body is dropped with its cleanup. -/
def StoredBody.drop (body : StoredBody Path) (directory : Directory Path) : Directory Path :=
  body.cleanup.drop directory

/-- A `ReaderStream` on the rest of the file, until it has ended. -/
structure LocalBodyStream (Path : Type) where
  inner : Option Bytes
  cleanup : LocalCleanup Path

/-- `StoredBody::into_body`: an error and a drop of the call drop the body, and with it the
cleanup. -/
def StoredBody.intoBody (observation : SpoolObservation) (call : Awaited String Unit)
    (body : StoredBody Path) :
    Raise (Stop SpoolFailure) (Directory Path) (LocalBodyStream Path) := fun directory =>
  let describe (error : String) : SpoolFailure :=
    .ofFile ("open local request spool for replay: " ++ error) observation
  match call.mapErr describe, directory body.path with
  | .error stop, _ => (.error stop, body.drop directory)
  | .ok (), none =>
    (.error (.error (describe "No such file or directory (os error 2)")), body.drop directory)
  | .ok (), some content => (.ok { inner := some content, cleanup := body.cleanup }, directory)

/-- What a poll of a body stream gives. -/
inductive Poll where
  | data (bytes : Bytes)
  | failed (error : String)
  | ended
  deriving DecidableEq

namespace LocalBodyStream

/-- A poll whose read gives an error or some of the bytes that are left, at least one if there are
any. -/
def pollNext (read : Except String Nat) (stream : LocalBodyStream Path) :
    Poll × LocalBodyStream Path :=
  match stream.inner with
  | none => (.ended, stream)
  | some rest =>
    match read with
    | .error error => (.failed error, { stream with inner := none })
    | .ok count =>
      if rest = [] then (.ended, { stream with inner := none })
      else
        (.data (rest.take (max 1 count)), { stream with inner := some (rest.drop (max 1 count)) })

/-- The bytes a reader gets by some polls, and what stopped it before they were done. -/
def replay : List (Except String Nat) → LocalBodyStream Path → Bytes × Option Poll
  | [], _ => ([], none)
  | read :: reads, stream =>
    match stream.pollNext read with
    | (.data bytes, after) => (bytes ++ (after.replay reads).1, (after.replay reads).2)
    | (stop, _) => ([], some stop)

end LocalBodyStream

/-! ### Reading a body into the spool -/

inductive RequestBodySpoolError where
  | timeout
  | read
  | spool (failure : SpoolFailure)

/-- A chunk of the body, with the calls of its `append`. -/
structure Arrival where
  chunk : Bytes
  calls : AppendCalls

/-- What comes after the chunks of a body. -/
inductive BodyEnd where
  | ended
  | timeout
  | failed
  | dropped
  deriving DecidableEq

/-- A request body, and how the calls made for it end. -/
structure Upload (Path : Type) where
  requestHasher : Option RequestHasher
  contentLength : Option Nat
  initialWait : Nat
  begin : BeginCalls Path
  arrivals : List Arrival
  ending : BodyEnd
  flush : WriteCall

/-- The loop of `read_spooled_body`, up to the end of the body. -/
def readChunks (ending : BodyEnd) : List Arrival →
    Raise (Stop RequestBodySpoolError) (RequestSpoolWriter Path × Directory Path) Unit
  | [] =>
    match ending with
    | .ended => pure ()
    | .timeout => Raise.throw (.error .timeout)
    | .failed => Raise.throw (.error .read)
    | .dropped => Raise.throw .dropped
  | arrival :: rest => fun state =>
    match RequestSpoolWriter.append arrival.chunk arrival.calls state with
    | (.error stop, after) => (.error (stop.map .spool), after)
    | (.ok (), after) => readChunks ending rest after

/-- `read_spooled_body`: the writer is dropped when the loop is left before `finish`. -/
def readSpooledBody (sha256Hex : Bytes → String) (upload : Upload Path) :
    Raise (Stop RequestBodySpoolError) (Directory Path) (RequestSpool Path) := fun directory =>
  match begin upload.requestHasher upload.contentLength upload.initialWait upload.begin
      directory with
  | (.error stop, after) => (.error (stop.map .spool), after)
  | (.ok spool, after) =>
    match readChunks upload.ending upload.arrivals (spool, after) with
    | (.error stop, spool, after) => (.error stop, spool.drop after)
    | (.ok (), spool, after) =>
      match spool.finish sha256Hex upload.flush after with
      | (.error stop, after) => (.error (stop.map .spool), after)
      | (.ok stored, after) => (.ok stored, after)

/-- What becomes of a stored body: it is dropped, or it is opened and its stream is polled some
times before it is dropped. -/
inductive Use where
  | dropped
  | replayed (call : Awaited String Unit) (reads : List (Except String Nat))

/-- What a request did with its spool once it is gone. -/
structure Served (Path : Type) where
  /-- What `finish` returned, and the directory at that time. -/
  stored : Option (RequestSpool Path × Directory Path) := none
  replay : Option (Bytes × Option Poll) := none
  /-- The directory once the writer, the stored body and the stream are gone. -/
  directory : Directory Path

/-- The whole of a request: its body is read into a spool, and the spool is used. -/
def serve (sha256Hex : Bytes → String) (upload : Upload Path) (use : Use)
    (directory : Directory Path) : Served Path :=
  match readSpooledBody sha256Hex upload directory with
  | (.error _, after) => { directory := after }
  | (.ok spool, after) =>
    match use with
    | .dropped => { stored := some (spool, after), directory := spool.storage.drop after }
    | .replayed call reads =>
      match spool.storage.intoBody spool.observation call after with
      | (.error _, later) => { stored := some (spool, after), directory := later }
      | (.ok stream, later) =>
        { stored := some (spool, after)
          replay := some (stream.replay reads)
          directory := stream.cleanup.drop later }

end Code

/-! ### What ends well -/

section Conditions

variable {Path : Type} [DecidableEq Path]

/-- The attempt is the last one: otherwise it found its name taken, and another name is tried. -/
def CreateCall.decides (directory : Directory Path) (call : CreateCall Path) : Bool :=
  call.error.isSome || (directory call.path).isNone || call.dropped

/-- The attempt puts a file into the directory. -/
def CreateCall.Creates (directory : Directory Path) (call : CreateCall Path) : Prop :=
  call.error = none ∧ directory call.path = none

/-- The attempt that settles the creation: the first one of the sixteen that is not tried again. -/
def Upload.decisive (upload : Upload Path) (directory : Directory Path) :
    Option (CreateCall Path) :=
  ((List.range 16).map upload.begin.attempts).find? (CreateCall.decides directory)

/-- A file is created for the request, which is or is not there to take it. -/
def Upload.Created (upload : Upload Path) (directory : Directory Path) (dropped : Bool) : Prop :=
  (upload.begin.capacity (upload.contentLength.getD 0)).isOk ∧
    ∃ call, upload.decisive directory = some call ∧ call.Creates directory ∧ call.dropped = dropped

/-- The chunk is empty, or there is room for it and its write does not fail. -/
def Arrival.accepted (arrival : Arrival) : Bool :=
  arrival.chunk.isEmpty ||
    ((arrival.calls.capacity arrival.chunk.length).isOk && arrival.calls.write.ending.isOk)

/-- The whole body comes in, and each of its chunks is accepted. -/
def Upload.Complete (upload : Upload Path) (directory : Directory Path) : Prop :=
  upload.Created directory false ∧ (∀ arrival ∈ upload.arrivals, arrival.accepted) ∧
    upload.ending = .ended

/-- **A file is lost**: the request is dropped while its file is created, or the flush behind a
complete body does not succeed. -/
def Upload.LosesFile (upload : Upload Path) (directory : Directory Path) : Prop :=
  upload.Created directory true ∨ (upload.Complete directory ∧ ¬ upload.flush.ending.isOk)

/-- The concatenation of the chunks. -/
def Upload.body (upload : Upload Path) : Bytes := upload.arrivals.flatMap (·.chunk)

/-- **The spool that `finish` returned holds the body**: the file does, the identity is that of the
body, and a replay gives it from its start and ends at its end. -/
def Faithful (sha256Hex : Bytes → String) (upload : Upload Path) (served : Served Path) : Prop :=
  ∀ spool directory, served.stored = some (spool, directory) →
    directory spool.storage.path = some upload.body ∧
      spool.identity =
        (upload.requestHasher.map fun hasher => (hasher.update upload.body).finish sha256Hex) ∧
      ∀ bytes stop, served.replay = some (bytes, stop) →
        bytes <+: upload.body ∧ (stop = some .ended → bytes = upload.body)

end Conditions

/-! ### Creating the file -/

section Steps

variable {Path : Type} [DecidableEq Path]

@[simp] theorem Awaited.mapErr_ok {ε ε' α : Type} (translate : ε → ε') (value : α) :
    Awaited.mapErr translate (.ok value : Awaited ε α) = .ok value := rfl

@[simp] theorem Awaited.mapErr_error {ε ε' α : Type} (translate : ε → ε') (stop : Stop ε) :
    Awaited.mapErr translate (.error stop : Awaited ε α) = .error (stop.map translate) := rfl

/-- The attempts end with the first one that is not tried again. -/
theorem createLocalWriter_cases (calls : List (CreateCall Path)) (directory : Directory Path) :
    (∃ call, calls.find? (CreateCall.decides directory) = some call ∧
        call.Creates directory ∧
        createLocalWriter calls directory =
          (if call.dropped then .error .dropped else .ok { path := call.path },
            Function.update directory call.path (some []))) ∨
      ((∀ call, calls.find? (CreateCall.decides directory) = some call →
          ¬ call.Creates directory) ∧
        ∃ stop, createLocalWriter calls directory = (.error stop, directory)) := by
  induction calls with
  | nil => exact Or.inr ⟨by simp, _, rfl⟩
  | cons call rest ih =>
    unfold createLocalWriter
    rcases failure : call.error with _ | error
    · rcases found : directory call.path with _ | content
      · -- the name is free
        have decisive : call.decides directory = true := by simp [CreateCall.decides, found]
        refine Or.inl ⟨call, ?_, ⟨failure, found⟩, ?_⟩
        · rw [List.find?_cons_of_pos decisive]
        · cases call.dropped <;> simp
      · rcases gone : call.dropped with _ | _
        · -- the name is taken, and the next one is tried
          have again : ¬ call.decides directory = true := by
            simp [CreateCall.decides, failure, found, gone]
          rw [List.find?_cons_of_neg again]
          simpa using ih
        · have decisive : call.decides directory = true := by simp [CreateCall.decides, gone]
          rw [List.find?_cons_of_pos decisive]
          refine Or.inr ⟨?_, .dropped, by simp⟩
          rintro _ ⟨⟩ creates
          rw [creates.2] at found
          cases found
    · have decisive : call.decides directory = true := by simp [CreateCall.decides, failure]
      rw [List.find?_cons_of_pos decisive]
      refine Or.inr ⟨?_, _, rfl⟩
      rintro _ ⟨⟩ creates
      rw [creates.1] at failure
      cases failure

/-- The writer has the file at `path`, a new one, with what is to be on it under way. -/
def Spools (directory : Directory Path) (path : Path) (requestHasher : Option RequestHasher)
    (body : Bytes) (state : RequestSpoolWriter Path × Directory Path) : Prop :=
  ∃ buffered content, state.1.writer = some { path, buffered } ∧
    state.2 = Function.update directory path (some content) ∧ content ++ buffered = body ∧
    state.1.requestHasher = requestHasher.map fun hasher => hasher.update body

/-- The writer has the file at `path`, whatever is on it. -/
def Owns (directory : Directory Path) (path : Path)
    (state : RequestSpoolWriter Path × Directory Path) : Prop :=
  ∃ buffered content, state.1.writer = some { path, buffered } ∧
    state.2 = Function.update directory path (some content)

variable {directory : Directory Path} {state : RequestSpoolWriter Path × Directory Path}
  {requestHasher : Option RequestHasher} {path : Path}

theorem Spools.owns {body : Bytes}
    (spools : Spools directory path requestHasher body state) : Owns directory path state := by
  obtain ⟨buffered, content, held, here, -, -⟩ := spools
  exact ⟨buffered, content, held, here⟩

/-- **Dropping the writer** removes its file. -/
theorem Owns.drop (owns : Owns directory path state)
    (fresh : directory path = none) : state.1.drop state.2 = directory := by
  obtain ⟨buffered, content, held, here⟩ := owns
  unfold RequestSpoolWriter.drop
  rw [held, here]
  exact Directory.removeFile_update fresh _

/-- **How `begin` ends**: with a writer on a new empty file, with such a file that nobody has, or
with the directory as it was. -/
theorem begin_cases (upload : Upload Path) (directory : Directory Path) :
    (upload.Created directory false ∧ ∃ spool path, directory path = none ∧
        begin upload.requestHasher upload.contentLength upload.initialWait upload.begin directory =
          (.ok spool, Function.update directory path (some [])) ∧
        Spools directory path upload.requestHasher []
          (spool, Function.update directory path (some []))) ∨
      (upload.Created directory true ∧ ∃ stop path, directory path = none ∧
        begin upload.requestHasher upload.contentLength upload.initialWait upload.begin directory =
          (.error stop, Function.update directory path (some []))) ∨
      ((∀ dropped, ¬ upload.Created directory dropped) ∧ ∃ stop,
        begin upload.requestHasher upload.contentLength upload.initialWait upload.begin directory =
          (.error stop, directory)) := by
  unfold begin
  rcases room : upload.begin.capacity (upload.contentLength.getD 0) with stop | ⟨wait, capacity⟩
  · refine Or.inr (Or.inr ⟨?_, _, rfl⟩)
    rintro dropped ⟨granted, -⟩
    rw [room] at granted
    cases granted
  · have granted : (upload.begin.capacity (upload.contentLength.getD 0)).isOk := by
      rw [room]
      rfl
    simp only [Awaited.mapErr_ok]
    rcases createLocalWriter_cases ((List.range 16).map upload.begin.attempts) directory with
      ⟨call, decisive, creates, created⟩ | ⟨no_file, stop, created⟩
    · rw [created]
      rcases gone : call.dropped with _ | _
      · refine Or.inl ⟨⟨granted, call, decisive, creates, gone⟩, _, call.path, creates.2, rfl, ?_⟩
        refine ⟨[], [], rfl, rfl, rfl, ?_⟩
        cases upload.requestHasher <;> simp [RequestHasher.update]
      · have created : upload.Created directory true := ⟨granted, call, decisive, creates, gone⟩
        exact Or.inr (Or.inl ⟨created, _, call.path, creates.2, rfl⟩)
    · rw [created]
      refine Or.inr (Or.inr ⟨?_, _, rfl⟩)
      rintro dropped ⟨-, call, decisive, creates, -⟩
      exact no_file call decisive creates

/-! ### Writing the chunks -/

/-- **An appended chunk**: if it is accepted, the writer goes on with it behind the body; if it is
not, the writer still has the file. -/
theorem append_spools {body : Bytes}
    (spools : Spools directory path requestHasher body state) (arrival : Arrival) :
    (arrival.accepted = true ∧ ∃ after,
        RequestSpoolWriter.append arrival.chunk arrival.calls state = (.ok (), after) ∧
        Spools directory path requestHasher (body ++ arrival.chunk) after) ∨
      (arrival.accepted = false ∧ ∃ stop after,
        RequestSpoolWriter.append arrival.chunk arrival.calls state = (.error stop, after) ∧
        Owns directory path after) := by
  obtain ⟨spool, files⟩ := state
  obtain ⟨buffered, content, held, here, together, hashed⟩ := spools
  simp only at held here hashed
  subst here
  unfold RequestSpoolWriter.append Arrival.accepted
  by_cases empty : arrival.chunk.isEmpty
  · refine Or.inl ⟨by simp [empty], (spool, _), if_pos empty, ?_⟩
    rw [List.isEmpty_iff.mp empty, List.append_nil]
    exact ⟨buffered, content, held, rfl, together, hashed⟩
  · simp only [empty, Bool.false_or]
    rcases room : arrival.calls.capacity arrival.chunk.length with stop | ⟨wait, capacity⟩
    · exact Or.inr ⟨by simp [Except.isOk, Except.toBool], _, _, rfl, buffered, content, held, rfl⟩
    · simp only [Awaited.mapErr_ok, RequestSpoolWriter.observe, held, LocalWriter.writeAll,
        Directory.write_update]
      rcases ended : arrival.calls.write.ending with stop | ⟨⟩
      · exact Or.inr ⟨by simp [Except.isOk, Except.toBool], _, _, rfl, _, _, rfl, rfl⟩
      · refine Or.inl ⟨by simp [Except.isOk, Except.toBool], _, rfl, _, _, rfl, rfl, ?_, ?_⟩
        · -- what was written and what is still under way
          rw [List.append_assoc, List.take_append_drop, ← List.append_assoc, together]
        · simp only [hashed, Option.map_map]
          congr 1
          funext hasher
          exact hasher.update_update body arrival.chunk

/-- **Reading the chunks** of a body: either all of them are accepted and the body has ended, or the
writer still has the file when the loop is left. -/
theorem readChunks_spools (ending : BodyEnd) (arrivals : List Arrival)
    {body : Bytes}
    (spools : Spools directory path requestHasher body state) :
    (((∀ arrival ∈ arrivals, arrival.accepted) ∧ ending = .ended) ∧ ∃ after,
        readChunks ending arrivals state = (.ok (), after) ∧
        Spools directory path requestHasher (body ++ arrivals.flatMap (·.chunk)) after) ∨
      (¬ ((∀ arrival ∈ arrivals, arrival.accepted) ∧ ending = .ended) ∧ ∃ stop after,
        readChunks ending arrivals state = (.error stop, after) ∧ Owns directory path after) := by
  induction arrivals generalizing body state with
  | nil =>
    cases ending with
    | ended => exact Or.inl ⟨⟨by simp, rfl⟩, state, rfl, by simpa using spools⟩
    | timeout => exact Or.inr ⟨by simp, _, state, rfl, spools.owns⟩
    | failed => exact Or.inr ⟨by simp, _, state, rfl, spools.owns⟩
    | dropped => exact Or.inr ⟨by simp, _, state, rfl, spools.owns⟩
  | cons arrival rest ih =>
    unfold readChunks
    rcases append_spools spools arrival with ⟨accepted, after, here, onward⟩ |
      ⟨refused, stop, after, here, owns⟩
    · rw [here]
      have all_accepted : (∀ each ∈ arrival :: rest, each.accepted = true) ↔
          ∀ each ∈ rest, each.accepted = true := by
        simp [accepted]
      rw [all_accepted, List.flatMap_cons, ← List.append_assoc]
      exact ih onward
    · rw [here]
      refine Or.inr ⟨?_, _, after, rfl, owns⟩
      rintro ⟨all_accepted, -⟩
      rw [all_accepted arrival List.mem_cons_self] at refused
      cases refused

/-! ### Handing the file over -/

/-- **A flush that succeeds** leaves the body on the file and hands it to the stored body. -/
theorem finish_stored {body : Bytes} {spool : RequestSpoolWriter Path}
    {files : Directory Path} {call : WriteCall} (sha256Hex : Bytes → String)
    (spools : Spools directory path requestHasher body (spool, files))
    (flushed : call.ending.isOk) :
    ∃ stored, spool.finish sha256Hex call files =
        (.ok stored, Function.update directory path (some body)) ∧
      stored.storage = StoredBody.local path ∧
      stored.identity = requestHasher.map fun hasher => (hasher.update body).finish sha256Hex := by
  obtain ⟨buffered, content, held, here, together, hashed⟩ := spools
  simp only at held here hashed
  unfold RequestSpoolWriter.finish LocalWriter.flush
  rcases ended : call.ending with stop | ⟨⟩
  · rw [ended] at flushed
    cases flushed
  · simp only [held, here, Awaited.mapErr_ok]
    refine ⟨_, Prod.ext rfl ?_, rfl, ?_⟩
    · show Directory.write path buffered _ = _
      rw [Directory.write_update, together]
    · show spool.requestHasher.map _ = _
      rw [hashed, Option.map_map]
      rfl

/-- **A flush that does not succeed** leaves the file to nobody. -/
theorem finish_lost {spool : RequestSpoolWriter Path}
    {files : Directory Path} {call : WriteCall} (sha256Hex : Bytes → String)
    (owns : Owns directory path (spool, files)) (failed : ¬ call.ending.isOk) :
    ∃ stop content, spool.finish sha256Hex call files =
      (.error stop, Function.update directory path (some content)) := by
  obtain ⟨buffered, content, held, here⟩ := owns
  simp only at held here
  unfold RequestSpoolWriter.finish LocalWriter.flush
  rcases ended : call.ending with stop | ⟨⟩
  · simp only [held, here, Awaited.mapErr_error]
    refine ⟨_, content ++ buffered.take call.written, Prod.ext rfl ?_⟩
    show Directory.write path (buffered.take call.written) _ = _
    rw [Directory.write_update]
  · rw [ended] at failed
    exact absurd rfl failed

omit [DecidableEq Path] in
/-- **A replay** gives the file from its start, and all of it if it ends. -/
theorem replay_spec (reads : List (Except String Nat)) {stream : LocalBodyStream Path}
    {content : Bytes} (opened : stream.inner = some content) :
    (stream.replay reads).1 <+: content ∧
      ((stream.replay reads).2 = some .ended → (stream.replay reads).1 = content) := by
  induction reads generalizing stream content with
  | nil => exact ⟨List.nil_prefix, fun ended => by cases ended⟩
  | cons read reads ih =>
    unfold LocalBodyStream.replay LocalBodyStream.pollNext
    rw [opened]
    rcases read with error | count
    · exact ⟨List.nil_prefix, fun ended => by cases ended⟩
    · by_cases empty : content = []
      · simp only [empty, if_true]
        exact ⟨List.nil_prefix, fun _ => trivial⟩
      · simp only [empty, if_false]
        obtain ⟨delivered, complete⟩ :=
          @ih { stream with inner := some (content.drop (max 1 count)) } _ rfl
        refine ⟨?_, fun ended => ?_⟩
        · have whole := (List.prefix_append_right_inj (content.take (max 1 count))).mpr delivered
          rwa [List.take_append_drop] at whole
        · rw [complete ended, List.take_append_drop]

/-! ### The whole of a request -/

omit [DecidableEq Path] in
/-- The attempt that settles the creation is abandoned or it is not. -/
theorem Upload.Created.kept {upload : Upload Path}
    (created : upload.Created directory false) : ¬ upload.Created directory true := by
  obtain ⟨-, call, decisive, -, kept⟩ := created
  rintro ⟨-, other, decisive', -, gone⟩
  rw [decisive] at decisive'
  cases decisive'
  rw [kept] at gone
  cases gone

/-- **How the body of a request ends**: it is stored, its file is left to nobody, or the directory
is as it was. -/
theorem readSpooledBody_cases (sha256Hex : Bytes → String) (upload : Upload Path)
    (directory : Directory Path) :
    (¬ upload.LosesFile directory ∧ ∃ stored path, directory path = none ∧
        readSpooledBody sha256Hex upload directory =
          (.ok stored, Function.update directory path (some upload.body)) ∧
        stored.storage = StoredBody.local path ∧
        stored.identity =
          upload.requestHasher.map fun hasher => (hasher.update upload.body).finish sha256Hex) ∨
      (upload.LosesFile directory ∧ ∃ stop path content, directory path = none ∧
        readSpooledBody sha256Hex upload directory =
          (.error stop, Function.update directory path (some content))) ∨
      (¬ upload.LosesFile directory ∧ ∃ stop,
        readSpooledBody sha256Hex upload directory = (.error stop, directory)) := by
  unfold readSpooledBody
  rcases begin_cases upload directory with
    ⟨created, spool, path, fresh, begun, spools⟩ | ⟨lost, stop, path, fresh, begun⟩ |
      ⟨no_file, stop, begun⟩
  · rw [begun]
    rcases readChunks_spools upload.ending upload.arrivals spools with
      ⟨whole, ⟨after, files⟩, read, held⟩ | ⟨incomplete, stop, ⟨after, files⟩, read, owns⟩
    · by_cases flushed : upload.flush.ending.isOk
      · obtain ⟨stored, finished, storage, identity⟩ := finish_stored sha256Hex held flushed
        simp only [read, finished]
        refine Or.inl ⟨?_, stored, path, fresh, rfl, storage, identity⟩
        rintro (lost | ⟨-, failed⟩)
        · exact created.kept lost
        · exact failed flushed
      · obtain ⟨stop, content, finished⟩ := finish_lost sha256Hex held.owns flushed
        simp only [read, finished]
        exact Or.inr (Or.inl ⟨Or.inr ⟨⟨created, whole⟩, flushed⟩, _, path, content, fresh, rfl⟩)
    · -- the loop is left before `finish`, and the writer is dropped
      simp only [read]
      refine Or.inr (Or.inr ⟨?_, stop, by rw [← owns.drop fresh]⟩)
      rintro (lost | ⟨⟨-, whole⟩, -⟩)
      · exact created.kept lost
      · exact incomplete whole
  · rw [begun]
    exact Or.inr (Or.inl ⟨Or.inl lost, _, path, [], fresh, rfl⟩)
  · rw [begun]
    refine Or.inr (Or.inr ⟨?_, _, rfl⟩)
    rintro (lost | ⟨⟨created, -⟩, -⟩)
    · exact no_file true lost
    · exact no_file false created

/-- **A stored body** is read back as it is on its file, and its file is removed with it, whether it
is dropped, cannot be opened or is replayed. -/
theorem serve_stored {sha256Hex : Bytes → String} {upload : Upload Path}
    {stored : RequestSpool Path} {body : Bytes}
    (fresh : directory path = none)
    (read : readSpooledBody sha256Hex upload directory =
      (.ok stored, Function.update directory path (some body)))
    (storage : stored.storage = StoredBody.local path) (use : Use) :
    (serve sha256Hex upload use directory).stored =
        some (stored, Function.update directory path (some body)) ∧
      (serve sha256Hex upload use directory).directory = directory ∧
      ∀ bytes stop, (serve sha256Hex upload use directory).replay = some (bytes, stop) →
        bytes <+: body ∧ (stop = some .ended → bytes = body) := by
  have removed := Directory.removeFile_update fresh (some body)
  unfold serve
  rw [read]
  cases use with
  | dropped =>
    refine ⟨rfl, ?_, fun bytes stop none => by cases none⟩
    show stored.storage.drop _ = _
    rw [storage]
    exact removed
  | replayed call reads =>
    have there : Function.update directory path (some body) stored.storage.path = some body := by
      rw [storage]
      exact Function.update_self _ _ _
    unfold StoredBody.intoBody
    rcases call with stop | ⟨⟩
    · simp only [Awaited.mapErr_error]
      refine ⟨trivial, ?_, fun bytes stop none => by cases none⟩
      rw [storage]
      exact removed
    · simp only [Awaited.mapErr_ok, there]
      refine ⟨trivial, ?_, ?_⟩
      · rw [storage]
        exact removed
      · rintro bytes stop replay
        obtain ⟨delivered, complete⟩ :=
          @replay_spec Path reads { inner := some body, cleanup := stored.storage.cleanup } _ rfl
        rw [Option.some.injEq] at replay
        rw [replay] at delivered complete
        exact ⟨delivered, complete⟩

/-- **The spool is faithful and cleans up** exactly when no created file is lost: when the request
is not dropped while its file is created, and the flush behind a complete body succeeds. -/
theorem upload_cleans_up_iff (sha256Hex : Bytes → String) (upload : Upload Path) (use : Use)
    (directory : Directory Path) :
    (Faithful sha256Hex upload (serve sha256Hex upload use directory) ∧
        (serve sha256Hex upload use directory).directory = directory) ↔
      ¬ upload.LosesFile directory := by
  rcases readSpooledBody_cases sha256Hex upload directory with
    ⟨kept, stored, path, fresh, read, storage, identity⟩ |
      ⟨lost, stop, path, content, fresh, read⟩ | ⟨kept, stop, read⟩
  · obtain ⟨held, cleaned, replays⟩ := serve_stored fresh read storage use
    refine iff_of_true ⟨?_, cleaned⟩ kept
    intro spool files finished
    rw [held] at finished
    cases finished
    refine ⟨?_, identity, replays⟩
    rw [storage]
    exact Function.update_self _ _ _
  · refine iff_of_false ?_ (not_not_intro lost)
    rintro ⟨-, cleaned⟩
    have there : (serve sha256Hex upload use directory).directory path = some content := by
      unfold serve
      rw [read]
      exact Function.update_self _ _ _
    rw [cleaned, fresh] at there
    cases there
  · refine iff_of_true ?_ kept
    unfold serve
    rw [read]
    exact ⟨fun spool files finished => (by cases finished), rfl⟩

/-- A disk that is full at the last write, which only the flush reports. -/
def fullDisk : Upload Nat :=
  let granted : CapacityCall := fun _ => .ok (⟨0⟩, ⟨0, 0, 0, 0⟩)
  { requestHasher := none
    contentLength := some 2
    initialWait := 0
    begin := { capacity := granted, attempts := fun attempt => { path := attempt } }
    arrivals := [{ chunk := [1, 2], calls := { capacity := granted, write := ⟨0, .ok ()⟩ } }]
    ending := .ended
    flush := ⟨1, .error (.error "No space left on device (os error 28)")⟩ }

/-- The file of a full disk stays. -/
theorem full_disk_keeps_its_file :
    (serve (fun _ => "") fullDisk .dropped fun _ => none).directory 0 = some [1] ∧
      ¬ (Faithful (fun _ => "") fullDisk (serve (fun _ => "") fullDisk .dropped fun _ => none) ∧
        (serve (fun _ => "") fullDisk .dropped fun _ => none).directory = fun _ => none) := by
  have there : (serve (fun _ => "") fullDisk .dropped fun _ => none).directory 0 = some [1] := rfl
  refine ⟨there, ?_⟩
  rintro ⟨-, cleaned⟩
  rw [cleaned] at there
  cases there

end Steps

end UniApi.Front.RequestSpooling
