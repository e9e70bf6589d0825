/-
**The replay spool: a response body that is kept for its replays.**

`append_async` keeps a chunk in the heap while the threshold and the memory governor allow it, collects
later chunks into a batch for the disk, and writes a batch to the file of the spool when it is full, when
the governor refuses to hold it, and when the spool is sealed. What a call of the operating system
answers, how a call on the executor ends, and what the governor reads are inputs.

A reservation is in passing when the governor has granted it and no counter of the spool has it: just
before it is counted, and from the moment it is taken out of the counters until it is returned. `Moment`
records both sides wherever another task or the worker thread can look.

* `appendAsync_spec`, `sealAsync_spec`, `closeAsync_spec`: what a call stores when it returns, and that
  every moment of it is balanced, also if it raises;
* `replays_what_was_appended`: the chunks of the replay are the payloads, and nothing stays reserved.
-/

import Mathlib.Data.List.Basic
import Mathlib.Tactic.Ring
import UniApi.Lib.Raise
import UniApi.Lib.Utf8
import UniApi.Admission.MemoryGovernor

namespace UniApi.Middleware

open UniApi.Lib UniApi.Admission

/-! ### The spool and what surrounds it -/

/-- What the calls of a spool raise. -/
inductive SpoolError where
  /-- `IdempotencySpoolError`. -/
  | spool (message : String)
  /-- `ValueError`. -/
  | value (message : String)
  /-- `RuntimeError`. -/
  | runtime (message : String)
  /-- An `OSError` that no handler turned into an error of the spool. -/
  | os
  | cancelled
  deriving DecidableEq

/-- `IdempotencySpool`. The path stands for what its file holds. -/
structure IdempotencySpool where
  memoryThresholdBytes : ℕ
  memoryCategory : String
  memory : Bytes := []
  memoryReservedBytes : ℕ := 0
  pendingDisk : Bytes := []
  pendingDiskReservedBytes : ℕ := 0
  /-- The writer is open on the file. -/
  writer : Bool := false
  path : Option Bytes := none
  size : ℕ := 0
  isSealed : Bool := false
  isClosed : Bool := false

namespace IdempotencySpool

def memoryBytes (spool : IdempotencySpool) : ℕ :=
  spool.memoryReservedBytes + spool.pendingDiskReservedBytes

/-- The slices of the heap prefix, one from each offset of `range(0, len(memory), chunk_size)`. -/
def slices (chunkSize : ℕ) (memory : Bytes) : List Bytes :=
  (List.range ((memory.length + chunkSize - 1) / chunkSize)).map fun index =>
    (memory.drop (index * chunkSize)).take chunkSize

/-- `reader.read(chunk_size)` until nothing is left. A read of the file gives at least a byte, and how many
of the others that were asked for is an input. -/
def reads (chunkSize : ℕ) : (ℕ → ℕ) → Bytes → List Bytes
  | _, [] => []
  | others, byte :: rest =>
    let taken := min (others 0) (chunkSize - 1)
    (byte :: rest.take taken) :: reads chunkSize (fun later => others (later + 1)) (rest.drop taken)
termination_by _ content => content.length

end IdempotencySpool

/-- `iter_chunks`, all that it yields. -/
def IdempotencySpool.iterChunks (spool : IdempotencySpool) (chunkSize : Int) (others : ℕ → ℕ) :
    Except SpoolError (List Bytes) :=
  if chunkSize ≤ 0 then .error (.value "chunk_size must be positive")
  else if !spool.isSealed || spool.isClosed then .error (.spool "replay spool is not readable")
  else
    match spool.path with
    | none => .ok (slices chunkSize.toNat spool.memory)
    | some content => .ok (reads chunkSize.toNat others content)

/-- How a call on the executor ends for the task that awaits it. -/
inductive IoFate where
  | runs
  /-- The task is cancelled before the call is submitted. -/
  | cancelledWaiting
  /-- The task is cancelled while the call runs, which it waits for. -/
  | cancelledRunning

/-- What the governor holds for the category, what the spool counts, and what is in passing. -/
structure Moment where
  reserved : Option Int
  memoryBytes : ℕ
  inPassing : ℕ
  deriving DecidableEq

/-- A spool, its governor, and the answers that are still to come: the bytes that a call on the file
takes (`none`: it raises), and the ends of the calls on the executor. -/
structure SpoolWorld where
  spool : IdempotencySpool
  memoryGovernor : Option MemoryGovernor
  disk : ℕ → Option ℕ
  fates : ℕ → IoFate
  /-- The reservations that running calls have in their variables. -/
  inPassing : ℕ := 0
  moments : List Moment := []

namespace SpoolWorld

def reservation (world : SpoolWorld) : Option Int :=
  world.memoryGovernor.map (·.reservedFor world.spool.memoryCategory)

def moment (world : SpoolWorld) : Moment :=
  ⟨world.reservation, world.spool.memoryBytes, world.inPassing⟩

/-- A new spool. -/
def opened (memoryThresholdBytes : ℕ) (memoryGovernor : Option MemoryGovernor) (memoryCategory : String)
    (disk : ℕ → Option ℕ) (fates : ℕ → IoFate) : SpoolWorld where
  spool := { memoryThresholdBytes, memoryCategory }
  memoryGovernor := memoryGovernor
  disk := disk
  fates := fates

end SpoolWorld

/-- A call of the spool. -/
abbrev SpoolCall := Raise SpoolError SpoolWorld

namespace SpoolCall

def spool : SpoolCall IdempotencySpool := do return (← Raise.get).spool

def change (change : IdempotencySpool → IdempotencySpool) : SpoolCall Unit :=
  Raise.modify fun world => { world with spool := change world.spool }

/-- `if condition: call`. -/
def when (condition : Bool) (call : SpoolCall Unit) : SpoolCall Unit :=
  if condition then call else pure ()

/-- Another task, or the worker thread, can look at the spool here. -/
def observe : SpoolCall Unit :=
  Raise.modify fun world => { world with moments := world.moments ++ [world.moment] }

/-! ### Reservations -/

/-- `memory_governor.reserve_nowait`, if there is a governor. -/
def reserveNowait (size : ℕ) : SpoolCall Bool :=
  Raise.update fun world =>
    match world.memoryGovernor with
    | none => (true, { world with inPassing := world.inPassing + size })
    | some governor =>
      match governor.reserveNowait world.spool.memoryCategory size with
      | (true, governor) =>
        (true, { world with memoryGovernor := some governor, inPassing := world.inPassing + size })
      | (false, governor) => (false, { world with memoryGovernor := some governor })

/-- A reservation in passing goes into a counter of the spool. -/
def count (size : ℕ) (charge : IdempotencySpool → IdempotencySpool) : SpoolCall Unit :=
  Raise.modify fun world =>
    { world with spool := charge world.spool, inPassing := world.inPassing - size }

/-- `_reserve_memory` and `_reserve_pending_disk_memory`, by the counter. -/
def reserveCounted (charge : ℕ → IdempotencySpool → IdempotencySpool) (size : ℕ) : SpoolCall Bool := do
  if size = 0 then return true
  else if ← reserveNowait size then
    observe
    count size (charge size)
    return true
  else return false

/-- `_reserve_memory`. -/
def reserveMemory : ℕ → SpoolCall Bool :=
  reserveCounted fun size spool =>
    { spool with memoryReservedBytes := spool.memoryReservedBytes + size }

/-- `_reserve_pending_disk_memory`. -/
def reservePendingDiskMemory : ℕ → SpoolCall Bool :=
  reserveCounted fun size spool =>
    { spool with pendingDiskReservedBytes := spool.pendingDiskReservedBytes + size }

/-- A reservation is taken out of the counters of the spool. -/
def takeOut (reserved : ℕ) (clear : IdempotencySpool → IdempotencySpool) : SpoolCall Unit :=
  Raise.modify fun world =>
    { world with spool := clear world.spool, inPassing := world.inPassing + reserved }

/-- `memory_governor.release`, if there is something to return and a governor. -/
def giveBack (reserved : ℕ) : SpoolCall Unit := fun world =>
  let done := { world with inPassing := world.inPassing - reserved }
  if reserved = 0 then (.ok (), done)
  else
    match world.memoryGovernor with
    | none => (.ok (), done)
    | some governor =>
      match governor.release world.spool.memoryCategory reserved with
      | .ok governor => (.ok (), { done with memoryGovernor := some governor })
      | .error .negative => (.error (.value "memory release cannot be negative"), world)
      | .error .underflow => (.error (.runtime "adaptive memory reservation underflow"), world)

/-- `_release_memory`. -/
def releaseMemory : SpoolCall Unit := do
  let reserved := (← spool).memoryReservedBytes
  takeOut reserved fun spool => { spool with memoryReservedBytes := 0 }
  observe
  giveBack reserved

/-- `_discard_pending_disk`. -/
def discardPendingDisk : SpoolCall Unit := do
  let reserved := (← spool).pendingDiskReservedBytes
  takeOut reserved fun spool => { spool with pendingDiskReservedBytes := 0, pendingDisk := [] }
  observe
  giveBack reserved

/-! ### The file -/

/-- The answer of the operating system to one call on the file. -/
def askDisk : SpoolCall (Option ℕ) :=
  Raise.update fun world => (world.disk 0, { world with disk := fun later => world.disk (later + 1) })

/-- `_write_all`. -/
def writeAll (payload : Bytes) : SpoolCall Unit := do
  if !(← spool).writer then Raise.throw (.spool "idempotency spool writer is unavailable")
  else
    match ← askDisk with
    | none => Raise.throw (.spool "cannot write idempotency spool")
    | some taken =>
      change fun spool => { spool with path := spool.path.map (· ++ payload.take taken) }
      if min taken payload.length ≠ payload.length then
        Raise.throw (.spool "short write to idempotency spool")
      else pure ()

/-- `close`. An `OSError` of the writer or of the file's removal is dropped. -/
def close : SpoolCall Unit := do
  if (← spool).isClosed then pure ()
  else
    change fun spool => { spool with isClosed := true, writer := false }
    discardPendingDisk
    releaseMemory
    change fun spool => { spool with memory := [], path := none }

/-- `_spill_to_disk`. -/
def spillToDisk : SpoolCall Unit := do
  if (← spool).writer then pure ()
  else
    match ← askDisk with
    | none => Raise.throw (.spool "cannot create idempotency spool")
    | some _ =>
      change fun spool => { spool with path := some [], writer := true }
      let memory := (← spool).memory
      Raise.tryExcept (when (memory ≠ []) (writeAll memory)) fun error => do
        close
        Raise.throw error
      change fun spool => { spool with memory := [] }
      releaseMemory

/-- `_append_storage`. -/
def appendStorage (payload : Bytes) : SpoolCall Unit := do
  when (!(← spool).writer) spillToDisk
  writeAll payload

/-- The writer is flushed and closed. -/
def closeWriter : SpoolCall Unit := do
  match ← askDisk with
  | none => Raise.throw .os
  | some _ => change fun spool => { spool with writer := false }

/-- `seal`, whose name Lean keeps for itself. -/
def sealSpool (forceDisk : Bool) : SpoolCall Unit := do
  let spool ← spool
  if spool.isClosed then Raise.throw (.spool "cannot seal a closed replay spool")
  else if spool.isSealed then pure ()
  else
    when (forceDisk && !spool.writer) spillToDisk
    when (← SpoolCall.spool).writer closeWriter
    change fun spool => { spool with isSealed := true }

/-! ### The calls that are awaited -/

def nextFate : SpoolCall IoFate :=
  Raise.update fun world => (world.fates 0, { world with fates := fun later => world.fates (later + 1) })

/-- A task that is cancelled waits for the call, and what this raises is dropped. -/
def despiteCancellation (callback : SpoolCall Unit) : SpoolCall Unit := do
  Raise.attempt callback
  observe
  Raise.throw .cancelled

/-- `_run_io`. -/
def runIo (callback : SpoolCall Unit) : SpoolCall Unit := do
  observe
  match ← nextFate with
  | .runs => Raise.tryFinally callback observe
  | .cancelledWaiting => Raise.throw .cancelled
  | .cancelledRunning => despiteCancellation callback

/-- `_flush_pending_disk`. -/
def flushPendingDisk : SpoolCall Unit := do
  let spool ← spool
  if spool.pendingDisk = [] then pure ()
  else
    takeOut spool.pendingDiskReservedBytes fun spool =>
      { spool with pendingDisk := [], pendingDiskReservedBytes := 0 }
    Raise.tryFinally (runIo (appendStorage spool.pendingDisk)) (giveBack spool.pendingDiskReservedBytes)

/-- The first branch of `append_async`: whether the chunk is kept in the heap. -/
def keepInMemory (chunk : Bytes) : SpoolCall Bool := do
  let spool ← spool
  if !spool.writer ∧ spool.pendingDisk = [] ∧
      spool.memory.length + chunk.length ≤ spool.memoryThresholdBytes then
    if ← reserveMemory chunk.length then
      change fun spool =>
        { spool with memory := spool.memory ++ chunk, size := spool.size + chunk.length }
      return true
    else return false
  else return false

/-- The branches of `append_async` that write the chunk behind the batch. -/
def writeThrough (chunk : Bytes) : SpoolCall Unit := do
  flushPendingDisk
  runIo (appendStorage chunk)
  change fun spool => { spool with size := spool.size + chunk.length }

section Batches

-- `_SPOOL_BATCH_BYTES`.
variable (batchBytes : ℕ)

/-- The last branch of `append_async`: the chunk joins the batch. -/
def joinBatch (chunk : Bytes) : SpoolCall Unit := do
  change fun spool =>
    { spool with pendingDisk := spool.pendingDisk ++ chunk, size := spool.size + chunk.length }
  when (batchBytes ≤ (← spool).pendingDisk.length) flushPendingDisk

/-- `append_async`, under the lock of the spool. -/
def appendAsync (payload : Bytes) : SpoolCall Unit := do
  let spool ← spool
  if payload = [] then pure ()
  else if spool.isSealed || spool.isClosed then
    Raise.throw (.spool "cannot append to a closed replay spool")
  else if ← keepInMemory payload then pure ()
  else if batchBytes ≤ payload.length then writeThrough payload
  else
    when (batchBytes < spool.pendingDisk.length + payload.length) flushPendingDisk
    if ← reservePendingDiskMemory payload.length then joinBatch batchBytes payload
    else writeThrough payload

/-- The payloads that are appended one after another, while they succeed. -/
def appendAll : List Bytes → SpoolCall Unit
  | [] => pure ()
  | payload :: rest => do
    appendAsync batchBytes payload
    appendAll rest

end Batches

/-- `seal_async`. -/
def sealAsync (forceDisk : Bool) : SpoolCall Unit := do
  let spool ← spool
  if spool.isClosed then Raise.throw (.spool "cannot seal a closed replay spool")
  else if spool.isSealed then pure ()
  else
    flushPendingDisk
    runIo (sealSpool forceDisk)

/-- `_close_async_once` in a task of its own, which a cancelled caller waits for wherever it is. -/
def runShielded (callback : SpoolCall Unit) : SpoolCall Unit := do
  observe
  match ← nextFate with
  | .runs => Raise.tryFinally callback observe
  | .cancelledWaiting | .cancelledRunning => despiteCancellation callback

/-- `close_async`. -/
def closeAsync : SpoolCall Unit := do
  if (← spool).isClosed then pure ()
  else
    discardPendingDisk
    runShielded close

end SpoolCall

/-! ### What every moment satisfies -/

/-- **A balanced moment**: the governor holds what the spool counts and what is in passing, beyond what
other spools hold. -/
def Moment.Balanced (others : Int) (moment : Moment) : Prop :=
  ∀ reserved ∈ moment.reserved, reserved = others + moment.memoryBytes + moment.inPassing

/-- Every moment so far is balanced, and this one. -/
structure Sound (others : Int) (passing : ℕ) (world : SpoolWorld) : Prop where
  balanced : world.moment.Balanced others
  passing : world.inPassing = passing
  moments : ∀ moment ∈ world.moments, moment.Balanced others

/-- The world is sound, and its spool is this one. -/
def At (others : Int) (passing : ℕ) (spool : IdempotencySpool) (world : SpoolWorld) : Prop :=
  Sound others passing world ∧ world.spool = spool

/-- Between two calls the governor holds what the spool counts. -/
theorem Sound.reservation {world : SpoolWorld} (sound : Sound 0 0 world) :
    ∀ reserved ∈ world.reservation, reserved = world.spool.memoryBytes := by
  intro reserved held
  have balanced := sound.balanced reserved held
  rw [show world.moment.inPassing = 0 from sound.passing] at balanced
  rw [balanced, Int.zero_add, Nat.cast_zero, Int.add_zero]
  rfl

/-- Every moment so far had what the spool counts and what was in passing. -/
def SpoolWorld.Accounted (world : SpoolWorld) : Prop :=
  ∀ moment ∈ world.moments, ∀ reserved ∈ moment.reserved,
    reserved = moment.memoryBytes + moment.inPassing

theorem Sound.accounted {world : SpoolWorld} (sound : Sound 0 0 world) : world.Accounted := by
  intro moment there reserved held
  rw [sound.moments moment there reserved held, Int.zero_add]

theorem opened_sound {memoryThresholdBytes : ℕ} {memoryGovernor : Option MemoryGovernor}
    {memoryCategory : String} {disk : ℕ → Option ℕ} {fates : ℕ → IoFate}
    (alone : ∀ governor ∈ memoryGovernor, governor.reservedFor memoryCategory = 0) :
    Sound 0 0 (.opened memoryThresholdBytes memoryGovernor memoryCategory disk fates) := by
  refine ⟨fun reserved held => ?_, rfl, nofun⟩
  obtain ⟨governor, isGovernor, rfl⟩ := Option.map_eq_some_iff.mp held
  exact alone governor isGovernor

namespace IdempotencySpool

/-- The payload is behind what the file holds. -/
def written (payload : Bytes) (spool : IdempotencySpool) : IdempotencySpool :=
  { spool with path := spool.path.map (· ++ payload) }

/-- The heap prefix is in the file, if it was not. -/
def onDisk (spool : IdempotencySpool) : IdempotencySpool :=
  if spool.writer then spool
  else { spool with path := some spool.memory, writer := true, memory := [], memoryReservedBytes := 0 }

/-- The batch is in the file. -/
def flushed (spool : IdempotencySpool) : IdempotencySpool :=
  if spool.pendingDisk = [] then spool
  else
    ({ spool with pendingDisk := [], pendingDiskReservedBytes := 0 } : IdempotencySpool).onDisk.written
      spool.pendingDisk

/-- The chunk is behind the heap prefix. -/
def keeping (chunk : Bytes) (spool : IdempotencySpool) : IdempotencySpool :=
  { spool with
    memoryReservedBytes := spool.memoryReservedBytes + chunk.length
    memory := spool.memory ++ chunk, size := spool.size + chunk.length }

/-- The chunk is in the batch. -/
def joined (chunk : Bytes) (spool : IdempotencySpool) : IdempotencySpool :=
  { spool with pendingDisk := spool.pendingDisk ++ chunk, size := spool.size + chunk.length }

/-- The chunk is counted. -/
def grown (chunk : Bytes) (spool : IdempotencySpool) : IdempotencySpool :=
  { spool with size := spool.size + chunk.length }

/-- The spool is sealed. -/
def sealedAs (forceDisk : Bool) (spool : IdempotencySpool) : IdempotencySpool :=
  { if forceDisk then spool.onDisk else spool with writer := false, isSealed := true }

/-- Nothing is kept. -/
def shut (spool : IdempotencySpool) : IdempotencySpool :=
  if spool.isClosed then spool
  else
    { spool with
      isClosed := true, writer := false, pendingDiskReservedBytes := 0, pendingDisk := []
      memoryReservedBytes := 0, memory := [], path := none }

/-- **What an open spool stores**: the file, the heap prefix and the batch, one behind the other. The heap
prefix is empty once there is a file. -/
structure Stores (content : Bytes) (spool : IdempotencySpool) : Prop where
  stored : spool.path.getD [] ++ spool.memory ++ spool.pendingDisk = content
  spilled : spool.writer = true → spool.memory = [] ∧ spool.path.isSome
  unspilled : spool.writer = false → spool.path = none
  isOpen : spool.isSealed = false ∧ spool.isClosed = false

/-- A spool that stores a text counts its bytes. -/
structure Holds (content : Bytes) (spool : IdempotencySpool) : Prop extends Stores content spool where
  sized : spool.size = content.length

/-- From a spool that holds a text, the payload is behind it. -/
def Appends (spool : IdempotencySpool) (payload : Bytes) (after : IdempotencySpool) : Prop :=
  ∀ content, spool.Holds content → after.Holds (content ++ payload)

section Stores

variable {content : Bytes} {spool : IdempotencySpool}

theorem writer_onDisk (spool : IdempotencySpool) : spool.onDisk.writer = true := by
  unfold onDisk
  split
  · assumption
  · rfl

theorem pendingDisk_onDisk (spool : IdempotencySpool) : spool.onDisk.pendingDisk = spool.pendingDisk := by
  unfold onDisk
  split <;> rfl

theorem size_onDisk (spool : IdempotencySpool) : spool.onDisk.size = spool.size := by
  unfold onDisk
  split <;> rfl

theorem Stores.onDisk (stores : spool.Stores content) : spool.onDisk.Stores content := by
  unfold IdempotencySpool.onDisk
  split
  · exact stores
  · rename_i notYet
    have none_ : spool.path = none := stores.unspilled (by simpa using notYet)
    have same := stores.stored
    rw [none_] at same
    exact ⟨by simpa using same, fun _ => ⟨rfl, rfl⟩, nofun, stores.isOpen⟩

theorem Stores.written (stores : spool.Stores content) (isOpen : spool.writer = true)
    (noBatch : spool.pendingDisk = []) (payload : Bytes) :
    (spool.written payload).Stores (content ++ payload) := by
  obtain ⟨noPrefix, hasFile⟩ := stores.spilled isOpen
  obtain ⟨file, isFile⟩ := Option.isSome_iff_exists.mp hasFile
  have same := stores.stored
  rw [isFile, noPrefix, noBatch, List.append_nil, List.append_nil] at same
  refine ⟨?_, fun _ => ⟨noPrefix, ?_⟩, fun shut => absurd (isOpen.symm.trans shut) nofun, stores.isOpen⟩
  · show (spool.path.map (· ++ payload)).getD [] ++ spool.memory ++ spool.pendingDisk = content ++ payload
    rw [isFile, noPrefix, noBatch, List.append_nil, List.append_nil, ← same]
    rfl
  · show (spool.path.map (· ++ payload)).isSome
    rw [isFile]
    rfl

theorem Stores.flushed (stores : spool.Stores content) :
    spool.flushed.Stores content ∧ spool.flushed.pendingDisk = [] ∧ spool.flushed.size = spool.size := by
  unfold IdempotencySpool.flushed
  split
  · exact ⟨stores, ‹_›, rfl⟩
  · have without : IdempotencySpool.Stores (spool.path.getD [] ++ spool.memory)
        { spool with pendingDisk := [], pendingDiskReservedBytes := 0 } :=
      ⟨List.append_nil _, stores.spilled, stores.unspilled, stores.isOpen⟩
    refine ⟨?_, pendingDisk_onDisk _, size_onDisk _⟩
    have written := without.onDisk.written (writer_onDisk _) (pendingDisk_onDisk _) spool.pendingDisk
    rwa [stores.stored] at written

theorem Appends.flushed {payload : Bytes} {after : IdempotencySpool}
    (appends : spool.Appends payload after) :
    spool.Appends payload after.flushed := by
  intro content holds
  obtain ⟨stores, _, sized⟩ := (appends content holds).toStores.flushed
  exact ⟨stores, sized.trans (appends content holds).sized⟩

theorem Holds.flushed (holds : spool.Holds content) : spool.flushed.Holds content := by
  obtain ⟨stores, _, sized⟩ := holds.toStores.flushed
  exact ⟨stores, sized.trans holds.sized⟩

theorem appends_keeping {chunk : Bytes} (noFile : spool.writer = false)
    (noBatch : spool.pendingDisk = []) :
    spool.Appends chunk (spool.keeping chunk) := by
  rintro content ⟨stores, sized⟩
  have same := stores.stored
  rw [stores.unspilled noFile, noBatch, List.append_nil] at same
  refine ⟨⟨?_, fun isOpen => absurd (noFile.symm.trans isOpen) nofun, stores.unspilled, stores.isOpen⟩, ?_⟩
  · show spool.path.getD [] ++ (spool.memory ++ chunk) ++ spool.pendingDisk = content ++ chunk
    rw [stores.unspilled noFile, noBatch, List.append_nil, ← same]
    rfl
  · show spool.size + chunk.length = _
    rw [sized, List.length_append]

theorem appends_joined (chunk : Bytes) : spool.Appends chunk (spool.joined chunk) := by
  rintro content ⟨stores, sized⟩
  refine ⟨⟨?_, stores.spilled, stores.unspilled, stores.isOpen⟩, ?_⟩
  · show spool.path.getD [] ++ spool.memory ++ (spool.pendingDisk ++ chunk) = content ++ chunk
    rw [← List.append_assoc, stores.stored]
  · show spool.size + chunk.length = _
    rw [sized, List.length_append]

theorem appends_writeThrough (chunk : Bytes) :
    spool.Appends chunk ((spool.flushed.onDisk.written chunk).grown chunk) := by
  rintro content ⟨stores, sized⟩
  obtain ⟨flushed, noBatch, sameSize⟩ := stores.flushed
  have written := flushed.onDisk.written (writer_onDisk _) ((pendingDisk_onDisk _).trans noBatch) chunk
  refine ⟨⟨written.stored, written.spilled, written.unspilled, written.isOpen⟩, ?_⟩
  show spool.flushed.onDisk.size + chunk.length = _
  rw [size_onDisk, sameSize, sized, List.length_append]

/-- **What a sealed spool stores**: its file, or the heap prefix if it has none. -/
structure Readable (content : Bytes) (spool : IdempotencySpool) : Prop where
  isSealed : spool.isSealed = true
  isOpen : spool.isClosed = false
  stored : spool.path.getD spool.memory = content

theorem Stores.sealedAs (stores : spool.Stores content) (noBatch : spool.pendingDisk = [])
    (forceDisk : Bool) :
    (spool.sealedAs forceDisk).Readable content ∧ (spool.sealedAs forceDisk).size = spool.size := by
  have readable : ∀ {spool : IdempotencySpool}, spool.Stores content → spool.pendingDisk = [] →
      ({ spool with writer := false, isSealed := true } : IdempotencySpool).Readable content := by
    intro spool stores noBatch
    refine ⟨rfl, stores.isOpen.2, ?_⟩
    have same := stores.stored
    rw [noBatch, List.append_nil] at same
    show spool.path.getD spool.memory = content
    cases isFile : spool.path with
    | none =>
      rw [isFile] at same
      exact same
    | some file =>
      have isOpen : spool.writer = true := by
        by_contra shut
        exact Option.some_ne_none file (isFile.symm.trans (stores.unspilled (by simpa using shut)))
      rw [isFile, (stores.spilled isOpen).1, List.append_nil] at same
      exact same
  cases forceDisk with
  | true => exact ⟨readable stores.onDisk ((pendingDisk_onDisk _).trans noBatch), size_onDisk _⟩
  | false => exact ⟨readable stores noBatch, rfl⟩

/-! #### What a replay yields -/

theorem flatten_slices {chunkSize : ℕ} (positive : 0 < chunkSize) (memory : Bytes) :
    (slices chunkSize memory).flatten = memory := by
  have upTo : ∀ count, ((List.range count).map fun index =>
      (memory.drop (index * chunkSize)).take chunkSize).flatten = memory.take (count * chunkSize) := by
    intro count
    induction count with
    | zero => simp
    | succ count ih =>
      rw [List.range_succ, List.map_append, List.flatten_append, ih, Nat.succ_mul, List.take_add]
      simp
  have covered : memory.length ≤ (memory.length + chunkSize - 1) / chunkSize * chunkSize := by
    have whole := Nat.div_add_mod (memory.length + chunkSize - 1) chunkSize
    have below := Nat.mod_lt (memory.length + chunkSize - 1) positive
    rw [Nat.mul_comm] at whole
    omega
  rw [slices, upTo, List.take_of_length_le covered]

theorem flatten_reads (chunkSize : ℕ) (others : ℕ → ℕ) (content : Bytes) :
    (reads chunkSize others content).flatten = content := by
  induction others, content using reads.induct chunkSize with
  | case1 => rw [reads, List.flatten_nil]
  | case2 others byte rest taken ih =>
    rw [reads, List.flatten_cons, ih, List.cons_append, List.take_append_drop]

/-- **A replay yields what the spool stores**, for every chunk size and however the file is read. -/
theorem Readable.iterChunks (readable : spool.Readable content) {chunkSize : Int} (positive : 0 < chunkSize)
    (others : ℕ → ℕ) :
    ∃ chunks, spool.iterChunks chunkSize others = .ok chunks ∧ chunks.flatten = content := by
  obtain ⟨isSealed, isOpen, stored⟩ := readable
  unfold IdempotencySpool.iterChunks
  rw [if_neg (by omega), if_neg (by simp [isSealed, isOpen])]
  cases isFile : spool.path with
  | none =>
    refine ⟨_, rfl, ?_⟩
    rw [flatten_slices (by omega), ← stored, isFile]
    rfl
  | some file =>
    refine ⟨_, rfl, ?_⟩
    rw [flatten_reads, ← stored, isFile]
    rfl

end Stores

end IdempotencySpool

namespace SpoolCall

open Raise (Spec)

section Specs

variable {others : Int} {passing : ℕ} {spool : IdempotencySpool} {α : Type}
  {post : α → SpoolWorld → Prop} {fails : SpoolError → SpoolWorld → Prop}

theorem bind_spool {next : IdempotencySpool → SpoolCall α}
    (later : Spec (At others passing spool) (next spool) post fails) :
    Spec (At others passing spool) (SpoolCall.spool >>= next) post fails := by
  intro world start
  show Raise.Lands post fails (next world.spool world)
  rw [start.2]
  exact later world start

/-- A change that no counter takes part in. -/
theorem change_spec {update : IdempotencySpool → IdempotencySpool}
    (counters : (update spool).memoryBytes = spool.memoryBytes)
    (category : (update spool).memoryCategory = spool.memoryCategory) :
    Spec (At others passing spool) (change update) (fun _ => At others passing (update spool)) fails := by
  refine Spec.modify fun world start => ?_
  obtain ⟨⟨balanced, inPassing, moments⟩, rfl⟩ := start
  refine ⟨⟨?_, inPassing, moments⟩, rfl⟩
  simp only [Moment.Balanced, SpoolWorld.moment, SpoolWorld.reservation, counters, category] at balanced ⊢
  exact balanced

theorem observe_spec :
    Spec (At others passing spool) observe (fun _ => At others passing spool) fails := by
  refine Spec.modify fun world start => ?_
  obtain ⟨⟨balanced, inPassing, moments⟩, rfl⟩ := start
  refine ⟨⟨balanced, inPassing, fun moment there => ?_⟩, rfl⟩
  rcases List.mem_append.mp there with before | now
  · exact moments moment before
  · rw [List.mem_singleton.mp now]
    exact balanced

theorem reserveNowait_spec (size : ℕ) :
    Spec (At others passing spool) (reserveNowait size)
      (fun granted => At others (if granted then passing + size else passing) spool) fails := by
  refine Spec.update fun world start => ?_
  obtain ⟨⟨balanced, inPassing, moments⟩, rfl⟩ := start
  simp only [Moment.Balanced, SpoolWorld.moment, SpoolWorld.reservation] at balanced
  cases held : world.memoryGovernor with
  | none =>
    refine ⟨⟨?_, congrArg (· + size) inPassing, moments⟩, rfl⟩
    simp [Moment.Balanced, SpoolWorld.moment, SpoolWorld.reservation]
  | some governor =>
    have after := governor.reserve_reserved world.spool.memoryCategory world.spool.memoryCategory size
    have before := balanced (governor.reservedFor world.spool.memoryCategory) (by rw [held]; rfl)
    rcases outcome : governor.reserveNowait world.spool.memoryCategory size with ⟨granted, governor'⟩
    rw [outcome] at after
    simp only [outcome]
    cases granted with
    | true =>
      refine ⟨⟨?_, congrArg (· + size) inPassing, moments⟩, rfl⟩
      rintro reserved ⟨⟩
      simp only [SpoolWorld.moment] at after ⊢
      rw [after, before, if_pos ⟨trivial, trivial⟩]
      push_cast
      ring
    | false =>
      refine ⟨⟨?_, inPassing, moments⟩, rfl⟩
      rintro reserved ⟨⟩
      simp only [SpoolWorld.moment] at after ⊢
      rw [after, before, if_neg (by simp), add_zero]

theorem count_spec {size : ℕ} {charge : IdempotencySpool → IdempotencySpool}
    (counts : (charge spool).memoryBytes = spool.memoryBytes + size)
    (category : (charge spool).memoryCategory = spool.memoryCategory) :
    Spec (At others (passing + size) spool) (count size charge)
      (fun _ => At others passing (charge spool)) fails := by
  refine Spec.modify fun world start => ?_
  obtain ⟨⟨balanced, inPassing, moments⟩, rfl⟩ := start
  refine ⟨⟨fun reserved held => ?_, ?_, moments⟩, rfl⟩
  · simp only [SpoolWorld.moment, SpoolWorld.reservation, category] at held
    have before := balanced reserved held
    simp only [SpoolWorld.moment, counts] at before ⊢
    omega
  · show world.inPassing - size = passing
    omega

/-- **A reservation is granted and counted**, or refused. -/
theorem reserveCounted_spec {charge : ℕ → IdempotencySpool → IdempotencySpool} (size : ℕ)
    (counts : ∀ size, (charge size spool).memoryBytes = spool.memoryBytes + size)
    (category : ∀ size, (charge size spool).memoryCategory = spool.memoryCategory)
    (nothing : charge 0 spool = spool) :
    Spec (At others passing spool) (reserveCounted charge size)
      (fun granted => At others passing (if granted then charge size spool else spool)) fails := by
  refine Spec.ite (fun zero => ?_) fun _ => ?_
  · refine Spec.pure fun world start => ?_
    rw [zero, if_pos rfl, nothing]
    exact start
  · refine Spec.bind _ (reserveNowait_spec size) fun granted => ?_
    cases granted with
    | false => exact Spec.pure fun world start => start
    | true =>
      refine Spec.bind _ observe_spec fun _ => ?_
      exact Spec.bind _ (count_spec (counts size) (category size)) fun _ =>
        Spec.pure fun world start => start

theorem takeOut_spec {reserved : ℕ} {clear : IdempotencySpool → IdempotencySpool}
    (counts : (clear spool).memoryBytes + reserved = spool.memoryBytes)
    (category : (clear spool).memoryCategory = spool.memoryCategory) :
    Spec (At others passing spool) (takeOut reserved clear)
      (fun _ => At others (passing + reserved) (clear spool)) fails := by
  refine Spec.modify fun world start => ?_
  obtain ⟨⟨balanced, inPassing, moments⟩, rfl⟩ := start
  refine ⟨⟨fun held isHeld => ?_, congrArg (· + reserved) inPassing, moments⟩, rfl⟩
  simp only [SpoolWorld.moment, SpoolWorld.reservation, category] at isHeld
  have before := balanced held isHeld
  simp only [SpoolWorld.moment] at before ⊢
  omega

/-- **What is in passing can be returned**: the governor does not hold less. -/
theorem giveBack_spec (nonneg : 0 ≤ others) (reserved : ℕ) :
    Spec (At others (passing + reserved) spool) (giveBack reserved) (fun _ => At others passing spool)
      fails := by
  rintro world ⟨⟨balanced, inPassing, moments⟩, rfl⟩
  have left : world.inPassing - reserved = passing := by omega
  unfold giveBack
  dsimp only
  split
  · rename_i zero
    refine ⟨⟨fun held isHeld => ?_, left, moments⟩, rfl⟩
    have before := balanced held isHeld
    simp only [SpoolWorld.moment] at before ⊢
    omega
  · cases held : world.memoryGovernor with
    | none =>
      refine ⟨⟨?_, left, moments⟩, rfl⟩
      simp [Moment.Balanced, SpoolWorld.moment, SpoolWorld.reservation]
    | some governor =>
      have before := balanced (governor.reservedFor world.spool.memoryCategory)
        (by simp [SpoolWorld.moment, SpoolWorld.reservation, held])
      simp only [SpoolWorld.moment] at before
      obtain ⟨after, released⟩ : ∃ after,
          governor.release world.spool.memoryCategory reserved = .ok after :=
        MemoryGovernor.release_ok (Int.natCast_nonneg reserved) (by omega)
      have lower := MemoryGovernor.release_reserved released world.spool.memoryCategory
      simp only [released]
      refine ⟨⟨?_, left, moments⟩, rfl⟩
      rintro reserved' ⟨⟩
      rw [if_pos rfl] at lower
      simp only [SpoolWorld.moment] at lower ⊢
      omega

theorem releaseMemory_spec (nonneg : 0 ≤ others) :
    Spec (At others passing spool) releaseMemory
      (fun _ => At others passing { spool with memoryReservedBytes := 0 }) fails := by
  refine bind_spool (Spec.bind _ (takeOut_spec ?_ rfl) fun _ => ?_)
  · simp only [IdempotencySpool.memoryBytes]
    omega
  · exact Spec.bind _ observe_spec fun _ => giveBack_spec nonneg _

theorem discardPendingDisk_spec (nonneg : 0 ≤ others) :
    Spec (At others passing spool) discardPendingDisk
      (fun _ => At others passing { spool with pendingDiskReservedBytes := 0, pendingDisk := [] })
      fails := by
  refine bind_spool (Spec.bind _ (takeOut_spec ?_ rfl) fun _ => ?_)
  · simp only [IdempotencySpool.memoryBytes]
    omega
  · exact Spec.bind _ observe_spec fun _ => giveBack_spec nonneg _

/-! ### What a call that returns leaves -/

/-- A call that returns at a spool, and is sound where it raises. -/
abbrev Leaves (others : Int) (passing : ℕ) (spool : IdempotencySpool) (call : SpoolCall Unit)
    (after : IdempotencySpool) : Prop :=
  Spec (At others passing spool) call (fun _ => At others passing after) fun _ => Sound others passing

theorem askDisk_spec :
    Spec (At others passing spool) askDisk (fun _ => At others passing spool) fails :=
  Spec.update fun _ start => ⟨⟨start.1.balanced, start.1.passing, start.1.moments⟩, start.2⟩

theorem nextFate_spec :
    Spec (At others passing spool) nextFate (fun _ => At others passing spool) fails :=
  Spec.update fun _ start => ⟨⟨start.1.balanced, start.1.passing, start.1.moments⟩, start.2⟩

theorem throw_spec {error : SpoolError} :
    Spec (At others passing spool) (Raise.throw error : SpoolCall α) post fun _ => Sound others passing :=
  Spec.throw fun _ start => start.1

theorem done_spec : Leaves others passing spool (pure ()) spool := Spec.pure fun _ start => start

theorem writeAll_spec (payload : Bytes) :
    Leaves others passing spool (writeAll payload) (spool.written payload) := by
  refine bind_spool (Spec.ite (fun _ => throw_spec) fun _ => ?_)
  refine Spec.bind _ askDisk_spec fun answer => ?_
  cases answer with
  | none => exact throw_spec
  | some taken =>
    refine Spec.bind _ (change_spec rfl rfl) fun _ => Spec.ite (fun _ => throw_spec) fun whole => ?_
    have all : payload.take taken = payload := List.take_of_length_le (by omega)
    refine Spec.pure fun world start => ?_
    rw [all] at start
    exact start

theorem close_spec (nonneg : 0 ≤ others) :
    Spec (At others passing spool) close (fun _ => At others passing spool.shut) fails := by
  refine bind_spool (Spec.ite (fun already => ?_) fun notYet => ?_)
  · refine Spec.pure fun world start => ?_
    rw [IdempotencySpool.shut, if_pos already]
    exact start
  · rw [IdempotencySpool.shut, if_neg notYet]
    refine Spec.bind _ (change_spec rfl rfl) fun _ => ?_
    refine Spec.bind _ (discardPendingDisk_spec nonneg) fun _ => ?_
    refine Spec.bind _ (releaseMemory_spec nonneg) fun _ => ?_
    exact change_spec rfl rfl

theorem when_spec {condition : Bool} {call : SpoolCall Unit} {after : IdempotencySpool}
    (holds : condition = true → Leaves others passing spool call after)
    (skipped : condition = false → after = spool) :
    Leaves others passing spool (when condition call) after := by
  cases condition with
  | true => exact holds rfl
  | false =>
    rw [skipped rfl]
    exact done_spec

theorem sound_spec {call : SpoolCall α}
    (each : ∀ spool, Spec (At others passing spool) call (fun _ => Sound others passing) fails) :
    Spec (Sound others passing) call (fun _ => Sound others passing) fails :=
  fun world start => each world.spool world ⟨start, rfl⟩

theorem spillToDisk_spec (nonneg : 0 ≤ others) :
    Leaves others passing spool spillToDisk spool.onDisk := by
  refine bind_spool (Spec.ite (fun already => ?_) fun notYet => ?_)
  · rw [IdempotencySpool.onDisk, if_pos already]
    exact done_spec
  · rw [IdempotencySpool.onDisk, if_neg notYet]
    refine Spec.bind _ askDisk_spec fun answer => ?_
    cases answer with
    | none => exact throw_spec
    | some _ =>
      refine Spec.bind _ (change_spec rfl rfl) fun _ => bind_spool ?_
      refine Spec.bind (fun _ => At others passing { spool with path := some spool.memory, writer := true })
        (Spec.tryExcept (fun _ => Sound others passing) (when_spec (fun _ => ?_) fun empty => ?_)
          fun error => ?_) fun _ => ?_
      · exact writeAll_spec spool.memory
      · rw [show spool.memory = [] by simpa using empty]
      · exact fun world start => Spec.bind _ (close_spec nonneg) (fun _ => throw_spec) world ⟨start, rfl⟩
      · exact Spec.bind _ (change_spec rfl rfl) fun _ => releaseMemory_spec nonneg

theorem appendStorage_spec (nonneg : 0 ≤ others) (payload : Bytes) :
    Leaves others passing spool (appendStorage payload) (spool.onDisk.written payload) := by
  refine bind_spool (Spec.bind _ (when_spec (fun _ => spillToDisk_spec nonneg) fun opened => ?_)
    fun _ => writeAll_spec payload)
  rw [IdempotencySpool.onDisk, if_pos (by simpa using opened)]

/-- **A call on the executor** leaves what its callback leaves. -/
theorem observed_spec {callback : SpoolCall Unit} {after : IdempotencySpool}
    (runs : Leaves others passing spool callback after) :
    Leaves others passing spool (Raise.tryFinally callback observe) after := by
  refine Spec.finally _ _ runs (fun _ => observe_spec) fun error => ?_
  exact sound_spec fun seen => observe_spec.returning fun _ _ now => now.1

theorem despiteCancellation_spec {callback : SpoolCall Unit} {after : IdempotencySpool}
    (runs : Leaves others passing spool callback after) :
    Leaves others passing spool (despiteCancellation callback) after := by
  refine Spec.bind (fun _ => Sound others passing) (Spec.attempt ?_) fun _ =>
    Spec.bind (fun _ => Sound others passing) ?_ fun _ => Spec.throw fun _ start => start
  · exact runs.returning fun _ _ now => now.1
  · exact sound_spec fun seen => observe_spec.returning fun _ _ now => now.1

theorem runIo_spec {callback : SpoolCall Unit} {after : IdempotencySpool}
    (runs : Leaves others passing spool callback after) :
    Leaves others passing spool (runIo callback) after := by
  refine Spec.bind _ observe_spec fun _ => Spec.bind _ nextFate_spec fun fate => ?_
  cases fate with
  | runs => exact observed_spec runs
  | cancelledWaiting => exact throw_spec
  | cancelledRunning => exact despiteCancellation_spec runs

theorem runShielded_spec {callback : SpoolCall Unit} {after : IdempotencySpool}
    (runs : Leaves others passing spool callback after) :
    Leaves others passing spool (runShielded callback) after := by
  refine Spec.bind _ observe_spec fun _ => Spec.bind _ nextFate_spec fun fate => ?_
  cases fate with
  | runs => exact observed_spec runs
  | cancelledWaiting | cancelledRunning => exact despiteCancellation_spec runs

/-- **The batch is written**, and what it reserved is returned, also when it is not written. -/
theorem flushPendingDisk_spec (nonneg : 0 ≤ others) :
    Leaves others passing spool flushPendingDisk spool.flushed := by
  refine bind_spool (Spec.ite (fun empty => ?_) fun some_ => ?_)
  · rw [IdempotencySpool.flushed, if_pos empty]
    exact done_spec
  · rw [IdempotencySpool.flushed, if_neg some_]
    refine Spec.bind _ (takeOut_spec ?_ rfl) fun _ => ?_
    · simp only [IdempotencySpool.memoryBytes]
      omega
    · refine Spec.finally _ _ (runIo_spec (appendStorage_spec nonneg _)) (fun _ => giveBack_spec nonneg _)
        fun error => ?_
      exact fun world start => (giveBack_spec nonneg _).returning (fun _ _ now => now.1) world ⟨start, rfl⟩

/-- The first branch of an append: the chunk is behind the heap prefix, which nothing follows. -/
theorem keepInMemory_spec (chunk : Bytes) :
    Spec (At others passing spool) (keepInMemory chunk)
      (fun kept world => (kept = true → spool.writer = false ∧ spool.pendingDisk = []) ∧
        At others passing (if kept then spool.keeping chunk else spool) world) fails := by
  refine bind_spool (Spec.ite (fun free => ?_) fun _ => ?_)
  · refine Spec.bind _ (reserveCounted_spec chunk.length (fun size => ?_) (fun _ => rfl) rfl)
      fun granted => ?_
    · simp only [IdempotencySpool.memoryBytes]
      omega
    · cases granted with
      | true =>
        refine Spec.bind _ (change_spec rfl rfl) fun _ => Spec.pure fun world start => ⟨fun _ => ?_, start⟩
        exact ⟨by simpa using free.1, free.2.1⟩
      | false => exact Spec.pure fun world start => ⟨nofun, start⟩
  · exact Spec.pure fun world start => ⟨nofun, start⟩

theorem writeThrough_spec (nonneg : 0 ≤ others) (chunk : Bytes) :
    Leaves others passing spool (writeThrough chunk)
      ((spool.flushed.onDisk.written chunk).grown chunk) := by
  refine Spec.bind _ (flushPendingDisk_spec nonneg) fun _ => ?_
  refine Spec.bind _ (runIo_spec (appendStorage_spec nonneg chunk)) fun _ => ?_
  exact change_spec rfl rfl

theorem joinBatch_spec (nonneg : 0 ≤ others) (batchBytes : ℕ) (chunk : Bytes) :
    Spec (At others passing spool) (joinBatch batchBytes chunk)
      (fun _ world => Sound others passing world ∧ spool.Appends chunk world.spool)
      fun _ => Sound others passing := by
  refine Spec.bind (fun _ => At others passing (spool.joined chunk)) (change_spec rfl rfl) fun _ => ?_
  refine bind_spool ?_
  cases full : decide (batchBytes ≤ (spool.joined chunk).pendingDisk.length) with
  | true =>
    refine (flushPendingDisk_spec nonneg).returning fun _ world now => ⟨now.1, ?_⟩
    rw [now.2]
    exact (IdempotencySpool.appends_joined chunk).flushed
  | false =>
    refine Spec.pure fun world now => ⟨now.1, ?_⟩
    rw [now.2]
    exact IdempotencySpool.appends_joined chunk

/-- **An append that returns has stored the payload behind what was stored**, in whichever store. -/
theorem appendAsync_spec (nonneg : 0 ≤ others) (batchBytes : ℕ) (payload : Bytes) :
    Spec (At others passing spool) (appendAsync batchBytes payload)
      (fun _ world => Sound others passing world ∧ spool.Appends payload world.spool)
      fun _ => Sound others passing := by
  have through : ∀ {before : IdempotencySpool}, (∀ content, spool.Holds content → before.Holds content) →
      Spec (At others passing before) (writeThrough payload)
        (fun _ world => Sound others passing world ∧ spool.Appends payload world.spool)
        fun _ => Sound others passing := by
    refine fun keeps => (writeThrough_spec nonneg payload).returning fun _ world now => ⟨now.1, ?_⟩
    rw [now.2]
    exact fun content holds => IdempotencySpool.appends_writeThrough payload content (keeps content holds)
  refine bind_spool (Spec.ite (fun nothing => ?_) fun _ => Spec.ite (fun _ => throw_spec) fun _ => ?_)
  · refine Spec.pure fun world now => ⟨now.1, fun content holds => ?_⟩
    rw [now.2, nothing, List.append_nil]
    exact holds
  refine Spec.bind _ (keepInMemory_spec payload) fun kept => Spec.given fun free => ?_
  cases kept with
  | true =>
    refine Spec.pure fun world now => ⟨now.1, ?_⟩
    rw [now.2]
    exact IdempotencySpool.appends_keeping (free rfl).1 (free rfl).2
  | false =>
    refine Spec.ite nofun fun _ => Spec.ite (fun _ => through fun _ holds => holds) fun _ => ?_
    refine Spec.bind (fun _ world => ∃ before : IdempotencySpool,
      (∀ content, spool.Holds content → before.Holds content) ∧ At others passing before world) ?_
      fun _ => ?_
    · cases decide (batchBytes < spool.pendingDisk.length + payload.length) with
      | true =>
        exact (flushPendingDisk_spec nonneg).returning fun _ world now =>
          ⟨_, fun _ holds => holds.flushed, now⟩
      | false => exact Spec.pure fun world now => ⟨_, fun _ holds => holds, now⟩
    · refine Spec.exists fun before => Spec.given fun keeps => ?_
      refine Spec.bind _ (reserveCounted_spec payload.length (fun size => ?_) (fun _ => rfl) rfl)
        fun granted => ?_
      · simp only [IdempotencySpool.memoryBytes]
        omega
      · cases granted with
        | true =>
          refine (joinBatch_spec nonneg batchBytes payload).returning fun _ world now => ⟨now.1, ?_⟩
          intro content holds
          have kept := keeps content holds
          exact now.2 content ⟨⟨kept.stored, kept.spilled, kept.unspilled, kept.isOpen⟩, kept.sized⟩
        | false => exact through keeps

theorem appendAll_spec (nonneg : 0 ≤ others) (batchBytes : ℕ) (payloads : List Bytes) {spool} :
    Spec (At others passing spool) (appendAll batchBytes payloads)
      (fun _ world => Sound others passing world ∧ spool.Appends payloads.flatten world.spool)
      fun _ => Sound others passing := by
  induction payloads generalizing spool with
  | nil =>
    refine Spec.pure fun world now => ⟨now.1, fun content holds => ?_⟩
    rw [now.2, List.flatten_nil, List.append_nil]
    exact holds
  | cons payload rest ih =>
    refine Spec.bind _ (appendAsync_spec nonneg batchBytes payload) fun _ => ?_
    rintro world ⟨sound, appends⟩
    refine ih.returning (fun _ after later => ⟨later.1, fun content holds => ?_⟩) world ⟨sound, rfl⟩
    rw [List.flatten_cons, ← List.append_assoc]
    exact later.2 _ (appends content holds)

theorem closeWriter_spec : Leaves others passing spool closeWriter { spool with writer := false } := by
  refine Spec.bind _ askDisk_spec fun answer => ?_
  cases answer with
  | none => exact throw_spec
  | some _ => exact change_spec rfl rfl

theorem sealSpool_spec (nonneg : 0 ≤ others) (forceDisk : Bool) :
    Leaves others passing spool (sealSpool forceDisk)
      (if spool.isSealed then spool else spool.sealedAs forceDisk) := by
  refine bind_spool (Spec.ite (fun _ => throw_spec) fun _ => Spec.ite (fun already => ?_) fun notYet => ?_)
  · rw [if_pos already]
    exact done_spec
  · rw [if_neg notYet]
    refine Spec.bind (fun _ => At others passing (if forceDisk then spool.onDisk else spool))
      (when_spec (fun forced => ?_) fun skipped => ?_) fun _ => bind_spool ?_
    · rw [if_pos (Bool.and_elim_left forced)]
      exact spillToDisk_spec nonneg
    · cases forceDisk with
      | true => rw [if_pos rfl, IdempotencySpool.onDisk, if_pos (by simpa using skipped)]
      | false => rfl
    · refine Spec.bind (fun _ => At others passing
        { if forceDisk then spool.onDisk else spool with writer := false })
        (when_spec (fun _ => closeWriter_spec) fun shut => ?_) fun _ => change_spec rfl rfl
      rw [← shut]

/-- **Sealing** writes the batch and makes what was stored readable. -/
theorem sealAsync_spec (nonneg : 0 ≤ others) (forceDisk : Bool) :
    Spec (At others passing spool) (sealAsync forceDisk)
      (fun _ world => Sound others passing world ∧ ∀ content, spool.Holds content →
        world.spool.Readable content ∧ world.spool.size = content.length)
      fun _ => Sound others passing := by
  refine bind_spool (Spec.ite (fun _ => throw_spec) fun _ => Spec.ite (fun already => ?_) fun _ => ?_)
  · refine Spec.pure fun world now => ⟨now.1, fun content holds => ?_⟩
    exact absurd (holds.isOpen.1.symm.trans already) nofun
  · refine Spec.bind _ (flushPendingDisk_spec nonneg) fun _ => ?_
    refine (runIo_spec (sealSpool_spec nonneg forceDisk)).returning fun _ world now => ⟨now.1, ?_⟩
    intro content holds
    obtain ⟨stores, noBatch, sized⟩ := holds.toStores.flushed
    rw [now.2, if_neg (by simp [stores.isOpen.1])]
    obtain ⟨readable, sameSize⟩ := stores.sealedAs noBatch forceDisk
    exact ⟨readable, sameSize.trans (sized.trans holds.sized)⟩

theorem memoryBytes_shut (isOpen : spool.isClosed = false) : spool.shut.memoryBytes = 0 := by
  rw [IdempotencySpool.shut, if_neg (by simp [isOpen])]
  rfl

theorem closeAsync_spec (nonneg : 0 ≤ others) :
    Spec (At others passing spool) closeAsync
      (fun _ world => Sound others passing world ∧ (spool.isClosed = false → world.spool.memoryBytes = 0))
      fun _ => Sound others passing := by
  refine bind_spool (Spec.ite (fun already => ?_) fun isOpen => ?_)
  · exact Spec.pure fun world now => ⟨now.1, fun isOpen => absurd (isOpen.symm.trans already) nofun⟩
  · refine Spec.bind _ (discardPendingDisk_spec nonneg) fun _ => ?_
    refine (runShielded_spec (close_spec nonneg)).returning fun _ world now => ⟨now.1, fun isOpen => ?_⟩
    rw [now.2]
    exact memoryBytes_shut isOpen

end Specs

/-- **A replay is what was appended, and every reservation is accounted for.** While the payloads are
appended, the spool is sealed and it is closed, what the governor holds for the category is what the spool
counts and what is in passing: a grant that is not counted yet, a batch that is being written, a prefix or
a batch that is being given up. Between two calls nothing is in passing, and after the close nothing is
reserved. -/
theorem replays_what_was_appended (batchBytes memoryThresholdBytes : ℕ)
    (memoryGovernor : Option MemoryGovernor) (memoryCategory : String) (disk : ℕ → Option ℕ)
    (fates : ℕ → IoFate)
    (alone : ∀ governor ∈ memoryGovernor, governor.reservedFor memoryCategory = 0)
    (payloads : List Bytes) (forceDisk : Bool) {appended stored : SpoolWorld}
    (succeeds : appendAll batchBytes payloads
      (.opened memoryThresholdBytes memoryGovernor memoryCategory disk fates) = (.ok (), appended))
    (seals : sealAsync forceDisk appended = (.ok (), stored)) :
    (∀ chunkSize > 0, ∀ others, ∃ chunks, stored.spool.iterChunks chunkSize others = .ok chunks ∧
      chunks.flatten = payloads.flatten ∧ (chunks.map List.length).sum = stored.spool.size) ∧
    (∀ reserved ∈ appended.reservation, reserved = appended.spool.memoryBytes) ∧
    (∀ reserved ∈ stored.reservation, reserved = stored.spool.memoryBytes) ∧ stored.Accounted ∧
    ∀ closing ∈ [close, closeAsync], ∀ closed, closing stored = (.ok (), closed) →
      closed.Accounted ∧ closed.spool.memoryBytes = 0 ∧ ∀ reserved ∈ closed.reservation, reserved = 0 := by
  have opened : Sound 0 0 (.opened memoryThresholdBytes memoryGovernor memoryCategory disk fates) :=
    opened_sound alone
  have appends := appendAll_spec le_rfl batchBytes payloads _ ⟨opened, rfl⟩
  rw [succeeds] at appends
  have holds : appended.spool.Holds payloads.flatten :=
    appends.2 [] ⟨⟨rfl, nofun, fun _ => rfl, rfl, rfl⟩, rfl⟩
  have isStored := sealAsync_spec le_rfl forceDisk _ ⟨appends.1, rfl⟩
  rw [seals] at isStored
  obtain ⟨readable, sized⟩ := isStored.2 _ holds
  refine ⟨fun chunkSize positive others => ?_, appends.1.reservation, isStored.1.reservation,
    isStored.1.accounted, ?_⟩
  · obtain ⟨chunks, yields, same⟩ := readable.iterChunks positive others
    refine ⟨chunks, yields, same, ?_⟩
    rw [← List.length_flatten, same, sized]
  · intro closing isClosing closed returned
    have empty : Sound 0 0 closed ∧ closed.spool.memoryBytes = 0 := by
      rcases List.mem_cons.mp isClosing with rfl | isAsync
      · have shuts : Spec (At 0 0 stored.spool) close (fun _ => At 0 0 stored.spool.shut)
            fun _ _ => False :=
          close_spec le_rfl
        have closes := shuts stored ⟨isStored.1, rfl⟩
        rw [returned] at closes
        exact ⟨closes.1, by rw [closes.2, memoryBytes_shut readable.isOpen]⟩
      · rw [List.mem_singleton.mp isAsync] at returned
        have closes := closeAsync_spec le_rfl stored ⟨isStored.1, rfl⟩
        rw [returned] at closes
        exact ⟨closes.1, closes.2 readable.isOpen⟩
    refine ⟨empty.1.accounted, empty.2, fun reserved held => ?_⟩
    rw [empty.1.reservation reserved held, empty.2]
    rfl

/-- A governor that may hold a kibibyte. -/
def kibibyte : MemoryGovernor where
  configuredSoftLimitBytes := none
  guardBytes := 0
  ratioGuard _ := 0
  fallbackBudgetBytes := 1024
  readings _ := ⟨false, none⟩
  refreshes := 0
  sample := none
  sampleError := false
  reserved := []
  rejected := []
  peakReservedBytes := 0

/-- A spool for a response that streams, on a disk that takes every write. -/
def streaming : SpoolWorld :=
  .opened 0 (some kibibyte) "idempotency_inflight_response" (fun _ => some 4096) fun _ => .runs

theorem replays_what_was_appended_streaming :
    ∃ stored, sealAsync true (appendAll 262144 [[1], [2, 3]] streaming).2 = (.ok (), stored) ∧
      ∃ chunks, stored.spool.iterChunks 2 (fun _ => 0) = .ok chunks ∧ chunks.flatten = [1, 2, 3] := by
  have replays := replays_what_was_appended 262144 0 (some kibibyte) "idempotency_inflight_response"
    (fun _ => some 4096) (fun _ => .runs) (by rintro governor ⟨⟩; rfl) [[1], [2, 3]] true
    (Raise.eq_of_returned rfl) (Raise.eq_of_returned rfl)
  obtain ⟨chunks, yields, same, _⟩ := replays.1 2 (by decide) fun _ => 0
  exact ⟨_, Raise.eq_of_returned rfl, chunks, yields, same⟩

/-- While a batch is written, the governor still holds it and the spool does not count it. -/
theorem batch_in_passing :
    (appendAll 262144 [[1]] streaming).1 = .ok () ∧
      (sealAsync true (appendAll 262144 [[1]] streaming).2).1 = .ok () ∧
        ∃ moment ∈ (sealAsync true (appendAll 262144 [[1]] streaming).2).2.moments,
          moment.reserved = some 1 ∧ moment.memoryBytes = 0 :=
  ⟨rfl, rfl, ⟨some 1, 0, 1⟩, by decide, rfl, rfl⟩

end SpoolCall

end UniApi.Middleware
