/-
**The byte accounting of all stream parsers.**

One process shares a budget between any number of parsers, leases and parsed frames. `StreamProcess`
holds them all, and `step` is one call of one of them, in any order: feeding, finishing, discarding
and dropping parsers, growing, shrinking, releasing and dropping leases, releasing and dropping
frames, and what other categories of the governor do.

* `step_accounted`: a call keeps the balance, whatever it raises, and raises no underflow;
* `accounting_exact`: after every sequence of calls the budget counts the partial events and lines,
  the frames alive and the leases, and the governor reserves as much for its category.
-/

import UniApi.Streaming.LineParser

namespace UniApi.Streaming

open UniApi.Lib UniApi.Admission RetainedBudget

/-! ### The process -/

/-- What shares one budget. -/
structure StreamProcess where
  budget : RetainedBudget
  frames : List RetainedTextFrame
  parsers : List SseParser
  lineParsers : List LineParser
  leases : List RetainedLease

/-- One call of one owner, given by its position. -/
inductive StreamAction where
  | newParser (limits : SseLimits)
  | feed (parser : Nat) (chunk : Chunk)
  | finish (parser : Nat)
  | discard (parser : Nat)
  | dropParser (parser : Nat)
  | newLineParser (limits : LineLimits)
  | feedLines (parser : Nat) (chunk : Chunk)
  | finishLines (parser : Nat)
  | discardLines (parser : Nat)
  | dropLineParser (parser : Nat)
  | newLease
  | grow (lease : Nat) (additionalBytes : Int)
  | shrink (lease : Nat) (releasedBytes : Int)
  | releaseLease (lease : Nat)
  | dropLease (lease : Nat)
  | releaseFrame (frame : Nat)
  | dropFrame (frame : Nat)
  | otherReserve (category : String) (size : Int)
  | otherRelease (category : String) (size : Int)

namespace StreamProcess

/-- Nothing shares the budget yet. -/
def start (budget : RetainedBudget) : StreamProcess :=
  { budget, frames := [], parsers := [], lineParsers := [], leases := [] }

/-- The exception of a call. -/
def raised {α : Type} : Except StreamError α → Option StreamError
  | .ok _ => none
  | .error error => some error

/-- A call of an SSE parser. -/
def onParser {α : Type} (index : Nat) (call : SseCall.Run α) (process : StreamProcess) :
    Option StreamError × StreamProcess :=
  match process.parsers[index]? with
  | none => (none, process)
  | some parser =>
    let (result, after) := call ⟨parser, process.budget, process.frames⟩
    (raised result, { process with
      parsers := process.parsers.set index after.parser, budget := after.budget, frames := after.frames })

/-- A call of a line parser. -/
def onLineParser {α : Type} (index : Nat) (call : LineCall.Run α) (process : StreamProcess) :
    Option StreamError × StreamProcess :=
  match process.lineParsers[index]? with
  | none => (none, process)
  | some parser =>
    let (result, after) := call ⟨parser, process.budget, process.frames⟩
    (raised result, { process with
      lineParsers := process.lineParsers.set index after.parser
      budget := after.budget
      frames := after.frames })

/-- A call of a lease. -/
def onLease (index : Nat) (call : Raise StreamError (RetainedLease × RetainedBudget) Unit)
    (process : StreamProcess) : Option StreamError × StreamProcess :=
  match process.leases[index]? with
  | none => (none, process)
  | some lease =>
    let (result, after) := call (lease, process.budget)
    (raised result, { process with
      leases := process.leases.set index after.1, budget := after.2 })

/-- A call of a frame. -/
def onFrame (index : Nat) (call : Raise StreamError (RetainedTextFrame × RetainedBudget) Unit)
    (process : StreamProcess) : Option StreamError × StreamProcess :=
  match process.frames[index]? with
  | none => (none, process)
  | some frame =>
    let (result, after) := call (frame, process.budget)
    (raised result, { process with
      frames := process.frames.set index after.1, budget := after.2 })

/-- What else the governor does, for another category. -/
def onGovernor (change : MemoryGovernor → MemoryGovernor) (process : StreamProcess) : StreamProcess :=
  { process with
    budget := { process.budget with memoryGovernor := process.budget.memoryGovernor.map change } }

/-- One call: what it raises, and the process after it. `__del__` releases what its owner holds; an
exception in it would be ignored, and is listed here all the same. -/
def step (process : StreamProcess) : StreamAction → Option StreamError × StreamProcess
  | .newParser limits => (none, { process with parsers := process.parsers ++ [SseParser.new limits] })
  | .feed index chunk => process.onParser index (SseCall.feed chunk)
  | .finish index => process.onParser index SseCall.finish
  | .discard index => process.onParser index SseCall.discard
  | .dropParser index =>
    let (error, after) := process.onParser index SseCall.releasePendingBudget
    (error, { after with parsers := after.parsers.eraseIdx index })
  | .newLineParser limits =>
    (none, { process with lineParsers := process.lineParsers ++ [LineParser.new limits] })
  | .feedLines index chunk => process.onLineParser index (LineCall.feed chunk)
  | .finishLines index => process.onLineParser index LineCall.finish
  | .discardLines index => process.onLineParser index LineCall.discard
  | .dropLineParser index =>
    let (error, after) := process.onLineParser index LineCall.releaseLineBudget
    (error, { after with lineParsers := after.lineParsers.eraseIdx index })
  | .newLease => (none, { process with leases := process.leases ++ [RetainedLease.new] })
  | .grow index additionalBytes => process.onLease index (RetainedLease.grow additionalBytes)
  | .shrink index releasedBytes => process.onLease index (RetainedLease.shrink releasedBytes)
  | .releaseLease index => process.onLease index RetainedLease.release
  | .dropLease index =>
    let (error, after) := process.onLease index RetainedLease.release
    (error, { after with leases := after.leases.eraseIdx index })
  | .releaseFrame index => process.onFrame index RetainedTextFrame.release
  | .dropFrame index =>
    let (error, after) := process.onFrame index RetainedTextFrame.release
    (error, { after with frames := after.frames.eraseIdx index })
  | .otherReserve category size =>
    if category = process.budget.memoryCategory then (none, process)
    else (none, process.onGovernor fun governor => (governor.reserveNowait category size).2)
  | .otherRelease category size =>
    if category = process.budget.memoryCategory then (none, process)
    else (none, process.onGovernor fun governor =>
      (governor.release category size).toOption.getD governor)

/-- A sequence of calls: all they raise, and the process after them. -/
def run (process : StreamProcess) : List StreamAction → List StreamError × StreamProcess
  | [] => ([], process)
  | action :: rest =>
    let first := process.step action
    let later := run first.2 rest
    (first.1.toList ++ later.1, later.2)

/-! ### The balance -/

/-- What the owners hold together. -/
def held (process : StreamProcess) : Int :=
  total SseParser.pendingBudgetBytes process.parsers +
    total LineParser.pendingBudgetBytes process.lineParsers +
    charges process.frames + total RetainedLease.charge process.leases

/-- **Every byte is accounted for.** -/
structure Accounted (process : StreamProcess) : Prop where
  parsers : ∀ parser ∈ process.parsers, parser.pendingBudgetBytes = parser.event.length ∧
    (parser.Running → parser.Sound)
  lineParsers : ∀ parser ∈ process.lineParsers, parser.pendingBudgetBytes = parser.line.length ∧
    Utf8.Valid parser.line
  frames : ∀ frame ∈ process.frames, 0 ≤ frame.charge
  leases : ∀ lease ∈ process.leases, 0 ≤ lease.charge
  counts : Counts process.budget.memoryCategory process.held process.budget

theorem start_accounted {budget : RetainedBudget} (unused : budget.usedBytes = 0)
    (mirrors : budget.Mirrors) : (start budget).Accounted where
  parsers _ member := nomatch member
  lineParsers _ member := nomatch member
  frames _ member := nomatch member
  leases _ member := nomatch member
  counts := ⟨rfl, unused, mirrors⟩

/-- What a step leaves: the balance, and no underflow. -/
def Keeps (after : Option StreamError × StreamProcess) : Prop :=
  (∀ error, after.1 = some error → ¬ error.Underflow) ∧ after.2.Accounted

variable {process : StreamProcess}

theorem Keeps.nothing (accounted : process.Accounted) : Keeps (none, process) :=
  ⟨nofun, accounted⟩

theorem Keeps.raised {α : Type} {result : Except StreamError α} (accounted : process.Accounted)
    (harmless : ∀ error, result = .error error → ¬ error.Underflow) :
    Keeps (StreamProcess.raised result, process) := by
  refine ⟨fun error same => ?_, accounted⟩
  cases result with
  | ok value => cases same
  | error other =>
    cases same
    exact harmless _ rfl

/-- A call on one owner, with what it leaves. -/
theorem Keeps.of_lands {α σ : Type} {post : α → σ → Prop} {fails : StreamError → σ → Prop}
    {outcome : Except StreamError α × σ} {after : σ → StreamProcess}
    (lands : Raise.Lands post fails outcome)
    (returned : ∀ value left, post value left → (after left).Accounted)
    (raised : ∀ error left, fails error left → ¬ error.Underflow ∧ (after left).Accounted) :
    Keeps (match outcome with | (result, left) => (StreamProcess.raised result, after left)) := by
  obtain ⟨error | value, left⟩ := outcome
  · refine .raised (raised error left lands).2 ?_
    rintro _ ⟨⟩
    exact (raised error left lands).1
  · exact .raised (returned value left lands) nofun

theorem Accounted.parsers_nonneg (accounted : process.Accounted) :
    ∀ parser ∈ process.parsers, 0 ≤ parser.pendingBudgetBytes := by
  intro parser member
  rw [(accounted.parsers parser member).1]
  exact Int.natCast_nonneg _

theorem Accounted.lineParsers_nonneg (accounted : process.Accounted) :
    ∀ parser ∈ process.lineParsers, 0 ≤ parser.pendingBudgetBytes := by
  intro parser member
  rw [(accounted.lineParsers parser member).1]
  exact Int.natCast_nonneg _

theorem total_erase_nonneg {α : Type} {weigh : α → Int} {list : List α}
    (each : ∀ owner ∈ list, 0 ≤ weigh owner) (index : Nat) :
    0 ≤ total weigh (list.eraseIdx index) :=
  total_nonneg weigh fun owner member => each owner (List.mem_of_mem_eraseIdx member)

/-! ### One call -/

/-- What the other owners hold beside one SSE parser. -/
theorem Accounted.besideParser (accounted : process.Accounted) {index : Nat} {parser : SseParser}
    (found : process.parsers[index]? = some parser) :
    ∃ others, 0 ≤ others ∧
      others = total SseParser.pendingBudgetBytes (process.parsers.eraseIdx index) +
        total LineParser.pendingBudgetBytes process.lineParsers +
        total RetainedLease.charge process.leases ∧
      process.held = parser.pendingBudgetBytes + charges process.frames + others := by
  have parsers := total_erase_nonneg accounted.parsers_nonneg index
  have lines := total_nonneg _ accounted.lineParsers_nonneg
  have leases := total_nonneg _ accounted.leases
  have erased := total_eraseIdx SseParser.pendingBudgetBytes found
  refine ⟨_, ?_, rfl, ?_⟩
  · omega
  · rw [held, erased]
    omega

/-- **A call of an SSE parser.** -/
theorem onParser_keeps {α : Type} (accounted : process.Accounted) (index : Nat)
    {call : SseCall.Run α}
    (spec : ∀ category others, 0 ≤ others → Raise.Spec (Kept category others) call
      (fun _ => Kept category others) (KeptFailed category others)) :
    Keeps (process.onParser index call) := by
  unfold onParser
  cases found : process.parsers[index]? with
  | none => exact .nothing accounted
  | some parser =>
    obtain ⟨others, remain, isOthers, isHeld⟩ := accounted.besideParser found
    obtain ⟨balanced, sound⟩ := accounted.parsers parser (List.mem_of_getElem? found)
    have kept : Kept process.budget.memoryCategory others
        ⟨parser, process.budget, process.frames⟩ := by
      refine ⟨⟨⟨?_, accounted.frames, ?_⟩, balanced⟩, sound⟩
      · exact accounted.parsers_nonneg parser (List.mem_of_getElem? found)
      · rw [← isHeld]
        exact accounted.counts
    have after : ∀ call : SseCall, Kept process.budget.memoryCategory others call →
        Accounted { process with
          parsers := process.parsers.set index call.parser
          budget := call.budget
          frames := call.frames } := by
      intro call kept
      obtain ⟨sameCategory, used, mirrors⟩ := kept.books.counts
      refine ⟨forall_mem_set accounted.parsers ⟨kept.books.balanced, kept.sound⟩,
        accounted.lineParsers, kept.books.frames, accounted.leases, rfl, ?_, mirrors⟩
      have erased := total_eraseIdx SseParser.pendingBudgetBytes found
      have replaced := total_set SseParser.pendingBudgetBytes found call.parser
      simp only [held, replaced]
      omega
    exact .of_lands (spec process.budget.memoryCategory others remain _ kept)
      (fun _ => after) fun _ left failed => ⟨failed.1, after left failed.2⟩

/-- **Dropping an SSE parser** gives back what it holds. -/
theorem dropParser_keeps (accounted : process.Accounted) (index : Nat) :
    Keeps (process.step (.dropParser index)) := by
  simp only [step, onParser]
  cases found : process.parsers[index]? with
  | none =>
    simp only [List.eraseIdx_of_length_le (List.getElem?_eq_none_iff.mp found)]
    exact .nothing accounted
  | some parser =>
    obtain ⟨others, remain, isOthers, isHeld⟩ := accounted.besideParser found
    have nonneg := accounted.parsers_nonneg parser (List.mem_of_getElem? found)
    obtain ⟨_, left, outcome, ran⟩ := (releasePendingBudget_spec remain
      ⟨parser, process.budget, process.frames⟩ ⟨Eq.refl parser, nonneg, accounted.frames, by
        rw [← isHeld]
        exact accounted.counts⟩).returns
    simp only [outcome]
    obtain ⟨same, charged⟩ := ran
    obtain ⟨sameCategory, used, mirrors⟩ := charged.counts
    refine .raised ⟨?_, accounted.lineParsers, charged.frames, accounted.leases, rfl, ?_, mirrors⟩
      nofun
    · intro other member
      simp only [List.eraseIdx_set_eq] at member
      exact accounted.parsers other (List.mem_of_mem_eraseIdx member)
    · simp only [held, List.eraseIdx_set_eq]
      rw [same] at used
      simp only at used
      omega

/-- What the other owners hold beside one line parser. -/
theorem Accounted.besideLineParser (accounted : process.Accounted) {index : Nat} {parser : LineParser}
    (found : process.lineParsers[index]? = some parser) :
    ∃ others, 0 ≤ others ∧
      others = total SseParser.pendingBudgetBytes process.parsers +
        total LineParser.pendingBudgetBytes (process.lineParsers.eraseIdx index) +
        total RetainedLease.charge process.leases ∧
      process.held = parser.pendingBudgetBytes + charges process.frames + others := by
  have parsers := total_nonneg _ accounted.parsers_nonneg
  have lines := total_erase_nonneg accounted.lineParsers_nonneg index
  have leases := total_nonneg _ accounted.leases
  have erased := total_eraseIdx LineParser.pendingBudgetBytes found
  refine ⟨_, ?_, rfl, ?_⟩
  · omega
  · rw [held, erased]
    omega

/-- **A call of a line parser.** -/
theorem onLineParser_keeps {α : Type} (accounted : process.Accounted) (index : Nat)
    {call : LineCall.Run α}
    (spec : ∀ category others, 0 ≤ others → Raise.Spec (LineBooks category others) call
      (fun _ => LineBooks category others) (LineFailed category others)) :
    Keeps (process.onLineParser index call) := by
  unfold onLineParser
  cases found : process.lineParsers[index]? with
  | none => exact .nothing accounted
  | some parser =>
    obtain ⟨others, remain, isOthers, isHeld⟩ := accounted.besideLineParser found
    obtain ⟨balanced, valid⟩ := accounted.lineParsers parser (List.mem_of_getElem? found)
    have books : LineBooks process.budget.memoryCategory others
        ⟨parser, process.budget, process.frames⟩ := by
      refine ⟨balanced, valid, accounted.frames, ?_⟩
      rw [← balanced, ← isHeld]
      exact accounted.counts
    have after : ∀ call : LineCall, LineBooks process.budget.memoryCategory others call →
        Accounted { process with
          lineParsers := process.lineParsers.set index call.parser
          budget := call.budget
          frames := call.frames } := by
      intro call books
      obtain ⟨sameCategory, used, mirrors⟩ := books.counts
      refine ⟨accounted.parsers, forall_mem_set accounted.lineParsers ⟨books.balanced, books.valid⟩,
        books.frames, accounted.leases, rfl, ?_, mirrors⟩
      have erased := total_eraseIdx LineParser.pendingBudgetBytes found
      have replaced := total_set LineParser.pendingBudgetBytes found call.parser
      have balanced := books.balanced
      simp only [held, replaced]
      omega
    exact .of_lands (spec process.budget.memoryCategory others remain _ books)
      (fun _ => after) fun _ left failed => ⟨failed.1, after left failed.2⟩

/-- **Dropping a line parser** gives back what it holds. -/
theorem dropLineParser_keeps (accounted : process.Accounted) (index : Nat) :
    Keeps (process.step (.dropLineParser index)) := by
  simp only [step, onLineParser]
  cases found : process.lineParsers[index]? with
  | none =>
    simp only [List.eraseIdx_of_length_le (List.getElem?_eq_none_iff.mp found)]
    exact .nothing accounted
  | some parser =>
    obtain ⟨others, remain, isOthers, isHeld⟩ := accounted.besideLineParser found
    have nonneg := accounted.lineParsers_nonneg parser (List.mem_of_getElem? found)
    obtain ⟨_, left, outcome, ran⟩ := (releaseLineBudget_spec remain parser nonneg accounted.frames
      ⟨parser, process.budget, process.frames⟩ ⟨rfl, rfl, by
        rw [← isHeld]
        exact accounted.counts⟩).returns
    simp only [outcome]
    obtain ⟨same, sameFrames, sameCategory, used, mirrors⟩ := ran
    refine .raised ⟨accounted.parsers, ?_, ?_, accounted.leases, rfl, ?_, mirrors⟩ nofun
    · intro other member
      simp only [List.eraseIdx_set_eq] at member
      exact accounted.lineParsers other (List.mem_of_mem_eraseIdx member)
    · simp only [sameFrames]
      exact accounted.frames
    · simp only [held, List.eraseIdx_set_eq, sameFrames]
      omega

/-- What the other owners hold beside one lease. -/
theorem Accounted.besideLease (accounted : process.Accounted) {index : Nat} {lease : RetainedLease}
    (found : process.leases[index]? = some lease) :
    ∃ others, 0 ≤ others ∧
      others = total SseParser.pendingBudgetBytes process.parsers +
        total LineParser.pendingBudgetBytes process.lineParsers + charges process.frames +
        total RetainedLease.charge (process.leases.eraseIdx index) ∧
      process.held = others + lease.charge := by
  have parsers := total_nonneg _ accounted.parsers_nonneg
  have lines := total_nonneg _ accounted.lineParsers_nonneg
  have frames := total_nonneg _ accounted.frames
  have leases := total_erase_nonneg accounted.leases index
  have erased := total_eraseIdx RetainedLease.charge found
  refine ⟨_, ?_, rfl, ?_⟩
  · unfold charges
    omega
  · rw [held, erased]
    omega

/-- **A call of a lease.** -/
theorem onLease_keeps (accounted : process.Accounted) (index : Nat)
    {call : Raise StreamError (RetainedLease × RetainedBudget) Unit}
    (spec : ∀ category others, 0 ≤ others → Raise.Spec (Owned RetainedLease.charge category others)
      call (fun _ => Owned RetainedLease.charge category others)
      (Untouched RetainedLease.charge category others)) :
    Keeps (process.onLease index call) := by
  unfold onLease
  cases found : process.leases[index]? with
  | none => exact .nothing accounted
  | some lease =>
    obtain ⟨others, remain, isOthers, isHeld⟩ := accounted.besideLease found
    have counts := accounted.counts
    rw [isHeld] at counts
    have after : ∀ state, Owned RetainedLease.charge process.budget.memoryCategory others state →
        Accounted { process with
          leases := process.leases.set index state.1
          budget := state.2 } := by
      rintro state ⟨holds, sameCategory, used, mirrors⟩
      refine ⟨accounted.parsers, accounted.lineParsers, accounted.frames,
        forall_mem_set accounted.leases holds, rfl, ?_, mirrors⟩
      have erased := total_eraseIdx RetainedLease.charge found
      have replaced := total_set RetainedLease.charge found state.1
      simp only [held, replaced]
      omega
    exact .of_lands (spec process.budget.memoryCategory others remain (lease, process.budget)
      ⟨accounted.leases lease (List.mem_of_getElem? found), counts⟩)
      (fun _ => after) fun _ left failed => ⟨failed.1, after left failed.2⟩

/-- **Dropping a lease** gives back what it holds. -/
theorem dropLease_keeps (accounted : process.Accounted) (index : Nat) :
    Keeps (process.step (.dropLease index)) := by
  simp only [step, onLease]
  cases found : process.leases[index]? with
  | none =>
    simp only [List.eraseIdx_of_length_le (List.getElem?_eq_none_iff.mp found)]
    exact .nothing accounted
  | some lease =>
    obtain ⟨others, remain, isOthers, isHeld⟩ := accounted.besideLease found
    have counts := accounted.counts
    rw [isHeld] at counts
    obtain ⟨_, left, outcome, ran⟩ := (RetainedLease.release_spec remain (lease, process.budget)
      ⟨accounted.leases lease (List.mem_of_getElem? found), counts⟩).returns
    simp only [outcome]
    obtain ⟨nothing, sameCategory, used, mirrors⟩ := ran
    refine .raised ⟨accounted.parsers, accounted.lineParsers, accounted.frames, ?_, rfl, ?_,
      mirrors⟩ nofun
    · intro other member
      simp only [List.eraseIdx_set_eq] at member
      exact accounted.leases other (List.mem_of_mem_eraseIdx member)
    · simp only [held, List.eraseIdx_set_eq]
      omega

/-- What the other owners hold beside one frame. -/
theorem Accounted.besideFrame (accounted : process.Accounted) {index : Nat}
    {frame : RetainedTextFrame} (found : process.frames[index]? = some frame) :
    ∃ others, 0 ≤ others ∧
      others = total SseParser.pendingBudgetBytes process.parsers +
        total LineParser.pendingBudgetBytes process.lineParsers +
        charges (process.frames.eraseIdx index) + total RetainedLease.charge process.leases ∧
      process.held = others + frame.charge := by
  have parsers := total_nonneg _ accounted.parsers_nonneg
  have lines := total_nonneg _ accounted.lineParsers_nonneg
  have frames := total_erase_nonneg accounted.frames index
  have leases := total_nonneg _ accounted.leases
  have erased := total_eraseIdx RetainedTextFrame.charge found
  refine ⟨_, ?_, rfl, ?_⟩
  · unfold charges
    omega
  · rw [held, charges, charges, erased]
    omega

/-- **Releasing a frame** gives back what it holds. -/
theorem releaseFrame_keeps (accounted : process.Accounted) (index : Nat) :
    Keeps (process.step (.releaseFrame index)) := by
  simp only [step, onFrame]
  cases found : process.frames[index]? with
  | none => exact .nothing accounted
  | some frame =>
    obtain ⟨others, remain, isOthers, isHeld⟩ := accounted.besideFrame found
    have counts := accounted.counts
    rw [isHeld] at counts
    obtain ⟨_, left, outcome, ran⟩ := (RetainedTextFrame.release_spec remain (frame, process.budget)
      ⟨accounted.frames frame (List.mem_of_getElem? found), counts⟩).returns
    simp only [outcome]
    have holds := ran.owned.1
    obtain ⟨nothing, sameCategory, used, mirrors⟩ := ran
    refine .raised ⟨accounted.parsers, accounted.lineParsers,
      forall_mem_set accounted.frames holds, accounted.leases, rfl, ?_, mirrors⟩ nofun
    have erased := total_eraseIdx RetainedTextFrame.charge found
    have replaced := total_set RetainedTextFrame.charge found left.1
    simp only [held, charges, replaced] at isOthers ⊢
    omega

/-- **Dropping a frame** gives back what it holds. -/
theorem dropFrame_keeps (accounted : process.Accounted) (index : Nat) :
    Keeps (process.step (.dropFrame index)) := by
  simp only [step, onFrame]
  cases found : process.frames[index]? with
  | none =>
    simp only [List.eraseIdx_of_length_le (List.getElem?_eq_none_iff.mp found)]
    exact .nothing accounted
  | some frame =>
    obtain ⟨others, remain, isOthers, isHeld⟩ := accounted.besideFrame found
    have counts := accounted.counts
    rw [isHeld] at counts
    obtain ⟨_, left, outcome, ran⟩ := (RetainedTextFrame.release_spec remain (frame, process.budget)
      ⟨accounted.frames frame (List.mem_of_getElem? found), counts⟩).returns
    simp only [outcome]
    obtain ⟨nothing, sameCategory, used, mirrors⟩ := ran
    refine .raised ⟨accounted.parsers, accounted.lineParsers, ?_, accounted.leases, rfl, ?_,
      mirrors⟩ nofun
    · intro other member
      simp only [List.eraseIdx_set_eq] at member
      exact accounted.frames other (List.mem_of_mem_eraseIdx member)
    · simp only [held, List.eraseIdx_set_eq]
      omega

/-- **What another category does** does not touch this one. -/
theorem onGovernor_keeps (accounted : process.Accounted) {change : MemoryGovernor → MemoryGovernor}
    (frame : ∀ governor, (change governor).reservedFor process.budget.memoryCategory =
      governor.reservedFor process.budget.memoryCategory) :
    Keeps (none, process.onGovernor change) := by
  obtain ⟨sameCategory, used, mirrors⟩ := accounted.counts
  refine .nothing ⟨accounted.parsers, accounted.lineParsers, accounted.frames, accounted.leases,
    rfl, used, ?_⟩
  intro governor changed
  obtain ⟨before, had, rfl⟩ := Option.map_eq_some_iff.mp changed
  exact (frame before).trans (mirrors before had)

/-! ### Every sequence of calls -/

/-- **A call keeps the balance**, whatever it raises, and raises no underflow. -/
theorem step_accounted (accounted : process.Accounted) (action : StreamAction) :
    Keeps (process.step action) := by
  cases action with
  | newParser limits =>
    refine .nothing ⟨?_, accounted.lineParsers, accounted.frames, accounted.leases, ?_⟩
    · intro parser member
      rcases List.mem_append.mp member with old | new
      · exact accounted.parsers parser old
      · rw [List.mem_singleton.mp new]
        exact ⟨rfl, fun _ => SseParser.sound_new limits⟩
    · have counts := accounted.counts
      have empty : (SseParser.new limits).pendingBudgetBytes = 0 := rfl
      simpa [held, empty] using counts
  | feed index chunk => exact onParser_keeps accounted index fun _ _ remain => feed_kept remain chunk
  | finish index => exact onParser_keeps accounted index fun _ _ remain => finish_kept remain
  | discard index =>
    exact onParser_keeps accounted index fun _ _ remain =>
      (discard_kept remain).raising fun _ _ impossible => impossible.elim
  | dropParser index => exact dropParser_keeps accounted index
  | newLineParser limits =>
    refine .nothing ⟨accounted.parsers, ?_, accounted.frames, accounted.leases, ?_⟩
    · intro parser member
      rcases List.mem_append.mp member with old | new
      · exact accounted.lineParsers parser old
      · rw [List.mem_singleton.mp new]
        exact ⟨rfl, [], rfl⟩
    · have counts := accounted.counts
      have empty : (LineParser.new limits).pendingBudgetBytes = 0 := rfl
      simpa [held, empty] using counts
  | feedLines index chunk =>
    exact onLineParser_keeps accounted index fun _ _ remain => lineFeed_spec remain chunk
  | finishLines index =>
    exact onLineParser_keeps accounted index fun _ _ remain => lineFinish_spec remain
  | discardLines index =>
    exact onLineParser_keeps accounted index fun _ _ remain =>
      (lineDiscard_spec remain).raising fun _ _ impossible => impossible.elim
  | dropLineParser index => exact dropLineParser_keeps accounted index
  | newLease =>
    refine .nothing ⟨accounted.parsers, accounted.lineParsers, accounted.frames, ?_, ?_⟩
    · intro lease member
      rcases List.mem_append.mp member with old | new
      · exact accounted.leases lease old
      · rw [List.mem_singleton.mp new]
        exact Int.le_refl 0
    · have counts := accounted.counts
      have empty : RetainedLease.new.charge = 0 := rfl
      simpa [held, empty] using counts
  | grow index additionalBytes =>
    exact onLease_keeps accounted index fun _ _ remain =>
      RetainedLease.grow_spec remain additionalBytes
  | shrink index releasedBytes =>
    exact onLease_keeps accounted index fun _ _ remain =>
      RetainedLease.shrink_spec remain releasedBytes
  | releaseLease index =>
    exact onLease_keeps accounted index fun _ _ remain =>
      (RetainedLease.release_spec remain).weaken (fun _ start => start)
        (fun _ _ given => given.owned) (fun _ _ impossible => impossible.elim)
  | dropLease index => exact dropLease_keeps accounted index
  | releaseFrame index => exact releaseFrame_keeps accounted index
  | dropFrame index => exact dropFrame_keeps accounted index
  | otherReserve category size =>
    simp only [step]
    split
    · exact .nothing accounted
    · rename_i other
      refine onGovernor_keeps accounted fun governor => ?_
      have reserved := governor.reserve_reserved category process.budget.memoryCategory size
      rw [reserved, if_neg fun granted => other granted.2.symm, Int.add_zero]
  | otherRelease category size =>
    simp only [step]
    split
    · exact .nothing accounted
    · rename_i other
      refine onGovernor_keeps accounted fun governor => ?_
      cases outcome : governor.release category size with
      | error error => rfl
      | ok after =>
        have released := MemoryGovernor.release_reserved outcome process.budget.memoryCategory
        have unchanged : ¬ process.budget.memoryCategory = category := fun same => other same.symm
        rw [if_neg unchanged, Int.sub_zero] at released
        exact released

/-- **A sequence of calls keeps the balance**, and none of them underflows. -/
theorem run_accounted (accounted : process.Accounted) (actions : List StreamAction) :
    (∀ error ∈ (process.run actions).1, ¬ error.Underflow) ∧ (process.run actions).2.Accounted := by
  induction actions generalizing process with
  | nil => exact ⟨nofun, accounted⟩
  | cons action rest ih =>
    obtain ⟨harmless, here⟩ := step_accounted accounted action
    obtain ⟨later, there⟩ := ih here
    refine ⟨?_, there⟩
    intro error raised
    rcases List.mem_append.mp raised with first | after
    · exact harmless error (Option.mem_toList.mp first)
    · exact later error after

/-- **The accounting is exact.** However parsers, leases and frames that share a budget are called,
and whatever the calls raise: the budget counts what the partial events and lines, the frames alive
and the leases hold; a parser is charged the length of its partial event or line; no release
underflows; and the governor has reserved as much for the budget's category. -/
theorem accounting_exact {budget : RetainedBudget} (unused : budget.usedBytes = 0)
    (mirrors : budget.Mirrors) (actions : List StreamAction) :
    ((start budget).run actions).2.budget.usedBytes = ((start budget).run actions).2.held ∧
    (∀ parser ∈ ((start budget).run actions).2.parsers,
      parser.pendingBudgetBytes = parser.event.length) ∧
    (∀ parser ∈ ((start budget).run actions).2.lineParsers,
      parser.pendingBudgetBytes = parser.line.length) ∧
    (∀ error ∈ ((start budget).run actions).1, ¬ error.Underflow) ∧
    ((start budget).run actions).2.budget.Mirrors := by
  obtain ⟨harmless, after⟩ := run_accounted (start_accounted unused mirrors) actions
  obtain ⟨_, used, mirrored⟩ := after.counts
  exact ⟨used, fun parser member => (after.parsers parser member).1,
    fun parser member => (after.lineParsers parser member).1, harmless, mirrored⟩

/-- A budget of 16 bytes under a governor of 1000. -/
def sharedBudget : RetainedBudget :=
  .fresh 16 (some {
    configuredSoftLimitBytes := some 1000
    guardBytes := 0
    ratioGuard := fun _ => 0
    fallbackBudgetBytes := 1000
    readings := fun _ => ⟨true, some ⟨some 0, none, none⟩⟩
    refreshes := 0
    sample := none
    sampleError := false
    reserved := []
    rejected := []
    peakReservedBytes := 0 }) "stream_parser"

/-- Two parsers, a line parser and a lease; the second parser asks for more than there is left. -/
def sharedCalls : List StreamAction :=
  [.newParser ⟨0, 0, 4096, 0, by decide⟩, .newParser ⟨0, 0, 4096, 0, by decide⟩,
    .newLineParser ⟨64, 64, 64, by decide, by decide, by decide⟩, .newLease,
    .feed 0 (.bytes [0x61, 0x0A, 0x0A, 0x62]), .grow 0 5, .feedLines 0 (.bytes [0x63]),
    .feed 1 (.bytes [0x64, 0x64, 0x64, 0x64, 0x64, 0x64, 0x64, 0x64, 0x64]), .releaseFrame 0]

theorem accounting_exact_shared :
    ((start sharedBudget).run sharedCalls).1 = [.bufferBudgetExhausted] ∧
      ((start sharedBudget).run sharedCalls).2.held = 7 :=
  ⟨by decide,
    (accounting_exact rfl (fun _ held => by cases held; rfl) _).1.symm.trans (by decide)⟩

end StreamProcess

end UniApi.Streaming
