/-
**Neighbours with one role: the loop that merges the messages of a Claude request.**

What is read off messages is a parameter: a `Reader` gives what a text and a block have. The loop keeps it
if each message is joined to the ones before it without a loss.

* `joinContents_ok`, `joinContents_whole`: joining two contents;
* `mergeMessages_ok`, `mergeMessages_whole`: the loop;
* `merge_keeps_iff`: when the loop keeps all texts and blocks.
-/

import UniApi.Providers.ClaudeRequest

namespace UniApi.Providers.ClaudeRequest

open UniApi.Lib
open UniApi.Lib.PyData (lit)

/-! ### Reading messages -/

/-- What is read off a text and off a block, under a role. A text block has its text. -/
structure Reader (α : Type) where
  text : String → PyText → List α
  block : String → PyData → List α
  text_append : ∀ role first second, text role (first ++ second) = text role first ++ text role second
  block_text : ∀ role words, block role (textBlock words) = text role words
  block_letters : ∀ role words, text role words = [] →
    (words.map fun letter => PyData.str [letter]).flatMap (block role) = []

namespace Reader

variable {α : Type} (reader : Reader α)

/-- What is read off a content. -/
def content (role : String) : ClaudeContent → List α
  | .missing => []
  | .text words => reader.text role words
  | .blocks parts => parts.flatMap (reader.block role)

/-- What is read off messages. -/
def transcript (messages : List ClaudeMessage) : List α :=
  messages.flatMap fun message => reader.content message.role message.content

theorem transcript_cons (message : ClaudeMessage) (messages : List ClaudeMessage) :
    reader.transcript (message :: messages)
      = reader.content message.role message.content ++ reader.transcript messages := List.flatMap_cons

theorem transcript_append (first second : List ClaudeMessage) :
    reader.transcript (first ++ second) = reader.transcript first ++ reader.transcript second :=
  List.flatMap_append

theorem text_nil (role : String) : reader.text role [] = [] := by
  have twice := congrArg List.length (reader.text_append role [] [])
  rw [List.append_nil, List.length_append] at twice
  exact List.eq_nil_of_length_eq_zero (by omega)

/-- The reader reads nothing off a letter in a list. -/
def Forgets : Prop :=
  ∀ role (words : PyText), (words.map fun letter => PyData.str [letter]).flatMap (reader.block role) = []

end Reader

/-! ### Shapes -/

/-- What joining depends on: the kind of a content, and whether it is empty. -/
inductive Shape where
  | missing
  | text (isEmpty : Bool)
  | blocks (isEmpty : Bool)

/-- The shape of a content. -/
def ClaudeContent.shape : ClaudeContent → Shape
  | .missing => .missing
  | .text words => .text words.isEmpty
  | .blocks parts => .blocks parts.isEmpty

/-- A message as its neighbours are joined to it. -/
structure Piece where
  role : String
  shape : Shape
  silent : Bool

/-- The piece of a message of a payload. -/
def ClaudeMessage.piece {α : Type} (reader : Reader α) (message : ClaudeMessage) : Piece :=
  ⟨message.role, message.content.shape, (reader.content message.role message.content).isEmpty⟩

/-- **The next message is joined without a loss.** Behind an empty content it is dropped, behind any other
one a missing content raises, and a text is taken apart behind blocks. -/
def Shape.Fits (shape : Shape) (next : Piece) : Prop :=
  match shape, next.shape with
  | .missing, _ => next.silent = true
  | .text true, _ => next.silent = true
  | .blocks true, _ => next.silent = true
  | _, .missing => False
  | .blocks false, .text _ => next.silent = true
  | _, _ => True

/-- The shape of a content with the next one joined to it. -/
def Shape.joined (shape next : Shape) : Shape :=
  match shape, next with
  | .text false, .blocks _ => .blocks false
  | shape, _ => shape

/-- **Neighbours with one role are joined without a loss**, from a piece on. -/
def Merges (role : String) (shape : Shape) : List Piece → Prop
  | [] => True
  | next :: pieces =>
    if role = next.role then shape.Fits next ∧ Merges role (shape.joined next.shape) pieces
    else Merges next.role next.shape pieces

/-- Neighbours with one role are joined without a loss. -/
def MergesAll : List Piece → Prop
  | [] => True
  | piece :: pieces => Merges piece.role piece.shape pieces

section Neighbours

variable {α : Type} {reader : Reader α} {role : String} {first second content : ClaudeContent}

/-- An empty content stays as it is, and the next one is dropped. -/
theorem joined_empty {first : ClaudeContent} (empty : first = .missing ∨ first = .text [] ∨ first
    = .blocks [])
    (second : ClaudeContent) : joinContents first second = .ok first ∧ reader.content role first = [] ∧
      first.shape.joined second.shape = first.shape ∧
      (first.shape.Fits ⟨role, second.shape, (reader.content role second).isEmpty⟩ ↔
        reader.content role second = []) := by
  rcases empty with rfl | rfl | rfl
  · exact ⟨rfl, rfl, rfl, List.isEmpty_iff⟩
  · exact ⟨rfl, reader.text_nil role, rfl, List.isEmpty_iff⟩
  · exact ⟨rfl, rfl, rfl, List.isEmpty_iff⟩

/-- A content that is not empty, with the next one. -/
theorem joined_nonempty {first : ClaudeContent}
    (nonempty : ¬ (first = .missing ∨ first = .text [] ∨ first = .blocks [])) (second : ClaudeContent) :
    (second = .missing ∧ joinContents first second = .error .type ∧
        ¬ first.shape.Fits ⟨role, second.shape, (reader.content role second).isEmpty⟩) ∨
      ∃ content, joinContents first second = .ok content ∧ content.shape = first.shape.joined second.shape ∧
        (reader.content role content = reader.content role first ++ reader.content role second ∧
            first.shape.Fits ⟨role, second.shape, (reader.content role second).isEmpty⟩ ∨
          ∃ words, second = .text words ∧
            reader.content role content = reader.content role first
              ++ (words.map fun letter => PyData.str [letter]).flatMap (reader.block role) ∧
            (first.shape.Fits ⟨role, second.shape, (reader.content role second).isEmpty⟩ ↔
              reader.content role second = [])) := by
  simp only [not_or] at nonempty
  obtain ⟨given, someText, someBlocks⟩ := nonempty
  match first, second with
  | .missing, _ => exact absurd rfl given
  | .text [], _ => exact absurd rfl someText
  | .blocks [], _ => exact absurd rfl someBlocks
  | .text (letter :: words), .missing => exact .inl ⟨rfl, rfl, id⟩
  | .blocks (block :: blocks), .missing => exact .inl ⟨rfl, rfl, id⟩
  | .text (letter :: words), .text more =>
    exact .inr ⟨_, rfl, rfl, .inl ⟨reader.text_append role (letter :: words) more, trivial⟩⟩
  | .text (letter :: words), .blocks more =>
    refine .inr ⟨_, rfl, rfl, .inl ⟨?_, trivial⟩⟩
    show (textBlock (letter :: words) :: more).flatMap (reader.block role) = _
    rw [List.flatMap_cons, reader.block_text]
    rfl
  | .blocks (block :: blocks), .text more =>
    refine .inr ⟨_, rfl, rfl, .inr ⟨more, rfl, ?_, List.isEmpty_iff⟩⟩
    show ((block :: blocks) ++ more.map fun letter => PyData.str [letter]).flatMap (reader.block role) = _
    exact List.flatMap_append
  | .blocks (block :: blocks), .blocks more =>
    refine .inr ⟨_, rfl, rfl, .inl ⟨?_, trivial⟩⟩
    show ((block :: blocks) ++ more).flatMap (reader.block role) = _
    exact List.flatMap_append

/-- **What joining loses.** -/
theorem joinContents_ok (forgets : reader.Forgets) (joins : joinContents first second = .ok content) :
    content.shape = first.shape.joined second.shape ∧
      (reader.content role content).Sublist (reader.content role first ++ reader.content role second) ∧
      ((reader.content role first ++ reader.content role second).length ≤
        (reader.content role content).length →
        first.shape.Fits ⟨role, second.shape, (reader.content role second).isEmpty⟩) := by
  by_cases empty : first = .missing ∨ first = .text [] ∨ first = .blocks []
  · obtain ⟨same, nothing, shape, fits⟩ := @joined_empty α reader role _ empty second
    rw [same] at joins
    obtain rfl := Except.ok.inj joins
    refine ⟨shape.symm, List.sublist_append_left _ _, fun enough => fits.mpr ?_⟩
    rw [List.length_append] at enough
    exact List.eq_nil_of_length_eq_zero (by omega)
  · rcases @joined_nonempty α reader role _ empty second with ⟨-, raises, -⟩ | ⟨_, same, shape, kept⟩
    · rw [raises] at joins
      cases joins
    · rw [same] at joins
      cases joins
      refine ⟨shape, ?_⟩
      rcases kept with ⟨all, fits⟩ | ⟨words, -, fewer, fits⟩
      · exact ⟨by rw [all], fun _ => fits⟩
      · rw [forgets, List.append_nil] at fewer
        rw [fewer]
        refine ⟨List.sublist_append_left _ _, fun enough => fits.mpr ?_⟩
        rw [List.length_append] at enough
        exact List.eq_nil_of_length_eq_zero (by omega)

/-- **When joining loses nothing.** -/
theorem joinContents_whole
    (fits : first.shape.Fits ⟨role, second.shape, (reader.content role second).isEmpty⟩) :
    ∃ content, joinContents first second = .ok content ∧ content.shape = first.shape.joined second.shape ∧
      reader.content role content = reader.content role first ++ reader.content role second := by
  by_cases empty : first = .missing ∨ first = .text [] ∨ first = .blocks []
  · obtain ⟨same, nothing, shape, silent⟩ := @joined_empty α reader role _ empty second
    exact ⟨first, same, shape.symm, by rw [silent.mp fits, List.append_nil]⟩
  · rcases @joined_nonempty α reader role _ empty second with ⟨-, -, unfit⟩ | ⟨content, same, shape, kept⟩
    · exact absurd fits unfit
    · refine ⟨content, same, shape, ?_⟩
      rcases kept with ⟨all, -⟩ | ⟨words, isText, fewer, silent⟩
      · exact all
      · have nothing : reader.text role words = [] := by
          have nothing := silent.mp fits
          rwa [isText] at nothing
        rw [fewer, silent.mp fits, reader.block_letters role words nothing]

end Neighbours

/-! ### The loop over the neighbours -/

section Merging

variable {α : Type} {reader : Reader α}

/-- **What the loop loses.** -/
theorem mergeNeighbours_ok (forgets : reader.Forgets) : ∀ {messages : List ClaudeMessage}
    {message : ClaudeMessage}
    {merged : List ClaudeMessage}, mergeNeighbours message messages = .ok merged →
      (reader.transcript merged).Sublist (reader.transcript (message :: messages)) ∧
        ((reader.transcript (message :: messages)).length ≤ (reader.transcript merged).length →
          Merges message.role message.content.shape (messages.map (ClaudeMessage.piece reader)))
  | [], message, _, runs => by
    cases runs
    exact ⟨.refl _, fun _ => trivial⟩
  | next :: messages, message, merged, runs => by
    rw [mergeNeighbours] at runs
    rw [List.map_cons, Merges]
    by_cases same : message.role = next.role
    · rw [if_pos same, bind_eq_ok] at runs
      obtain ⟨content, joins, later⟩ := runs
      obtain ⟨shape, some_, fits⟩ := @joinContents_ok α reader message.role _ _ _ forgets joins
      obtain ⟨fewer, merges⟩ := mergeNeighbours_ok forgets later
      rw [reader.transcript_cons] at fewer merges
      rw [if_pos (show message.role = (next.piece reader).role from same), reader.transcript_cons,
        reader.transcript_cons, ← same,
        ← List.append_assoc]
      refine ⟨fewer.trans (some_.append_right _), fun enough => ?_⟩
      have shorter := fewer.length_le
      have shorter' := some_.length_le
      simp only [List.length_append] at enough shorter shorter' merges fits
      refine ⟨?_, ?_⟩
      · have fits := fits (by omega)
        rw [ClaudeMessage.piece, ← same]
        exact fits
      · have merges := merges (by omega)
        rw [shape] at merges
        exact merges
    · rw [if_neg same, bind_eq_ok] at runs
      obtain ⟨rest, later, isMerged⟩ := runs
      cases isMerged
      obtain ⟨fewer, merges⟩ := mergeNeighbours_ok forgets later
      rw [if_neg (show ¬ message.role = (next.piece reader).role from same),
        reader.transcript_cons, reader.transcript_cons message]
      refine ⟨fewer.append_left _, fun enough => merges ?_⟩
      simp only [List.length_append] at enough
      omega

/-- **When the loop loses nothing.** -/
theorem mergeNeighbours_whole : ∀ {messages : List ClaudeMessage} {message : ClaudeMessage},
    Merges message.role message.content.shape (messages.map (ClaudeMessage.piece reader)) →
      ∃ merged, mergeNeighbours message messages = .ok merged ∧
        reader.transcript merged = reader.transcript (message :: messages)
  | [], message, _ => ⟨[message], rfl, rfl⟩
  | next :: messages, message, merges => by
    rw [List.map_cons, Merges] at merges
    rw [mergeNeighbours]
    by_cases same : message.role = next.role
    · rw [if_pos (show message.role = (next.piece reader).role from same)] at merges
      obtain ⟨fits, later⟩ := merges
      rw [ClaudeMessage.piece, ← same] at fits
      obtain ⟨content, joins, shape, whole⟩ := joinContents_whole fits
      obtain ⟨merged, runs, all⟩ := @mergeNeighbours_whole messages { message with content } (by
        rw [shape]
        exact later)
      refine ⟨merged, ?_, ?_⟩
      · rw [if_pos same, joins]
        exact runs
      · rw [all, reader.transcript_cons, reader.transcript_cons, reader.transcript_cons, ← same,
          ← List.append_assoc, whole]
    · rw [if_neg (show ¬ message.role = (next.piece reader).role from same)] at merges
      obtain ⟨merged, runs, all⟩ := @mergeNeighbours_whole messages next merges
      refine ⟨message :: merged, ?_, ?_⟩
      · rw [if_neg same, runs]
        rfl
      · rw [reader.transcript_cons, all, reader.transcript_cons message]

/-- What merging loses. -/
theorem mergeMessages_ok (forgets : reader.Forgets) {messages merged : List ClaudeMessage}
    (runs : mergeMessages messages = .ok merged) :
    (reader.transcript merged).Sublist (reader.transcript messages) ∧
      ((reader.transcript messages).length ≤ (reader.transcript merged).length →
        MergesAll (messages.map (ClaudeMessage.piece reader))) := by
  cases messages with
  | nil =>
    cases runs
    exact ⟨.refl _, fun _ => trivial⟩
  | cons message messages => exact mergeNeighbours_ok forgets runs

theorem mergeMessages_whole {messages : List ClaudeMessage}
    (merges : MergesAll (messages.map (ClaudeMessage.piece reader))) :
    ∃ merged, mergeMessages messages = .ok merged ∧ reader.transcript merged
      = reader.transcript messages := by
  cases messages with
  | nil => exact ⟨[], rfl, rfl⟩
  | cons message messages => exact mergeNeighbours_whole merges

end Merging


/-! ### Texts and blocks -/

/-- What messages are made of: letters of texts, and blocks. -/
inductive Atom where
  | letter (role : String) (point : CodePoint)
  | block (role : String) (block : PyData)

/-- The text of a block that is a text and nothing else. -/
def plainText (block : PyData) : Option PyText :=
  match block.asDict with
  | some [type, text] =>
    if type.1 = "type" ∧ type.2.isText "text" ∧ text.1 = "text" then text.2.asStr else none
  | _ => none

/-- The atoms of a block. -/
def blockAtoms (role : String) (block : PyData) : List Atom :=
  match plainText block with
  | some words => words.map (.letter role)
  | none => [.block role block]

/-- **The texts and blocks of messages.** A text block is a text, and texts are taken letter by letter, so
that it does not matter how they are cut. -/
def atoms : Reader Atom where
  text role words := words.map (.letter role)
  block := blockAtoms
  text_append _ _ _ := List.map_append
  block_text _ _ := rfl
  block_letters role words none_ := by
    rw [List.map_eq_nil_iff.mp none_]
    rfl

/-- The texts and blocks without letters that stand in a list. -/
def cleanAtoms : Reader Atom where
  text role words := words.map (.letter role)
  block role block := if block.asStr.isSome then [] else blockAtoms role block
  text_append _ _ _ := List.map_append
  block_text _ _ := rfl
  block_letters role words _ := by
    rw [List.flatMap_eq_nil_iff]
    intro block among
    obtain ⟨letter, -, rfl⟩ := List.mem_map.mp among
    rfl

theorem cleanAtoms_forgets : cleanAtoms.Forgets := by
  intro role words
  rw [List.flatMap_eq_nil_iff]
  intro block among
  obtain ⟨letter, -, rfl⟩ := List.mem_map.mp among
  rfl

/-- An atom that is no letter in a list. -/
def Atom.isClean : Atom → Bool
  | letter _ _ => true
  | block _ value => !value.asStr.isSome

section Atoms

variable {role : String}

theorem filter_letters (words : PyText) :
    (words.map (Atom.letter role)).filter Atom.isClean = words.map (.letter role) := by
  rw [List.filter_eq_self]
  intro atom among
  obtain ⟨letter, -, rfl⟩ := List.mem_map.mp among
  rfl

theorem cleanAtoms_block (block : PyData) :
    cleanAtoms.block role block = (atoms.block role block).filter Atom.isClean := by
  show (if block.asStr.isSome then [] else blockAtoms role block) =
      (blockAtoms role block).filter Atom.isClean
  rw [blockAtoms]
  cases isText : plainText block with
  | some words =>
    have isDict : block.asStr.isSome = false := by
      cases block <;> first | rfl | cases isText
    rw [isDict]
    exact (filter_letters words).symm
  | none =>
    cases isString : block.asStr.isSome with
    | true => simp [Atom.isClean, isString]
    | false => simp [Atom.isClean, isString]

theorem cleanAtoms_content (content : ClaudeContent) :
    cleanAtoms.content role content = (atoms.content role content).filter Atom.isClean := by
  cases content with
  | missing => rfl
  | text words => exact (filter_letters words).symm
  | blocks parts =>
    show parts.flatMap (cleanAtoms.block role) = (parts.flatMap (atoms.block role)).filter Atom.isClean
    rw [List.filter_flatMap]
    exact congrArg (parts.flatMap ·) (funext cleanAtoms_block)

theorem cleanAtoms_transcript (messages : List ClaudeMessage) :
    cleanAtoms.transcript messages = (atoms.transcript messages).filter Atom.isClean := by
  rw [Reader.transcript, Reader.transcript, List.filter_flatMap]
  exact congrArg (messages.flatMap ·) (funext fun message => cleanAtoms_content message.content)

/-- The content is a text, or a list of objects. -/
def ClaudeContent.IsClaude : ClaudeContent → Prop
  | .missing => False
  | .text _ => True
  | .blocks parts => ∀ block ∈ parts, block.asStr = none

theorem piece_cleanAtoms {message : ClaudeMessage} (isClaude : message.content.IsClaude) :
    message.piece cleanAtoms = message.piece atoms := by
  have same : cleanAtoms.content message.role message.content
      = atoms.content message.role message.content := by
    cases isContent : message.content with
    | missing => rfl
    | text words => rfl
    | blocks parts =>
      rw [isContent] at isClaude
      refine List.flatMap_congr fun block among => ?_
      show (if block.asStr.isSome then [] else blockAtoms message.role block)
          = blockAtoms message.role block
      rw [isClaude block among]
      rfl
  rw [ClaudeMessage.piece, ClaudeMessage.piece, same]

/-- **Neighbours that were merged have different roles**, and the first one keeps its role. -/
theorem mergeNeighbours_roles : ∀ {messages : List ClaudeMessage} {message : ClaudeMessage}
    {merged : List ClaudeMessage}, mergeNeighbours message messages = .ok merged →
      (merged.map ClaudeMessage.role).IsChain (· ≠ ·) ∧
        (merged.map ClaudeMessage.role).head? = some message.role
  | [], message, _, runs => by
    cases runs
    exact ⟨.singleton _, rfl⟩
  | next :: messages, message, merged, runs => by
    rw [mergeNeighbours] at runs
    by_cases same : message.role = next.role
    · rw [if_pos same, bind_eq_ok] at runs
      obtain ⟨content, -, later⟩ := runs
      exact @mergeNeighbours_roles messages { message with content := content } merged later
    · rw [if_neg same, bind_eq_ok] at runs
      obtain ⟨rest, later, isMerged⟩ := runs
      cases isMerged
      obtain ⟨chain, head⟩ := mergeNeighbours_roles later
      refine ⟨?_, rfl⟩
      cases isRest : rest.map ClaudeMessage.role with
      | nil =>
        rw [isRest] at head
        cases head
      | cons role roles =>
        rw [isRest] at chain head
        rw [List.map_cons, isRest]
        exact .cons_cons (by rw [Option.some.inj head]; exact same) chain

theorem mergeMessages_roles {messages merged : List ClaudeMessage}
    (runs : mergeMessages messages = .ok merged) :
    (merged.map ClaudeMessage.role).IsChain (· ≠ ·) := by
  cases messages with
  | nil =>
    cases runs
    exact .nil
  | cons message messages => exact (mergeNeighbours_roles runs).1

/-- **Merging neighbours keeps all texts and blocks exactly when**, in each run of messages with one role,
nothing but empty contents comes behind an empty first one, and no text that is not empty comes behind a
list of blocks. The roles of neighbours always differ. -/
theorem merge_keeps_iff {messages : List ClaudeMessage}
    (areClaude : ∀ message ∈ messages, message.content.IsClaude) :
    (∃ merged, mergeMessages messages = .ok merged ∧ (merged.map ClaudeMessage.role).IsChain (· ≠ ·) ∧
      atoms.transcript merged = atoms.transcript messages) ↔
      MergesAll (messages.map (ClaudeMessage.piece atoms)) := by
  constructor
  · rintro ⟨merged, runs, -, kept⟩
    have clean : cleanAtoms.transcript merged = cleanAtoms.transcript messages := by
      rw [cleanAtoms_transcript, cleanAtoms_transcript, kept]
    have merges := (mergeMessages_ok cleanAtoms_forgets runs).2 (by rw [clean])
    rwa [List.map_congr_left fun message among => piece_cleanAtoms (areClaude message among)] at merges
  · intro merges
    obtain ⟨merged, runs, kept⟩ := mergeMessages_whole merges
    exact ⟨merged, runs, mergeMessages_roles runs, kept⟩

/-- Two texts of one role are joined. -/
theorem merge_keeps_iff_texts : ∃ merged,
    mergeMessages [⟨"user", .text [97], []⟩, ⟨"user", .text [98], []⟩] = .ok merged ∧
      (merged.map ClaudeMessage.role).IsChain (· ≠ ·) ∧
      atoms.transcript merged = atoms.transcript [⟨"user", .text [97], []⟩, ⟨"user", .text [98], []⟩] :=
  (merge_keeps_iff fun message among => by
    simp only [List.mem_cons, List.not_mem_nil, or_false] at among
    rcases among with rfl | rfl <;> trivial).mpr ⟨trivial, trivial⟩

/-- A text behind a list of blocks is taken apart. -/
theorem text_behind_blocks_lost :
    ¬ ∃ merged, mergeMessages [⟨"user", .blocks [textBlock [97]], []⟩, ⟨"user", .text [98], []⟩]
      = .ok merged ∧
      (merged.map ClaudeMessage.role).IsChain (· ≠ ·) ∧
      atoms.transcript merged
        = atoms.transcript [⟨"user", .blocks [textBlock [97]], []⟩, ⟨"user", .text [98], []⟩] := by
  rintro ⟨merged, runs, -, kept⟩
  cases runs
  obtain ⟨-, others⟩ := List.cons.inj kept
  cases (List.cons.inj others).1

end Atoms

end UniApi.Providers.ClaudeRequest
