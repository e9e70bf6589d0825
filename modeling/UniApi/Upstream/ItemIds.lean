/-
**`ResponsesCustomToolCallIdNormalizer`: item IDs renamed along a stream, in Python.**

The items that need another ID are checked first, then the event's reference is registered, then the
items are registered and renamed one after the other. A registration may still raise, when an earlier
event has given the item another ID; what was done before stays.

* `renameCandidates_raises`: the renaming raises when a candidate is mapped to another ID;
* `normalizeObject_atomic_iff`: a call that raises changes nothing, unless it raises there and something was
  registered or renamed before.
-/

import UniApi.Front.Items
import UniApi.Lib.Raise

namespace UniApi.Upstream

open UniApi.Lib
open UniApi.Front (Value JsonMap Serde Place placedItems changeItems stripPrefix plainSuffix underscore
  isAsciiAlphanumeric itemPrefix eventPrefix maxItemIdLength hashedItemIdHexLength itemNamed noDigest)

/-! ### IDs -/

/-- `_ITEM_ID_RE.fullmatch`, its group: letters and digits, an underscore, letters and digits. -/
def matchItemId (itemId : Bytes) : Option Bytes :=
  match itemId.dropWhile isAsciiAlphanumeric with
  | [] => none
  | byte :: suffix =>
    if byte = underscore && !(itemId.takeWhile isAsciiAlphanumeric).isEmpty && plainSuffix suffix then
      some suffix
    else none

/-- `_normalized_id_for_prefix`, of a string and a prefix of the tables. -/
def normalizedIdForPrefix (serde : Serde) (itemId idPrefix : Bytes) : Option Bytes :=
  let canonicalPrefix := idPrefix ++ [underscore]
  let hashed := canonicalPrefix ++ (serde.sha256Hex itemId).take hashedItemIdHexLength
  let other := fun candidate => if candidate ≠ itemId then some candidate else none
  if (stripPrefix canonicalPrefix itemId).any fun canonicalSuffix =>
      plainSuffix canonicalSuffix && decide (itemId.length ≤ maxItemIdLength) then none
  else
    match matchItemId itemId with
    | some suffix =>
      if (canonicalPrefix ++ suffix).length ≤ maxItemIdLength then other (canonicalPrefix ++ suffix)
      else other hashed
    | none => other hashed

/-- The ID of an item and the one it should have, if that is another one. -/
def itemTarget (serde : Serde) (item : JsonMap) : Option (Bytes × Bytes) := do
  let itemId ← item.getStr (Utf8.lit "id")
  let idPrefix ← (item.getStr (Utf8.lit "type")).bind itemPrefix
  let normalizedId ← normalizedIdForPrefix serde itemId idPrefix
  return (itemId, normalizedId)

/-- The ID that a reference should have by the type of its event. -/
def eventTarget (serde : Serde) (payload : JsonMap) (itemId : Bytes) : Option Bytes :=
  ((payload.getStr (Utf8.lit "type")).bind eventPrefix).bind (normalizedIdForPrefix serde itemId)

theorem normalizedIdForPrefix_ne {serde : Serde} {itemId idPrefix normalizedId : Bytes}
    (target : normalizedIdForPrefix serde itemId idPrefix = some normalizedId) :
    normalizedId ≠ itemId := by
  unfold normalizedIdForPrefix at target
  dsimp only at target
  split at target
  · cases target
  · have other : ∀ candidate : Bytes, (if candidate ≠ itemId then some candidate else none) =
        some normalizedId → normalizedId ≠ itemId := by
      intro candidate chosen
      split at chosen
      · rename_i differs
        cases chosen
        exact differs
      · cases chosen
    split at target
    · split at target
      · exact other _ target
      · exact other _ target
    · exact other _ target

/-! ### The normaliser -/

/-- `ResponsesCustomToolCallIdCollisionError`. -/
structure CollisionError where
  message : String

/-- `_id_map` and `_seen_item_ids`. -/
structure ItemIdNormalizer where
  idMap : List (Bytes × Bytes)
  seenItemIds : List Bytes

/-- `__init__`. -/
def ItemIdNormalizer.fresh : ItemIdNormalizer := ⟨[], []⟩

/-- An item that needs another ID: its place, its ID and the new one. -/
structure Candidate where
  place : Place
  itemId : Bytes
  normalizedId : Bytes

/-- The path of an item in messages. -/
def placePath : Place → String
  | .item => "item"
  | .input index => "input[" ++ toString index ++ "]"
  | .output index => "output[" ++ toString index ++ "]"
  | .responseOutput index => "response.output[" ++ toString index ++ "]"

/-- `ResponsesCustomToolCallIdNormalizationResult`. -/
structure NormalizationResult where
  normalizedIds : Nat
  rewrittenReferences : Nat
  paths : List String

/-- `_MAX_RECORDED_PATHS`. -/
def maxRecordedPaths : Nat := 16

/-- What a call works on. -/
structure Normalizing where
  normalizer : ItemIdNormalizer
  payload : JsonMap

section Calls

variable (serde : Serde)

/-- `existing_ids`. -/
def existingIds (payload : JsonMap) : List Bytes :=
  (placedItems payload).filterMap (·.2.getStr (Utf8.lit "id"))

/-- The items that need another ID. -/
def candidatesOf (payload : JsonMap) : List Candidate :=
  (placedItems payload).filterMap fun located =>
    (itemTarget serde located.2).map fun target => ⟨located.1, target.1, target.2⟩

/-- `_would_collide`. -/
def wouldCollide (normalizer : ItemIdNormalizer) (itemId normalizedId : Bytes)
    (currentItemIds : List Bytes) : Bool :=
  decide (normalizedId ≠ itemId) && (decide (normalizedId ∈ currentItemIds) ||
    (decide (normalizedId ∈ normalizer.seenItemIds) &&
      decide (normalizer.idMap.lookup itemId ≠ some normalizedId)))

/-- The loop that checks the candidates, with `candidate_targets` and `candidate_sources`. -/
def checkCandidates (normalizer : ItemIdNormalizer) (existing : List Bytes) :
    List (Bytes × Bytes) → List (Bytes × Bytes) → List Candidate → Except CollisionError Unit
  | _, _, [] => .ok ()
  | targets, sources, candidate :: rest =>
    if wouldCollide normalizer candidate.itemId candidate.normalizedId existing then
      .error ⟨"Responses item ID normalization at " ++ placePath candidate.place ++
        ".id would collide with an existing item ID"⟩
    else if (targets.lookup candidate.normalizedId).any (· ≠ candidate.itemId) then
      .error ⟨"Responses item ID normalization at " ++ placePath candidate.place ++
        ".id would collide with another normalized item ID"⟩
    else if (sources.lookup candidate.itemId).any (· ≠ candidate.normalizedId) then
      .error ⟨"Responses item ID normalization at " ++ placePath candidate.place ++
        ".id produced an inconsistent mapping"⟩
    else checkCandidates normalizer existing ((candidate.normalizedId, candidate.itemId) :: targets)
      ((candidate.itemId, candidate.normalizedId) :: sources) rest

/-- `_register`. -/
def register (itemId normalizedId : Bytes) : Raise CollisionError Normalizing Unit := do
  let now ← Raise.get
  match now.normalizer.idMap.lookup itemId with
  | some existing =>
    if existing ≠ normalizedId then
      Raise.throw ⟨"Responses item ID normalization produced an inconsistent mapping"⟩
    else pure ()
  | none =>
    Raise.modify fun now => { now with
      normalizer := { now.normalizer with
        idMap := (itemId, normalizedId) :: now.normalizer.idMap } }

/-- `item["id"] = ..` for the item in a place. -/
def writeItemId (place : Place) (normalizedId : Bytes) (payload : JsonMap) : JsonMap :=
  changeItems (fun other item =>
    if other = place then item.insert (Utf8.lit "id") (.string normalizedId) else item) payload

/-- The loop that registers and renames the candidates. -/
def renameCandidates : List Candidate → Raise CollisionError Normalizing Unit
  | [] => pure ()
  | candidate :: rest => do
    register candidate.itemId candidate.normalizedId
    Raise.modify fun now =>
      { now with payload := writeItemId candidate.place candidate.normalizedId now.payload }
    renameCandidates rest

/-- The ID a reference should have: the one of the ID map, or the one of the event's type. -/
def referenceTarget (normalizer : ItemIdNormalizer) (payload : JsonMap) (itemId : Bytes) :
    Option Bytes := (normalizer.idMap.lookup itemId).or (eventTarget serde payload itemId)

/-- The reference of the event is checked and registered. -/
def registerReference (existing : List Bytes) : Raise CollisionError Normalizing Unit := do
  let now ← Raise.get
  match now.payload.getStr (Utf8.lit "item_id") with
  | none => pure ()
  | some itemId =>
    match referenceTarget serde now.normalizer now.payload itemId with
    | none => pure ()
    | some normalizedId =>
      if wouldCollide now.normalizer itemId normalizedId existing then
        Raise.throw ⟨"Responses item_id normalization would collide with an existing item ID"⟩
      else register itemId normalizedId

/-- `payload["item_id"] = ..`, and whether it was done. -/
def rewriteReference : Raise CollisionError Normalizing Bool := do
  let now ← Raise.get
  match (now.payload.getStr (Utf8.lit "item_id")).bind (now.normalizer.idMap.lookup ·) with
  | none => pure false
  | some normalizedId => do
    Raise.modify fun now =>
      { now with payload := now.payload.insert (Utf8.lit "item_id") (.string normalizedId) }
    pure true

/-- What follows the renaming: the reference, the seen IDs and the result. -/
def finishCall (candidates : List Candidate) : Raise CollisionError Normalizing NormalizationResult := do
  let rewritten ← rewriteReference
  Raise.modify fun now => { now with
    normalizer := { now.normalizer with
      seenItemIds := existingIds now.payload ++ now.normalizer.seenItemIds } }
  let paths := (candidates.map fun candidate => placePath candidate.place ++ ".id") ++
    if rewritten then ["item_id"] else []
  return {
    normalizedIds := candidates.length
    rewrittenReferences := if rewritten then 1 else 0
    paths := paths.take maxRecordedPaths }

/-- The body of `normalize`. -/
def normalizeObject : Raise CollisionError Normalizing NormalizationResult := do
  let before ← Raise.get
  let existing := existingIds before.payload
  let candidates := candidatesOf serde before.payload
  Raise.ofExcept (checkCandidates before.normalizer existing [] [] candidates)
  registerReference serde existing
  renameCandidates candidates
  finishCall candidates

/-- `normalize`: the outcome, the normaliser and the payload after it. -/
def normalize (normalizer : ItemIdNormalizer) (payload : Value) :
    Except CollisionError NormalizationResult × ItemIdNormalizer × Value :=
  match payload with
  | .object members =>
    let called := normalizeObject serde ⟨normalizer, members⟩
    (called.1, called.2.normalizer, .object called.2.payload)
  | payload => (.ok ⟨0, 0, []⟩, normalizer, payload)

/-- The normaliser after calls. -/
def afterCalls (payloads : List Value) : ItemIdNormalizer :=
  payloads.foldl (fun normalizer payload => (normalize serde normalizer payload).2.1) .fresh

end Calls

/-! ### Registering and renaming -/

section Steps

variable {candidates : List Candidate} {candidate : Candidate} {now : Normalizing}

theorem register_known {itemId normalizedId : Bytes}
    (known : now.normalizer.idMap.lookup itemId = some normalizedId) :
    register itemId normalizedId now = (.ok (), now) := by
  rw [register, Raise.bind_apply, Raise.get_apply]
  dsimp only
  rw [known]
  dsimp only
  rw [if_neg (not_not.mpr rfl), Raise.pure_apply]

theorem register_conflict {itemId normalizedId existing : Bytes}
    (known : now.normalizer.idMap.lookup itemId = some existing) (differs : existing ≠ normalizedId) :
    register itemId normalizedId now =
      (.error ⟨"Responses item ID normalization produced an inconsistent mapping"⟩, now) := by
  rw [register, Raise.bind_apply, Raise.get_apply]
  dsimp only
  rw [known]
  dsimp only
  rw [if_pos differs, Raise.throw_apply]

theorem register_new {itemId normalizedId : Bytes}
    (absent : now.normalizer.idMap.lookup itemId = none) :
    register itemId normalizedId now = (.ok (), { now with
      normalizer := { now.normalizer with
        idMap := (itemId, normalizedId) :: now.normalizer.idMap } }) := by
  rw [register, Raise.bind_apply, Raise.get_apply]
  dsimp only
  rw [absent]
  rfl

/-- A candidate that an ID map gives another ID. -/
def conflicting (idMap : List (Bytes × Bytes)) (candidate : Candidate) : Bool :=
  (idMap.lookup candidate.itemId).any (· ≠ candidate.normalizedId)

/-- The ID map after a candidate that it does not conflict with. -/
def registered (idMap : List (Bytes × Bytes)) (candidate : Candidate) : List (Bytes × Bytes) :=
  match idMap.lookup candidate.itemId with
  | some _ => idMap
  | none => (candidate.itemId, candidate.normalizedId) :: idMap

theorem register_of_conflicting (conflict : conflicting now.normalizer.idMap candidate = true) :
    ∃ error, register candidate.itemId candidate.normalizedId now = (.error error, now) := by
  unfold conflicting at conflict
  cases known : now.normalizer.idMap.lookup candidate.itemId with
  | none =>
    rw [known] at conflict
    cases conflict
  | some existing =>
    rw [known, Option.any_some, decide_eq_true_eq] at conflict
    exact ⟨_, register_conflict known conflict⟩

theorem register_of_not_conflicting
    (agrees : conflicting now.normalizer.idMap candidate = false) :
    register candidate.itemId candidate.normalizedId now = (.ok (), { now with
      normalizer := { now.normalizer with idMap := registered now.normalizer.idMap candidate } }) := by
  unfold conflicting at agrees
  cases known : now.normalizer.idMap.lookup candidate.itemId with
  | none =>
    rw [register_new known, registered, known]
  | some existing =>
    rw [known, Option.any_some, decide_eq_false_iff_not, not_not] at agrees
    rw [register_known (agrees ▸ known), registered, known]

/-- What a candidate that is registered does to the others: those with its ID have its new ID. -/
theorem conflicting_registered {idMap : List (Bytes × Bytes)} {candidate other : Candidate}
    (consistent : other.itemId = candidate.itemId → other.normalizedId = candidate.normalizedId) :
    conflicting (registered idMap candidate) other = conflicting idMap other := by
  unfold registered
  cases known : idMap.lookup candidate.itemId with
  | some existing => rfl
  | none =>
    rw [conflicting, conflicting, List.lookup_cons]
    by_cases same : other.itemId = candidate.itemId
    · rw [beq_iff_eq.mpr same, same, known, Option.any_some, Option.any_none, consistent same,
        decide_eq_false (not_not.mpr rfl)]
    · rw [beq_false_of_ne same]

theorem renameCandidates_cons {rest : List Candidate}
    (agrees : conflicting now.normalizer.idMap candidate = false) :
    renameCandidates (candidate :: rest) now =
      renameCandidates rest {
        normalizer := { now.normalizer with idMap := registered now.normalizer.idMap candidate }
        payload := writeItemId candidate.place candidate.normalizedId now.payload } := by
  rw [renameCandidates, Raise.bind_apply, register_of_not_conflicting agrees]
  rfl

theorem renameCandidates_stops (rest : List Candidate)
    (conflict : conflicting now.normalizer.idMap candidate = true) :
    ∃ error, renameCandidates (candidate :: rest) now = (.error error, now) := by
  obtain ⟨error, raised⟩ := register_of_conflicting conflict
  exact ⟨error, by rw [renameCandidates, Raise.bind_apply, raised]⟩

/-- **The renaming raises** when a candidate is mapped to another ID. -/
theorem renameCandidates_raises (consistent : candidates.Pairwise fun first second =>
      second.itemId = first.itemId → second.normalizedId = first.normalizedId) (now : Normalizing) :
    (∃ error, (renameCandidates candidates now).1 = .error error) ↔
      ∃ candidate ∈ candidates, conflicting now.normalizer.idMap candidate = true := by
  induction candidates generalizing now with
  | nil =>
    constructor
    · rintro ⟨error, raised⟩
      cases raised
    · rintro ⟨candidate, isCandidate, -⟩
      cases isCandidate
  | cons candidate rest ih =>
    obtain ⟨first, later⟩ := List.pairwise_cons.mp consistent
    cases conflict : conflicting now.normalizer.idMap candidate with
    | true =>
      obtain ⟨error, stops⟩ := renameCandidates_stops rest conflict
      exact ⟨fun _ => ⟨candidate, List.mem_cons_self, conflict⟩, fun _ => ⟨error, by rw [stops]⟩⟩
    | false =>
      have others : ∀ other ∈ rest, conflicting (registered now.normalizer.idMap candidate) other =
          conflicting now.normalizer.idMap other := fun other isOther =>
        conflicting_registered (first other isOther)
      rw [renameCandidates_cons conflict, ih later]
      constructor
      · rintro ⟨other, isOther, found⟩
        exact ⟨other, List.mem_cons_of_mem _ isOther, (others other isOther).symm.trans found⟩
      · rintro ⟨other, isOther, found⟩
        rcases List.mem_cons.mp isOther with rfl | isOther
        · rw [conflict] at found
          cases found
        · exact ⟨other, isOther, (others other isOther).trans found⟩

theorem registered_suffix (idMap : List (Bytes × Bytes)) (candidate : Candidate) :
    idMap <:+ registered idMap candidate := by
  unfold registered
  split
  · exact List.suffix_refl _
  · exact List.suffix_cons _ _

/-- The ID map only grows, and the seen IDs wait for the end of the call. -/
theorem renameCandidates_grows (candidates : List Candidate) (now : Normalizing) :
    now.normalizer.idMap <:+ (renameCandidates candidates now).2.normalizer.idMap ∧
      (renameCandidates candidates now).2.normalizer.seenItemIds = now.normalizer.seenItemIds := by
  induction candidates generalizing now with
  | nil => exact ⟨List.suffix_refl _, rfl⟩
  | cons candidate rest ih =>
    cases conflict : conflicting now.normalizer.idMap candidate with
    | true =>
      obtain ⟨error, stops⟩ := renameCandidates_stops rest conflict
      rw [stops]
      exact ⟨List.suffix_refl _, rfl⟩
    | false =>
      obtain ⟨grows, seen⟩ := ih { now with
        normalizer := { now.normalizer with idMap := registered now.normalizer.idMap candidate }
        payload := writeItemId candidate.place candidate.normalizedId now.payload }
      rw [renameCandidates_cons conflict]
      exact ⟨(registered_suffix _ candidate).trans grows, seen⟩

/-- An item keeps what it has unless a candidate has its place. -/
theorem renameCandidates_keeps {place : Place}
    (elsewhere : ∀ candidate ∈ candidates, place ≠ candidate.place) (now : Normalizing)
    {item : JsonMap} (there : (place, item) ∈ placedItems now.payload) :
    (place, item) ∈ placedItems (renameCandidates candidates now).2.payload := by
  induction candidates generalizing now with
  | nil => exact there
  | cons candidate rest ih =>
    cases conflict : conflicting now.normalizer.idMap candidate with
    | true =>
      obtain ⟨error, stops⟩ := renameCandidates_stops rest conflict
      rw [stops]
      exact there
    | false =>
      rw [renameCandidates_cons conflict]
      refine ih (fun other isOther => elsewhere other (List.mem_cons_of_mem _ isOther)) _ ?_
      rw [writeItemId, Front.placedItems_changeItems]
      refine List.mem_map.mpr ⟨(place, item), there, ?_⟩
      rw [Front.changed, if_neg (elsewhere candidate List.mem_cons_self)]

theorem lookup_registered (idMap : List (Bytes × Bytes)) (candidate : Candidate) (itemId : Bytes) :
    (registered idMap candidate).lookup itemId = (idMap.lookup itemId).or
      (if itemId = candidate.itemId then some candidate.normalizedId else none) := by
  unfold registered
  cases known : idMap.lookup candidate.itemId with
  | some existing =>
    by_cases same : itemId = candidate.itemId
    · rw [same, known, Option.some_or]
    · rw [if_neg same, Option.or_none]
  | none =>
    rw [List.lookup_cons]
    by_cases same : itemId = candidate.itemId
    · rw [beq_iff_eq.mpr same, if_pos same, same, known, Option.none_or]
    · rw [beq_false_of_ne same, if_neg same, Option.or_none]

/-- **The ID map after a renaming** has the candidates that it did not have. -/
theorem renameCandidates_lookup (consistent : candidates.Pairwise fun first second =>
      second.itemId = first.itemId → second.normalizedId = first.normalizedId) (now : Normalizing)
    (agrees : ∀ candidate ∈ candidates, conflicting now.normalizer.idMap candidate = false)
    (itemId normalizedId : Bytes) :
    (renameCandidates candidates now).2.normalizer.idMap.lookup itemId = some normalizedId ↔
      now.normalizer.idMap.lookup itemId = some normalizedId ∨
        now.normalizer.idMap.lookup itemId = none ∧ ∃ candidate ∈ candidates,
          candidate.itemId = itemId ∧ candidate.normalizedId = normalizedId := by
  induction candidates generalizing now with
  | nil => simp [renameCandidates]
  | cons candidate rest ih =>
    obtain ⟨first, later⟩ := List.pairwise_cons.mp consistent
    obtain ⟨here, others⟩ := List.forall_mem_cons.mp agrees
    rw [renameCandidates_cons here, ih later _ fun other isOther => by
      rw [conflicting_registered (first other isOther), others other isOther]]
    dsimp only
    rw [lookup_registered]
    cases known : now.normalizer.idMap.lookup itemId with
    | some existing => simp
    | none =>
      rw [Option.none_or]
      by_cases same : itemId = candidate.itemId
      · rw [if_pos same]
        constructor
        · rintro (found | ⟨absent, -⟩)
          · exact .inr ⟨rfl, candidate, List.mem_cons_self, same.symm, Option.some.inj found⟩
          · cases absent
        · rintro (found | ⟨-, other, isOther, sameId, isTarget⟩)
          · cases found
          · rcases List.mem_cons.mp isOther with rfl | isOther
            · exact .inl (congrArg some isTarget)
            · refine .inl (congrArg some ?_)
              rw [← isTarget, first other isOther (sameId.trans same)]
      · rw [if_neg same]
        refine or_congr Iff.rfl (and_congr Iff.rfl ⟨?_, ?_⟩)
        · rintro ⟨other, isOther, found⟩
          exact ⟨other, List.mem_cons_of_mem _ isOther, found⟩
        · rintro ⟨other, isOther, sameId, isTarget⟩
          rcases List.mem_cons.mp isOther with rfl | isOther
          · exact absurd sameId.symm same
          · exact ⟨other, isOther, sameId, isTarget⟩

/-- What the candidates make of an item in a place. -/
def renameItem (candidates : List Candidate) (place : Place) (item : JsonMap) : JsonMap :=
  candidates.foldl (fun item candidate =>
    if place = candidate.place then item.insert (Utf8.lit "id") (.string candidate.normalizedId)
    else item) item

/-- **The payload after a renaming** has the items as the candidates make them. -/
theorem renameCandidates_payload (consistent : candidates.Pairwise fun first second =>
      second.itemId = first.itemId → second.normalizedId = first.normalizedId) (now : Normalizing)
    (agrees : ∀ candidate ∈ candidates, conflicting now.normalizer.idMap candidate = false) :
    (renameCandidates candidates now).2.payload = changeItems (renameItem candidates) now.payload := by
  induction candidates generalizing now with
  | nil => exact (Front.changeItems_id _).symm
  | cons candidate rest ih =>
    obtain ⟨first, later⟩ := List.pairwise_cons.mp consistent
    obtain ⟨here, others⟩ := List.forall_mem_cons.mp agrees
    rw [renameCandidates_cons here, ih later _ fun other isOther => by
      rw [conflicting_registered (first other isOther), others other isOther]]
    dsimp only
    rw [writeItemId, Front.changeItems_changeItems]
    rfl

theorem renameItem_elsewhere {place : Place}
    (elsewhere : ∀ candidate ∈ candidates, place ≠ candidate.place) (item : JsonMap) :
    renameItem candidates place item = item := by
  induction candidates with
  | nil => rfl
  | cons candidate rest ih =>
    obtain ⟨here, others⟩ := List.forall_mem_cons.mp elsewhere
    rw [renameItem, List.foldl_cons, if_neg here]
    exact ih others

theorem renameItem_of_mem
    (places : candidates.Pairwise fun first second => first.place ≠ second.place)
    (isCandidate : candidate ∈ candidates) (item : JsonMap) :
    renameItem candidates candidate.place item =
      item.insert (Utf8.lit "id") (.string candidate.normalizedId) := by
  induction candidates with
  | nil => cases isCandidate
  | cons first rest ih =>
    obtain ⟨apart, later⟩ := List.pairwise_cons.mp places
    rw [renameItem, List.foldl_cons]
    rcases List.mem_cons.mp isCandidate with rfl | isCandidate
    · rw [if_pos rfl]
      exact renameItem_elsewhere apart _
    · rw [if_neg (apart candidate isCandidate).symm]
      exact ih later isCandidate

/-- The payload with its reference rewritten. -/
def rewrittenPayload (now : Normalizing) : JsonMap :=
  match (now.payload.getStr (Utf8.lit "item_id")).bind (now.normalizer.idMap.lookup ·) with
  | none => now.payload
  | some normalizedId => now.payload.insert (Utf8.lit "item_id") (.string normalizedId)

/-- What follows the renaming: the reference is rewritten, and the IDs are seen. -/
theorem finishCall_after (candidates : List Candidate) (now : Normalizing) :
    ∃ result, finishCall candidates now = (.ok result, {
      normalizer := { now.normalizer with
        seenItemIds := existingIds (rewrittenPayload now) ++ now.normalizer.seenItemIds }
      payload := rewrittenPayload now }) := by
  rw [finishCall, Raise.bind_apply, rewriteReference, Raise.bind_apply, Raise.get_apply]
  unfold rewrittenPayload
  dsimp only
  cases (now.payload.getStr (Utf8.lit "item_id")).bind (now.normalizer.idMap.lookup ·) with
  | none => exact ⟨_, rfl⟩
  | some normalizedId => exact ⟨_, rfl⟩

end Steps

/-! ### Rejected calls -/

section Rejections

variable (serde : Serde) (normalizer : ItemIdNormalizer)

/-- Candidates that the first loop accepts: no new ID is in use, and new IDs are the same exactly where
the IDs are. -/
structure Passes (existing : List Bytes) (candidates : List Candidate) : Prop where
  apart : ∀ candidate ∈ candidates,
    wouldCollide normalizer candidate.itemId candidate.normalizedId existing = false
  oneToOne : candidates.Pairwise fun first second =>
    second.normalizedId = first.normalizedId ↔ second.itemId = first.itemId

/-- One more entry of a table whose entry for a key, if there is one, must be a value. -/
theorem lookup_cons_agrees {entries : List (Bytes × Bytes)} {key value other expected : Bytes} :
    (((key, value) :: entries).lookup other).any (· ≠ expected) = false ↔
      (other = key → value = expected) ∧
        (other ≠ key → (entries.lookup other).any (· ≠ expected) = false) := by
  rw [List.lookup_cons]
  by_cases same : other = key
  · rw [beq_iff_eq.mpr same, Option.any_some, decide_eq_false_iff_not, not_not]
    exact ⟨fun agrees => ⟨fun _ => agrees, fun differs => absurd same differs⟩,
      fun agrees => agrees.1 same⟩
  · rw [beq_false_of_ne same]
    exact ⟨fun agrees => ⟨fun equal => absurd equal same, fun _ => agrees⟩,
      fun agrees => agrees.2 same⟩

/-- **What the first loop checks**, with the targets and sources it has collected. -/
theorem checkCandidates_ok (existing : List Bytes) (candidates : List Candidate)
    (targets sources : List (Bytes × Bytes)) :
    checkCandidates normalizer existing targets sources candidates = .ok () ↔
      Passes normalizer existing candidates ∧ ∀ candidate ∈ candidates,
        (targets.lookup candidate.normalizedId).any (· ≠ candidate.itemId) = false ∧
          (sources.lookup candidate.itemId).any (· ≠ candidate.normalizedId) = false := by
  induction candidates generalizing targets sources with
  | nil =>
    exact ⟨fun _ => ⟨⟨List.forall_mem_nil _, .nil⟩, List.forall_mem_nil _⟩, fun _ => rfl⟩
  | cons candidate rest ih =>
    unfold checkCandidates
    constructor
    · intro accepted
      split at accepted
      · cases accepted
      split at accepted
      · cases accepted
      split at accepted
      · cases accepted
      rename_i free target source
      rw [Bool.not_eq_true] at free target source
      obtain ⟨⟨apart, oneToOne⟩, collected⟩ := (ih _ _).mp accepted
      have paired : ∀ other ∈ rest,
          other.normalizedId = candidate.normalizedId ↔ other.itemId = candidate.itemId := by
        intro other isOther
        obtain ⟨byTarget, bySource⟩ := collected other isOther
        exact ⟨fun same => ((lookup_cons_agrees.mp byTarget).1 same).symm,
          fun same => ((lookup_cons_agrees.mp bySource).1 same).symm⟩
      refine ⟨⟨List.forall_mem_cons.mpr ⟨free, apart⟩, .cons paired oneToOne⟩,
        List.forall_mem_cons.mpr ⟨⟨target, source⟩, fun other isOther => ?_⟩⟩
      obtain ⟨byTarget, bySource⟩ := collected other isOther
      by_cases same : other.itemId = candidate.itemId
      · rw [same, (paired other isOther).mpr same]
        exact ⟨target, source⟩
      · exact ⟨(lookup_cons_agrees.mp byTarget).2 fun equal => same ((paired other isOther).mp equal),
          (lookup_cons_agrees.mp bySource).2 same⟩
    · rintro ⟨⟨apart, oneToOne⟩, collected⟩
      obtain ⟨free, apart⟩ := List.forall_mem_cons.mp apart
      obtain ⟨⟨target, source⟩, collected⟩ := List.forall_mem_cons.mp collected
      obtain ⟨paired, oneToOne⟩ := List.pairwise_cons.mp oneToOne
      rw [if_neg (Bool.not_eq_true _ ▸ free), if_neg (Bool.not_eq_true _ ▸ target),
        if_neg (Bool.not_eq_true _ ▸ source)]
      refine (ih _ _).mpr ⟨⟨apart, oneToOne⟩, fun other isOther => ⟨?_, ?_⟩⟩
      · exact lookup_cons_agrees.mpr ⟨fun same => ((paired other isOther).mp same).symm,
          fun _ => (collected other isOther).1⟩
      · exact lookup_cons_agrees.mpr ⟨fun same => ((paired other isOther).mpr same).symm,
          fun _ => (collected other isOther).2⟩

/-- What the reference of the event adds to the ID map. -/
def newReference (payload : JsonMap) : Option (Bytes × Bytes) := do
  let itemId ← payload.getStr (Utf8.lit "item_id")
  match normalizer.idMap.lookup itemId with
  | some _ => none
  | none => (eventTarget serde payload itemId).map (itemId, ·)

/-- A reference that the second check accepts. -/
def ReferencePasses (payload : JsonMap) : Prop :=
  ∀ itemId normalizedId, payload.getStr (Utf8.lit "item_id") = some itemId →
    referenceTarget serde normalizer payload itemId = some normalizedId →
      wouldCollide normalizer itemId normalizedId (existingIds payload) = false

/-- What a call works on once the reference is registered. -/
def withReference (payload : JsonMap) : Normalizing where
  normalizer := { normalizer with
    idMap := (newReference serde normalizer payload).toList ++ normalizer.idMap }
  payload := payload

theorem registerReference_passes {payload : JsonMap} (passes : ReferencePasses serde normalizer payload) :
    registerReference serde (existingIds payload) ⟨normalizer, payload⟩ =
      (.ok (), withReference serde normalizer payload) := by
  rw [registerReference, Raise.bind_apply, Raise.get_apply]
  dsimp only
  unfold withReference newReference
  cases reference : payload.getStr (Utf8.lit "item_id") with
  | none => rfl
  | some itemId =>
    dsimp only [Option.bind_eq_bind, Option.bind_some]
    cases target : referenceTarget serde normalizer payload itemId with
    | none =>
      rw [referenceTarget, Option.or_eq_none_iff] at target
      rw [target.1, target.2]
      rfl
    | some normalizedId =>
      dsimp only
      rw [if_neg (by rw [passes itemId normalizedId reference target]; exact Bool.false_ne_true)]
      rw [referenceTarget] at target
      cases known : normalizer.idMap.lookup itemId with
      | some existing =>
        rw [known, Option.some_or] at target
        exact register_known (known.trans target)
      | none =>
        rw [known, Option.none_or] at target
        rw [register_new known, target]
        rfl

theorem registerReference_raises {payload : JsonMap}
    (blocked : ¬ ReferencePasses serde normalizer payload) :
    ∃ error, registerReference serde (existingIds payload) ⟨normalizer, payload⟩ =
      (.error error, ⟨normalizer, payload⟩) := by
  unfold ReferencePasses at blocked
  push Not at blocked
  obtain ⟨itemId, normalizedId, reference, target, collides⟩ := blocked
  rw [registerReference, Raise.bind_apply, Raise.get_apply]
  dsimp only
  rw [reference]
  dsimp only
  rw [target]
  dsimp only
  rw [if_pos (Bool.eq_true_of_not_eq_false collides)]
  exact ⟨_, rfl⟩

/-- A call that raises in the middle: the checks pass, a candidate is mapped to another ID, and
something was registered or renamed before. -/
structure Torn (payload : JsonMap) : Prop where
  passes : Passes normalizer (existingIds payload) (candidatesOf serde payload)
  reference : ReferencePasses serde normalizer payload
  conflict : ∃ candidate ∈ candidatesOf serde payload,
    conflicting ((newReference serde normalizer payload).toList ++ normalizer.idMap) candidate = true
  begun : newReference serde normalizer payload ≠ none ∨
    ∀ candidate, (candidatesOf serde payload).head? = some candidate →
      conflicting normalizer.idMap candidate = false

/-- Where a call raises, and what it has done by then. -/
theorem normalizeObject_raises {payload : JsonMap} {error : CollisionError} {after : Normalizing} :
    normalizeObject serde ⟨normalizer, payload⟩ = (.error error, after) ↔
      (checkCandidates normalizer (existingIds payload) [] [] (candidatesOf serde payload) =
          .error error ∧ after = ⟨normalizer, payload⟩) ∨
        checkCandidates normalizer (existingIds payload) [] [] (candidatesOf serde payload) = .ok () ∧
          (registerReference serde (existingIds payload) ⟨normalizer, payload⟩ = (.error error, after) ∨
            ∃ between, registerReference serde (existingIds payload) ⟨normalizer, payload⟩ =
                (.ok (), between) ∧
              renameCandidates (candidatesOf serde payload) between = (.error error, after)) := by
  rw [normalizeObject, Raise.bind_apply, Raise.get_apply]
  dsimp only
  rw [Raise.bind_apply, Raise.ofExcept_apply]
  cases checkCandidates normalizer (existingIds payload) [] [] (candidatesOf serde payload) with
  | error found =>
    simp only [Prod.mk.injEq, Except.error.injEq, reduceCtorEq, false_and, or_false, eq_comm]
  | ok =>
    simp only [reduceCtorEq, false_and, false_or, true_and]
    rw [Raise.bind_error]
    refine or_congr Iff.rfl ⟨?_, ?_⟩
    · rintro ⟨⟨⟩, between, registered, raised⟩
      rcases Raise.bind_error.mp raised with raised | ⟨⟨⟩, renamed, -, finished⟩
      · exact ⟨between, registered, raised⟩
      · obtain ⟨result, isResult⟩ := finishCall_after (candidatesOf serde payload) renamed
        rw [finished] at isResult
        cases isResult
    · rintro ⟨between, registered, raised⟩
      exact ⟨(), between, registered, Raise.bind_error.mpr (.inl raised)⟩

/-- A call that passes every check. -/
structure Accepted (payload : JsonMap) : Prop where
  passes : Passes normalizer (existingIds payload) (candidatesOf serde payload)
  reference : ReferencePasses serde normalizer payload
  agrees : ∀ candidate ∈ candidatesOf serde payload,
    conflicting ((newReference serde normalizer payload).toList ++ normalizer.idMap) candidate = false

theorem Passes.consistent {normalizer : ItemIdNormalizer} {existing : List Bytes}
    {candidates : List Candidate} (passes : Passes normalizer existing candidates) :
    candidates.Pairwise fun first second =>
      second.itemId = first.itemId → second.normalizedId = first.normalizedId :=
  passes.oneToOne.imp fun paired => paired.mpr

/-- **What an accepted call does**: it registers the reference, renames the candidates, and finishes. -/
theorem normalizeObject_accepted {payload : JsonMap} (accepted : Accepted serde normalizer payload) :
    normalizeObject serde ⟨normalizer, payload⟩ =
      finishCall (candidatesOf serde payload)
        (renameCandidates (candidatesOf serde payload) (withReference serde normalizer payload)).2 := by
  have checked := (checkCandidates_ok normalizer (existingIds payload) (candidatesOf serde payload)
    [] []).mpr ⟨accepted.passes, fun _ _ => ⟨rfl, rfl⟩⟩
  have renamed : (renameCandidates (candidatesOf serde payload)
      (withReference serde normalizer payload)).1 = .ok () := by
    cases outcome : (renameCandidates (candidatesOf serde payload)
        (withReference serde normalizer payload)).1 with
    | ok => rfl
    | error error =>
      obtain ⟨candidate, isCandidate, conflict⟩ :=
        (renameCandidates_raises accepted.passes.consistent _).mp ⟨error, outcome⟩
      rw [withReference, accepted.agrees candidate isCandidate] at conflict
      cases conflict
  rw [normalizeObject, Raise.bind_apply, Raise.get_apply]
  dsimp only
  rw [Raise.bind_apply, Raise.ofExcept_apply, checked]
  dsimp only
  rw [Raise.bind_apply, registerReference_passes serde normalizer accepted.reference]
  dsimp only
  rw [Raise.bind_apply]
  cases result : renameCandidates (candidatesOf serde payload)
      (withReference serde normalizer payload) with
  | mk outcome now =>
    rw [result] at renamed
    obtain rfl : outcome = .ok () := renamed
    rfl

theorem normalizeObject_rejected {payload : JsonMap} (rejected : ¬ Accepted serde normalizer payload) :
    ∃ error after, normalizeObject serde ⟨normalizer, payload⟩ = (.error error, after) := by
  cases checked : checkCandidates normalizer (existingIds payload) [] [] (candidatesOf serde payload) with
  | error error => exact ⟨error, _, (normalizeObject_raises serde normalizer).mpr (.inl ⟨checked, rfl⟩)⟩
  | ok =>
    have passes := ((checkCandidates_ok normalizer _ _ _ _).mp checked).1
    by_cases reference : ReferencePasses serde normalizer payload
    · have conflict : ∃ candidate ∈ candidatesOf serde payload,
          conflicting (withReference serde normalizer payload).normalizer.idMap candidate = true := by
        by_contra none
        push Not at none
        exact rejected ⟨passes, reference, fun candidate isCandidate =>
          Bool.eq_false_iff.mpr (none candidate isCandidate)⟩
      obtain ⟨error, raised⟩ := (renameCandidates_raises passes.consistent _).mpr conflict
      exact ⟨error, _, (normalizeObject_raises serde normalizer).mpr (.inr ⟨checked, .inr
        ⟨_, registerReference_passes serde normalizer reference, Prod.ext raised rfl⟩⟩)⟩
    · obtain ⟨error, raised⟩ := registerReference_raises serde normalizer reference
      exact ⟨error, _, (normalizeObject_raises serde normalizer).mpr (.inr ⟨checked, .inl raised⟩)⟩

theorem mem_candidatesOf {payload : JsonMap} {candidate : Candidate}
    (isCandidate : candidate ∈ candidatesOf serde payload) :
    ∃ item, (candidate.place, item) ∈ placedItems payload ∧
      itemTarget serde item = some (candidate.itemId, candidate.normalizedId) := by
  obtain ⟨located, there, found⟩ := List.mem_filterMap.mp isCandidate
  obtain ⟨target, isTarget, rfl⟩ := Option.map_eq_some_iff.mp found
  exact ⟨located.2, there, isTarget⟩

theorem itemTarget_spec {item : JsonMap} {itemId normalizedId : Bytes}
    (target : itemTarget serde item = some (itemId, normalizedId)) :
    item.getStr (Utf8.lit "id") = some itemId ∧ normalizedId ≠ itemId := by
  unfold itemTarget at target
  simp only [Option.bind_eq_bind, Option.bind_eq_some_iff, Option.pure_def, Option.some.injEq,
    Prod.mk.injEq] at target
  obtain ⟨found, isId, idPrefix, -, candidate, isCandidate, rfl, rfl⟩ := target
  exact ⟨isId, normalizedIdForPrefix_ne isCandidate⟩

theorem candidatesOf_places (payload : JsonMap) :
    (candidatesOf serde payload).Pairwise fun first second => first.place ≠ second.place := by
  refine List.pairwise_filterMap.mpr ((List.pairwise_map.mp (Front.places_nodup payload)).imp ?_)
  intro first second differ candidate isFirst other isSecond
  obtain ⟨target, -, rfl⟩ := Option.map_eq_some_iff.mp isFirst
  obtain ⟨target, -, rfl⟩ := Option.map_eq_some_iff.mp isSecond
  exact differ

/-- The first candidate is renamed for good, unless it conflicts. -/
theorem payload_changed {payload : JsonMap} {candidate : Candidate} {rest : List Candidate}
    (candidates : candidatesOf serde payload = candidate :: rest) (now : Normalizing)
    (isPayload : now.payload = payload) (agrees : conflicting now.normalizer.idMap candidate = false) :
    (renameCandidates (candidate :: rest) now).2.payload ≠ payload := by
  obtain ⟨item, there, target⟩ := mem_candidatesOf serde (candidates ▸ List.mem_cons_self)
  obtain ⟨isId, differs⟩ := itemTarget_spec serde target
  have places := candidatesOf_places serde payload
  rw [candidates] at places
  have written : (candidate.place, item.insert (Utf8.lit "id") (.string candidate.normalizedId)) ∈
      placedItems (writeItemId candidate.place candidate.normalizedId now.payload) := by
    rw [writeItemId, Front.placedItems_changeItems, isPayload]
    refine List.mem_map.mpr ⟨(candidate.place, item), there, ?_⟩
    rw [Front.changed, if_pos rfl]
  intro same
  rw [renameCandidates_cons agrees] at same
  have kept := renameCandidates_keeps (List.pairwise_cons.mp places).1
    ⟨{ now.normalizer with idMap := registered now.normalizer.idMap candidate },
      writeItemId candidate.place candidate.normalizedId now.payload⟩ written
  rw [same] at kept
  have equal := (Prod.mk.inj (Front.item_of_place kept there rfl)).2
  have renamed := Front.JsonMap.getStr_insert_self item (Utf8.lit "id") candidate.normalizedId
  rw [equal, isId] at renamed
  exact differs (Option.some.inj renamed).symm

/-- **A call that raises changes nothing, unless it is torn.** -/
theorem normalizeObject_atomic_iff (payload : JsonMap) :
    (∀ error after, normalizeObject serde ⟨normalizer, payload⟩ = (.error error, after) →
      after = ⟨normalizer, payload⟩) ↔ ¬ Torn serde normalizer payload := by
  have checked := checkCandidates_ok normalizer (existingIds payload) (candidatesOf serde payload) [] []
  constructor
  · rintro atomic ⟨passes, reference, conflict, begun⟩
    have registered := registerReference_passes serde normalizer reference
    obtain ⟨error, raised⟩ := (renameCandidates_raises passes.consistent
      (withReference serde normalizer payload)).mpr conflict
    have after : (renameCandidates (candidatesOf serde payload)
        (withReference serde normalizer payload)).2 = ⟨normalizer, payload⟩ :=
      atomic error _ ((normalizeObject_raises serde normalizer).mpr (.inr
        ⟨checked.mpr ⟨passes, fun _ _ => ⟨rfl, rfl⟩⟩, .inr ⟨_, registered, Prod.ext raised rfl⟩⟩))
    cases added : newReference serde normalizer payload with
    | some entry =>
      -- The reference has been registered, and the ID map only grows.
      have grows := (renameCandidates_grows (candidatesOf serde payload)
        (withReference serde normalizer payload)).1
      rw [after, withReference, added] at grows
      have longer := grows.length_le
      rw [Option.toList_some, List.singleton_append, List.length_cons] at longer
      exact absurd longer (Nat.not_succ_le_self _)
    | none =>
      -- The first candidate has been renamed.
      obtain ⟨found, isFound, -⟩ := conflict
      cases candidates : candidatesOf serde payload with
      | nil =>
        rw [candidates] at isFound
        cases isFound
      | cons first rest =>
        have agrees := (begun.resolve_left (not_not.mpr added)) first (candidates ▸ rfl)
        rw [candidates] at after
        refine payload_changed serde candidates (withReference serde normalizer payload) rfl ?_
          (congrArg Normalizing.payload after)
        rw [withReference, added]
        exact agrees
  · intro whole error after raised
    rcases (normalizeObject_raises serde normalizer).mp raised with ⟨-, same⟩ | ⟨accepted, raised⟩
    · exact same
    · have passes := (checked.mp accepted).1
      by_cases reference : ReferencePasses serde normalizer payload
      · have registered := registerReference_passes serde normalizer reference
        rcases raised with raised | ⟨between, isBetween, raised⟩
        · rw [registered] at raised
          cases raised
        · rw [registered, Prod.mk.injEq] at isBetween
          obtain ⟨-, rfl⟩ := isBetween
          have conflict := (renameCandidates_raises passes.consistent _).mp
            ⟨error, congrArg Prod.fst raised⟩
          have notBegun : ¬ (newReference serde normalizer payload ≠ none ∨
              ∀ candidate, (candidatesOf serde payload).head? = some candidate →
                conflicting normalizer.idMap candidate = false) :=
            fun begun => whole ⟨passes, reference, conflict, begun⟩
          push Not at notBegun
          obtain ⟨nothing, first, isFirst, conflicts⟩ := notBegun
          have unchanged : withReference serde normalizer payload = ⟨normalizer, payload⟩ := by
            rw [withReference, nothing]
            rfl
          obtain ⟨rest, candidates⟩ : ∃ rest, candidatesOf serde payload = first :: rest :=
            List.head?_eq_some_iff.mp isFirst
          have conflict : conflicting (Normalizing.mk normalizer payload).normalizer.idMap first = true :=
            Bool.eq_true_of_not_eq_false conflicts
          obtain ⟨found, stops⟩ := renameCandidates_stops rest conflict
          rw [unchanged, candidates, stops] at raised
          exact (Prod.mk.inj raised).2.symm
      · obtain ⟨found, blocked⟩ := registerReference_raises serde normalizer reference
        rcases raised with raised | ⟨between, isBetween, -⟩
        · rw [blocked, Prod.mk.injEq] at raised
          exact raised.2.symm
        · rw [blocked] at isBetween
          cases isBetween

/-- A rejected call leaves the normaliser and the payload as they were. -/
def RejectedUnchanged (payload : Value) : Prop :=
  ∀ error, (normalize serde normalizer payload).1 = .error error →
    (normalize serde normalizer payload).2 = (normalizer, payload)

/-- **After any earlier calls, a rejected call has no effect** exactly where it is not torn. -/
theorem rejected_unchanged_iff (earlier : List Value) (payload : Value) :
    RejectedUnchanged serde (afterCalls serde earlier) payload ↔
      ∀ members, payload = .object members → ¬ Torn serde (afterCalls serde earlier) members := by
  generalize afterCalls serde earlier = state
  cases payload with
  | object members =>
    have atomic := normalizeObject_atomic_iff serde state members
    constructor
    · rintro unchanged _ ⟨⟩
      refine atomic.mp fun error after raised => ?_
      have same := unchanged error (congrArg Prod.fst raised)
      rw [normalize, raised] at same
      obtain ⟨sameNormalizer, samePayload⟩ := Prod.mk.inj same
      cases after
      cases sameNormalizer
      cases samePayload
      rfl
    · intro whole error raised
      have same := atomic.mpr (whole members rfl) error
        (normalizeObject serde ⟨state, members⟩).2 (Prod.ext raised rfl)
      rw [normalize, same]
  | null | bool | number | string | array =>
    refine ⟨fun _ _ same => ?_, fun _ _ raised => ?_⟩
    · cases same
    · cases raised

end Rejections

/-- A message that gets another ID. -/
def messageEvent : Value := .object [(Utf8.lit "item", itemNamed "item_abc" "message")]

/-- A new message, and the earlier one as reasoning. -/
def retypedEvent : Value := .object [(Utf8.lit "input",
  .array [itemNamed "item_new" "message", itemNamed "item_abc" "reasoning"])]

/-- **An item that comes back with another type** is rejected after the item before it was renamed. -/
theorem retyped_item_torn : ¬ RejectedUnchanged noDigest (afterCalls noDigest [messageEvent]) retypedEvent := by
  intro unchanged
  have raises : (normalize noDigest (afterCalls noDigest [messageEvent]) retypedEvent).1.toOption.isSome =
      false := by
    decide +kernel
  have grows : (normalize noDigest (afterCalls noDigest [messageEvent]) retypedEvent).2.1.idMap.length ≠
      (afterCalls noDigest [messageEvent]).idMap.length := by
    decide +kernel
  cases found : (normalize noDigest (afterCalls noDigest [messageEvent]) retypedEvent).1 with
  | ok result =>
    rw [found] at raises
    cases raises
  | error error => exact grows (congrArg (·.1.idMap.length) (unchanged error found))

end UniApi.Upstream
