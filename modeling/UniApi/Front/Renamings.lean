/-
**A stream of payloads through one `ResponsesItemIdNormalizer`.**

* `registered_targets`: what an accepted payload registers, by its items and its reference;
* `occurrences_renamedRoot`: every ID of an accepted payload is renamed by the ID map after it;
* `renamings_faithful`: in a stream whose payloads meet `Apart`, items with different IDs keep different
  IDs, and an ID is renamed in the same way wherever it occurs.
-/

import UniApi.Front.Items
import UniApi.Lib.Renaming

namespace UniApi.Front

open UniApi.Lib

namespace ResponsesItemIdNormalizer

variable {serde : Serde} {normalizer : ResponsesItemIdNormalizer}

/-! ### What a payload registers -/

/-- The renamings that items of a payload ask for, of IDs that have none. -/
def newItemTargets (serde : Serde) (normalizer : ResponsesItemIdNormalizer) (root : JsonMap) :
    List (Bytes × Bytes) :=
  ((itemLocations root).filterMap (itemTarget serde)).filter
    fun target => (normalizer.idMap.lookup target.1).isNone

/-- The renaming that the reference asks for by the type of the event, if its ID has none. -/
def newReferenceTarget (serde : Serde) (normalizer : ResponsesItemIdNormalizer) (root : JsonMap) :
    Option (Bytes × Bytes) := do
  let original ← root.getStr (Utf8.lit "item_id")
  if (normalizer.idMap.lookup original).isSome || (newItemTargets serde normalizer root).any (·.1 = original)
    then none
  else (eventTarget serde root original).map (original, ·)

/-- The renamings of a payload that the ID map does not have. -/
def newTargets (serde : Serde) (normalizer : ResponsesItemIdNormalizer) (root : JsonMap) :
    List (Bytes × Bytes) :=
  newItemTargets serde normalizer root ++ (newReferenceTarget serde normalizer root).toList

/-- Renamings that may be registered together. -/
structure Registrable (normalizer : ResponsesItemIdNormalizer) (existing : List Bytes)
    (pending : Pending) : Prop where
  fresh : ∀ entry ∈ pending.renamed, normalizer.idMap.lookup entry.1 = none
  free : ∀ entry ∈ pending.renamed, entry.2 = entry.1 ∨ entry.2 ∉ existing
  unseen : ∀ entry ∈ pending.renamed, entry.2 ∉ normalizer.seenIds
  found : ∀ entry ∈ pending.renamed, pending.renamed.lookup entry.1 = some entry.2
  owned : ∀ entry ∈ pending.renamed, pending.targetOwners.lookup entry.2 = some entry.1

theorem Registrable.empty (existing : List Bytes) : Registrable normalizer existing ⟨[], []⟩ where
  fresh := List.forall_mem_nil _
  free := List.forall_mem_nil _
  unseen := List.forall_mem_nil _
  found := List.forall_mem_nil _
  owned := List.forall_mem_nil _

variable {existing : List Bytes} {pending after : Pending} {root : JsonMap}

/-- **What a registration does**: the ID has the renaming already, or it has none and gets it. -/
theorem registerPending_cases {original normalized : Bytes}
    (accepted : normalizer.registerPending existing original normalized pending = .ok after) :
    (normalizer.renamedTo pending original = some normalized ∧ after = pending) ∨
      (normalizer.renamedTo pending original = none ∧
        (normalized = original ∨ normalized ∉ existing) ∧
        (∀ owner, pending.targetOwners.lookup normalized = some owner → owner = original) ∧
        normalized ∉ normalizer.seenIds ∧
        after = ⟨(original, normalized) :: pending.renamed,
          (normalized, original) :: pending.targetOwners⟩) := by
  unfold registerPending at accepted
  cases known : normalizer.renamedTo pending original with
  | some prior =>
    rw [known] at accepted
    dsimp only at accepted
    split at accepted
    · cases accepted
    · rename_i same
      rw [not_not] at same
      cases accepted
      exact .inl ⟨congrArg some same, rfl⟩
  | none =>
    rw [known] at accepted
    dsimp only at accepted
    split at accepted
    · cases accepted
    rename_i apart
    split at accepted
    · cases accepted
    rename_i owner
    split at accepted
    · cases accepted
    rename_i unseen
    cases accepted
    have absent : normalizer.idMap.lookup original = none := (Option.or_eq_none_iff.mp known).2
    rw [absent] at unseen
    refine .inr ⟨rfl, ?_, ?_, fun seen => unseen ⟨seen, by simp⟩, rfl⟩
    · by_cases same : normalized = original
      · exact .inl same
      · exact .inr fun inUse => apart ⟨same, inUse⟩
    · intro found isOwner
      rw [isOwner, Option.any_some, decide_eq_true_eq, not_not] at owner
      exact owner

theorem Registrable.step {original normalized : Bytes}
    (registrable : Registrable normalizer existing pending)
    (accepted : normalizer.registerPending existing original normalized pending = .ok after) :
    Registrable normalizer existing after := by
  rcases registerPending_cases accepted with ⟨-, rfl⟩ | ⟨unknown, free, owner, unseen, rfl⟩
  · exact registrable
  · obtain ⟨notPending, notMapped⟩ := Option.or_eq_none_iff.mp unknown
    have other : ∀ entry ∈ pending.renamed, entry.1 ≠ original := by
      intro entry isEntry same
      have found := registrable.found entry isEntry
      rw [same, notPending] at found
      cases found
    refine ⟨List.forall_mem_cons.mpr ⟨notMapped, registrable.fresh⟩,
      List.forall_mem_cons.mpr ⟨free, registrable.free⟩,
      List.forall_mem_cons.mpr ⟨unseen, registrable.unseen⟩,
      List.forall_mem_cons.mpr ⟨List.lookup_cons_self, fun entry isEntry => ?_⟩,
      List.forall_mem_cons.mpr ⟨List.lookup_cons_self, fun entry isEntry => ?_⟩⟩
    · rw [List.lookup_cons, beq_false_of_ne (other entry isEntry)]
      exact registrable.found entry isEntry
    · have isOwner := registrable.owned entry isEntry
      by_cases same : entry.2 = normalized
      · rw [same] at isOwner
        exact absurd (owner _ isOwner) (other entry isEntry)
      · rw [List.lookup_cons, beq_false_of_ne same]
        exact isOwner

/-- Different IDs that are registered together get different new ones. -/
theorem Registrable.apart {pending : Pending}
    (registrable : Registrable normalizer existing pending) {first second target : Bytes}
    (atFirst : pending.renamed.lookup first = some target)
    (atSecond : pending.renamed.lookup second = some target) : first = second := by
  have isFirst := registrable.owned _ (mem_of_lookup atFirst)
  have isSecond := registrable.owned _ (mem_of_lookup atSecond)
  exact Option.some.inj (isFirst.symm.trans isSecond)

/-- What registering some renamings leaves: they are in force, the earlier ones too, and every new entry
is one of them. -/
structure Registers (normalizer : ResponsesItemIdNormalizer) (existing : List Bytes)
    (asked : List (Bytes × Bytes)) (pending after : Pending) : Prop where
  registrable : Registrable normalizer existing after
  kept : ∀ {original normalized}, normalizer.renamedTo pending original = some normalized →
    normalizer.renamedTo after original = some normalized
  inForce : ∀ target ∈ asked, normalizer.renamedTo after target.1 = some target.2
  origin : ∀ entry ∈ after.renamed, entry ∈ pending.renamed ∨
    entry ∈ asked ∧ normalizer.renamedTo pending entry.1 = none

theorem registerPending_registers {original normalized : Bytes}
    (registrable : Registrable normalizer existing pending)
    (accepted : normalizer.registerPending existing original normalized pending = .ok after) :
    Registers normalizer existing [(original, normalized)] pending after := by
  refine ⟨registrable.step accepted, ?_, ?_, ?_⟩
  · intro other target known
    rcases registerPending_cases accepted with ⟨-, rfl⟩ | ⟨unknown, -, -, -, rfl⟩
    · exact known
    · have differs : other ≠ original := fun same => by
        rw [same, unknown] at known
        cases known
      rw [renamedTo, List.lookup_cons, beq_false_of_ne differs]
      exact known
  · refine List.forall_mem_singleton.mpr ?_
    rcases registerPending_cases accepted with ⟨known, rfl⟩ | ⟨-, -, -, -, rfl⟩
    · exact known
    · rw [renamedTo, List.lookup_cons_self, Option.some_or]
  · intro entry isEntry
    rcases registerPending_cases accepted with ⟨-, rfl⟩ | ⟨unknown, -, -, -, rfl⟩
    · exact .inl isEntry
    · rcases List.mem_cons.mp isEntry with rfl | isOld
      · exact .inr ⟨List.mem_singleton_self _, unknown⟩
      · exact .inl isOld

theorem registerItems_registers (items : List JsonMap)
    (registrable : Registrable normalizer existing pending)
    (accepted : normalizer.registerItems serde existing items pending = .ok after) :
    Registers normalizer existing (items.filterMap (itemTarget serde)) pending after := by
  induction items generalizing pending with
  | nil =>
    cases accepted
    exact ⟨registrable, id, List.forall_mem_nil _, fun _ isEntry => .inl isEntry⟩
  | cons item rest ih =>
    unfold registerItems at accepted
    rw [List.filterMap_cons]
    cases asked : itemTarget serde item with
    | none =>
      rw [asked] at accepted
      exact ih registrable accepted
    | some target =>
      rw [asked] at accepted
      obtain ⟨original, normalized⟩ := target
      dsimp only at accepted
      cases first : normalizer.registerPending existing original normalized pending with
      | error error =>
        rw [first] at accepted
        cases accepted
      | ok between =>
        rw [first] at accepted
        have here := registerPending_registers registrable first
        have later := ih here.registrable accepted
        refine ⟨later.registrable, fun known => later.kept (here.kept known), ?_, ?_⟩
        · exact List.forall_mem_cons.mpr
            ⟨later.kept (here.inForce _ (List.mem_singleton_self _)), later.inForce⟩
        · intro entry isEntry
          rcases later.origin entry isEntry with isEntry | ⟨isAsked, unknown⟩
          · rcases here.origin entry isEntry with isEntry | ⟨isAsked, unknown⟩
            · exact .inl isEntry
            · exact .inr ⟨List.mem_singleton.mp isAsked ▸ List.mem_cons_self, unknown⟩
          · refine .inr ⟨List.mem_cons_of_mem _ isAsked, ?_⟩
            cases known : normalizer.renamedTo pending entry.1 with
            | none => rfl
            | some prior =>
              rw [here.kept known] at unknown
              cases unknown

theorem items_registered {pending : Pending}
    (accepted : normalizer.registerItems serde (collectItemIds root) (itemLocations root) ⟨[], []⟩ =
      .ok pending) :
    ∀ entry, entry ∈ pending.renamed ↔ entry ∈ newItemTargets serde normalizer root := by
  intro entry
  have registers := registerItems_registers (itemLocations root) (.empty _) accepted
  rw [newItemTargets, List.mem_filter, Option.isNone_iff_eq_none]
  constructor
  · intro isEntry
    refine ⟨?_, registers.registrable.fresh entry isEntry⟩
    rcases registers.origin entry isEntry with isEntry | ⟨isAsked, -⟩
    · cases isEntry
    · exact isAsked
  · rintro ⟨isAsked, absent⟩
    have known := registers.inForce entry isAsked
    rw [renamedTo, absent, Option.or_none] at known
    exact mem_of_lookup known

/-- An ID is known once the items are registered if it is mapped, or an item asks for another one. -/
theorem known_after_items {first : Pending}
    (items : normalizer.registerItems serde (collectItemIds root) (itemLocations root) ⟨[], []⟩ = .ok first)
    (original : Bytes) : (normalizer.renamedTo first original).isSome =
      ((normalizer.idMap.lookup original).isSome ||
        (newItemTargets serde normalizer root).any (·.1 = original)) := by
  have registrable := (registerItems_registers (itemLocations root) (.empty _) items).registrable
  have isItem := items_registered items
  rw [Bool.eq_iff_iff, renamedTo, Option.isSome_or, Bool.or_eq_true, Bool.or_eq_true, or_comm]
  refine or_congr Iff.rfl ⟨fun found => ?_, fun found => ?_⟩
  · obtain ⟨normalized, isNormalized⟩ := Option.isSome_iff_exists.mp found
    exact List.any_eq_true.mpr ⟨(original, normalized), (isItem _).mp (mem_of_lookup isNormalized),
      decide_eq_true rfl⟩
  · obtain ⟨entry, isEntry, same⟩ := List.any_eq_true.mp found
    rw [← of_decide_eq_true same, registrable.found entry ((isItem entry).mpr isEntry)]
    rfl

/-- **What an accepted payload registers** is what its items and its reference ask for. -/
theorem registered_targets {first pending : Pending}
    (items : normalizer.registerItems serde (collectItemIds root) (itemLocations root) ⟨[], []⟩ = .ok first)
    (reference : normalizer.registerReference serde (collectItemIds root) root first = .ok pending) :
    Registrable normalizer (collectItemIds root) pending ∧
      ∀ entry, entry ∈ pending.renamed ↔ entry ∈ newTargets serde normalizer root := by
  have registrable := (registerItems_registers (itemLocations root) (.empty _) items).registrable
  have isItem := items_registered items
  simp only [newTargets, List.mem_append, Option.mem_toList]
  unfold registerReference at reference
  unfold newReferenceTarget
  cases isReference : root.getStr (Utf8.lit "item_id") with
  | none =>
    rw [isReference] at reference
    cases reference
    refine ⟨registrable, fun entry => (isItem entry).trans ?_⟩
    simp
  | some original =>
    rw [isReference] at reference
    dsimp only [Option.bind_eq_bind, Option.bind_some] at reference ⊢
    rw [← known_after_items items original]
    cases known : normalizer.renamedTo first original with
    | some prior =>
      rw [known] at reference
      dsimp only [Option.some_or] at reference
      rcases registerPending_cases reference with ⟨-, rfl⟩ | ⟨unknown, -⟩
      · refine ⟨registrable, fun entry => (isItem entry).trans ?_⟩
        rw [if_pos Option.isSome_some]
        simp
      · rw [known] at unknown
        cases unknown
    | none =>
      rw [known, Option.none_or] at reference
      rw [if_neg (by simp)]
      cases target : eventTarget serde root original with
      | none =>
        rw [target] at reference
        cases reference
        refine ⟨registrable, fun entry => (isItem entry).trans ?_⟩
        simp
      | some normalized =>
        rw [target] at reference
        refine ⟨registrable.step reference, fun entry => ?_⟩
        rcases registerPending_cases reference with ⟨prior, -⟩ | ⟨-, -, -, -, rfl⟩
        · rw [known] at prior
          cases prior
        · rw [List.mem_cons, isItem, Option.map_some, Option.some.injEq, or_comm, eq_comm]

/-! ### What becomes of the IDs -/

/-- What an accepted payload becomes. -/
def renamedRoot (normalizer : ResponsesItemIdNormalizer) (pending : Pending) (root : JsonMap) : JsonMap :=
  normalizer.renameMember pending (Utf8.lit "item_id")
    (visitItemsMut (normalizer.renameMember pending (Utf8.lit "id")) root)

theorem normalize_ok {changed : Bool} {payload : Value} {after : ResponsesItemIdNormalizer}
    (accepted : normalizer.normalize serde (.object root) = .ok (changed, payload, after)) :
    ∃ first pending,
      normalizer.registerItems serde (collectItemIds root) (itemLocations root) ⟨[], []⟩ = .ok first ∧
      normalizer.registerReference serde (collectItemIds root) root first = .ok pending ∧
      payload = .object (normalizer.renamedRoot pending root) ∧
      after = ⟨pending.renamed ++ normalizer.idMap,
        collectItemIds (normalizer.renamedRoot pending root) ++ normalizer.seenIds⟩ := by
  simp only [normalize, Value.asObject, bind, Except.bind] at accepted
  cases items : normalizer.registerItems serde (collectItemIds root) (itemLocations root) ⟨[], []⟩ with
  | error error =>
    rw [items] at accepted
    cases accepted
  | ok first =>
    rw [items] at accepted
    dsimp only at accepted
    cases reference : normalizer.registerReference serde (collectItemIds root) root first with
    | error error =>
      rw [reference] at accepted
      cases accepted
    | ok pending =>
      rw [reference] at accepted
      cases accepted
      exact ⟨first, pending, rfl, reference, rfl, rfl⟩

/-- A member that holds an ID, renamed by the ID map after the payload. -/
theorem getStr_renameMember (pending : Pending) (key : Bytes) (map : JsonMap) :
    (normalizer.renameMember pending key map).getStr key =
      (map.getStr key).map (rename (pending.renamed ++ normalizer.idMap)) := by
  unfold renameMember
  cases found : map.getStr key with
  | none =>
    rw [Option.bind_none]
    exact found
  | some original =>
    rw [Option.bind_some, Option.map_some, rename, List.lookup_append]
    change _ = some ((normalizer.renamedTo pending original).getD original)
    cases normalizer.renamedTo pending original with
    | none => exact found
    | some normalized => exact JsonMap.getStr_insert_self _ _ _

theorem itemLocations_renamedRoot (pending : Pending) (root : JsonMap) :
    itemLocations (normalizer.renamedRoot pending root) =
      (itemLocations root).map (normalizer.renameMember pending (Utf8.lit "id")) := by
  have apart : Utf8.lit "item_id" ∉
      [Utf8.lit "item", Utf8.lit "input", Utf8.lit "output", Utf8.lit "response"] := by
    decide
  have visited : itemLocations (visitItemsMut (normalizer.renameMember pending (Utf8.lit "id")) root) =
      (itemLocations root).map (normalizer.renameMember pending (Utf8.lit "id")) := by
    rw [visitItemsMut_eq, ← placedItems_items, placedItems_changeItems, List.map_map,
      ← placedItems_items, List.map_map]
    rfl
  rw [← visited, renamedRoot, renameMember]
  split
  · rfl
  · rw [← placedItems_items, placedItems_insert _ _ apart, placedItems_items]

/-- An ID in a payload, what stands in its place in the payload afterwards, and whether it is the ID of
an item of a type with a prefix. -/
structure Occurrence where
  original : Bytes
  emitted : Option Bytes
  typed : Bool
  deriving DecidableEq

/-- An item of one of the types that have a prefix. -/
def typed (item : JsonMap) : Bool := ((item.getStr (Utf8.lit "type")).bind itemPrefix).isSome

/-- The IDs of the items. -/
def itemOccurrences (before after : JsonMap) : List Occurrence :=
  ((itemLocations before).zip (itemLocations after)).filterMap fun pair =>
    (pair.1.getStr (Utf8.lit "id")).map fun original =>
      ⟨original, pair.2.getStr (Utf8.lit "id"), typed pair.1⟩

/-- The IDs of the items and of `item_id`. -/
def occurrences (before after : JsonMap) : List Occurrence :=
  itemOccurrences before after ++ ((before.getStr (Utf8.lit "item_id")).map fun original =>
    Occurrence.mk original (after.getStr (Utf8.lit "item_id")) false).toList

/-- The IDs of a payload. -/
def idsOf (root : JsonMap) : List Bytes :=
  collectItemIds root ++ (root.getStr (Utf8.lit "item_id")).toList

/-- The IDs of the items that have a type with a prefix. -/
def typedIds (root : JsonMap) : List Bytes :=
  (itemLocations root).filterMap fun item => if typed item then item.getStr (Utf8.lit "id") else none

/-- **Every ID of an accepted payload** is renamed by the ID map after it. -/
theorem occurrences_renamedRoot (pending : Pending) (root : JsonMap) {occurrence : Occurrence}
    (there : occurrence ∈ occurrences root (normalizer.renamedRoot pending root)) :
    occurrence.original ∈ idsOf root ∧
      occurrence.emitted = some (rename (pending.renamed ++ normalizer.idMap) occurrence.original) ∧
      (occurrence.typed = true → occurrence.original ∈ typedIds root ∧
        rename (pending.renamed ++ normalizer.idMap) occurrence.original ∈
          collectItemIds (normalizer.renamedRoot pending root)) := by
  have apart : Utf8.lit "item_id" ∉
      [Utf8.lit "item", Utf8.lit "input", Utf8.lit "output", Utf8.lit "response"] := by
    decide
  rcases List.mem_append.mp there with there | there
  · have zipped : (itemLocations root).zip ((itemLocations root).map
        (normalizer.renameMember pending (Utf8.lit "id"))) =
        (itemLocations root).map fun item =>
          (item, normalizer.renameMember pending (Utf8.lit "id") item) := by
      rw [← List.zip_map', List.map_id']
    rw [itemOccurrences, itemLocations_renamedRoot, zipped, List.filterMap_map] at there
    obtain ⟨item, isItem, found⟩ := List.mem_filterMap.mp there
    obtain ⟨original, isOriginal, rfl⟩ := Option.map_eq_some_iff.mp found
    have isEmitted : (normalizer.renameMember pending (Utf8.lit "id") item).getStr (Utf8.lit "id") =
        some (rename (pending.renamed ++ normalizer.idMap) original) := by
      rw [getStr_renameMember]
      exact congrArg _ isOriginal
    refine ⟨List.mem_append_left _ (List.mem_filterMap.mpr ⟨item, isItem, isOriginal⟩), isEmitted,
      fun isTyped => ⟨List.mem_filterMap.mpr ⟨item, isItem, (if_pos isTyped).trans isOriginal⟩, ?_⟩⟩
    refine List.mem_filterMap.mpr ⟨_, ?_, isEmitted⟩
    rw [itemLocations_renamedRoot]
    exact List.mem_map_of_mem isItem
  · obtain ⟨original, isOriginal, rfl⟩ := Option.map_eq_some_iff.mp (Option.mem_toList.mp there)
    refine ⟨List.mem_append_right _ (Option.mem_toList.mpr isOriginal), ?_, fun isTyped => by cases isTyped⟩
    dsimp only
    rw [renamedRoot, getStr_renameMember, visitItemsMut_eq, JsonMap.getStr, get_changeItems _ _ apart]
    exact congrArg _ isOriginal

/-! ### Streams -/

/-- **Payloads whose renamings stay apart**, given the ID map and the IDs of earlier payloads: an item of
one of the six types that keeps its ID does not have an ID that was given to another; a new renaming does
not give an ID that was given before, and is not of an ID that was there before. -/
structure Apart (serde : Serde) (normalizer : ResponsesItemIdNormalizer) (earlier : List Bytes)
    (root : JsonMap) : Prop where
  kept : ∀ original ∈ typedIds root, normalizer.idMap.lookup original = none →
    (∀ target ∈ newTargets serde normalizer root, target.1 ≠ original) →
      ∀ entry ∈ normalizer.idMap, entry.2 ≠ original
  given : ∀ target ∈ newTargets serde normalizer root, ∀ entry ∈ normalizer.idMap, entry.2 ≠ target.2
  first : ∀ target ∈ newTargets serde normalizer root, target.1 ∉ earlier

instance (serde : Serde) (normalizer : ResponsesItemIdNormalizer) (earlier : List Bytes)
    (root : JsonMap) : Decidable (Apart serde normalizer earlier root) :=
  decidable_of_iff ((∀ original ∈ typedIds root, normalizer.idMap.lookup original = none →
      (∀ target ∈ newTargets serde normalizer root, target.1 ≠ original) →
        ∀ entry ∈ normalizer.idMap, entry.2 ≠ original) ∧
    (∀ target ∈ newTargets serde normalizer root, ∀ entry ∈ normalizer.idMap, entry.2 ≠ target.2) ∧
      ∀ target ∈ newTargets serde normalizer root, target.1 ∉ earlier)
    ⟨fun all => ⟨all.1, all.2.1, all.2.2⟩, fun apart => ⟨apart.kept, apart.given, apart.first⟩⟩

/-- The stream meets `Apart` at every payload that is accepted. -/
def AllApart (serde : Serde) : ResponsesItemIdNormalizer → List Bytes → List Value → Prop
  | _, _, [] => True
  | normalizer, earlier, payload :: rest =>
    match normalizer.normalize serde payload with
    | .error _ => AllApart serde normalizer earlier rest
    | .ok (_, _, after) =>
      match payload.asObject with
      | none => AllApart serde after earlier rest
      | some root => Apart serde normalizer earlier root ∧ AllApart serde after (idsOf root ++ earlier) rest

/-- The IDs of the accepted payloads of a stream. -/
def streamOccurrences (serde : Serde) : ResponsesItemIdNormalizer → List Value → List Occurrence
  | _, [] => []
  | normalizer, payload :: rest =>
    match normalizer.normalize serde payload with
    | .error _ => streamOccurrences serde normalizer rest
    | .ok (_, renamed, after) =>
      (match payload.asObject, renamed.asObject with
        | some root, some renamedRoot => occurrences root renamedRoot
        | _, _ => []) ++ streamOccurrences serde after rest

/-- What holds between the payloads of a stream. -/
structure Sound (normalizer : ResponsesItemIdNormalizer) (earlier : List Bytes)
    (past : List Occurrence) : Prop where
  faithful : Faithful normalizer.idMap {name | ∃ occurrence ∈ past, occurrence.typed = true ∧
    occurrence.original = name}
  seen : ∀ occurrence ∈ past, occurrence.typed = true →
    rename normalizer.idMap occurrence.original ∈ normalizer.seenIds
  known : ∀ occurrence ∈ past, occurrence.original ∈ earlier
  emitted : ∀ occurrence ∈ past, occurrence.emitted = some (rename normalizer.idMap occurrence.original)

theorem Sound.fresh : Sound .fresh [] [] where
  faithful := .empty _
  seen := List.forall_mem_nil _
  known := List.forall_mem_nil _
  emitted := List.forall_mem_nil _

theorem Sound.mono {earlier : List Bytes} {past fewer : List Occurrence}
    (sound : Sound normalizer earlier past) (subset : fewer ⊆ past) : Sound normalizer earlier fewer where
  faithful := sound.faithful.mono fun _ => by
    rintro ⟨occurrence, isOccurrence, isTyped, rfl⟩
    exact ⟨occurrence, subset isOccurrence, isTyped, rfl⟩
  seen occurrence isOccurrence := sound.seen occurrence (subset isOccurrence)
  known occurrence isOccurrence := sound.known occurrence (subset isOccurrence)
  emitted occurrence isOccurrence := sound.emitted occurrence (subset isOccurrence)

/-- **One payload keeps a stream sound.** -/
theorem Sound.step {earlier : List Bytes} {past : List Occurrence} (sound : Sound normalizer earlier past)
    {first pending : Pending}
    (items : normalizer.registerItems serde (collectItemIds root) (itemLocations root) ⟨[], []⟩ = .ok first)
    (reference : normalizer.registerReference serde (collectItemIds root) root first = .ok pending)
    (apart : Apart serde normalizer earlier root) :
    Sound ⟨pending.renamed ++ normalizer.idMap,
        collectItemIds (normalizer.renamedRoot pending root) ++ normalizer.seenIds⟩
      (idsOf root ++ earlier) (occurrences root (normalizer.renamedRoot pending root) ++ past) := by
  obtain ⟨registrable, targets⟩ := registered_targets items reference
  have here : ∀ {occurrence}, occurrence ∈ occurrences root (normalizer.renamedRoot pending root) → _ :=
    fun there => occurrences_renamedRoot pending root there
  have unchanged : ∀ occurrence ∈ past, rename (pending.renamed ++ normalizer.idMap) occurrence.original =
      rename normalizer.idMap occurrence.original := by
    intro occurrence isPast
    refine rename_append (Option.eq_none_iff_forall_ne_some.mpr fun target found => ?_)
    exact apart.first _ ((targets _).mp (mem_of_lookup found)) (sound.known occurrence isPast)
  have grown : Faithful (pending.renamed ++ normalizer.idMap) ({name | name ∈ typedIds root} ∪
      {name | ∃ occurrence ∈ past, occurrence.typed = true ∧ occurrence.original = name}) := by
    refine sound.faithful.grow registrable.apart ?_ ?_ ?_
    · intro key target found other isOther
      exact apart.given _ ((targets _).mp (mem_of_lookup found)) _ (mem_of_lookup isOther) rfl
    · rintro key target found name ⟨occurrence, isPast, isTyped, rfl⟩ absent same
      have isSeen := sound.seen occurrence isPast isTyped
      rw [rename_of_none absent, same] at isSeen
      exact registrable.unseen _ (mem_of_lookup found) isSeen
    · intro name isNew absent key found
      rw [List.lookup_append, Option.or_eq_none_iff] at absent
      rw [List.lookup_append] at found
      rcases Option.or_eq_some_iff.mp found with found | ⟨-, found⟩
      · rcases registrable.free _ (mem_of_lookup found) with same | unused
        · dsimp only at same
          rw [← same, absent.1] at found
          cases found
        · obtain ⟨item, isItem, isId⟩ := List.mem_filterMap.mp isNew
          split at isId
          · exact unused (List.mem_filterMap.mpr ⟨item, isItem, isId⟩)
          · cases isId
      · refine apart.kept name isNew absent.2 (fun target isTarget same => ?_) _ (mem_of_lookup found) rfl
        have isFound := registrable.found _ ((targets target).mpr isTarget)
        rw [same, absent.1] at isFound
        cases isFound
  refine ⟨⟨grown.apart, fun {name} isName => grown.free ?_⟩, ?_, ?_, ?_⟩
  · obtain ⟨occurrence, isOccurrence, isTyped, rfl⟩ := isName
    rcases List.mem_append.mp isOccurrence with isHere | isPast
    · exact .inl ((here isHere).2.2 isTyped).1
    · exact .inr ⟨occurrence, isPast, isTyped, rfl⟩
  · intro occurrence isOccurrence isTyped
    rcases List.mem_append.mp isOccurrence with isHere | isPast
    · exact List.mem_append_left _ ((here isHere).2.2 isTyped).2
    · dsimp only
      rw [unchanged occurrence isPast]
      exact List.mem_append_right _ (sound.seen occurrence isPast isTyped)
  · intro occurrence isOccurrence
    rcases List.mem_append.mp isOccurrence with isHere | isPast
    · exact List.mem_append_left _ (here isHere).1
    · exact List.mem_append_right _ (sound.known occurrence isPast)
  · intro occurrence isOccurrence
    rcases List.mem_append.mp isOccurrence with isHere | isPast
    · exact (here isHere).2.1
    · dsimp only
      rw [unchanged occurrence isPast]
      exact sound.emitted occurrence isPast

/-- **A stream stays sound.** -/
theorem Sound.run {earlier : List Bytes} {past : List Occurrence} (payloads : List Value)
    (sound : Sound normalizer earlier past) (allApart : AllApart serde normalizer earlier payloads) :
    ∃ after known, Sound after known (past ++ streamOccurrences serde normalizer payloads) := by
  induction payloads generalizing normalizer earlier past with
  | nil => exact ⟨normalizer, earlier, by rwa [streamOccurrences, List.append_nil]⟩
  | cons payload rest ih =>
    unfold AllApart at allApart
    unfold streamOccurrences
    cases accepted : normalizer.normalize serde payload with
    | error error =>
      rw [accepted] at allApart
      exact ih sound allApart
    | ok result =>
      obtain ⟨changed, renamed, after⟩ := result
      rw [accepted] at allApart
      dsimp only at allApart ⊢
      cases payload with
      | object root =>
        obtain ⟨apart, allApart⟩ := allApart
        obtain ⟨first, pending, items, reference, rfl, rfl⟩ := normalize_ok accepted
        obtain ⟨last, known, isSound⟩ := ih (sound.step items reference apart) allApart
        refine ⟨last, known, isSound.mono fun occurrence isOccurrence => ?_⟩
        simp only [List.mem_append] at isOccurrence ⊢
        rcases isOccurrence with isPast | isHere | isLater
        · exact .inl (.inr isPast)
        · exact .inl (.inl isHere)
        · exact .inr isLater
      | null | bool | number | string | array =>
        cases accepted
        obtain ⟨last, known, isSound⟩ := ih sound allApart
        exact ⟨last, known, isSound⟩

/-- **Renaming never merges items** in a stream that meets `Apart`: items of the six types with
different IDs keep different IDs, and an ID is renamed in the same way wherever it occurs. -/
theorem renamings_faithful (serde : Serde) (payloads : List Value)
    (allApart : AllApart serde .fresh [] payloads) :
    (∀ first ∈ streamOccurrences serde .fresh payloads, ∀ second ∈ streamOccurrences serde .fresh payloads,
        first.typed = true → second.typed = true → first.original ≠ second.original →
          first.emitted ≠ second.emitted) ∧
      ∀ first ∈ streamOccurrences serde .fresh payloads, ∀ second ∈ streamOccurrences serde .fresh payloads,
        first.original = second.original → first.emitted = second.emitted := by
  obtain ⟨last, known, sound⟩ := Sound.run payloads .fresh allApart
  rw [List.nil_append] at sound
  refine ⟨fun first isFirst second isSecond firstTyped secondTyped differ same => differ ?_,
    fun first isFirst second isSecond same => ?_⟩
  · rw [sound.emitted first isFirst, sound.emitted second isSecond] at same
    exact sound.faithful.injOn ⟨first, isFirst, firstTyped, rfl⟩ ⟨second, isSecond, secondTyped, rfl⟩
      (Option.some.inj same)
  · rw [sound.emitted first isFirst, sound.emitted second isSecond, same]

instance decidableAllApart (serde : Serde) :
    ∀ normalizer earlier payloads, Decidable (AllApart serde normalizer earlier payloads)
  | _, _, [] => inferInstanceAs (Decidable True)
  | normalizer, earlier, payload :: rest =>
    match result : normalizer.normalize serde payload, isRoot : payload.asObject with
    | .error _, _ =>
      haveI := decidableAllApart serde normalizer earlier rest
      decidable_of_iff (AllApart serde normalizer earlier rest) (by rw [AllApart, result])
    | .ok (_, _, after), none =>
      haveI := decidableAllApart serde after earlier rest
      decidable_of_iff (AllApart serde after earlier rest) (by rw [AllApart, result, isRoot])
    | .ok (_, _, after), some root =>
      haveI := decidableAllApart serde after (idsOf root ++ earlier) rest
      decidable_of_iff
        (Apart serde normalizer earlier root ∧ AllApart serde after (idsOf root ++ earlier) rest)
        (by rw [AllApart, result, isRoot])

/-- A message, its text, and the message again. -/
def messageStream : List Value :=
  [.object [(Utf8.lit "item", itemNamed "item_abc" "message")],
    .object [(Utf8.lit "item_id", .string (Utf8.lit "item_abc")),
      (Utf8.lit "type", .string (Utf8.lit "response.output_text.delta"))],
    .object [(Utf8.lit "item", itemNamed "item_abc" "message")]]

/-- The stream of a message meets `Apart`. -/
theorem messageStream_faithful : AllApart noDigest .fresh [] messageStream ∧
    (∀ first ∈ streamOccurrences noDigest .fresh messageStream,
      ∀ second ∈ streamOccurrences noDigest .fresh messageStream,
        first.typed = true → second.typed = true → first.original ≠ second.original →
          first.emitted ≠ second.emitted) ∧
      ∀ first ∈ streamOccurrences noDigest .fresh messageStream,
        ∀ second ∈ streamOccurrences noDigest .fresh messageStream,
          first.original = second.original → first.emitted = second.emitted := by
  have allApart : AllApart noDigest .fresh [] messageStream := by decide
  exact ⟨allApart, renamings_faithful noDigest messageStream allApart⟩

/-- **A message whose own ID was given to another one before** is taken for that one. -/
theorem canonical_item_merged :
    ∃ first ∈ streamOccurrences noDigest .fresh
        [.object [(Utf8.lit "item", itemNamed "item_abc" "message")],
          .object [(Utf8.lit "item", itemNamed "msg_abc" "message")]],
      ∃ second ∈ streamOccurrences noDigest .fresh
          [.object [(Utf8.lit "item", itemNamed "item_abc" "message")],
            .object [(Utf8.lit "item", itemNamed "msg_abc" "message")]],
        first.typed = true ∧ second.typed = true ∧ first.original ≠ second.original ∧
          first.emitted = second.emitted := by
  decide

end ResponsesItemIdNormalizer

end UniApi.Front
