/-
**Item IDs are renamed alike in both planes.**

The front and the Python plane each keep an ID map and the IDs seen. They agree on a payload when its IDs
are split alike and no ID meets one of the checks that only one plane makes.

* `normalizedId_eq`: the new ID is the same when what stands before the first underscore is letters and
  digits;
* `accepts_alike`: both planes accept a payload that meets `NormalizedAlike`, or neither does;
* `outcomes_alike`: a stream of such payloads is rewritten in the same way up to the same rejection.
-/

import UniApi.Front.Renamings
import UniApi.Upstream.ItemIds

namespace UniApi.CrossPlane

open UniApi.Lib UniApi.Front
open UniApi.Upstream hiding itemTarget eventTarget
open UniApi.Front.ResponsesItemIdNormalizer (Pending)

/-! ### New IDs -/

/-- The digits of a SHA-256 digest. -/
structure HexDigests (serde : Serde) : Prop where
  length : ∀ text, (serde.sha256Hex text).length = 64
  digits : ∀ text, (serde.sha256Hex text).all isAsciiAlphanumeric = true

/-- An ID that both planes split: what stands before its first underscore is letters and digits, if the
rest would do as a suffix. -/
def SplitAlike (itemId idPrefix : Bytes) : Prop :=
  ∀ rest, afterUnderscore itemId = some rest → plainSuffix rest = true →
    (idPrefix ++ [underscore] ++ rest).length ≤ maxItemIdLength →
      plainSuffix (itemId.takeWhile (· ≠ underscore)) = true

theorem underscore_not_alphanumeric : isAsciiAlphanumeric underscore = false := by decide

theorem split_of_afterUnderscore {itemId rest : Bytes} (found : afterUnderscore itemId = some rest) :
    itemId = itemId.takeWhile (· ≠ underscore) ++ underscore :: rest := by
  have whole := List.takeWhile_append_dropWhile (p := fun byte => decide (byte ≠ underscore)) (l := itemId)
  unfold afterUnderscore at found
  cases dropped : itemId.dropWhile fun byte => decide (byte ≠ underscore) with
  | nil =>
    rw [dropped] at found
    cases found
  | cons byte later =>
    rw [dropped] at found whole
    cases found
    have stops : byte = underscore := by
      have head := List.head?_dropWhile_not (fun byte => decide (byte ≠ underscore)) itemId
      rw [dropped] at head
      exact not_not.mp (of_decide_eq_false head)
    rw [stops] at whole
    exact whole.symm

theorem afterUnderscore_of_split {head : Bytes} (rest : Bytes) (headPlain : head.all isAsciiAlphanumeric = true) :
    afterUnderscore (head ++ underscore :: rest) = some rest ∧
      (head ++ underscore :: rest).takeWhile (· ≠ underscore) = head := by
  have each : ∀ letter ∈ head, decide (letter ≠ underscore) = true := by
    intro letter isLetter
    refine decide_eq_true fun same => ?_
    have plain := List.all_eq_true.mp headPlain letter isLetter
    rw [same, underscore_not_alphanumeric] at plain
    cases plain
  constructor
  · rw [afterUnderscore, List.dropWhile_append_of_pos each, List.dropWhile_cons_of_neg (by decide)]
  · rw [List.takeWhile_append_of_pos each, List.takeWhile_cons_of_neg (by decide), List.append_nil]

theorem matchItemId_of_split {head : Bytes} (rest : Bytes) (headPlain : head.all isAsciiAlphanumeric = true) :
    matchItemId (head ++ underscore :: rest) =
      if !head.isEmpty && plainSuffix rest then some rest else none := by
  have each := List.all_eq_true.mp headPlain
  have dropped : (head ++ underscore :: rest).dropWhile isAsciiAlphanumeric = underscore :: rest := by
    rw [List.dropWhile_append_of_pos each, List.dropWhile_cons_of_neg (by decide)]
  have taken : (head ++ underscore :: rest).takeWhile isAsciiAlphanumeric = head := by
    rw [List.takeWhile_append_of_pos each, List.takeWhile_cons_of_neg (by decide), List.append_nil]
  rw [matchItemId, dropped]
  dsimp only
  rw [taken, decide_eq_true rfl, Bool.true_and]

/-- The expression matches only where what stands before an underscore is letters and digits. -/
theorem split_of_matchItemId {itemId suffix : Bytes} (found : matchItemId itemId = some suffix) :
    ∃ head, itemId = head ++ underscore :: suffix ∧ plainSuffix head = true ∧ plainSuffix suffix = true := by
  have whole := List.takeWhile_append_dropWhile (p := isAsciiAlphanumeric) (l := itemId)
  unfold matchItemId at found
  split at found
  · cases found
  · rename_i byte rest dropped
    split at found
    · rename_i matched
      cases found
      rw [Bool.and_eq_true, Bool.and_eq_true, decide_eq_true_eq] at matched
      obtain ⟨⟨isUnderscore, nonempty⟩, plain⟩ := matched
      rw [dropped, isUnderscore] at whole
      refine ⟨_, whole.symm, ?_, plain⟩
      rw [plainSuffix, nonempty, Bool.true_and, List.all_eq_true]
      exact fun letter isLetter => List.mem_takeWhile_imp isLetter
    · cases found

theorem itemPrefix_short {itemType idPrefix : Bytes} (found : itemPrefix itemType = some idPrefix) :
    idPrefix.length ≤ 4 := by
  have all : ∀ name ∈ [Utf8.lit "msg", Utf8.lit "rs", Utf8.lit "fc", Utf8.lit "fco", Utf8.lit "ctc",
      Utf8.lit "ctco"], name.length ≤ 4 := by
    decide
  refine all idPrefix ?_
  unfold itemPrefix at found
  split_ifs at found <;> cases found <;> simp only [List.mem_cons, true_or, or_true]

theorem eventPrefix_short {eventType idPrefix : Bytes} (found : eventPrefix eventType = some idPrefix) :
    idPrefix.length ≤ 4 := by
  have all : ∀ start ∈ [Utf8.lit "msg_", Utf8.lit "rs_", Utf8.lit "fc_", Utf8.lit "ctc_"],
      start.length ≤ 4 := by
    decide
  obtain ⟨start, isStart, rfl⟩ := Option.map_eq_some_iff.mp found
  have short : start.length ≤ 4 := by
    refine all start ?_
    unfold eventPrefixBytes at isStart
    split_ifs at isStart <;> cases isStart <;> simp only [List.mem_cons, true_or, or_true]
  have dropped := (List.dropWhile_suffix (fun byte => decide (byte = underscore)) (l := start.reverse)).length_le
  rw [List.length_reverse] at dropped ⊢
  exact dropped.trans short

/-- The new ID by its digest is another ID: otherwise the ID would do as it is. -/
theorem hashed_ne {serde : Serde} (digests : HexDigests serde) {itemId idPrefix : Bytes}
    (short : idPrefix.length ≤ 4)
    (unfit : ((stripPrefix (idPrefix ++ [underscore]) itemId).any fun rest =>
      plainSuffix rest && decide (itemId.length ≤ maxItemIdLength)) = false) :
    idPrefix ++ [underscore] ++ (serde.sha256Hex itemId).take hashedItemIdHexLength ≠ itemId := by
  intro same
  have length : ((serde.sha256Hex itemId).take hashedItemIdHexLength).length = 40 := by
    rw [List.length_take, digests.length]
    rfl
  have stripped : stripPrefix (idPrefix ++ [underscore]) itemId =
      some ((serde.sha256Hex itemId).take hashedItemIdHexLength) := by
    generalize (serde.sha256Hex itemId).take hashedItemIdHexLength = digest at same
    rw [← same, stripPrefix, if_pos (List.isPrefixOf_iff_prefix.mpr (List.prefix_append _ _)),
      List.drop_left]
  have plain : plainSuffix ((serde.sha256Hex itemId).take hashedItemIdHexLength) = true := by
    rw [plainSuffix, Bool.and_eq_true]
    refine ⟨?_, List.all_eq_true.mpr fun letter isLetter =>
      List.all_eq_true.mp (digests.digits itemId) letter (List.mem_of_mem_take isLetter)⟩
    cases digest : (serde.sha256Hex itemId).take hashedItemIdHexLength with
    | nil =>
      rw [digest] at length
      cases length
    | cons => rfl
  have fits : itemId.length ≤ maxItemIdLength := by
    rw [← same, List.length_append, List.length_append, length, List.length_singleton]
    unfold maxItemIdLength
    omega
  rw [stripped, Option.any_some, plain, decide_eq_true fits] at unfit
  cases unfit

/-- **The new ID is the same in both planes** where they split the ID alike. -/
theorem normalizedId_eq {serde : Serde} (digests : HexDigests serde) {itemId idPrefix : Bytes}
    (short : idPrefix.length ≤ 4) (alike : SplitAlike itemId idPrefix) :
    normalizedId serde itemId idPrefix = normalizedIdForPrefix serde itemId idPrefix := by
  unfold normalizedId normalizedIdForPrefix
  dsimp only
  cases fit : ((stripPrefix (idPrefix ++ [underscore]) itemId).any fun rest =>
      plainSuffix rest && decide (itemId.length ≤ maxItemIdLength)) with
  | true => rw [if_pos rfl, if_pos rfl]
  | false =>
    rw [if_neg Bool.false_ne_true, if_neg Bool.false_ne_true,
      if_pos (hashed_ne digests short fit)]
    cases found : afterUnderscore itemId with
    | none =>
      cases matched : matchItemId itemId with
      | none => rfl
      | some suffix =>
        obtain ⟨head, isId, headPlain, -⟩ := split_of_matchItemId matched
        rw [isId, (afterUnderscore_of_split suffix (Bool.and_eq_true _ _ ▸ headPlain).2).1] at found
        cases found
    | some rest =>
      dsimp only
      cases headPlain : plainSuffix (itemId.takeWhile (· ≠ underscore)) with
      | true =>
        obtain ⟨nonempty, letters⟩ := (Bool.and_eq_true _ _).mp headPlain
        have matched := matchItemId_of_split rest letters
        rw [← split_of_afterUnderscore found, nonempty, Bool.true_and] at matched
        rw [matched]
        cases restPlain : plainSuffix rest with
        | false => rfl
        | true =>
          rw [Bool.true_and, if_pos rfl]
          dsimp only
          by_cases fits : (idPrefix ++ [underscore] ++ rest).length ≤ maxItemIdLength
          · rw [if_pos (decide_eq_true fits), if_pos fits]
          · rw [if_neg (by simpa using fits), if_neg fits]
      | false =>
        have unmatched : matchItemId itemId = none := by
          refine Option.eq_none_iff_forall_ne_some.mpr fun suffix matched => ?_
          obtain ⟨head, isId, plain, -⟩ := split_of_matchItemId matched
          have taken := (afterUnderscore_of_split suffix ((Bool.and_eq_true _ _).mp plain).2).2
          rw [← isId] at taken
          rw [taken, plain] at headPlain
          cases headPlain
        have unsplit : (plainSuffix rest &&
            decide ((idPrefix ++ [underscore] ++ rest).length ≤ maxItemIdLength)) = false := by
          rw [Bool.eq_false_iff, ne_eq, Bool.and_eq_true, decide_eq_true_eq]
          rintro ⟨restPlain, fits⟩
          rw [alike rest found restPlain fits] at headPlain
          cases headPlain
        rw [unmatched, unsplit, if_neg Bool.false_ne_true]

/-! ### What both planes accept -/

/-- The renamings that the items of a payload ask for. -/
def itemTargets (serde : Serde) (root : JsonMap) : List (Bytes × Bytes) :=
  (itemLocations root).filterMap (ResponsesItemIdNormalizer.itemTarget serde)

/-- Renamings of items that an ID map and the IDs in use allow. -/
structure ItemsFit (idMap : List (Bytes × Bytes)) (existing seen : List Bytes)
    (targets : List (Bytes × Bytes)) : Prop where
  known : ∀ target ∈ targets, ∀ normalized, idMap.lookup target.1 = some normalized →
    normalized = target.2
  unused : ∀ target ∈ targets, idMap.lookup target.1 = none → target.2 ∉ existing ∧ target.2 ∉ seen
  oneToOne : ∀ target ∈ targets, ∀ other ∈ targets, idMap.lookup target.1 = none →
    idMap.lookup other.1 = none → (target.1 = other.1 ↔ target.2 = other.2)

theorem normalizedId_ne {serde : Serde} (digests : HexDigests serde) {itemId idPrefix normalized : Bytes}
    (short : idPrefix.length ≤ 4) (found : normalizedId serde itemId idPrefix = some normalized) :
    normalized ≠ itemId := by
  unfold normalizedId at found
  dsimp only at found
  split at found
  · cases found
  · rename_i unfit
    have hashed := hashed_ne digests short (Bool.eq_false_iff.mpr unfit)
    split at found
    · cases found
      exact hashed
    · split at found
      · split at found
        · rename_i differs
          cases found
          exact differs
        · cases found
      · cases found
        exact hashed

variable {target : Bytes × Bytes}

/-- A renaming that an item asks for: of its own ID, to another one. -/
theorem itemTarget_spec {serde : Serde} (digests : HexDigests serde) {item : JsonMap}
    (found : ResponsesItemIdNormalizer.itemTarget serde item = some target) :
    item.getStr (Utf8.lit "id") = some target.1 ∧ target.2 ≠ target.1 := by
  unfold ResponsesItemIdNormalizer.itemTarget at found
  simp only [Option.bind_eq_bind, Option.bind_eq_some_iff, Option.pure_def, Option.some.injEq] at found
  obtain ⟨original, isOriginal, idPrefix, ⟨itemType, -, isPrefix⟩, normalized, isNormalized, rfl⟩ := found
  exact ⟨isOriginal, normalizedId_ne digests (itemPrefix_short isPrefix) isNormalized⟩

section Front

open ResponsesItemIdNormalizer

variable {serde : Serde} {normalizer : ResponsesItemIdNormalizer}

/-- What the items registered so far have in common with the renamings asked for. -/
structure Within (normalizer : ResponsesItemIdNormalizer) (targets : List (Bytes × Bytes))
    (pending : Pending) : Prop where
  renamed : ∀ entry ∈ pending.renamed, entry ∈ targets ∧ normalizer.idMap.lookup entry.1 = none
  owners : ∀ entry ∈ pending.targetOwners, (entry.2, entry.1) ∈ targets ∧
    normalizer.idMap.lookup entry.2 = none

theorem registerPending_accepts {existing : List Bytes} {targets : List (Bytes × Bytes)}
    (fit : ItemsFit normalizer.idMap existing normalizer.seenIds targets)
    (isTarget : target ∈ targets) {pending : Pending} (within : Within normalizer targets pending) :
    ∃ after, normalizer.registerPending existing target.1 target.2 pending = .ok after ∧
      Within normalizer targets after := by
  obtain ⟨original, normalized⟩ := target
  dsimp only
  unfold registerPending
  cases known : normalizer.renamedTo pending original with
  | some prior =>
    have same : prior = normalized := by
      rcases Option.or_eq_some_iff.mp known with isPending | ⟨-, isMapped⟩
      · obtain ⟨isPrior, absent⟩ := within.renamed _ (mem_of_lookup isPending)
        exact (fit.oneToOne _ isPrior _ isTarget absent absent).mp rfl
      · exact fit.known _ isTarget _ isMapped
    dsimp only
    rw [if_neg (not_not.mpr same)]
    exact ⟨pending, rfl, within⟩
  | none =>
    have absent : normalizer.idMap.lookup original = none := (Option.or_eq_none_iff.mp known).2
    obtain ⟨notExisting, notSeen⟩ := fit.unused _ isTarget absent
    have owner : (pending.targetOwners.lookup normalized).any (· ≠ original) = false := by
      cases found : pending.targetOwners.lookup normalized with
      | none => rfl
      | some owner =>
        obtain ⟨isOwner, ownerAbsent⟩ := within.owners _ (mem_of_lookup found)
        have same := (fit.oneToOne _ isOwner _ isTarget ownerAbsent absent).mpr rfl
        rw [Option.any_some, decide_eq_false_iff_not, not_not]
        exact same
    dsimp only
    rw [if_neg fun inUse => notExisting inUse.2, if_neg (Bool.eq_false_iff.mp owner),
      if_neg fun seen => notSeen seen.1]
    exact ⟨_, rfl, List.forall_mem_cons.mpr ⟨⟨isTarget, absent⟩, within.renamed⟩,
      List.forall_mem_cons.mpr ⟨⟨isTarget, absent⟩, within.owners⟩⟩

/-- Items whose renamings fit are registered. -/
theorem registerItems_within {root : JsonMap}
    (fit : ItemsFit normalizer.idMap (collectItemIds root) normalizer.seenIds (itemTargets serde root)) :
    ∃ after, normalizer.registerItems serde (collectItemIds root) (itemLocations root) ⟨[], []⟩ =
      .ok after ∧ Within normalizer (itemTargets serde root) after := by
  have all : ∀ (items : List JsonMap) (pending : Pending),
      (∀ target ∈ items.filterMap (itemTarget serde), target ∈ itemTargets serde root) →
      Within normalizer (itemTargets serde root) pending →
        ∃ after, normalizer.registerItems serde (collectItemIds root) items pending = .ok after ∧
          Within normalizer (itemTargets serde root) after := by
    intro items
    induction items with
    | nil => exact fun pending _ within => ⟨pending, rfl, within⟩
    | cons item rest ih =>
      intro pending asked within
      unfold registerItems
      rw [List.filterMap_cons] at asked
      cases target : itemTarget serde item with
      | none =>
        rw [target] at asked
        exact ih pending asked within
      | some found =>
        rw [target] at asked
        obtain ⟨isTarget, later⟩ := List.forall_mem_cons.mp asked
        obtain ⟨after, accepted, within⟩ := registerPending_accepts fit isTarget within
        obtain ⟨original, normalized⟩ := found
        dsimp only
        rw [accepted]
        exact ih after later within
  exact all (itemLocations root) ⟨[], []⟩ (fun _ isTarget => isTarget)
    ⟨List.forall_mem_nil _, List.forall_mem_nil _⟩

/-- **The front accepts the items** whose renamings fit. -/
theorem registerItems_accepts (normalizer : ResponsesItemIdNormalizer) (digests : HexDigests serde)
    (root : JsonMap) :
    (∃ after, normalizer.registerItems serde (collectItemIds root) (itemLocations root) ⟨[], []⟩ =
      .ok after) ↔
      ItemsFit normalizer.idMap (collectItemIds root) normalizer.seenIds (itemTargets serde root) := by
  constructor
  · rintro ⟨after, accepted⟩
    have registers := registerItems_registers (itemLocations root) (.empty _) accepted
    have registrable := registers.registrable
    have pendingOf : ∀ target ∈ itemTargets serde root, normalizer.idMap.lookup target.1 = none →
        after.renamed.lookup target.1 = some target.2 := by
      intro target isTarget absent
      have known := registers.inForce target isTarget
      rwa [renamedTo, absent, Option.or_none] at known
    refine ⟨fun target isTarget normalized isMapped => ?_, fun target isTarget absent => ?_,
      fun target isTarget other isOther absent otherAbsent => ⟨fun same => ?_, fun same => ?_⟩⟩
    · have known := registers.inForce target isTarget
      rcases Option.or_eq_some_iff.mp known with isPending | ⟨-, isKnown⟩
      · have absent := registrable.fresh _ (mem_of_lookup isPending)
        rw [isMapped] at absent
        cases absent
      · exact Option.some.inj (isMapped.symm.trans isKnown)
    · have isEntry := mem_of_lookup (pendingOf target isTarget absent)
      obtain ⟨item, -, found⟩ := List.mem_filterMap.mp isTarget
      exact ⟨(registrable.free _ isEntry).resolve_left (itemTarget_spec digests found).2,
        registrable.unseen _ isEntry⟩
    · have isTargets := pendingOf target isTarget absent
      rw [same, pendingOf other isOther otherAbsent] at isTargets
      exact (Option.some.inj isTargets).symm
    · refine registrable.apart (pendingOf target isTarget absent) ?_
      rw [pendingOf other isOther otherAbsent, same]
  · intro fit
    obtain ⟨after, accepted, -⟩ := registerItems_within fit
    exact ⟨after, accepted⟩

/-- **The front accepts the reference** when the ID that it newly gives is not in use. -/
theorem registerReference_accepts (digests : HexDigests serde) {root : JsonMap} {first : Pending}
    (items : normalizer.registerItems serde (collectItemIds root) (itemLocations root) ⟨[], []⟩ = .ok first)
    (differs : ∀ target, newReferenceTarget serde normalizer root = some target → target.2 ≠ target.1)
    (unowned : ∀ target, newReferenceTarget serde normalizer root = some target →
      ∀ entry ∈ newItemTargets serde normalizer root, entry.2 ≠ target.2) :
    (∃ pending, normalizer.registerReference serde (collectItemIds root) root first = .ok pending) ↔
      ∀ target, newReferenceTarget serde normalizer root = some target →
        target.2 ∉ collectItemIds root ∧ target.2 ∉ normalizer.seenIds := by
  have within : Within normalizer (itemTargets serde root) first := by
    obtain ⟨after, accepted, within⟩ :=
      registerItems_within ((registerItems_accepts normalizer digests root).mp ⟨first, items⟩)
    rw [items] at accepted
    cases accepted
    exact within
  unfold newReferenceTarget at differs unowned ⊢
  unfold ResponsesItemIdNormalizer.registerReference
  cases isReference : root.getStr (Utf8.lit "item_id") with
  | none => exact ⟨fun _ _ found => (by cases found), fun _ => ⟨first, rfl⟩⟩
  | some original =>
    rw [isReference] at differs unowned
    dsimp only [Option.bind_eq_bind, Option.bind_some] at differs unowned ⊢
    rw [← known_after_items items original] at differs unowned ⊢
    cases known : normalizer.renamedTo first original with
    | some prior =>
      rw [Option.some_or, if_pos Option.isSome_some]
      refine ⟨fun _ _ found => (by cases found), fun _ => ⟨first, ?_⟩⟩
      dsimp only
      rw [registerPending, known]
      dsimp only
      rw [if_neg (not_not.mpr rfl)]
    | none =>
      rw [known, if_neg (by simp)] at differs unowned
      rw [Option.none_or, if_neg (by simp)]
      cases target : eventTarget serde root original with
      | none => exact ⟨fun _ _ found => (by cases found), fun _ => ⟨first, rfl⟩⟩
      | some normalized =>
        rw [target] at differs unowned
        have otherId := differs _ rfl
        have absent : normalizer.idMap.lookup original = none := (Option.or_eq_none_iff.mp known).2
        have owner : (first.targetOwners.lookup normalized).any (· ≠ original) = false := by
          cases found : first.targetOwners.lookup normalized with
          | none => rfl
          | some owner =>
            obtain ⟨isOwner, ownerAbsent⟩ := within.owners _ (mem_of_lookup found)
            refine absurd rfl (unowned _ rfl (owner, normalized) ?_)
            exact List.mem_filter.mpr ⟨isOwner, Option.isNone_iff_eq_none.mpr ownerAbsent⟩
        dsimp only
        rw [registerPending, known]
        dsimp only
        rw [Option.map_some]
        constructor
        · rintro ⟨pending, accepted⟩ _ ⟨⟩
          have whole : normalizer.registerPending (collectItemIds root) original normalized first =
              .ok pending := by
            rw [registerPending, known]
            exact accepted
          rcases registerPending_cases whole with ⟨isKnown, -⟩ | ⟨-, free, -, unseen, -⟩
          · rw [known] at isKnown
            cases isKnown
          · exact ⟨free.resolve_left otherId, unseen⟩
        · intro free
          obtain ⟨notExisting, notSeen⟩ := free _ rfl
          rw [if_neg fun inUse => notExisting inUse.2, if_neg (Bool.eq_false_iff.mp owner),
            if_neg fun seen => notSeen seen.1]
          exact ⟨_, rfl⟩

end Front

/-! ### Payloads on which the planes agree -/

/-- The same renamings and the same IDs seen. -/
structure SameHistory (front : ResponsesItemIdNormalizer) (python : ItemIdNormalizer) : Prop where
  mapped : ∀ itemId, front.idMap.lookup itemId = python.idMap.lookup itemId
  seen : ∀ itemId, itemId ∈ front.seenIds ↔ itemId ∈ python.seenItemIds

/-- **A payload on which both planes agree**, given the ID map before it. -/
structure NormalizedAlike (serde : Serde) (front : ResponsesItemIdNormalizer) (root : JsonMap) : Prop where
  itemsSplit : ∀ item ∈ itemLocations root, ∀ itemId idPrefix,
    item.getStr (Utf8.lit "id") = some itemId →
      (item.getStr (Utf8.lit "type")).bind itemPrefix = some idPrefix → SplitAlike itemId idPrefix
  referenceSplit : ∀ itemId idPrefix, root.getStr (Utf8.lit "item_id") = some itemId →
    (root.getStr (Utf8.lit "type")).bind eventPrefix = some idPrefix → SplitAlike itemId idPrefix
  /-- An item with an ID that is or becomes mapped asks for a renaming itself. -/
  asks : ∀ item ∈ itemLocations root, ∀ itemId, item.getStr (Utf8.lit "id") = some itemId →
    (front.idMap.lookup itemId).isSome ∨
        (∃ target ∈ ResponsesItemIdNormalizer.newTargets serde front root, target.1 = itemId) →
      (ResponsesItemIdNormalizer.itemTarget serde item).isSome
  /-- An item that is renamed again gets an ID that the payload does not have and no other item gets. -/
  again : ∀ target ∈ itemTargets serde root, front.idMap.lookup target.1 = some target.2 →
    target.2 ∉ collectItemIds root ∧ ∀ other ∈ itemTargets serde root, other.2 = target.2 →
      other.1 = target.1
  /-- So does a reference that is mapped. -/
  mappedReference : ∀ itemId normalized, root.getStr (Utf8.lit "item_id") = some itemId →
    front.idMap.lookup itemId = some normalized → normalized = itemId ∨ normalized ∉ collectItemIds root
  /-- A reference that is not mapped and an item of its ID ask for the same renaming. -/
  sameTarget : ∀ itemId normalized, root.getStr (Utf8.lit "item_id") = some itemId →
    front.idMap.lookup itemId = none →
      ResponsesItemIdNormalizer.eventTarget serde root itemId = some normalized →
        ∀ target ∈ itemTargets serde root, target.1 = itemId → target.2 = normalized
  /-- A reference of no renamed item does not ask for the new ID of an item. -/
  unowned : ∀ target, ResponsesItemIdNormalizer.newReferenceTarget serde front root = some target →
    ∀ entry ∈ ResponsesItemIdNormalizer.newItemTargets serde front root, entry.2 ≠ target.2

section Agreement

variable {serde : Serde} {front : ResponsesItemIdNormalizer} {python : ItemIdNormalizer} {root : JsonMap}

theorem existingIds_eq (root : JsonMap) : existingIds root = collectItemIds root := by
  rw [existingIds, collectItemIds, ← placedItems_items, List.filterMap_map]
  rfl

theorem itemTarget_eq (digests : HexDigests serde) {item : JsonMap}
    (split : ∀ itemId idPrefix, item.getStr (Utf8.lit "id") = some itemId →
      (item.getStr (Utf8.lit "type")).bind itemPrefix = some idPrefix → SplitAlike itemId idPrefix) :
    Upstream.itemTarget serde item = ResponsesItemIdNormalizer.itemTarget serde item := by
  unfold Upstream.itemTarget ResponsesItemIdNormalizer.itemTarget
  cases isId : item.getStr (Utf8.lit "id") with
  | none => rfl
  | some itemId =>
    cases isPrefix : (item.getStr (Utf8.lit "type")).bind itemPrefix with
    | none => rfl
    | some idPrefix =>
      obtain ⟨itemType, -, found⟩ := Option.bind_eq_some_iff.mp isPrefix
      dsimp only [Option.bind_eq_bind, Option.bind_some]
      rw [normalizedId_eq digests (itemPrefix_short found) (split itemId idPrefix isId isPrefix)]

theorem eventTarget_eq (digests : HexDigests serde) {itemId : Bytes}
    (split : ∀ idPrefix, (root.getStr (Utf8.lit "type")).bind eventPrefix = some idPrefix →
      SplitAlike itemId idPrefix) :
    Upstream.eventTarget serde root itemId = ResponsesItemIdNormalizer.eventTarget serde root itemId := by
  unfold Upstream.eventTarget ResponsesItemIdNormalizer.eventTarget
  cases isPrefix : (root.getStr (Utf8.lit "type")).bind eventPrefix with
  | none => rfl
  | some idPrefix =>
    obtain ⟨eventType, -, found⟩ := Option.bind_eq_some_iff.mp isPrefix
    exact (normalizedId_eq digests (eventPrefix_short found) (split idPrefix isPrefix)).symm

/-- The candidates of the Python plane are the renamings that the items ask for in the front. -/
theorem candidates_targets (digests : HexDigests serde) (alike : NormalizedAlike serde front root) :
    (candidatesOf serde root).map (fun candidate => (candidate.itemId, candidate.normalizedId)) =
      itemTargets serde root := by
  have targets : itemTargets serde root = (itemLocations root).filterMap (Upstream.itemTarget serde) :=
    List.filterMap_congr fun item isItem =>
      (itemTarget_eq digests (alike.itemsSplit item isItem)).symm
  rw [targets, ← placedItems_items, List.filterMap_map, candidatesOf, List.map_filterMap]
  refine List.filterMap_congr fun located _ => ?_
  rw [Option.map_map]
  exact Option.map_id' ..

theorem mem_itemTargets (digests : HexDigests serde) (alike : NormalizedAlike serde front root)
    {candidate : Candidate} (isCandidate : candidate ∈ candidatesOf serde root) :
    (candidate.itemId, candidate.normalizedId) ∈ itemTargets serde root := by
  rw [← candidates_targets digests alike]
  exact List.mem_map_of_mem isCandidate

theorem exists_candidate (digests : HexDigests serde) (alike : NormalizedAlike serde front root)
    (isTarget : target ∈ itemTargets serde root) :
    ∃ candidate ∈ candidatesOf serde root, candidate.itemId = target.1 ∧
      candidate.normalizedId = target.2 := by
  rw [← candidates_targets digests alike] at isTarget
  obtain ⟨candidate, isCandidate, rfl⟩ := List.mem_map.mp isTarget
  exact ⟨candidate, isCandidate, rfl, rfl⟩

theorem wouldCollide_eq_false {itemId normalizedId : Bytes} {existing : List Bytes}
    (differs : normalizedId ≠ itemId) :
    wouldCollide python itemId normalizedId existing = false ↔
      normalizedId ∉ existing ∧
        (normalizedId ∈ python.seenItemIds → python.idMap.lookup itemId = some normalizedId) := by
  rw [wouldCollide, decide_eq_true differs, Bool.true_and, Bool.or_eq_false_iff,
    decide_eq_false_iff_not, Bool.and_eq_false_iff, decide_eq_false_iff_not, decide_eq_false_iff_not,
    not_not, ← imp_iff_not_or]

theorem conflicting_eq_false {idMap : List (Bytes × Bytes)} {candidate : Candidate} :
    conflicting idMap candidate = false ↔
      ∀ normalized, idMap.lookup candidate.itemId = some normalized →
        normalized = candidate.normalizedId := by
  unfold conflicting
  cases idMap.lookup candidate.itemId with
  | none => exact ⟨fun _ _ found => (by cases found), fun _ => rfl⟩
  | some existing =>
    rw [Option.any_some, decide_eq_false_iff_not, not_not]
    exact ⟨fun same _ found => (Option.some.inj found).symm.trans same, fun all => all existing rfl⟩

/-- **The Python plane accepts the items** whose renamings fit. -/
theorem items_accepted (digests : HexDigests serde) (same : SameHistory front python)
    (alike : NormalizedAlike serde front root) :
    (Passes python (existingIds root) (candidatesOf serde root) ∧
        ∀ candidate ∈ candidatesOf serde root, conflicting python.idMap candidate = false) ↔
      ItemsFit front.idMap (collectItemIds root) front.seenIds (itemTargets serde root) := by
  have differs : ∀ target ∈ itemTargets serde root, target.2 ≠ target.1 := by
    intro target isTarget
    obtain ⟨item, -, found⟩ := List.mem_filterMap.mp isTarget
    exact (itemTarget_spec digests found).2
  rw [existingIds_eq]
  constructor
  · rintro ⟨⟨apart, oneToOne⟩, agrees⟩
    have paired : ∀ target ∈ itemTargets serde root, ∀ other ∈ itemTargets serde root,
        target.2 = other.2 ↔ target.1 = other.1 := by
      intro target isTarget other isOther
      obtain ⟨first, isFirst, sameId, sameTarget⟩ := exists_candidate digests alike isTarget
      obtain ⟨second, isSecond, otherId, otherTarget⟩ := exists_candidate digests alike isOther
      have here := List.Pairwise.forall_of_forall_of_flip (R := fun first second : Candidate =>
          second.normalizedId = first.normalizedId ↔ second.itemId = first.itemId)
        (fun _ _ => Iff.intro (fun _ => rfl) fun _ => rfl) oneToOne
        (oneToOne.imp fun paired => Iff.intro (fun equal => (paired.mp equal.symm).symm)
          fun equal => (paired.mpr equal.symm).symm) isSecond isFirst
      rwa [sameId, sameTarget, otherId, otherTarget] at here
    refine ⟨fun target isTarget normalized isMapped => ?_, fun target isTarget absent => ?_,
      fun target isTarget other isOther _ _ => (paired target isTarget other isOther).symm⟩
    · obtain ⟨candidate, isCandidate, sameId, sameTarget⟩ := exists_candidate digests alike isTarget
      rw [← sameTarget]
      refine conflicting_eq_false.mp (agrees candidate isCandidate) normalized ?_
      rw [sameId, ← same.mapped, isMapped]
    · obtain ⟨candidate, isCandidate, sameId, sameTarget⟩ := exists_candidate digests alike isTarget
      have free := apart candidate isCandidate
      rw [sameId, sameTarget, wouldCollide_eq_false (differs target isTarget), ← same.mapped, absent,
        ← same.seen] at free
      exact ⟨free.1, fun seen => by cases free.2 seen⟩
  · intro fit
    have paired : ∀ target ∈ itemTargets serde root, ∀ other ∈ itemTargets serde root,
        target.2 = other.2 ↔ target.1 = other.1 := by
      intro target isTarget other isOther
      cases mapped : front.idMap.lookup target.1 with
      | some normalized =>
        have isKnown := fit.known target isTarget normalized mapped
        rw [isKnown] at mapped
        constructor
        · exact fun equal => ((alike.again target isTarget mapped).2 other isOther equal.symm).symm
        · intro equal
          exact fit.known other isOther target.2 (equal ▸ mapped)
      | none =>
        cases otherMapped : front.idMap.lookup other.1 with
        | some normalized =>
          have isKnown := fit.known other isOther normalized otherMapped
          rw [isKnown] at otherMapped
          constructor
          · exact fun equal => (alike.again other isOther otherMapped).2 target isTarget equal
          · intro equal
            rw [equal, otherMapped] at mapped
            cases mapped
        | none => exact (fit.oneToOne target isTarget other isOther mapped otherMapped).symm
    refine ⟨⟨fun candidate isCandidate => ?_, ?_⟩, fun candidate isCandidate => ?_⟩
    · have isTarget := mem_itemTargets digests alike isCandidate
      rw [wouldCollide_eq_false (differs _ isTarget), ← same.mapped, ← same.seen]
      cases mapped : front.idMap.lookup candidate.itemId with
      | some normalized =>
        have isKnown := fit.known _ isTarget normalized mapped
        rw [isKnown] at mapped ⊢
        exact ⟨(alike.again _ isTarget mapped).1, fun _ => rfl⟩
      | none =>
        obtain ⟨notExisting, notSeen⟩ := fit.unused _ isTarget mapped
        exact ⟨notExisting, fun seen => absurd seen notSeen⟩
    · refine List.Pairwise.imp_of_mem (fun {first second} isFirst isSecond _ => ?_)
        (List.pairwise_of_forall (l := candidatesOf serde root) (R := fun _ _ => True)
          fun _ _ => trivial)
      exact paired _ (mem_itemTargets digests alike isSecond) _ (mem_itemTargets digests alike isFirst)
    · refine conflicting_eq_false.mpr fun normalized isMapped => ?_
      exact fit.known _ (mem_itemTargets digests alike isCandidate) normalized
        ((same.mapped _).trans isMapped)

theorem paired_eq_some {itemId : Bytes} {found : Option Bytes} :
    found.map (itemId, ·) = some target ↔ itemId = target.1 ∧ found = some target.2 := by
  obtain ⟨original, normalized⟩ := target
  rw [Option.map_eq_some_iff]
  constructor
  · rintro ⟨value, rfl, same⟩
    cases same
    exact ⟨rfl, rfl⟩
  · rintro ⟨rfl, rfl⟩
    exact ⟨normalized, rfl, rfl⟩

/-- The reference's own renaming: where its ID is not mapped, and no item asks for one. -/
theorem mem_newReferenceTarget :
    ResponsesItemIdNormalizer.newReferenceTarget serde front root = some target ↔
      root.getStr (Utf8.lit "item_id") = some target.1 ∧ front.idMap.lookup target.1 = none ∧
        (∀ item ∈ itemTargets serde root, item.1 ≠ target.1) ∧
          ResponsesItemIdNormalizer.eventTarget serde root target.1 = some target.2 := by
  unfold ResponsesItemIdNormalizer.newReferenceTarget
  cases isReference : root.getStr (Utf8.lit "item_id") with
  | none => exact ⟨fun found => (by cases found), fun found => (by cases found.1)⟩
  | some itemId =>
    dsimp only [Option.bind_eq_bind, Option.bind_some]
    rw [Option.some.injEq]
    cases mapped : front.idMap.lookup itemId with
    | some normalized =>
      rw [Option.isSome_some, Bool.true_or, if_pos rfl]
      refine ⟨fun found => (by cases found), ?_⟩
      rintro ⟨rfl, absent, -⟩
      rw [mapped] at absent
      cases absent
    | none =>
      have asked : (ResponsesItemIdNormalizer.newItemTargets serde front root).any (·.1 = itemId) = true ↔
          ¬ ∀ item ∈ itemTargets serde root, item.1 ≠ itemId := by
        rw [List.any_eq_true]
        push Not
        constructor
        · rintro ⟨item, isItem, same⟩
          exact ⟨item, (List.mem_filter.mp isItem).1, of_decide_eq_true same⟩
        · rintro ⟨item, isItem, rfl⟩
          exact ⟨item, List.mem_filter.mpr ⟨isItem, by rw [mapped]; rfl⟩, decide_eq_true rfl⟩
      rw [Option.isSome_none, Bool.false_or]
      by_cases others : ∀ item ∈ itemTargets serde root, item.1 ≠ itemId
      · rw [if_neg (asked.not.mpr (not_not.mpr others)), paired_eq_some]
        constructor
        · rintro ⟨rfl, found⟩
          exact ⟨rfl, mapped, others, found⟩
        · rintro ⟨rfl, -, -, found⟩
          exact ⟨rfl, found⟩
      · rw [if_pos (asked.mpr others)]
        refine ⟨fun found => (by cases found), ?_⟩
        rintro ⟨rfl, -, none, -⟩
        exact absurd none others

/-- What the reference adds in the Python plane. -/
theorem mem_newReference (digests : HexDigests serde) (same : SameHistory front python)
    (alike : NormalizedAlike serde front root) :
    newReference serde python root = some target ↔
      root.getStr (Utf8.lit "item_id") = some target.1 ∧ front.idMap.lookup target.1 = none ∧
        ResponsesItemIdNormalizer.eventTarget serde root target.1 = some target.2 := by
  unfold newReference
  cases isReference : root.getStr (Utf8.lit "item_id") with
  | none => exact ⟨fun found => (by cases found), fun found => (by cases found.1)⟩
  | some itemId =>
    dsimp only [Option.bind_eq_bind, Option.bind_some]
    rw [← same.mapped, eventTarget_eq digests fun idPrefix => alike.referenceSplit itemId idPrefix isReference,
      Option.some.injEq]
    cases mapped : front.idMap.lookup itemId with
    | some normalized =>
      refine ⟨fun found => (by cases found), ?_⟩
      rintro ⟨rfl, absent, -⟩
      rw [mapped] at absent
      cases absent
    | none =>
      dsimp only
      rw [paired_eq_some]
      constructor
      · rintro ⟨rfl, found⟩
        exact ⟨rfl, mapped, found⟩
      · rintro ⟨rfl, -, found⟩
        exact ⟨rfl, found⟩

theorem eventTarget_ne (digests : HexDigests serde) {itemId normalized : Bytes}
    (found : ResponsesItemIdNormalizer.eventTarget serde root itemId = some normalized) :
    normalized ≠ itemId := by
  obtain ⟨idPrefix, isPrefix, isNormalized⟩ := Option.bind_eq_some_iff.mp found
  obtain ⟨eventType, -, isEvent⟩ := Option.bind_eq_some_iff.mp isPrefix
  exact normalizedId_ne digests (eventPrefix_short isEvent) isNormalized

/-- The reference does not come between an item and its renaming. -/
theorem conflicting_newReference (digests : HexDigests serde) (same : SameHistory front python)
    (alike : NormalizedAlike serde front root) {candidate : Candidate}
    (isCandidate : candidate ∈ candidatesOf serde root) :
    conflicting ((newReference serde python root).toList ++ python.idMap) candidate =
      conflicting python.idMap candidate := by
  cases added : newReference serde python root with
  | none => rfl
  | some target =>
    obtain ⟨isReference, absent, isTarget⟩ := (mem_newReference digests same alike).mp added
    obtain ⟨itemId, normalized⟩ := target
    rw [Option.toList_some, List.singleton_append, conflicting, conflicting, List.lookup_cons]
    by_cases sameId : candidate.itemId = itemId
    · have agrees := alike.sameTarget itemId normalized isReference absent isTarget _
        (mem_itemTargets digests alike isCandidate) sameId
      rw [beq_iff_eq.mpr sameId, sameId, ← same.mapped, absent, Option.any_some, Option.any_none,
        decide_eq_false (not_not.mpr agrees.symm)]
    · rw [beq_false_of_ne sameId]

/-- **The Python plane accepts the reference** when the ID that it newly gives is not in use. -/
theorem reference_accepted (digests : HexDigests serde) (same : SameHistory front python)
    (alike : NormalizedAlike serde front root)
    (fit : ItemsFit front.idMap (collectItemIds root) front.seenIds (itemTargets serde root)) :
    ReferencePasses serde python root ↔
      ∀ target, ResponsesItemIdNormalizer.newReferenceTarget serde front root = some target →
        target.2 ∉ collectItemIds root ∧ target.2 ∉ front.seenIds := by
  unfold ReferencePasses referenceTarget
  rw [existingIds_eq]
  constructor
  · intro passes target found
    obtain ⟨isReference, absent, -, isTarget⟩ := mem_newReferenceTarget.mp found
    have free := passes target.1 target.2 isReference (by
      rw [← same.mapped, absent, Option.none_or, eventTarget_eq digests fun idPrefix =>
        alike.referenceSplit _ idPrefix isReference, isTarget])
    rw [wouldCollide_eq_false (eventTarget_ne digests isTarget), ← same.mapped, absent,
      ← same.seen] at free
    exact ⟨free.1, fun seen => by cases free.2 seen⟩
  · intro free itemId normalized isReference target
    rw [← same.mapped] at target
    rcases Option.or_eq_some_iff.mp target with mapped | ⟨absent, isTarget⟩
    · rcases alike.mappedReference itemId normalized isReference mapped with rfl | unused
      · rw [wouldCollide, decide_eq_false (not_not.mpr rfl), Bool.false_and]
      · by_cases equal : normalized = itemId
        · rw [equal, wouldCollide, decide_eq_false (not_not.mpr rfl), Bool.false_and]
        · exact (wouldCollide_eq_false equal).mpr ⟨unused, fun _ => (same.mapped _).symm.trans mapped⟩
    · rw [eventTarget_eq digests fun idPrefix => alike.referenceSplit itemId idPrefix isReference]
        at isTarget
      have unused : normalized ∉ collectItemIds root ∧ normalized ∉ front.seenIds := by
        by_cases others : ∀ item ∈ itemTargets serde root, item.1 ≠ itemId
        · exact free (itemId, normalized)
            (mem_newReferenceTarget.mpr ⟨isReference, absent, others, isTarget⟩)
        · push Not at others
          obtain ⟨item, isItem, rfl⟩ := others
          rw [← alike.sameTarget item.1 normalized isReference absent isTarget item isItem rfl]
          exact fit.unused item isItem absent
      exact (wouldCollide_eq_false (eventTarget_ne digests isTarget)).mpr
        ⟨unused.1, fun seen => absurd ((same.seen _).mpr seen) unused.2⟩

/-- **Both planes accept a payload** on which they agree, or neither does. -/
theorem accepts_alike (digests : HexDigests serde) (same : SameHistory front python)
    (alike : NormalizedAlike serde front root) :
    (∃ first pending,
        front.registerItems serde (collectItemIds root) (itemLocations root) ⟨[], []⟩ = .ok first ∧
          front.registerReference serde (collectItemIds root) root first = .ok pending) ↔
      Accepted serde python root := by
  have items := registerItems_accepts front digests root
  have differs : ∀ target, ResponsesItemIdNormalizer.newReferenceTarget serde front root = some target →
      target.2 ≠ target.1 :=
    fun target found => eventTarget_ne digests (mem_newReferenceTarget.mp found).2.2.2
  constructor
  · rintro ⟨first, pending, isFirst, accepted⟩
    have fit := items.mp ⟨first, isFirst⟩
    obtain ⟨passes, agrees⟩ := (items_accepted digests same alike).mpr fit
    refine ⟨passes, (reference_accepted digests same alike fit).mpr ?_, fun candidate isCandidate => ?_⟩
    · exact (registerReference_accepts digests isFirst differs alike.unowned).mp ⟨pending, accepted⟩
    · rw [conflicting_newReference digests same alike isCandidate]
      exact agrees candidate isCandidate
  · rintro ⟨passes, reference, agrees⟩
    have fit := (items_accepted digests same alike).mp ⟨passes, fun candidate isCandidate => by
      rw [← conflicting_newReference digests same alike isCandidate]
      exact agrees candidate isCandidate⟩
    obtain ⟨first, isFirst⟩ := items.mpr fit
    obtain ⟨pending, accepted⟩ := (registerReference_accepts digests isFirst differs alike.unowned).mpr
      ((reference_accepted digests same alike fit).mp reference)
    exact ⟨first, pending, isFirst, accepted⟩

/-! ### What both planes make of a payload -/

/-- The ID map of the front after a payload. -/
theorem front_lookup {first pending : Pending}
    (items : front.registerItems serde (collectItemIds root) (itemLocations root) ⟨[], []⟩ = .ok first)
    (reference : front.registerReference serde (collectItemIds root) root first = .ok pending)
    (itemId normalized : Bytes) :
    (pending.renamed ++ front.idMap).lookup itemId = some normalized ↔
      front.idMap.lookup itemId = some normalized ∨
        front.idMap.lookup itemId = none ∧ ((itemId, normalized) ∈ itemTargets serde root ∨
          ResponsesItemIdNormalizer.newReferenceTarget serde front root = some (itemId, normalized)) := by
  obtain ⟨registrable, targets⟩ := ResponsesItemIdNormalizer.registered_targets items reference
  rw [List.lookup_append, Option.or_eq_some_iff]
  constructor
  · rintro (isPending | ⟨-, mapped⟩)
    · have isEntry := mem_of_lookup isPending
      have absent := registrable.fresh _ isEntry
      rcases List.mem_append.mp ((targets _).mp isEntry) with isItem | isReference
      · exact .inr ⟨absent, .inl (List.mem_filter.mp isItem).1⟩
      · exact .inr ⟨absent, .inr (Option.mem_toList.mp isReference)⟩
    · exact .inl mapped
  · have unmapped : ∀ {other}, front.idMap.lookup itemId = some other →
        pending.renamed.lookup itemId = none := by
      intro other mapped
      refine Option.eq_none_iff_forall_ne_some.mpr fun target isPending => ?_
      have absent := registrable.fresh _ (mem_of_lookup isPending)
      rw [mapped] at absent
      cases absent
    rintro (mapped | ⟨absent, isItem | isReference⟩)
    · exact .inr ⟨unmapped mapped, mapped⟩
    · refine .inl (registrable.found (itemId, normalized) ((targets _).mpr ?_))
      exact List.mem_append_left _ (List.mem_filter.mpr ⟨isItem, Option.isNone_iff_eq_none.mpr absent⟩)
    · refine .inl (registrable.found (itemId, normalized) ((targets _).mpr ?_))
      exact List.mem_append_right _ (Option.mem_toList.mpr isReference)

/-- The ID map of the Python plane once the reference is registered. -/
theorem withReference_lookup (digests : HexDigests serde) (same : SameHistory front python)
    (alike : NormalizedAlike serde front root) (itemId normalized : Bytes) :
    ((newReference serde python root).toList ++ python.idMap).lookup itemId = some normalized ↔
      front.idMap.lookup itemId = some normalized ∨
        newReference serde python root = some (itemId, normalized) := by
  rw [List.lookup_append, ← same.mapped]
  cases added : newReference serde python root with
  | none => simp
  | some target =>
    obtain ⟨-, absent, -⟩ := (mem_newReference digests same alike).mp added
    obtain ⟨reference, referenceTarget⟩ := target
    rw [Option.toList_some, List.lookup_cons]
    by_cases isReference : itemId = reference
    · rw [beq_iff_eq.mpr isReference, isReference, absent, Option.some_or]
      simp
    · rw [beq_false_of_ne isReference]
      simp [Ne.symm isReference]

/-- **The ID maps stay the same.** -/
theorem idMaps_alike (digests : HexDigests serde) (same : SameHistory front python)
    (alike : NormalizedAlike serde front root) {first pending : Pending}
    (items : front.registerItems serde (collectItemIds root) (itemLocations root) ⟨[], []⟩ = .ok first)
    (reference : front.registerReference serde (collectItemIds root) root first = .ok pending)
    (accepted : Accepted serde python root) (itemId : Bytes) :
    (pending.renamed ++ front.idMap).lookup itemId =
      (renameCandidates (candidatesOf serde root)
        (withReference serde python root)).2.normalizer.idMap.lookup itemId := by
  refine Option.ext fun normalized => ?_
  have isStart := withReference_lookup digests same alike itemId
  rw [front_lookup items reference,
    renameCandidates_lookup accepted.passes.consistent (withReference serde python root)
      accepted.agrees]
  change _ ↔ ((newReference serde python root).toList ++ python.idMap).lookup itemId = some normalized ∨
    ((newReference serde python root).toList ++ python.idMap).lookup itemId = none ∧ _
  have isCandidate : (∃ candidate ∈ candidatesOf serde root, candidate.itemId = itemId ∧
      candidate.normalizedId = normalized) ↔ (itemId, normalized) ∈ itemTargets serde root := by
    constructor
    · rintro ⟨candidate, isCandidate, rfl, rfl⟩
      exact mem_itemTargets digests alike isCandidate
    · exact fun isTarget => exists_candidate digests alike isTarget
  rw [isStart, isCandidate]
  constructor
  · rintro (mapped | ⟨absent, isItem | isReference⟩)
    · exact .inl (.inl mapped)
    · cases start : ((newReference serde python root).toList ++ python.idMap).lookup itemId with
      | none => exact .inr ⟨rfl, isItem⟩
      | some other =>
        have added := ((isStart other).mp start).resolve_left (by rw [absent]; exact nofun)
        obtain ⟨isReference, -, isTarget⟩ := (mem_newReference digests same alike).mp added
        rw [← alike.sameTarget itemId other isReference absent isTarget _ isItem rfl] at added
        exact .inl (.inr added)
    · obtain ⟨isId, -, -, isTarget⟩ := mem_newReferenceTarget.mp isReference
      exact .inl (.inr ((mem_newReference digests same alike).mpr ⟨isId, absent, isTarget⟩))
  · rintro ((mapped | added) | ⟨start, isItem⟩)
    · exact .inl mapped
    · obtain ⟨isReference, absent, isTarget⟩ := (mem_newReference digests same alike).mp added
      refine .inr ⟨absent, ?_⟩
      by_cases others : ∀ item ∈ itemTargets serde root, item.1 ≠ itemId
      · exact .inr (mem_newReferenceTarget.mpr ⟨isReference, absent, others, isTarget⟩)
      · push Not at others
        obtain ⟨item, isItem, rfl⟩ := others
        rw [← alike.sameTarget item.1 normalized isReference absent isTarget item isItem rfl]
        exact .inl isItem
    · refine .inr ⟨Option.eq_none_iff_forall_ne_some.mpr fun other mapped => ?_, .inl isItem⟩
      have isSome := (isStart other).mpr (.inl mapped)
      rw [start] at isSome
      cases isSome

/-- **The rewritten payloads are the same.** -/
theorem payloads_alike (digests : HexDigests serde) (same : SameHistory front python)
    (alike : NormalizedAlike serde front root) {first pending : Pending}
    (items : front.registerItems serde (collectItemIds root) (itemLocations root) ⟨[], []⟩ = .ok first)
    (reference : front.registerReference serde (collectItemIds root) root first = .ok pending)
    (accepted : Accepted serde python root) :
    front.renamedRoot pending root =
      rewrittenPayload (renameCandidates (candidatesOf serde root)
        (withReference serde python root)).2 := by
  have idMaps := idMaps_alike digests same alike items reference accepted
  have fit := (registerItems_accepts front digests root).mp ⟨first, items⟩
  have visited : visitItemsMut (front.renameMember pending (Utf8.lit "id")) root =
      (renameCandidates (candidatesOf serde root) (withReference serde python root)).2.payload := by
    rw [renameCandidates_payload accepted.passes.consistent (withReference serde python root)
      accepted.agrees, visitItemsMut_eq]
    refine changeItems_congr _ _ fun located there => ?_
    have isItem : located.2 ∈ itemLocations root := by
      rw [← placedItems_items]
      exact List.mem_map_of_mem there
    have split := alike.itemsSplit located.2 isItem
    unfold ResponsesItemIdNormalizer.renameMember
    cases asked : ResponsesItemIdNormalizer.itemTarget serde located.2 with
    | some target =>
      obtain ⟨isId, -⟩ := itemTarget_spec digests asked
      have isTarget : target ∈ itemTargets serde root := List.mem_filterMap.mpr ⟨_, isItem, asked⟩
      have isCandidate : ⟨located.1, target.1, target.2⟩ ∈ candidatesOf serde root := by
        refine List.mem_filterMap.mpr ⟨located, there, ?_⟩
        rw [itemTarget_eq digests split, asked, Option.map_some]
      have renamed : front.renamedTo pending target.1 = some target.2 := by
        have lookup := (front_lookup items reference target.1 target.2).mpr (by
          cases mapped : front.idMap.lookup target.1 with
          | none => exact .inr ⟨rfl, .inl isTarget⟩
          | some normalized => exact .inl (congrArg some (fit.known target isTarget normalized mapped)))
        rwa [List.lookup_append] at lookup
      rw [isId, Option.bind_some, renamed,
        renameItem_of_mem (candidatesOf_places serde root) isCandidate]
    | none =>
      have elsewhere : ∀ candidate ∈ candidatesOf serde root, located.1 ≠ candidate.place := by
        intro candidate isCandidate samePlace
        obtain ⟨item, isPlaced, target⟩ := mem_candidatesOf serde isCandidate
        have sameItem : located.2 = item := congrArg Prod.snd (item_of_place there isPlaced samePlace)
        rw [← sameItem, itemTarget_eq digests split, asked] at target
        cases target
      rw [renameItem_elsewhere elsewhere]
      cases isId : located.2.getStr (Utf8.lit "id") with
      | none => rfl
      | some itemId =>
        have unmapped : front.renamedTo pending itemId = none := by
          refine Option.eq_none_iff_forall_ne_some.mpr fun normalized renamed => ?_
          have lookup : (pending.renamed ++ front.idMap).lookup itemId = some normalized := by
            rwa [List.lookup_append]
          have asks := alike.asks located.2 isItem itemId isId
          rw [asked] at asks
          refine absurd (asks ?_) Bool.false_ne_true
          rcases (front_lookup items reference itemId normalized).mp lookup with
            mapped | ⟨absent, isTarget | isTarget⟩
          · exact .inl (Option.isSome_iff_exists.mpr ⟨_, mapped⟩)
          · exact .inr ⟨_, List.mem_append_left _
              (List.mem_filter.mpr ⟨isTarget, Option.isNone_iff_eq_none.mpr absent⟩), rfl⟩
          · exact .inr ⟨_, List.mem_append_right _ (Option.mem_toList.mpr isTarget), rfl⟩
        rw [Option.bind_some, unmapped]
  have renamedTo_eq : front.renamedTo pending = fun itemId => (renameCandidates (candidatesOf serde root)
      (withReference serde python root)).2.normalizer.idMap.lookup itemId := by
    funext itemId
    rw [← idMaps itemId, List.lookup_append]
    rfl
  rw [ResponsesItemIdNormalizer.renamedRoot, ResponsesItemIdNormalizer.renameMember, visited,
    renamedTo_eq]
  rfl

/-- **One payload** on which the planes agree: both reject it, or both rewrite it in the same way and
have the same history after it. -/
theorem normalize_alike (digests : HexDigests serde) (same : SameHistory front python)
    (alike : NormalizedAlike serde front root) :
    (∃ error message after payload, front.normalize serde (.object root) = .error error ∧
        Upstream.normalize serde python (.object root) = (.error message, after, payload)) ∨
      ∃ changed result payload frontAfter pythonAfter,
        front.normalize serde (.object root) = .ok (changed, payload, frontAfter) ∧
          Upstream.normalize serde python (.object root) = (.ok result, pythonAfter, payload) ∧
            SameHistory frontAfter pythonAfter := by
  have accepts := accepts_alike digests same alike
  cases answered : front.normalize serde (.object root) with
  | error error =>
    have rejected : ¬ Accepted serde python root := by
      intro accepted
      obtain ⟨first, pending, items, reference⟩ := accepts.mpr accepted
      simp only [ResponsesItemIdNormalizer.normalize, Value.asObject, bind, Except.bind, items,
        reference] at answered
      cases answered
    obtain ⟨message, after, raised⟩ := normalizeObject_rejected serde python rejected
    refine .inl ⟨error, message, after.normalizer, .object after.payload, rfl, ?_⟩
    rw [Upstream.normalize, raised]
  | ok result =>
    obtain ⟨changed, payload, frontAfter⟩ := result
    obtain ⟨first, pending, items, reference, rfl, rfl⟩ := ResponsesItemIdNormalizer.normalize_ok answered
    have accepted := accepts.mp ⟨first, pending, items, reference⟩
    have payloads := payloads_alike digests same alike items reference accepted
    obtain ⟨renamed, isRenamed⟩ : ∃ renamed, renamed = (renameCandidates (candidatesOf serde root)
        (withReference serde python root)).2 := ⟨_, rfl⟩
    have kept := (renameCandidates_grows (candidatesOf serde root) (withReference serde python root)).2
    have idMaps := idMaps_alike digests same alike items reference accepted
    rw [← isRenamed] at payloads kept idMaps
    obtain ⟨report, finished⟩ := finishCall_after (candidatesOf serde root) renamed
    refine .inr ⟨changed, report, _, _, { renamed.normalizer with
      seenItemIds := existingIds (rewrittenPayload renamed) ++ renamed.normalizer.seenItemIds },
      rfl, ?_, ⟨idMaps, fun itemId => ?_⟩⟩
    · rw [Upstream.normalize, normalizeObject_accepted serde python accepted, ← isRenamed, finished, payloads]
    · dsimp only
      rw [kept, ← payloads, existingIds_eq, List.mem_append, List.mem_append, same.seen]
      rfl

end Agreement

/-! ### Streams -/

section Streams

variable (serde : Serde)

/-- What the front makes of a stream of payloads, up to the first that it rejects. -/
def frontOutcomes : ResponsesItemIdNormalizer → List JsonMap → List (Option Value)
  | _, [] => []
  | front, root :: rest =>
    match front.normalize serde (.object root) with
    | .error _ => [none]
    | .ok (_, payload, after) => some payload :: frontOutcomes after rest

/-- What the Python plane makes of it. -/
def pythonOutcomes : ItemIdNormalizer → List JsonMap → List (Option Value)
  | _, [] => []
  | python, root :: rest =>
    match Upstream.normalize serde python (.object root) with
    | (.error _, _, _) => [none]
    | (.ok _, after, payload) => some payload :: pythonOutcomes after rest

/-- A stream whose payloads are such that the planes agree, up to the first that is rejected. -/
def AllNormalizedAlike : ResponsesItemIdNormalizer → List JsonMap → Prop
  | _, [] => True
  | front, root :: rest => NormalizedAlike serde front root ∧
    match front.normalize serde (.object root) with
    | .error _ => True
    | .ok (_, _, after) => AllNormalizedAlike after rest

theorem outcomes_of_history {serde : Serde} (digests : HexDigests serde) (roots : List JsonMap)
    {front : ResponsesItemIdNormalizer} {python : ItemIdNormalizer} (same : SameHistory front python)
    (alike : AllNormalizedAlike serde front roots) :
    frontOutcomes serde front roots = pythonOutcomes serde python roots := by
  induction roots generalizing front python with
  | nil => rfl
  | cons root rest ih =>
    obtain ⟨here, later⟩ := alike
    unfold frontOutcomes pythonOutcomes
    rcases normalize_alike digests same here with ⟨error, message, after, payload, isFront, isPython⟩ |
      ⟨changed, result, payload, frontAfter, pythonAfter, isFront, isPython, sameAfter⟩
    · rw [isFront, isPython]
    · rw [isFront] at later
      rw [isFront, isPython]
      exact congrArg (some payload :: ·) (ih sameAfter later)

/-- **Item IDs are renamed alike**: from fresh normalisers, a stream whose payloads are such that the
planes agree is rewritten in the same way, up to the same rejection. -/
theorem outcomes_alike {serde : Serde} (digests : HexDigests serde) (roots : List JsonMap)
    (alike : AllNormalizedAlike serde .fresh roots) :
    frontOutcomes serde .fresh roots = pythonOutcomes serde .fresh roots :=
  outcomes_of_history digests roots ⟨fun _ => rfl, fun _ => Iff.rfl⟩ alike

end Streams

instance (itemId idPrefix : Bytes) : Decidable (SplitAlike itemId idPrefix) :=
  inferInstanceAs (Decidable (∀ rest ∈ afterUnderscore itemId, plainSuffix rest = true →
    (idPrefix ++ [underscore] ++ rest).length ≤ maxItemIdLength →
      plainSuffix (itemId.takeWhile (· ≠ underscore)) = true))

instance (serde : Serde) (front : ResponsesItemIdNormalizer) (root : JsonMap) :
    Decidable (NormalizedAlike serde front root) :=
  decidable_of_iff
    ((∀ item ∈ itemLocations root, ∀ itemId ∈ item.getStr (Utf8.lit "id"),
        ∀ idPrefix ∈ (item.getStr (Utf8.lit "type")).bind itemPrefix, SplitAlike itemId idPrefix) ∧
      (∀ itemId ∈ root.getStr (Utf8.lit "item_id"),
        ∀ idPrefix ∈ (root.getStr (Utf8.lit "type")).bind eventPrefix, SplitAlike itemId idPrefix) ∧
      (∀ item ∈ itemLocations root, ∀ itemId ∈ item.getStr (Utf8.lit "id"),
        (front.idMap.lookup itemId).isSome ∨
            (∃ target ∈ ResponsesItemIdNormalizer.newTargets serde front root, target.1 = itemId) →
          (ResponsesItemIdNormalizer.itemTarget serde item).isSome) ∧
      (∀ target ∈ itemTargets serde root, front.idMap.lookup target.1 = some target.2 →
        target.2 ∉ collectItemIds root ∧ ∀ other ∈ itemTargets serde root, other.2 = target.2 →
          other.1 = target.1) ∧
      (∀ itemId ∈ root.getStr (Utf8.lit "item_id"), ∀ normalized ∈ front.idMap.lookup itemId,
        normalized = itemId ∨ normalized ∉ collectItemIds root) ∧
      (∀ itemId ∈ root.getStr (Utf8.lit "item_id"), front.idMap.lookup itemId = none →
        ∀ normalized ∈ ResponsesItemIdNormalizer.eventTarget serde root itemId,
          ∀ target ∈ itemTargets serde root, target.1 = itemId → target.2 = normalized) ∧
      ∀ target ∈ ResponsesItemIdNormalizer.newReferenceTarget serde front root,
        ∀ entry ∈ ResponsesItemIdNormalizer.newItemTargets serde front root, entry.2 ≠ target.2)
    ⟨fun all => ⟨fun item isItem itemId idPrefix isId => all.1 item isItem itemId isId idPrefix,
      fun itemId idPrefix isId => all.2.1 itemId isId idPrefix, all.2.2.1, all.2.2.2.1,
      fun itemId normalized isId => all.2.2.2.2.1 itemId isId normalized,
      fun itemId normalized isId absent => all.2.2.2.2.2.1 itemId isId absent normalized,
      all.2.2.2.2.2.2⟩,
    fun alike => ⟨fun item isItem itemId isId idPrefix => alike.itemsSplit item isItem itemId idPrefix isId,
      fun itemId isId idPrefix => alike.referenceSplit itemId idPrefix isId, alike.asks, alike.again,
      fun itemId isId normalized => alike.mappedReference itemId normalized isId,
      fun itemId isId absent normalized => alike.sameTarget itemId normalized isId absent,
      alike.unowned⟩⟩

instance decidableAllNormalizedAlike (serde : Serde) :
    ∀ front roots, Decidable (AllNormalizedAlike serde front roots)
  | _, [] => inferInstanceAs (Decidable True)
  | front, root :: rest =>
    match result : front.normalize serde (.object root) with
    | .error _ =>
      decidable_of_iff (NormalizedAlike serde front root) (by
        rw [AllNormalizedAlike, result, and_true])
    | .ok (_, _, after) =>
      haveI := decidableAllNormalizedAlike serde after rest
      decidable_of_iff (NormalizedAlike serde front root ∧ AllNormalizedAlike serde after rest) (by
        rw [AllNormalizedAlike, result])

/-- Digests of 64 zeros. -/
def zeroDigest : Serde where
  fromStr := fun _ => none
  toString := fun _ => none
  sha256Hex := fun _ => List.replicate 64 48

/-- A message, its text, and the message again. -/
def messageRoots : List JsonMap :=
  [[(Utf8.lit "item", itemNamed "item_abc" "message")],
    [(Utf8.lit "item_id", .string (Utf8.lit "item_abc")),
      (Utf8.lit "type", .string (Utf8.lit "response.output_text.delta"))],
    [(Utf8.lit "item", itemNamed "item_abc" "message")]]

/-- The stream of a message is rewritten alike. -/
theorem messageRoots_alike : AllNormalizedAlike zeroDigest .fresh messageRoots ∧
    frontOutcomes zeroDigest .fresh messageRoots = pythonOutcomes zeroDigest .fresh messageRoots := by
  have alike : AllNormalizedAlike zeroDigest .fresh messageRoots := by decide
  have digits : (List.replicate 64 (48 : UInt8)).all isAsciiAlphanumeric = true := by decide
  exact ⟨alike, outcomes_alike ⟨fun _ => List.length_replicate, fun _ => digits⟩ messageRoots alike⟩

/-- **An item that comes back without its type** is renamed in the front only. -/
theorem untyped_item_differs :
    frontOutcomes noDigest .fresh [[(Utf8.lit "item", itemNamed "item_abc" "message")],
        [(Utf8.lit "item", .object [(Utf8.lit "id", .string (Utf8.lit "item_abc"))])]] ≠
      pythonOutcomes noDigest .fresh [[(Utf8.lit "item", itemNamed "item_abc" "message")],
        [(Utf8.lit "item", .object [(Utf8.lit "id", .string (Utf8.lit "item_abc"))])]] := by
  intro same
  have ids := congrArg (List.map fun outcome : Option Value =>
    (outcome.bind (·.get (Utf8.lit "item"))).bind (·.getStr (Utf8.lit "id"))) same
  revert ids
  decide +kernel

end UniApi.CrossPlane
