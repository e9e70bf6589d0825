/-
**References in tool schemas: `gpt2claude_tools_json`.**

A reference is replaced by its definition with the members beside it, and what it is replaced by is not
looked at again.

* `resolveRefs`, `gpt2claudeToolsJson`: the source;
* `Inlines`: every reference replaced, those of definitions too;
* `resolveRefs_accepts`, `resolveRefs_inlines`: what is resolved, and when it is inlined;
* `schema_inlined_iff`: the schema of a function.
-/

import Mathlib.Data.List.DropRight
import UniApi.Lib.Dict
import UniApi.Lib.PyTree

namespace UniApi.Providers.ToolReferences

open UniApi.Lib
open UniApi.Lib.PyData (lit Members Meets)

/-! ### The source -/

/-- What `gpt2claude_tools_json` raises. -/
inductive ResolveError where
  /-- `TypeError`. -/
  | type
  /-- `AttributeError`. -/
  | attribute

/-- The member has the name. -/
def isNamed (name : PyText) (member : String × PyData) : Bool := Utf8.points member.1 == name

/-- `key in value`. -/
def hasKey (key : PyText) : PyData → Except ResolveError Bool
  | .dict members => .ok (members.any (isNamed key))
  | .list items => .ok (items.any fun item => item.asStr == some key)
  | .str text => .ok (isSubstring key text)
  | _ => .error .type

/-- `value[key]` of a value that has the key. -/
def getKey (key : PyText) : PyData → Except ResolveError PyData
  | .dict members =>
    match members.find? (isNamed key) with
    | some member => .ok member.2
    | none => .error .type
  | _ => .error .type

/-- `text.split("/")[-1]`. -/
def lastSegment (text : PyText) : PyText := text.rtakeWhile (· != 47)

/-- The definition of a reference, if there is one. -/
def definitionOf (defs : PyData) (target : PyText) : Except ResolveError (Option PyData) :=
  if (Utf8.points "#/$defs/").isPrefixOf target then do
    if ← hasKey (lastSegment target) defs then
      return some (← getKey (lastSegment target) defs)
    else
      return none
  else .ok none

/-- The definition with the members that are beside its reference. -/
def overlay (refObj : PyData) (members : Members) : Except ResolveError PyData :=
  let siblings := members.filter fun member => member.1 != "$ref"
  match refObj with
  | .dict entries =>
    .ok (.dict (siblings.foldl (fun entries member => Dict.setEntries member.1 member.2 entries) entries))
  | other => if siblings.isEmpty then .ok other else .error .type

mutual

/-- `resolve_refs`. -/
def resolveRefs (defs : PyData) : PyData → Except ResolveError PyData
  | .dict members =>
    match members.lookup "$ref" with
    | some (.str target) => do
      match ← definitionOf defs target with
      | some refObj => overlay refObj members
      | none => return .dict (← resolveMembers defs members)
    | some _ => .error .attribute
    | none => do return .dict (← resolveMembers defs members)
  | .list items => do return .list (← resolveItems defs items)
  | value => .ok value

def resolveItems (defs : PyData) : List PyData → Except ResolveError (List PyData)
  | [] => .ok []
  | item :: items => do return (← resolveRefs defs item) :: (← resolveItems defs items)

def resolveMembers (defs : PyData) : Members → Except ResolveError Members
  | [] => .ok []
  | (name, value) :: members => do
    return (name, ← resolveRefs defs value) :: (← resolveMembers defs members)

end

/-- The definitions of a function, and the function without them. -/
def takeDefs (members : Members) : Except ResolveError (PyData × Members) :=
  match members.lookup "parameters" with
  | none => .ok (.dict [], members)
  | some parameters => do
    if ← hasKey (Utf8.points "defs") parameters then
      match parameters with
      | .dict entries =>
        let others := entries.filter fun entry => entry.1 != "defs"
        return ((entries.lookup "defs").getD .none, Dict.setEntries "parameters" (.dict others) members)
      | _ => .error .type
    else
      return (.dict [], members)

/-- `parameters` under the name `input_schema`. -/
def renameParameters (function : PyData) : Except ResolveError PyData := do
  if ← hasKey (Utf8.points "parameters") function then
    match function with
    | .dict members =>
      let parameters := (members.lookup "parameters").getD .none
      let schema :=
        match parameters with
        | .none => .dict [("type", lit "object"), ("properties", .dict [])]
        | parameters => parameters
      let others := members.filter fun member => member.1 != "parameters"
      return .dict (Dict.setEntries "input_schema" schema others)
    | _ => .error .type
  else
    return function

/-- `gpt2claude_tools_json`. -/
def gpt2claudeToolsJson (jsonDict : Members) : Except ResolveError PyData := do
  let (defs, others) ← takeDefs jsonDict
  renameParameters (← resolveRefs defs (.dict others))

/-! ### References -/

theorem points_inj {first second : String} : Utf8.points first = Utf8.points second ↔ first = second := by
  rw [Utf8.points, Utf8.points, (List.map_injective_iff.mpr fun _ _ same => Char.toNat_inj.mp same).eq_iff,
    String.toList_inj]

theorem hasKey_dict (key : String) (members : Members) :
    hasKey (Utf8.points key) (.dict members) = .ok (members.lookup key).isSome := by
  rw [hasKey]
  congr 1
  induction members with
  | nil => rfl
  | cons member members ih =>
    rw [List.any_cons, List.lookup_cons, ih, isNamed]
    by_cases same : key = member.1
    · rw [beq_iff_eq.mpr same, beq_iff_eq.mpr (points_inj.mpr same.symm)]
      rfl
    · rw [beq_eq_false_iff_ne.mpr same, beq_eq_false_iff_ne.mpr (mt points_inj.mp (Ne.symm same)),
        Bool.false_or]

/-- The definition of the reference that members are, if they are one. -/
def reference (defs members : Members) : Option PyData :=
  match members.lookup "$ref" with
  | some (.str target) =>
    if (Utf8.points "#/$defs/").isPrefixOf target then
      (defs.find? (isNamed (lastSegment target))).map Prod.snd
    else none
  | _ => none

theorem definitionOf_dict (defs : Members) (target : PyText) : definitionOf (.dict defs) target
    = .ok (if (Utf8.points "#/$defs/").isPrefixOf target then
        (defs.find? (isNamed (lastSegment target))).map Prod.snd
      else none) := by
  rw [definitionOf]
  split_ifs with isRef
  · rw [hasKey, getKey]
    cases found : defs.find? (isNamed (lastSegment target)) with
    | none =>
      have absent : defs.any (isNamed (lastSegment target)) = false := by
        rw [List.any_eq_false]
        exact List.find?_eq_none.mp found
      rw [absent]
      rfl
    | some entry =>
      have present : defs.any (isNamed (lastSegment target)) = true := by
        rw [List.any_eq_true]
        exact ⟨entry, List.mem_of_find?_eq_some found, List.find?_some found⟩
      rw [present]
      rfl
  · rfl

/-- `$ref`, if there is one, is a text. -/
def RefIsText (members : Members) : Prop :=
  ∀ value, members.lookup "$ref" = some value → ∃ target, value = .str target

section Resolve

variable {defs members : Members}

theorem resolveRefs_reference {definition : PyData} (isRef : reference defs members = some definition) :
    resolveRefs (.dict defs) (.dict members) = overlay definition members := by
  rw [reference] at isRef
  rw [resolveRefs]
  split at isRef
  · rename_i target found
    rw [found]
    dsimp only
    rw [definitionOf_dict, isRef]
    rfl
  · cases isRef

theorem resolveRefs_members (isText : RefIsText members) (noRef : reference defs members = none) :
    resolveRefs (.dict defs) (.dict members)
      = do return .dict (← resolveMembers (.dict defs) members) := by
  rw [reference] at noRef
  rw [resolveRefs]
  cases found : members.lookup "$ref" with
  | none => rfl
  | some value =>
    obtain ⟨target, rfl⟩ := isText value found
    rw [found] at noRef
    dsimp only at noRef ⊢
    rw [definitionOf_dict, noRef]
    rfl

theorem refIsText_of_resolved {resolved : PyData}
    (resolves : resolveRefs (.dict defs) (.dict members) = .ok resolved) : RefIsText members := by
  intro value found
  rw [resolveRefs, found] at resolves
  cases value with
  | str target => exact ⟨target, rfl⟩
  | _ => cases resolves

theorem resolveItems_eq_ok {defs : PyData} : ∀ {items resolved : List PyData},
    resolveItems defs items = .ok resolved ↔
      List.Forall₂ (fun item after => resolveRefs defs item = .ok after) items resolved
  | [], resolved => by
    rw [resolveItems, List.forall₂_nil_left_iff]
    exact ⟨fun same => (Except.ok.inj same).symm, fun same => by rw [same]⟩
  | item :: items, resolved => by
    rw [resolveItems, bind_eq_ok, List.forall₂_cons_left_iff]
    constructor
    · rintro ⟨after, first, later⟩
      obtain ⟨others, rest, same⟩ := bind_eq_ok.mp later
      cases same
      exact ⟨after, others, first, resolveItems_eq_ok.mp rest, rfl⟩
    · rintro ⟨after, others, first, rest, rfl⟩
      exact ⟨after, first, bind_eq_ok.mpr ⟨others, resolveItems_eq_ok.mpr rest, rfl⟩⟩

theorem resolveMembers_eq_ok {defs : PyData} : ∀ {members resolved : Members},
    resolveMembers defs members = .ok resolved ↔ List.Forall₂
      (fun member after => member.1 = after.1 ∧ resolveRefs defs member.2 = .ok after.2) members resolved
  | [], resolved => by
    rw [resolveMembers, List.forall₂_nil_left_iff]
    exact ⟨fun same => (Except.ok.inj same).symm, fun same => by rw [same]⟩
  | (name, value) :: members, resolved => by
    rw [resolveMembers, bind_eq_ok, List.forall₂_cons_left_iff]
    constructor
    · rintro ⟨after, first, later⟩
      obtain ⟨others, rest, same⟩ := bind_eq_ok.mp later
      cases same
      exact ⟨(name, after), others, ⟨rfl, first⟩, resolveMembers_eq_ok.mp rest, rfl⟩
    · rintro ⟨⟨name', after⟩, others, ⟨same, first⟩, rest, rfl⟩
      cases same
      exact ⟨after, first, bind_eq_ok.mpr ⟨others, resolveMembers_eq_ok.mpr rest, rfl⟩⟩

/-- A member and what it is resolved to. -/
theorem lookup_resolved {defs : PyData} {members resolved : Members} (name : String)
    (resolves : List.Forall₂
      (fun member after => member.1 = after.1 ∧ resolveRefs defs member.2 = .ok after.2) members resolved) :
    (members.lookup name = none ∧ resolved.lookup name = none) ∨ ∃ value after,
      members.lookup name = some value ∧ resolved.lookup name = some after ∧
        resolveRefs defs value = .ok after := by
  induction resolves with
  | nil => exact .inl ⟨rfl, rfl⟩
  | @cons member after members resolved first rest ih =>
    rw [List.lookup_cons, List.lookup_cons, ← first.1]
    cases name == member.1 with
    | true => exact .inr ⟨_, _, rfl, rfl, first.2⟩
    | false => exact ih

end Resolve

/-! ### Inlining -/

/-- **Every reference is replaced by its definition**, with the members beside it, and so are the
references in what it is replaced by. -/
inductive Inlines (defs : Members) : PyData → PyData → Prop
  | leaf (value : PyData) (noItems : value.asList = none) (noMembers : value.asDict = none) :
    Inlines defs value value
  | list {items inlined : List PyData} (each : List.Forall₂ (Inlines defs) items inlined) :
    Inlines defs (.list items) (.list inlined)
  | members {members inlined : Members} (noRef : reference defs members = none)
    (names : inlined.map Prod.fst = members.map Prod.fst)
    (each : List.Forall₂ (Inlines defs) (members.map Prod.snd) (inlined.map Prod.snd)) :
    Inlines defs (.dict members) (.dict inlined)
  | reference {members : Members} {definition whole inlined : PyData}
    (isRef : reference defs members = some definition) (overlays : overlay definition members = .ok whole)
    (later : Inlines defs whole inlined) : Inlines defs (.dict members) inlined

/-- There is no reference to a definition. -/
def NoReferences (defs : Members) : PyData → Prop :=
  Meets (fun _ => true) fun members => reference defs members = none

/-- Every `$ref` outside references is a text, and what a reference is replaced by has a property. -/
def Replaces (defs : Members) (good : PyData → Prop) : PyData → Prop :=
  Meets (fun members => (reference defs members).isNone) fun members => RefIsText members ∧
    ∀ definition, reference defs members = some definition → ∃ whole, overlay definition members
      = .ok whole ∧ good whole

section Inline

variable {defs : Members}

theorem inlines_self {value : PyData} (noRefs : NoReferences defs value) : Inlines defs value value := by
  induction value using PyData.induct with
  | onLeaf value noItems noMembers => exact .leaf value noItems noMembers
  | onList items ih =>
    have each := (PyData.meets_list items).mp noRefs
    exact .list (List.forall₂_same.mpr fun item among => ih item among (each item among))
  | onDict members ih =>
    obtain ⟨noRef, each⟩ := (PyData.meets_dict members).mp noRefs
    refine .members noRef rfl (List.forall₂_same.mpr fun value among => ?_)
    obtain ⟨member, isMember, rfl⟩ := List.mem_map.mp among
    exact ih member isMember (each rfl member isMember)

theorem exists_forall₂ {α β : Type} {related : α → β → Prop} (items : List α) :
    (∃ images, List.Forall₂ related items images) ↔ ∀ item ∈ items, ∃ image, related item image := by
  induction items with
  | nil => exact iff_of_true ⟨[], .nil⟩ fun _ among => absurd among List.not_mem_nil
  | cons item items ih =>
    rw [List.forall_mem_cons, ← ih]
    constructor
    · rintro ⟨images, related'⟩
      obtain ⟨image, others, first, rest, rfl⟩ := List.forall₂_cons_left_iff.mp related'
      exact ⟨⟨image, first⟩, others, rest⟩
    · rintro ⟨⟨image, first⟩, others, rest⟩
      exact ⟨image :: others, .cons first rest⟩

/-- What holds of each item and its image holds of the lists. -/
theorem forall₂_images {α β : Type} {related linked : α → β → Prop} {good : α → Prop} {fine : β → Prop}
    {items : List α} {images : List β} (each : List.Forall₂ related items images) :
    (∀ item ∈ items, ∀ image, related item image → (fine image ↔ good item) ∧
      (good item → linked item image)) →
      ((∀ image ∈ images, fine image) ↔ ∀ item ∈ items, good item) ∧
        ((∀ item ∈ items, good item) → List.Forall₂ linked items images) := by
  induction each with
  | nil =>
    exact fun _ => ⟨iff_of_true (fun _ among => absurd among List.not_mem_nil)
      fun _ among => absurd among List.not_mem_nil, fun _ => .nil⟩
  | cons first rest ih =>
    intro known
    obtain ⟨here, link⟩ := known _ List.mem_cons_self _ first
    obtain ⟨later, others⟩ := ih fun item among => known item (List.mem_cons_of_mem _ among)
    rw [List.forall_mem_cons, List.forall_mem_cons, here, later]
    exact ⟨Iff.rfl, fun both => .cons (link both.1) (others both.2)⟩

theorem resolveRefs_list_eq_ok {items : List PyData} {resolved : PyData} :
    resolveRefs (.dict defs) (.list items) = .ok resolved ↔ ∃ after, resolved = .list after ∧
      List.Forall₂ (fun item after => resolveRefs (.dict defs) item = .ok after) items after := by
  rw [resolveRefs, bind_eq_ok]
  constructor
  · rintro ⟨after, each, same⟩
    exact ⟨after, (Except.ok.inj same).symm, resolveItems_eq_ok.mp each⟩
  · rintro ⟨after, rfl, each⟩
    exact ⟨after, resolveItems_eq_ok.mpr each, rfl⟩

theorem resolveRefs_members_eq_ok {members : Members} {resolved : PyData} (isText : RefIsText members)
    (noRef : reference defs members = none) : resolveRefs (.dict defs) (.dict members) = .ok resolved ↔
      ∃ after, resolved = .dict after ∧ List.Forall₂ (fun member after =>
        member.1 = after.1 ∧ resolveRefs (.dict defs) member.2 = .ok after.2) members after := by
  rw [resolveRefs_members isText noRef, bind_eq_ok]
  constructor
  · rintro ⟨after, each, same⟩
    exact ⟨after, (Except.ok.inj same).symm, resolveMembers_eq_ok.mp each⟩
  · rintro ⟨after, rfl, each⟩
    exact ⟨after, resolveMembers_eq_ok.mpr each, rfl⟩

theorem resolveRefs_leaf {value : PyData} (noItems : value.asList = none)
    (noMembers : value.asDict = none) :
    resolveRefs (.dict defs) value = .ok value := by
  cases value with
  | list items => cases noItems
  | dict members => cases noMembers
  | _ => rfl

/-- **What is resolved**: every `$ref` that is met is a text, and every definition can be overlaid. -/
theorem resolveRefs_accepts (value : PyData) : (∃ resolved, resolveRefs (.dict defs) value = .ok resolved) ↔
    Replaces defs (fun _ => True) value := by
  induction value using PyData.induct with
  | onLeaf value noItems noMembers =>
    exact iff_of_true ⟨value, resolveRefs_leaf noItems noMembers⟩ (PyData.meets_leaf noItems noMembers)
  | onList items ih =>
    have each : (∃ resolved, resolveRefs (.dict defs) (.list items) = .ok resolved) ↔
        ∀ item ∈ items, ∃ after, resolveRefs (.dict defs) item = .ok after := by
      rw [← exists_forall₂]
      constructor
      · rintro ⟨resolved, resolves⟩
        obtain ⟨after, -, each⟩ := resolveRefs_list_eq_ok.mp resolves
        exact ⟨after, each⟩
      · rintro ⟨after, each⟩
        exact ⟨_, resolveRefs_list_eq_ok.mpr ⟨after, rfl, each⟩⟩
    rw [each, Replaces, PyData.meets_list]
    exact forall₂_congr ih
  | onDict members ih =>
    rw [Replaces, PyData.meets_dict]
    by_cases isText : RefIsText members
    swap
    · refine iff_of_false ?_ fun both => isText both.1.1
      rintro ⟨resolved, resolves⟩
      exact isText (refIsText_of_resolved resolves)
    cases isRef : reference defs members with
    | some definition =>
      rw [resolveRefs_reference isRef]
      constructor
      · rintro ⟨whole, overlays⟩
        refine ⟨⟨isText, fun other same => ?_⟩, fun enters => by cases enters⟩
        cases same
        exact ⟨whole, overlays, trivial⟩
      · rintro ⟨⟨-, replaces⟩, -⟩
        obtain ⟨whole, overlays, -⟩ := replaces definition rfl
        exact ⟨whole, overlays⟩
    | none =>
      have each : (∃ resolved, resolveRefs (.dict defs) (.dict members) = .ok resolved) ↔
          ∀ member ∈ members, ∃ after, resolveRefs (.dict defs) member.2 = .ok after := by
        have both (member : String × PyData) : (∃ after, resolveRefs (.dict defs) member.2 = .ok after) ↔
            ∃ after : String × PyData, member.1 = after.1 ∧ resolveRefs (.dict defs) member.2
              = .ok after.2 :=
          ⟨fun ⟨after, resolves⟩ => ⟨(member.1, after), rfl, resolves⟩, fun ⟨after, _, resolves⟩ =>
            ⟨_, resolves⟩⟩
        simp only [both, ← exists_forall₂]
        constructor
        · rintro ⟨resolved, resolves⟩
          obtain ⟨after, -, each⟩ := (resolveRefs_members_eq_ok isText isRef).mp resolves
          exact ⟨after, each⟩
        · rintro ⟨after, each⟩
          exact ⟨_, (resolveRefs_members_eq_ok isText isRef).mpr ⟨after, rfl, each⟩⟩
      rw [each]
      constructor
      · exact fun resolves => ⟨⟨isText, fun _ same => by cases same⟩,
          fun _ member among => (ih member among).mp (resolves member among)⟩
      · exact fun both member among => (ih member among).mpr (both.2 rfl member among)

theorem reference_resolved {members after : Members} (isText : RefIsText members)
    (noRef : reference defs members = none) (each : List.Forall₂ (fun member after =>
      member.1 = after.1 ∧ resolveRefs (.dict defs) member.2 = .ok after.2) members after) :
    reference defs after = none := by
  rw [reference] at noRef ⊢
  rcases lookup_resolved "$ref" each with ⟨-, absent⟩ | ⟨value, resolved, found, found', resolves⟩
  · rw [absent]
  · obtain ⟨target, rfl⟩ := isText value found
    cases resolves
    rw [found] at noRef
    rw [found']
    exact noRef

/-- **What is resolved is without references** just when what each reference is replaced by is, and
then it is inlined. -/
theorem resolveRefs_inlines {value : PyData} : ∀ {resolved : PyData},
    resolveRefs (.dict defs) value = .ok resolved →
      (NoReferences defs resolved ↔ Replaces defs (NoReferences defs) value) ∧
        (Replaces defs (NoReferences defs) value → Inlines defs value resolved) := by
  induction value using PyData.induct with
  | onLeaf value noItems noMembers =>
    intro resolved resolves
    rw [resolveRefs_leaf noItems noMembers] at resolves
    cases resolves
    exact ⟨iff_of_true (PyData.meets_leaf noItems noMembers) (PyData.meets_leaf noItems noMembers),
      fun _ => .leaf value noItems noMembers⟩
  | onList items ih =>
    intro resolved resolves
    obtain ⟨after, rfl, each⟩ := resolveRefs_list_eq_ok.mp resolves
    obtain ⟨same, inlines⟩ := forall₂_images each fun item among image resolves => ih item among resolves
    rw [NoReferences, Replaces, PyData.meets_list, PyData.meets_list]
    exact ⟨same, fun good => .list (inlines good)⟩
  | onDict members ih =>
    intro resolved resolves
    have isText := refIsText_of_resolved resolves
    rw [Replaces, PyData.meets_dict]
    cases isRef : reference defs members with
    | some definition =>
      rw [resolveRefs_reference isRef] at resolves
      constructor
      · constructor
        · intro noRefs
          refine ⟨⟨isText, fun other same => ?_⟩, fun enters => by cases enters⟩
          cases same
          exact ⟨resolved, resolves, noRefs⟩
        · rintro ⟨⟨-, replaces⟩, -⟩
          obtain ⟨whole, overlays, noRefs⟩ := replaces definition rfl
          rw [overlays] at resolves
          cases resolves
          exact noRefs
      · rintro ⟨⟨-, replaces⟩, -⟩
        obtain ⟨whole, overlays, noRefs⟩ := replaces definition rfl
        rw [overlays] at resolves
        cases resolves
        exact .reference isRef overlays (inlines_self noRefs)
    | none =>
      obtain ⟨after, rfl, each⟩ := (resolveRefs_members_eq_ok isText isRef).mp resolves
      have noRef := reference_resolved isText isRef each
      obtain ⟨same, inlines⟩ := @forall₂_images _ _ _
        (fun member image : String × PyData => member.1 = image.1 ∧ Inlines defs member.2 image.2)
        (fun member => Replaces defs (NoReferences defs) member.2)
          (fun image => NoReferences defs image.2) _ _ each
        fun member among image resolves => ⟨(ih member among resolves.2).1,
          fun good => ⟨resolves.1, (ih member among resolves.2).2 good⟩⟩
      rw [NoReferences, PyData.meets_dict]
      constructor
      · constructor
        · exact fun both => ⟨⟨isText, fun _ same => by cases same⟩, fun _ => same.mp (both.2 rfl)⟩
        · exact fun both => ⟨noRef, fun _ => same.mpr (both.2 rfl)⟩
      · intro both
        have each' := inlines (both.2 rfl)
        refine .members isRef ?_ ?_
        · rw [← List.forall₂_eq_eq_eq, List.forall₂_map_left_iff, List.forall₂_map_right_iff]
          exact each'.flip.imp fun _ _ both => both.1.symm
        · rw [List.forall₂_map_left_iff, List.forall₂_map_right_iff]
          exact each'.imp fun _ _ both => both.2

end Inline

/-! ### The schema of a function -/

/-- **A function whose parameters have definitions**, none of which is null. -/
structure IsFunction (jsonDict parameters defs : Members) : Prop where
  hasParameters : jsonDict.lookup "parameters" = some (.dict parameters)
  hasDefs : parameters.lookup "defs" = some (.dict defs)
  noRef : jsonDict.lookup "$ref" = none
  areSchemas : ∀ entry ∈ defs, entry.2 ≠ .none

/-- The parameters without the definitions. -/
def withoutDefs (parameters : Members) : PyData := .dict (parameters.filter fun entry => entry.1 != "defs")

section Schema

variable {jsonDict parameters defs : Members}

theorem takeDefs_runs (isFunction : IsFunction jsonDict parameters defs) : takeDefs jsonDict
    = .ok (.dict defs, Dict.setEntries "parameters" (withoutDefs parameters) jsonDict) := by
  rw [takeDefs, isFunction.hasParameters]
  dsimp only
  rw [hasKey_dict, isFunction.hasDefs]
  rfl

/-- The schema that is returned is what the parameters are resolved to. -/
theorem renameParameters_schema {function : Members} {schema : PyData}
    (found : function.lookup "parameters" = some schema)
    (given : schema ≠ .none) : ∃ result, renameParameters (.dict function) = .ok result ∧
      result.part "input_schema" = some schema := by
  rw [renameParameters, hasKey_dict, found]
  refine ⟨_, rfl, ?_⟩
  show List.lookup "input_schema" (Dict.setEntries "input_schema" _ _) = _
  rw [Dict.lookup_setEntries, if_pos rfl]
  cases schema with
  | none => exact absurd rfl given
  | _ => rfl

theorem overlay_whole {definition whole : PyData} {members : Members}
    (overlays : overlay definition members = .ok whole) : whole = definition ∨ ∃ entries, whole
      = .dict entries := by
  unfold overlay at overlays
  dsimp only at overlays
  split at overlays
  · exact .inr ⟨_, (Except.ok.inj overlays).symm⟩
  · split_ifs at overlays
    exact .inl (Except.ok.inj overlays).symm

theorem resolved_given {members : Members} {schema : PyData} (areSchemas : ∀ entry ∈ defs, entry.2 ≠ .none)
    (resolves : resolveRefs (.dict defs) (.dict members) = .ok schema) : schema ≠ .none := by
  cases isRef : reference defs members with
  | none =>
    obtain ⟨after, rfl, -⟩ := (resolveRefs_members_eq_ok (refIsText_of_resolved resolves) isRef).mp resolves
    exact fun same => by cases same
  | some definition =>
    rw [resolveRefs_reference isRef] at resolves
    have given : definition ≠ .none := by
      rw [reference] at isRef
      split at isRef
      · split_ifs at isRef
        obtain ⟨entry, found, rfl⟩ := Option.map_eq_some_iff.mp isRef
        exact areSchemas entry (List.mem_of_find?_eq_some found)
      · cases isRef
    rcases overlay_whole resolves with rfl | ⟨entries, rfl⟩
    · exact given
    · exact fun same => by cases same

/-- What a function with resolved members has for its schema. -/
theorem gpt2claudeToolsJson_schema (isFunction : IsFunction jsonDict parameters defs) :
    (∀ result, gpt2claudeToolsJson jsonDict = .ok result → ∃ schema,
      result.part "input_schema" = some schema ∧ resolveRefs (.dict defs) (withoutDefs parameters)
        = .ok schema) ∧
    ((∃ result, gpt2claudeToolsJson jsonDict = .ok result) ↔
      Replaces defs (fun _ => True) (.dict (Dict.setEntries "parameters"
        (withoutDefs parameters) jsonDict))) := by
  have noRef' : (Dict.setEntries "parameters" (withoutDefs parameters) jsonDict).lookup "$ref" = none := by
    rw [Dict.lookup_setEntries, if_neg (by decide), isFunction.noRef]
  have isText : RefIsText (Dict.setEntries "parameters" (withoutDefs parameters) jsonDict) :=
      fun value found => by
    rw [noRef'] at found
    cases found
  have noRef : reference defs (Dict.setEntries "parameters" (withoutDefs parameters) jsonDict) = none := by
    rw [reference, noRef']
  have runs : gpt2claudeToolsJson jsonDict = resolveRefs (.dict defs)
      (.dict (Dict.setEntries "parameters" (withoutDefs parameters) jsonDict)) >>= renameParameters := by
    rw [gpt2claudeToolsJson, takeDefs_runs isFunction]
    rfl
  -- what the members are resolved to has the resolved parameters
  have schemaOf {resolved : PyData} (resolves : resolveRefs (.dict defs)
      (.dict (Dict.setEntries "parameters" (withoutDefs parameters) jsonDict)) = .ok resolved) :
        ∃ result schema,
      renameParameters resolved = .ok result ∧ result.part "input_schema" = some schema ∧
        resolveRefs (.dict defs) (withoutDefs parameters) = .ok schema := by
    obtain ⟨after, rfl, each⟩ := (resolveRefs_members_eq_ok isText noRef).mp resolves
    rcases lookup_resolved "parameters" each with ⟨absent, -⟩ | ⟨value, schema, found, found', resolves'⟩
    · rw [Dict.lookup_setEntries, if_pos rfl] at absent
      cases absent
    · rw [Dict.lookup_setEntries, if_pos rfl] at found
      cases found
      obtain ⟨result, renames, isSchema⟩ := renameParameters_schema found'
        (resolved_given isFunction.areSchemas resolves')
      exact ⟨result, schema, renames, isSchema, resolves'⟩
  rw [runs, ← resolveRefs_accepts]
  constructor
  · intro result ends
    obtain ⟨resolved, resolves, renames⟩ := bind_eq_ok.mp ends
    obtain ⟨result', schema, renames', isSchema, resolves'⟩ := schemaOf resolves
    rw [renames] at renames'
    cases renames'
    exact ⟨schema, isSchema, resolves'⟩
  · constructor
    · rintro ⟨result, ends⟩
      obtain ⟨resolved, resolves, -⟩ := bind_eq_ok.mp ends
      exact ⟨resolved, resolves⟩
    · rintro ⟨resolved, resolves⟩
      obtain ⟨result, -, renames, -⟩ := schemaOf resolves
      exact ⟨result, bind_eq_ok.mpr ⟨resolved, resolves, renames⟩⟩

/-- **The schema of a function is inlined** just when everything that is met can be resolved, and no
reference in the parameters is replaced by something with a reference in it. -/
theorem schema_inlined_iff (isFunction : IsFunction jsonDict parameters defs) :
    (∃ result schema, gpt2claudeToolsJson jsonDict = .ok result ∧ result.part "input_schema" = some schema ∧
      NoReferences defs schema ∧ Inlines defs (withoutDefs parameters) schema) ↔
    Replaces defs (fun _ => True) (.dict (Dict.setEntries "parameters" (withoutDefs parameters) jsonDict)) ∧
      Replaces defs (NoReferences defs) (withoutDefs parameters) := by
  obtain ⟨schemaOf, accepts⟩ := gpt2claudeToolsJson_schema isFunction
  rw [← accepts]
  constructor
  · rintro ⟨result, schema, ends, isSchema, noRefs, -⟩
    obtain ⟨schema', isSchema', resolves⟩ := schemaOf result ends
    rw [isSchema] at isSchema'
    cases isSchema'
    exact ⟨⟨result, ends⟩, (resolveRefs_inlines resolves).1.mp noRefs⟩
  · rintro ⟨⟨result, ends⟩, replaces⟩
    obtain ⟨schema, isSchema, resolves⟩ := schemaOf result ends
    obtain ⟨same, inlines⟩ := resolveRefs_inlines resolves
    exact ⟨result, schema, ends, isSchema, same.mpr replaces, inlines replaces⟩

/-! A reference with a title is inlined, and a reference in a definition is left. -/

/-- The reference to a definition. -/
def refTo (name : String) (members : Members) : PyData :=
    .dict (("$ref", lit ("#/$defs/" ++ name)) :: members)

/-- A text. -/
def textSchema : PyData := .dict [("type", lit "string")]

/-- An object with one property. -/
def objectSchema (property : PyData) : PyData :=
  .dict [("type", lit "object"), ("properties", .dict [("key", property)])]

/-- Parameters with one property. -/
def parametersOf (property : PyData) (defs : Members) : Members :=
  [("type", lit "object"), ("properties", .dict [("key", property)]), ("defs", .dict defs)]

theorem schema_inlined_iff_title : ∃ result schema,
    gpt2claudeToolsJson [("name", lit "find"),
        ("parameters", .dict (parametersOf (refTo "A" [("title", lit "t")]) [("A", textSchema)]))]
          = .ok result ∧
      result.part "input_schema" = some schema ∧ NoReferences [("A", textSchema)] schema ∧
        Inlines [("A", textSchema)] (withoutDefs
          (parametersOf (refTo "A" [("title", lit "t")]) [("A", textSchema)]))
          schema := by
  have isFunction : IsFunction [("name", lit "find"),
      ("parameters", .dict (parametersOf (refTo "A" [("title", lit "t")]) [("A", textSchema)]))]
      (parametersOf (refTo "A" [("title", lit "t")]) [("A", textSchema)]) [("A", textSchema)] := by
    refine ⟨rfl, rfl, rfl, fun entry among => ?_⟩
    rw [List.mem_singleton.mp among]
    exact fun same => by cases same
  refine (schema_inlined_iff isFunction).mpr ⟨(resolveRefs_accepts _).mp ⟨_, rfl⟩, ?_⟩
  refine (@resolveRefs_inlines _ _ (objectSchema
    (.dict [("type", lit "string"), ("title", lit "t")])) rfl).1.mp ?_
  exact ⟨rfl, fun _ => ⟨trivial, ⟨rfl, fun _ =>
    ⟨⟨rfl, fun _ => ⟨trivial, trivial, trivial⟩⟩, trivial⟩⟩, trivial⟩⟩

theorem nested_reference_left : ∃ defs parameters jsonDict, IsFunction jsonDict parameters defs ∧
    (∃ full, Inlines defs (withoutDefs parameters) full ∧ NoReferences defs full) ∧ ∃ result schema,
      gpt2claudeToolsJson jsonDict = .ok result ∧ result.part "input_schema" = some schema ∧
        ¬ NoReferences defs schema := by
  refine ⟨[("A", objectSchema (refTo "B" [])), ("B", textSchema)],
    parametersOf (refTo "A" []) [("A", objectSchema (refTo "B" [])), ("B", textSchema)],
    [("name", lit "find"), ("parameters", .dict (parametersOf (refTo "A" [])
      [("A", objectSchema (refTo "B" [])), ("B", textSchema)]))], ?_, ?_, ?_⟩
  · refine ⟨rfl, rfl, rfl, fun entry among => ?_⟩
    rcases List.mem_cons.mp among with rfl | last
    · exact fun same => by cases same
    · rw [List.mem_singleton.mp last]
      exact fun same => by cases same
  · have text : Inlines [("A", objectSchema (refTo "B" [])), ("B", textSchema)] (refTo "B" []) textSchema :=
      .reference rfl rfl (.members rfl rfl (.cons (.leaf _ rfl rfl) .nil))
    have object : Inlines [("A", objectSchema (refTo "B" [])), ("B", textSchema)] (refTo "A" [])
        (objectSchema textSchema) :=
      .reference rfl rfl (.members rfl rfl (.cons (.leaf _ rfl rfl)
        (.cons (.members rfl rfl (.cons text .nil)) .nil)))
    exact ⟨objectSchema (objectSchema textSchema), .members rfl rfl (.cons (.leaf _ rfl rfl)
      (.cons (.members rfl rfl (.cons object .nil)) .nil)), rfl, fun _ => ⟨trivial, ⟨rfl, fun _ =>
        ⟨⟨rfl, fun _ => ⟨trivial, ⟨rfl, fun _ => ⟨⟨rfl, fun _ => ⟨trivial, trivial⟩⟩, trivial⟩⟩, trivial⟩⟩,
          trivial⟩⟩, trivial⟩⟩
  · refine ⟨_, objectSchema (objectSchema (refTo "B" [])), rfl, rfl, ?_⟩
    rintro ⟨-, later⟩
    obtain ⟨-, ⟨-, later⟩, -⟩ := later rfl
    obtain ⟨⟨-, later⟩, -⟩ := later rfl
    obtain ⟨-, ⟨-, later⟩, -⟩ := later rfl
    obtain ⟨⟨noRef, -⟩, -⟩ := later rfl
    cases noRef

end Schema

end UniApi.Providers.ToolReferences
