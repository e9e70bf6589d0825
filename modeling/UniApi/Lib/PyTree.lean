/-
**Python values as trees.**

The parts of a list are its items, and those of an object its values. A traversal meets the objects of a
value from the outside in, and enters those that it does not stop at.

* `PyData.induct`: induction on the parts of a value;
* `Meets`, `meets_list`, `meets_dict`: every object that a traversal meets has a property.
-/

import UniApi.Lib.PyData

namespace UniApi.Lib.PyData

/-- The members of an object. -/
abbrev Members := List (String × PyData)

/-- **Induction on the parts of a value.** -/
@[elab_as_elim]
theorem induct {motive : PyData → Prop}
    (onLeaf : ∀ value, value.asList = Option.none → value.asDict = Option.none → motive value)
    (onList : ∀ items, (∀ item ∈ items, motive item) → motive (.list items))
    (onDict : ∀ members, (∀ member ∈ members, motive member.2) → motive (.dict members)) :
    ∀ value, motive value
  | .list items => onList items fun item _ => induct onLeaf onList onDict item
  | .dict members => onDict members fun member _ => induct onLeaf onList onDict member.2
  | .none => onLeaf .none rfl rfl
  | .bool value => onLeaf (.bool value) rfl rfl
  | .int value => onLeaf (.int value) rfl rfl
  | .float value => onLeaf (.float value) rfl rfl
  | .str text => onLeaf (.str text) rfl rfl
termination_by value => sizeOf value
decreasing_by
  · have smaller := List.sizeOf_lt_of_mem ‹item ∈ items›
    rw [PyData.list.sizeOf_spec]
    omega
  · have smaller := List.sizeOf_lt_of_mem ‹member ∈ members›
    obtain ⟨name, value⟩ := member
    rw [PyData.dict.sizeOf_spec]
    rw [Prod.mk.sizeOf_spec] at smaller
    dsimp only
    omega

/-! ### Traversals -/

mutual

/-- Every object that the traversal meets is good. -/
def Meets (enters : Members → Bool) (good : Members → Prop) : PyData → Prop
  | dict members => good members ∧ (enters members = true → MeetsMembers enters good members)
  | list items => MeetsItems enters good items
  | _ => True

def MeetsItems (enters : Members → Bool) (good : Members → Prop) : List PyData → Prop
  | [] => True
  | item :: items => Meets enters good item ∧ MeetsItems enters good items

def MeetsMembers (enters : Members → Bool) (good : Members → Prop) : Members → Prop
  | [] => True
  | (_, value) :: members => Meets enters good value ∧ MeetsMembers enters good members

end

section Meets

variable {enters : Members → Bool} {good : Members → Prop}

theorem meetsItems_iff (items : List PyData) :
    MeetsItems enters good items ↔ ∀ item ∈ items, Meets enters good item := by
  induction items with
  | nil => exact iff_of_true trivial fun _ among => absurd among List.not_mem_nil
  | cons item items ih => rw [MeetsItems, ih, List.forall_mem_cons]

theorem meetsMembers_iff (members : Members) :
    MeetsMembers enters good members ↔ ∀ member ∈ members, Meets enters good member.2 := by
  induction members with
  | nil => exact iff_of_true trivial fun _ among => absurd among List.not_mem_nil
  | cons member members ih => rw [MeetsMembers, ih, List.forall_mem_cons]

theorem meets_list (items : List PyData) :
    Meets enters good (.list items) ↔ ∀ item ∈ items, Meets enters good item := by
  rw [Meets, meetsItems_iff]

theorem meets_dict (members : Members) : Meets enters good (.dict members) ↔
    good members ∧ (enters members = true → ∀ member ∈ members, Meets enters good member.2) := by
  rw [Meets, meetsMembers_iff]

theorem meets_leaf {value : PyData} (noItems : value.asList = Option.none)
    (noMembers : value.asDict = Option.none) : Meets enters good value := by
  cases value with
  | list items => cases noItems
  | dict members => cases noMembers
  | _ => trivial

end Meets

end UniApi.Lib.PyData
