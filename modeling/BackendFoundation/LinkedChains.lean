import Mathlib.Data.List.Basic

/-! Chains: lists in which every element names the one after it and the last
names none. A chain grows at its end, where the last element is given a
successor, and keeps its shape under changes that leave names alone. -/
namespace BackendFoundation.LinkedChains

variable {α κ : Type} (id : α → κ) (next : α → Option κ)

/-- Each element names its successor; the last one names none. -/
def Linked : List α → Prop
  | [] => False
  | [last] => next last = none
  | first :: second :: rest => next first = some (id second) ∧ Linked (second :: rest)

variable {id next}

/-- A chain is its last element behind the elements that have successors. -/
theorem linked_split : ∀ {items : List α}, Linked id next items →
    ∃ init last, items = init ++ [last] ∧ next last = none ∧ ∀ item ∈ init, (next item).isSome
  | [last], ended => ⟨[], last, rfl, ended, fun _ never => absurd never List.not_mem_nil⟩
  | first :: second :: rest, ⟨named, linked⟩ => by
    obtain ⟨init, last, same, ended, inner⟩ := linked_split linked
    refine ⟨first :: init, last, by rw [same, List.cons_append], ended, fun item member => ?_⟩
    rcases List.mem_cons.mp member with rfl | inside
    · rw [named]
      rfl
    · exact inner item inside

/-- What an element names is an element of the chain. -/
theorem linked_successor {item : α} {name : κ} : ∀ {items : List α}, Linked id next items →
    item ∈ items → next item = some name → ∃ other ∈ items, id other = name
  | [last], ended, member, named => by
    rw [List.mem_singleton.mp member, ended] at named
    cases named
  | first :: second :: rest, ⟨first_named, linked⟩, member, named => by
    rcases List.mem_cons.mp member with rfl | inside
    · rw [first_named] at named
      exact ⟨second, by simp, Option.some.inj named⟩
    · obtain ⟨other, here, same⟩ := linked_successor linked inside named
      exact ⟨other, List.mem_cons_of_mem _ here, same⟩

/-- Changing elements without changing names or links. -/
theorem linked_map (change : α → α) : ∀ {items : List α}, Linked id next items →
    (∀ item ∈ items, id (change item) = id item ∧ next (change item) = next item) →
    Linked id next (items.map change)
  | [last], ended, same => (same last List.mem_cons_self).2.trans ended
  | first :: second :: rest, ⟨named, linked⟩, same => by
    refine ⟨?_, linked_map change linked fun item member => same item (List.mem_cons_of_mem _ member)⟩
    rw [(same first List.mem_cons_self).2, named, (same second (by simp)).1]

/-- The last element gets a successor. -/
theorem linked_extend {last changed new : α} (same : id changed = id last)
    (named : next changed = some (id new)) (ended : next new = none) :
    ∀ {init : List α}, Linked id next (init ++ [last]) → Linked id next (init ++ [changed, new])
  | [], _ => ⟨named, ended⟩
  | [_], ⟨first_named, _⟩ => ⟨by rw [first_named, same], named, ended⟩
  | _ :: second :: rest, ⟨first_named, linked⟩ => by
    have inner : Linked id next ((second :: rest) ++ [last]) := linked
    exact ⟨first_named, linked_extend same named ended inner⟩

end BackendFoundation.LinkedChains
