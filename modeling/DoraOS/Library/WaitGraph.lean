import Mathlib.Logic.Relation
import Mathlib.Order.Preorder.Finite

/-! Processes that wait for resources of which each has at most one owner. -/
namespace WaitGraph

variable {P R : Type} {owner : R → Option P} {waits : P → R → Prop}

/-- `p` waits for something that `p'` owns. -/
def Awaits (owner : R → Option P) (waits : P → R → Prop) (p p' : P) : Prop :=
  ∃ r, waits p r ∧ owner r = some p'

/-- If every process waits above all that it owns, and for something that is
owned, then nobody waits in vain: the chain of owners leads to a process that
does not wait. -/
theorem exists_last {α : Type} [Preorder α] (rank : R → α)
    (hOwned : ∀ p r, waits p r → ∃ o, owner r = some o)
    (hAbove : ∀ p r r', waits p r → owner r' = some p → rank r' < rank r)
    (hFinite : {r | owner r ≠ none}.Finite) {p : P} {r : R} (h : waits p r) :
    ∃ o, Relation.TransGen (Awaits owner waits) p o ∧ ∀ r, ¬waits o r := by
  -- what the processes that `p` awaits own
  let held : Set R := {r | ∃ o, Relation.TransGen (Awaits owner waits) p o ∧ owner r = some o}
  have hHeld : held.Finite := by
    refine hFinite.subset ?_
    rintro r' ⟨o, -, ho⟩
    simp [ho]
  have hSome : held.Nonempty := by
    obtain ⟨o, ho⟩ := hOwned p r h
    exact ⟨r, o, .single ⟨r, h, ho⟩, ho⟩
  obtain ⟨top, ⟨o, hChain, ho⟩, hTop⟩ := hHeld.exists_maximalFor rank held hSome
  refine ⟨o, hChain, ?_⟩
  intro r' hWaits
  obtain ⟨o', ho'⟩ := hOwned o r' hWaits
  have hLess := hAbove o r' top hWaits ho
  exact hLess.not_ge (hTop ⟨o', hChain.tail ⟨r', hWaits, ho'⟩, ho'⟩ hLess.le)

end WaitGraph
