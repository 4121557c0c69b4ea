/-! # Stores

Objects that several others can hold stand at places in a store. A new object is put at a new place,
so those that were there before stay as they are unless one is written to.
-/

namespace AdfMarkdown

/-- Objects by their places, counted from zero. -/
structure Store (α : Type) where
  objects : List α
  deriving Repr, Inhabited

namespace Store

variable {α : Type}

def get? (σ : Store α) (place : Nat) : Option α := σ.objects[place]?

def next (σ : Store α) : Nat := σ.objects.length

def add (σ : Store α) (x : α) : Store α := ⟨σ.objects ++ [x]⟩

def modify (σ : Store α) (place : Nat) (f : α → α) : Store α := ⟨σ.objects.modify place f⟩

/-- Every object of the one store is in the other, at the same place. -/
def Extends (σ τ : Store α) : Prop := ∀ ⦃p x⦄, σ.get? p = some x → τ.get? p = some x

theorem Extends.refl (σ : Store α) : σ.Extends σ := fun _ _ hp => hp

theorem Extends.trans {σ τ υ : Store α} (h : σ.Extends τ) (h' : τ.Extends υ) : σ.Extends υ :=
  fun _ _ hp => h' (h hp)

theorem extends_add (σ : Store α) (x : α) : σ.Extends (σ.add x) := by
  intro p y hp
  obtain ⟨hlt, -⟩ := List.getElem?_eq_some_iff.mp hp
  rw [get?, add, List.getElem?_append_left hlt]
  exact hp

theorem get?_next_add (σ : Store α) (x : α) : (σ.add x).get? σ.next = some x :=
  List.getElem?_concat_length

/-- Writing to the object that was added last is adding what is written. -/
theorem modify_add (σ : Store α) (x : α) (f : α → α) :
    (σ.add x).modify σ.next f = σ.add (f x) := by
  rw [modify, add, next, List.modify_eq_take_drop, List.take_left, List.drop_left]
  rfl

end Store

end AdfMarkdown
