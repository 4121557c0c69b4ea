import AdfMarkdown.Store
import AdfMarkdown.Token.Inline

/-! # Nodes in a store

Lists can share nodes, and one list can hold a node more than once. Such a list is a list of places
in a store of nodes. Consolidation puts each run that it makes into a new place.
-/

namespace AdfMarkdown

namespace Store

/-- The one run that the nodes at two places make. -/
def merge? (σ : Store Node) (p q : Nat) : Option Node := do
  Node.merge? (← σ.get? p) (← σ.get? q)

/-- Add a place at the end. If the nodes at the last place and at this one make one run, the place
of this run stands for both. The places before it are given last first. -/
def pushMerged : Store Node × List Nat → Nat → Store Node × List Nat
  | (σ, []), place => (σ, [place])
  | (σ, last :: rest), place => match σ.merge? last place with
    | some x => (σ.add x, σ.next :: rest)
    | none => (σ, place :: last :: rest)

/-- The store and the list of places after neighbouring runs with equal marks are made one. -/
def consolidate (σ : Store Node) (places : List Nat) : Store Node × List Nat :=
  let (τ, done) := places.foldl pushMerged (σ, [])
  (τ, done.reverse)

end Store

end AdfMarkdown
