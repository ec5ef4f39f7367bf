import TypedApi.Graph.Model
/-!
Capabilities: what the values of an item support.

Some shapes decide on their own; the others have a capability exactly when
everything they refer to has it. Recursive items are looked through once: an
item that is already being asked about is taken to have the capability.
-/

set_option autoImplicit false

namespace TypedApi

/-- Comparing, copying and hashing. -/
inductive Capability where
  | eq
  | copy
  | hash
deriving DecidableEq, Repr

/-- Whether a scalar has a capability. -/
def Scalar.has : Capability → Scalar → Bool
  | .eq, s => s.hasEq
  | .copy, s => s.hasCopy
  | .hash, s => s.hasHash

/-- The answer of a shape that decides on its own; the others leave it to their references. -/
def Shape.verdict? (c : Capability) : Shape → Option Bool
  | .scalar s => some (s.has c)
  | .stringEnum _ extensible =>
    match c with
    | .copy => some (!extensible)
    | _ => some true
  | .list _ =>
    match c with
    | .copy => some false
    | _ => none
  | .set _ | .map _ =>
    match c with
    | .eq => none
    | _ => some false
  | _ => none

namespace Model

/-- Whether a shape has a capability, with the indices already being asked about. The fuel bounds
how many further items are asked about. -/
def shapeHas (m : Model) (c : Capability) : Nat → List Int → Shape → Except Failure Bool
  | 0, _, _ => .ok true
  | fuel + 1, seen, shape =>
    match shape.verdict? c with
    | some answer => .ok answer
    | none =>
      shape.refs.allM fun r => do
        let index ← m.indexOf r
        if seen.contains index then return true
        else
          let item ← m.itemAt index
          m.shapeHas c fuel (index :: seen) item.shape

/-- Whether an item has a capability. An index is asked about once, counted from either end. -/
def has (m : Model) (c : Capability) (item : Item) : Except Failure Bool :=
  m.shapeHas c (2 * m.size + 1) [] item.shape

end Model

end TypedApi
