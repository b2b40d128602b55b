import Redaction.Field.Scalar

/-!
# Fields

A field that carries an instruction holds a scalar behind layers of indirection, any of which may be
empty. A method reaches through the layers and leaves them as they are.
-/

namespace Redaction

/-- One layer of indirection around a present value: an optional value, an owned one, one shared
within a thread or across threads, and one whose type is known only when the program runs. -/
inductive Layer where
  | present
  | owned
  | shared
  | sharedAcross
  | dynamic
  deriving DecidableEq, Repr

/-- A scalar behind layers, or an empty optional value behind layers. -/
inductive Field where
  | scalar (value : Scalar)
  | absent
  | layer (outer : Layer) (inner : Field)
  deriving DecidableEq, Repr

namespace Field

/-- The innermost scalar, if no layer is empty. -/
def scalar? : Field → Option Scalar
  | scalar s => some s
  | absent => none
  | layer _ f => f.scalar?

/-- The same layers around another scalar; a field that is absent stays so. -/
def replace (s : Scalar) : Field → Field
  | scalar _ => scalar s
  | absent => absent
  | layer l f => layer l (f.replace s)

@[simp] theorem scalar?_replace (s : Scalar) (f : Field) :
    (f.replace s).scalar? = f.scalar?.map fun _ => s := by
  induction f with
  | scalar _ => rfl
  | absent => rfl
  | layer _ f ih => exact ih

@[simp] theorem replace_replace (s t : Scalar) (f : Field) :
    (f.replace s).replace t = f.replace t := by
  induction f with
  | scalar _ => rfl
  | absent => rfl
  | layer l f ih => exact congrArg (layer l) ih

theorem replace_of_scalar?_eq_some {f : Field} {s : Scalar} (h : f.scalar? = some s) :
    f.replace s = f := by
  induction f with
  | scalar _ => exact congrArg scalar (Option.some.inj h).symm
  | absent => rfl
  | layer l f ih => exact congrArg (layer l) (ih h)

end Field

end Redaction
