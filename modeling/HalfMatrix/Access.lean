/-!
# Access modes

A view is acquired for reading, for writing, or for both.
-/

set_option autoImplicit false

namespace HalfMatrix

inductive Access where
  | readOnly
  | writeOnly
  | readWrite
  deriving DecidableEq, Repr

namespace Access

instance : Inhabited Access := ⟨readWrite⟩

/-- The view shows the table's values. -/
def reads : Access → Bool
  | readOnly => true
  | writeOnly => false
  | readWrite => true

/-- The view's values are committed when it is released. -/
def writes : Access → Bool
  | readOnly => false
  | writeOnly => true
  | readWrite => true

def name : Access → String
  | readOnly => "ReadOnly"
  | writeOnly => "WriteOnly"
  | readWrite => "ReadWrite"

end Access

end HalfMatrix
