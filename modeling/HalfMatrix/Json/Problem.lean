import HalfMatrix.Decimal.Layout
import HalfMatrix.Text.Quoted

/-!
# What can be wrong with a document

A document is read from left to right, and the first problem met is the one
that is reported.  Either the text is flawed, because it ends too early or is
malformed, or it is well formed so far but holds something else than what is
expected there.
-/

set_option autoImplicit false

namespace HalfMatrix.Json

inductive Flaw where
  | endOfText
  | malformed
  deriving DecidableEq, Repr

inductive Found where
  | null
  | boolean (value : Bool)
  | integer (value : Int)
  | floating (value : Binary .double)
  | text (value : String)
  | sequence
  | map
  deriving DecidableEq, Repr

def Found.message : Found → String
  | null => "null"
  | boolean value => "boolean `" ++ (if value then "true" else "false") ++ "`"
  | integer value => "integer `" ++ toString value ++ "`"
  | floating value =>
      "floating point `" ++
        String.ofList (Decimal.Spelling.ofBinary (.stored .double) value).text ++ "`"
  | text value => "string " ++ Text.quoted value
  | sequence => "sequence"
  | map => "map"

/-- How a well-formed value misses what is expected of it. -/
inductive Misfit where
  | wrongType (found : Found) (expected : String)
  | wrongValue (found : Found) (expected : String)
  | wrongLength (length : Nat) (expected : String)
  | missingField (name : String)
  | duplicateField (name : String)
  | unknownVariant (name : String) (variants : List String)
  deriving DecidableEq, Repr

def Misfit.message : Misfit → String
  | wrongType found expected => "invalid type: " ++ found.message ++ ", expected " ++ expected
  | wrongValue found expected => "invalid value: " ++ found.message ++ ", expected " ++ expected
  | wrongLength length expected =>
      "invalid length " ++ toString length ++ ", expected " ++ expected
  | missingField name => "missing field `" ++ name ++ "`"
  | duplicateField name => "duplicate field `" ++ name ++ "`"
  | unknownVariant name variants =>
      "unknown variant `" ++ name ++ "`, expected " ++
        String.intercalate " or " (variants.map fun variant => "`" ++ variant ++ "`")

inductive Problem where
  | flaw (flaw : Flaw)
  | misfit (misfit : Misfit)
  deriving DecidableEq, Repr

end HalfMatrix.Json
