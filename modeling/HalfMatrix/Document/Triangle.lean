import HalfMatrix.Json.Record
import HalfMatrix.Triangle

/-!
# Triangles in documents

A triangle is written as its name.  It is read from its name, or from a map of
its name to `null`.
-/

set_option autoImplicit false

namespace HalfMatrix.Document

open Json

def triangleTokens (triangle : Triangle) : List Token := [.text triangle.name]

def triangleOfName (name : String) : Except Problem Triangle :=
  match Triangle.ofName? name with
  | some triangle => .ok triangle
  | none => .error (.misfit (.unknownVariant name [Triangle.upper.name, Triangle.lower.name]))

def readTaggedTriangle : Reader Triangle
  | .token (.text name) :: rest =>
      match triangleOfName name with
      | .error problem => .error problem
      | .ok triangle =>
          match rest with
          | .token .colon :: .token .null :: .token .closeMap :: rest => .ok (triangle, rest)
          | [.token .colon, .token .null] => endOfText
          | .token .colon :: .token .null :: _ => malformed
          | .token .colon :: value => .error (unexpected "unit" value)
          | [] => endOfText
          | _ => malformed
  | .flawed (.text flaw _) :: _ => .error (.flaw flaw)
  | [] => endOfText
  | _ => malformed

def readTriangle : Reader Triangle
  | .token (.text name) :: rest => (triangleOfName name).map fun triangle => (triangle, rest)
  | .flawed (.text flaw _) :: _ => .error (.flaw flaw)
  | .token .openMap :: rest => readTaggedTriangle rest
  | [] => endOfText
  | _ => malformed

theorem readTaggedTriangle_shrinks : Shrinks readTaggedTriangle := by
  intro lexemes rest value read
  unfold readTaggedTriangle at read
  split at read
  · split at read
    · cases read
    · split at read
      · cases read
        simp only [List.length_cons]
        omega
      all_goals cases read
  all_goals cases read

theorem readTriangle_shrinks : Shrinks readTriangle := by
  intro lexemes rest value read
  unfold readTriangle at read
  split at read
  · rename_i name later
    cases found : triangleOfName name with
    | error problem => simp [found, Except.map] at read
    | ok triangle =>
        simp only [found, Except.map] at read
        cases read
        exact Nat.le_succ _
  · cases read
  · exact Nat.le_succ_of_le (readTaggedTriangle_shrinks read)
  · cases read
  · cases read

end HalfMatrix.Document
