import Precis.Model.Id

/-!
Contract: what is asked for, and what comes of it.

This module owns the request for a summary, the summary itself, the input that
a model is given, and the cut that makes an input shorter.
-/

namespace Precis.Summary

/-- A request for a summary of `text`. A model may be pinned, and the input
ceiling may be lowered for this request. -/
structure Request where
  family : Model.Family
  instruction : String
  text : String
  model : Option Model.Id
  ceiling : Option UInt32
deriving DecidableEq, Repr

structure Digest where
  text : String
  model : Model.Id
deriving DecidableEq, Repr

namespace Request

/-- The input of a request before any cut: the instruction, a line break, the text. -/
def input (request : Request) : String :=
  request.instruction ++ "\n" ++ request.text

/-- The input ceiling of a request. A ceiling of zero stands for the default. -/
def ceilingOr (request : Request) (default : UInt32) : UInt32 :=
  match request.ceiling with
  | some ceiling => if ceiling = 0 then default else ceiling
  | none => default

end Request

/-- How many of `length` characters a cut keeps: nine of every full ten. -/
def keptLength (length : Nat) : Nat :=
  length / 10 * 9

theorem keptLength_lt {length : Nat} (positive : 0 < length) : keptLength length < length := by
  unfold keptLength
  omega

def shrink (input : String) : String :=
  String.ofList (input.toList.take (keptLength input.length))

theorem length_shrink (input : String) : (shrink input).length = keptLength input.length := by
  unfold shrink
  rw [String.length_ofList, List.length_take, String.length_toList]
  unfold keptLength
  omega

theorem length_shrink_lt {input : String} (notEmpty : input ≠ "") :
    (shrink input).length < input.length := by
  rw [length_shrink]
  apply keptLength_lt
  rw [← String.length_toList]
  exact List.length_pos_iff.mpr fun empty => notEmpty (String.toList_eq_nil_iff.mp empty)

end Precis.Summary
