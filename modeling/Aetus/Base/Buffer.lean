import Mathlib.Data.List.Basic

/-!
Writes into an object of memory. A write that would pass the end of the object has no result.
-/

set_option autoImplicit false

namespace Aetus.Base

variable {β : Type}

/-- The object after the first `n` elements of `source` were copied to `offset`. -/
def copyInto (object : List β) (offset : Nat) (source : List β) (n : Nat) : Option (List β) :=
  if offset + n ≤ object.length ∧ n ≤ source.length then
    some (object.take offset ++ source.take n ++ object.drop (offset + n))
  else none

def storeAt (object : List β) (offset : Nat) (b : β) : Option (List β) :=
  if offset < object.length then some (object.set offset b) else none

variable {object source : List β} {offset n : Nat}

theorem exists_copyInto (hend : offset + n ≤ object.length) (hsource : n ≤ source.length) :
    ∃ after, copyInto object offset source n = some after ∧ after.length = object.length ∧
      after.take (offset + n) = object.take offset ++ source.take n := by
  have hwritten : (object.take offset ++ source.take n).length = offset + n := by
    rw [List.length_append, List.length_take, List.length_take]
    omega
  refine ⟨_, if_pos ⟨hend, hsource⟩, ?_, ?_⟩
  · rw [List.length_append, hwritten, List.length_drop]
    omega
  · rw [← hwritten]
    exact List.take_left

theorem exists_storeAt (b : β) (hend : offset < object.length) :
    ∃ after, storeAt object offset b = some after ∧ after.length = object.length ∧
      after.take (offset + 1) = object.take offset ++ [b] := by
  refine ⟨_, if_pos hend, List.length_set, ?_⟩
  have hlast : (object.set offset b)[offset]? = some b := List.getElem?_set_self hend
  rw [List.take_add_one, hlast, List.take_set_of_le (Nat.le_refl offset), Option.toList_some]

end Aetus.Base
