import Aetus.Base.Protobuf

/-!
Reading a protobuf message field by field: each field is merged into what is read so far. What
a writer leaves out and what it repeats is read back.
-/

set_option autoImplicit false

namespace Aetus.Base.Protobuf

variable {M α : Type} {merge : M → Field → Option M}

theorem foldlM_unlessDefault {m m' : M} {number : Nat} {v : Value}
    (hdefault : v.isDefault = true → m = m') (hmerge : merge m ⟨number, v⟩ = some m') :
    (unlessDefault number v).foldlM merge m = some m' := by
  unfold unlessDefault
  split
  · next h => rw [hdefault h, List.foldlM_nil]; rfl
  · rw [List.foldlM_cons, hmerge]
    rfl

theorem foldlM_bytes {g : List UInt8 → M} {number : Nat}
    (hmerge : ∀ content, merge (g []) ⟨number, .bytes content⟩ = some (g content))
    (content : List UInt8) :
    (unlessDefault number (.bytes content)).foldlM merge (g []) = some (g content) := by
  refine foldlM_unlessDefault (fun h => ?_) (hmerge content)
  rw [show content = [] by simpa [Value.isDefault] using h]

theorem foldlM_varint {g : α → M} {n : α → Nat} {zero : α} {number : Nat}
    (hzero : ∀ a, n a = 0 → a = zero)
    (hmerge : ∀ a, merge (g zero) ⟨number, .varint (n a)⟩ = some (g a)) (a : α) :
    (unlessDefault number (.varint (n a))).foldlM merge (g zero) = some (g a) := by
  refine foldlM_unlessDefault (fun h => ?_) (hmerge a)
  rw [hzero a (by simpa [Value.isDefault] using h)]

theorem foldlM_optional {g : Option α → M} {field : α → Field}
    (hmerge : ∀ a, merge (g none) (field a) = some (g (some a))) (value : Option α) :
    (value.map field).toList.foldlM merge (g none) = some (g value) := by
  cases value with
  | none => rfl
  | some a => simp [hmerge]

theorem foldlM_repeated {g : List α → M} {field : α → Field}
    (hmerge : ∀ items a, merge (g items) (field a) = some (g (items ++ [a])))
    (items front : List α) :
    (items.map field).foldlM merge (g front) = some (g (front ++ items)) := by
  induction items generalizing front with
  | nil => rw [List.append_nil]; rfl
  | cons a items ih =>
    rw [List.map_cons, List.foldlM_cons, hmerge]
    have hrest := ih (front ++ [a])
    rwa [List.append_assoc] at hrest

theorem foldlM_then {front back : List Field} {m m' m'' : M} (hfront : front.foldlM merge m = some m')
    (hback : back.foldlM merge m' = some m'') : (front ++ back).foldlM merge m = some m'' := by
  rw [List.foldlM_append, hfront]
  exact hback

end Aetus.Base.Protobuf
