import Mathlib.Data.List.AList

/-!
Dictionaries: association lists with distinct keys.
-/

set_option autoImplicit false

namespace Aetus.Base

variable {κ ν : Type} [DecidableEq κ]

abbrev Dict (κ ν : Type) := AList fun _ : κ => ν

namespace Dict

def keysWhere (d : Dict κ ν) (P : ν → Bool) : List κ :=
  (d.entries.filter fun e => P e.2).map Sigma.fst

def eraseAll (d : Dict κ ν) (keys : List κ) : Dict κ ν :=
  keys.foldl (fun d key => d.erase key) d

theorem mem_keysWhere {d : Dict κ ν} {P : ν → Bool} {key : κ} :
    key ∈ d.keysWhere P ↔ ∃ v, d.lookup key = some v ∧ P v = true := by
  have hmem (v : ν) : d.lookup key = some v ↔ Sigma.mk key v ∈ d.entries := AList.mem_lookup_iff
  simp only [keysWhere, List.mem_map, List.mem_filter, hmem]
  constructor
  · rintro ⟨⟨k, v⟩, ⟨hentry, hv⟩, rfl⟩
    exact ⟨v, hentry, hv⟩
  · rintro ⟨v, hentry, hv⟩
    exact ⟨⟨key, v⟩, ⟨hentry, hv⟩, rfl⟩

theorem lookup_eraseAll {d : Dict κ ν} {keys : List κ} {key : κ} :
    (d.eraseAll keys).lookup key = if key ∈ keys then none else d.lookup key := by
  induction keys generalizing d with
  | nil => simp [eraseAll]
  | cons k keys ih =>
    have hstep : d.eraseAll (k :: keys) = eraseAll (d.erase k) keys := rfl
    rw [hstep, ih]
    by_cases hkey : key = k
    · subst hkey
      simp
    · simp [hkey, AList.lookup_erase_ne hkey]

theorem lookup_eraseAll_keysWhere {d : Dict κ ν} {P : ν → Bool} {key : κ} :
    (d.eraseAll (d.keysWhere P)).lookup key = (d.lookup key).filter fun v => !P v := by
  rw [lookup_eraseAll]
  cases hlook : d.lookup key with
  | none => simp
  | some v => by_cases hv : P v = true <;> simp [mem_keysWhere, hlook, hv, Option.filter]

omit [DecidableEq κ] in
theorem length_keys (d : Dict κ ν) : d.keys.length = d.entries.length := List.length_map _

theorem length_insert_of_lookup_none {d : Dict κ ν} {key : κ} (h : d.lookup key = none) (v : ν) :
    (d.insert key v).entries.length = d.entries.length + 1 := by
  rw [AList.insert_of_notMem (AList.lookup_eq_none.mp h)]
  rfl

theorem length_insert_of_lookup_some {d : Dict κ ν} {key : κ} {v : ν} (h : d.lookup key = some v)
    (w : ν) : (d.insert key w).entries.length = d.entries.length := by
  have hmem : key ∈ d.keys := AList.lookup_isSome.mp (by rw [h]; rfl)
  have hpos := List.length_pos_of_mem hmem
  rw [← length_keys, AList.keys_insert, List.length_cons, List.length_erase_of_mem hmem, ← length_keys]
  omega

theorem length_erase_le (d : Dict κ ν) (key : κ) :
    (d.erase key).entries.length ≤ d.entries.length := by
  rw [← length_keys, AList.keys_erase, ← length_keys]
  exact List.length_erase_le

theorem length_erase_lt {d : Dict κ ν} {key : κ} {v : ν} (h : d.lookup key = some v) :
    (d.erase key).entries.length < d.entries.length := by
  have hmem : key ∈ d.keys := AList.lookup_isSome.mp (by rw [h]; rfl)
  have hpos := List.length_pos_of_mem hmem
  rw [← length_keys, AList.keys_erase, List.length_erase_of_mem hmem, ← length_keys]
  exact Nat.sub_one_lt_of_lt hpos

theorem length_eraseAll_le (d : Dict κ ν) (keys : List κ) :
    (d.eraseAll keys).entries.length ≤ d.entries.length := by
  induction keys generalizing d with
  | nil => exact le_refl _
  | cons key keys ih => exact Nat.le_trans (ih (d.erase key)) (length_erase_le d key)

theorem length_eraseAll_lt {d : Dict κ ν} {keys : List κ} {key : κ} {v : ν} (hkey : key ∈ keys)
    (hv : d.lookup key = some v) : (d.eraseAll keys).entries.length < d.entries.length := by
  induction keys generalizing d with
  | nil => cases hkey
  | cons k keys ih =>
    by_cases heq : key = k
    · subst heq
      exact Nat.lt_of_le_of_lt (length_eraseAll_le (d.erase key) keys) (length_erase_lt hv)
    · have hrest : key ∈ keys := (List.mem_cons.mp hkey).resolve_left heq
      have hlook : (d.erase k).lookup key = some v := by rw [AList.lookup_erase_ne heq, hv]
      exact Nat.lt_of_lt_of_le (ih hrest hlook) (length_erase_le d k)

theorem keysWhere_eq_nil {d : Dict κ ν} {P : ν → Bool}
    (h : ∀ key v, d.lookup key = some v → P v = false) : d.keysWhere P = [] := by
  rw [List.eq_nil_iff_forall_not_mem]
  intro key hkey
  obtain ⟨v, hv, hP⟩ := mem_keysWhere.mp hkey
  simp [h key v hv] at hP

end Dict

end Aetus.Base
