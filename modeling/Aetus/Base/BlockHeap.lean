import Mathlib.Logic.Function.Basic
import Mathlib.Data.List.Nodup
import Mathlib.Data.List.Perm.Subperm

/-!
A heap of named blocks. Names are never reused, so a stale name is not confused
with a later block; whether a request is granted is decided by an arbitrary
pattern over the requests, and every release is recorded.
-/

set_option autoImplicit false

namespace Aetus.Base

/-- `grant n` decides the `n`-th request. `freed` lists the released names in order. -/
structure BlockHeap (β : Type) where
  block : Nat → Option β
  next : Nat
  fresh : ∀ p, next ≤ p → block p = none
  grant : Nat → Bool
  asked : Nat
  freed : List Nat

namespace BlockHeap

variable {β : Type}

def empty (grant : Nat → Bool) : BlockHeap β := ⟨fun _ => none, 0, fun _ _ => rfl, grant, 0, []⟩

def Live (h : BlockHeap β) (p : Nat) : Prop := h.block p ≠ none

theorem Live.lt {h : BlockHeap β} {p : Nat} (hp : h.Live p) : p < h.next := by
  by_contra hlt
  exact hp (h.fresh p (by omega))

def refuse (h : BlockHeap β) : BlockHeap β := { h with asked := h.asked + 1 }

/-- A request served with a new block named `h.next`. -/
def push (h : BlockHeap β) (b : β) : BlockHeap β where
  block := Function.update h.block h.next (some b)
  next := h.next + 1
  fresh p hp := by
    have hne : p ≠ h.next := by omega
    rw [Function.update_of_ne hne]
    exact h.fresh p (by omega)
  grant := h.grant
  asked := h.asked + 1
  freed := h.freed

def alloc (h : BlockHeap β) (b : β) : Option Nat × BlockHeap β :=
  if h.grant h.asked then (some h.next, h.push b) else (none, h.refuse)

theorem alloc_granted {h : BlockHeap β} (b : β) (hg : h.grant h.asked = true) :
    h.alloc b = (some h.next, h.push b) := by simp [alloc, hg]

theorem alloc_refused {h : BlockHeap β} (b : β) (hg : h.grant h.asked = false) :
    h.alloc b = (none, h.refuse) := by simp [alloc, hg]

/-- Releasing a name that is not live is recorded like any other release. -/
def free (h : BlockHeap β) (p : Nat) : BlockHeap β where
  block := Function.update h.block p none
  next := h.next
  fresh q hq := by
    by_cases hqp : q = p
    · simp [hqp]
    · rw [Function.update_of_ne hqp]
      exact h.fresh q hq
  grant := h.grant
  asked := h.asked
  freed := h.freed ++ [p]

def freeAll (h : BlockHeap β) (ps : List Nat) : BlockHeap β := ps.foldl free h

@[simp] theorem freeAll_nil (h : BlockHeap β) : h.freeAll [] = h := rfl

@[simp] theorem freeAll_cons (h : BlockHeap β) (p : Nat) (ps : List Nat) :
    h.freeAll (p :: ps) = (h.free p).freeAll ps := rfl

theorem freeAll_append (h : BlockHeap β) (ps qs : List Nat) :
    h.freeAll (ps ++ qs) = (h.freeAll ps).freeAll qs := List.foldl_append

@[simp] theorem freeAll_freed (h : BlockHeap β) (ps : List Nat) :
    (h.freeAll ps).freed = h.freed ++ ps := by
  induction ps generalizing h with
  | nil => simp
  | cons p ps ih => simp [ih, free]

/-- `k` only adds blocks to `h`. -/
structure Extends (h k : BlockHeap β) : Prop where
  next_le : h.next ≤ k.next
  old : ∀ p, p < h.next → k.block p = h.block p
  freed : k.freed = h.freed
  grant : k.grant = h.grant

theorem Extends.refl (h : BlockHeap β) : h.Extends h := ⟨Nat.le_refl _, fun _ _ => rfl, rfl, rfl⟩

theorem Extends.trans {h k l : BlockHeap β} (h1 : h.Extends k) (h2 : k.Extends l) :
    h.Extends l where
  next_le := Nat.le_trans h1.next_le h2.next_le
  old p hp := (h2.old p (by have := h1.next_le; omega)).trans (h1.old p hp)
  freed := h2.freed.trans h1.freed
  grant := h2.grant.trans h1.grant

theorem extends_refuse (h : BlockHeap β) : h.Extends h.refuse :=
  ⟨Nat.le_refl _, fun _ _ => rfl, rfl, rfl⟩

theorem extends_push (h : BlockHeap β) (b : β) : h.Extends (h.push b) where
  next_le := by simp [push]
  old p hp := Function.update_of_ne (by omega) _ _
  freed := rfl
  grant := rfl

theorem Extends.block {h k : BlockHeap β} (he : h.Extends k) {p : Nat} (hp : h.Live p) :
    k.block p = h.block p := he.old p hp.lt

theorem Extends.live {h k : BlockHeap β} (he : h.Extends k) {p : Nat} (hp : h.Live p) :
    k.Live p := by rw [Live, he.block hp]; exact hp

@[simp] theorem push_block_self (h : BlockHeap β) (b : β) : (h.push b).block h.next = some b := by
  simp [push]

/-- `k` keeps the named blocks of `h` as they are; anything else may have changed. -/
structure Keeps (h k : BlockHeap β) (ps : List Nat) : Prop where
  next_le : h.next ≤ k.next
  block : ∀ p ∈ ps, k.block p = h.block p

end BlockHeap

end Aetus.Base
