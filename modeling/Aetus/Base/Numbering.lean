import Mathlib.Data.List.Basic

/-!
A sender that numbers its messages with a counter of its own and learns of some of its
deliveries only: the counter may stay behind a number that the receiver has taken.
-/

set_option autoImplicit false

namespace Aetus.Base

/-- `number` is the number of a message of the sender's own session, and `key` is what the
receiver tells messages apart by. -/
structure Numbering (M K : Type) where
  number : M → Option Int
  key : M → K
  number_of_key : ∀ m m', key m = key m' → number m = number m'

/-- `unseen` is the message taken under the present number, if the counter has not moved since. -/
structure Sender (M : Type) where
  counter : Int
  taken : List M
  unseen : Option M
  deriving DecidableEq

namespace Sender

variable {M K : Type} [DecidableEq M] (N : Numbering M K)

/-- One message goes out; it is taken or not, and the counter moves or not. -/
def send (s : Sender M) (m : M) (accepted advanced : Bool) : Sender M where
  counter := if advanced then s.counter + 1 else s.counter
  taken := if accepted then m :: s.taken else s.taken
  unseen := if advanced then none
    else if accepted ∧ N.number m = some s.counter then some m else s.unseen

/-- Under the present number only the unseen message goes out again; any other number of the
session lies behind, and the receiver has no other message under it. -/
def Allowed (s : Sender M) (m : M) : Prop :=
  if N.number m = some s.counter then s.unseen = none ∨ s.unseen = some m
  else (N.number m).all (· < s.counter) = true ∧ ∀ m' ∈ s.taken, N.key m' = N.key m → m' = m

instance (s : Sender M) (m : M) [DecidableEq K] : Decidable (s.Allowed N m) := by
  unfold Allowed; infer_instance

def KeysUnique (s : Sender M) : Prop :=
  ∀ m ∈ s.taken, ∀ m' ∈ s.taken, N.key m = N.key m' → m = m'

/-- The invariant: a number of the session that has been taken lies behind the counter, or is
the present one and belongs to the unseen message. -/
structure InOrder (s : Sender M) : Prop where
  unique : s.KeysUnique N
  behind : ∀ m ∈ s.taken, ∀ n, N.number m = some n →
    n < s.counter ∨ n = s.counter ∧ s.unseen = some m

omit [DecidableEq M] in
theorem inOrder_nil (counter : Int) : (⟨counter, [], none⟩ : Sender M).InOrder N :=
  ⟨by simp [KeysUnique], by simp⟩

variable {N}

/-- What is taken under the key of an allowed message is that message. -/
theorem InOrder.eq_of_key {s : Sender M} (hs : s.InOrder N) {m x : M} (hm : s.Allowed N m)
    (hx : x ∈ s.taken) (hkey : N.key x = N.key m) : x = m := by
  unfold Allowed at hm
  split at hm
  · next hnow =>
    have hnumber : N.number x = some s.counter := (N.number_of_key x m hkey).trans hnow
    rcases hs.behind x hx _ hnumber with hlt | ⟨-, hunseen⟩
    · omega
    · rcases hm with hnone | hsame
      · simp [hnone] at hunseen
      · simpa [hsame] using hunseen.symm
  · exact hm.2 x hx hkey

theorem InOrder.send {s : Sender M} (hs : s.InOrder N) {m : M} (hm : s.Allowed N m)
    (accepted advanced : Bool) : (s.send N m accepted advanced).InOrder N := by
  have hmem : ∀ x ∈ (s.send N m accepted advanced).taken,
      x ∈ s.taken ∨ x = m ∧ accepted = true := by
    intro x hx
    cases accepted <;> simp_all [Sender.send]
    exact hx.symm
  constructor
  · intro x hx y hy hkey
    rcases hmem x hx with hold | ⟨rfl, -⟩
    · rcases hmem y hy with hold' | ⟨rfl, -⟩
      · exact hs.unique x hold y hold' hkey
      · exact hs.eq_of_key hm hold hkey
    · rcases hmem y hy with hold' | ⟨rfl, -⟩
      · exact (hs.eq_of_key hm hold' hkey.symm).symm
      · rfl
  · intro x hx n hn
    -- before the counter moved, the number was behind it or the present one
    have hold : n < s.counter ∨ n = s.counter ∧
        (s.unseen = some x ∨ x = m ∧ accepted = true) := by
      rcases hmem x hx with hx | ⟨rfl, hacc⟩
      · rcases hs.behind x hx n hn with hlt | ⟨heq, hunseen⟩
        · exact .inl hlt
        · exact .inr ⟨heq, .inl hunseen⟩
      · by_cases hnow : n = s.counter
        · exact .inr ⟨hnow, .inr ⟨rfl, hacc⟩⟩
        · unfold Allowed at hm
          rw [hn, if_neg (by simpa using hnow)] at hm
          exact .inl (by simpa using hm.1)
    cases advanced with
    | true =>
      simp only [Sender.send, if_true]
      omega
    | false =>
      simp only [Sender.send, Bool.false_eq_true, if_false]
      rcases hold with hlt | ⟨rfl, hunseen | ⟨rfl, rfl⟩⟩
      · exact .inl hlt
      · refine .inr ⟨rfl, ?_⟩
        split
        · next hnow =>
          unfold Allowed at hm
          rw [if_pos hnow.2, hunseen] at hm
          exact (hm.resolve_left (by simp)).symm
        · exact hunseen
      · exact .inr ⟨rfl, if_pos ⟨rfl, hn⟩⟩

end Sender

end Aetus.Base
