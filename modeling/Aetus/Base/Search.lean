import Mathlib.Data.List.Infix

/-!
Searching a text as C's `strstr` and `strchr` do: the result is the text from the first
occurrence on.
-/

set_option autoImplicit false

namespace Aetus.Base

variable {α : Type} [DecidableEq α]

def strstr (needle : List α) : List α → Option (List α)
  | [] => if needle = [] then some [] else none
  | a :: text => if needle.isPrefixOf (a :: text) then some (a :: text) else strstr needle text

def strchr (c : α) : List α → Option (List α)
  | [] => none
  | a :: text => if a = c then some (a :: text) else strchr c text

theorem strstr_hit {needle : List α} (hne : needle ≠ []) (text : List α) :
    strstr needle (needle ++ text) = some (needle ++ text) := by
  obtain ⟨c, cs, rfl⟩ := List.exists_cons_of_ne_nil hne
  have hprefix : (c :: cs).isPrefixOf (c :: (cs ++ text)) = true :=
    List.isPrefixOf_iff_prefix.mpr (List.prefix_append _ _)
  rw [List.cons_append, strstr, if_pos hprefix]

theorem strstr_miss {needle text : List α} {a : α}
    (h : needle.isPrefixOf (a :: text) = false) : strstr needle (a :: text) = strstr needle text := by
  rw [strstr, h]
  rfl

theorem strstr_pass {needle before : List α}
    (h : ∀ suffix ∈ before.tails, suffix ≠ [] → ¬ needle <+: suffix ∧ ¬ suffix <+: needle)
    (text : List α) : strstr needle (before ++ text) = strstr needle text := by
  induction before with
  | nil => rfl
  | cons a before ih =>
    rw [List.tails_cons] at h
    obtain ⟨hneedle, hsuffix⟩ := h _ List.mem_cons_self (List.cons_ne_nil a before)
    have hmiss : needle.isPrefixOf (a :: (before ++ text)) = false := by
      rw [Bool.eq_false_iff]
      intro hprefix
      exact (List.prefix_or_prefix_of_prefix (List.isPrefixOf_iff_prefix.mp hprefix)
        (List.prefix_append (a :: before) text)).elim hneedle hsuffix
    rw [List.cons_append, strstr_miss hmiss, ih fun suffix hmem => h suffix (List.mem_cons_of_mem _ hmem)]

theorem strstr_skip {c : α} {cs before : List α} (h : c ∉ before) (text : List α) :
    strstr (c :: cs) (before ++ text) = strstr (c :: cs) text := by
  refine strstr_pass (fun suffix hmem hne => ?_) text
  obtain ⟨a, rest, rfl⟩ := List.exists_cons_of_ne_nil hne
  have ha : a ∈ before := ((List.mem_tails _ _).mp hmem).subset List.mem_cons_self
  have hca : c ≠ a := fun heq => h (heq ▸ ha)
  simp [List.cons_prefix_cons, hca, Ne.symm hca]

end Aetus.Base
