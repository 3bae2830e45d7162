import Mathlib.Data.List.Basic
import Mathlib.Data.List.Nodup
import Mathlib.Logic.Relation

/-!
First-in first-out delivery with losses. Elements enter at the tail, and the head
is either delivered or dropped. A receiver may log the head under a number before
the sender learns of it; `Numbered` says what such a log can contain.
-/

set_option autoImplicit false

namespace Aetus.Base

/-- `entered` and `delivered` are in order of time; the order of `dropped` is not kept. -/
structure Pipeline (α : Type) where
  entered : List α
  pending : List α
  delivered : List α
  dropped : List α

namespace Pipeline

variable {α : Type}

def empty : Pipeline α := ⟨[], [], [], []⟩

inductive Step : Pipeline α → Pipeline α → Prop where
  | enter (p : Pipeline α) (x : α) (hx : x ∉ p.entered) :
      Step p { p with entered := p.entered ++ [x], pending := p.pending ++ [x] }
  | deliver (p : Pipeline α) (x : α) (rest : List α) (h : p.pending = x :: rest) :
      Step p { p with pending := rest, delivered := p.delivered ++ [x] }
  | drop (p : Pipeline α) (x : α) (rest d : List α) (h : p.pending = x :: rest)
      (hd : d.Perm (x :: p.dropped)) :
      Step p { p with pending := rest, dropped := d }

/-- Nothing is lost, invented or reordered. -/
structure Accounted (p : Pipeline α) : Prop where
  nodup : p.entered.Nodup
  perm : p.entered.Perm (p.delivered ++ p.dropped ++ p.pending)
  order : (p.delivered ++ p.pending).Sublist p.entered

theorem empty_accounted : (empty : Pipeline α).Accounted :=
  ⟨List.nodup_nil, .nil, .slnil⟩

theorem Step.accounted {p q : Pipeline α} (h : Step p q) (hp : p.Accounted) : q.Accounted := by
  obtain ⟨hn, hperm, hord⟩ := hp
  cases h with
  | enter x hx =>
    refine ⟨?_, ?_, ?_⟩
    · simpa [List.nodup_append] using ⟨hn, fun a ha he => hx (he ▸ ha)⟩
    · simpa using hperm.append_right [x]
    · simpa using hord.append_right [x]
  | deliver x rest hpend =>
    rw [hpend] at hperm hord
    refine ⟨hn, hperm.trans ?_, by simpa using hord⟩
    simp only [List.append_assoc, List.singleton_append]
    exact List.Perm.append_left _ List.perm_middle
  | drop x rest d hpend hd =>
    rw [hpend] at hperm hord
    refine ⟨hn, hperm.trans ?_, ?_⟩
    · simp only [List.append_assoc]
      refine List.Perm.append_left _ (List.perm_middle.trans ?_)
      exact (hd.append_right rest).symm
    · exact ((List.sublist_cons_self x rest).append_left p.delivered).trans hord

theorem Accounted.delivered_sublist {p : Pipeline α} (h : p.Accounted) :
    p.delivered.Sublist p.entered :=
  (List.sublist_append_left _ _).trans h.order

/-- When nothing is pending, every element that entered has met its fate. -/
theorem Accounted.settled {p : Pipeline α} (h : p.Accounted) (hp : p.pending = []) {x : α}
    (hx : x ∈ p.entered) : x ∈ p.delivered ++ p.dropped := by
  simpa [hp] using h.perm.mem_iff.mp hx

/-- Each logged number names the element delivered at that position, or, at the
position not yet delivered, the head. -/
def Numbered (p : Pipeline α) (log : List (Nat × α)) : Prop :=
  ∀ e ∈ log, p.delivered[e.1]? = some e.2 ∨
    (e.1 = p.delivered.length ∧ p.pending.head? = some e.2)

theorem empty_numbered : (empty : Pipeline α).Numbered [] := by simp [Numbered]

theorem Numbered.unique {p : Pipeline α} {log : List (Nat × α)} (h : p.Numbered log)
    {n : Nat} {x y : α} (hx : (n, x) ∈ log) (hy : (n, y) ∈ log) : x = y := by
  have hlt {z : α} (hz : p.delivered[n]? = some z) : n < p.delivered.length :=
    (List.getElem?_eq_some_iff.mp hz).1
  rcases h _ hx with h1 | ⟨h1, hx1⟩ <;> rcases h _ hy with h2 | ⟨h2, hy1⟩
  · exact Option.some.inj (h1.symm.trans h2)
  · have := hlt h1; dsimp only at h2; omega
  · have := hlt h2; dsimp only at h1; omega
  · exact Option.some.inj (hx1.symm.trans hy1)

theorem Numbered.enter {p : Pipeline α} {log : List (Nat × α)} (h : p.Numbered log) (x : α) :
    Numbered { p with entered := p.entered ++ [x], pending := p.pending ++ [x] } log := by
  intro e he
  rcases h e he with h1 | ⟨h1, h2⟩
  · exact .inl h1
  · refine .inr ⟨h1, ?_⟩
    simp [List.head?_append, h2]

theorem Numbered.deliver {p : Pipeline α} {log : List (Nat × α)} (h : p.Numbered log)
    {x : α} {rest : List α} (hp : p.pending = x :: rest) :
    Numbered { p with pending := rest, delivered := p.delivered ++ [x] } log := by
  intro e he
  left
  rcases h e he with h1 | ⟨h1, h2⟩
  · have hlt := (List.getElem?_eq_some_iff.mp h1).1
    simpa [List.getElem?_append_left hlt] using h1
  · have hx : x = e.2 := by simpa [hp] using h2
    simp [h1, hx]

/-- Only a head the log does not contain may be dropped. -/
theorem Numbered.drop {p : Pipeline α} {log : List (Nat × α)} (h : p.Numbered log)
    {x : α} {rest d : List α} (hp : p.pending = x :: rest) (hx : ∀ e ∈ log, e.2 ≠ x) :
    Numbered { p with pending := rest, dropped := d } log := by
  intro e he
  rcases h e he with h1 | ⟨_, h2⟩
  · exact .inl h1
  · have hxe : x = e.2 := by simpa [hp] using h2
    exact absurd hxe.symm (hx e he)

theorem Numbered.receive {p : Pipeline α} {log : List (Nat × α)} (h : p.Numbered log)
    {x : α} {rest : List α} (hp : p.pending = x :: rest) :
    p.Numbered ((p.delivered.length, x) :: log) := by
  intro e he
  rcases List.mem_cons.mp he with rfl | he
  · exact .inr ⟨rfl, by simp [hp]⟩
  · exact h e he

/-- The log has what has been delivered, by the place it was delivered at. -/
def Recorded (p : Pipeline α) (log : List (Nat × α)) : Prop :=
  ∀ n x, p.delivered[n]? = some x → (n, x) ∈ log

theorem empty_recorded : (empty : Pipeline α).Recorded [] := by simp [Recorded, empty]

theorem Recorded.cons {p : Pipeline α} {log : List (Nat × α)} (h : p.Recorded log)
    (e : Nat × α) : p.Recorded (e :: log) :=
  fun n x hx => List.mem_cons_of_mem e (h n x hx)

theorem Recorded.deliver {p : Pipeline α} {log : List (Nat × α)} (h : p.Recorded log)
    (x : α) (rest : List α) :
    Recorded { p with pending := rest, delivered := p.delivered ++ [x] }
      ((p.delivered.length, x) :: log) := by
  intro n y hy
  simp only [List.getElem?_append, List.getElem?_singleton] at hy
  split at hy
  · exact List.mem_cons_of_mem _ (h n y hy)
  · next hge =>
    obtain ⟨hzero, hxy⟩ := Option.ite_none_right_eq_some.mp hy
    obtain rfl := Option.some.inj hxy
    have hn : n = p.delivered.length := by omega
    rw [hn]
    exact List.mem_cons_self

end Pipeline

end Aetus.Base
