import Mathlib.Data.List.Infix
import Mathlib.Data.List.TakeDrop

/-!
Patterns of file names, as `fnmatch` reads them.
-/

set_option autoImplicit false

namespace Aetus.Base

inductive GlobToken where
  | literal (c : Char)
  | any
  | star
  | oneOf (negated : Bool) (ranges : List (Char × Char))
  deriving DecidableEq

/-- The text between the brackets and what follows them. A `]` that comes first is a member. -/
def splitBracket (pattern : List Char) : Option (List Char × List Char) :=
  let negation := pattern.take (if pattern.head? = some '!' then 1 else 0)
  let rest := pattern.drop negation.length
  let first := rest.take (if rest.head? = some ']' then 1 else 0)
  let rest := rest.drop first.length
  match rest.dropWhile (· ≠ ']') with
  | [] => none
  | _ :: after => some (negation ++ first ++ rest.takeWhile (· ≠ ']'), after)

def bracketRanges : List Char → List (Char × Char)
  | low :: '-' :: high :: rest => (low, high) :: bracketRanges rest
  | c :: rest => (c, c) :: bracketRanges rest
  | [] => []

def bracketToken : List Char → GlobToken
  | '!' :: members => .oneOf true (bracketRanges members)
  | members => .oneOf false (bracketRanges members)

/-- `skip` characters belong to a bracket that has been read; a `[` that is not closed is one
of the name. -/
def globTokens : (skip : Nat) → List Char → List GlobToken
  | _, [] => []
  | skip + 1, _ :: pattern => globTokens skip pattern
  | 0, c :: pattern =>
    if c = '*' then .star :: globTokens 0 pattern
    else if c = '?' then .any :: globTokens 0 pattern
    else if c = '[' then
      match splitBracket pattern with
      | none => .literal c :: globTokens 0 pattern
      | some (members, after) =>
        bracketToken members :: globTokens (pattern.length - after.length) pattern
    else .literal c :: globTokens 0 pattern

def GlobToken.accepts : GlobToken → Char → Bool
  | .literal c, d => c = d
  | .any, _ => true
  | .star, _ => false
  | .oneOf negated ranges, d => ranges.any (fun range => range.1 ≤ d && d ≤ range.2) != negated

def globMatches : List GlobToken → List Char → Bool
  | [], name => name.isEmpty
  | .star :: tokens, name => name.tails.any fun rest => globMatches tokens rest
  | token :: tokens, name =>
    name.head?.any (token.accepts ·) && globMatches tokens name.tail

def fnmatch (pattern name : List Char) : Bool := globMatches (globTokens 0 pattern) name

def isGlobChar (c : Char) : Bool := c = '*' || c = '?' || c = '['

theorem globTokens_append {text : List Char} (h : ∀ c ∈ text, isGlobChar c = false)
    (pattern : List Char) :
    globTokens 0 (text ++ pattern) = text.map .literal ++ globTokens 0 pattern := by
  induction text with
  | nil => rfl
  | cons c text ih =>
    obtain ⟨hc, htext⟩ := List.forall_mem_cons.mp h
    simp only [isGlobChar, Bool.or_eq_false_iff, decide_eq_false_iff_not] at hc
    obtain ⟨⟨hstar, hany⟩, hbracket⟩ := hc
    rw [List.cons_append, globTokens, if_neg hstar, if_neg hany, if_neg hbracket, ih htext]
    rfl

theorem globMatches_literal {text : List Char} (tokens : List GlobToken) {name : List Char} :
    globMatches (text.map .literal ++ tokens) name = true ↔
      ∃ rest, name = text ++ rest ∧ globMatches tokens rest = true := by
  induction text generalizing name with
  | nil => simp
  | cons c text ih =>
    rw [List.map_cons, List.cons_append, globMatches, Bool.and_eq_true, ih]
    · cases name with
      | nil => simp
      | cons d name =>
        simp only [List.head?_cons, Option.any_some, GlobToken.accepts, decide_eq_true_eq,
          List.tail_cons, List.cons_append, List.cons.injEq]
        constructor
        · rintro ⟨rfl, rest, rfl, hrest⟩
          exact ⟨rest, ⟨rfl, rfl⟩, hrest⟩
        · rintro ⟨rest, ⟨rfl, rfl⟩, hrest⟩
          exact ⟨rfl, rest, rfl, hrest⟩
    · exact nofun

theorem fnmatch_append {text pattern name : List Char} (h : ∀ c ∈ text, isGlobChar c = false) :
    fnmatch (text ++ pattern) name = true ↔
      ∃ rest, name = text ++ rest ∧ fnmatch pattern rest = true := by
  rw [fnmatch, globTokens_append h, globMatches_literal]
  rfl

end Aetus.Base
