import Mathlib.Data.List.Basic

/-!
# Prefixes in an ordered set of texts

In the lexicographic order the texts with a given prefix are an interval that
starts at the prefix itself.  So one lookup, of the least text from the prefix
on, tells whether any text of a set has it.
-/

set_option autoImplicit false

namespace PrefixRange

variable {Letter : Type} [LT Letter] [Std.Irrefl (α := Letter) (· < ·)]
  [Std.Asymm (α := Letter) (· < ·)] [Std.Trichotomous (α := Letter) (· < ·)]

theorem prefix_of_between {start middle extension : List Letter} (low : start ≤ middle)
    (high : middle ≤ extension) (hasPrefix : start <+: extension) : start <+: middle := by
  induction start generalizing middle extension with
  | nil => exact List.nil_prefix
  | cons letter start ih =>
      cases extension with
      | nil => exact absurd hasPrefix.length_le (by simp)
      | cons other extension =>
          obtain ⟨rfl, restPrefix⟩ := List.cons_prefix_cons.mp hasPrefix
          cases middle with
          | nil => exact absurd (List.nil_lt_cons letter start) low
          | cons between middle =>
              rcases List.cons_le_cons_iff.mp low with below | ⟨rfl, lowRest⟩
              · rcases List.cons_le_cons_iff.mp high with above | ⟨rfl, _⟩
                · exact absurd above (Std.Asymm.asymm _ _ below)
                · exact absurd below (Std.Irrefl.irrefl _)
              · rcases List.cons_le_cons_iff.mp high with above | ⟨_, highRest⟩
                · exact absurd above (Std.Irrefl.irrefl _)
                · exact List.cons_prefix_cons.mpr ⟨rfl, ih lowRest highRest restPrefix⟩

/-- `least` is the first of `texts` from `start` on. -/
structure IsFirstFrom (start : List Letter) (texts : List (List Letter))
    (least : List Letter) : Prop where
  member : least ∈ texts
  above : start ≤ least
  first : ∀ text ∈ texts, start ≤ text → least ≤ text

/-- The first text from a prefix on has the prefix if any text has. -/
theorem IsFirstFrom.prefix_iff {start least : List Letter} {texts : List (List Letter)}
    (isFirst : IsFirstFrom start texts least) :
    start <+: least ↔ ∃ text ∈ texts, start <+: text := by
  constructor
  · intro hasPrefix
    exact ⟨least, isFirst.member, hasPrefix⟩
  · rintro ⟨text, member, hasPrefix⟩
    exact prefix_of_between isFirst.above (isFirst.first text member hasPrefix.le) hasPrefix

end PrefixRange
