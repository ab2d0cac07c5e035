import Mathlib.Algebra.Order.Ring.Int
import Mathlib.Data.List.Basic

/-!
# Route templates

A template is a sequence of pieces: fixed text, a parameter that takes one nonempty
segment, a tail that takes a nonempty remainder.  `apart` compares two templates piece
by piece; where it holds, no path is covered by both.
-/

set_option autoImplicit false

namespace RouteTemplates

variable {σ : Type} [DecidableEq σ]

inductive Piece (σ : Type) where
  | fixed (text : List σ)
  | parameter
  | tail
  deriving DecidableEq

def covers : List (Piece σ) → List (List σ) → Bool
  | [], [] => true
  | .tail :: _, segments => segments ≠ [] && segments ≠ [[]]
  | .fixed text :: pieces, segment :: segments => text = segment && covers pieces segments
  | .parameter :: pieces, segment :: segments => segment ≠ [] && covers pieces segments
  | _, _ => false

@[simp] theorem covers_nil {segments : List (List σ)} :
    covers [] segments = true ↔ segments = [] := by
  cases segments <;> simp [covers]

@[simp] theorem covers_tail {pieces : List (Piece σ)} {segments : List (List σ)} :
    covers (.tail :: pieces) segments = true ↔ segments ≠ [] ∧ segments ≠ [[]] := by
  simp [covers]

@[simp] theorem covers_fixed {text : List σ} {pieces : List (Piece σ)}
    {segments : List (List σ)} :
    covers (.fixed text :: pieces) segments = true ↔
      ∃ later, segments = text :: later ∧ covers pieces later = true := by
  cases segments with
  | nil => simp [covers]
  | cons segment segments =>
      simp only [covers, Bool.and_eq_true, decide_eq_true_eq, List.cons.injEq]
      constructor
      · rintro ⟨rfl, rest⟩
        exact ⟨segments, ⟨rfl, rfl⟩, rest⟩
      · rintro ⟨later, ⟨rfl, rfl⟩, rest⟩
        exact ⟨rfl, rest⟩

@[simp] theorem covers_parameter {pieces : List (Piece σ)} {segments : List (List σ)} :
    covers (.parameter :: pieces) segments = true ↔
      ∃ segment later, segments = segment :: later ∧ segment ≠ [] ∧
        covers pieces later = true := by
  cases segments with
  | nil => simp [covers]
  | cons segment segments =>
      simp only [covers, Bool.and_eq_true, decide_eq_true_eq, List.cons.injEq]
      constructor
      · rintro ⟨nonempty, rest⟩
        exact ⟨segment, segments, ⟨rfl, rfl⟩, nonempty, rest⟩
      · rintro ⟨first, later, ⟨rfl, rfl⟩, nonempty, rest⟩
        exact ⟨nonempty, rest⟩

/-! ## Templates that no path satisfies together -/

def apart : List (Piece σ) → List (Piece σ) → Bool
  | [], others => others ≠ []
  | _ :: _, [] => true
  | .tail :: _, _ :: _ => false
  | _ :: _, .tail :: _ => false
  | .fixed text :: pieces, .fixed other :: others => text ≠ other || apart pieces others
  | _ :: pieces, _ :: others => apart pieces others

theorem covers_cons_nonempty {piece : Piece σ} {pieces : List (Piece σ)}
    {segments : List (List σ)} (covered : covers (piece :: pieces) segments = true) :
    segments ≠ [] := by
  rintro rfl
  cases piece <;> simp at covered

theorem covers_later {piece : Piece σ} {pieces : List (Piece σ)} {segment : List σ}
    {segments : List (List σ)} (within : piece ≠ .tail)
    (covered : covers (piece :: pieces) (segment :: segments) = true) :
    covers pieces segments = true := by
  cases piece with
  | fixed text =>
      obtain ⟨later, same, rest⟩ := covers_fixed.mp covered
      cases same
      exact rest
  | parameter =>
      obtain ⟨first, later, same, _, rest⟩ := covers_parameter.mp covered
      cases same
      exact rest
  | tail => exact absurd rfl within

theorem apart_sound {pieces others : List (Piece σ)} (separated : apart pieces others = true)
    {segments : List (List σ)} (covered : covers pieces segments = true) :
    covers others segments = false := by
  rw [← Bool.not_eq_true]
  intro also
  induction pieces generalizing others segments with
  | nil =>
      rw [covers_nil] at covered
      subst covered
      cases others with
      | nil => simp [apart] at separated
      | cons other others => exact covers_cons_nonempty also rfl
  | cons piece pieces ih =>
      cases segments with
      | nil => exact covers_cons_nonempty covered rfl
      | cons segment segments =>
          cases others with
          | nil => simp at also
          | cons other others =>
              have onward : piece ≠ .tail → other ≠ .tail → apart pieces others = true → False :=
                fun within within' further =>
                  ih further (covers_later within covered) (covers_later within' also)
              cases piece with
              | tail => simp [apart] at separated
              | parameter =>
                  cases other with
                  | tail => simp [apart] at separated
                  | parameter => exact onward (by simp) (by simp) (by simpa [apart] using separated)
                  | fixed text =>
                      exact onward (by simp) (by simp) (by simpa [apart] using separated)
              | fixed text =>
                  cases other with
                  | tail => simp [apart] at separated
                  | parameter => exact onward (by simp) (by simp) (by simpa [apart] using separated)
                  | fixed text' =>
                      -- the two templates differ here, or they do further on
                      simp only [apart, Bool.or_eq_true, decide_eq_true_eq] at separated
                      rcases separated with differ | further
                      · obtain ⟨later, same, _⟩ := covers_fixed.mp covered
                        obtain ⟨later', same', _⟩ := covers_fixed.mp also
                        rw [same] at same'
                        exact differ (List.cons.inj same').1
                      · exact onward (by simp) (by simp) further

/-! ## A trailing separator -/

/-- No piece asks for an empty segment. -/
def Solid (pieces : List (Piece σ)) : Prop := .fixed [] ∉ pieces

instance (pieces : List (Piece σ)) : Decidable (Solid pieces) :=
  inferInstanceAs (Decidable (_ ∉ _))

theorem covers_without_trailing {pieces : List (Piece σ)} (solid : Solid pieces)
    {segments : List (List σ)} (nonempty : ∀ segment ∈ segments, segment ≠ [])
    (covered : covers pieces (segments ++ [[]]) = true) : covers pieces segments = true := by
  induction pieces generalizing segments with
  | nil => simp at covered
  | cons piece pieces ih =>
      have further : Solid pieces := fun member => solid (List.mem_cons_of_mem _ member)
      cases segments with
      | nil =>
          cases piece with
          | fixed text =>
              obtain ⟨later, same, _⟩ := covers_fixed.mp covered
              cases same
              exact absurd List.mem_cons_self solid
          | parameter =>
              obtain ⟨first, later, same, filled, _⟩ := covers_parameter.mp covered
              cases same
              exact absurd rfl filled
          | tail => simp at covered
      | cons segment segments =>
          have filled := nonempty segment List.mem_cons_self
          have others : ∀ other ∈ segments, other ≠ [] := fun other member =>
            nonempty other (List.mem_cons_of_mem _ member)
          rw [List.cons_append] at covered
          cases piece with
          | fixed text =>
              obtain ⟨later, same, rest⟩ := covers_fixed.mp covered
              cases same
              exact covers_fixed.mpr ⟨segments, rfl, ih further others rest⟩
          | parameter =>
              obtain ⟨first, later, same, _, rest⟩ := covers_parameter.mp covered
              cases same
              exact covers_parameter.mpr ⟨segment, segments, rfl, filled, ih further others rest⟩
          | tail =>
              refine covers_tail.mpr ⟨by simp, fun single => filled ?_⟩
              exact (List.cons.inj single).1

/-! ## Fixed beginnings -/

theorem fixed_prefix {root : List (List σ)} {pieces : List (Piece σ)} {segments : List (List σ)}
    (covered : covers (root.map .fixed ++ pieces) segments = true) : root <+: segments := by
  induction root generalizing segments with
  | nil => exact List.nil_prefix
  | cons text root ih =>
      obtain ⟨later, rfl, rest⟩ := covers_fixed.mp covered
      exact (List.prefix_cons_inj text).mpr (ih rest)

theorem covers_all_fixed {texts segments : List (List σ)}
    (covered : covers (texts.map .fixed) segments = true) : segments = texts := by
  induction texts generalizing segments with
  | nil => simpa using covered
  | cons text texts ih =>
      obtain ⟨later, rfl, rest⟩ := covers_fixed.mp covered
      rw [ih rest]

theorem covers_fixed_self (texts : List (List σ)) : covers (texts.map .fixed) texts = true := by
  induction texts with
  | nil => rfl
  | cons text texts ih => exact covers_fixed.mpr ⟨texts, rfl, ih⟩

/-! ## Routers -/

/-- What picks one of the routes that accept a path, and refuses only where none does. -/
structure Router (ρ π : Type) (accepts : ρ → π → Bool) where
  select : List ρ → π → Option ρ
  select_mem : ∀ {routes path route}, select routes path = some route → route ∈ routes
  select_accepts : ∀ {routes path route}, select routes path = some route →
    accepts route path = true
  select_none : ∀ {routes path}, select routes path = none →
    ∀ route ∈ routes, accepts route path = false

/-- The routes in the order they are listed. -/
def firstAccepting (ρ π : Type) (accepts : ρ → π → Bool) : Router ρ π accepts where
  select routes path := routes.find? fun route => accepts route path
  select_mem found := List.mem_of_find?_eq_some found
  select_accepts {_ path _} found := @List.find?_some _ (fun route => accepts route path) _ _ found
  select_none missing route member := by
    rw [← Bool.not_eq_true]
    exact List.find?_eq_none.mp missing route member

end RouteTemplates
