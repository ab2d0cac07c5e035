import ZedRegistry.PackageViews
import ZedRegistry.Lib.LikePattern

/-!
# Escaped search text

`contains_escaped` of `routes/search.rs` under the reading of `LIKE … ESCAPE '\'`.
-/

set_option autoImplicit false

namespace ZedRegistry.PackageViews

open LikePattern

/-- `text LIKE pattern ESCAPE '\'`; `accepts` is the case rule of the operator. -/
def SqlLike (accepts : Char → Char → Prop) (pattern text : String) : Prop :=
  ∃ items, tokens '\\' '%' '_' pattern.toList = some items ∧ Matches accepts items text.toList

instance (accepts : Char → Char → Prop) [∀ accepted letter, Decidable (accepts accepted letter)]
    (pattern text : String) : Decidable (SqlLike accepts pattern text) :=
  match read : tokens '\\' '%' '_' pattern.toList with
  | none => isFalse (by simp [SqlLike, read])
  | some items => decidable_of_iff (Matches accepts items text.toList) (by simp [SqlLike, read])

/-! ## The escaping in the steps of the source -/

/-- `str::replace` of one character. -/
def replaceChar (old : Char) (new : List Char) (text : List Char) : List Char :=
  text.flatMap fun char => if char = old then new else [char]

theorem replaceChar_append (old : Char) (new left right : List Char) :
    replaceChar old new (left ++ right) = replaceChar old new left ++ replaceChar old new right :=
  List.flatMap_append

/-- The three replacements, the backslash first, escape each special character once. -/
theorem escapeLike_eq_replacements (q : String) :
    (escapeLike q).toList =
      replaceChar '_' ['\\', '_'] (replaceChar '%' ['\\', '%']
        (replaceChar '\\' ['\\', '\\'] q.toList)) := by
  rw [escapeLike, String.toList_ofList]
  induction q.toList with
  | nil => rfl
  | cons char rest ih =>
      have split : char :: rest = [char] ++ rest := rfl
      rw [split, List.flatMap_append, ih, replaceChar_append, replaceChar_append,
        replaceChar_append]
      congr 1
      by_cases backslash : char = '\\'
      · rw [backslash]
        decide
      · by_cases percent : char = '%'
        · rw [percent]
          decide
        · by_cases underscore : char = '_'
          · rw [underscore]
            decide
          · simp [replaceChar, backslash, percent, underscore]

theorem containsEscaped_tokens (q : String) :
    tokens '\\' '%' '_' (containsEscaped q).toList =
      some (.run :: (q.toList.map Token.letter ++ [.run])) := by
  have read := tokens_escaped_append '\\' '%' '_' q.toList ['%']
  have framed : (containsEscaped q).toList = '%' :: (escaped '\\' '%' '_' q.toList ++ ['%']) := by
    simp [containsEscaped, escapeLike, escaped]
  have last : tokens '\\' '%' '_' ['%'] = some [.run] := tokens_many _ _ _ (by decide) []
  rw [framed, tokens_many _ _ _ (by decide), read, last]
  rfl

/-- The pattern of a query matches exactly the texts that contain the query, as it
stands. -/
theorem containsEscaped_exact (accepts : Char → Char → Prop) (q text : String) :
    SqlLike accepts (containsEscaped q) text ↔ Contains accepts q.toList text.toList := by
  rw [SqlLike, containsEscaped_tokens]
  simp only [Option.some.injEq, exists_eq_left', matches_run_letters_run]

end ZedRegistry.PackageViews
