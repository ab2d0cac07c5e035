import ZedRegistry.ArtifactStore
import ZedRegistry.Lib.Delimiters

/-!
# Spellings of a GitHub repository

`parse_github` strips a scheme, slashes and `.git` from the ends of a text.  Each
spelling of a repository leads to one owner and repo, and the plain `https` URL
of what was parsed is parsed to the same.
-/

set_option autoImplicit false

namespace ZedRegistry

open Delimiters

def githubPrefixes : List String :=
  ["https://github.com/", "http://github.com/", "git@github.com:"]

theorem stripScheme_prefix {scheme : String} (known : scheme ∈ githubPrefixes)
    (rest : List Char) : stripScheme (scheme.toList ++ rest) = some rest := by
  rcases List.mem_cons.mp known with rfl | known
  · simp [stripScheme, List.dropPrefix?]
  · rcases List.mem_cons.mp known with rfl | known
    · simp [stripScheme, List.dropPrefix?]
    · obtain rfl := List.mem_singleton.mp known
      simp [stripScheme, List.dropPrefix?]

/-! ## Segments -/

/-- A name that is safe in a path: letters, digits, `.`, `_`, `-`, and not only dots. -/
structure SafeSegment (text : List Char) : Prop where
  nonempty : text ≠ []
  letters : ∀ char ∈ text, char.isAlphanum = true ∨ char = '.' ∨ char = '_' ∨ char = '-'
  notDots : ∃ char ∈ text, char ≠ '.'

theorem validRepoSegment_iff (text : List Char) :
    validRepoSegment text = true ↔ SafeSegment text := by
  constructor
  · intro valid
    simp only [validRepoSegment, Bool.and_eq_true, decide_eq_true_eq, List.all_eq_true,
      List.any_eq_true, Bool.or_eq_true] at valid
    obtain ⟨⟨nonempty, letters⟩, notDots⟩ := valid
    refine ⟨nonempty, ?_, notDots⟩
    intro char member
    simpa only [or_assoc] using letters char member
  · rintro ⟨nonempty, letters, notDots⟩
    simp only [validRepoSegment, Bool.and_eq_true, decide_eq_true_eq, List.all_eq_true,
      List.any_eq_true, Bool.or_eq_true]
    refine ⟨⟨nonempty, ?_⟩, notDots⟩
    intro char member
    simpa only [or_assoc] using letters char member

theorem SafeSegment.slashFree {text : List Char} (safe : SafeSegment text) : '/' ∉ text := by
  intro member
  rcases safe.letters '/' member with letter | rest
  · exact absurd letter (by decide)
  · exact absurd rest (by decide)

/-! ## The end of the text -/

def gitEnding : List Char := ".git".toList

theorem dropGit_stops (text : List Char) : ¬ gitEnding.reverse <+: dropGit text := by
  fun_induction dropGit text with
  | case1 rest ih => exact ih
  | case2 text other =>
      rintro ⟨rest, rfl⟩
      exact other rest rfl

theorem dropGit_of_not_prefix {text : List Char} (other : ¬ gitEnding.reverse <+: text) :
    dropGit text = text := by
  fun_induction dropGit text with
  | case1 rest ih => exact absurd ⟨rest, rfl⟩ other
  | case2 text _ => rfl

/-- What the parser makes of the text after the scheme. -/
def trimmedEnd (text : List Char) : List Char :=
  (dropGit (text.reverse.dropWhile fun char => char = '/')).reverse

theorem trimmedEnd_not_git (text : List Char) : ¬ gitEnding <:+ trimmedEnd text := by
  rw [← List.reverse_prefix, trimmedEnd, List.reverse_reverse]
  exact dropGit_stops _

theorem trimmedEnd_slashes {body : List Char} (solid : body.getLast? ≠ some '/')
    (slashes : Nat) :
    trimmedEnd (body ++ List.replicate slashes '/') = (dropGit body.reverse).reverse := by
  have cut : (List.replicate slashes '/' ++ body.reverse).dropWhile (fun char => char = '/') =
      body.reverse := by
    apply dropWhile_front
    · intro char member
      simpa using List.eq_of_mem_replicate member
    · intro char isHead
      rw [List.head?_reverse] at isHead
      have other : char ≠ '/' := by
        rintro rfl
        exact solid isHead
      simpa using other
  rw [trimmedEnd, List.reverse_append, List.reverse_replicate, cut]

/-- An optional `.git` and any number of slashes are taken off a text that does not end
with either. -/
theorem trimmedEnd_spelling {body : List Char} (solid : body.getLast? ≠ some '/')
    (bare : ¬ gitEnding <:+ body) {ending : String} (optional : ending = "" ∨ ending = ".git")
    (slashes : Nat) :
    trimmedEnd (body ++ ending.toList ++ List.replicate slashes '/') = body := by
  have plain : dropGit body.reverse = body.reverse := by
    apply dropGit_of_not_prefix
    rw [List.reverse_prefix]
    exact bare
  rcases optional with rfl | rfl
  · have noEnding : body ++ "".toList = body := List.append_nil body
    rw [noEnding, trimmedEnd_slashes solid, plain, List.reverse_reverse]
  · have solidEnding : (body ++ ".git".toList).getLast? ≠ some '/' := by
      simp [List.getLast?_append]
    have dropped : dropGit (body ++ ".git".toList).reverse = dropGit body.reverse := by
      rw [List.reverse_append]
      rfl
    rw [trimmedEnd_slashes solidEnding, dropped, plain, List.reverse_reverse]

/-! ## Owner and repo -/

theorem parseGithub_eq_some {url owner repo : String} :
    parseGithub url = some (owner, repo) ↔
      ∃ rest, stripScheme url.toList = some rest ∧
        trimmedEnd rest = owner.toList ++ '/' :: repo.toList ∧
        SafeSegment owner.toList ∧ SafeSegment repo.toList := by
  constructor
  · intro parsed
    unfold parseGithub at parsed
    obtain ⟨rest, stripped, parsed⟩ := Option.bind_eq_some_iff.mp parsed
    dsimp only at parsed
    split at parsed
    · rename_i tail cut
      split at parsed
      · rename_i accepted
        obtain ⟨_, ownerValid, repoValid⟩ := accepted
        simp only [Option.some.injEq, Prod.mk.injEq] at parsed
        obtain ⟨rfl, rfl⟩ := parsed
        rw [String.toList_ofList, String.toList_ofList]
        refine ⟨rest, stripped, ?_, (validRepoSegment_iff _).mp ownerValid,
          (validRepoSegment_iff _).mp repoValid⟩
        rw [← cut, List.takeWhile_append_dropWhile]
        rfl
      · contradiction
    · contradiction
  · rintro ⟨rest, stripped, trimmed, ownerSafe, repoSafe⟩
    have kept : ∀ char ∈ owner.toList, decide (char ≠ '/') = true := by
      intro char member
      have other : char ≠ '/' := fun same => ownerSafe.slashFree (same ▸ member)
      simpa using other
    have stops : Stops (fun char => decide (char ≠ '/')) ('/' :: repo.toList) :=
      stops_cons (by decide)
    have front := takeWhile_front kept stops
    have back := dropWhile_front kept stops
    have accepted : '/' ∉ repo.toList ∧ validRepoSegment owner.toList = true ∧
        validRepoSegment repo.toList = true :=
      ⟨repoSafe.slashFree, (validRepoSegment_iff _).mpr ownerSafe,
        (validRepoSegment_iff _).mpr repoSafe⟩
    unfold trimmedEnd at trimmed
    unfold parseGithub
    rw [stripped]
    simp only [bind, Option.bind_some, trimmed, front, back, if_pos accepted,
      String.ofList_toList]

theorem gitEnding_slash {owner repo : List Char} :
    gitEnding <:+ owner ++ '/' :: repo ↔ gitEnding <:+ repo := by
  have free : '/' ∉ gitEnding.reverse := by decide
  rw [← List.reverse_prefix, ← List.reverse_prefix, List.reverse_append, List.reverse_cons,
    List.append_assoc]
  exact prefix_before_iff free

/-- The repository in any spelling, as the parser reads it. -/
theorem parseGithub_spelling {owner repo : String} (ownerSafe : SafeSegment owner.toList)
    (repoSafe : SafeSegment repo.toList) (bare : ¬ gitEnding <:+ repo.toList) {scheme : String}
    (known : scheme ∈ githubPrefixes) {ending : String}
    (optional : ending = "" ∨ ending = ".git") (slashes : Nat) :
    parseGithub (scheme ++ owner ++ "/" ++ repo ++ ending ++
      String.ofList (List.replicate slashes '/')) = some (owner, repo) := by
  have spelled : (scheme ++ owner ++ "/" ++ repo ++ ending ++
      String.ofList (List.replicate slashes '/')).toList =
      scheme.toList ++ (owner.toList ++ '/' :: repo.toList ++ ending.toList ++
        List.replicate slashes '/') := by
    simp only [String.toList_append, String.toList_ofList, List.append_assoc]
    rfl
  have solid : (owner.toList ++ '/' :: repo.toList).getLast? ≠ some '/' := by
    intro slash
    obtain ⟨last, isLast⟩ := Option.ne_none_iff_exists'.mp
      (mt List.getLast?_eq_none_iff.mp repoSafe.nonempty)
    have inRepo := List.mem_of_getLast? isLast
    rw [List.getLast?_append, List.getLast?_cons, isLast] at slash
    have same : last = '/' := by simpa using slash
    exact repoSafe.slashFree (same ▸ inRepo)
  have stripped := stripScheme_prefix known
    (owner.toList ++ '/' :: repo.toList ++ ending.toList ++ List.replicate slashes '/')
  rw [← spelled] at stripped
  exact parseGithub_eq_some.mpr ⟨_, stripped,
    trimmedEnd_spelling solid (mt gitEnding_slash.mp bare) optional slashes, ownerSafe, repoSafe⟩

/-- Every spelling gives the owner and the repo, and what is given is safe and is its
own spelling. -/
theorem parseGithub_spellings :
    (∀ owner repo : String, validRepoSegment owner.toList = true →
      validRepoSegment repo.toList = true → ¬ gitEnding <:+ repo.toList →
      ∀ scheme ∈ githubPrefixes, ∀ ending ∈ ["", ".git"], ∀ slashes : Nat,
        parseGithub (scheme ++ owner ++ "/" ++ repo ++ ending ++
          String.ofList (List.replicate slashes '/')) = some (owner, repo)) ∧
    ∀ url owner repo : String, parseGithub url = some (owner, repo) →
      SafeSegment owner.toList ∧ SafeSegment repo.toList ∧
        parseGithub ("https://github.com/" ++ owner ++ "/" ++ repo) = some (owner, repo) := by
  constructor
  · intro owner repo ownerValid repoValid bare scheme known ending optional slashes
    refine parseGithub_spelling ((validRepoSegment_iff _).mp ownerValid)
      ((validRepoSegment_iff _).mp repoValid) bare known ?_ slashes
    simpa using optional
  · intro url owner repo parsed
    obtain ⟨rest, _, trimmed, ownerSafe, repoSafe⟩ := parseGithub_eq_some.mp parsed
    have bare : ¬ gitEnding <:+ repo.toList := by
      have notGit := trimmedEnd_not_git rest
      rwa [trimmed, gitEnding_slash] at notGit
    have plain := parseGithub_spelling ownerSafe repoSafe bare
      (List.mem_cons_self : "https://github.com/" ∈ githubPrefixes) (Or.inl rfl) 0
    refine ⟨ownerSafe, repoSafe, ?_⟩
    rw [List.replicate_zero, String.ofList_nil, String.append_empty, String.append_empty] at plain
    exact plain

theorem parseGithub_spellings_sample :
    parseGithub ("git@github.com:" ++ "acme" ++ "/" ++ "http-kit" ++ ".git" ++
        String.ofList (List.replicate 2 '/')) = some ("acme", "http-kit") ∧
      parseGithub ("https://github.com/" ++ "acme" ++ "/" ++ "http-kit") =
        some ("acme", "http-kit") := by
  obtain ⟨spellings, parsed⟩ := parseGithub_spellings
  have spelled := spellings "acme" "http-kit" (by decide) (by decide) (by decide)
    "git@github.com:" (by decide) ".git" (by decide) 2
  exact ⟨spelled, (parsed _ _ _ spelled).2.2⟩

end ZedRegistry
