import ZedRegistry.Access
import ZedRegistry.Lib.OptionArgs

/-!
# The arguments of the token commands

The argument loops of `create_token` and `revoke_token` in `tokens.rs`, and the
checks between them and the database.
-/

set_option autoImplicit false

namespace ZedRegistry.TokenCommands

open OptionArgs

/-! ## Numbers -/

def decimal (digits : List Char) : Option Nat :=
  if digits ≠ [] ∧ digits.all Char.isDigit = true then some (Nat.ofDigitChars 10 digits 0)
  else none

/-- `str::parse::<i64>`. -/
def parseI64 (text : String) : Option Int :=
  match text.toList with
  | '-' :: digits => ((decimal digits).filter fun value => value ≤ 2 ^ 63).map fun value => -value
  | '+' :: digits => ((decimal digits).filter fun value => value < 2 ^ 63).map Int.ofNat
  | digits => ((decimal digits).filter fun value => value < 2 ^ 63).map Int.ofNat

/-! ## `create-token` -/

structure CreateArgs where
  name : Option String
  orgSlug : Option String
  role : String
  expiresInDays : Option Int
  deriving DecidableEq

def CreateArgs.start : CreateArgs := ⟨none, none, "owner", none⟩

def expiresValue (raw : String) : Except String Int :=
  match parseI64 raw with
  | none => .error ("--expires-in-days must be a positive integer (got `" ++ raw ++ "`)")
  | some days =>
    if days ≤ 0 then
      .error ("--expires-in-days must be positive (got " ++ toString days ++ ")")
    else .ok days

def createOption (flag : String) (args : CreateArgs) (value : Option String) :
    Except String CreateArgs :=
  if flag = "--name" then .ok { args with name := value }
  else if flag = "--org" then .ok { args with orgSlug := value }
  else if flag = "--role" then
    match value with
    | none => .error "--role needs a value"
    | some role => .ok { args with role := role }
  else if flag = "--expires-in-days" then
    match value with
    | none => .error "--expires-in-days needs a value"
    | some raw => do
      let days ← expiresValue raw
      .ok { args with expiresInDays := some days }
  else .error ("unknown argument `" ++ flag ++ "`")

/-- `Role::is_valid`. -/
def validRole (role : String) : Bool :=
  role = "owner" || role = "publisher" || role = "reader"

/-- What `create_token` goes to the database with. -/
structure CreateCommand where
  name : String
  orgSlug : Option String
  role : String
  expiresInDays : Option Int
  valid : validRole role = true
  adminOwner : orgSlug = none → role = "owner"

def checkCreate (args : CreateArgs) : Except String CreateCommand :=
  match args.name with
  | none => .error "--name is required"
  | some name =>
    if invalid : validRole args.role = false then
      .error ("--role must be one of: owner, publisher, reader (got `" ++ args.role ++ "`)")
    else if unscoped : args.orgSlug = none ∧ args.role ≠ "owner" then
      .error ("--role only applies to org-scoped tokens; pass --org, or omit --role for an " ++
        "admin token")
    else .ok {
      name := name
      orgSlug := args.orgSlug
      role := args.role
      expiresInDays := args.expiresInDays
      valid := Bool.eq_true_of_not_eq_false invalid
      adminOwner := fun none' => by
        by_contra other
        exact unscoped ⟨none', other⟩ }

def createCommand (args : List String) : Except String CreateCommand := do
  checkCreate (← scan createOption .start args)

/-! ## `revoke-token` -/

structure RevokeArgs where
  name : Option String
  id : Option String
  deriving DecidableEq

def revokeOption (flag : String) (args : RevokeArgs) (value : Option String) :
    Except String RevokeArgs :=
  if flag = "--name" then .ok { args with name := value }
  else if flag = "--id" then .ok { args with id := value }
  else .error ("unknown argument `" ++ flag ++ "`")

/-- What `revoke_token` goes to the database with; the id is parsed there. -/
structure RevokeCommand where
  name : Option String
  id : Option String
  named : name ≠ none ∨ id ≠ none

def checkRevoke (args : RevokeArgs) : Except String RevokeCommand :=
  if unnamed : args.name = none ∧ args.id = none then
    .error "pass --name <name> or --id <uuid> to identify the token to revoke"
  else .ok ⟨args.name, args.id, not_and_or.mp unnamed⟩

def revokeCommand (args : List String) : Except String RevokeCommand := do
  checkRevoke (← scan revokeOption ⟨none, none⟩ args)

/-! ## What one option does -/

def createFlags : List String := ["--name", "--org", "--role", "--expires-in-days"]

section Options

variable {args next : CreateArgs} {value : String} {given : Option String}

theorem createOption_name : createOption "--name" args given = .ok { args with name := given } :=
  if_pos rfl

theorem createOption_org : createOption "--org" args given = .ok { args with orgSlug := given } :=
  rfl

theorem createOption_role :
    createOption "--role" args (some value) = .ok { args with role := value } := rfl

theorem createOption_expires : createOption "--expires-in-days" args (some value) =
    (expiresValue value).bind fun days => .ok { args with expiresInDays := some days } := rfl

theorem createOption_flag {flag : String} (taken : createOption flag args given = .ok next) :
    flag ∈ createFlags := by
  by_contra other
  simp only [createFlags, List.mem_cons, List.not_mem_nil, or_false, not_or] at other
  obtain ⟨name, org, role, expires⟩ := other
  simp [createOption, name, org, role, expires] at taken

theorem expiresValue_ok {days : Int} :
    expiresValue value = .ok days ↔ parseI64 value = some days ∧ 0 < days := by
  unfold expiresValue
  cases parseI64 value with
  | none => simp
  | some found =>
      by_cases low : found ≤ 0
      · simp only [low, if_true, reduceCtorEq, Option.some.injEq, false_iff, not_and]
        rintro rfl
        omega
      · simp only [low, if_false, Except.ok.injEq, Option.some.injEq]
        constructor
        · rintro rfl
          exact ⟨rfl, by omega⟩
        · exact fun same => same.1

/-- The four flags one by one. -/
theorem createFlags_cases {flag : String} (known : flag ∈ createFlags) :
    flag = "--name" ∨ flag = "--org" ∨ flag = "--role" ∨ flag = "--expires-in-days" := by
  simpa [createFlags] using known

/-- An option with a value sets its own field. -/
theorem createOption_sets {flag : String} (taken : createOption flag args (some value) = .ok next) :
    (flag = "--name" ∧ next = { args with name := some value }) ∨
    (flag = "--org" ∧ next = { args with orgSlug := some value }) ∨
    (flag = "--role" ∧ next = { args with role := value }) ∨
    (flag = "--expires-in-days" ∧ ∃ days, parseI64 value = some days ∧ 0 < days ∧
      next = { args with expiresInDays := some days }) := by
  rcases createFlags_cases (createOption_flag taken) with rfl | rfl | rfl | rfl
  · exact .inl ⟨rfl, (Except.ok.inj taken).symm⟩
  · exact .inr (.inl ⟨rfl, (Except.ok.inj taken).symm⟩)
  · exact .inr (.inr (.inl ⟨rfl, (Except.ok.inj taken).symm⟩))
  · rw [createOption_expires] at taken
    cases read : expiresValue value with
    | error error =>
        rw [read] at taken
        contradiction
    | ok days =>
        rw [read] at taken
        obtain ⟨parsed, positive⟩ := expiresValue_ok.mp read
        exact .inr (.inr (.inr ⟨rfl, days, parsed, positive, (Except.ok.inj taken).symm⟩))

/-- Of the options at the end of the arguments only two are read. -/
theorem createOption_trailing {flag : String} (taken : createOption flag args none = .ok next) :
    (flag = "--name" ∧ next = { args with name := none }) ∨
      flag = "--org" ∧ next = { args with orgSlug := none } := by
  rcases createFlags_cases (createOption_flag taken) with rfl | rfl | rfl | rfl
  · exact .inl ⟨rfl, (Except.ok.inj taken).symm⟩
  · exact .inr ⟨rfl, (Except.ok.inj taken).symm⟩
  · contradiction
  · contradiction

end Options

/-! ## What the arguments say -/

/-- Every option with a value is known, and every number of days is one. -/
structure Readable (given : List (String × String)) : Prop where
  known : ∀ pair ∈ given, pair.1 ∈ createFlags
  days : ∀ value, ("--expires-in-days", value) ∈ given →
    ∃ days, parseI64 value = some days ∧ 0 < days

/-- The last value of each option counts. -/
structure LastValues (given : List (String × String)) (args : CreateArgs) : Prop where
  name : args.name = last "--name" given
  orgSlug : args.orgSlug = last "--org" given
  role : args.role = (last "--role" given).getD "owner"
  expiresInDays : args.expiresInDays = (last "--expires-in-days" given).bind parseI64

section Pairs

variable {given : List (String × String)} {args : CreateArgs}

theorem readable_of_applied (applied : applyPairs createOption .start given = .ok args) :
    Readable given where
  known := by
    rintro ⟨flag, value⟩ member
    obtain ⟨middle, next, taken⟩ := applyPairs_taken applied member
    exact createOption_flag taken
  days := by
    intro value member
    obtain ⟨middle, next, taken⟩ := applyPairs_taken applied member
    rcases createOption_sets taken with ⟨other, -⟩ | ⟨other, -⟩ | ⟨other, -⟩ | ⟨-, found⟩
    · exact absurd other (by decide)
    · exact absurd other (by decide)
    · exact absurd other (by decide)
    · obtain ⟨days, parsed, positive, -⟩ := found
      exact ⟨days, parsed, positive⟩

theorem lastValues_of_applied (applied : applyPairs createOption .start given = .ok args) :
    LastValues given args where
  name := by
    have field := applyPairs_field CreateArgs.name "--name" some ?_ ?_ applied
    · rw [field]
      cases last "--name" given <;> rfl
    · intro state value next taken
      rw [createOption_name] at taken
      rw [← Except.ok.inj taken]
    · intro name state value next differs taken
      rcases createOption_sets taken with ⟨same, -⟩ | ⟨-, rfl⟩ | ⟨-, rfl⟩ | ⟨-, _, -, -, rfl⟩
      · exact absurd same differs
      · rfl
      · rfl
      · rfl
  orgSlug := by
    have field := applyPairs_field CreateArgs.orgSlug "--org" some ?_ ?_ applied
    · rw [field]
      cases last "--org" given <;> rfl
    · intro state value next taken
      rw [createOption_org] at taken
      rw [← Except.ok.inj taken]
    · intro name state value next differs taken
      rcases createOption_sets taken with ⟨-, rfl⟩ | ⟨same, -⟩ | ⟨-, rfl⟩ | ⟨-, _, -, -, rfl⟩
      · rfl
      · exact absurd same differs
      · rfl
      · rfl
  role := by
    have field := applyPairs_field CreateArgs.role "--role" id ?_ ?_ applied
    · rw [field, Option.map_id]
      rfl
    · intro state value next taken
      rw [createOption_role] at taken
      rw [← Except.ok.inj taken]
      rfl
    · intro name state value next differs taken
      rcases createOption_sets taken with ⟨-, rfl⟩ | ⟨-, rfl⟩ | ⟨same, -⟩ | ⟨-, _, -, -, rfl⟩
      · rfl
      · rfl
      · exact absurd same differs
      · rfl
  expiresInDays := by
    have field := applyPairs_field CreateArgs.expiresInDays "--expires-in-days" parseI64 ?_ ?_
      applied
    · rw [field]
      cases last "--expires-in-days" given <;> rfl
    · intro state value next taken
      rcases createOption_sets taken with ⟨other, -⟩ | ⟨other, -⟩ | ⟨other, -⟩ | ⟨-, found⟩
      · exact absurd other (by decide)
      · exact absurd other (by decide)
      · exact absurd other (by decide)
      · obtain ⟨days, parsed, -, rfl⟩ := found
        exact parsed.symm
    · intro name state value next differs taken
      rcases createOption_sets taken with ⟨-, rfl⟩ | ⟨-, rfl⟩ | ⟨-, rfl⟩ | ⟨same, -⟩
      · rfl
      · rfl
      · rfl
      · exact absurd same differs

theorem applied_of_readable (readable : Readable given) :
    ∃ args, applyPairs createOption .start given = .ok args := by
  refine applyPairs_ok (fun flag value member state => ?_) _
  rcases createFlags_cases (readable.known _ member) with rfl | rfl | rfl | rfl
  · exact ⟨_, createOption_name⟩
  · exact ⟨_, createOption_org⟩
  · exact ⟨_, createOption_role⟩
  · obtain ⟨days, read⟩ := readable.days value member
    exact ⟨_, by rw [createOption_expires, expiresValue_ok.mpr read]; rfl⟩

end Pairs

/-! ## Which token the arguments ask for -/

theorem checkCreate_ok {args : CreateArgs} {command : CreateCommand} :
    checkCreate args = .ok command ↔ args.name = some command.name ∧
      command.orgSlug = args.orgSlug ∧ command.role = args.role ∧
        command.expiresInDays = args.expiresInDays := by
  obtain ⟨name, orgSlug, role, expiresInDays⟩ := args
  obtain ⟨name', orgSlug', role', expiresInDays', valid, adminOwner⟩ := command
  unfold checkCreate
  cases name with
  | none => simp
  | some name =>
      simp only [Option.some.injEq]
      split
      · rename_i invalid
        simp only [reduceCtorEq, false_iff, not_and]
        rintro - - rfl
        rw [valid] at invalid
        contradiction
      · split
        · rename_i unscoped
          simp only [reduceCtorEq, false_iff, not_and]
          rintro - rfl rfl
          exact absurd (adminOwner unscoped.1) unscoped.2
        · simp only [Except.ok.injEq, CreateCommand.mk.injEq]
          constructor
          · rintro ⟨rfl, rfl, rfl, rfl⟩
            exact ⟨rfl, rfl, rfl, rfl⟩
          · rintro ⟨rfl, rfl, rfl, rfl⟩
            exact ⟨rfl, rfl, rfl, rfl⟩

/-- `create-token` is accepted exactly for pairs of options of which the last of each kind
counts; an `--org` at the very end takes the scope away again. -/
theorem createCommand_ok_iff {args : List String} {command : CreateCommand} :
    createCommand args = .ok command ↔
      Readable (pairs args) ∧
      (trailing args = none ∨ trailing args = some "--org") ∧
      last "--name" (pairs args) = some command.name ∧
      command.orgSlug = (if trailing args = none then last "--org" (pairs args) else none) ∧
      command.role = (last "--role" (pairs args)).getD "owner" ∧
      command.expiresInDays = (last "--expires-in-days" (pairs args)).bind parseI64 := by
  rw [createCommand, bind_ok, scan_eq]
  constructor
  · rintro ⟨scanned, read, checked⟩
    obtain ⟨named, org, role, expires⟩ := checkCreate_ok.mp checked
    obtain ⟨middle, applied, ended⟩ := bind_ok.mp read
    have values := lastValues_of_applied applied
    refine ⟨readable_of_applied applied, ?_⟩
    cases bare : trailing args with
    | none =>
        rw [bare] at ended
        obtain rfl := Except.ok.inj ended
        rw [values.name] at named
        rw [values.orgSlug] at org
        exact ⟨.inl rfl, named, org, role.trans values.role, expires.trans values.expiresInDays⟩
    | some flag =>
        rw [bare] at ended
        rcases createOption_trailing ended with ⟨-, rfl⟩ | ⟨rfl, rfl⟩
        · contradiction
        · refine ⟨.inr rfl, values.name.symm.trans named, org, role.trans values.role,
            expires.trans values.expiresInDays⟩
  · rintro ⟨readable, bare, named, org, role, expires⟩
    obtain ⟨middle, applied⟩ := applied_of_readable readable
    have values := lastValues_of_applied applied
    rcases bare with complete | scopeless
    · rw [complete, if_pos rfl] at org
      refine ⟨middle, bind_ok.mpr ⟨middle, applied, by rw [complete]⟩, checkCreate_ok.mpr ?_⟩
      exact ⟨values.name.trans named, org.trans values.orgSlug.symm, role.trans values.role.symm,
        expires.trans values.expiresInDays.symm⟩
    · rw [scopeless, if_neg (by simp)] at org
      refine ⟨{ middle with orgSlug := none }, bind_ok.mpr ⟨middle, applied, ?_⟩,
        checkCreate_ok.mpr ?_⟩
      · rw [scopeless]
        exact createOption_org
      · exact ⟨values.name.trans named, org, role.trans values.role.symm,
          expires.trans values.expiresInDays.symm⟩

/-- A token is an admin token when no scope is given, or when the arguments end in a bare
`--org`, whatever scope was given before. -/
theorem createCommand_admin {args : List String} {command : CreateCommand}
    (accepted : createCommand args = .ok command) :
    (command.orgSlug = none ↔ trailing args = some "--org" ∨
      ∀ pair ∈ pairs args, pair.1 ≠ "--org") ∧
    (trailing args = none → command.role = "owner" →
      ∃ admin, createCommand (args ++ ["--org"]) = .ok admin ∧ admin.orgSlug = none ∧
        admin.name = command.name ∧ admin.expiresInDays = command.expiresInDays) := by
  obtain ⟨readable, bare, named, org, role, expires⟩ := createCommand_ok_iff.mp accepted
  constructor
  · rw [org]
    rcases bare with complete | scopeless
    · simp only [complete, if_true, reduceCtorEq, false_or]
      exact last_eq_none
    · simp [scopeless]
  · intro complete owner
    obtain ⟨same, ends⟩ := pairs_append_flag complete "--org"
    refine ⟨⟨command.name, none, command.role, command.expiresInDays, command.valid,
      fun _ => owner⟩, createCommand_ok_iff.mpr ?_, rfl, rfl, rfl⟩
    rw [same, ends]
    exact ⟨readable, .inr rfl, named, rfl, role, expires⟩

/-- A scoped owner's arguments, and the same with a bare `--org` after them. -/
theorem createCommand_admin_sample : ∃ command,
    createCommand ["--name", "ci", "--org", "acme"] = .ok command ∧
    (command.orgSlug = none ↔ trailing ["--name", "ci", "--org", "acme"] = some "--org" ∨
      ∀ pair ∈ pairs ["--name", "ci", "--org", "acme"], pair.1 ≠ "--org") ∧
    (trailing ["--name", "ci", "--org", "acme"] = none → command.role = "owner" →
      ∃ admin, createCommand (["--name", "ci", "--org", "acme"] ++ ["--org"]) = .ok admin ∧
        admin.orgSlug = none ∧ admin.name = command.name ∧
          admin.expiresInDays = command.expiresInDays) := by
  have accepted : (createCommand ["--name", "ci", "--org", "acme"]).toOption.isSome = true := by
    decide
  obtain ⟨command, found⟩ := Option.isSome_iff_exists.mp accepted
  exact ⟨command, toOption_ok found, createCommand_admin (toOption_ok found)⟩

end ZedRegistry.TokenCommands
