import Mathlib.Logic.Function.Basic
import ZedRegistry.Access
import ZedRegistry.Lib.RelyGuarantee

/-!
# Package settings under concurrent patches

`update_package_settings`: a request reads the row, fills the fields it does not
supply from what it has read, and has all of them written in a second call.
Against it stands a register per field that the last request to supply the field
decides.
-/

set_option autoImplicit false

namespace ZedRegistry.PackageSettings

open RelyGuarantee Execution

/-! ## The row and its patches -/

structure PackageRow (Value : Type) where
  description : Option String
  projectId : Option Uuid
  repoUrl : String
  homepageUrl : Option String
  keywords : Value
  config : Value
  deriving DecidableEq

structure PackageSettingsRequest (Value : Type) where
  description : Option String
  projectId : Option Uuid
  repoUrl : Option String
  homepageUrl : Option String
  keywords : Option Value
  config : Option Value

structure PackageSettingsPatch (Value : Type) where
  description : Option String
  projectId : Option Uuid
  repoUrl : String
  homepageUrl : Option String
  keywords : Value
  config : Value

/-- `Value` is `serde_json::Value`; `store` is what
`update_package_settings_for_user` makes of a row. -/
structure SettingsEnv (Value : Type) where
  isEmptyObject : Value → Bool
  store : PackageSettingsPatch Value → PackageRow Value → PackageRow Value
  registryRead : Bool
  registryWrite : Bool

variable {Value : Type} (env : SettingsEnv Value)

def patchOf (request : PackageSettingsRequest Value) (current : PackageRow Value) :
    PackageSettingsPatch Value where
  description := request.description
  projectId := request.projectId
  repoUrl := request.repoUrl.getD current.repoUrl
  homepageUrl := request.homepageUrl.or current.homepageUrl
  keywords := request.keywords.getD current.keywords
  config := (request.config.filter fun value => !env.isEmptyObject value).getD current.config

/-! ## The four merged fields -/

inductive Field where
  | repoUrl
  | homepageUrl
  | keywords
  | config
  deriving DecidableEq

inductive FieldValue (Value : Type) where
  | text (value : String)
  | optional (value : Option String)
  | json (value : Value)
  deriving DecidableEq

def PackageRow.get (row : PackageRow Value) : Field → FieldValue Value
  | .repoUrl => .text row.repoUrl
  | .homepageUrl => .optional row.homepageUrl
  | .keywords => .json row.keywords
  | .config => .json row.config

def PackageSettingsPatch.get (patch : PackageSettingsPatch Value) : Field → FieldValue Value
  | .repoUrl => .text patch.repoUrl
  | .homepageUrl => .optional patch.homepageUrl
  | .keywords => .json patch.keywords
  | .config => .json patch.config

/-- An empty `config` counts as not supplied. -/
def supplied (request : PackageSettingsRequest Value) : Field → Option (FieldValue Value)
  | .repoUrl => request.repoUrl.map .text
  | .homepageUrl => request.homepageUrl.map fun url => .optional (some url)
  | .keywords => request.keywords.map .json
  | .config => (request.config.filter fun value => !env.isEmptyObject value).map .json

/-- The call stores the four values it is given. -/
def StoresPatch : Prop := ∀ patch row field, (env.store patch row).get field = patch.get field

theorem patchOf_get (request : PackageSettingsRequest Value) (current : PackageRow Value)
    (field : Field) :
    (patchOf env request current).get field =
      (supplied env request field).getD (current.get field) := by
  cases field with
  | repoUrl =>
      cases given : request.repoUrl with
      | none => simp [patchOf, PackageSettingsPatch.get, supplied, PackageRow.get, given]
      | some url => simp [patchOf, PackageSettingsPatch.get, supplied, given]
  | homepageUrl =>
      cases given : request.homepageUrl with
      | none => simp [patchOf, PackageSettingsPatch.get, supplied, PackageRow.get, given]
      | some url => simp [patchOf, PackageSettingsPatch.get, supplied, given]
  | keywords =>
      cases given : request.keywords with
      | none => simp [patchOf, PackageSettingsPatch.get, supplied, PackageRow.get, given]
      | some value => simp [patchOf, PackageSettingsPatch.get, supplied, given]
  | config =>
      cases given : request.config.filter fun value => !env.isEmptyObject value with
      | none => simp [patchOf, PackageSettingsPatch.get, supplied, PackageRow.get, given]
      | some value => simp [patchOf, PackageSettingsPatch.get, supplied, given]

/-! ## Requests step by step -/

/-- Org slug and package name. -/
abbrev SettingsKey := String × String

/-- `log` lists the writes, newest first. -/
structure SettingsTable (Value : Type) where
  rows : SettingsKey → Option (PackageRow Value)
  log : List (SettingsKey × PackageSettingsRequest Value)

inductive SettingsPoint (Value : Type) where
  | read
  | write (current : PackageRow Value)

inductive SettingsPhase (Value : Type) where
  | idle
  | running (key : SettingsKey) (request : PackageSettingsRequest Value)
      (point : SettingsPoint Value)
  | finished (result : ApiResult (PackageRow Value))
  | crashed

/-- `identity` is the outcome of `authenticated_and_projected`, and an answer what
the data plane says to a call. -/
inductive SettingsAction (Value : Type) where
  | arrive (key : SettingsKey) (request : PackageSettingsRequest Value) (identity : ApiResult Unit)
  | advance (answer : Except OrmError Unit)
  | crash

def unavailable (context : String) : ApiErr :=
  .serviceUnavailable "registry_data_plane_unavailable"
    ("canonical registry " ++ context ++ " context is not configured")

def readStep (table : SettingsTable Value) (key : SettingsKey)
    (request : PackageSettingsRequest Value) (answer : Except OrmError Unit) :
    SettingsPhase Value :=
  if env.registryRead = false then .finished (.error (unavailable "read"))
  else
    match answer, table.rows key with
    | .error error, _ => .finished (.error (mapOrmError error))
    | .ok (), none => .finished (.error (.notFound "package"))
    | .ok (), some current => .running key request (.write current)

/-- The row after an accepted write, where there is one. -/
def written (table : SettingsTable Value) (key : SettingsKey)
    (request : PackageSettingsRequest Value) (current : PackageRow Value)
    (answer : Except OrmError Unit) : Option (PackageRow Value) :=
  match answer with
  | .error _ => none
  | .ok () =>
    if env.registryWrite = false then none
    else (table.rows key).map (env.store (patchOf env request current))

/-- Why a write was not accepted. -/
def refusal (answer : Except OrmError Unit) : ApiErr :=
  if env.registryWrite = false then unavailable "write"
  else
    match answer with
    | .error error => mapOrmError error
    | .ok () => .notFound "package"

def writeStep (table : SettingsTable Value) (key : SettingsKey)
    (request : PackageSettingsRequest Value) (current : PackageRow Value)
    (answer : Except OrmError Unit) : SettingsTable Value × SettingsPhase Value :=
  match written env table key request current answer with
  | none => (table, .finished (.error (refusal env answer)))
  | some row => (⟨Function.update table.rows key (some row), (key, request) :: table.log⟩,
      .finished (.ok row))

def settingsMove : Move (SettingsTable Value) (SettingsPhase Value) (SettingsAction Value)
  | _, table, .idle, .arrive key request identity =>
    match identity with
    | .error error => some (table, .finished (.error error))
    | .ok () => some (table, .running key request .read)
  | _, table, .running key request .read, .advance answer =>
    some (table, readStep env table key request answer)
  | _, table, .running key request (.write current), .advance answer =>
    some (writeStep env table key request current answer)
  | _, table, .running _ _ _, .crash => some (table, .crashed)
  | _, _, _, _ => none

abbrev SettingsConfig (Value : Type) := Config (SettingsTable Value) (SettingsPhase Value)

def start (rows : SettingsKey → Option (PackageRow Value)) : SettingsConfig Value :=
  Config.initial ⟨rows, []⟩ .idle

/-! ## What a step writes -/

/-- The value that a step stores for its request: nothing but an accepted write
changes the table. -/
def writeOf (config : SettingsConfig Value) (event : Nat × SettingsAction Value) :
    Option (SettingsKey × PackageSettingsRequest Value × PackageRow Value) :=
  match config.phases event.1, event.2 with
  | .running key request (.write current), .advance answer =>
    (written env config.shared key request current answer).map fun row => (key, request, row)
  | _, _ => none

theorem step_shared {config next : SettingsConfig Value} {event : Nat × SettingsAction Value}
    (stepped : step (settingsMove env) config event = some next) :
    next.shared =
      match writeOf env config event with
      | none => config.shared
      | some (key, request, row) => ⟨Function.update config.shared.rows key (some row),
          (key, request) :: config.shared.log⟩ := by
  obtain ⟨agent, action⟩ := event
  obtain ⟨table, phase, moved, rfl⟩ := step_some.mp stepped
  simp only at moved
  unfold settingsMove at moved
  split at moved
  · rename_i key request identity idle
    split at moved
    · cases moved
      simp [writeOf, idle]
    · cases moved
      simp [writeOf, idle]
  · rename_i key request answer running
    cases moved
    simp [writeOf, running]
  · rename_i key request current answer running
    simp only [writeOf, running]
    unfold writeStep at moved
    cases outcome : written env config.shared key request current answer with
    | none =>
        rw [outcome] at moved
        cases moved
        rfl
    | some row =>
        rw [outcome] at moved
        cases moved
        rfl
  · rename_i key request point running
    cases moved
    cases point with
    | read => simp [writeOf, running]
    | write current => simp [writeOf, running]
  · contradiction

/-! ## The register of each field -/

def fieldAt (table : SettingsTable Value) (key : SettingsKey) (field : Field) :
    Option (FieldValue Value) :=
  (table.rows key).map fun row => row.get field

/-- The last write of the log that supplies the field decides it. -/
def decided (log : List (SettingsKey × PackageSettingsRequest Value)) (key : SettingsKey)
    (field : Field) (initial : FieldValue Value) : FieldValue Value :=
  ((log.filter fun entry => entry.1 = key).findSome? fun entry =>
    supplied env entry.2 field).getD initial

theorem decided_cons_self (log : List (SettingsKey × PackageSettingsRequest Value))
    (key : SettingsKey) (request : PackageSettingsRequest Value) (field : Field)
    (initial : FieldValue Value) :
    decided env ((key, request) :: log) key field initial =
      (supplied env request field).getD (decided env log key field initial) := by
  unfold decided
  rw [List.filter_cons_of_pos (by simp), List.findSome?_cons]
  cases supplied env request field with
  | none => rfl
  | some value => rfl

theorem decided_cons_other {log : List (SettingsKey × PackageSettingsRequest Value)}
    {key other : SettingsKey} (differ : other ≠ key) (request : PackageSettingsRequest Value)
    (field : Field) (initial : FieldValue Value) :
    decided env ((other, request) :: log) key field initial =
      decided env log key field initial := by
  unfold decided
  rw [List.filter_cons_of_neg (by simpa using differ)]

/-! ## What a run must keep -/

/-- The step of a request leaves the fields that the request does not supply. -/
def KeepsUnsupplied (config : SettingsConfig Value) (event : Nat × SettingsAction Value)
    (next : SettingsConfig Value) : Prop :=
  ∀ key request point, config.phases event.1 = .running key request point →
    ∀ field, supplied env request field = none →
      fieldAt next.shared key field = fieldAt config.shared key field

/-- No update is lost: no step changes a field its request does not supply, and
every field is decided by the last request that supplied it. -/
structure LosesNoUpdate (rows : SettingsKey → Option (PackageRow Value))
    (events : List (Nat × SettingsAction Value)) (final : SettingsConfig Value) : Prop where
  kept : ∀ config event next,
    TakesStep (step (settingsMove env)) (start rows) events config event next →
      KeepsUnsupplied env config event next
  settled : ∀ key row field, rows key = some row →
    fieldAt final.shared key field =
      some (decided env final.shared.log key field (row.get field))

def fields : List Field := [.repoUrl, .homepageUrl, .keywords, .config]

theorem mem_fields (field : Field) : field ∈ fields := by
  cases field with
  | repoUrl | homepageUrl | keywords | config => decide

/-- At an accepted write, what the request has read of the fields it does not
supply is what the table holds. -/
def unsuppliedFresh [DecidableEq Value] (config : SettingsConfig Value)
    (event : Nat × SettingsAction Value) : Bool :=
  match config.phases event.1, event.2 with
  | .running key request (.write current), .advance (.ok ()) =>
    !env.registryWrite || (config.shared.rows key).all fun stored =>
      fields.all fun field =>
        (supplied env request field).isSome || current.get field = stored.get field
  | _, _ => true

variable {env}

theorem keepsUnsupplied_of_noWrite {config next : SettingsConfig Value}
    {event : Nat × SettingsAction Value}
    (stepped : step (settingsMove env) config event = some next)
    (none : writeOf env config event = none) : KeepsUnsupplied env config event next := by
  intro key request point _ field _
  have same := step_shared env stepped
  rw [none] at same
  rw [same]

/-- A step writes only where an open request advances well and the row is there. -/
theorem writeOf_some {config : SettingsConfig Value} {event : Nat × SettingsAction Value}
    {key : SettingsKey} {request : PackageSettingsRequest Value} {row : PackageRow Value}
    (writes : writeOf env config event = some (key, request, row)) :
    ∃ current stored, config.phases event.1 = .running key request (.write current) ∧
      event.2 = .advance (.ok ()) ∧ env.registryWrite = true ∧
      config.shared.rows key = some stored ∧
      row = env.store (patchOf env request current) stored := by
  unfold writeOf at writes
  split at writes
  · rename_i running acted
    obtain ⟨stored, outcome, same⟩ := Option.map_eq_some_iff.mp writes
    cases same
    unfold written at outcome
    split at outcome
    · contradiction
    · split at outcome
      · contradiction
      · rename_i opened
        obtain ⟨before, found, rfl⟩ := Option.map_eq_some_iff.mp outcome
        exact ⟨_, before, running, acted, by simpa using opened, found, rfl⟩
  · contradiction

/-- Where nothing is written, nothing can be stale. -/
theorem unsuppliedFresh_of_noWrite [DecidableEq Value] {config : SettingsConfig Value}
    {event : Nat × SettingsAction Value} (none : writeOf env config event = none) :
    unsuppliedFresh env config event = true := by
  unfold unsuppliedFresh
  split
  · rename_i key request current running answered
    simp only [writeOf, running, answered, written, Option.map_eq_none_iff] at none
    split at none
    · rename_i closed
      simp [closed]
    · simp [Option.map_eq_none_iff.mp none]
  · rfl

theorem keepsUnsupplied_iff [DecidableEq Value] (stores : StoresPatch env)
    {config next : SettingsConfig Value} {event : Nat × SettingsAction Value}
    (stepped : step (settingsMove env) config event = some next) :
    KeepsUnsupplied env config event next ↔ unsuppliedFresh env config event = true := by
  cases outcome : writeOf env config event with
  | none =>
      exact iff_of_true (keepsUnsupplied_of_noWrite stepped outcome)
        (unsuppliedFresh_of_noWrite outcome)
  | some write =>
      obtain ⟨key, request, row⟩ := write
      have shared := step_shared env stepped
      obtain ⟨current, stored, running, acted, opened, found, rfl⟩ := writeOf_some outcome
      rw [outcome] at shared
      have after (field : Field) : fieldAt next.shared key field =
          some ((supplied env request field).getD (current.get field)) := by
        rw [← patchOf_get, ← stores _ stored, shared]
        simp [fieldAt]
      have before (field : Field) : fieldAt config.shared key field = some (stored.get field) := by
        simp [fieldAt, found]
      simp only [unsuppliedFresh, running, acted, opened, found, Bool.not_true, Bool.false_or,
        Option.all_some, List.all_eq_true, Bool.or_eq_true, decide_eq_true_eq]
      constructor
      · intro keeps field _
        cases given : supplied env request field with
        | some value => exact Or.inl rfl
        | none =>
            have same := keeps key request _ running field given
            rw [after, before, given] at same
            exact Or.inr (Option.some.inj same)
      · intro fresh key' request' point running' field given
        rw [running] at running'
        cases running'
        have same := (fresh field (mem_fields field)).resolve_left (by simp [given])
        rw [after, before, given, Option.getD_none, same]

/-- A write stores what its request supplies. -/
theorem fieldAt_written (stores : StoresPatch env) {config next : SettingsConfig Value}
    {event : Nat × SettingsAction Value} {key : SettingsKey}
    {request : PackageSettingsRequest Value} {row : PackageRow Value}
    (stepped : step (settingsMove env) config event = some next)
    (writes : writeOf env config event = some (key, request, row)) {field : Field}
    {value : FieldValue Value} (given : supplied env request field = some value) :
    fieldAt next.shared key field = some value := by
  have shared := step_shared env stepped
  rw [writes] at shared
  obtain ⟨current, stored, _, _, _, _, rfl⟩ := writeOf_some writes
  rw [shared]
  simp only [fieldAt, Function.update_self, Option.map_some]
  rw [stores, patchOf_get, given, Option.getD_some]

/-- The register of a field through one step. -/
theorem settled_step (stores : StoresPatch env) {config next : SettingsConfig Value}
    {event : Nat × SettingsAction Value} {key : SettingsKey} {field : Field}
    {initial : FieldValue Value}
    (stepped : step (settingsMove env) config event = some next)
    (keeps : KeepsUnsupplied env config event next)
    (settled : fieldAt config.shared key field =
      some (decided env config.shared.log key field initial)) :
    fieldAt next.shared key field = some (decided env next.shared.log key field initial) := by
  have shared := step_shared env stepped
  cases outcome : writeOf env config event with
  | none =>
      rw [outcome] at shared
      rw [shared, settled]
  | some write =>
      obtain ⟨target, request, row⟩ := write
      obtain ⟨current, _, running, _⟩ := writeOf_some outcome
      have log : next.shared.log = (target, request) :: config.shared.log := by
        rw [outcome] at shared
        rw [shared]
      rw [log]
      by_cases same : target = key
      · subst same
        rw [decided_cons_self]
        cases given : supplied env request field with
        | some value => exact fieldAt_written stores stepped outcome given
        | none => exact (keeps target request _ running field given).trans settled
      · rw [decided_cons_other env same, ← settled]
        rw [outcome] at shared
        rw [shared]
        simp only [fieldAt, Function.update_of_ne (Ne.symm same)]

/-- A run of concurrent patches loses no update exactly when every accepted write
finds the fields its request does not supply as the request has read them. -/
theorem patches_lose_no_update_iff [DecidableEq Value] (stores : StoresPatch env)
    {rows : SettingsKey → Option (PackageRow Value)} {events : List (Nat × SettingsAction Value)}
    {final : SettingsConfig Value}
    (run : exec (step (settingsMove env)) (start rows) events = some final) :
    LosesNoUpdate env rows events final ↔
      Allowed (step (settingsMove env))
        (fun config event => unsuppliedFresh env config event = true) (start rows) events := by
  have stepwise : ∀ config event next, True → step (settingsMove env) config event = some next →
      True ∧ (KeepsUnsupplied env config event next ↔ unsuppliedFresh env config event = true) :=
    fun _ _ _ _ stepped => ⟨trivial, keepsUnsupplied_iff stores stepped⟩
  have each := forall_takesStep_iff_allowed (step (settingsMove env)) stepwise trivial run
  constructor
  · intro loses
    exact each.mp loses.kept
  · intro allowed
    refine ⟨each.mpr allowed, ?_⟩
    intro key row field found
    let settled (config : SettingsConfig Value) : Prop := fieldAt config.shared key field =
      some (decided env config.shared.log key field (row.get field))
    have initially : settled (start rows) := by
      simp [settled, start, Config.initial, fieldAt, found, decided]
    refine exec_invariant_of_allowed (step (settingsMove env)) ?_ initially allowed run
    intro config event next here fresh stepped
    exact settled_step stores stepped ((keepsUnsupplied_iff stores stepped).mpr fresh) here

/-! ## Two patches of different fields -/

namespace Sample

/-- Values are their JSON text, and the call stores the patch. -/
def textEnv : SettingsEnv String where
  isEmptyObject value := value = "\x7b\x7d"
  store patch row :=
    { row with
      repoUrl := patch.repoUrl
      homepageUrl := patch.homepageUrl
      keywords := patch.keywords
      config := patch.config }
  registryRead := true
  registryWrite := true

theorem textEnv_stores : StoresPatch textEnv := by
  intro patch row field
  cases field with
  | repoUrl | homepageUrl | keywords | config => rfl

def key : SettingsKey := ("acme", "http-kit")

def row : PackageRow String where
  description := none
  projectId := none
  repoUrl := "https://github.com/acme/http-kit"
  homepageUrl := none
  keywords := "[]"
  config := "\x7b\x7d"

def rows : SettingsKey → Option (PackageRow String) :=
  Function.update (fun _ => none) key (some row)

def moveRepository : PackageSettingsRequest String :=
  ⟨none, none, some "https://github.com/acme/http", none, none, none⟩

def setHomepage : PackageSettingsRequest String :=
  ⟨none, none, none, some "https://acme.example", none, none⟩

def arrivals : List (Nat × SettingsAction String) :=
  [(0, .arrive key moveRepository (.ok ())), (1, .arrive key setHomepage (.ok ()))]

def call (attempt : Nat) : Nat × SettingsAction String := (attempt, .advance (.ok ()))

/-- One request after the other. -/
def inTurn : List (Nat × SettingsAction String) := arrivals ++ [call 0, call 0, call 1, call 1]

/-- Both read before either writes. -/
def interleaved : List (Nat × SettingsAction String) := arrivals ++ [call 0, call 1, call 0, call 1]

end Sample

open Sample in
theorem patches_lose_no_update_sample :
    ∃ final, exec (step (settingsMove textEnv)) (start rows) inTurn = some final ∧
      LosesNoUpdate textEnv rows inTurn final := by
  have seen : (exec (step (settingsMove textEnv)) (start rows) inTurn).isSome = true := by
    decide +kernel
  obtain ⟨final, run⟩ := Option.isSome_iff_exists.mp seen
  exact ⟨final, run, (patches_lose_no_update_iff textEnv_stores run).mpr (by decide +kernel)⟩

open Sample in
/-- The second write puts the old repository URL back, although only the first
request supplied one. -/
theorem patch_lost_update :
    ∃ final, exec (step (settingsMove textEnv)) (start rows) interleaved = some final ∧
      fieldAt final.shared key .repoUrl = some (.text "https://github.com/acme/http-kit") ∧
      decided textEnv final.shared.log key .repoUrl (row.get .repoUrl) =
        .text "https://github.com/acme/http" ∧
      ¬LosesNoUpdate textEnv rows interleaved final := by
  have seen : ((exec (step (settingsMove textEnv)) (start rows) interleaved).map fun final =>
      (fieldAt final.shared key .repoUrl,
        decided textEnv final.shared.log key .repoUrl (row.get .repoUrl))) =
      some (some (.text "https://github.com/acme/http-kit"),
        .text "https://github.com/acme/http") := by
    decide +kernel
  obtain ⟨final, run, seen⟩ := Option.map_eq_some_iff.mp seen
  obtain ⟨stored, due⟩ := Prod.mk.inj seen
  refine ⟨final, run, stored, due, ?_⟩
  intro loses
  have settled := loses.settled key row .repoUrl (Function.update_self _ _ _)
  rw [stored, due] at settled
  simp at settled

end ZedRegistry.PackageSettings
