import ZedRegistry.ConditionalRequests
import ZedRegistry.Lib.Simulation
import ZedRegistry.TokenLifecycle

/-!
# What a credential may do over time

Runs of the token commands from an empty database.  Every row of the token table
is the row a command inserted, apart from its revocation, and the scope it was
inserted with is the id of the org that the command named.
-/

set_option autoImplicit false

namespace ZedRegistry.TokenLifecycle

open Execution OrgClaims TokenCommands

/-! ## The invariant -/

/-- Where a row comes from: the command's own values, and a scope that is its org. -/
structure Grants (tools : Tools) (orgs : List OrgRow) (command : CreateCommand)
    (plaintext : String) (row : TokenRow) : Prop where
  name : row.name = command.name
  role : row.role = command.role
  tokenHash : row.tokenHash = hashToken tools.sha256 plaintext
  live : row.revokedAt = none
  spelled : ∃ answer, plaintext = plaintextOf tools answer
  scope : Scoped orgs command row.orgId

structure Sound (tools : Tools) (asked : CreateCommand → Prop) (world : TokenWorld) : Prop where
  orgIds : (world.orgs.map OrgRow.id).Nodup
  orgSlugs : (world.orgs.map OrgRow.slug).Nodup
  ids : (world.tokens.map fun row => row.id).Nodup
  hashes : (world.tokens.map fun row => row.tokenHash).Nodup
  phases : ∀ process phase, world.commands process = some phase →
    PhaseHolds asked world phase
  minted : ∀ mint ∈ world.minted, asked mint.1 ∧ Grants tools world.orgs mint.1 mint.2.1 mint.2.2 ∧
    ∃ row ∈ world.tokens, SameGrant mint.2.2 row
  origin : ∀ row ∈ world.tokens, ∃ mint ∈ world.minted, SameGrant mint.2.2 row

section Steps

variable {tools : Tools} {asked : CreateCommand → Prop} {world next : TokenWorld}
  {phase : CommandPhase}

theorem Grants.mono {orgs later : List OrgRow} {command : CreateCommand} {plaintext : String}
    {row : TokenRow} (keeps : ∀ org ∈ orgs, org ∈ later)
    (grants : Grants tools orgs command plaintext row) :
    Grants tools later command plaintext row :=
  { grants with scope := grants.scope.mono keeps }

theorem orgTaken_eq_false {row : OrgRow} : world.orgTaken row = false ↔
    row.slug ∉ world.orgs.map OrgRow.slug ∧ row.id ∉ world.orgs.map OrgRow.id := by
  simp only [TokenWorld.orgTaken, List.any_eq_false, Bool.or_eq_true, decide_eq_true_eq, not_or,
    List.mem_map, not_exists, not_and]
  exact ⟨fun free => ⟨fun org member => (free org member).1, fun org member => (free org member).2⟩,
    fun free org member => ⟨free.1 org member, free.2 org member⟩⟩

theorem tokenTaken_eq_false {row : TokenRow} : world.tokenTaken row = false ↔
    row.id ∉ (world.tokens.map fun row => row.id) ∧
      row.tokenHash ∉ world.tokens.map fun row => row.tokenHash := by
  simp only [TokenWorld.tokenTaken, List.any_eq_false, Bool.or_eq_true, decide_eq_true_eq, not_or,
    List.mem_map, not_exists, not_and]
  exact ⟨fun free => ⟨fun org member => (free org member).1, fun org member => (free org member).2⟩,
    fun free org member => ⟨free.1 org member, free.2 org member⟩⟩

theorem Sound.initial (tools : Tools) (asked : CreateCommand → Prop) :
    Sound tools asked .initial where
  orgIds := List.nodup_nil
  orgSlugs := List.nodup_nil
  ids := List.nodup_nil
  hashes := List.nodup_nil
  phases _ _ missing := nomatch missing
  minted _ missing := nomatch missing
  origin _ missing := nomatch missing

theorem revokeToken_ids (world : TokenWorld) (id : Uuid) (now : DateTimeUtc) :
    ((world.revokeToken id now).tokens.map fun row => row.id) =
      world.tokens.map fun row => row.id := by
  simp only [TokenWorld.revokeToken, List.map_map]
  refine List.map_congr_left fun row _ => ?_
  by_cases named : row.id = id <;> simp [named]

theorem revokeToken_hashes (world : TokenWorld) (id : Uuid) (now : DateTimeUtc) :
    ((world.revokeToken id now).tokens.map fun row => row.tokenHash) =
      world.tokens.map fun row => row.tokenHash := by
  simp only [TokenWorld.revokeToken, List.map_map]
  refine List.map_congr_left fun row _ => ?_
  by_cases named : row.id = id <;> simp [named]

/-- The tables stay sound, whatever the process that stepped is at afterwards. -/
theorem Sound.effect (sound : Sound tools asked world) (here : PhaseHolds asked world phase)
    (effect : Effect tools world phase next) : Sound tools asked next := by
  have keeps := effect.keeps
  have phases : ∀ process phase, next.commands process = some phase →
      PhaseHolds asked next phase := by
    intro process phase at'
    rw [effect.commands] at at'
    exact PhaseHolds.mono keeps (sound.phases process phase at')
  have minted : ∀ mint ∈ world.minted,
      asked mint.1 ∧ Grants tools next.orgs mint.1 mint.2.1 mint.2.2 ∧
        ∃ row ∈ next.tokens, SameGrant mint.2.2 row := by
    intro mint member
    obtain ⟨given, grants, row, found, same⟩ := sound.minted mint member
    obtain ⟨later, found, same'⟩ := keeps.tokens row found
    exact ⟨given, grants.mono keeps.orgs, later, found, same.trans same'⟩
  cases effect with
  | quiet => exact sound
  | addOrg row free =>
      obtain ⟨slug, id⟩ := orgTaken_eq_false.mp free
      exact
        { sound with
          orgIds := List.nodup_cons.mpr ⟨id, sound.orgIds⟩
          orgSlugs := List.nodup_cons.mpr ⟨slug, sound.orgSlugs⟩
          phases := phases
          minted := minted }
  | addToken command orgId expires answer at' dated free =>
      obtain ⟨id, hash⟩ := tokenTaken_eq_false.mp free
      subst at'
      refine
        { orgIds := sound.orgIds
          orgSlugs := sound.orgSlugs
          ids := List.nodup_cons.mpr ⟨id, sound.ids⟩
          hashes := List.nodup_cons.mpr ⟨hash, sound.hashes⟩
          phases := phases
          minted := ?_
          origin := ?_ }
      · intro mint member
        rcases List.mem_cons.mp member with rfl | member
        · refine ⟨here.1, ⟨rfl, rfl, rfl, rfl, ⟨answer, rfl⟩, here.2⟩, _, List.mem_cons_self,
            SameGrant.refl _⟩
        · exact minted mint member
      · intro row member
        rcases List.mem_cons.mp member with rfl | member
        · exact ⟨_, List.mem_cons_self, SameGrant.refl _⟩
        · obtain ⟨mint, found, same⟩ := sound.origin row member
          exact ⟨mint, List.mem_cons_of_mem _ found, same⟩
  | revokeToken id now =>
      refine
        { orgIds := sound.orgIds
          orgSlugs := sound.orgSlugs
          ids := revokeToken_ids world id now ▸ sound.ids
          hashes := revokeToken_hashes world id now ▸ sound.hashes
          phases := phases
          minted := minted
          origin := ?_ }
      intro row member
      obtain ⟨before, found, rfl⟩ := List.mem_map.mp member
      obtain ⟨mint, minted, same⟩ := sound.origin before found
      exact ⟨mint, minted, same.trans (sameGrant_revoked before id now)⟩

theorem phaseHolds_goto {process : Nat} {later : CommandPhase} :
    PhaseHolds asked (world.goto process later) phase ↔ PhaseHolds asked world phase := by
  cases phase with
  | _ => rfl

theorem createPhase_holds {command : CreateCommand} (given : asked command) :
    PhaseHolds asked world (createPhase command) := by
  unfold createPhase
  split
  · rename_i slug own
    exact ⟨given, own⟩
  · rename_i unscoped
    exact ⟨given, unscoped⟩

theorem Sound.goto (sound : Sound tools asked world) (process : Nat) {phase : CommandPhase}
    (holds : PhaseHolds asked world phase) : Sound tools asked (world.goto process phase) where
  orgIds := sound.orgIds
  orgSlugs := sound.orgSlugs
  ids := sound.ids
  hashes := sound.hashes
  minted := sound.minted
  origin := sound.origin
  phases other phase' at' := by
    by_cases own : other = process
    · subst own
      rw [TokenWorld.goto_self] at at'
      obtain rfl := Option.some.inj at'
      exact phaseHolds_goto.mpr holds
    · rw [TokenWorld.goto_of_ne world own] at at'
      exact phaseHolds_goto.mpr (sound.phases other phase' at')

/-- The command that an event brings. -/
def Asks (asked : CreateCommand → Prop) : TokenEvent → Prop
  | .create _ args connected =>
      ∀ command, createCommand args = .ok command → connected = true → asked command
  | _ => True

/-- One effect on the tables, and at most one process goes on. -/
def Moves (tools : Tools) (asked : CreateCommand → Prop) (world next : TokenWorld) : Prop :=
  ∃ phase middle, PhaseHolds asked world phase ∧ Effect tools world phase middle ∧
    (next = middle ∨ ∃ process later, next = middle.goto process later ∧
      PhaseHolds asked middle later)

theorem step_moves {event : TokenEvent} (sound : Sound tools asked world)
    (asks : Asks asked event) (stepped : step tools world event = some next) :
    Moves tools asked world next := by
  have quiet : ∀ process later, PhaseHolds asked world later →
      Moves tools asked world (world.goto process later) :=
    fun process later holds =>
      ⟨.crashed, world, trivial, .quiet, .inr ⟨process, later, rfl, holds⟩⟩
  cases event with
  | create process args connected =>
      simp only [step] at stepped
      split at stepped
      · contradiction
      · split at stepped
        · obtain rfl := Option.some.inj stepped
          exact quiet process _ trivial
        · rename_i command read
          split at stepped
          · obtain rfl := Option.some.inj stepped
            exact quiet process _ trivial
          · obtain rfl := Option.some.inj stepped
            rename_i connected'
            exact quiet process _
              (createPhase_holds (asks command read (Bool.eq_true_of_not_eq_false connected')))
  | revoke process args connected =>
      simp only [step] at stepped
      split at stepped
      · contradiction
      · split at stepped
        · obtain rfl := Option.some.inj stepped
          exact quiet process _ trivial
        · split at stepped <;>
          · obtain rfl := Option.some.inj stepped
            exact quiet process _ trivial
  | advance process answer =>
      simp only [step] at stepped
      split at stepped
      · rename_i phase at'
        have holds := sound.phases process phase at'
        obtain ⟨middle, later, effect, same, after⟩ := advance_effect holds stepped
        exact ⟨phase, middle, holds, effect, .inr ⟨process, later, same, after⟩⟩
      · contradiction
  | crash process =>
      simp only [step] at stepped
      split at stepped
      · contradiction
      · contradiction
      · contradiction
      · obtain rfl := Option.some.inj stepped
        exact quiet process _ trivial
  | claimOrg row =>
      simp only [step] at stepped
      split at stepped
      · contradiction
      · rename_i free
        obtain rfl := Option.some.inj stepped
        exact ⟨.crashed, _, trivial, .addOrg row (Bool.eq_false_iff.mpr free), .inl rfl⟩

theorem step_sound {event : TokenEvent} (sound : Sound tools asked world)
    (asks : Asks asked event) (stepped : step tools world event = some next) :
    Sound tools asked next := by
  obtain ⟨phase, middle, holds, effect, rfl | ⟨process, later, rfl, after⟩⟩ :=
    step_moves sound asks stepped
  · exact sound.effect holds effect
  · exact (sound.effect holds effect).goto process after

theorem step_keeps {event : TokenEvent} (sound : Sound tools asked world)
    (asks : Asks asked event) (stepped : step tools world event = some next) :
    KeepsTokens world next := by
  obtain ⟨phase, middle, holds, effect, rfl | ⟨process, later, rfl, after⟩⟩ :=
    step_moves sound asks stepped
  · exact effect.keeps
  · exact ⟨effect.keeps.orgs, effect.keeps.tokens, effect.keeps.minted⟩

end Steps

section Runs

variable {tools : Tools} {asked : CreateCommand → Prop} {world final : TokenWorld}
  {events : List TokenEvent}

theorem allowed_asks (asks : ∀ event ∈ events, Asks asked event) :
    Allowed (step tools) (fun _ event => Asks asked event) world events :=
  @allowed_of_invariant _ _ _ _ (fun _ => True) _ (fun _ _ _ _ _ _ => trivial)
    (fun event member _ _ => asks event member) _ trivial

theorem run_sound (sound : Sound tools asked world) (asks : ∀ event ∈ events, Asks asked event)
    (run : exec (step tools) world events = some final) : Sound tools asked final :=
  exec_invariant_of_allowed (step tools) (fun _ _ _ => step_sound) sound (allowed_asks asks) run

theorem run_keeps (sound : Sound tools asked world) (asks : ∀ event ∈ events, Asks asked event)
    (run : exec (step tools) world events = some final) : KeepsTokens world final :=
  exec_monotone_of_allowed (step tools) KeepsTokens.refl (fun _ _ _ => KeepsTokens.trans)
    (fun _ _ _ holds asks stepped => ⟨step_sound holds asks stepped, step_keeps holds asks stepped⟩)
    sound (allowed_asks asks) run

/-- The commands that a run was given. -/
def Given (events : List TokenEvent) (command : CreateCommand) : Prop :=
  ∃ process args, .create process args true ∈ events ∧ createCommand args = .ok command

theorem asks_given : ∀ event ∈ events, Asks (Given events) event := by
  intro event member
  cases event with
  | create process args connected =>
      rintro command read rfl
      exact ⟨process, args, member, read⟩
  | revoke | advance | crash | claimOrg => trivial

theorem asks_any (events : List TokenEvent) : ∀ event ∈ events, Asks (fun _ => True) event := by
  intro event _
  cases event with
  | create => exact fun _ _ _ => trivial
  | revoke | advance | crash | claimOrg => trivial

end Runs

/-! ## What is accepted -/

/-- A row that `require_token` accepts at `now`. -/
def Usable (row : TokenRow) (now : DateTimeUtc) : Prop :=
  row.revokedAt = none ∧ ∀ expires ∈ row.expiresAt, now.ordinal < expires.ordinal

theorem find_row {rows : List TokenRow} (hashes : (rows.map fun row => row.tokenHash).Nodup)
    {row : TokenRow} (member : row ∈ rows) :
    (rows.find? fun other => other.tokenHash = row.tokenHash) = some row := by
  induction rows with
  | nil => contradiction
  | cons first rest ih =>
      obtain ⟨fresh, hashes⟩ := List.nodup_cons.mp hashes
      rcases List.mem_cons.mp member with rfl | member
      · exact List.find?_cons_of_pos (decide_eq_true rfl)
      · have differs : first.tokenHash ≠ row.tokenHash :=
          fun same => fresh (List.mem_map.mpr ⟨row, member, same.symm⟩)
        rw [List.find?_cons_of_neg (by simpa using differs)]
        exact ih hashes member

theorem row_eq {rows : List TokenRow} {row other : TokenRow} {β : Type} {field : TokenRow → β}
    (distinct : (rows.map field).Nodup) (member : row ∈ rows) (member' : other ∈ rows)
    (same : field row = field other) : row = other :=
  List.inj_on_of_nodup_map distinct member member' same

section Accepted

variable {tools : Tools} {asked : CreateCommand → Prop} {world : TokenWorld} {now : DateTimeUtc}
  {authorization : Option String} {plaintext : String} {token : Token}

theorem usable_iff {row : TokenRow} : Usable row now ↔
    row.revokedAt = none ∧ ¬∃ expires ∈ row.expiresAt, expires.ordinal ≤ now.ordinal := by
  simp [Usable]

theorem authenticate_ok (sound : Sound tools asked world) :
    authenticate tools world now authorization = .ok token ↔
      ∃ plaintext, bearerToken authorization = some plaintext ∧
        ∃ row ∈ world.tokens, row.tokenHash = hashToken tools.sha256 plaintext ∧
          Usable row now ∧ token = row.toToken := by
  simp only [authenticate, requireToken, bind_ok, okOrElse_ok, ensure_ok, Except.ok.injEq,
    exists_eq_left', pure, Except.pure, usable_iff]
  refine exists_congr fun plaintext => and_congr_right fun bearer => ?_
  constructor
  · rintro ⟨found, same, _, live, _, unexpired, rfl⟩
    obtain ⟨row, stored, rfl⟩ := Option.map_eq_some_iff.mp same
    exact ⟨row, List.mem_of_find?_eq_some stored, by simpa using List.find?_some stored,
      ⟨live, unexpired⟩, rfl⟩
  · rintro ⟨row, member, hash, ⟨live, unexpired⟩, rfl⟩
    refine ⟨row.toToken, ?_, (), live, (), unexpired, rfl⟩
    rw [← hash, find_row sound.hashes member]
    rfl

theorem authenticate_known {row : TokenRow} (sound : Sound tools asked world)
    (bearer : bearerToken authorization = some plaintext) (member : row ∈ world.tokens)
    (hash : row.tokenHash = hashToken tools.sha256 plaintext) :
    authenticate tools world now authorization = .ok token ↔
      Usable row now ∧ token = row.toToken := by
  rw [authenticate_ok sound]
  constructor
  · rintro ⟨plaintext', bearer', other, found, hash', usable, rfl⟩
    rw [bearer] at bearer'
    obtain rfl := Option.some.inj bearer'
    obtain rfl := row_eq sound.hashes found member (hash'.trans hash.symm)
    exact ⟨usable, rfl⟩
  · rintro ⟨usable, rfl⟩
    exact ⟨plaintext, bearer, row, member, hash, usable, rfl⟩

theorem plaintextOf_chars (answer : CommandAnswer) :
    (plaintextOf tools answer).toList = 'z' :: 'p' :: 'k' :: 'g' :: '_' ::
      ((tools.simple answer.first).toList ++ (tools.simple answer.second).toList) := by
  simp [plaintextOf, String.toList_append]

/-- The credential that `create-token` prints is read back from the header. -/
theorem bearerToken_plaintextOf (answer : CommandAnswer) :
    bearerToken (some ("Bearer " ++ plaintextOf tools answer)) =
      some (plaintextOf tools answer) := by
  have visible : ∀ char ∈ (plaintextOf tools answer).toList, char.isWhitespace = false := by
    intro char member
    rw [plaintextOf_chars] at member
    simp only [List.mem_cons, List.mem_append] at member
    rcases member with rfl | rfl | rfl | rfl | rfl | first | second
    · decide
    · decide
    · decide
    · decide
    · decide
    · exact tools.simple_visible _ char first
    · exact tools.simple_visible _ char second
  have nonempty : (plaintextOf tools answer).toList ≠ [] := by
    rw [plaintextOf_chars]
    exact List.cons_ne_nil _ _
  have dropped : ("Bearer " ++ plaintextOf tools answer).toList.dropPrefix? "Bearer ".toList =
      some (plaintextOf tools answer).toList := by
    rw [String.toList_append]
    exact List.dropPrefix?_append_of_beq _ (beq_self_eq_true _)
  simp only [bearerToken, Option.bind_eq_bind, Option.bind_some, dropped,
    trimText_visible visible nonempty, if_neg nonempty, String.ofList_toList]

end Accepted

/-! ## A sample life -/

namespace TokenSample

def plaintext : String := "zpkg_0c8f5b3e2f6d4f0a9c1b7e6d5a4f3b217d1e9a604b2c4c3d8e5f6a7b8c9d0e1f"

def hash : String := "9a5ef066cf6bd05de32b0867a5c00938ee3ff628849342574f506cb993fe94e0"

def tools : Tools where
  sha256 := tabulated [(asBytes plaintext, hash)]
  timestamps := civil
  parseUuid text := some ⟨text⟩
  simple id := String.ofList
    (id.hyphenated.toList.filter fun char => char ≠ '-' && !char.isWhitespace)
  addDays _ _ := none
  simple_visible := by
    intro id char member
    rw [String.toList_ofList, List.mem_filter] at member
    simpa using (Bool.and_eq_true_iff.mp member.2).2

def answer (id : Uuid) : CommandAnswer where
  dbOk := true
  landed := true
  id := id
  first := ⟨"0c8f5b3e-2f6d-4f0a-9c1b-7e6d5a4f3b21"⟩
  second := ⟨"7d1e9a60-4b2c-4c3d-8e5f-6a7b8c9d0e1f"⟩
  clock := sampleTime

/-- A publisher's token for the new org `acme`, up to the insertion of its row. -/
def asking : List TokenEvent :=
  [.create 0 ["--name", "ci", "--org", "acme", "--role", "publisher"] true,
    .advance 0 (answer sampleOrg), .advance 0 (answer sampleOrg)]

def asked : TokenWorld := ((exec (step tools) .initial asking).get (by decide +kernel))

theorem asked_run : exec (step tools) .initial asking = some asked :=
  (Option.some_get _).symm

def insertion : TokenEvent := .advance 0 (answer sampleToken.id)

def minted : TokenWorld := (step tools asked insertion).get (by decide +kernel)

theorem minted_step : step tools asked insertion = some minted := (Option.some_get _).symm

theorem minted_run : exec (step tools) .initial (asking ++ [insertion]) = some minted :=
  (exec_append_some (step tools)).mpr ⟨asked, asked_run, exec_singleton minted_step⟩

def credential : Option String := some ("Bearer " ++ plaintext)

theorem credential_bearer : bearerToken credential = some plaintext := by decide +kernel

def isReported : Option CommandPhase → Bool
  | some (.finished (.ok _)) => true
  | _ => false

theorem of_isReported {phase : Option CommandPhase} (done : isReported phase = true) :
    ∃ lines, phase = some (.finished (.ok lines)) := by
  unfold isReported at done
  split at done
  · exact ⟨_, rfl⟩
  · contradiction

def isMinting : Option CommandPhase → Bool
  | some (.insertToken _ _) => true
  | _ => false

theorem asked_minting : ∃ command orgId,
    asked.commands 0 = some (.insertToken command orgId) := by
  have minting : isMinting (asked.commands 0) = true := by decide +kernel
  unfold isMinting at minting
  split at minting
  · exact ⟨_, _, by assumption⟩
  · contradiction

theorem minted_reported : ∃ lines, minted.commands 0 = some (.finished (.ok lines)) :=
  of_isReported (by decide +kernel)

theorem minted_accepts : ∃ token, authenticate tools minted sampleTime credential = .ok token := by
  have accepted : (authenticate tools minted sampleTime credential).toOption.isSome = true := by
    decide +kernel
  obtain ⟨token, found⟩ := Option.isSome_iff_exists.mp accepted
  exact ⟨token, toOption_ok found⟩

theorem minted_row : ∃ row ∈ minted.tokens, row.tokenHash = hashToken tools.sha256 plaintext := by
  have stored : (minted.tokens.any fun row =>
      row.tokenHash = hashToken tools.sha256 plaintext) = true := by decide +kernel
  obtain ⟨row, member, same⟩ := List.any_eq_true.mp stored
  exact ⟨row, member, of_decide_eq_true same⟩

end TokenSample

/-! ## Later worlds -/

/-- What `insertToken` prints and stores when it reports a token. -/
theorem insertToken_reported {tools : Tools} {world next : TokenWorld} {process : Nat}
    {command : CreateCommand} {orgId : Option Uuid} {answer : CommandAnswer}
    {lines : List String}
    (stepped : advance tools world process answer (.insertToken command orgId) = some next)
    (reported : next.commands process = some (.finished (.ok lines))) :
    ∃ head expires, expiresAt tools answer.clock command.expiresInDays = some expires ∧
      lines = [head, plaintextOf tools answer] ∧
      tokenRow tools command orgId expires answer ∈ next.tokens := by
  have failed : ∀ (world : TokenWorld) error, some (world.fail process error) ≠ some next := by
    intro world error same
    rw [← Option.some.inj same, TokenWorld.fail, TokenWorld.goto_self] at reported
    cases reported
  simp only [advance] at stepped
  split at stepped
  · exact absurd stepped (failed _ _)
  · rename_i expires dated
    split at stepped
    · exact absurd stepped (failed _ _)
    · split at stepped
      · obtain rfl := Option.some.inj stepped
        rw [TokenWorld.goto_self] at reported
        cases reported
        exact ⟨_, expires, dated, rfl, List.mem_cons_self⟩
      · split at stepped
        · exact absurd stepped (failed _ _)
        · exact absurd stepped (failed _ _)

/-- A token that `create-token` reports carries what the command asked for, and its printed
plaintext is accepted from then on, until it expires or is revoked. -/
theorem reported_token_usable {tools : Tools} {early late : List TokenEvent}
    {world next last : TokenWorld} {process : Nat} {command : CreateCommand}
    {orgId : Option Uuid} {answer : CommandAnswer} {lines : List String}
    (before : exec (step tools) .initial early = some world)
    (minting : world.commands process = some (.insertToken command orgId))
    (stepped : step tools world (.advance process answer) = some next)
    (reported : next.commands process = some (.finished (.ok lines)))
    (after : exec (step tools) next late = some last) :
    ∃ head plaintext expires, lines = [head, plaintext] ∧
      expiresAt tools answer.clock command.expiresInDays = some expires ∧
      ∃ row ∈ last.tokens, row.name = command.name ∧ row.role = command.role ∧
        row.expiresAt = expires.map tools.timestamps.stored ∧
        Scoped last.orgs command row.orgId ∧
        ∀ now token, authenticate tools last now (some ("Bearer " ++ plaintext)) = .ok token ↔
          Usable row now ∧ token = row.toToken := by
  have sound := run_sound (Sound.initial tools _) (asks_any early) before
  have sound' := step_sound sound (asks_any [_] _ List.mem_cons_self) stepped
  have sound'' := run_sound sound' (asks_any late) after
  have keeps := run_keeps sound' (asks_any late) after
  have scope := Scoped.mono (step_keeps sound (asks_any [_] _ List.mem_cons_self) stepped).orgs
    (sound.phases process _ minting).2
  simp only [step, minting] at stepped
  obtain ⟨head, expires, dated, rfl, stored⟩ := insertToken_reported stepped reported
  obtain ⟨row, found, same⟩ := keeps.tokens _ stored
  refine ⟨head, _, expires, rfl, dated, row, found, same.name, same.role, same.expiresAt,
    same.orgId ▸ scope.mono keeps.orgs, fun now token => ?_⟩
  exact authenticate_known sound'' (bearerToken_plaintextOf answer) found same.tokenHash

theorem reported_token_usable_sample : ∃ lines plaintext row,
    TokenSample.minted.commands 0 = some (.finished (.ok lines)) ∧
      row ∈ TokenSample.minted.tokens ∧ ∀ now token,
        authenticate TokenSample.tools TokenSample.minted now (some ("Bearer " ++ plaintext)) =
          .ok token ↔ Usable row now ∧ token = row.toToken := by
  obtain ⟨command, orgId, minting⟩ := TokenSample.asked_minting
  obtain ⟨lines, reported⟩ := TokenSample.minted_reported
  obtain ⟨head, plaintext, expires, -, -, row, member, -, -, -, -, usable⟩ :=
    reported_token_usable TokenSample.asked_run minting TokenSample.minted_step reported
      (exec_nil (step TokenSample.tools) TokenSample.minted)
  exact ⟨lines, plaintext, row, reported, member, usable⟩

theorem canPublish_of_valid {role : String} (valid : validRole role = true) :
    (Role.parse role).canPublish = true ↔ role ≠ "reader" := by
  simp only [validRole, Bool.or_eq_true, decide_eq_true_eq] at valid
  rcases valid with (rfl | rfl) | rfl
  · decide
  · decide
  · decide

theorem canManage_of_valid {role : String} (valid : validRole role = true) :
    (Role.parse role).canManage = true ↔ role = "owner" := by
  simp only [validRole, Bool.or_eq_true, decide_eq_true_eq] at valid
  rcases valid with (rfl | rfl) | rfl
  · decide
  · decide
  · decide

/-- The scope of a sound row is the org of its command. -/
theorem scoped_iff {orgs : List OrgRow} {command : CreateCommand} {orgId : Option Uuid}
    {target : OrgRow} (ids : (orgs.map OrgRow.id).Nodup) (slugs : (orgs.map OrgRow.slug).Nodup)
    (member : target ∈ orgs) (holds : Scoped orgs command orgId) :
    (orgId = none ↔ command.orgSlug = none) ∧
      (orgId = some target.id ↔ command.orgSlug = some target.slug) := by
  cases orgId with
  | none =>
      have unscoped : command.orgSlug = none := holds
      simp [unscoped]
  | some id =>
      obtain ⟨org, found, rfl, own⟩ := holds
      rw [own]
      simp only [reduceCtorEq, Option.some.injEq, true_and]
      constructor
      · intro same
        rw [List.inj_on_of_nodup_map ids found member same]
      · intro same
        rw [List.inj_on_of_nodup_map slugs found member same]

end ZedRegistry.TokenLifecycle
