import ZedRegistry.TokenHistory

/-!
# Revocation

A `revoke-token` command that reports success has revoked every row that it names
and that was in the table when it was given, whatever other commands do meanwhile.
-/

set_option autoImplicit false

namespace ZedRegistry.TokenLifecycle

open Execution OrgClaims TokenCommands

/-! ## One process in a run -/

section Steps

variable {tools : Tools} {asked : CreateCommand → Prop} {world next : TokenWorld}
  {process : Nat} {event : TokenEvent}

/-- Only its own steps and its own end move a process that has begun. -/
theorem step_phase {phase : CommandPhase} (at' : world.commands process = some phase)
    (sound : Sound tools asked world) (stepped : step tools world event = some next) :
    next.commands process = some phase ∨
      (∃ answer, advance tools world process answer phase = some next) ∨
        next.commands process = some .crashed := by
  have other : ∀ {own : Nat} {later : CommandPhase} {middle : TokenWorld}, own ≠ process →
      middle.commands = world.commands →
      (middle.goto own later).commands process = some phase := by
    intro own later middle differs same
    rw [TokenWorld.goto_of_ne middle (Ne.symm differs), same, at']
  cases event with
  | create own args connected =>
      simp only [step] at stepped
      split at stepped
      · contradiction
      · rename_i unused
        have differs : own ≠ process := by
          rintro rfl
          simp [at'] at unused
        refine .inl ?_
        split at stepped
        · obtain rfl := Option.some.inj stepped
          exact other differs rfl
        · split at stepped <;>
          · obtain rfl := Option.some.inj stepped
            exact other differs rfl
  | revoke own args connected =>
      simp only [step] at stepped
      split at stepped
      · contradiction
      · rename_i unused
        have differs : own ≠ process := by
          rintro rfl
          simp [at'] at unused
        refine .inl ?_
        split at stepped
        · obtain rfl := Option.some.inj stepped
          exact other differs rfl
        · split at stepped <;>
          · obtain rfl := Option.some.inj stepped
            exact other differs rfl
  | advance own answer =>
      by_cases same : own = process
      · subst same
        simp only [step, at'] at stepped
        exact .inr (.inl ⟨answer, stepped⟩)
      · simp only [step] at stepped
        split at stepped
        · rename_i phase' own'
          obtain ⟨middle, later, effect, rfl, -⟩ :=
            advance_effect (sound.phases own phase' own') stepped
          exact .inl (other same effect.commands)
        · contradiction
  | crash own =>
      simp only [step] at stepped
      split at stepped
      · contradiction
      · contradiction
      · contradiction
      · obtain rfl := Option.some.inj stepped
        by_cases same : own = process
        · subst same
          exact .inr (.inr (TokenWorld.goto_self ..))
        · exact .inl (other same rfl)
  | claimOrg row =>
      simp only [step] at stepped
      split at stepped
      · contradiction
      · obtain rfl := Option.some.inj stepped
        exact .inl at'

end Steps

/-! ## What a revocation pursues -/

/-- The command names the row: by its name, by its id, or by both. -/
def Names (tools : Tools) (command : RevokeCommand) (row : TokenRow) : Prop :=
  (∀ name ∈ command.name, row.name = name) ∧
    ∀ raw ∈ command.id, tools.parseUuid raw = some row.id

def Gone (world : TokenWorld) (target : Uuid) : Prop :=
  ∃ row ∈ world.tokens, row.id = target ∧ row.revokedAt ≠ none

/-- Where a revocation stands with the row `target`. -/
inductive Pursued (tools : Tools) (command : RevokeCommand) (process : Nat) (target : Uuid)
    (world : TokenWorld) : Prop
  | asked (at' : world.commands process = some (.findTokens command))
      (named : ∃ row ∈ world.tokens, row.id = target ∧ Names tools command row)
  | found (now : DateTimeUtc) (rest : List TokenRow) (revoked : Nat)
      (at' : world.commands process = some (.revoking now rest revoked))
      (listed : ∃ row ∈ rest, row.id = target)
  | gone (revoked : Gone world target)
  | failed (error : CommandError)
      (at' : world.commands process = some (.finished (.error error)))
  | crashed (at' : world.commands process = some .crashed)

section Pursuit

variable {tools : Tools} {asked : CreateCommand → Prop} {world next : TokenWorld}
  {process : Nat} {event : TokenEvent} {command : RevokeCommand} {target : Uuid}

theorem Gone.keeps (keeps : KeepsTokens world next) (gone : Gone world target) :
    Gone next target := by
  obtain ⟨row, member, rfl, revoked⟩ := gone
  obtain ⟨later, found, same⟩ := keeps.tokens row member
  exact ⟨later, found, same.id, same.revoked revoked⟩

theorem Names.sameGrant {row later : TokenRow} (same : SameGrant row later)
    (names : Names tools command row) : Names tools command later := by
  obtain ⟨name, id⟩ := names
  exact ⟨fun text given => same.name.trans (name text given),
    fun raw given => same.id ▸ id raw given⟩

theorem matches_of_names {row : TokenRow} {id : Option Uuid} (names : Names tools command row)
    (parsed : revokeId tools command = .ok id) : Matches command id row = true := by
  obtain ⟨name, own⟩ := names
  simp only [Matches, Bool.and_eq_true]
  refine ⟨?_, ?_⟩
  · cases given : command.name with
    | none => rfl
    | some text => exact decide_eq_true (name text given)
  · unfold revokeId at parsed
    cases given : command.id with
    | none =>
        rw [given] at parsed
        obtain rfl := Except.ok.inj parsed
        rfl
    | some raw =>
        simp only [given, own raw given] at parsed
        obtain rfl := Except.ok.inj parsed
        exact decide_eq_true rfl

theorem gone_revokeToken {row : TokenRow} {now : DateTimeUtc} (member : row ∈ world.tokens)
    (own : row.id = target) : Gone (world.revokeToken target now) target := by
  refine ⟨_, List.mem_map_of_mem member, ?_, ?_⟩
  · simp [own]
  · simp [own]

/-- One row of the loop: left alone when it was revoked before, else written. -/
theorem revoking_cons {answer : CommandAnswer} {now : DateTimeUtc} {row : TokenRow}
    {rest : List TokenRow} {revoked : Nat}
    (stepped : advance tools world process answer (.revoking now (row :: rest) revoked) =
      some next) :
    (row.revokedAt ≠ none ∧ next = world.goto process (.revoking now rest revoked)) ∨
      next = (world.revokeToken row.id now).goto process (.revoking now rest (revoked + 1)) ∨
        ∃ middle : TokenWorld, next = middle.fail process .database := by
  simp only [advance] at stepped
  split at stepped
  · rename_i already
    exact .inl ⟨Option.isSome_iff_ne_none.mp already, (Option.some.inj stepped).symm⟩
  · split at stepped
    · exact .inr (.inl (Option.some.inj stepped).symm)
    · split at stepped <;>
      · exact .inr (.inr ⟨_, (Option.some.inj stepped).symm⟩)

/-- The revocation's own steps. -/
theorem pursued_advance {answer : CommandAnswer} {phase : CommandPhase}
    (at' : world.commands process = some phase) (sound : Sound tools asked world)
    (keeps : KeepsTokens world next)
    (stepped : advance tools world process answer phase = some next)
    (pursued : Pursued tools command process target world) :
    Pursued tools command process target next := by
  have holds := sound.phases process phase at'
  cases pursued with
  | asked here named =>
      obtain rfl := Option.some.inj (at'.symm.trans here)
      obtain ⟨row, member, own, names⟩ := named
      simp only [advance] at stepped
      split at stepped
      · obtain rfl := Option.some.inj stepped
        exact .failed _ (TokenWorld.goto_self ..)
      · rename_i id parsed
        split at stepped
        · obtain rfl := Option.some.inj stepped
          exact .failed _ (TokenWorld.goto_self ..)
        · have listed : row ∈ world.tokens.filter (Matches command id) :=
            List.mem_filter.mpr ⟨member, matches_of_names names parsed⟩
          split at stepped
          · obtain rfl := Option.some.inj stepped
            exact .failed _ (TokenWorld.goto_self ..)
          · rename_i first rest matched
            obtain rfl := Option.some.inj stepped
            exact .found _ _ _ (TokenWorld.goto_self ..) ⟨row, matched ▸ listed, own⟩
  | found now rows revoked here listed =>
      obtain rfl := Option.some.inj (at'.symm.trans here)
      obtain ⟨row, member, own⟩ := listed
      cases rows with
      | nil => contradiction
      | cons first rest =>
          obtain ⟨current, stored, same⟩ := holds first List.mem_cons_self
          rcases revoking_cons stepped with ⟨already, rfl⟩ | rfl | ⟨middle, rfl⟩
          · rcases List.mem_cons.mp member with rfl | member
            · exact .gone ⟨current, stored, same.id.trans own, same.revoked already⟩
            · exact .found _ _ _ (TokenWorld.goto_self ..) ⟨row, member, own⟩
          · rcases List.mem_cons.mp member with rfl | member
            · exact .gone (own ▸ gone_revokeToken stored same.id)
            · exact .found _ _ _ (TokenWorld.goto_self ..) ⟨row, member, own⟩
          · exact .failed _ (TokenWorld.goto_self ..)
  | gone revoked => exact .gone (revoked.keeps keeps)
  | failed error here =>
      obtain rfl := Option.some.inj (at'.symm.trans here)
      contradiction
  | crashed here =>
      obtain rfl := Option.some.inj (at'.symm.trans here)
      contradiction

theorem step_pursued (sound : Sound tools asked world) (asks : Asks asked event)
    (stepped : step tools world event = some next)
    (pursued : Pursued tools command process target world) :
    Pursued tools command process target next := by
  have keeps := step_keeps sound asks stepped
  have moves : ∀ {phase : CommandPhase}, world.commands process = some phase →
      (next.commands process = some phase → Pursued tools command process target next) →
      Pursued tools command process target next := by
    intro phase at' stays
    rcases step_phase at' sound stepped with same | ⟨answer, advanced⟩ | crashed
    · exact stays same
    · exact pursued_advance at' sound keeps advanced pursued
    · exact .crashed crashed
  cases pursued with
  | asked at' named =>
      refine moves at' fun same => .asked same ?_
      obtain ⟨row, member, own, names⟩ := named
      obtain ⟨later, found, kept⟩ := keeps.tokens row member
      exact ⟨later, found, kept.id.trans own, names.sameGrant kept⟩
  | found now rest revoked at' listed =>
      exact moves at' fun same => .found now rest revoked same listed
  | gone revoked => exact .gone (revoked.keeps keeps)
  | failed error at' => exact moves at' fun same => .failed error same
  | crashed at' => exact moves at' fun same => .crashed same

theorem run_pursued {events : List TokenEvent} (sound : Sound tools asked world)
    (asks : ∀ event ∈ events, Asks asked event)
    (pursued : Pursued tools command process target world)
    (run : exec (step tools) world events = some next) :
    Pursued tools command process target next :=
  (@exec_invariant_of_allowed _ _ (step tools) _
    (fun world => Sound tools asked world ∧ Pursued tools command process target world)
    (fun _ _ _ holds asks stepped =>
      ⟨step_sound holds.1 asks stepped, step_pursued holds.1 asks stepped holds.2⟩)
    _ _ _ ⟨sound, pursued⟩ (allowed_asks asks) run).2

end Pursuit

/-- Once `revoke-token` reports success, no token it names that was in the table when it was
given is ever accepted again. -/
theorem revoked_tokens_refused {tools : Tools} {early during after : List TokenEvent}
    {world done last : TokenWorld} {process : Nat} {command : RevokeCommand} {row : TokenRow}
    {lines : List String} (before : exec (step tools) .initial early = some world)
    (given : world.commands process = some (.findTokens command)) (known : row ∈ world.tokens)
    (named : Names tools command row)
    (revoking : exec (step tools) world during = some done)
    (reported : done.commands process = some (.finished (.ok lines)))
    (afterwards : exec (step tools) done after = some last) (now : DateTimeUtc)
    (authorization : Option String) (token : Token)
    (accepted : authenticate tools last now authorization = .ok token) :
    token.id ≠ row.id := by
  have sound := run_sound (Sound.initial tools _) (asks_any early) before
  have sound' := run_sound sound (asks_any during) revoking
  have sound'' := run_sound sound' (asks_any after) afterwards
  have gone : Gone done row.id := by
    have pursued := run_pursued sound (asks_any during)
      (.asked given ⟨row, known, rfl, named⟩) revoking
    cases pursued with
    | asked at' =>
        rw [reported] at at'
        cases at'
    | found now rest revoked at' =>
        rw [reported] at at'
        cases at'
    | gone revoked => exact revoked
    | failed error at' =>
        rw [reported] at at'
        cases at'
    | crashed at' =>
        rw [reported] at at'
        cases at'
  obtain ⟨current, found, own, revoked⟩ := gone.keeps (run_keeps sound' (asks_any after) afterwards)
  obtain ⟨plaintext, -, other, stored, -, usable, rfl⟩ := (authenticate_ok sound'').mp accepted
  intro same
  obtain rfl := @row_eq _ _ _ _ (fun row => row.id) sound''.ids stored found (same.trans own.symm)
  exact revoked usable.1

namespace TokenSample

def revocation : TokenEvent := .revoke 1 ["--name", "ci"] true

def revoking : TokenWorld := (step tools minted revocation).get (by decide +kernel)

theorem revoking_run :
    exec (step tools) .initial (asking ++ [insertion] ++ [revocation]) = some revoking :=
  (exec_append_some (step tools)).mpr
    ⟨minted, minted_run, exec_singleton (Option.some_get _).symm⟩

def revocationSteps : List TokenEvent := List.replicate 3 (.advance 1 (answer sampleOrg))

def revoked : TokenWorld :=
  (exec (step tools) revoking revocationSteps).get (by decide +kernel)

def isRevokingCi : Option CommandPhase → Bool
  | some (.findTokens command) => command.name = some "ci" && command.id = none
  | _ => false

theorem revoking_given : ∃ command row, revoking.commands 1 = some (.findTokens command) ∧
    row ∈ revoking.tokens ∧ Names tools command row := by
  have asks : isRevokingCi (revoking.commands 1) = true := by decide +kernel
  have stored : (revoking.tokens.any fun row => row.name = "ci") = true := by decide +kernel
  obtain ⟨row, member, named⟩ := List.any_eq_true.mp stored
  unfold isRevokingCi at asks
  split at asks
  · rename_i command at'
    simp only [Bool.and_eq_true, decide_eq_true_eq] at asks
    refine ⟨command, row, at', member, fun name given => ?_, fun raw given => ?_⟩
    · rw [asks.1] at given
      exact Option.some.inj given ▸ of_decide_eq_true named
    · rw [asks.2] at given
      contradiction
  · contradiction

theorem revoked_reported : ∃ lines, revoked.commands 1 = some (.finished (.ok lines)) :=
  of_isReported (by decide +kernel)

end TokenSample

theorem revoked_tokens_refused_sample : ∃ command row,
    TokenSample.revoking.commands 1 = some (.findTokens command) ∧
    row ∈ TokenSample.revoking.tokens ∧ Names TokenSample.tools command row ∧
    ∀ now authorization token,
      authenticate TokenSample.tools TokenSample.revoked now authorization = .ok token →
        token.id ≠ row.id := by
  obtain ⟨command, row, given, known, named⟩ := TokenSample.revoking_given
  obtain ⟨lines, reported⟩ := TokenSample.revoked_reported
  exact ⟨command, row, given, known, named, revoked_tokens_refused TokenSample.revoking_run given
    known named (Option.some_get _).symm reported
    (exec_nil (step TokenSample.tools) TokenSample.revoked)⟩

end ZedRegistry.TokenLifecycle
