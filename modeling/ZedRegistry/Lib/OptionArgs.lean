import Mathlib.Data.List.Basic

/-!
# Command lines of options with one value

A loop that takes an option and the argument after it, as long as there are
arguments.  An option at the very end finds no value, and what that means is the
option's own business.
-/

set_option autoImplicit false

namespace OptionArgs

variable {σ ε α : Type}

/-- `option` is what a flag does to the state, with its value where there is one. -/
def scan (option : String → σ → Option String → Except ε σ) :
    σ → List String → Except ε σ
  | state, [] => .ok state
  | state, [flag] => option flag state none
  | state, flag :: value :: rest =>
      (option flag state (some value)).bind fun next => scan option next rest

/-- The options that have a value, in order. -/
def pairs : List String → List (String × String)
  | flag :: value :: rest => (flag, value) :: pairs rest
  | _ => []

/-- The option that the arguments end with, without a value. -/
def trailing : List String → Option String
  | [] => none
  | [flag] => some flag
  | _ :: _ :: rest => trailing rest

/-- The last value of an option. -/
def last (flag : String) : List (String × String) → Option String
  | [] => none
  | (name, value) :: rest => (last flag rest).or (if name = flag then some value else none)

def applyPairs (option : String → σ → Option String → Except ε σ) :
    σ → List (String × String) → Except ε σ
  | state, [] => .ok state
  | state, (flag, value) :: rest =>
      (option flag state (some value)).bind fun next => applyPairs option next rest

theorem last_eq_none {flag : String} {given : List (String × String)} :
    last flag given = none ↔ ∀ pair ∈ given, pair.1 ≠ flag := by
  induction given with
  | nil => simp [last]
  | cons pair rest ih =>
      obtain ⟨name, own⟩ := pair
      rw [last, Option.or_eq_none_iff, ih, List.forall_mem_cons, and_comm]
      simp

section Scan

variable {option : String → σ → Option String → Except ε σ}

/-- The loop is its pairs, and then the option without a value. -/
theorem scan_eq (state : σ) (args : List String) :
    scan option state args = (applyPairs option state (pairs args)).bind fun middle =>
      match trailing args with
      | none => .ok middle
      | some flag => option flag middle none := by
  induction args using pairs.induct generalizing state with
  | case1 flag value rest ih =>
      rw [scan, pairs, applyPairs, trailing]
      cases option flag state (some value) with
      | error error => rfl
      | ok next => exact ih next
  | case2 args short =>
      match args, short with
      | [], _ => rfl
      | [flag], _ => rfl
      | flag :: value :: rest, short => exact absurd rfl (short flag value rest)

/-- One more option after complete ones has no value. -/
theorem pairs_append_flag {args : List String} (complete : trailing args = none)
    (flag : String) :
    pairs (args ++ [flag]) = pairs args ∧ trailing (args ++ [flag]) = some flag := by
  induction args using pairs.induct with
  | case1 name value rest ih =>
      obtain ⟨same, last⟩ := ih complete
      exact ⟨congrArg (List.cons (name, value)) same, last⟩
  | case2 args short =>
      match args, short with
      | [], _ => exact ⟨rfl, rfl⟩
      | [_], _ => contradiction
      | name :: value :: rest, short => exact absurd rfl (short name value rest)

/-- The pairs are applied when each of them is, whatever state it meets. -/
theorem applyPairs_ok {given : List (String × String)}
    (each : ∀ flag value, (flag, value) ∈ given → ∀ state,
      ∃ next, option flag state (some value) = .ok next) (state : σ) :
    ∃ final, applyPairs option state given = .ok final := by
  induction given generalizing state with
  | nil => exact ⟨state, rfl⟩
  | cons pair rest ih =>
      obtain ⟨flag, value⟩ := pair
      obtain ⟨next, taken⟩ := each flag value List.mem_cons_self state
      obtain ⟨final, applied⟩ :=
        ih (fun flag value member => each flag value (List.mem_cons_of_mem _ member)) next
      refine ⟨final, ?_⟩
      rw [applyPairs, taken]
      exact applied

/-- Each pair of arguments that are read was taken in some state. -/
theorem applyPairs_taken {given : List (String × String)} {state final : σ}
    (applied : applyPairs option state given = .ok final) {flag value : String}
    (member : (flag, value) ∈ given) :
    ∃ middle next, option flag middle (some value) = .ok next := by
  induction given generalizing state with
  | nil => exact absurd member List.not_mem_nil
  | cons pair rest ih =>
      obtain ⟨name, own⟩ := pair
      rw [applyPairs] at applied
      cases taken : option name state (some own) with
      | error error =>
          rw [taken] at applied
          contradiction
      | ok next =>
          rw [taken] at applied
          rcases List.mem_cons.mp member with same | later
          · obtain ⟨rfl, rfl⟩ := Prod.mk.inj same
            exact ⟨state, next, taken⟩
          · exact ih applied later

/-- A field that one option sets has that option's last value in the end. -/
theorem applyPairs_field (field : σ → α) (flag : String) (set : String → α)
    (own : ∀ state value next, option flag state (some value) = .ok next →
      field next = set value)
    (other : ∀ name state value next, name ≠ flag →
      option name state (some value) = .ok next → field next = field state)
    {given : List (String × String)} {state final : σ}
    (applied : applyPairs option state given = .ok final) :
    field final = ((last flag given).map set).getD (field state) := by
  induction given generalizing state with
  | nil =>
      obtain rfl := Except.ok.inj applied
      rfl
  | cons pair rest ih =>
      obtain ⟨name, value⟩ := pair
      rw [applyPairs] at applied
      cases taken : option name state (some value) with
      | error error =>
          rw [taken] at applied
          contradiction
      | ok next =>
          rw [taken] at applied
          rw [ih applied, last]
          cases later : last flag rest with
          | some found => rfl
          | none =>
              rw [Option.none_or]
              by_cases same : name = flag
              · rw [if_pos same]
                exact own state value next (same ▸ taken)
              · rw [if_neg same]
                exact other name state value next same taken

end Scan

end OptionArgs
