import Mathlib.Data.List.Basic

/-!
# Readers of a stream

A reader gives the bytes of a stream in pieces of its own choice, each at most as
long as the buffer.  An empty piece means the end, so a reader that gives one early
cuts the stream.
-/

set_option autoImplicit false

namespace StreamReader

section Streams

variable {State Byte Fault : Type}

/-- The bytes of a stream, and the fault that stands in place of its end. -/
structure Source (Byte Fault : Type) where
  bytes : List Byte
  fault : Option Fault
  deriving DecidableEq

/-- How the reading of a stream ends; `unfinished` when it was given up before. -/
inductive Ending (Fault : Type) where
  | ended
  | failed (fault : Fault)
  | unfinished
  deriving DecidableEq

def Source.ending (stream : Source Byte Fault) : Ending Fault :=
  match stream.fault with
  | none => .ended
  | some fault => .failed fault

/-- What is left of a stream behind its first bytes. -/
def Source.push (chunk : List Byte) (stream : Source Byte Fault) : Source Byte Fault :=
  ⟨chunk ++ stream.bytes, stream.fault⟩

variable (read : State → Nat → Except Fault (List Byte × State))

/-- Reading until an empty piece or a fault, with a buffer of each size in turn. -/
def drain (sizes : Nat → Nat) : Nat → State → List Byte × Ending Fault
  | 0, _ => ([], .unfinished)
  | count + 1, state =>
    match read state (sizes 0) with
    | .error fault => ([], .failed fault)
    | .ok (chunk, next) =>
      if chunk.isEmpty then ([], .ended)
      else
        let rest := drain (fun index => sizes (index + 1)) count next
        (chunk ++ rest.1, rest.2)

/-- What any number of reads into buffers that are not empty has given. -/
inductive Delivers : State → List Byte → State → Prop where
  | start (state : State) : Delivers state [] state
  | read {state next last : State} {size : Nat} {chunk rest : List Byte} (room : 0 < size)
      (given : read state size = .ok (chunk, next)) (later : Delivers next rest last) :
      Delivers state (chunk ++ rest) last

/-- The states that hold a stream give it piece by piece and end as it ends. -/
structure Reads (holds : State → Source Byte Fault → Prop) : Prop where
  piece : ∀ {state stream size}, holds state stream → 0 < size → stream.bytes ≠ [] →
    ∃ chunk rest next, read state size = .ok (chunk, next) ∧ chunk ≠ [] ∧
      chunk.length ≤ size ∧ stream = Source.push chunk rest ∧ holds next rest
  ended : ∀ {state size}, holds state ⟨[], none⟩ → 0 < size →
    ∃ next, read state size = .ok ([], next) ∧ holds next ⟨[], none⟩
  failed : ∀ {state size fault}, holds state ⟨[], some fault⟩ → 0 < size →
    read state size = .error fault

/-- A read into an empty buffer gives nothing and takes nothing. -/
def Idles (holds : State → Source Byte Fault → Prop) : Prop :=
  ∀ {state stream}, holds state stream → ∃ next, read state 0 = .ok ([], next) ∧ holds next stream

end Streams

/-! ## Reading what is held -/

section Laws

variable {State Byte Fault : Type} {read : State → Nat → Except Fault (List Byte × State)}
variable {holds : State → Source Byte Fault → Prop}

/-- A read that is answered gives a front of the stream, and nothing only at its end. -/
theorem Reads.answered (reads : Reads read holds) {state next : State}
    {stream : Source Byte Fault} {size : Nat} {chunk : List Byte} (held : holds state stream)
    (room : 0 < size) (given : read state size = .ok (chunk, next)) :
    ∃ rest, stream = Source.push chunk rest ∧ holds next rest ∧
      (chunk = [] → stream = ⟨[], none⟩) := by
  obtain ⟨bytes, fault⟩ := stream
  by_cases more : bytes = []
  · subst more
    cases fault with
    | none =>
        obtain ⟨last, ended, heldLast⟩ := reads.ended held room
        simp only [ended, Except.ok.injEq, Prod.mk.injEq] at given
        obtain ⟨rfl, rfl⟩ := given
        exact ⟨⟨[], none⟩, rfl, heldLast, fun _ => rfl⟩
    | some fault =>
        rw [reads.failed held room] at given
        contradiction
  · obtain ⟨piece, rest, after, read, nonempty, _, split, heldRest⟩ :=
      reads.piece held room more
    simp only [read, Except.ok.injEq, Prod.mk.injEq] at given
    obtain ⟨rfl, rfl⟩ := given
    exact ⟨rest, split, heldRest, fun empty => absurd empty nonempty⟩

theorem Reads.delivers (reads : Reads read holds) {state last : State}
    {stream : Source Byte Fault} {bytes : List Byte} (held : holds state stream)
    (delivers : Delivers read state bytes last) :
    ∃ rest, stream = Source.push bytes rest ∧ holds last rest := by
  induction delivers generalizing stream with
  | start state => exact ⟨stream, rfl, held⟩
  | read room given later ih =>
      obtain ⟨between, split, heldBetween, _⟩ := reads.answered held room given
      obtain ⟨rest, splitRest, heldRest⟩ := ih heldBetween
      refine ⟨rest, ?_, heldRest⟩
      rw [split, splitRest]
      simp only [Source.push, List.append_assoc]

theorem Reads.delivers_length (reads : Reads read holds) {state last : State}
    {stream : Source Byte Fault} {bytes : List Byte} (held : holds state stream)
    (delivers : Delivers read state bytes last) : bytes.length ≤ stream.bytes.length := by
  obtain ⟨rest, split, _⟩ := reads.delivers held delivers
  rw [split, Source.push, List.length_append]
  exact Nat.le_add_right _ _

/-- A read that gives nothing tells that all has been given. -/
theorem Reads.silent (reads : Reads read holds) {state last next : State}
    {stream : Source Byte Fault} {bytes : List Byte} {size : Nat} (held : holds state stream)
    (delivers : Delivers read state bytes last) (room : 0 < size)
    (given : read last size = .ok ([], next)) : stream = ⟨bytes, none⟩ := by
  obtain ⟨rest, split, heldRest⟩ := reads.delivers held delivers
  obtain ⟨_, _, _, ended⟩ := reads.answered heldRest room given
  rw [split, ended rfl, Source.push, List.append_nil]

/-- Whatever the sizes of the buffers, the whole stream is read and then its end. -/
theorem Reads.drain (reads : Reads read holds) {state : State} {stream : Source Byte Fault}
    (held : holds state stream) {sizes : Nat → Nat} (room : ∀ index, 0 < sizes index)
    {count : Nat} (enough : stream.bytes.length < count) :
    StreamReader.drain read sizes count state = (stream.bytes, stream.ending) := by
  induction count generalizing state stream sizes with
  | zero => exact absurd enough (Nat.not_lt_zero _)
  | succ count ih =>
      obtain ⟨bytes, fault⟩ := stream
      rw [StreamReader.drain]
      by_cases more : bytes = []
      · subst more
        cases fault with
        | none =>
            obtain ⟨last, ended, _⟩ := reads.ended held (room 0)
            rw [ended]
            rfl
        | some fault =>
            rw [reads.failed held (room 0)]
            rfl
      · obtain ⟨chunk, rest, next, given, nonempty, _, split, heldRest⟩ :=
          reads.piece held (room 0) more
        obtain ⟨sameBytes, sameFault⟩ := Source.mk.inj split
        have shorter : rest.bytes.length < count := by
          have positive := List.length_pos_iff.mpr nonempty
          have lengths := congrArg List.length sameBytes
          rw [List.length_append] at lengths
          simp only at enough
          omega
        have later := ih heldRest (fun index => room (index + 1)) shorter
        rw [given]
        simp only [List.isEmpty_iff, if_neg nonempty, later, sameBytes, sameFault, Source.ending]

theorem delivers_drain {sizes : Nat → Nat} (room : ∀ index, 0 < sizes index) (count : Nat)
    (state : State) :
    ∃ last, Delivers read state (StreamReader.drain read sizes count state).1 last := by
  induction count generalizing state sizes with
  | zero => exact ⟨state, .start state⟩
  | succ count ih =>
      rw [StreamReader.drain]
      cases given : read state (sizes 0) with
      | error fault => exact ⟨state, .start state⟩
      | ok answer =>
          obtain ⟨chunk, next⟩ := answer
          simp only
          split_ifs
          · exact ⟨state, .start state⟩
          · obtain ⟨last, later⟩ := ih (fun index => room (index + 1)) next
            exact ⟨last, .read (room 0) given later⟩

end Laws

end StreamReader
