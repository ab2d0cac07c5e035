import ZedRegistry.Files
import ZedRegistry.Lib.StreamReader

/-!
# The inflation budget

`BudgetReader` of `files.rs` over any inflated stream, on 32-bit and 64-bit hosts:
what it gives, how it ends, and where the narrowing of the budget to `usize` ends
a stream early.  No file that is served is clipped.
-/

set_option autoImplicit false

namespace ZedRegistry.InflationBudget

open StreamReader

/-- The bits of a `usize`. -/
inductive PointerWidth where
  | bits32
  | bits64
  deriving DecidableEq

def PointerWidth.sizes : PointerWidth → Nat
  | .bits32 => 2 ^ 32
  | .bits64 => 2 ^ 64

abbrev InflatedStream := Source UInt8 ReadError

/-- `Read` of `std::io`: what a read into a buffer of some length returns. -/
abbrev ReadFn (State : Type) := State → Nat → Except ReadError (Bytes × State)

structure BudgetReader (State : Type) where
  inner : State
  remaining : Nat

def budgetError : ReadError := ⟨inflationBudgetMsg, []⟩

/-- `remaining as usize` keeps the low bits. -/
def BudgetReader.read {State : Type} (width : PointerWidth) (readInner : ReadFn State) :
    ReadFn (BudgetReader State) :=
  fun reader bufLen =>
    if reader.remaining = 0 then .error budgetError
    else do
      let want := min bufLen (reader.remaining % width.sizes)
      let (bytes, inner) ← readInner reader.inner want
      pure (bytes, ⟨inner, reader.remaining - bytes.length⟩)

/-- The reader that `extract_file` makes for a budget. -/
def BudgetReader.new {State : Type} (inner : State) (budget : Nat) : BudgetReader State :=
  ⟨inner, budget + 1⟩

/-! ## What the reader gives -/

/-- The bytes of a stream, its fault counted as one more. -/
def reach (stream : InflatedStream) : Nat :=
  stream.bytes.length + stream.fault.isSome.toNat

/-- The stream under a budget.  A budget that does not fit a `usize` ends the stream
without a word where its low bits are used up. -/
def budgeted (width : PointerWidth) (remaining : Nat) (stream : InflatedStream) : InflatedStream :=
  if remaining < width.sizes then
    ⟨stream.bytes.take remaining,
      if remaining ≤ stream.bytes.length then some budgetError else stream.fault⟩
  else if reach stream ≤ remaining % width.sizes then stream
  else ⟨stream.bytes.take (remaining % width.sizes), none⟩

def BudgetHolds {State : Type} (width : PointerWidth) (holds : State → InflatedStream → Prop)
    (reader : BudgetReader State) (stream : InflatedStream) : Prop :=
  ∃ inner, holds reader.inner inner ∧ stream = budgeted width reader.remaining inner

section Budget

variable {width : PointerWidth}

theorem budgeted_small {remaining : Nat} {stream : InflatedStream}
    (small : remaining < width.sizes) :
    budgeted width remaining stream =
      ⟨stream.bytes.take remaining,
        if remaining ≤ stream.bytes.length then some budgetError else stream.fault⟩ :=
  if_pos small

theorem budgeted_whole {remaining : Nat} {stream : InflatedStream}
    (large : ¬ remaining < width.sizes) (fits : reach stream ≤ remaining % width.sizes) :
    budgeted width remaining stream = stream := by
  rw [budgeted, if_neg large, if_pos fits]

theorem budgeted_cut {remaining : Nat} {stream : InflatedStream}
    (large : ¬ remaining < width.sizes) (cut : ¬ reach stream ≤ remaining % width.sizes) :
    budgeted width remaining stream = ⟨stream.bytes.take (remaining % width.sizes), none⟩ := by
  rw [budgeted, if_neg large, if_neg cut]

theorem reach_push (chunk : Bytes) (rest : InflatedStream) :
    reach (rest.push chunk) = chunk.length + reach rest := by
  simp only [reach, Source.push, List.length_append, Nat.add_assoc]

theorem take_push {chunk : Bytes} {count : Nat} (within : chunk.length ≤ count) (rest : Bytes) :
    (chunk ++ rest).take count = chunk ++ rest.take (count - chunk.length) := by
  rw [List.take_append, List.take_of_length_le within]

theorem sizes_pos (width : PointerWidth) : 0 < width.sizes := by
  cases width <;> decide

/-- Spending low bits leaves the high bits alone. -/
theorem spend_low {remaining spent : Nat} (within : spent ≤ remaining % width.sizes) :
    (remaining - spent) % width.sizes = remaining % width.sizes - spent ∧
      (remaining - spent < width.sizes ↔ remaining < width.sizes) := by
  have low := Nat.mod_lt remaining (sizes_pos width)
  have split := Nat.div_add_mod remaining width.sizes
  have spentLow : remaining - spent =
      width.sizes * (remaining / width.sizes) + (remaining % width.sizes - spent) := by omega
  constructor
  · rw [spentLow, Nat.mul_add_mod, Nat.mod_eq_of_lt (by omega)]
  · constructor
    · intro small
      have none : remaining / width.sizes = 0 := by
        by_contra some
        have atLeast := Nat.mul_le_mul_left width.sizes (Nat.pos_of_ne_zero some)
        omega
      rw [none] at split
      omega
    · exact fun small => by omega

/-- A piece within the low bits of the budget is given, and what is left of the stream is
under what is left of the budget. -/
theorem budgeted_push {remaining : Nat} {chunk : Bytes}
    (within : chunk.length ≤ remaining % width.sizes) (rest : InflatedStream) :
    budgeted width remaining (rest.push chunk) =
      (budgeted width (remaining - chunk.length) rest).push chunk := by
  obtain ⟨low, size⟩ := spend_low within
  have spendable := Nat.le_trans within (Nat.mod_le remaining width.sizes)
  unfold budgeted
  by_cases small : remaining < width.sizes
  · have same : remaining ≤ (rest.push chunk).bytes.length ↔
        remaining - chunk.length ≤ rest.bytes.length := by
      rw [Source.push, List.length_append]
      omega
    rw [if_pos small, if_pos (size.mpr small), if_congr same rfl rfl]
    simp only [Source.push, take_push spendable]
  · rw [if_neg small, if_neg (mt size.mp small), reach_push, low]
    by_cases fits : reach rest ≤ remaining % width.sizes - chunk.length
    · rw [if_pos fits, if_pos (by omega)]
    · rw [if_neg fits, if_neg (by omega)]
      simp only [Source.push, take_push within]

variable {State : Type} {readInner : ReadFn State} {holds : State → InflatedStream → Prop}

theorem read_some {reader : BudgetReader State} {bufLen : Nat} (left : reader.remaining ≠ 0) :
    BudgetReader.read width readInner reader bufLen =
      (readInner reader.inner (min bufLen (reader.remaining % width.sizes))).map fun answer =>
        (answer.1, ⟨answer.2, reader.remaining - answer.1.length⟩) := by
  rw [BudgetReader.read, if_neg left]
  rfl

/-- Where the budgeted stream has bytes left, so do the stream and the low bits of the budget. -/
theorem budgeted_bytes {remaining : Nat} {stream : InflatedStream}
    (more : (budgeted width remaining stream).bytes ≠ []) :
    stream.bytes ≠ [] ∧ 0 < remaining % width.sizes := by
  have taken {count : Nat} (some : stream.bytes.take count ≠ []) :
      stream.bytes ≠ [] ∧ 0 < count := by
    rw [ne_eq, List.take_eq_nil_iff, not_or] at some
    exact ⟨some.2, Nat.pos_of_ne_zero some.1⟩
  by_cases small : remaining < width.sizes
  · rw [budgeted_small small] at more
    rw [Nat.mod_eq_of_lt small]
    exact taken more
  · by_cases fits : reach stream ≤ remaining % width.sizes
    · rw [budgeted_whole small fits] at more
      have positive := List.length_pos_iff.mpr more
      unfold reach at fits
      exact ⟨more, by omega⟩
    · rw [budgeted_cut small fits] at more
      exact taken more

/-- Where the budgeted stream ends, the read inside gives nothing, for want of bytes or of room. -/
theorem budgeted_ended (reads : Reads readInner holds) (idles : Idles readInner holds)
    {remaining size : Nat} {inner : State} {stream : InflatedStream} (held : holds inner stream)
    (ended : budgeted width remaining stream = ⟨[], none⟩) :
    remaining ≠ 0 ∧ ∃ next, readInner inner (min size (remaining % width.sizes)) =
      .ok ([], next) ∧ holds next stream := by
  have exhausted (all : stream = ⟨[], none⟩) (want : Nat) :
      ∃ next, readInner inner want = .ok ([], next) ∧ holds next stream := by
    subst all
    cases want with
    | zero => exact idles held
    | succ want => exact reads.ended held (Nat.succ_pos want)
  have positive := sizes_pos width
  by_cases small : remaining < width.sizes
  · rw [budgeted_small small] at ended
    obtain ⟨noBytes, noFault⟩ := Source.mk.inj ended
    split_ifs at noFault with spent
    have empty : stream.bytes = [] :=
      (List.take_eq_nil_iff.mp noBytes).resolve_left (by omega)
    refine ⟨by omega, exhausted ?_ _⟩
    rw [← empty, ← noFault]
  · refine ⟨by omega, ?_⟩
    by_cases fits : reach stream ≤ remaining % width.sizes
    · rw [budgeted_whole small fits] at ended
      exact exhausted ended _
    · rw [budgeted_cut small fits] at ended
      have spent : remaining % width.sizes = 0 := by
        rcases List.take_eq_nil_iff.mp (Source.mk.inj ended).1 with none | empty
        · exact none
        · have single : stream.fault.isSome.toNat ≤ 1 := Bool.toNat_le _
          rw [reach, empty, List.length_nil] at fits
          omega
      rw [spent, Nat.min_zero]
      exact idles held

theorem budgeted_failed (reads : Reads readInner holds) {remaining size : Nat} {inner : State}
    {stream : InflatedStream} {fault : ReadError} (held : holds inner stream) (room : 0 < size)
    (failed : budgeted width remaining stream = ⟨[], some fault⟩) :
    BudgetReader.read width readInner ⟨inner, remaining⟩ size = .error fault := by
  have passes (all : stream = ⟨[], some fault⟩) (low : 0 < remaining % width.sizes) :
      BudgetReader.read width readInner ⟨inner, remaining⟩ size = .error fault := by
    subst all
    have left : remaining ≠ 0 := by
      intro spent
      rw [spent, Nat.zero_mod] at low
      exact absurd low (Nat.lt_irrefl 0)
    rw [read_some left, reads.failed held (Nat.lt_min.mpr ⟨room, low⟩)]
    rfl
  by_cases small : remaining < width.sizes
  · rw [budgeted_small small] at failed
    obtain ⟨noBytes, itsFault⟩ := Source.mk.inj failed
    by_cases spent : remaining ≤ stream.bytes.length
    · rw [if_pos spent] at itsFault
      have nothing : remaining = 0 := by
        rcases List.take_eq_nil_iff.mp noBytes with none | empty
        · exact none
        · rw [empty] at spent
          exact Nat.le_zero.mp spent
      rw [BudgetReader.read, if_pos nothing, Option.some.inj itsFault]
    · rw [if_neg spent] at itsFault
      have empty : stream.bytes = [] :=
        (List.take_eq_nil_iff.mp noBytes).resolve_left (by omega)
      refine passes ?_ ?_
      · rw [← empty, ← itsFault]
      · rw [Nat.mod_eq_of_lt small]
        omega
  · by_cases fits : reach stream ≤ remaining % width.sizes
    · rw [budgeted_whole small fits] at failed
      refine passes failed ?_
      rw [failed] at fits
      exact fits
    · rw [budgeted_cut small fits] at failed
      exact absurd (Source.mk.inj failed).2 nofun

theorem reads_budget (reads : Reads readInner holds) (idles : Idles readInner holds) :
    Reads (BudgetReader.read width readInner) (BudgetHolds width holds) where
  piece := by
    rintro reader stream size ⟨inner, held, rfl⟩ room more
    obtain ⟨innerMore, low⟩ := budgeted_bytes more
    have left : reader.remaining ≠ 0 := by
      intro spent
      rw [spent, Nat.zero_mod] at low
      exact absurd low (Nat.lt_irrefl 0)
    obtain ⟨chunk, rest, next, given, nonempty, fits, split, heldRest⟩ :=
      reads.piece held (Nat.lt_min.mpr ⟨room, low⟩) innerMore
    have within := Nat.le_trans fits (Nat.min_le_right _ _)
    refine ⟨chunk, budgeted width (reader.remaining - chunk.length) rest,
      ⟨next, reader.remaining - chunk.length⟩, ?_, nonempty,
      Nat.le_trans fits (Nat.min_le_left _ _), ?_, rest, heldRest, rfl⟩
    · rw [read_some left, given]
      rfl
    · rw [split, budgeted_push within]
  ended := by
    rintro reader size ⟨inner, held, isEnded⟩ _
    obtain ⟨left, next, given, heldNext⟩ :
        reader.remaining ≠ 0 ∧ ∃ next, readInner reader.inner
          (min size (reader.remaining % width.sizes)) = .ok ([], next) ∧ holds next inner :=
      budgeted_ended reads idles held isEnded.symm
    refine ⟨⟨next, reader.remaining⟩, ?_, inner, heldNext, isEnded⟩
    rw [read_some left, given]
    rfl
  failed := by
    rintro reader size fault ⟨inner, held, isFailed⟩ room
    exact budgeted_failed reads held room isFailed.symm

end Budget

/-! ## What a budget promises -/

/-- The promises of a reader with a budget over a stream, whatever the buffers. -/
structure Exact {State : Type} (width : PointerWidth) (readInner : ReadFn State) (inner : State)
    (budget : Nat) (stream : InflatedStream) : Prop where
  atMost : ∀ {bytes last}, Delivers (BudgetReader.read width readInner)
    (BudgetReader.new inner budget) bytes last → bytes.length ≤ budget + 1
  whole : stream.bytes.length ≤ budget → ∀ {sizes : Nat → Nat}, (∀ index, 0 < sizes index) →
    ∀ count, stream.bytes.length < count →
      drain (BudgetReader.read width readInner) sizes count (BudgetReader.new inner budget) =
        (stream.bytes, stream.ending)
  overrun : budget < stream.bytes.length → ∀ {sizes : Nat → Nat}, (∀ index, 0 < sizes index) →
    ∀ count, stream.bytes.length < count →
      (drain (BudgetReader.read width readInner) sizes count
        (BudgetReader.new inner budget)).2 = .failed budgetError
  /-- Nothing is given only where the stream inside has ended. -/
  honest : ∀ {bytes last size next}, Delivers (BudgetReader.read width readInner)
    (BudgetReader.new inner budget) bytes last → 0 < size →
      BudgetReader.read width readInner last size = .ok ([], next) →
      bytes = stream.bytes ∧ stream.fault = none

/-- The budget and one more fit a `usize`, or the stream with its end fits the low bits of it. -/
def Fits (width : PointerWidth) (budget : Nat) (stream : InflatedStream) : Prop :=
  width = .bits64 ∨ budget + 1 < 2 ^ 32 ∨ reach stream ≤ (budget + 1) % 2 ^ 32

section Promises

variable {State : Type} {width : PointerWidth} {readInner : ReadFn State}
  {holds : State → InflatedStream → Prop} {inner : State} {stream : InflatedStream} {budget : Nat}

theorem fits_iff (machine : budget < 2 ^ 64 - 1) :
    Fits width budget stream ↔
      budget + 1 < width.sizes ∨ reach stream ≤ (budget + 1) % width.sizes := by
  cases width with
  | bits32 => simp only [Fits, reduceCtorEq, false_or, PointerWidth.sizes]
  | bits64 =>
      have small : budget + 1 < PointerWidth.bits64.sizes := by
        rw [PointerWidth.sizes]
        omega
      simp only [Fits, small, true_or]

/-- Where the budget fits, a stream is given up to one byte beyond it. -/
theorem budgeted_of_fits
    (fits : budget + 1 < width.sizes ∨ reach stream ≤ (budget + 1) % width.sizes) :
    budgeted width (budget + 1) stream =
      if stream.bytes.length ≤ budget then stream
      else ⟨stream.bytes.take (budget + 1), some budgetError⟩ := by
  by_cases small : budget + 1 < width.sizes
  · rw [budgeted_small small]
    split_ifs with spent within within
    · omega
    · rfl
    · rw [List.take_of_length_le (by omega)]
    · omega
  · have low := fits.resolve_left small
    have bound := Nat.mod_lt (budget + 1) (sizes_pos width)
    have within : stream.bytes.length ≤ budget := by
      unfold reach at low
      omega
    rw [budgeted_whole small low, if_pos within]

theorem exact_of_fits (reads : Reads readInner holds) (idles : Idles readInner holds)
    (held : holds inner stream)
    (fits : budget + 1 < width.sizes ∨ reach stream ≤ (budget + 1) % width.sizes) :
    Exact width readInner inner budget stream := by
  have budgetReads : Reads (BudgetReader.read width readInner) (BudgetHolds width holds) :=
    reads_budget reads idles
  have start : BudgetHolds width holds (BudgetReader.new inner budget)
      (budgeted width (budget + 1) stream) := ⟨stream, held, rfl⟩
  rw [budgeted_of_fits fits] at start
  by_cases within : stream.bytes.length ≤ budget
  · rw [if_pos within] at start
    refine ⟨?_, ?_, ?_, ?_⟩
    · intro bytes last delivers
      have given := budgetReads.delivers_length start delivers
      omega
    · intro _ sizes room count enough
      exact budgetReads.drain start room enough
    · exact fun more => absurd within (Nat.not_le_of_lt more)
    · intro bytes last size next delivers room given
      rw [budgetReads.silent start delivers room given]
      exact ⟨rfl, rfl⟩
  · rw [if_neg within] at start
    refine ⟨?_, ?_, ?_, ?_⟩
    · intro bytes last delivers
      exact Nat.le_trans (budgetReads.delivers_length start delivers) (List.length_take_le _ _)
    · exact fun less => absurd less within
    · intro _ sizes room count enough
      rw [budgetReads.drain start room (by rw [List.length_take]; omega)]
      rfl
    · intro bytes last size next delivers room given
      have silent := budgetReads.silent start delivers room given
      exact absurd (Source.mk.inj silent).2 nofun

theorem fits_of_exact (reads : Reads readInner holds) (idles : Idles readInner holds)
    (held : holds inner stream) (promise : Exact width readInner inner budget stream) :
    budget + 1 < width.sizes ∨ reach stream ≤ (budget + 1) % width.sizes := by
  by_contra unfit
  obtain ⟨large, cut⟩ := not_or.mp unfit
  have budgetReads : Reads (BudgetReader.read width readInner) (BudgetHolds width holds) :=
    reads_budget reads idles
  have start : BudgetHolds width holds (BudgetReader.new inner budget)
      (budgeted width (budget + 1) stream) := ⟨stream, held, rfl⟩
  rw [budgeted_cut large cut] at start
  have room : ∀ index : Nat, 0 < (fun _ => 1 : Nat → Nat) index := fun _ => Nat.one_pos
  have enough : (stream.bytes.take ((budget + 1) % width.sizes)).length <
      stream.bytes.length + 1 := by
    rw [List.length_take]
    omega
  have silent := budgetReads.drain start room enough
  by_cases within : stream.bytes.length ≤ budget
  · have given := promise.whole within room (stream.bytes.length + 1) (Nat.lt_succ_self _)
    rw [silent] at given
    obtain ⟨bytes, ending⟩ := Prod.mk.inj given
    have lengths := congrArg List.length bytes
    rw [List.length_take] at lengths
    unfold reach at cut
    cases fault : stream.fault with
    | none =>
        rw [fault, Option.isSome_none, Bool.toNat_false] at cut
        omega
    | some fault' =>
        rw [Source.ending, Source.ending, fault] at ending
        contradiction
  · have failed := promise.overrun (Nat.lt_of_not_le within) room (stream.bytes.length + 1)
      (Nat.lt_succ_self _)
    rw [silent] at failed
    contradiction

end Promises

/-! ## Files out of an archive -/

/-- `GzDecoder`: a reader made over an archive. -/
structure GzDecoder where
  State : Type
  new : Bytes → State
  read : ReadFn State

/-- `tar::Archive`, which reads its source through whatever reader it is given. -/
structure TarReader where
  entries : {State : Type} → ReadFn State → State →
    Except ReadError (List (Except ReadError ArchiveEntry))

/-- The readers as `extract_file` stacks them. -/
def stackedArchives (width : PointerWidth) (gzip : GzDecoder) (tar : TarReader)
    (zipByName : Bytes → String → Except ReadError (Option ArchiveEntry)) : Archives where
  tarEntries remaining archive :=
    tar.entries (BudgetReader.read width gzip.read) ⟨gzip.new archive, remaining⟩
  zipByName := zipByName

/-- What is read of an entry is a front of its content, cut by the limit only. -/
def ReadsWhole (entry : ArchiveEntry) (content : Bytes) : Prop :=
  ∀ limit bytes, entry.read limit = .ok bytes → bytes = content.take limit

/-- The entries that are seen are the members of the archive in order, up to a fault or
the end of what could be read. -/
inductive PassesThrough : List (Except ReadError ArchiveEntry) → List (String × Bytes) → Prop where
  | stopped (members : List (String × Bytes)) : PassesThrough [] members
  | failed (error : ReadError) (entries : List (Except ReadError ArchiveEntry))
      (members : List (String × Bytes)) : PassesThrough (.error error :: entries) members
  | entry {entry : ArchiveEntry} {name : String} {content : Bytes}
      {entries : List (Except ReadError ArchiveEntry)} {members : List (String × Bytes)}
      (named : ∀ path, entry.path = .ok path → path = name) (whole : ReadsWhole entry content)
      (later : PassesThrough entries members) :
      PassesThrough (.ok entry :: entries) ((name, content) :: members)

/-- The gzip reader gives `inflated`, and reports a truncated source as its fault. -/
structure GzDecoder.Inflates (gzip : GzDecoder) (inflated : Bytes → InflatedStream)
    (holds : gzip.State → InflatedStream → Prop) : Prop where
  reads : Reads gzip.read holds
  idles : Idles gzip.read holds
  start : ∀ archive, holds (gzip.new archive) (inflated archive)

/-- The tar reader, over a source that gives a front of an archive, passes its members through. -/
def TarReader.Lawful (tar : TarReader) (members : Bytes → List (String × Bytes)) : Prop :=
  ∀ {State : Type} {read : ReadFn State} {holds : State → InflatedStream → Prop} {state : State}
    {stream : InflatedStream} {whole : Bytes} {entries : List (Except ReadError ArchiveEntry)},
    Reads read holds → holds state stream → stream.bytes <+: whole →
      tar.entries read state = .ok entries → PassesThrough entries (members whole)

/-- The zip reader reads the entry it finds by name, whole. -/
def ZipLawful (zipByName : Bytes → String → Except ReadError (Option ArchiveEntry))
    (content : Bytes → String → Option Bytes) : Prop :=
  ∀ archive name entry, zipByName archive name = .ok (some entry) →
    ∃ bytes, content archive name = some bytes ∧ ReadsWhole entry bytes

theorem readEntry_whole {entry : ArchiveEntry} {content bytes : Bytes}
    (whole : ReadsWhole entry content) (served : readEntry entry = .ok (some bytes)) :
    bytes = content := by
  unfold readEntry readCapped at served
  simp only [bind_ok, ensure_ok, map_eq_pure_bind] at served
  obtain ⟨_, _, read, ⟨given, isGiven, _, within, same⟩, built⟩ := served
  obtain rfl := Except.ok.inj same
  obtain rfl := Option.some.inj (Except.ok.inj built)
  have cut := whole _ _ (mapError_ok.mp isGiven)
  have short : content.length ≤ maxServedFileBytes + 1 := by
    rw [cut, List.length_take] at within
    omega
  rw [cut, List.take_of_length_le short]

theorem scanTar_whole {want : String} {entries : List (Except ReadError ArchiveEntry)}
    {members : List (String × Bytes)} (passes : PassesThrough entries members) {bytes : Bytes}
    (served : scanTar want entries = .ok (some bytes)) :
    (members.find? fun member => member.1 = want) = some (want, bytes) := by
  induction passes with
  | stopped members => simp [scanTar] at served
  | failed error entries members =>
      simp only [scanTar, bind_ok, mapError_ok] at served
      obtain ⟨entry, isEntry, _⟩ := served
      contradiction
  | entry named whole later ih =>
      simp only [scanTar, bind_ok, mapError_ok] at served
      obtain ⟨entry, isEntry, path, isPath, served⟩ := served
      obtain rfl := Except.ok.inj isEntry
      obtain rfl := named path isPath
      split at served
      · rename_i matched
        rw [readEntry_whole whole served, List.find?_cons_of_pos (by simpa using matched), matched]
      · rename_i other
        rw [List.find?_cons_of_neg (by simpa using other)]
        exact ih served

theorem budgeted_isPrefix (width : PointerWidth) (remaining : Nat) (stream : InflatedStream) :
    (budgeted width remaining stream).bytes <+: stream.bytes := by
  unfold budgeted
  split_ifs
  · exact List.take_prefix _ _
  · exact List.take_prefix _ _
  · exact List.prefix_refl _
  · exact List.take_prefix _ _

/-- A file that is served out of a tar is the whole of the first member at its path. -/
theorem extractFile_tar_whole {width : PointerWidth} {gzip : GzDecoder} {tar : TarReader}
    {zipByName : Bytes → String → Except ReadError (Option ArchiveEntry)}
    {inflated : Bytes → InflatedStream} {holds : gzip.State → InflatedStream → Prop}
    {members : Bytes → List (String × Bytes)} (inflates : gzip.Inflates inflated holds)
    (lawful : tar.Lawful members) {maxInflated : Nat} {archive bytes : Bytes} {relPath : String}
    (served : extractFile (stackedArchives width gzip tar zipByName) maxInflated archive .tarGz
      relPath = .ok (some bytes)) :
    ((members (inflated archive).bytes).find? fun member =>
      member.1 = archiveRoot ++ "/" ++ relPath) = some (archiveRoot ++ "/" ++ relPath, bytes) := by
  simp only [extractFile, bind_ok, mapError_ok] at served
  obtain ⟨entries, seen, served⟩ := served
  have start : BudgetHolds width holds ⟨gzip.new archive, min (maxInflated + 1) (2 ^ 64 - 1)⟩
      (budgeted width (min (maxInflated + 1) (2 ^ 64 - 1)) (inflated archive)) :=
    ⟨inflated archive, inflates.start archive, rfl⟩
  exact scanTar_whole (lawful (reads_budget inflates.reads inflates.idles) start
    (budgeted_isPrefix _ _ _) seen) served

theorem extractFile_zip_whole {width : PointerWidth} {gzip : GzDecoder} {tar : TarReader}
    {zipByName : Bytes → String → Except ReadError (Option ArchiveEntry)}
    {content : Bytes → String → Option Bytes} (lawful : ZipLawful zipByName content)
    {maxInflated : Nat} {archive bytes : Bytes} {relPath : String}
    (served : extractFile (stackedArchives width gzip tar zipByName) maxInflated archive .zip
      relPath = .ok (some bytes)) :
    content archive (archiveRoot ++ "/" ++ relPath) = some bytes := by
  simp only [extractFile, bind_ok, mapError_ok] at served
  obtain ⟨found, isFound, served⟩ := served
  cases found with
  | none => simp [pure, Except.pure] at served
  | some entry =>
      obtain ⟨whole, isContent, readsWhole⟩ := lawful archive _ entry isFound
      rw [isContent, readEntry_whole readsWhole served]

/-- A budget keeps its promises over a stream exactly where it fits, and no file is clipped. -/
theorem inflation_budget (width : PointerWidth) (budget : Nat) (machine : budget < 2 ^ 64 - 1) :
    (∀ (State : Type) (readInner : ReadFn State) (holds : State → InflatedStream → Prop)
      (inner : State) (stream : InflatedStream), Reads readInner holds → Idles readInner holds →
        holds inner stream → (Exact width readInner inner budget stream ↔
          Fits width budget stream)) ∧
    ∀ (gzip : GzDecoder) (inflated : Bytes → InflatedStream)
      (holds : gzip.State → InflatedStream → Prop) (tar : TarReader)
      (members : Bytes → List (String × Bytes))
      (zipByName : Bytes → String → Except ReadError (Option ArchiveEntry))
      (content : Bytes → String → Option Bytes), gzip.Inflates inflated holds →
        tar.Lawful members → ZipLawful zipByName content →
      ∀ (archive : Bytes) (relPath : String) (bytes : Bytes),
        (extractFile (stackedArchives width gzip tar zipByName) budget archive .tarGz
            relPath = .ok (some bytes) →
          ((members (inflated archive).bytes).find? fun member =>
            member.1 = archiveRoot ++ "/" ++ relPath) =
              some (archiveRoot ++ "/" ++ relPath, bytes)) ∧
        (extractFile (stackedArchives width gzip tar zipByName) budget archive .zip
            relPath = .ok (some bytes) →
          content archive (archiveRoot ++ "/" ++ relPath) = some bytes) := by
  constructor
  · intro State readInner holds inner stream reads idles held
    rw [fits_iff machine]
    exact ⟨fits_of_exact reads idles held, exact_of_fits reads idles held⟩
  · intro gzip inflated holds tar members zipByName content inflates tarLawful zipLawful
      archive relPath bytes
    exact ⟨extractFile_tar_whole inflates tarLawful, extractFile_zip_whole zipLawful⟩

/-! ## A reader of bytes in memory -/

def readSlice : ReadFn Bytes := fun left size => .ok (left.take size, left.drop size)

def SliceHolds (left : Bytes) (stream : InflatedStream) : Prop := stream = ⟨left, none⟩

theorem reads_slice : Reads readSlice SliceHolds where
  piece := by
    rintro left stream size rfl room more
    refine ⟨left.take size, ⟨left.drop size, none⟩, left.drop size, rfl, ?_,
      List.length_take_le _ _, ?_, rfl⟩
    · rw [ne_eq, List.take_eq_nil_iff, not_or]
      exact ⟨Nat.ne_of_gt room, more⟩
    · rw [Source.push, List.take_append_drop]
  ended := by
    intro left size isEnd _
    obtain ⟨rfl, _⟩ := Source.mk.inj isEnd
    exact ⟨[], by rw [readSlice, List.take_nil, List.drop_nil], rfl⟩
  failed := by
    intro left size fault isFault _
    exact absurd (Source.mk.inj isFault).2 (Option.some_ne_none fault)

theorem idles_slice : Idles readSlice SliceHolds := by
  rintro left stream rfl
  exact ⟨left, rfl, rfl⟩

/-- On a 32-bit host the budget 2^32 - 1 gives nothing of a stream of one byte. -/
theorem wide_budget_cuts :
    Reads readSlice SliceHolds ∧ Idles readSlice SliceHolds ∧ SliceHolds [0] ⟨[0], none⟩ ∧
      ¬ Exact .bits32 readSlice [0] (2 ^ 32 - 1) ⟨[0], none⟩ := by
  refine ⟨reads_slice, idles_slice, rfl, ?_⟩
  intro promise
  have given : BudgetReader.read .bits32 readSlice (BudgetReader.new [0] (2 ^ 32 - 1)) 1 =
      .ok ([], ⟨[0], 2 ^ 32⟩) := rfl
  obtain ⟨bytes, _⟩ := promise.honest (.start _) Nat.one_pos given
  contradiction

/-! ## An archive of one file -/

def headerField (text : String) (size : Nat) : Bytes :=
  asBytes text ++ List.replicate (size - text.utf8ByteSize) 0

/-- The header of `pkg/a`, a file of one byte; its checksum is 5441 in octal. -/
def sampleHeader : Bytes :=
  headerField "pkg/a" 100 ++ headerField "0000644" 8 ++ headerField "0000000" 8 ++
    headerField "0000000" 8 ++ headerField "00000000001" 12 ++ headerField "00000000000" 12 ++
    headerField "005441" 7 ++ asBytes " 0" ++ List.replicate 355 0

def sampleTarFile : Bytes :=
  sampleHeader ++ asBytes "x" ++ List.replicate 511 0 ++ List.replicate 1024 0

/-- The tar file as one stored block. -/
def sampleGzFile : Bytes :=
  [31, 139, 8, 0, 0, 0, 0, 0, 0, 255, 1, 0, 8, 255, 247] ++ sampleTarFile ++
    [137, 21, 127, 219, 0, 8, 0, 0]

def sampleGzip : GzDecoder where
  State := Bytes
  new archive := if archive = sampleGzFile then sampleTarFile else []
  read := readSlice

def sampleTar : TarReader where
  entries read state :=
    match drain read (fun _ => 512) 4096 state with
    | (bytes, .ended) =>
      if bytes = sampleTarFile then
        .ok [.ok ⟨.ok "pkg/a", 1, fun limit => .ok ((asBytes "x").take limit)⟩]
      else .error ⟨"failed to read entire block", []⟩
    | (_, .failed fault) => .error fault
    | (_, .unfinished) => .error ⟨"failed to read entire block", []⟩

def sampleMembers (whole : Bytes) : List (String × Bytes) :=
  if sampleTarFile.isPrefixOf whole then [("pkg/a", asBytes "x")] else []

theorem sampleGzip_inflates :
    sampleGzip.Inflates (fun archive => ⟨sampleGzip.new archive, none⟩) SliceHolds where
  reads := reads_slice
  idles := idles_slice
  start := fun _ => rfl

theorem sampleTar_lawful : sampleTar.Lawful sampleMembers := by
  intro State read holds state stream whole entries reads held isPrefix seen
  obtain ⟨last, delivers⟩ :
      ∃ last, Delivers read state (drain read (fun _ => 512) 4096 state).1 last :=
    delivers_drain (fun _ => by decide) 4096 state
  obtain ⟨rest, split, _⟩ := reads.delivers held delivers
  unfold sampleTar at seen
  dsimp only at seen
  split at seen
  · rename_i bytes drained
    split_ifs at seen with isTar
    obtain rfl := Except.ok.inj seen
    rw [drained, isTar] at split
    have isFront : sampleTarFile <+: whole := by
      refine List.IsPrefix.trans ?_ isPrefix
      rw [split]
      exact List.prefix_append _ _
    rw [sampleMembers, if_pos (List.isPrefixOf_iff_prefix.mpr isFront)]
    refine .entry (fun path isPath => (Except.ok.inj isPath).symm) ?_ (.stopped [])
    exact fun limit bytes given => (Except.ok.inj given).symm
  · contradiction
  · contradiction

theorem sample_file_served :
    extractFile (stackedArchives .bits32 sampleGzip sampleTar fun _ _ => .ok none) 4096 sampleGzFile
      .tarGz "a" = .ok (some (asBytes "x")) := by
  decide +kernel

theorem inflation_budget_sample :
    Exact .bits32 readSlice [1, 2, 3] 4096 ⟨[1, 2, 3], none⟩ ∧
      ((sampleMembers (sampleGzip.new sampleGzFile)).find? fun member =>
        member.1 = archiveRoot ++ "/" ++ "a") = some (archiveRoot ++ "/" ++ "a", asBytes "x") := by
  obtain ⟨budgets, files⟩ := inflation_budget .bits32 4096 (by omega)
  constructor
  · exact (budgets Bytes readSlice SliceHolds [1, 2, 3] ⟨[1, 2, 3], none⟩ reads_slice
      idles_slice rfl).mpr (.inr (.inl (by omega)))
  · obtain ⟨fromTar, _⟩ := files sampleGzip (fun archive => ⟨sampleGzip.new archive, none⟩)
      SliceHolds sampleTar sampleMembers (fun _ _ => .ok none) (fun _ _ => none)
      sampleGzip_inflates sampleTar_lawful (fun _ _ _ => nofun) sampleGzFile "a" (asBytes "x")
    have found := fromTar sample_file_served
    dsimp only at found
    exact found

end ZedRegistry.InflationBudget
