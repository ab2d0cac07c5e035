import ZedRegistry.DescriptorAliases
import ZedRegistry.Lib.BoundedLoop

/-!
# The loops over the central directory

The two loops of `descriptor_presence` and `contains_zip64_extra` pass by pass, with the
saturating additions and the indices of the source.  No pass leaves the input, every run
ends, and a finished walk has passed over as many headers as the parser lists.
-/

set_option autoImplicit false

namespace ZedRegistry

open BoundedLoop

/-! ## Machine steps -/

/-- Why a pass gives up: the code refuses, or it panics at an index or an addition. -/
inductive Halt where
  | refused (message : String)
  | indexOutOfRange
  | overflow
  deriving DecidableEq

def orRefuse {α : Type} (value : Option α) (message : String) : Except Halt α :=
  okOrElse value (.refused message)

/-- `bytes[index]`. -/
def byteAt (bytes : Bytes) (index : Nat) : Except Halt Nat :=
  okOrElse (bytes[index]?.map UInt8.toNat) .indexOutOfRange

def u16Index (bytes : Bytes) (index : Nat) : Except Halt Nat := do
  let low ← byteAt bytes index
  let high ← byteAt bytes (index + 1)
  pure (low + 256 * high)

def u32Index (bytes : Bytes) (index : Nat) : Except Halt Nat := do
  let low ← u16Index bytes index
  let high ← u16Index bytes (index + 2)
  pure (low + 65536 * high)

/-- A slice of the language is never longer than `isize::MAX`. -/
def IsSlice (bytes : Bytes) : Prop := bytes.length < 2 ^ 63

theorem u16Index_ok {bytes : Bytes} {index : Nat} (inside : index + 1 < bytes.length) :
    u16Index bytes index = .ok (u16At bytes index inside) := by
  simp only [u16Index, byteAt, List.getElem?_eq_getElem (Nat.lt_of_succ_lt inside),
    List.getElem?_eq_getElem inside, Option.map_some, okOrElse, Option.elim_some, bind, Except.bind]
  rfl

theorem u32Index_ok {bytes : Bytes} {index : Nat} (inside : index + 3 < bytes.length) :
    u32Index bytes index = .ok (u32At bytes index inside) := by
  simp only [u32Index, u16Index_ok (show index + 1 < bytes.length by omega),
    u16Index_ok (show index + 2 + 1 < bytes.length by omega), bind, Except.bind]
  rfl

/-- Where the addition saturates, the range ends outside the slice in any case. -/
theorem slice_saturatingAdd {bytes : Bytes} (isSlice : IsSlice bytes) (start size : Nat) :
    slice bytes start (saturatingAdd start size) = slice bytes start (start + size) := by
  unfold IsSlice at isSlice
  unfold saturatingAdd
  by_cases small : start + size ≤ 2 ^ 64 - 1
  · rw [Nat.min_eq_left small]
  · rw [Nat.min_eq_right (Nat.le_of_not_le small), slice, slice, if_neg (by omega),
      if_neg (by omega)]

/-! ## The pass over one header -/

/-- `exact += 1`, or the refusal of another spelling. -/
def countExact (toLowercase : String → String) (raw : Bytes) (exact : Nat) : Except Halt Nat :=
  if raw = asBytes binaryDescriptorArchivePath then okOrElse (checkedAdd exact 1) .overflow
  else (countDescriptor toLowercase raw exact).mapError .refused

def centralHeaderPass (toLowercase : String → String) (archive : Bytes) (offset : Nat)
    (walk : CentralWalk) : Except Halt (Nat × CentralWalk) := do
  let header ← orRefuse (slice archive offset (saturatingAdd offset centralHeaderBytes))
    "truncated ZIP central-directory header"
  let nameLen ← u16Index header 28
  let extraLen ← u16Index header 30
  let commentLen ← u16Index header 32
  let flags ← u16Index header 8
  let violation := walk.encodingViolation.or
    (if flags &&& 0x0008 ≠ 0 then
      some "binary ZIP entries must not use general-purpose bit 3 data descriptors"
    else none)
  let compressedSize ← u32Index header 20
  let expandedSize ← u32Index header 24
  let diskStart ← u16Index header 34
  let localHeaderOffset ← u32Index header 42
  let violation := violation.or
    (if compressedSize = 2 ^ 32 - 1 ∨ expandedSize = 2 ^ 32 - 1 ∨ diskStart = 2 ^ 16 - 1 ∨
        localHeaderOffset = 2 ^ 32 - 1 then
      some "binary ZIP contains an unnecessary per-entry ZIP64 sentinel"
    else none)
  let nameStart ← orRefuse (checkedAdd offset centralHeaderBytes)
    "ZIP central-directory offset overflow"
  let nameEnd ← orRefuse (checkedAdd nameStart nameLen)
    "ZIP central-directory filename length overflow"
  let raw ← orRefuse (slice archive nameStart nameEnd) "truncated ZIP central-directory filename"
  let extraEnd ← orRefuse (checkedAdd nameEnd extraLen)
    "ZIP central-directory extra-field length overflow"
  let extra ← orRefuse (slice archive nameEnd extraEnd)
    "truncated ZIP central-directory extra field"
  let violation := violation.or
    (match containsZip64Extra extra 0 with
    | some true => some "binary ZIP contains an unnecessary per-entry ZIP64 extra field"
    | none => some "binary ZIP contains a malformed central-directory extra field"
    | some false => none)
  let exact ← countExact toLowercase raw walk.exact
  let entries ← orRefuse (checkedAdd walk.entries 1) "ZIP central-directory entry count overflow"
  let next ← orRefuse (checkedAdd extraEnd commentLen) "ZIP central-directory entry length overflow"
  if archive.length < next then throw (.refused "truncated ZIP central-directory entry")
  pure (next, ⟨exact, entries, violation⟩)

theorem encodingViolation_or {offset : Nat} (header : CentralHeader offset)
    (before : Option String) :
    (((before.or (if header.flags &&& 0x0008 ≠ 0 then
        some "binary ZIP entries must not use general-purpose bit 3 data descriptors"
      else none)).or (if header.compressedSize = 2 ^ 32 - 1 ∨ header.expandedSize = 2 ^ 32 - 1 ∨
          header.diskStart = 2 ^ 16 - 1 ∨ header.localHeaderOffset = 2 ^ 32 - 1 then
        some "binary ZIP contains an unnecessary per-entry ZIP64 sentinel"
      else none)).or
      (match containsZip64Extra header.extra 0 with
      | some true => some "binary ZIP contains an unnecessary per-entry ZIP64 extra field"
      | none => some "binary ZIP contains a malformed central-directory extra field"
      | some false => none)) = before.or header.encodingViolation := by
  cases before with
  | some message => rfl
  | none =>
      unfold CentralHeader.encodingViolation
      simp only [Option.none_or]
      split
      · rfl
      · split
        · rfl
        · rfl

theorem countExact_eq {toLowercase : String → String} {raw : Bytes} {exact : Nat}
    (small : exact + 1 < 2 ^ 64) : countExact toLowercase raw exact =
      (countDescriptor toLowercase raw exact).mapError .refused := by
  unfold countExact countDescriptor
  by_cases reserved : raw = asBytes binaryDescriptorArchivePath
  · rw [if_pos reserved, if_pos reserved, checkedAdd, if_pos small]
    rfl
  · rw [if_neg reserved, if_neg reserved]

/-- The pass that the walk of the model takes. -/
def modelPass (toLowercase : String → String) (archive : Bytes) (offset : Nat)
    (walk : CentralWalk) : Except String (Nat × CentralWalk) := do
  let header ← readCentralHeader archive offset
  let visited ← visitHeader toLowercase header walk
  let next ← (nextHeader archive header).map Subtype.val
  pure (next, visited)

theorem nextHeader_val {archive : Bytes} {offset : Nat} (header : CentralHeader offset) :
    (nextHeader archive header).map Subtype.val =
      (match checkedAdd header.extraEnd header.commentLen with
      | none => .error "ZIP central-directory entry length overflow"
      | some next =>
        if archive.length < next then .error "truncated ZIP central-directory entry"
        else .ok next) := by
  generalize result : nextHeader archive header = found
  unfold nextHeader at result
  split at result
  · rename_i ends
    rw [← result, ends]
    rfl
  rename_i next ends
  split at result
  · rename_i outside
    rw [← result, ends]
    exact (if_pos outside).symm
  · rename_i inside
    have after : found.map Subtype.val = .ok next := result ▸ rfl
    rw [after, ends]
    exact (if_neg inside).symm

theorem centralHeaderPass_eq {toLowercase : String → String} {archive : Bytes} {offset : Nat}
    {walk : CentralWalk} (isSlice : IsSlice archive) (small : walk.exact + 1 < 2 ^ 64) :
    centralHeaderPass toLowercase archive offset walk =
      (modelPass toLowercase archive offset walk).mapError .refused := by
  unfold centralHeaderPass modelPass
  rw [slice_saturatingAdd isSlice]
  cases taken : slice archive offset (offset + centralHeaderBytes) with
  | none =>
      have refused : readCentralHeader archive offset =
          .error "truncated ZIP central-directory header" := by
        unfold readCentralHeader
        split
        · rfl
        · rename_i found
          rw [taken] at found
          cases found
      rw [refused]
      rfl
  | some header =>
      have long : header.length = 46 := by
        have length := (slice_some taken).2.2
        unfold centralHeaderBytes at length
        omega
      simp only [orRefuse, okOrElse, Option.elim_some, bind, Except.bind,
        u16Index_ok (show 28 + 1 < header.length by omega),
        u16Index_ok (show 30 + 1 < header.length by omega),
        u16Index_ok (show 32 + 1 < header.length by omega),
        u16Index_ok (show 8 + 1 < header.length by omega),
        u16Index_ok (show 34 + 1 < header.length by omega),
        u32Index_ok (show 20 + 3 < header.length by omega),
        u32Index_ok (show 24 + 3 < header.length by omega),
        u32Index_ok (show 42 + 3 < header.length by omega)]
      rcases readCentralHeader_taken taken long with
        ⟨nameAt, read⟩ | ⟨nameStart, nameAt, ⟨nameStops, read⟩ | ⟨nameEnd, nameStops,
          ⟨unnamed, read⟩ | ⟨raw, named, ⟨extraStops, read⟩ | ⟨extraEnd, extraStops,
            ⟨missing, read⟩ | ⟨extra, present, beyond, read⟩⟩⟩⟩⟩
      · simp only [nameAt, read, Option.elim_none, Except.mapError]
      · simp only [nameAt, nameStops, read, Option.elim_none, Option.elim_some, Except.mapError]
      · simp only [nameAt, nameStops, unnamed, read, Option.elim_none, Option.elim_some,
          Except.mapError]
      · simp only [nameAt, nameStops, named, extraStops, read, Option.elim_none,
          Option.elim_some, Except.mapError]
      · simp only [nameAt, nameStops, named, extraStops, missing, read, Option.elim_none,
          Option.elim_some, Except.mapError]
      · simp only [nameAt, nameStops, named, extraStops, present, read, Option.elim_some]
        have violation := encodingViolation_or (⟨u16At header 8 (by omega),
          u32At header 20 (by omega), u32At header 24 (by omega), u16At header 32 (by omega),
          u16At header 34 (by omega), u32At header 42 (by omega), raw, extra, extraEnd, beyond⟩ :
            CentralHeader offset) walk.encodingViolation
        dsimp only at violation
        simp only [violation, nextHeader_val, countExact_eq small, visitHeader]
        cases countDescriptor toLowercase raw walk.exact with
        | error message => rfl
        | ok exact =>
            cases checkedAdd walk.entries 1 with
            | none => rfl
            | some entries =>
                cases checkedAdd extraEnd (u16At header 32 (by omega)) with
                | none => rfl
                | some next =>
                    by_cases outside : archive.length < next
                    · simp only [Except.mapError, Option.elim_some, okOrElse, bind, Except.bind,
                        if_pos outside]
                      rfl
                    · simp only [Except.mapError, Option.elim_some, okOrElse, bind, Except.bind,
                        if_neg outside]
                      rfl

/-! ## The walk -/

def centralPass (toLowercase : String → String) (archive : Bytes) (state : Nat × CentralWalk) :
    Pass (Nat × CentralWalk) (Except Halt CentralWalk) :=
  if slice archive state.1 (saturatingAdd state.1 4) = some centralSignature then
    match centralHeaderPass toLowercase archive state.1 state.2 with
    | .ok next => .again next
    | .error halt => .stop (.error halt)
  else .stop (.ok state.2)

/-- What the loop keeps: every header that was counted has its place before the offset. -/
structure WalkValid (state : Nat × CentralWalk) : Prop where
  exact_le : state.2.exact ≤ state.2.entries
  entries_le : centralHeaderBytes * state.2.entries ≤ state.1
  isUsize : state.1 < 2 ^ 64

theorem WalkValid.small {state : Nat × CentralWalk} (valid : WalkValid state) :
    state.2.exact + 1 < 2 ^ 64 := by
  have below := valid.exact_le
  have counted := valid.entries_le
  have offset := valid.isUsize
  unfold centralHeaderBytes at counted
  omega

theorem walkValid_start {start : Nat} (isUsize : start < 2 ^ 64) :
    WalkValid (start, ⟨0, 0, none⟩) where
  exact_le := Nat.le_refl _
  entries_le := Nat.zero_le _
  isUsize := isUsize

section Walk

variable {toLowercase : String → String} {archive : Bytes}

theorem modelPass_ok {offset : Nat} {walk : CentralWalk} {next : Nat × CentralWalk}
    (passed : modelPass toLowercase archive offset walk = .ok next) :
    ∃ header, readCentralHeader archive offset = .ok header ∧
      visitHeader toLowercase header walk = .ok next.2 ∧
      ∃ after, nextHeader archive header = .ok after ∧ after.val = next.1 := by
  simp only [modelPass, bind_ok] at passed
  obtain ⟨header, read, visited, visits, found, moved, built⟩ := passed
  cases Except.ok.inj built
  refine ⟨header, read, visits, ?_⟩
  cases steps : nextHeader archive header with
  | error message =>
      rw [steps] at moved
      cases moved
  | ok after =>
      rw [steps] at moved
      exact ⟨after, rfl, Except.ok.inj moved⟩

theorem centralPass_done {state : Nat × CentralWalk} {walk : CentralWalk}
    (stopped : centralPass toLowercase archive state = .stop (.ok walk)) : state.2 = walk := by
  unfold centralPass at stopped
  split at stopped
  · split at stopped
    · cases stopped
    · cases stopped
  · exact Except.ok.inj (Pass.stop.inj stopped)

section Passes

variable (isSlice : IsSlice archive)
include isSlice

/-- A pass goes on exactly where the walk of the model does. -/
theorem centralPass_again {state next : Nat × CentralWalk} (valid : WalkValid state) :
    centralPass toLowercase archive state = .again next ↔
      slice archive state.1 (state.1 + 4) = some centralSignature ∧
        modelPass toLowercase archive state.1 state.2 = .ok next := by
  unfold centralPass
  rw [slice_saturatingAdd isSlice, centralHeaderPass_eq isSlice valid.small]
  by_cases signed : slice archive state.1 (state.1 + 4) = some centralSignature
  · rw [if_pos signed]
    cases modelPass toLowercase archive state.1 state.2 with
    | error message => simp [Except.mapError]
    | ok other => simp [Except.mapError, signed]
  · simp [signed]

theorem centralPass_advances : Advances (centralPass toLowercase archive) WalkValid Prod.fst
    centralHeaderBytes archive.length := by
  have moves {state next : Nat × CentralWalk} (valid : WalkValid state)
      (stepped : centralPass toLowercase archive state = .again next) :
      WalkValid next ∧ state.1 + centralHeaderBytes ≤ next.1 ∧ next.1 ≤ archive.length := by
    obtain ⟨_, passed⟩ := (centralPass_again isSlice valid).mp stepped
    obtain ⟨header, _, visits, after, _, same⟩ := modelPass_ok passed
    obtain ⟨entries, seen⟩ := visitHeader_ok visits
    have bounds := after.property
    rw [same] at bounds
    refine ⟨⟨?_, ?_, ?_⟩, bounds⟩
    · have below := valid.exact_le
      rcases seen with ⟨_, grown⟩ | ⟨_, kept⟩ <;> omega
    · have counted := valid.entries_le
      unfold centralHeaderBytes at counted bounds ⊢
      omega
    · unfold IsSlice at isSlice
      omega
  exact {
    keeps := fun valid stepped => (moves valid stepped).1
    grows := fun valid stepped => (moves valid stepped).2.1
    stays := fun valid stepped => (moves valid stepped).2.2 }

/-- The only halts are refusals: no index is out of range and no sum overflows. -/
theorem centralPass_stop {state : Nat × CentralWalk} (valid : WalkValid state)
    {result : Except Halt CentralWalk}
    (stopped : centralPass toLowercase archive state = .stop result) :
    (walkCentral toLowercase archive state.1 state.2).mapError .refused = result := by
  unfold centralPass at stopped
  rw [slice_saturatingAdd isSlice, centralHeaderPass_eq isSlice valid.small] at stopped
  rw [walkCentral]
  by_cases signed : slice archive state.1 (state.1 + 4) = some centralSignature
  · rw [if_pos signed] at stopped ⊢
    unfold modelPass at stopped
    cases read : readCentralHeader archive state.1 with
    | error message =>
        rw [read] at stopped
        exact Pass.stop.inj stopped
    | ok header =>
        simp only [read, bind, Except.bind] at stopped ⊢
        cases visits : visitHeader toLowercase header state.2 with
        | error message =>
            rw [visits] at stopped
            exact Pass.stop.inj stopped
        | ok visited =>
            simp only [visits] at stopped ⊢
            cases steps : nextHeader archive header with
            | error message =>
                rw [steps] at stopped
                exact Pass.stop.inj stopped
            | ok after =>
                rw [steps] at stopped
                cases stopped
  · rw [if_neg signed] at stopped ⊢
    exact Pass.stop.inj stopped

theorem walkCentral_again {state next : Nat × CentralWalk} (valid : WalkValid state)
    (stepped : centralPass toLowercase archive state = .again next) :
    walkCentral toLowercase archive state.1 state.2 =
      walkCentral toLowercase archive next.1 next.2 := by
  obtain ⟨signed, passed⟩ := (centralPass_again isSlice valid).mp stepped
  obtain ⟨header, read, visits, after, steps, same⟩ := modelPass_ok passed
  rw [walkCentral, if_pos signed, read]
  simp only [visits, steps, same]

/-- The loop returns what the walk of the model does. -/
theorem centralPass_ends {start : Nat} (isUsize : start < 2 ^ 64) :
    ∃ count, Ends (centralPass toLowercase archive) count (start, ⟨0, 0, none⟩)
      ((walkCentral toLowercase archive start ⟨0, 0, none⟩).mapError .refused) := by
  have advances := @centralPass_advances toLowercase archive isSlice
  have valid := walkValid_start isUsize
  obtain ⟨count, result, ends⟩ := advances.ends (by decide) valid
  have same : (walkCentral toLowercase archive start ⟨0, 0, none⟩).mapError .refused = result := by
    apply @Ends.value _ _ _ _ advances.keeps (fun state =>
      (walkCentral toLowercase archive state.1 state.2).mapError .refused) _ _ _ _ _ valid ends
    · intro state next valid stepped
      rw [walkCentral_again isSlice valid stepped]
    · intro state result valid stopped
      exact centralPass_stop isSlice valid stopped
  exact ⟨count, same ▸ ends⟩

end Passes

end Walk

/-! ## The records of an extra field -/

/-- One pass of the loop in `contains_zip64_extra`. -/
def extraPass (extra : Bytes) (offset : Nat) : Pass Nat (Except Halt (Option Bool)) :=
  if offset < extra.length then
    match (checkedAdd offset 4).bind (slice extra offset) with
    | none => .stop (.ok none)
    | some header =>
      match u16Index header 0, u16Index header 2 with
      | .ok kind, .ok len =>
        match (checkedAdd offset 4).bind fun start => checkedAdd start len with
        | none => .stop (.ok none)
        | some dataEnd =>
          if extra.length < dataEnd then .stop (.ok none)
          else if kind = 0x0001 then .stop (.ok (some true))
          else .again dataEnd
      | .error halt, _ | _, .error halt => .stop (.error halt)
  else .stop (.ok (some false))

/-- The complete records at the front of an extra field, each an identifier and its data,
and whether they are all of it. -/
def extraRecords : Bytes → List (Nat × Bytes) × Bool
  | [] => ([], true)
  | first :: second :: third :: fourth :: rest =>
    if third.toNat + 256 * fourth.toNat ≤ rest.length then
      ((first.toNat + 256 * second.toNat, rest.take (third.toNat + 256 * fourth.toNat)) ::
        (extraRecords (rest.drop (third.toNat + 256 * fourth.toNat))).1,
        (extraRecords (rest.drop (third.toNat + 256 * fourth.toNat))).2)
    else ([], false)
  | _ => ([], false)
termination_by extra => extra.length
decreasing_by
  all_goals
    simp only [List.length_drop, List.length_cons]
    omega

/-- The reading of an extra field record by record. -/
def readsZip64 (extra : Bytes) : Option Bool :=
  if (extraRecords extra).1.any fun record => record.1 = 0x0001 then some true
  else if (extraRecords extra).2 then some false
  else none

/-- What stands at an offset: nothing, less than a header, or a header and the rest. -/
inductive ExtraAt (extra : Bytes) (offset : Nat) : Prop where
  | done (atEnd : extra.length ≤ offset)
  | short (inside : offset < extra.length) (cut : extra.length < offset + 4)
  | header (first second third fourth : UInt8)
      (taken : slice extra offset (offset + 4) = some [first, second, third, fourth])
      (whole : extra.drop offset = first :: second :: third :: fourth :: extra.drop (offset + 4))

theorem extraAt (extra : Bytes) (offset : Nat) : ExtraAt extra offset := by
  by_cases atEnd : extra.length ≤ offset
  · exact .done atEnd
  by_cases cut : extra.length < offset + 4
  · exact .short (Nat.lt_of_not_le atEnd) cut
  have long : 4 ≤ (extra.drop offset).length := by
    rw [List.length_drop]
    omega
  have later : extra.drop (offset + 4) = (extra.drop offset).drop 4 := by
    rw [List.drop_drop]
  have taken : slice extra offset (offset + 4) = some ((extra.drop offset).take 4) := by
    rw [slice, if_pos (by omega), Nat.add_sub_cancel_left]
  rcases whole : extra.drop offset with _ | ⟨first, _ | ⟨second, _ | ⟨third, _ | ⟨fourth, rest⟩⟩⟩⟩
  · simp [whole] at long
  · simp [whole] at long
  · simp [whole] at long
  · simp [whole] at long
  · rw [whole] at taken later
    exact .header first second third fourth taken (by rw [whole, later]; rfl)

/-- The value at an offset, against what the pass there comes to. -/
def Agrees (value : Nat → Option Bool) (here : Option Bool) :
    Pass Nat (Except Halt (Option Bool)) → Prop
  | .again next => here = value next
  | .stop result => result = .ok here

section Extra

variable {extra : Bytes} (isSlice : IsSlice extra)
include isSlice

theorem extraPass_header {offset : Nat} {first second third fourth : UInt8}
    (taken : slice extra offset (offset + 4) = some [first, second, third, fourth]) :
    extraPass extra offset =
      if extra.length < offset + 4 + (third.toNat + 256 * fourth.toNat) then .stop (.ok none)
      else if first.toNat + 256 * second.toNat = 0x0001 then .stop (.ok (some true))
      else .again (offset + 4 + (third.toNat + 256 * fourth.toNat)) := by
  have inside := (slice_some taken).2.1
  have small : offset + 4 < 2 ^ 64 := by
    unfold IsSlice at isSlice
    omega
  have low := third.toNat_lt
  have high := fourth.toNat_lt
  have total : offset + 4 + (third.toNat + 256 * fourth.toNat) < 2 ^ 64 := by
    unfold IsSlice at isSlice
    omega
  have start : checkedAdd offset 4 = some (offset + 4) := if_pos small
  have dataEnd : checkedAdd (offset + 4) (third.toNat + 256 * fourth.toNat) =
      some (offset + 4 + (third.toNat + 256 * fourth.toNat)) := if_pos total
  have kind : u16Index [first, second, third, fourth] 0 =
      .ok (first.toNat + 256 * second.toNat) := rfl
  have len : u16Index [first, second, third, fourth] 2 =
      .ok (third.toNat + 256 * fourth.toNat) := rfl
  rw [extraPass, if_pos (by omega)]
  simp only [start, Option.bind_some, taken, kind, len, dataEnd]

theorem extraPass_short {offset : Nat} (inside : offset < extra.length)
    (cut : extra.length < offset + 4) : extraPass extra offset = .stop (.ok none) := by
  have outside : slice extra offset (offset + 4) = none := if_neg (by omega)
  have start : checkedAdd offset 4 = some (offset + 4) := by
    unfold IsSlice at isSlice
    exact if_pos (by omega)
  rw [extraPass, if_pos inside]
  simp only [start, Option.bind_some, outside]

theorem readsZip64_agrees (offset : Nat) : Agrees (fun next => readsZip64 (extra.drop next))
    (readsZip64 (extra.drop offset)) (extraPass extra offset) := by
  cases extraAt extra offset with
  | done atEnd =>
      rw [extraPass, if_neg (Nat.not_lt.mpr atEnd), List.drop_eq_nil_of_le atEnd, readsZip64,
        extraRecords]
      rfl
  | short inside cut =>
      have records : extraRecords (extra.drop offset) = ([], false) := by
        have few : (extra.drop offset).length < 4 := by
          rw [List.length_drop]
          omega
        have some : 0 < (extra.drop offset).length := by
          rw [List.length_drop]
          omega
        generalize extra.drop offset = left at few some
        unfold extraRecords
        split
        · cases some
        · simp only [List.length_cons] at few
          omega
        · rfl
      rw [extraPass_short isSlice inside cut, readsZip64, records]
      rfl
  | header first second third fourth taken whole =>
      have room : third.toNat + 256 * fourth.toNat ≤ (extra.drop (offset + 4)).length ↔
          ¬extra.length < offset + 4 + (third.toNat + 256 * fourth.toNat) := by
        have inside := (slice_some taken).2.1
        rw [List.length_drop]
        omega
      rw [extraPass_header isSlice taken, readsZip64, whole, extraRecords, List.drop_drop]
      by_cases cut : extra.length < offset + 4 + (third.toNat + 256 * fourth.toNat)
      · rw [if_pos cut, if_neg (fun fits => room.mp fits cut)]
        rfl
      · rw [if_neg cut, if_pos (room.mpr cut), List.any_cons]
        by_cases zip64 : first.toNat + 256 * second.toNat = 0x0001
        · rw [if_pos zip64]
          simp [Agrees, zip64]
        · rw [if_neg zip64, decide_eq_false zip64, Bool.false_or]
          rfl

theorem containsZip64Extra_agrees (offset : Nat) : Agrees (containsZip64Extra extra)
    (containsZip64Extra extra offset) (extraPass extra offset) := by
  cases extraAt extra offset with
  | done atEnd =>
      rw [extraPass, if_neg (Nat.not_lt.mpr atEnd), containsZip64Extra,
        if_neg (Nat.not_lt.mpr atEnd)]
      rfl
  | short inside cut =>
      have outside : slice extra offset (offset + 4) = none := if_neg (by omega)
      rw [extraPass_short isSlice inside cut, containsZip64Extra, if_pos inside]
      split
      · rfl
      · rename_i taken
        rw [outside] at taken
        cases taken
  | header first second third fourth taken whole =>
      have inside := (slice_some taken).2.1
      rw [extraPass_header isSlice taken]
      generalize result : containsZip64Extra extra offset = here
      rw [containsZip64Extra, if_pos (by omega)] at result
      split at result
      · rename_i missing
        rw [taken] at missing
        cases missing
      rename_i header same
      obtain rfl := Option.some.inj (taken.symm.trans same)
      have len : u16At [first, second, third, fourth] 2 (show 3 < 4 by decide) =
          third.toNat + 256 * fourth.toNat := rfl
      have low := third.toNat_lt
      have high := fourth.toNat_lt
      have ended : ((checkedAdd offset 4).bind fun start => checkedAdd start
          (third.toNat + 256 * fourth.toNat)) =
            some (offset + 4 + (third.toNat + 256 * fourth.toNat)) := by
        unfold IsSlice at isSlice
        rw [checkedAdd, if_pos (by omega)]
        exact if_pos (by omega)
      dsimp only at result
      split at result
      · rename_i overflows
        rw [len, ended] at overflows
        cases overflows
      rename_i dataEnd ends
      rw [len, ended] at ends
      obtain rfl := Option.some.inj ends
      rw [← result]
      by_cases cut : extra.length < offset + 4 + (third.toNat + 256 * fourth.toNat)
      · rw [if_pos cut, if_pos cut]
        rfl
      rw [if_neg cut, if_neg cut]
      by_cases zip64 : first.toNat + 256 * second.toNat = 0x0001
      · rw [if_pos zip64]
        exact congrArg Except.ok (if_pos zip64).symm
      · rw [if_neg zip64]
        exact if_neg zip64

theorem extraPass_advances :
    Advances (extraPass extra) (fun _ => True) id 4 extra.length := by
  have moves {offset next : Nat} (stepped : extraPass extra offset = .again next) :
      offset + 4 ≤ next ∧ next ≤ extra.length := by
    cases extraAt extra offset with
    | done atEnd =>
        rw [extraPass, if_neg (Nat.not_lt.mpr atEnd)] at stepped
        cases stepped
    | short inside cut =>
        rw [extraPass_short isSlice inside cut] at stepped
        cases stepped
    | header first second third fourth taken whole =>
        rw [extraPass_header isSlice taken] at stepped
        split at stepped
        · cases stepped
        split at stepped
        · cases stepped
        · cases stepped
          omega
  exact {
    keeps := fun _ _ => trivial
    grows := fun _ stepped => (moves stepped).1
    stays := fun _ stepped => (moves stepped).2 }

/-- A value that agrees with every pass is what the loop returns. -/
theorem extraPass_ends {value : Nat → Option Bool}
    (agrees : ∀ offset, Agrees value (value offset) (extraPass extra offset)) :
    ∃ count, Ends (extraPass extra) count 0 (.ok (value 0)) ∧ count * 4 ≤ extra.length := by
  have advances := extraPass_advances isSlice
  obtain ⟨count, result, ends⟩ := advances.ends (by decide) (trivial : (fun _ => True) 0)
  have same : Except.ok (value 0) = result := by
    apply @Ends.value _ _ _ _ advances.keeps (fun offset => Except.ok (value offset)) _ _ _ _ _
      trivial ends
    · intro offset next _ stepped
      have here := agrees offset
      rw [stepped] at here
      exact congrArg Except.ok here
    · intro offset result _ stopped
      have here := agrees offset
      rw [stopped] at here
      exact here.symm
  obtain ⟨last, passes, stopped⟩ := ends
  exact ⟨count, ⟨last, passes, same ▸ stopped⟩, advances.count_le passes trivial⟩

theorem containsZip64Extra_eq : containsZip64Extra extra 0 = readsZip64 extra := by
  obtain ⟨_, modelled, _⟩ := extraPass_ends isSlice (containsZip64Extra_agrees isSlice)
  obtain ⟨_, read, _⟩ := extraPass_ends isSlice (readsZip64_agrees isSlice)
  exact Except.ok.inj (modelled.unique read).2

end Extra

/-! ## What both loops promise -/

/-- The walk from an offset: it ends as the model's walk does, every pass moves on by a
header and stays inside the input, and what stops it is no panic. -/
structure WalkBounded (toLowercase : String → String) (archive : Bytes) (start : Nat) : Prop where
  ends : ∃ count, Ends (centralPass toLowercase archive) count (start, ⟨0, 0, none⟩)
      ((walkCentral toLowercase archive start ⟨0, 0, none⟩).mapError .refused) ∧
    count * centralHeaderBytes ≤ archive.length
  grows : ∀ {count state next}, Passes (centralPass toLowercase archive) count
      (start, ⟨0, 0, none⟩) state → centralPass toLowercase archive state = .again next →
    state.1 + centralHeaderBytes ≤ next.1 ∧ next.1 ≤ archive.length
  panicFree : ∀ {count state halt}, Passes (centralPass toLowercase archive) count
      (start, ⟨0, 0, none⟩) state → centralPass toLowercase archive state = .stop (.error halt) →
    ∃ message, halt = .refused message

theorem walkBounded (toLowercase : String → String) {archive : Bytes} (isSlice : IsSlice archive)
    {start : Nat} (isUsize : start < 2 ^ 64) : WalkBounded toLowercase archive start where
  ends := by
    obtain ⟨count, ends⟩ := @centralPass_ends toLowercase archive isSlice start isUsize
    obtain ⟨last, passes, stopped⟩ := ends
    exact ⟨count, ⟨last, passes, stopped⟩,
      (centralPass_advances isSlice).count_le passes (walkValid_start isUsize)⟩
  grows passes stepped := by
    have advances := @centralPass_advances toLowercase archive isSlice
    have valid := passes.keeps advances.keeps (walkValid_start isUsize)
    exact ⟨advances.grows valid stepped, advances.stays valid stepped⟩
  panicFree passes stopped := by
    have valid := passes.keeps (centralPass_advances isSlice).keeps (walkValid_start isUsize)
    have same := centralPass_stop isSlice valid stopped
    cases walked : walkCentral toLowercase archive _ _ with
    | error message =>
        rw [walked] at same
        cases same
        exact ⟨message, rfl⟩
    | ok final =>
        rw [walked] at same
        cases same

/-- The passes of a walk from nothing are counted by its entries. -/
theorem entries_counted {toLowercase : String → String} {archive : Bytes}
    (isSlice : IsSlice archive) {count start : Nat} (isUsize : start < 2 ^ 64)
    {last : Nat × CentralWalk} (passes : Passes (centralPass toLowercase archive) count
      (start, ⟨0, 0, none⟩) last) : last.2.entries = count := by
  have counted := @Passes.counted _ _ _ _ (centralPass_advances isSlice).keeps
    (fun state => state.2.entries) (fun valid stepped => by
      obtain ⟨_, passed⟩ := (centralPass_again isSlice valid).mp stepped
      obtain ⟨header, _, visits, _⟩ := modelPass_ok passed
      exact (visitHeader_ok visits).1) _ _ _ passes (walkValid_start isUsize)
  simpa using counted

/-- For every archive and every extra field: the walk is bounded, an accepted archive has
as many headers as its parser lists, and the extra field is read record by record. -/
theorem central_walk_agrees {Extra : Type} (B : BinaryInterfaces Extra) :
    (∀ archive, IsSlice archive → ∀ start < 2 ^ 64, WalkBounded B.toLowercase archive start) ∧
    (∀ archive, IsSlice archive → ∀ opened, B.openZip archive = .ok opened →
      ∀ presence, descriptorPresence B archive = .ok presence →
        ∃ walk, Ends (centralPass B.toLowercase archive) opened.entries.length
          (opened.centralDirectoryStart, ⟨0, 0, none⟩) (.ok walk)) ∧
    ∀ extra, IsSlice extra → containsZip64Extra extra 0 = readsZip64 extra ∧
      ∃ count, Ends (extraPass extra) count 0 (.ok (readsZip64 extra)) ∧
        count * 4 ≤ extra.length := by
  refine ⟨fun archive isSlice start isUsize => walkBounded B.toLowercase isSlice isUsize, ?_, ?_⟩
  · intro archive isSlice opened opens presence accepted
    simp only [descriptorPresence, bind_ok, mapError_ok, ensure_ok] at accepted
    obtain ⟨_, found, _, isUsize, walk, walked, _, counted, _⟩ := accepted
    obtain rfl := Except.ok.inj (found.symm.trans opens)
    obtain ⟨count, last, passes, stopped⟩ :=
      @centralPass_ends B.toLowercase archive isSlice _ isUsize
    rw [walked] at stopped
    have same := centralPass_done stopped
    have entries := entries_counted isSlice isUsize passes
    rw [same, counted] at entries
    exact ⟨walk, last, entries ▸ passes, stopped⟩
  · intro extra isSlice
    exact ⟨containsZip64Extra_eq isSlice, extraPass_ends isSlice (readsZip64_agrees isSlice)⟩

open BinaryArtifact in
/-- An archive of one file, and an extra field that is one ZIP64 record. -/
theorem central_walk_agrees_sample :
    WalkBounded asciiLowercase (storedZip sourceFiles)
        (sourceListing sourceFiles).centralDirectoryStart ∧
      (∃ walk, Ends (centralPass asciiLowercase (storedZip sourceFiles)) 1
        ((sourceListing sourceFiles).centralDirectoryStart, ⟨0, 0, none⟩) (.ok walk)) ∧
      containsZip64Extra [0x01, 0x00, 0x01, 0x00, 0xff] 0 = some true := by
  obtain ⟨bounded, counted, extra⟩ := central_walk_agrees (sourceInterfaces sourceFiles)
  have isSlice : IsSlice (storedZip sourceFiles) := by
    unfold IsSlice
    decide +kernel
  refine ⟨bounded _ isSlice _ (by decide +kernel), ?_, ?_⟩
  · exact counted _ isSlice _ (sourceInterfaces_opens sourceFiles) .absent (by decide +kernel)
  · exact (extra [0x01, 0x00, 0x01, 0x00, 0xff] (by unfold IsSlice; decide)).1.trans
      (by decide +kernel)

end ZedRegistry
