import Mathlib.Data.List.DropRight
import ZedRegistry.BinaryContract
import ZedRegistry.Lib.PathResolution

/-!
# The central directory of a ZIP

`descriptor_presence` of `binary_artifact.rs`: the walk over the raw central
directory that decides whether a ZIP opts into the binary profile, and the
normalization by which it finds other spellings of the reserved path.
-/

set_option autoImplicit false

namespace ZedRegistry

open PathResolution

/-- `bytes.get(start..stop)`. -/
def slice (bytes : Bytes) (start stop : Nat) : Option Bytes :=
  if start ≤ stop ∧ stop ≤ bytes.length then some ((bytes.drop start).take (stop - start)) else none

theorem slice_some {bytes part : Bytes} {start stop : Nat}
    (taken : slice bytes start stop = some part) :
    start ≤ stop ∧ stop ≤ bytes.length ∧ part.length = stop - start := by
  unfold slice at taken
  split at taken
  · rename_i inside
    refine ⟨inside.1, inside.2, ?_⟩
    rw [← Option.some.inj taken, List.length_take, List.length_drop]
    omega
  · contradiction

/-- `u16::from_le_bytes` at an index. -/
def u16At (bytes : Bytes) (index : Nat) (inside : index + 1 < bytes.length) : Nat :=
  bytes[index].toNat + 256 * bytes[index + 1].toNat

/-- `u32::from_le_bytes` at an index. -/
def u32At (bytes : Bytes) (index : Nat) (inside : index + 3 < bytes.length) : Nat :=
  u16At bytes index (by omega) + 65536 * u16At bytes (index + 2) (by omega)

/-! ## One header -/

def centralSignature : Bytes := [0x50, 0x4b, 0x01, 0x02]

def centralHeaderBytes : Nat := 46

/-- What the walk reads of the header at `offset`; `extraEnd` is where its comment begins. -/
structure CentralHeader (offset : Nat) where
  flags : Nat
  compressedSize : Nat
  expandedSize : Nat
  commentLen : Nat
  diskStart : Nat
  localHeaderOffset : Nat
  raw : Bytes
  extra : Bytes
  extraEnd : Nat
  beyond : offset + centralHeaderBytes ≤ extraEnd

/-- A byte string is shorter than `2 ^ 63`, so where `saturating_add` saturates the
range ends outside it in any case. -/
def readCentralHeader (archive : Bytes) (offset : Nat) : Except String (CentralHeader offset) :=
  match taken : slice archive offset (offset + centralHeaderBytes) with
  | none => .error "truncated ZIP central-directory header"
  | some header =>
    have long : header.length = 46 := by
      have length := (slice_some taken).2.2
      unfold centralHeaderBytes at length
      omega
    match nameAt : checkedAdd offset centralHeaderBytes with
    | none => .error "ZIP central-directory offset overflow"
    | some nameStart =>
      match nameStops : checkedAdd nameStart (u16At header 28 (by omega)) with
      | none => .error "ZIP central-directory filename length overflow"
      | some nameEnd =>
        match slice archive nameStart nameEnd with
        | none => .error "truncated ZIP central-directory filename"
        | some raw =>
          match extraStops : checkedAdd nameEnd (u16At header 30 (by omega)) with
          | none => .error "ZIP central-directory extra-field length overflow"
          | some extraEnd =>
            match slice archive nameEnd extraEnd with
            | none => .error "truncated ZIP central-directory extra field"
            | some extra => .ok {
                flags := u16At header 8 (by omega)
                compressedSize := u32At header 20 (by omega)
                expandedSize := u32At header 24 (by omega)
                commentLen := u16At header 32 (by omega)
                diskStart := u16At header 34 (by omega)
                localHeaderOffset := u32At header 42 (by omega)
                raw := raw
                extra := extra
                extraEnd := extraEnd
                beyond := by
                  have started := checkedAdd_some nameAt
                  have named := checkedAdd_some nameStops
                  have ended := checkedAdd_some extraStops
                  omega }

/-- How a header is read, addition by addition and slice by slice. -/
theorem readCentralHeader_taken {archive header : Bytes} {offset : Nat}
    (taken : slice archive offset (offset + centralHeaderBytes) = some header)
    (long : header.length = 46) :
    (checkedAdd offset centralHeaderBytes = none ∧ readCentralHeader archive offset =
      .error "ZIP central-directory offset overflow") ∨
    ∃ nameStart, checkedAdd offset centralHeaderBytes = some nameStart ∧
    ((checkedAdd nameStart (u16At header 28 (by omega)) = none ∧ readCentralHeader archive offset =
      .error "ZIP central-directory filename length overflow") ∨
    ∃ nameEnd, checkedAdd nameStart (u16At header 28 (by omega)) = some nameEnd ∧
    ((slice archive nameStart nameEnd = none ∧ readCentralHeader archive offset =
      .error "truncated ZIP central-directory filename") ∨
    ∃ raw, slice archive nameStart nameEnd = some raw ∧
    ((checkedAdd nameEnd (u16At header 30 (by omega)) = none ∧ readCentralHeader archive offset =
      .error "ZIP central-directory extra-field length overflow") ∨
    ∃ extraEnd, checkedAdd nameEnd (u16At header 30 (by omega)) = some extraEnd ∧
    ((slice archive nameEnd extraEnd = none ∧ readCentralHeader archive offset =
      .error "truncated ZIP central-directory extra field") ∨
    ∃ extra, slice archive nameEnd extraEnd = some extra ∧ ∃ beyond,
      readCentralHeader archive offset = .ok {
        flags := u16At header 8 (by omega)
        compressedSize := u32At header 20 (by omega)
        expandedSize := u32At header 24 (by omega)
        commentLen := u16At header 32 (by omega)
        diskStart := u16At header 34 (by omega)
        localHeaderOffset := u32At header 42 (by omega)
        raw := raw
        extra := extra
        extraEnd := extraEnd
        beyond := beyond })))) := by
  generalize result : readCentralHeader archive offset = read
  unfold readCentralHeader at result
  split at result
  · rename_i missing
    rw [taken] at missing
    cases missing
  rename_i found same
  obtain rfl := Option.some.inj (taken.symm.trans same)
  dsimp only at result
  split at result
  · rename_i nameAt
    exact .inl ⟨nameAt, result.symm⟩
  rename_i nameStart nameAt
  refine .inr ⟨nameStart, nameAt, ?_⟩
  split at result
  · rename_i nameStops
    exact .inl ⟨nameStops, result.symm⟩
  rename_i nameEnd nameStops
  refine .inr ⟨nameEnd, nameStops, ?_⟩
  split at result
  · rename_i unnamed
    exact .inl ⟨unnamed, result.symm⟩
  rename_i raw named
  refine .inr ⟨raw, named, ?_⟩
  split at result
  · rename_i extraStops
    exact .inl ⟨extraStops, result.symm⟩
  rename_i extraEnd extraStops
  refine .inr ⟨extraEnd, extraStops, ?_⟩
  split at result
  · rename_i missing
    exact .inl ⟨missing, result.symm⟩
  rename_i extra present
  exact .inr ⟨extra, present, _, result.symm⟩

def nextHeader (archive : Bytes) {offset : Nat} (header : CentralHeader offset) :
    Except String {next : Nat // offset + centralHeaderBytes ≤ next ∧ next ≤ archive.length} :=
  match ends : checkedAdd header.extraEnd header.commentLen with
  | none => .error "ZIP central-directory entry length overflow"
  | some next =>
    if outside : archive.length < next then .error "truncated ZIP central-directory entry"
    else .ok ⟨next, by
      have beyond := header.beyond
      have sum := checkedAdd_some ends
      omega⟩

/-- Whether an extra field holds a ZIP64 record; `none` when it is malformed first. -/
def containsZip64Extra (extra : Bytes) (offset : Nat) : Option Bool :=
  if offset < extra.length then
    match taken : slice extra offset (offset + 4) with
    | none => none
    | some header =>
      have long : header.length = 4 := by
        have length := (slice_some taken).2.2
        omega
      match ends : (checkedAdd offset 4).bind fun start =>
          checkedAdd start (u16At header 2 (by omega)) with
      | none => none
      | some dataEnd =>
        if extra.length < dataEnd then none
        else if u16At header 0 (by omega) = 0x0001 then some true
        else containsZip64Extra extra dataEnd
  else some false
termination_by extra.length - offset
decreasing_by
  obtain ⟨start, started, ended⟩ := Option.bind_eq_some_iff.mp ends
  have first := checkedAdd_some started
  have second := checkedAdd_some ended
  omega

/-- The first encoding that a binary ZIP must not use, in the order they are tested. -/
def CentralHeader.encodingViolation {offset : Nat} (header : CentralHeader offset) :
    Option String :=
  if header.flags &&& 0x0008 ≠ 0 then
    some "binary ZIP entries must not use general-purpose bit 3 data descriptors"
  else if header.compressedSize = 2 ^ 32 - 1 ∨ header.expandedSize = 2 ^ 32 - 1 ∨
      header.diskStart = 2 ^ 16 - 1 ∨ header.localHeaderOffset = 2 ^ 32 - 1 then
    some "binary ZIP contains an unnecessary per-entry ZIP64 sentinel"
  else
    match containsZip64Extra header.extra 0 with
    | some true => some "binary ZIP contains an unnecessary per-entry ZIP64 extra field"
    | none => some "binary ZIP contains a malformed central-directory extra field"
    | some false => none

/-! ## Other spellings of the reserved path -/

def replaceBackslash (text : List Char) : List Char :=
  text.map fun char => if char = '\\' then '/' else char

def trimDotsAndSpaces (component : List Char) : List Char :=
  component.rdropWhile fun char => char = '.' || char = ' '

/-- Win32 strips trailing dots and spaces from a component. -/
def archivePart (raw : List Char) : PathPart String :=
  if raw = [] ∨ raw = ['.'] then .skip
  else if raw = ['.', '.'] then .up
  else if trimDotsAndSpaces raw = [] then .skip
  else .name (String.ofList (trimDotsAndSpaces raw))

def normalizedArchivePath (toLowercase : String → String) (path : String) : Option String :=
  (strict [] (((replaceBackslash path.toList).splitOn '/').map fun raw =>
    (archivePart raw).map toLowercase)).map fun components => "/".intercalate components

/-! ## The walk -/

structure CentralWalk where
  exact : Nat
  entries : Nat
  encodingViolation : Option String
  deriving DecidableEq

/-- The count of exact descriptors after this name; another spelling is an error. -/
def countDescriptor (toLowercase : String → String) (raw : Bytes) (exact : Nat) :
    Except String Nat :=
  if raw = asBytes binaryDescriptorArchivePath then .ok (exact + 1)
  else
    match decodeUtf8 raw with
    | none => .ok exact
    | some name =>
      if normalizedArchivePath toLowercase name = some binaryDescriptorArchivePath then
        .error ("reserved binary descriptor path must be exactly `" ++
          binaryDescriptorArchivePath ++ "`, got `" ++ name ++ "`")
      else .ok exact

/-- One pass of the loop body, up to the offset of the next header. -/
def visitHeader (toLowercase : String → String) {offset : Nat} (header : CentralHeader offset)
    (walk : CentralWalk) : Except String CentralWalk := do
  let exact ← countDescriptor toLowercase header.raw walk.exact
  let entries ← okOrElse (checkedAdd walk.entries 1) "ZIP central-directory entry count overflow"
  pure ⟨exact, entries, walk.encodingViolation.or header.encodingViolation⟩

def walkCentral (toLowercase : String → String) (archive : Bytes) (offset : Nat)
    (walk : CentralWalk) : Except String CentralWalk :=
  if slice archive offset (offset + 4) = some centralSignature then
    match readCentralHeader archive offset with
    | .error error => .error error
    | .ok header =>
      match visitHeader toLowercase header walk with
      | .error error => .error error
      | .ok visited =>
        match nextHeader archive header with
        | .error error => .error error
        | .ok next => walkCentral toLowercase archive next visited
  else .ok walk
termination_by archive.length - offset
decreasing_by
  have grows := next.property
  unfold centralHeaderBytes at grows
  omega

/-- The names of the headers that follow one another from `offset` on. -/
def centralNames (archive : Bytes) (offset : Nat) : List Bytes :=
  if slice archive offset (offset + 4) = some centralSignature then
    match readCentralHeader archive offset with
    | .error _ => []
    | .ok header =>
      header.raw ::
        match nextHeader archive header with
        | .error _ => []
        | .ok next => centralNames archive next
  else []
termination_by archive.length - offset
decreasing_by
  have grows := next.property
  unfold centralHeaderBytes at grows
  omega

inductive DescriptorPresence where
  | absent
  | present
  deriving DecidableEq

def CentralWalk.presence (walk : CentralWalk) : Except String DescriptorPresence :=
  match walk.exact with
  | 0 => .ok .absent
  | 1 =>
    match walk.encodingViolation with
    | some message => .error message
    | none => .ok .present
  | count => .error ("binary ZIP contains " ++ toString count ++ " copies of `" ++
      binaryDescriptorArchivePath ++ "`")

variable {Extra : Type} (B : BinaryInterfaces Extra)

def descriptorPresence (archive : Bytes) : Except String DescriptorPresence := do
  let opened ← (B.openZip archive).mapError fun error => "invalid ZIP archive: " ++ error
  ensure (opened.centralDirectoryStart < 2 ^ 64)
    "ZIP central-directory offset does not fit usize"
  let walk ← walkCentral B.toLowercase archive opened.centralDirectoryStart ⟨0, 0, none⟩
  ensure (walk.entries = opened.entries.length)
    ("ZIP central directory contains duplicate or inconsistently indexed entries: raw count " ++
      toString walk.entries ++ ", parser exposes " ++ toString opened.entries.length)
  walk.presence

/-! ## What a finished walk has seen -/

/-- A name that is not the reserved path and that the check does not take for another
spelling of it. -/
def Unreserved (toLowercase : String → String) (raw : Bytes) : Prop :=
  raw ≠ asBytes binaryDescriptorArchivePath ∧ ∀ name, decodeUtf8 raw = some name →
    normalizedArchivePath toLowercase name ≠ some binaryDescriptorArchivePath

theorem countDescriptor_ok {toLowercase : String → String} {raw : Bytes} {exact counted : Nat}
    (accepted : countDescriptor toLowercase raw exact = .ok counted) :
    (raw = asBytes binaryDescriptorArchivePath ∧ counted = exact + 1) ∨
      (Unreserved toLowercase raw ∧ counted = exact) := by
  unfold countDescriptor at accepted
  split at accepted
  · rename_i same
    exact Or.inl ⟨same, (Except.ok.inj accepted).symm⟩
  · rename_i differs
    refine Or.inr ?_
    split at accepted
    · rename_i undecoded
      refine ⟨⟨differs, ?_⟩, (Except.ok.inj accepted).symm⟩
      intro name decoded
      rw [undecoded] at decoded
      contradiction
    · rename_i name decoded
      split at accepted
      · contradiction
      · rename_i unlike
        refine ⟨⟨differs, ?_⟩, (Except.ok.inj accepted).symm⟩
        intro other same
        rwa [Option.some.inj (same.symm.trans decoded)]

theorem visitHeader_ok {toLowercase : String → String} {offset : Nat}
    {header : CentralHeader offset} {walk visited : CentralWalk}
    (accepted : visitHeader toLowercase header walk = .ok visited) :
    visited.entries = walk.entries + 1 ∧
      ((header.raw = asBytes binaryDescriptorArchivePath ∧ visited.exact = walk.exact + 1) ∨
        (Unreserved toLowercase header.raw ∧ visited.exact = walk.exact)) := by
  simp only [visitHeader, bind_ok, okOrElse_ok] at accepted
  obtain ⟨exact, named, entries, added, built⟩ := accepted
  obtain rfl := Except.ok.inj built
  exact ⟨checkedAdd_some added, countDescriptor_ok named⟩

/-- The walk counts every name and the reserved ones among them. -/
theorem walkCentral_ok {toLowercase : String → String} {archive : Bytes} {offset : Nat}
    {walk final : CentralWalk}
    (accepted : walkCentral toLowercase archive offset walk = .ok final) :
    final.entries = walk.entries + (centralNames archive offset).length ∧
      final.exact = walk.exact +
        (centralNames archive offset).count (asBytes binaryDescriptorArchivePath) ∧
      ∀ raw ∈ centralNames archive offset,
        raw = asBytes binaryDescriptorArchivePath ∨ Unreserved toLowercase raw := by
  induction offset, walk using walkCentral.induct toLowercase archive with
  | case1 offset walk signed error unread =>
      rw [walkCentral, if_pos signed, unread] at accepted
      contradiction
  | case2 offset walk signed header read error refused =>
      rw [walkCentral, if_pos signed, read] at accepted
      simp only [refused] at accepted
      contradiction
  | case3 offset walk signed header read visited visits error stops =>
      rw [walkCentral, if_pos signed, read] at accepted
      simp only [visits, stops] at accepted
      contradiction
  | case4 offset walk signed header read visited visits next steps ih =>
      rw [walkCentral, if_pos signed, read] at accepted
      simp only [visits, steps] at accepted
      obtain ⟨entries, exact, names⟩ := ih accepted
      obtain ⟨counted, seen⟩ := visitHeader_ok visits
      have listed : centralNames archive offset = header.raw :: centralNames archive next := by
        rw [centralNames, if_pos signed, read]
        simp only [steps]
      rw [listed, List.length_cons, List.count_cons, List.forall_mem_cons]
      refine ⟨by omega, ?_, ?_, names⟩
      · rcases seen with ⟨same, grown⟩ | ⟨⟨differs, _⟩, kept⟩
        · rw [if_pos (beq_iff_eq.mpr same)]
          omega
        · rw [if_neg fun same => differs (beq_iff_eq.mp same)]
          omega
      · rcases seen with ⟨same, _⟩ | ⟨unreserved, _⟩
        · exact Or.inl same
        · exact Or.inr unreserved
  | case5 offset walk unsigned =>
      rw [walkCentral, if_neg unsigned] at accepted
      obtain rfl := Except.ok.inj accepted
      rw [centralNames, if_neg unsigned]
      simp

/-- A ZIP without the descriptor has only names the check passes. -/
theorem descriptorPresence_absent {archive : Bytes} {opened : ZipArchive}
    (accepted : descriptorPresence B archive = .ok .absent)
    (opens : B.openZip archive = .ok opened) :
    ∀ raw ∈ centralNames archive opened.centralDirectoryStart, Unreserved B.toLowercase raw := by
  simp only [descriptorPresence, bind_ok, mapError_ok] at accepted
  obtain ⟨_, found, _, _, walk, walked, _, _, verdict⟩ := accepted
  obtain rfl := Except.ok.inj (found.symm.trans opens)
  obtain ⟨_, counted, names⟩ := walkCentral_ok walked
  have none : walk.exact = 0 := by
    unfold CentralWalk.presence at verdict
    split at verdict
    · assumption
    · split at verdict
      · contradiction
      · exact absurd (Except.ok.inj verdict) (by decide)
    · contradiction
  intro raw member
  rcases names raw member with same | unreserved
  · have positive := List.count_pos_iff.mpr (same ▸ member)
    omega
  · exact unreserved

end ZedRegistry
