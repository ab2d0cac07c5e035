import ZedRegistry.BinaryVerified
import ZedRegistry.Lib.PrefixRange

/-!
# Path conflicts of a binary ZIP

The pass over the entries compares each path with those before it, by a lookup,
a walk over its ancestors and one range query.  Together they decide a condition
on pairs of entries that does not mention the order.
-/

set_option autoImplicit false

namespace ZedRegistry

open PrefixRange

/-- `upper` names a directory above `lower`. -/
def ProperAncestor (upper lower : String) : Prop := (upper ++ "/").toList <+: lower.toList

instance (upper lower : String) : Decidable (ProperAncestor upper lower) :=
  inferInstanceAs (Decidable (_ <+: _))

theorem mem_ancestors {path text : List Char} :
    path ∈ ancestors text ↔ path ++ ['/'] <+: text := by
  induction text generalizing path with
  | nil => simp [ancestors]
  | cons char rest ih =>
      have below : path ∈ (ancestors rest).map (char :: ·) ↔
          ∃ tail, path = char :: tail ∧ tail ++ ['/'] <+: rest := by
        rw [List.mem_map]
        constructor
        · rintro ⟨tail, member, rfl⟩
          exact ⟨tail, rfl, ih.mp member⟩
        · rintro ⟨tail, rfl, isPrefix⟩
          exact ⟨tail, ih.mpr isPrefix, rfl⟩
      unfold ancestors
      cases path with
      | nil =>
          by_cases slash : char = '/'
          · simp [slash]
          · have other : ¬ '/' = char := fun same => slash same.symm
            simp [slash, other]
      | cons head tail =>
          have step : head :: tail ++ ['/'] <+: char :: rest ↔
              head = char ∧ tail ++ ['/'] <+: rest := List.cons_prefix_cons
          rw [step]
          by_cases slash : char = '/'
          · rw [if_pos slash, List.mem_cons, below]
            simp
          · rw [if_neg slash, below]
            simp

theorem firstFrom_none {start : String} {paths : List (String × String)}
    (none : firstFrom start paths = none) : ∀ path ∈ paths, ¬ start ≤ path.1 := by
  induction paths with
  | nil => simp
  | cons path rest ih =>
      unfold firstFrom at none
      cases later : firstFrom start rest with
      | none =>
          rw [later] at none
          refine List.forall_mem_cons.mpr ⟨?_, ih later⟩
          intro above
          simp [above] at none
      | some best =>
          rw [later] at none
          dsimp only at none
          split at none
          · contradiction
          · contradiction

theorem firstFrom_some {start : String} {paths : List (String × String)}
    {best : String × String} (found : firstFrom start paths = some best) :
    best ∈ paths ∧ start ≤ best.1 ∧ ∀ path ∈ paths, start ≤ path.1 → best.1 ≤ path.1 := by
  induction paths generalizing best with
  | nil => contradiction
  | cons path rest ih =>
      unfold firstFrom at found
      cases later : firstFrom start rest with
      | none =>
          rw [later] at found
          dsimp only at found
          split at found
          · rename_i above
            obtain rfl := Option.some.inj found
            refine ⟨List.mem_cons_self, above, ?_⟩
            refine List.forall_mem_cons.mpr ⟨fun _ => String.le_refl _, ?_⟩
            intro other member otherAbove
            exact absurd otherAbove (firstFrom_none later other member)
          · contradiction
      | some least =>
          obtain ⟨member, above, first⟩ := ih later
          rw [later] at found
          dsimp only at found
          split at found
          · rename_i smaller
            obtain rfl := Option.some.inj found
            refine ⟨List.mem_cons_self, smaller.1, ?_⟩
            refine List.forall_mem_cons.mpr ⟨fun _ => String.le_refl _, ?_⟩
            intro other isOther otherAbove
            exact String.le_trans (String.lt_asymm smaller.2) (first other isOther otherAbove)
          · rename_i notSmaller
            obtain rfl := Option.some.inj found
            refine ⟨List.mem_cons_of_mem _ member, above, ?_⟩
            refine List.forall_mem_cons.mpr ⟨?_, first⟩
            intro pathAbove
            exact String.not_lt.mp fun below => notSmaller ⟨pathAbove, below⟩

/-- The range query finds a descendant exactly if there is one. -/
theorem firstFrom_prefix_iff (start : String) (paths : List (String × String)) :
    (∃ best, firstFrom start paths = some best ∧ start.toList <+: best.1.toList) ↔
      ∃ key ∈ paths.map Prod.fst, start.toList <+: key.toList := by
  constructor
  · rintro ⟨best, found, hasPrefix⟩
    exact ⟨best.1, List.mem_map_of_mem (firstFrom_some found).1, hasPrefix⟩
  · rintro ⟨key, member, hasPrefix⟩
    obtain ⟨path, isPath, rfl⟩ := List.mem_map.mp member
    cases found : firstFrom start paths with
    | none =>
        have notAbove := firstFrom_none found path isPath
        exact absurd hasPrefix.le notAbove
    | some best =>
        obtain ⟨bestMember, above, first⟩ := firstFrom_some found
        have isFirst : IsFirstFrom start.toList (paths.map fun path => path.1.toList)
            best.1.toList := by
          refine ⟨List.mem_map_of_mem bestMember, above, ?_⟩
          intro text textMember textAbove
          obtain ⟨other, otherMember, rfl⟩ := List.mem_map.mp textMember
          exact first other otherMember textAbove
        exact ⟨best, rfl, isFirst.prefix_iff.mpr ⟨_, List.mem_map_of_mem isPath, hasPrefix⟩⟩

theorem lookup_none_iff {portable : String} {paths : List (String × String)} :
    paths.lookup portable = none ↔ portable ∉ paths.map Prod.fst := by
  induction paths with
  | nil => simp
  | cons path rest ih =>
      rw [List.lookup_cons, List.map_cons, List.mem_cons, not_or]
      by_cases same : portable = path.1
      · simp [same]
      · have differs : (portable == path.1) = false := by simpa using same
        rw [differs, ih]
        simp [same]

theorem checkConflicts_ok_iff (scan : BinaryScan) (isFile : Bool) (relative portable : String) :
    checkConflicts scan isFile relative portable = .ok () ↔
      portable ∉ scan.portablePaths.map Prod.fst ∧
        (∀ upper ∈ scan.portableRegularFiles, ¬ ProperAncestor upper portable) ∧
        (isFile = true →
          ∀ lower ∈ scan.portablePaths.map Prod.fst, ¬ ProperAncestor portable lower) := by
  have walk : (∀ path ∈ ancestors portable.toList,
      String.ofList path ∉ scan.portableRegularFiles) ↔
      ∀ upper ∈ scan.portableRegularFiles, ¬ ProperAncestor upper portable := by
    constructor
    · intro noFile upper member above
      rw [ProperAncestor, String.toList_append] at above
      refine noFile upper.toList (mem_ancestors.mpr above) ?_
      rw [String.ofList_toList]
      exact member
    · intro noAncestor path member isFile
      refine noAncestor _ isFile ?_
      rw [ProperAncestor, String.toList_append, String.toList_ofList]
      exact mem_ancestors.mp member
  have range := firstFrom_prefix_iff (portable ++ "/") scan.portablePaths
  rw [checkConflicts, ← lookup_none_iff]
  cases taken : scan.portablePaths.lookup portable with
  | some existing => simp
  | none =>
      simp only [bind_ok, checkEach_ok, ensure_ok, walk, exists_and_left, true_and]
      refine and_congr Iff.rfl ?_
      cases isFile with
      | false => simp
      | true =>
          simp only [forall_true_left, if_true, exists_const]
          have noneBelow : (∀ lower ∈ scan.portablePaths.map Prod.fst,
              ¬ ProperAncestor portable lower) ↔
              ¬ ∃ best, firstFrom (portable ++ "/") scan.portablePaths = some best ∧
                (portable ++ "/").toList <+: best.1.toList := by
            rw [range]
            simp [ProperAncestor]
          rw [noneBelow]
          cases found : firstFrom (portable ++ "/") scan.portablePaths with
          | none => simp
          | some best => simp [ensure_ok]

/-! ## The condition on pairs -/

variable (I : Interfaces) (B : BinaryInterfaces I.Extra)

/-- What the loop does with an entry on its own, before it has seen any other. -/
def PassesAlone (entry : ZipEntry) : Prop := ∃ scan, scanEntry I B 0 .start entry = .ok scan

/-- The portable key of an entry below `pkg/`; the root directory has none. -/
def entryKey (entry : ZipEntry) : Option String :=
  (decodeUtf8 entry.nameRaw).bind fun rawName =>
    (entryRelative I B rawName entry).toOption.join.map (portablePathKey I B)

def Conflicts (left right : ZipEntry) : Prop :=
  ∃ leftKey rightKey, entryKey I B left = some leftKey ∧ entryKey I B right = some rightKey ∧
    (leftKey = rightKey ∨ (left.isFile = true ∧ ProperAncestor leftKey rightKey) ∨
      (right.isFile = true ∧ ProperAncestor rightKey leftKey))

def ConflictFree (entries : List ZipEntry) : Prop :=
  entries.Pairwise fun left right => ¬ Conflicts I B left right

def expandedSize (entries : List ZipEntry) : Nat :=
  ((regularFiles entries).map ZipEntry.size).sum

theorem conflicts_symm {left right : ZipEntry} (conflict : Conflicts I B left right) :
    Conflicts I B right left := by
  obtain ⟨leftKey, rightKey, isLeft, isRight, same | above | below⟩ := conflict
  · exact ⟨rightKey, leftKey, isRight, isLeft, Or.inl same.symm⟩
  · exact ⟨rightKey, leftKey, isRight, isLeft, Or.inr (Or.inr above)⟩
  · exact ⟨rightKey, leftKey, isRight, isLeft, Or.inr (Or.inl below)⟩

theorem conflictFree_perm {left right : List ZipEntry} (same : left.Perm right) :
    ConflictFree I B left ↔ ConflictFree I B right :=
  same.pairwise_iff fun {_ _} noConflict conflict => noConflict (conflicts_symm I B conflict)

theorem expandedSize_perm {left right : List ZipEntry} (same : left.Perm right) :
    expandedSize left = expandedSize right :=
  ((same.filter _).map _).sum_nat

theorem expandedSize_append (early late : List ZipEntry) :
    expandedSize (early ++ late) = expandedSize early + expandedSize late := by
  simp [expandedSize, regularFiles]

/-! ## What the maps hold -/

/-- The maps of the loop list what it has accepted. -/
structure Indexed (seen : List ZipEntry) (scan : BinaryScan) : Prop where
  keys : ∀ key, key ∈ scan.portablePaths.map Prod.fst ↔
    ∃ entry ∈ seen, entryKey I B entry = some key
  fileKeys : ∀ key, key ∈ scan.portableRegularFiles ↔
    ∃ entry ∈ seen, entry.isFile = true ∧ entryKey I B entry = some key
  files : ∀ relative ∈ scan.regularFiles,
    portablePathKey I B relative ∈ scan.portablePaths.map Prod.fst
  descriptor : scan.descriptorBytes.isSome = true → binaryDescriptorPath ∈ scan.regularFiles
  manifest : scan.packageManifestBytes.isSome = true →
    binaryPackageManifestPath ∈ scan.regularFiles
  total : scan.expandedTotal = expandedSize seen

theorem indexed_start : Indexed I B [] .start where
  keys := by simp [BinaryScan.start]
  fileKeys := by simp [BinaryScan.start]
  files := by simp [BinaryScan.start]
  descriptor := by simp [BinaryScan.start]
  manifest := by simp [BinaryScan.start]
  total := rfl

variable {I B}

/-- The three checks of a path decide its conflicts with the entries seen. -/
theorem Indexed.checkConflicts_iff {seen : List ZipEntry} {scan : BinaryScan}
    (before : Indexed I B seen scan) {entry : ZipEntry} {relative : String}
    (keyed : entryKey I B entry = some (portablePathKey I B relative)) :
    checkConflicts scan entry.isFile relative (portablePathKey I B relative) = .ok () ↔
      ∀ other ∈ seen, ¬ Conflicts I B other entry := by
  rw [checkConflicts_ok_iff]
  constructor
  · rintro ⟨fresh, noAncestor, noDescendant⟩ other member ⟨otherKey, key, isOther, isKey, kind⟩
    obtain rfl : portablePathKey I B relative = key := Option.some.inj (keyed.symm.trans isKey)
    have listed := (before.keys otherKey).mpr ⟨other, member, isOther⟩
    rcases kind with rfl | ⟨otherFile, above⟩ | ⟨file, below⟩
    · exact fresh listed
    · exact noAncestor otherKey
        ((before.fileKeys otherKey).mpr ⟨other, member, otherFile, isOther⟩) above
    · exact noDescendant file otherKey listed below
  · intro free
    refine ⟨?_, ?_, ?_⟩
    · intro taken
      obtain ⟨other, member, isOther⟩ := (before.keys _).mp taken
      exact free other member ⟨_, _, isOther, keyed, Or.inl rfl⟩
    · intro upper isUpper above
      obtain ⟨other, member, otherFile, isOther⟩ := (before.fileKeys upper).mp isUpper
      exact free other member ⟨_, _, isOther, keyed, Or.inr (Or.inl ⟨otherFile, above⟩)⟩
    · intro file lower isLower below
      obtain ⟨other, member, isOther⟩ := (before.keys lower).mp isLower
      exact free other member ⟨_, _, isOther, keyed, Or.inr (Or.inr ⟨file, below⟩)⟩

/-! ## One entry -/

/-- The reads of the descriptor and the manifest succeed. -/
def ContractReads (relative : String) (entry : ZipEntry) : Prop :=
  (relative = binaryDescriptorPath →
    ∃ bytes, readSmallEntry entry.reads maxDescriptorBytes binaryDescriptorPath = .ok bytes) ∧
  (relative = binaryPackageManifestPath →
    ∃ bytes, readSmallEntry entry.reads maxPackageManifestBytes binaryPackageManifestPath =
      .ok bytes)

theorem contractReads_of_kept {scan next : BinaryScan} {relative : String} {entry : ZipEntry}
    (kept : keepContract scan relative entry = .ok next) : ContractReads relative entry := by
  unfold keepContract at kept
  by_cases descriptor : relative = binaryDescriptorPath
  · have notManifest : relative ≠ binaryPackageManifestPath := by
      rw [descriptor]
      decide
    rw [if_pos descriptor] at kept
    split_ifs at kept
    obtain ⟨bytes, read, _⟩ := bind_ok.mp kept
    exact ⟨fun _ => ⟨bytes, read⟩, fun manifest => absurd manifest notManifest⟩
  · rw [if_neg descriptor] at kept
    refine ⟨fun isDescriptor => absurd isDescriptor descriptor, ?_⟩
    intro manifest
    rw [if_pos manifest] at kept
    split_ifs at kept
    obtain ⟨bytes, read, _⟩ := bind_ok.mp kept
    exact ⟨bytes, read⟩

theorem keepContract_fresh {scan : BinaryScan} {relative : String} {entry : ZipEntry}
    (reads : ContractReads relative entry)
    (noDescriptor : relative = binaryDescriptorPath → scan.descriptorBytes = none)
    (noManifest : relative = binaryPackageManifestPath → scan.packageManifestBytes = none) :
    ∃ next, keepContract scan relative entry = .ok next := by
  unfold keepContract
  by_cases descriptor : relative = binaryDescriptorPath
  · obtain ⟨bytes, read⟩ := reads.1 descriptor
    rw [if_pos descriptor, noDescriptor descriptor]
    exact ⟨_, bind_ok.mpr ⟨bytes, read, rfl⟩⟩
  · rw [if_neg descriptor]
    by_cases manifest : relative = binaryPackageManifestPath
    · obtain ⟨bytes, read⟩ := reads.2 manifest
      rw [if_pos manifest, noManifest manifest]
      exact ⟨_, bind_ok.mpr ⟨bytes, read, rfl⟩⟩
    · rw [if_neg manifest]
      exact ⟨scan, rfl⟩

theorem keepContract_frame {scan next : BinaryScan} {relative : String} {entry : ZipEntry}
    (kept : keepContract scan relative entry = .ok next) :
    next.portablePaths = scan.portablePaths ∧
      next.portableRegularFiles = scan.portableRegularFiles := by
  unfold keepContract at kept
  split_ifs at kept
  · obtain ⟨bytes, _, built⟩ := bind_ok.mp kept
    obtain rfl := Except.ok.inj built
    exact ⟨rfl, rfl⟩
  · obtain ⟨bytes, _, built⟩ := bind_ok.mp kept
    obtain rfl := Except.ok.inj built
    exact ⟨rfl, rfl⟩
  · obtain rfl := Except.ok.inj kept
    exact ⟨rfl, rfl⟩

theorem isFile_of_kind {rawName : String} {entry : ZipEntry} {result : Unit}
    (kind : checkEntryKind rawName entry = .ok result) : entry.isFile = !entry.isDir := by
  rw [ZipEntry.isFile, (checkEntryKind_ok kind).2, Bool.not_false, Bool.and_true]

theorem entryKey_eq {rawName : String} {entry : ZipEntry} {relative : Option String}
    (decoded : decodeUtf8 entry.nameRaw = some rawName)
    (placed : entryRelative I B rawName entry = .ok relative) :
    entryKey I B entry = relative.map (portablePathKey I B) := by
  rw [entryKey, decoded, Option.bind_some, placed]
  rfl

theorem passesAlone_cases {entry : ZipEntry} (alone : PassesAlone I B entry) :
    ∃ rawName, decodeUtf8 entry.nameRaw = some rawName ∧
      checkEntryKind rawName entry = .ok () ∧
      ((entryRelative I B rawName entry = .ok none ∧ entry.isDir = true) ∨
        ∃ relative, entryRelative I B rawName entry = .ok (some relative) ∧
          (entry.isDir = true ∨ (entry.isDir = false ∧
            enforceCompressionRatio I B rawName entry.size entry.compressedSize = .ok () ∧
            ContractReads relative entry))) := by
  obtain ⟨scan, accepted⟩ := alone
  simp only [scanEntry, bind_ok, okOrElse_ok] at accepted
  obtain ⟨rawName, decoded, _, kind, found, placed, step⟩ := accepted
  refine ⟨rawName, decoded, kind, ?_⟩
  rcases entryRelative_ok I B (decodeUtf8_some.mp decoded) placed with
    ⟨rfl, isDir, _⟩ | ⟨relative, rfl, _⟩
  · exact Or.inl ⟨placed, isDir⟩
  · refine Or.inr ⟨relative, placed, ?_⟩
    simp only [bind_ok] at step
    obtain ⟨_, _, step⟩ := step
    by_cases isDir : entry.isDir = true
    · exact Or.inl isDir
    · rw [if_neg isDir] at step
      simp only [scanFile, bind_ok, ensure_ok, okOrElse_ok] at step
      obtain ⟨_, _, _, ratio, _, _, _, _, kept⟩ := step
      exact Or.inr ⟨Bool.eq_false_iff.mpr isDir, ratio, contractReads_of_kept kept⟩

/-- A file without conflicts is refused only for the size of the whole. -/
theorem scanFile_iff {scan : BinaryScan} {rawName relative portable : String} {entry : ZipEntry}
    (ratio : enforceCompressionRatio I B rawName entry.size entry.compressedSize = .ok ())
    (reads : ContractReads relative entry) (fresh : relative ∉ scan.regularFiles)
    (noDescriptor : relative = binaryDescriptorPath → scan.descriptorBytes = none)
    (noManifest : relative = binaryPackageManifestPath → scan.packageManifestBytes = none) :
    (∃ next, scanFile I B scan rawName relative portable entry = .ok next) ↔
      scan.expandedTotal + entry.size ≤ maxBinaryExpandedBytes B := by
  have ceiling : maxBinaryExpandedBytes B ≤ 2 * 1024 * 1024 * 1024 := boundedU64Override_le _ _
  simp only [scanFile, bind_ok, ensure_ok, okOrElse_ok]
  constructor
  · rintro ⟨next, _, _, _, _, total, added, _, limited, _⟩
    rw [← checkedAdd_some added]
    exact limited
  · intro limited
    have added : checkedAdd scan.expandedTotal entry.size =
        some (scan.expandedTotal + entry.size) := by
      rw [checkedAdd, if_pos (by omega)]
    obtain ⟨next, kept⟩ := @keepContract_fresh { scan with
        regularFiles := relative :: scan.regularFiles
        portablePaths := (portable, relative) :: scan.portablePaths
        portableRegularFiles := portable :: scan.portableRegularFiles
        expandedTotal := scan.expandedTotal + entry.size }
      relative entry reads noDescriptor noManifest
    exact ⟨next, (), fresh, (), ratio, _, added, (), limited, kept⟩

theorem scanEntry_iff {seen : List ZipEntry} {scan : BinaryScan} (index : Nat)
    {entry : ZipEntry} (before : Indexed I B seen scan)
    (limited : scan.expandedTotal ≤ maxBinaryExpandedBytes B) (alone : PassesAlone I B entry) :
    (∃ next, scanEntry I B index scan entry = .ok next) ↔
      (∀ other ∈ seen, ¬ Conflicts I B other entry) ∧
        expandedSize (seen ++ [entry]) ≤ maxBinaryExpandedBytes B := by
  obtain ⟨rawName, decoded, kind, placement⟩ := passesAlone_cases alone
  have isFile := isFile_of_kind kind
  have directorySize : entry.isDir = true →
      expandedSize (seen ++ [entry]) = scan.expandedTotal := by
    intro isDir
    rw [expandedSize, regularFiles_append_dir isDir, before.total]
    rfl
  simp only [scanEntry, bind_ok, okOrElse_ok, decoded, Option.some.injEq, exists_eq_left', kind,
    exists_const, true_and]
  rcases placement with ⟨placed, isDir⟩ | ⟨relative, placed, kept⟩
  · have unkeyed := entryKey_eq decoded placed
    have free : ∀ other ∈ seen, ¬ Conflicts I B other entry := by
      rintro other _ ⟨_, key, _, isKey, _⟩
      rw [unkeyed] at isKey
      contradiction
    rw [directorySize isDir]
    simp only [placed, Except.ok.injEq, exists_eq_left']
    exact ⟨fun _ => ⟨free, limited⟩, fun _ => ⟨scan, rfl⟩⟩
  · have keyed := entryKey_eq decoded placed
    have conflictsIff := before.checkConflicts_iff keyed
    simp only [placed, Except.ok.injEq, exists_eq_left', bind_ok]
    rcases kept with isDir | ⟨notDir, ratio, reads⟩
    · rw [directorySize isDir, ← conflictsIff, if_pos isDir]
      constructor
      · rintro ⟨_, _, passed, _⟩
        exact ⟨passed, limited⟩
      · rintro ⟨passed, _⟩
        exact ⟨_, (), passed, rfl⟩
    · rw [if_neg (by simp [notDir]), ← conflictsIff]
      have grows : expandedSize (seen ++ [entry]) = scan.expandedTotal + entry.size := by
        rw [expandedSize, regularFiles_append_file (by rw [isFile, notDir]; rfl), before.total]
        simp [expandedSize]
      rw [grows, exists_comm]
      have fileIff : checkConflicts scan entry.isFile relative (portablePathKey I B relative) =
          .ok () → ((∃ next, scanFile I B scan rawName relative (portablePathKey I B relative)
            entry = .ok next) ↔ scan.expandedTotal + entry.size ≤ maxBinaryExpandedBytes B) := by
        intro passed
        have newKey := ((checkConflicts_ok_iff _ _ _ _).mp passed).1
        have fresh : relative ∉ scan.regularFiles := fun listed =>
          newKey (before.files relative listed)
        refine scanFile_iff ratio reads fresh ?_ ?_
        · intro isDescriptor
          rw [isDescriptor] at fresh
          exact Option.not_isSome_iff_eq_none.mp (mt before.descriptor fresh)
        · intro isManifest
          rw [isManifest] at fresh
          exact Option.not_isSome_iff_eq_none.mp (mt before.manifest fresh)
      constructor
      · rintro ⟨_, next, passed, step⟩
        exact ⟨passed, (fileIff passed).mp ⟨next, step⟩⟩
      · rintro ⟨passed, fits⟩
        obtain ⟨next, step⟩ := (fileIff passed).mpr fits
        exact ⟨(), next, passed, step⟩

/-! ## The pass over the entries -/

theorem mem_append_singleton_iff {seen : List ZipEntry} {entry : ZipEntry}
    {property : ZipEntry → Prop} :
    (∃ other ∈ seen ++ [entry], property other) ↔
      (∃ other ∈ seen, property other) ∨ property entry := by
  simp [or_and_right, exists_or]

/-- A directory adds its key, or nothing if it is the root. -/
theorem Indexed.directory {seen : List ZipEntry} {scan next : BinaryScan} {entry : ZipEntry}
    (before : Indexed I B seen scan) (isDir : entry.isDir = true)
    (paths : ∀ key, key ∈ next.portablePaths.map Prod.fst ↔
      key ∈ scan.portablePaths.map Prod.fst ∨ entryKey I B entry = some key)
    (same : next.portableRegularFiles = scan.portableRegularFiles ∧
      next.regularFiles = scan.regularFiles ∧ next.descriptorBytes = scan.descriptorBytes ∧
      next.packageManifestBytes = scan.packageManifestBytes ∧
      next.expandedTotal = scan.expandedTotal) :
    Indexed I B (seen ++ [entry]) next := by
  obtain ⟨fileKeys, files, descriptor, manifest, total⟩ := same
  have notFile : entry.isFile = false := by simp [ZipEntry.isFile, isDir]
  refine ⟨?_, ?_, ?_, ?_, ?_, ?_⟩
  · intro key
    rw [paths, before.keys, mem_append_singleton_iff]
  · intro key
    rw [fileKeys, before.fileKeys, mem_append_singleton_iff]
    simp [notFile]
  · intro relative listed
    rw [files] at listed
    exact (paths _).mpr (Or.inl (before.files relative listed))
  · rw [descriptor, files]
    exact before.descriptor
  · rw [manifest, files]
    exact before.manifest
  · rw [total, before.total, expandedSize, expandedSize, regularFiles_append_dir isDir]

theorem Indexed.file {seen : List ZipEntry} {scan next : BinaryScan} {entry : ZipEntry}
    {rawName relative : String} (before : Indexed I B seen scan) (isFile : entry.isFile = true)
    (keyed : entryKey I B entry = some (portablePathKey I B relative))
    (accepted : scanFile I B scan rawName relative (portablePathKey I B relative) entry =
      .ok next) :
    Indexed I B (seen ++ [entry]) next := by
  simp only [scanFile, bind_ok, ensure_ok, okOrElse_ok] at accepted
  obtain ⟨_, _, _, _, total, added, _, _, kept⟩ := accepted
  obtain ⟨files, expanded, descriptor, manifest⟩ := keepContract_ok kept
  obtain ⟨paths, fileKeys⟩ := keepContract_frame kept
  refine ⟨?_, ?_, ?_, ?_, ?_, ?_⟩
  · intro key
    rw [paths, List.map_cons, List.mem_cons, before.keys, mem_append_singleton_iff, keyed,
      Option.some.injEq, or_comm, eq_comm]
  · intro key
    rw [fileKeys, List.mem_cons, before.fileKeys, mem_append_singleton_iff, keyed,
      Option.some.injEq, or_comm, eq_comm]
    simp [isFile]
  · intro other listed
    rw [paths, List.map_cons, List.mem_cons]
    rw [files] at listed
    rcases List.mem_cons.mp listed with rfl | earlier
    · exact Or.inl rfl
    · exact Or.inr (before.files other earlier)
  · intro filled
    obtain ⟨bytes, isBytes⟩ := Option.isSome_iff_exists.mp filled
    rw [files, List.mem_cons]
    rcases descriptor bytes isBytes with earlier | ⟨here, _⟩
    · exact Or.inr (before.descriptor (Option.isSome_iff_exists.mpr ⟨bytes, earlier⟩))
    · exact Or.inl here.symm
  · intro filled
    obtain ⟨bytes, isBytes⟩ := Option.isSome_iff_exists.mp filled
    rw [files, List.mem_cons]
    rcases manifest bytes isBytes with earlier | ⟨here, _⟩
    · exact Or.inr (before.manifest (Option.isSome_iff_exists.mpr ⟨bytes, earlier⟩))
    · exact Or.inl here.symm
  · rw [expanded, checkedAdd_some added, before.total, expandedSize_append]
    simp [expandedSize, regularFiles, isFile]

theorem scanEntry_indexed {seen : List ZipEntry} {scan next : BinaryScan} {index : Nat}
    {entry : ZipEntry} (before : Indexed I B seen scan)
    (accepted : scanEntry I B index scan entry = .ok next) :
    Indexed I B (seen ++ [entry]) next := by
  simp only [scanEntry, bind_ok, okOrElse_ok] at accepted
  obtain ⟨rawName, decoded, _, kind, found, placed, step⟩ := accepted
  have keyed := entryKey_eq decoded placed
  rcases entryRelative_ok I B (decodeUtf8_some.mp decoded) placed with
    ⟨rfl, isDir, _⟩ | ⟨relative, rfl, _⟩
  · obtain rfl := Except.ok.inj step
    exact before.directory isDir (by simp [keyed]) ⟨rfl, rfl, rfl, rfl, rfl⟩
  · simp only [bind_ok] at step
    obtain ⟨_, _, step⟩ := step
    by_cases isDir : entry.isDir = true
    · rw [if_pos isDir] at step
      obtain rfl := Except.ok.inj step
      refine before.directory isDir ?_ ⟨rfl, rfl, rfl, rfl, rfl⟩
      intro key
      rw [List.map_cons, List.mem_cons, keyed, Option.map_some, Option.some.injEq, or_comm, eq_comm]
    · rw [if_neg isDir] at step
      have isFile : entry.isFile = true := by
        rw [isFile_of_kind kind, Bool.eq_false_iff.mpr isDir]
        rfl
      exact before.file isFile keyed step

theorem scanEntries_iff {seen entries : List ZipEntry} {scan : BinaryScan} {index : Nat}
    (before : Indexed I B seen scan)
    (limited : scan.expandedTotal ≤ maxBinaryExpandedBytes B)
    (alone : ∀ entry ∈ entries, PassesAlone I B entry) :
    (∃ final, scanEntries I B index scan (entries.map .ok) = .ok final) ↔
      (∀ other ∈ seen, ∀ entry ∈ entries, ¬ Conflicts I B other entry) ∧
        ConflictFree I B entries ∧ expandedSize (seen ++ entries) ≤ maxBinaryExpandedBytes B := by
  induction entries generalizing seen scan index with
  | nil =>
      rw [List.append_nil, ← before.total]
      simp [scanEntries, ConflictFree, limited]
  | cons entry rest ih =>
      obtain ⟨entryAlone, restAlone⟩ := List.forall_mem_cons.mp alone
      have step := scanEntry_iff index before limited entryAlone
      have split : seen ++ entry :: rest = (seen ++ [entry]) ++ rest := by simp
      have later : ∀ next, scanEntry I B index scan entry = .ok next →
          ((∃ final, scanEntries I B (index + 1) next (rest.map .ok) = .ok final) ↔
            (∀ other ∈ seen ++ [entry], ∀ item ∈ rest, ¬ Conflicts I B other item) ∧
              ConflictFree I B rest ∧
              expandedSize (seen ++ entry :: rest) ≤ maxBinaryExpandedBytes B) := by
        intro next accepted
        have after := scanEntry_indexed before accepted
        have fits := (step.mp ⟨next, accepted⟩).2
        rw [split]
        exact ih after (by rw [after.total]; exact fits) restAlone
      simp only [List.map_cons, scanEntries, bind_ok]
      constructor
      · rintro ⟨final, next, accepted, tailRun⟩
        obtain ⟨free, conflictFree, fits⟩ := (later next accepted).mp ⟨final, tailRun⟩
        obtain ⟨entryFree, _⟩ := step.mp ⟨next, accepted⟩
        refine ⟨?_, List.pairwise_cons.mpr ⟨?_, conflictFree⟩, fits⟩
        · intro other member
          exact List.forall_mem_cons.mpr
            ⟨entryFree other member, free other (List.mem_append_left _ member)⟩
        · exact free entry (List.mem_append_right _ (List.mem_singleton_self entry))
      · rintro ⟨free, conflictFree, fits⟩
        obtain ⟨entryFree, restFree⟩ := List.pairwise_cons.mp conflictFree
        have entryFits : expandedSize (seen ++ [entry]) ≤ maxBinaryExpandedBytes B := by
          rw [split, expandedSize_append] at fits
          omega
        obtain ⟨next, accepted⟩ := step.mpr
          ⟨fun other member => free other member entry List.mem_cons_self, entryFits⟩
        have allFree : ∀ other ∈ seen ++ [entry], ∀ item ∈ rest, ¬ Conflicts I B other item := by
          refine List.forall_mem_append.mpr ⟨?_, List.forall_mem_singleton.mpr entryFree⟩
          intro other member item isItem
          exact free other member item (List.mem_cons_of_mem _ isItem)
        obtain ⟨final, tailRun⟩ := (later next accepted).mpr ⟨allFree, restFree, fits⟩
        exact ⟨final, next, accepted, tailRun⟩

variable (I B)

def LoopAccepts (entries : List ZipEntry) : Prop :=
  ∃ scan, scanEntries I B 0 .start (entries.map .ok) = .ok scan

theorem loopAccepts_iff {entries : List ZipEntry}
    (alone : ∀ entry ∈ entries, PassesAlone I B entry) :
    LoopAccepts I B entries ↔
      ConflictFree I B entries ∧ expandedSize entries ≤ maxBinaryExpandedBytes B := by
  have run := @scanEntries_iff I B [] entries .start 0 (indexed_start I B) (Nat.zero_le _) alone
  rw [LoopAccepts, run]
  simp

/-- Entries that pass on their own and fit are accepted together exactly if no two
of them conflict, in whichever order they come. -/
theorem path_conflicts_exact (entries : List ZipEntry)
    (alone : ∀ entry ∈ entries, PassesAlone I B entry) :
    (LoopAccepts I B entries ↔
      ConflictFree I B entries ∧ expandedSize entries ≤ maxBinaryExpandedBytes B) ∧
    (expandedSize entries ≤ maxBinaryExpandedBytes B →
      (LoopAccepts I B entries ↔ ConflictFree I B entries)) ∧
    ∀ reordered, entries.Perm reordered →
      (LoopAccepts I B entries ↔ LoopAccepts I B reordered) := by
  have accepted := loopAccepts_iff I B alone
  refine ⟨accepted, ?_, ?_⟩
  · intro fits
    rw [accepted]
    exact and_iff_left fits
  · intro reordered same
    have reorderedAlone : ∀ entry ∈ reordered, PassesAlone I B entry := by
      intro entry member
      exact alone entry (same.mem_iff.mpr member)
    rw [accepted, loopAccepts_iff I B reorderedAlone, conflictFree_perm I B same,
      expandedSize_perm same]

/-! ## A file and a path below it -/

/-- An empty file of that path. -/
def emptyFile (path : String) : ZipEntry :=
  StoredFile.entry ⟨payloadName path, 0, []⟩ (some 0o100644)
    (some (binaryArchiveRoot ++ "/" ++ path))

theorem passesAlone_of_isOk {entry : ZipEntry}
    (isOk : (scanEntry I B 0 .start entry).isOk = true) : PassesAlone I B entry := by
  cases outcome : scanEntry I B 0 .start entry with
  | error error =>
      rw [outcome] at isOk
      contradiction
  | ok scan => exact ⟨scan, outcome⟩

/-- `A/b` cannot stand beside the file `a`, with `a-b` between them or not. -/
theorem path_conflicts_sample :
    ¬ LoopAccepts toolRegistry toolInterfaces [emptyFile "A/b", emptyFile "a-b", emptyFile "a"] ∧
      ¬ LoopAccepts toolRegistry toolInterfaces
        [emptyFile "a", emptyFile "A/b", emptyFile "a-b"] ∧
      LoopAccepts toolRegistry toolInterfaces [emptyFile "A/b", emptyFile "a-b"] := by
  have alone : ∀ entry ∈ [emptyFile "A/b", emptyFile "a-b", emptyFile "a"],
      PassesAlone toolRegistry toolInterfaces entry := by
    have checked : ∀ entry ∈ [emptyFile "A/b", emptyFile "a-b", emptyFile "a"],
        (scanEntry toolRegistry toolInterfaces 0 .start entry).isOk = true := by
      decide +kernel
    intro entry member
    exact passesAlone_of_isOk _ _ (checked entry member)
  have keys : entryKey toolRegistry toolInterfaces (emptyFile "A/b") = some "a/b" ∧
      entryKey toolRegistry toolInterfaces (emptyFile "a-b") = some "a-b" ∧
      entryKey toolRegistry toolInterfaces (emptyFile "a") = some "a" := by
    decide +kernel
  obtain ⟨below, beside, above⟩ := keys
  have conflict : Conflicts toolRegistry toolInterfaces (emptyFile "A/b") (emptyFile "a") :=
    ⟨_, _, below, above, Or.inr (Or.inr ⟨rfl, by decide⟩)⟩
  have exact := path_conflicts_exact toolRegistry toolInterfaces _ alone
  have refused : ¬ LoopAccepts toolRegistry toolInterfaces
      [emptyFile "A/b", emptyFile "a-b", emptyFile "a"] := by
    intro accepted
    have free := (exact.1.mp accepted).1
    exact List.rel_of_pairwise_cons free (by simp) conflict
  refine ⟨refused, ?_, ?_⟩
  · intro accepted
    exact refused ((exact.2.2 _ (@List.perm_append_comm _ [_, _] [_])).mpr accepted)
  · have two := path_conflicts_exact toolRegistry toolInterfaces
      [emptyFile "A/b", emptyFile "a-b"] fun entry member =>
        alone entry (List.mem_append_left [_] member)
    refine two.1.mpr ⟨List.pairwise_pair.mpr ?_, by decide +kernel⟩
    rintro ⟨left, right, isLeft, isRight, kinds⟩
    obtain rfl := Option.some.inj (below.symm.trans isLeft)
    obtain rfl := Option.some.inj (beside.symm.trans isRight)
    revert kinds
    decide

end ZedRegistry
