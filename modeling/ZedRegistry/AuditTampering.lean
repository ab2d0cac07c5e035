import ZedRegistry.AuditChain

/-!
# Where tampering is reported

`verifyChain` stops at the first row that does not continue the rows before
it.  An edited row, a removed block and a relinked row each stop it at one
place with one diagnosis, whatever comes after.
-/

set_option autoImplicit false

namespace ZedRegistry

open DigestChain

/-- The loop state once `row` has passed. -/
def ChainWalk.past (walk : ChainWalk) (row : AuditLog) : ChainWalk :=
  ⟨row.entryHash, some (wrapI64 (row.seq + 1)), walk.checked + 1, some row.entryHash⟩

/-- The report of a walk that passed `earlier` and stopped at `seq`. -/
def stoppedAfter (earlier : List AuditLog) (seq : Int) (problem : ChainProblem) : ChainReport :=
  ⟨false, (chainedRows earlier).length, some seq, some problem,
    (chainedRows earlier).getLast?.map AuditLog.entryHash⟩

theorem foldl_past (rows : List AuditLog) :
    rows.foldl ChainWalk.past .initial =
      ⟨rows.getLast?.elim "" AuditLog.entryHash,
        rows.getLast?.map fun row => wrapI64 (row.seq + 1), rows.length,
        rows.getLast?.map AuditLog.entryHash⟩ := by
  induction rows using List.reverseRecOn with
  | nil => rfl
  | append_singleton early row ih =>
      rw [List.foldl_append, ih]
      simp [ChainWalk.past]

/-- A walk that passed `earlier` and then breaks gives `stoppedAfter`. -/
theorem foldl_past_broken (earlier : List AuditLog) (seq : Int) (problem : ChainProblem) :
    ((chainedRows earlier).foldl ChainWalk.past .initial).broken seq problem =
      stoppedAfter earlier seq problem := by
  rw [foldl_past]
  rfl

theorem chainedRows_cons {row : AuditLog} (chained : row.isChained = true)
    (rows : List AuditLog) : chainedRows (row :: rows) = row :: chainedRows rows := by
  rw [chainedRows, List.filter_cons, if_pos chained]
  rfl

section Localization

variable (timestamps : Timestamps) (auditChainPreimage : AuditChainInput → String)
  (sha256 : Bytes → String)

/-! ## The first row that does not continue the log -/

theorem verifyRows_append (walk : ChainWalk) (early late : List AuditLog)
    (intact : (verifyRows timestamps auditChainPreimage sha256 walk early).intact = true) :
    verifyRows timestamps auditChainPreimage sha256 walk (early ++ late) =
      verifyRows timestamps auditChainPreimage sha256 (early.foldl ChainWalk.past walk) late := by
  induction early generalizing walk with
  | nil => rfl
  | cons row rest ih =>
      cases outcome : verifyRow timestamps auditChainPreimage sha256 walk row with
      | error report =>
          have broken := verifyRow_error_not_intact timestamps auditChainPreimage sha256 outcome
          simp [verifyRows, outcome, broken] at intact
      | ok next =>
          have passed :=
            ((verifyRow_ok_iff timestamps auditChainPreimage sha256 walk next row).mp outcome).2.2
          simp only [verifyRows, outcome] at intact
          simp only [List.cons_append, verifyRows, outcome, List.foldl_cons]
          rw [ih next intact, passed]
          rfl

theorem verifyRow_gap {walk : ChainWalk} {row : AuditLog} {want : Int}
    (expected : walk.expectedSeq = some want) (other : row.seq ≠ want) :
    verifyRow timestamps auditChainPreimage sha256 walk row =
      .error (walk.broken want .sequenceGap) := by
  have gap : walk.expectedSeq.filter (fun want => row.seq != want) = some want := by
    rw [expected, Option.filter_some, if_pos (by simpa using other)]
  rw [verifyRow, gap]

/-- A row in sequence whose digest is wrong for the row before it. -/
theorem verifyRow_wrongDigest {walk : ChainWalk} {row : AuditLog}
    (order : ∀ seq, walk.expectedSeq = some seq → row.seq = seq)
    (wrong : expectedHash timestamps auditChainPreimage sha256 row walk.prevHash ≠
      row.entryHash) :
    verifyRow timestamps auditChainPreimage sha256 walk row =
      .error (walk.broken row.seq
        (if expectedHash timestamps auditChainPreimage sha256 row (row.prevHash.getD "") =
            row.entryHash then .brokenLink else .hashMismatch)) := by
  have noGap : walk.expectedSeq.filter (fun want => row.seq != want) = none := by
    cases expected : walk.expectedSeq with
    | none => rfl
    | some want => simp [order want expected]
  simp [verifyRow, noGap, wrong]

theorem verifyChain_stops {early : List AuditLog}
    (intact : (verifyChain timestamps auditChainPreimage sha256 early).intact = true)
    {row : AuditLog} {rest late : List AuditLog} (next : chainedRows late = row :: rest)
    {report : ChainReport}
    (stops : verifyRow timestamps auditChainPreimage sha256
      ((chainedRows early).foldl ChainWalk.past .initial) row = .error report) :
    verifyChain timestamps auditChainPreimage sha256 (early ++ late) = report := by
  have split : chainedRows (early ++ late) = chainedRows early ++ row :: rest := by
    rw [chainedRows, List.filter_append, ← chainedRows, ← chainedRows, next]
  rw [verifyChain, split, verifyRows_append _ _ _ _ _ _ intact, verifyRows, stops]

/-! ## What an intact log says of one of its rows -/

variable {timestamps auditChainPreimage sha256}

theorem intact_parts {before later : List AuditLog} {row : AuditLog}
    (chained : row.isChained = true)
    (intact : (verifyChain timestamps auditChainPreimage sha256
      (before ++ row :: later)).intact = true) :
    (verifyChain timestamps auditChainPreimage sha256 before).intact = true ∧
      ContinuesHash timestamps auditChainPreimage sha256 (chainedRows before).getLast? row ∧
      EachFollows (ContinuesHash timestamps auditChainPreimage sha256) (some row)
        (chainedRows later) := by
  have early := verifyChain_intact_of_append timestamps auditChainPreimage sha256 intact
  rw [verifyChain_intact_iff_continuesHash, chainedRows, List.filter_append, ← chainedRows,
    ← chainedRows, chainedRows_cons chained] at intact
  have follows := ((eachFollows_append _ _ _ _).mp intact).2
  rw [Option.or_none] at follows
  exact ⟨early, follows⟩

/-- A row with the same `seq` is in sequence where `row` was. -/
theorem ContinuesHash.inSequence {before : List AuditLog} {row : AuditLog}
    (continues : ContinuesHash timestamps auditChainPreimage sha256
      (chainedRows before).getLast? row) (seq : Int)
    (expected : ((chainedRows before).foldl ChainWalk.past .initial).expectedSeq = some seq) :
    row.seq = seq := by
  rw [foldl_past] at expected
  obtain ⟨last, isLast, rfl⟩ := Option.map_eq_some_iff.mp expected
  have next := continues.1 last isLast
  rw [← next, wrapI64_of_fits row.seqFits]

theorem seq_increases {previous : AuditLog} {rows : List AuditLog}
    (follows : EachFollows (ContinuesHash timestamps auditChainPreimage sha256) (some previous)
      rows) : ∀ row ∈ rows, previous.seq < row.seq := by
  induction rows generalizing previous with
  | nil => simp
  | cons next rest ih =>
      obtain ⟨continues, later⟩ := follows
      have order : next.seq = previous.seq + 1 := continues.1 previous rfl
      intro row member
      rcases List.mem_cons.mp member with rfl | member
      · omega
      · have beyond := ih later row member
        omega

/-! ## The three diagnoses -/

theorem edited_row_is_hashMismatch (ideal : CollisionFree sha256)
    (injective : Function.Injective auditChainPreimage)
    (rendered : Function.Injective timestamps.toRfc3339)
    {before later : List AuditLog} {row changed : AuditLog} (chained : row.isChained = true)
    (intact : (verifyChain timestamps auditChainPreimage sha256
      (before ++ row :: later)).intact = true)
    (sameSeq : changed.seq = row.seq) (sameHash : changed.entryHash = row.entryHash)
    (edited : changed.hashedFields ≠ row.hashedFields) :
    verifyChain timestamps auditChainPreimage sha256 (before ++ changed :: later) =
      stoppedAfter before row.seq .hashMismatch := by
  obtain ⟨early, continues, _⟩ := intact_parts chained intact
  have stillChained : changed.isChained = true := by
    rw [isChained_iff, sameSeq, sameHash]
    exact (isChained_iff row).mp chained
  -- the recorded hash is the one of the original fields, so no link value restores it
  have wrong : ∀ link,
      expectedHash timestamps auditChainPreimage sha256 changed link ≠ changed.entryHash := by
    intro link same
    rw [sameHash, ← continues.2] at same
    exact edited (expectedHash_binds ideal injective rendered _ _ _ _ same).1
  have stops := verifyRow_wrongDigest timestamps auditChainPreimage sha256
    (fun seq expected => sameSeq.trans (continues.inSequence seq expected)) (wrong _)
  rw [if_neg (wrong _), foldl_past_broken, sameSeq] at stops
  exact verifyChain_stops timestamps auditChainPreimage sha256 early
    (chainedRows_cons stillChained later) stops

theorem removed_block_is_sequenceGap {early block late : List AuditLog} {missing : AuditLog}
    (intact : (verifyChain timestamps auditChainPreimage sha256
      (early ++ block ++ late)).intact = true)
    (notFirst : chainedRows early ≠ []) (removed : (chainedRows block).head? = some missing)
    (notLast : chainedRows late ≠ []) :
    verifyChain timestamps auditChainPreimage sha256 (early ++ late) =
      stoppedAfter early missing.seq .sequenceGap := by
  obtain ⟨rest, blockRows⟩ := List.head?_eq_some_iff.mp removed
  obtain ⟨next, later, lateRows⟩ := List.exists_cons_of_ne_nil notLast
  have earlyIntact : (verifyChain timestamps auditChainPreimage sha256 early).intact = true := by
    rw [List.append_assoc] at intact
    exact verifyChain_intact_of_append timestamps auditChainPreimage sha256 intact
  rw [verifyChain_intact_iff_continuesHash, List.append_assoc, chainedRows, List.filter_append,
    List.filter_append, ← chainedRows, ← chainedRows, ← chainedRows, blockRows, lateRows] at intact
  obtain ⟨continues, follows⟩ := ((eachFollows_append _ _ _ _).mp intact).2
  rw [Option.or_none] at continues
  have beyond : missing.seq < next.seq := seq_increases follows next (by simp)
  obtain ⟨last, isLast⟩ := Option.ne_none_iff_exists'.mp
    (mt List.getLast?_eq_none_iff.mp notFirst)
  have expected :
      ((chainedRows early).foldl ChainWalk.past .initial).expectedSeq = some missing.seq := by
    have inSequence := continues.1 last isLast
    rw [foldl_past, isLast, Option.map_some, ← inSequence, wrapI64_of_fits missing.seqFits]
  have stops := verifyRow_gap timestamps auditChainPreimage sha256 expected
    (show next.seq ≠ missing.seq by omega)
  rw [foldl_past_broken] at stops
  exact verifyChain_stops timestamps auditChainPreimage sha256 earlyIntact lateRows stops

theorem relinked_row_is_brokenLink (ideal : CollisionFree sha256)
    (injective : Function.Injective auditChainPreimage)
    (rendered : Function.Injective timestamps.toRfc3339)
    {before later : List AuditLog} {row forged : AuditLog} (chained : row.isChained = true)
    (intact : (verifyChain timestamps auditChainPreimage sha256
      (before ++ row :: later)).intact = true)
    (sameSeq : forged.seq = row.seq)
    (rightForColumn : forged.entryHash = expectedHash timestamps auditChainPreimage sha256
      forged (forged.prevHash.getD ""))
    (otherLink : forged.prevHash.getD "" ≠
      (chainedRows before).getLast?.elim "" AuditLog.entryHash) :
    verifyChain timestamps auditChainPreimage sha256 (before ++ forged :: later) =
      stoppedAfter before row.seq .brokenLink := by
  obtain ⟨early, continues, _⟩ := intact_parts chained intact
  have stillChained : forged.isChained = true := by
    rw [isChained_iff, sameSeq, rightForColumn]
    exact ⟨((isChained_iff row).mp chained).1, ideal.nonempty _⟩
  have wrong : expectedHash timestamps auditChainPreimage sha256 forged
      ((chainedRows before).foldl ChainWalk.past .initial).prevHash ≠ forged.entryHash := by
    rw [foldl_past, rightForColumn]
    intro same
    exact otherLink (expectedHash_binds ideal injective rendered _ _ _ _ same).2.symm
  have stops := verifyRow_wrongDigest timestamps auditChainPreimage sha256
    (fun seq expected => sameSeq.trans (continues.inSequence seq expected)) wrong
  rw [if_pos rightForColumn.symm, foldl_past_broken, sameSeq] at stops
  exact verifyChain_stops timestamps auditChainPreimage sha256 early
    (chainedRows_cons stillChained later) stops

/-- Tampering is reported at the row it happened to, with every row before it
checked. -/
theorem verifyChain_localizes_tampering (ideal : CollisionFree sha256)
    (injective : Function.Injective auditChainPreimage)
    (rendered : Function.Injective timestamps.toRfc3339) :
    (∀ (before later : List AuditLog) (row changed : AuditLog), row.isChained = true →
      (verifyChain timestamps auditChainPreimage sha256
        (before ++ row :: later)).intact = true →
      changed.seq = row.seq → changed.entryHash = row.entryHash →
      changed.hashedFields ≠ row.hashedFields →
      verifyChain timestamps auditChainPreimage sha256 (before ++ changed :: later) =
        stoppedAfter before row.seq .hashMismatch) ∧
    (∀ (early block late : List AuditLog) (missing : AuditLog),
      (verifyChain timestamps auditChainPreimage sha256
        (early ++ block ++ late)).intact = true →
      chainedRows early ≠ [] → (chainedRows block).head? = some missing →
      chainedRows late ≠ [] →
      verifyChain timestamps auditChainPreimage sha256 (early ++ late) =
        stoppedAfter early missing.seq .sequenceGap) ∧
    (∀ (before later : List AuditLog) (row forged : AuditLog), row.isChained = true →
      (verifyChain timestamps auditChainPreimage sha256
        (before ++ row :: later)).intact = true →
      forged.seq = row.seq →
      forged.entryHash = expectedHash timestamps auditChainPreimage sha256 forged
        (forged.prevHash.getD "") →
      forged.prevHash.getD "" ≠ (chainedRows before).getLast?.elim "" AuditLog.entryHash →
      verifyChain timestamps auditChainPreimage sha256 (before ++ forged :: later) =
        stoppedAfter before row.seq .brokenLink) := by
  refine ⟨?_, ?_, ?_⟩
  · intro before later row changed chained intact sameSeq sameHash edited
    exact edited_row_is_hashMismatch ideal injective rendered chained intact sameSeq sameHash
      edited
  · intro early block late missing intact notFirst removed notLast
    exact removed_block_is_sequenceGap intact notFirst removed notLast
  · intro before later row forged chained intact sameSeq rightForColumn otherLink
    exact relinked_row_is_brokenLink ideal injective rendered chained intact sameSeq
      rightForColumn otherLink

end Localization

/-! ## Tampering with a sample log -/

def thirdHash : String :=
  "4e9cfd4e67c9195dcfcf0ca9c498b46be140c07a1e16216f972399a324e6655c"

def relinkedHash : String :=
  "ff7d9b2ff91ad282756ce7e5c75d41c8d5c8ab00d630bea357fa9c171856fd68"

def thirdEntry : AuditLog :=
  { firstEntry with
    action := "unyank"
    seq := 3
    entryHash := thirdHash
    prevHash := some secondHash
    seqFits := by decide }

/-- A row in place of the second one, hashed as if it were the first. -/
def relinkedEntry : AuditLog :=
  { firstEntry with
    action := "unyank"
    seq := 2
    entryHash := relinkedHash
    seqFits := fitsI64_two }

def tamperDigests : Bytes → String :=
  tabulated
    [(asBytes (netstringPreimage (chainInput civil firstEntry "")), firstHash),
      (asBytes (netstringPreimage (chainInput civil secondEntry firstHash)), secondHash),
      (asBytes (netstringPreimage (chainInput civil thirdEntry secondHash)), thirdHash),
      (asBytes (netstringPreimage (chainInput civil relinkedEntry "")), relinkedHash)]

theorem tamperDigests_collisionFree : CollisionFree tamperDigests :=
  tabulated_collisionFree (by decide) (by decide)

/-- Rows that differ in a field of their layouts have different preimages. -/
theorem netstring_bytes_ne {left right : AuditLog} {leftPrevious rightPrevious : String}
    (differ : (left.seq, left.action) ≠ (right.seq, right.action)) :
    asBytes (netstringPreimage (chainInput civil left leftPrevious)) ≠
      asBytes (netstringPreimage (chainInput civil right rightPrevious)) := by
  intro same
  have inputs := netstringPreimage_injective (asBytes_injective same)
  have fields := (chainInput_binds civil_lawful.toRfc3339_injective inputs).1
  apply differ
  rw [Prod.mk.injEq]
  exact ⟨congrArg HashedFields.seq fields, congrArg HashedFields.action fields⟩

theorem tampered_sample_intact :
    (verifyChain civil netstringPreimage tamperDigests
      [legacyEntry, firstEntry, secondEntry, thirdEntry]).intact = true := by
  have first : expectedHash civil netstringPreimage tamperDigests firstEntry "" = firstHash := by
    rw [expectedHash, entryDigest, tamperDigests, tabulated_self]
  have second :
      expectedHash civil netstringPreimage tamperDigests secondEntry firstHash = secondHash := by
    rw [expectedHash, entryDigest, tamperDigests,
      tabulated_other (netstring_bytes_ne (by decide)), tabulated_self]
  have third :
      expectedHash civil netstringPreimage tamperDigests thirdEntry secondHash = thirdHash := by
    rw [expectedHash, entryDigest, tamperDigests,
      tabulated_other (netstring_bytes_ne (by decide)),
      tabulated_other (netstring_bytes_ne (by decide)), tabulated_self]
  rw [verifyChain_intact_iff_continuesHash]
  refine ⟨⟨by simp, first⟩, ⟨?_, second⟩, ⟨?_, third⟩, trivial⟩
  all_goals
    rintro earlier ⟨⟩
    rfl

theorem relinkedEntry_hash :
    relinkedEntry.entryHash =
      expectedHash civil netstringPreimage tamperDigests relinkedEntry "" := by
  rw [expectedHash, entryDigest, tamperDigests,
    tabulated_other (netstring_bytes_ne (by decide)),
    tabulated_other (netstring_bytes_ne (by decide)),
    tabulated_other (netstring_bytes_ne (by decide)), tabulated_self]
  rfl

/-- The second of three rows edited, removed, and put in with another link. -/
theorem verifyChain_localizes_sample :
    verifyChain civil netstringPreimage tamperDigests
        [legacyEntry, firstEntry, { secondEntry with actorRole := "owner" }, thirdEntry] =
      ⟨false, 1, some 2, some .hashMismatch, some firstHash⟩ ∧
    verifyChain civil netstringPreimage tamperDigests [legacyEntry, firstEntry, thirdEntry] =
      ⟨false, 1, some 2, some .sequenceGap, some firstHash⟩ ∧
    verifyChain civil netstringPreimage tamperDigests
        [legacyEntry, firstEntry, relinkedEntry, thirdEntry] =
      ⟨false, 1, some 2, some .brokenLink, some firstHash⟩ := by
  obtain ⟨edited, removed, relinked⟩ := verifyChain_localizes_tampering
    tamperDigests_collisionFree netstringPreimage_injective civil_lawful.toRfc3339_injective
  refine ⟨?_, ?_, ?_⟩
  · have role : ({ secondEntry with actorRole := "owner" } : AuditLog).hashedFields ≠
        secondEntry.hashedFields := by
      intro same
      exact absurd (congrArg HashedFields.actorRole same) (by decide)
    exact edited [legacyEntry, firstEntry] [thirdEntry] secondEntry
      { secondEntry with actorRole := "owner" } rfl tampered_sample_intact rfl rfl role
  · exact removed [legacyEntry, firstEntry] [secondEntry] [thirdEntry] secondEntry
      tampered_sample_intact nofun rfl nofun
  · exact relinked [legacyEntry, firstEntry] [thirdEntry] secondEntry relinkedEntry rfl
      tampered_sample_intact rfl relinkedEntry_hash (by decide)

end ZedRegistry
