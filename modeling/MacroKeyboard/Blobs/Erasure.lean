import MacroKeyboard.Blobs.ScanReport

namespace MacroKeyboard.Blobs.Erasure

open ScanReport

/-- The failures of single calls when all blobs are deleted: of the stat in the scan, and
of the stat and the unlink of the deletion. -/
structure Failures where
  scanStat : Name → Bool
  stat : Name → Option Errno
  unlink : Name → Option Errno

def Failures.scanCalls (failures : Failures) : ScanCalls :=
  { ScanCalls.working with statPath := fun name => !failures.scanStat name }

/-- `storage_blob_delete_with_ops`. -/
def deleteBlob (failures : Failures) (blobId : Nat) (directory : Directory) : AppError × Directory :=
  if blobId = 0 then (.invalidArgument, directory)
  else
    match failures.stat (formatFilename blobId), directory.lookup (formatFilename blobId) with
    | some fault, _ => (pathError fault, directory)
    | none, none => (pathError .enoent, directory)
    | none, some .directory => (.storageCorrupt, directory)
    | none, some (.file content) =>
      if content.length > sizeMax then (.storageCorrupt, directory)
      else
        match failures.unlink (formatFilename blobId) with
        | some fault => (pathError fault, directory)
        | none => (.none, directory.erase (formatFilename blobId))

/-- The state of `storage_blob_delete_all_with_ops`, with the directory it works on. -/
structure DeleteAllState where
  firstError : AppError
  deletedCount : Nat
  directory : Directory

def deleteAllVisitEntry (failures : Failures) (entry : BlobEntry) (state : DeleteAllState) : AppError × DeleteAllState :=
  let (result, directory) := deleteBlob failures entry.id state.directory
  if result = .none then (.none, { state with deletedCount := state.deletedCount + 1, directory })
  else (.none, { state with firstError := if state.firstError = .none then result else state.firstError, directory })

def deleteAllWithOps (failures : Failures) (reading : DirectoryReading) : AppError × Nat × Directory :=
  let (scanned, _, state) := scanWithOps failures.scanCalls (.entriesOnly (deleteAllVisitEntry failures)) reading.stream 0
    ⟨.none, 0, reading.directory⟩
  (if scanned ≠ .none then scanned else state.firstError, state.deletedCount, state.directory)

def Deletable (failures : Failures) (blob : BlobEntry) : Prop :=
  failures.stat (formatFilename blob.id) = none ∧ failures.unlink (formatFilename blob.id) = none

def Erasable (failures : Failures) (blob : BlobEntry) : Prop :=
  failures.scanStat (formatFilename blob.id) = false ∧ Deletable failures blob

/-- Every blob whose own stat and unlink succeed is gone, nothing else is, and the result
is a success exactly when no blob is left. -/
structure Erased (failures : Failures) (before : Directory) (result : AppError) (after : Directory) : Prop where
  directory : ∀ name node, after.lookup name = some node ↔ before.lookup name = some node ∧
    ¬ ∃ blob, IsBlob before blob ∧ name = formatFilename blob.id ∧ Erasable failures blob
  result : result = .none ↔ ∀ blob, ¬ IsBlob after blob

/-- No stat of a file of the repository fails in the scan, and no blob is at the limit of
the identifiers. -/
def ScanCompletes (failures : Failures) (directory : Directory) : Prop :=
  (∀ name node, directory.lookup name = some node → isNamed name = true → failures.scanStat name = false) ∧
    ∀ blob, IsBlob directory blob → blob.id ≠ uint64Max

section Deletion

variable (failures : Failures) {directory : Directory} {blob : BlobEntry}

theorem pathError_ne_none (fault : Errno) : pathError fault ≠ .none := by
  cases fault with
  | enoent | enospc | other => exact nofun

theorem deleteBlob_cases (hblob : IsBlob directory blob) (hsize : blob.storedBytes ≤ sizeMax) :
    (deleteBlob failures blob.id directory = (.none, directory.erase (formatFilename blob.id)) ∧ Deletable failures blob) ∨
    (∃ error, error ≠ .none ∧ deleteBlob failures blob.id directory = (error, directory) ∧ ¬ Deletable failures blob) := by
  obtain ⟨hpositive, -, content, hlookup, hstored⟩ := hblob
  have hfits : ¬ content.length > sizeMax := by omega
  unfold deleteBlob Deletable
  rw [if_neg (Nat.ne_of_gt hpositive), hlookup]
  cases hstat : failures.stat (formatFilename blob.id) with
  | some fault =>
    right
    exact ⟨pathError fault, pathError_ne_none fault, rfl, fun h => Option.some_ne_none _ h.1⟩
  | none =>
    dsimp only
    rw [if_neg hfits]
    cases hunlink : failures.unlink (formatFilename blob.id) with
    | some fault =>
      right
      exact ⟨pathError fault, pathError_ne_none fault, rfl, fun h => Option.some_ne_none _ h.2⟩
    | none =>
      left
      exact ⟨rfl, rfl, rfl⟩

theorem isBlob_erase {other : BlobEntry} (hblob : IsBlob directory blob) (hother : IsBlob directory other)
    (hne : other.id ≠ blob.id) : IsBlob (directory.erase (formatFilename blob.id)) other := by
  obtain ⟨hpositive, hmax, -⟩ := hblob
  obtain ⟨hother₁, hother₂, content, hlookup, hstored⟩ := hother
  refine ⟨hother₁, hother₂, content, ?_, hstored⟩
  rw [AList.lookup_erase_ne, hlookup]
  intro heq
  exact hne (formatFilename_injective hother₁ hother₂ hpositive hmax heq)

theorem visit_cases {state : DeleteAllState} (hblob : IsBlob state.directory blob) (hsize : blob.storedBytes ≤ sizeMax) :
    ∃ next, deleteAllVisitEntry failures blob state = (.none, next) ∧
      ((next.firstError = state.firstError ∧ next.directory = state.directory.erase (formatFilename blob.id) ∧
        Deletable failures blob) ∨
      (next.firstError ≠ .none ∧ next.directory = state.directory ∧ ¬ Deletable failures blob)) := by
  unfold deleteAllVisitEntry
  rcases deleteBlob_cases failures hblob hsize with ⟨heq, hdeletable⟩ | ⟨error, herror, heq, hdeletable⟩
  · rw [heq]
    exact ⟨_, rfl, Or.inl ⟨rfl, rfl, hdeletable⟩⟩
  · rw [heq]
    dsimp only
    rw [if_neg herror]
    refine ⟨_, rfl, Or.inr ⟨?_, rfl, hdeletable⟩⟩
    dsimp only
    split
    · exact herror
    · next hfirst => exact hfirst

/-- The visits of different blobs: those that can be deleted are gone, and the first error
is of those that cannot. -/
theorem notifyEntries_delete (entries : List BlobEntry) (state : DeleteAllState)
    (hblobs : ∀ blob ∈ entries, IsBlob state.directory blob ∧ blob.storedBytes ≤ sizeMax)
    (hnodup : (entries.map BlobEntry.id).Nodup) :
    let outcome := notifyEntries (.entriesOnly (deleteAllVisitEntry failures)) entries state
    outcome.1 = .none ∧
    (outcome.2.firstError = .none ↔ state.firstError = .none ∧ ∀ blob ∈ entries, Deletable failures blob) ∧
    (∀ name node, outcome.2.directory.lookup name = some node ↔ state.directory.lookup name = some node ∧
      ¬ ∃ blob ∈ entries, name = formatFilename blob.id ∧ Deletable failures blob) := by
  induction entries generalizing state with
  | nil =>
    refine ⟨rfl, ⟨fun h => ⟨h, fun _ hmem => absurd hmem List.not_mem_nil⟩, fun h => h.1⟩, ?_⟩
    intro name node
    constructor
    · intro h
      refine ⟨h, ?_⟩
      rintro ⟨other, hmem, -⟩
      exact absurd hmem List.not_mem_nil
    · exact fun h => h.1
  | cons blob rest ih =>
    rw [List.map_cons, List.nodup_cons] at hnodup
    rw [List.forall_mem_cons] at hblobs
    obtain ⟨⟨hblob, hsize⟩, hblobs⟩ := hblobs
    have hother : ∀ other ∈ rest, other.id ≠ blob.id := by
      intro other hmem heq
      exact hnodup.1 (List.mem_map.mpr ⟨other, hmem, heq⟩)
    obtain ⟨next, hvisit, hnext⟩ := visit_cases failures hblob hsize
    have hrest : ∀ other ∈ rest, IsBlob next.directory other ∧ other.storedBytes ≤ sizeMax := by
      intro other hmem
      obtain ⟨hin, hfits⟩ := hblobs other hmem
      refine ⟨?_, hfits⟩
      rcases hnext with ⟨-, hdirectory, -⟩ | ⟨-, hdirectory, -⟩
      · rw [hdirectory]
        exact isBlob_erase hblob hin (hother other hmem)
      · rw [hdirectory]
        exact hin
    obtain ⟨hnone, hfirst, hlookup⟩ := ih next hrest hnodup.2
    have hunfold : notifyEntries (.entriesOnly (deleteAllVisitEntry failures)) (blob :: rest) state =
        notifyEntries (.entriesOnly (deleteAllVisitEntry failures)) rest next := by
      rw [notifyEntries]
      exact congrArg (fun outcome : AppError × DeleteAllState =>
        if outcome.1 ≠ .none then (outcome.1, outcome.2)
        else notifyEntries (.entriesOnly (deleteAllVisitEntry failures)) rest outcome.2) hvisit
    dsimp only
    rw [hunfold]
    refine ⟨hnone, ?_, ?_⟩
    · rw [hfirst, List.forall_mem_cons]
      rcases hnext with ⟨hsame, -, hdeletable⟩ | ⟨herror, -, hdeletable⟩
      · rw [hsame]
        exact ⟨fun h => ⟨h.1, hdeletable, h.2⟩, fun h => ⟨h.1, h.2.2⟩⟩
      · exact ⟨fun h => absurd h.1 herror, fun h => absurd h.2.1 hdeletable⟩
    · intro name node
      rw [hlookup]
      simp only [List.exists_mem_cons_iff, not_or]
      rcases hnext with ⟨-, hdirectory, hdeletable⟩ | ⟨-, hdirectory, hdeletable⟩
      · rw [hdirectory]
        by_cases hname : name = formatFilename blob.id
        · rw [hname, AList.lookup_erase]
          exact ⟨fun h => (Option.some_ne_none _ h.1.symm).elim, fun h => absurd ⟨rfl, hdeletable⟩ h.2.1⟩
        · rw [AList.lookup_erase_ne hname]
          exact ⟨fun h => ⟨h.1, fun hboth => hname hboth.1, h.2⟩, fun h => ⟨h.1, h.2.2⟩⟩
      · rw [hdirectory]
        exact ⟨fun h => ⟨h.1, fun hboth => hdeletable hboth.2, h.2⟩, fun h => ⟨h.1, h.2.2⟩⟩

end Deletion

section Reading

variable {failures : Failures} {reading : DirectoryReading}

theorem greatestId_limit :
    greatestId (blobsOf reading) = some uint64Max ↔ ∃ blob, IsBlob reading.directory blob ∧ blob.id = uint64Max := by
  rcases maxId_spec (blobsOf reading) with ⟨hempty, hnone⟩ | ⟨greatest, hsome, hall, blob, hmem, hid⟩
  · rw [greatestId, hnone]
    constructor
    · exact nofun
    · rintro ⟨blob, hblob, -⟩
      have hmem := mem_blobsOf.mpr hblob
      rw [hempty] at hmem
      exact absurd hmem List.not_mem_nil
  · rw [greatestId, hsome]
    constructor
    · intro heq
      exact ⟨blob, mem_blobsOf.mp hmem, hid.trans (Option.some.inj heq)⟩
    · rintro ⟨other, hother, hlimit⟩
      have hle := hall other (mem_blobsOf.mpr hother)
      have hmax := (mem_blobsOf.mp hmem).2.1
      congr 1
      omega

theorem scanCompletes_iff : ScanCompletes failures reading.directory ↔
    StatsSucceed failures.scanCalls reading ∧ greatestId (blobsOf reading) ≠ some uint64Max := by
  have hstats : StatsSucceed failures.scanCalls reading ↔ ∀ name node, reading.directory.lookup name = some node →
      isNamed name = true → failures.scanStat name = false := by
    constructor
    · intro h name node hlookup hnamed
      have hstat := h (name, node) (mem_entriesOf.mpr hlookup) hnamed
      exact Bool.not_eq_true' _ ▸ hstat
    · rintro h ⟨name, node⟩ hmem hnamed
      exact (Bool.not_eq_true' _).mpr (h name node (mem_entriesOf.mp hmem) hnamed)
  rw [hstats, ScanCompletes, Ne, greatestId_limit, not_exists]
  simp only [not_and, ne_eq]

theorem scanCalls_working (failures : Failures) : failures.scanCalls.Working :=
  ⟨rfl, fun _ => rfl, fun _ => rfl, rfl⟩

theorem storedBytes_le {blob : BlobEntry} (hblob : IsBlob reading.directory blob) : blob.storedBytes ≤ sizeMax := by
  obtain ⟨-, -, content, hlookup, hstored⟩ := hblob
  have hin := (List.mem_filter.mp (mem_entriesOf.mpr hlookup)).1
  have hlt := reading.sizes _ hin content rfl
  unfold sizeMax
  omega

/-- Either the scan ends with an error before any deletion, or all blobs are visited. -/
theorem deleteAllWithOps_cases (failures : Failures) (reading : DirectoryReading) :
    (∃ error, error ≠ .none ∧ deleteAllWithOps failures reading = (error, 0, reading.directory) ∧
      ¬ ScanCompletes failures reading.directory) ∨
    (∃ outcome : AppError × DeleteAllState,
      outcome = notifyEntries (.entriesOnly (deleteAllVisitEntry failures)) (sortNewestFirst (blobsOf reading))
        ⟨.none, 0, reading.directory⟩ ∧
      deleteAllWithOps failures reading =
        (if outcome.1 ≠ .none then outcome.1 else outcome.2.firstError, outcome.2.deletedCount, outcome.2.directory) ∧
      ScanCompletes failures reading.directory) := by
  unfold deleteAllWithOps
  rcases scanWithOps_cases failures.scanCalls (deleteAllVisitEntry failures) reading 0
    ⟨.none, 0, reading.directory⟩ with ⟨error, summary, herror, heq, hwhy, -⟩ | ⟨nextId, hnext, hstats, heq⟩
  · left
    rw [heq]
    dsimp only
    rw [if_pos herror]
    refine ⟨error, herror, rfl, ?_⟩
    rw [scanCompletes_iff]
    rintro ⟨hstats, hlimit⟩
    rcases hwhy (scanCalls_working failures) with hfailed | hgreatest
    · exact hfailed hstats
    · exact hlimit hgreatest
  · right
    rw [heq]
    refine ⟨_, rfl, rfl, scanCompletes_iff.mpr ⟨hstats, ?_⟩⟩
    intro hlimit
    rw [hlimit] at hnext
    cases hnext

/-- With the scan completed the deletion does what it should. -/
theorem erased_of_completes (hcompletes : ScanCompletes failures reading.directory) :
    Erased failures reading.directory (deleteAllWithOps failures reading).1 (deleteAllWithOps failures reading).2.2 := by
  rcases deleteAllWithOps_cases failures reading with ⟨-, -, -, hnot⟩ | ⟨outcome, houtcome, heq, -⟩
  · exact absurd hcompletes hnot
  have hperm := sort_perm (blobsOf reading)
  have hmem : ∀ blob, blob ∈ sortNewestFirst (blobsOf reading) ↔ IsBlob reading.directory blob := by
    intro blob
    rw [hperm.mem_iff, mem_blobsOf]
  obtain ⟨hnone, hfirst, hlookup⟩ := notifyEntries_delete failures (sortNewestFirst (blobsOf reading))
    ⟨.none, 0, reading.directory⟩ (fun blob h => ⟨(hmem blob).mp h, storedBytes_le ((hmem blob).mp h)⟩)
    ((hperm.map BlobEntry.id).nodup_iff.mpr (nodup_blobsOf reading))
  rw [← houtcome] at hnone hfirst hlookup
  rw [heq, if_neg (not_not_intro hnone)]
  have herasable : ∀ blob, IsBlob reading.directory blob → (Erasable failures blob ↔ Deletable failures blob) := by
    rintro blob ⟨hpositive, hmax, content, hfile, -⟩
    have hnamed : isNamed (formatFilename blob.id) = true := by
      rw [isNamed, parseFilename_format hpositive hmax]
      rfl
    exact ⟨fun h => h.2, fun h => ⟨hcompletes.1 _ _ hfile hnamed, h⟩⟩
  constructor
  · intro name node
    rw [hlookup]
    refine and_congr_right fun _ => not_congr ⟨?_, ?_⟩
    · rintro ⟨blob, hin, hname, hdeletable⟩
      exact ⟨blob, (hmem blob).mp hin, hname, (herasable blob ((hmem blob).mp hin)).mpr hdeletable⟩
    · rintro ⟨blob, hblob, hname, hable⟩
      exact ⟨blob, (hmem blob).mpr hblob, hname, (herasable blob hblob).mp hable⟩
  · rw [hfirst]
    constructor
    · rintro ⟨-, hall⟩ blob ⟨hpositive, hmax, content, hfile, hstored⟩
      obtain ⟨hbefore, hkept⟩ := (hlookup _ _).mp hfile
      have hin := (hmem blob).mpr ⟨hpositive, hmax, content, hbefore, hstored⟩
      exact hkept ⟨blob, hin, rfl, hall blob hin⟩
    · intro hnoblob
      refine ⟨rfl, ?_⟩
      intro blob hin
      by_contra hnot
      obtain ⟨hpositive, hmax, content, hfile, hstored⟩ := (hmem blob).mp hin
      refine hnoblob blob ⟨hpositive, hmax, content, (hlookup _ _).mpr ⟨hfile, ?_⟩, hstored⟩
      rintro ⟨other, hother, hname, hdeletable⟩
      have hblob := (hmem other).mp hother
      have hid := formatFilename_injective hpositive hmax hblob.1 hblob.2.1 hname
      unfold Deletable at hnot hdeletable
      rw [hid] at hnot
      exact hnot hdeletable

/-- The blobs whose own stat and unlink succeed are erased, and success means that no blob
is left, exactly when the scan completes, or when there are blobs and none of them can be
erased. -/
theorem delete_all_erases (failures : Failures) (reading : DirectoryReading) :
    Erased failures reading.directory (deleteAllWithOps failures reading).1 (deleteAllWithOps failures reading).2.2 ↔
      ScanCompletes failures reading.directory ∨
        ((∃ blob, IsBlob reading.directory blob) ∧ ∀ blob, IsBlob reading.directory blob → ¬ Erasable failures blob) := by
  by_cases hcompletes : ScanCompletes failures reading.directory
  · exact ⟨fun _ => Or.inl hcompletes, fun _ => erased_of_completes hcompletes⟩
  rcases deleteAllWithOps_cases failures reading with ⟨error, herror, heq, -⟩ | ⟨-, -, -, hdone⟩
  · rw [heq]
    constructor
    · rintro ⟨hdirectory, hresult⟩
      right
      constructor
      · by_contra hnoblob
        exact herror (hresult.mpr fun blob hblob => hnoblob ⟨blob, hblob⟩)
      · intro blob hblob hable
        have hpresent := hblob
        obtain ⟨-, -, content, hfile, -⟩ := hpresent
        exact ((hdirectory _ _).mp hfile).2 ⟨blob, hblob, rfl, hable⟩
    · rintro (hdone | ⟨⟨blob, hblob⟩, hnone⟩)
      · exact absurd hdone hcompletes
      · refine ⟨fun name node => ⟨fun h => ⟨h, ?_⟩, fun h => h.1⟩, ⟨fun h => absurd h herror, fun h => absurd hblob (h blob)⟩⟩
        rintro ⟨other, hother, -, hable⟩
        exact hnone other hother hable
  · exact absurd hdone hcompletes

end Reading

def twoBlobs : DirectoryReading where
  directory := ⟨[⟨formatFilename 1, .file [7]⟩, ⟨formatFilename 2, .file [8]⟩], by unfold List.NodupKeys; decide +kernel⟩
  stream := [(formatFilename 1, .file [7]), (formatFilename 2, .file [8])]
  complete := by
    have hsame : entriesOf [(formatFilename 1, .file [7]), (formatFilename 2, .file [8])] =
        [(formatFilename 1, .file [7]), (formatFilename 2, .file [8])] := by decide +kernel
    exact List.Perm.of_eq hsame
  sizes := by
    intro entry hmem content hcontent
    simp only [List.mem_cons, List.not_mem_nil, or_false] at hmem
    rcases hmem with rfl | rfl
    all_goals cases hcontent
    all_goals decide

/-- One stat that fails in the scan keeps the other blob from being erased. -/
theorem stat_failure_strands :
    ¬ Erased ⟨fun name => name == formatFilename 2, fun _ => none, fun _ => none⟩ twoBlobs.directory
      (deleteAllWithOps ⟨fun name => name == formatFilename 2, fun _ => none, fun _ => none⟩ twoBlobs).1
      (deleteAllWithOps ⟨fun name => name == formatFilename 2, fun _ => none, fun _ => none⟩ twoBlobs).2.2 := by
  rintro ⟨hdirectory, -⟩
  have hbefore : twoBlobs.directory.lookup (formatFilename 1) = some (.file [7]) := by decide +kernel
  have hafter : (deleteAllWithOps ⟨fun name => name == formatFilename 2, fun _ => none, fun _ => none⟩
      twoBlobs).2.2.lookup (formatFilename 1) = some (.file [7]) := by decide +kernel
  have hkept := ((hdirectory _ _).mp hafter).2
  apply hkept
  refine ⟨⟨1, 1⟩, ⟨by decide, by decide, [7], hbefore, rfl⟩, rfl, ?_, rfl, rfl⟩
  decide +kernel

end MacroKeyboard.Blobs.Erasure
