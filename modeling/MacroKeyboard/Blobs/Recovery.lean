import MacroKeyboard.Blobs.ScanReport

namespace MacroKeyboard.Blobs.Recovery

open ScanReport

structure RecoverCalls where
  openDirectory : Bool
  readDirectory : Nat → Bool
  statPath : Name → Bool
  unlinkPath : Name → Bool
  closeDirectory : Bool

structure RecoverCalls.Succeed (calls : RecoverCalls) : Prop where
  openDirectory : calls.openDirectory = true
  readDirectory : ∀ index, calls.readDirectory index = true
  statPath : ∀ name, calls.statPath name = true
  unlinkPath : ∀ name, calls.unlinkPath name = true
  closeDirectory : calls.closeDirectory = true

/-- The loop of `storage_blob_recover_with_ops`, over what the directory yields from a
read on, with the directory and the number of files removed from it so far. -/
def recoverStream (calls : RecoverCalls) :
    Nat → List (Name × Node) → Directory → Nat → AppError × Directory × Nat
  | index, [], directory, removed => (if calls.readDirectory index then .none else .io, directory, removed)
  | index, (name, node) :: rest, directory, removed =>
    if ¬ calls.readDirectory index then (.io, directory, removed)
    else if isDotEntry name then recoverStream calls (index + 1) rest directory removed
    else if (parseTemporaryFilename name).isNone then recoverStream calls (index + 1) rest directory removed
    else if ¬ calls.statPath name then (.io, directory, removed)
    else if ¬ isFile (some node) then recoverStream calls (index + 1) rest directory removed
    else if ¬ calls.unlinkPath name then (.io, directory, removed)
    else recoverStream calls (index + 1) rest (directory.erase name) (removed + 1)

def recoverWithOps (calls : RecoverCalls) (reading : DirectoryReading) : AppError × Directory × Nat :=
  if ¬ calls.openDirectory then (.io, reading.directory, 0)
  else
    let (result, directory, removed) := recoverStream calls 0 reading.stream reading.directory 0
    (if ¬ calls.closeDirectory ∧ result = .none then .io else result, directory, removed)

section Stream

variable (calls : RecoverCalls)

/-- One entry: the recovery stops with an error, goes on with the directory as it is, or
removes a temporary file from it. -/
theorem recoverStream_cons (index : Nat) (entry : Name × Node) (rest : List (Name × Node)) (directory : Directory)
    (removed : Nat) :
    (recoverStream calls index (entry :: rest) directory removed = (.io, directory, removed) ∧ ¬ calls.Succeed) ∨
    (recoverStream calls index (entry :: rest) directory removed = recoverStream calls (index + 1) rest directory removed ∧
      (isDotEntry entry.1 = true ∨ isTemporary entry = false)) ∨
    (recoverStream calls index (entry :: rest) directory removed =
        recoverStream calls (index + 1) rest (directory.erase entry.1) (removed + 1) ∧
      isDotEntry entry.1 = false ∧ isTemporary entry = true) := by
  obtain ⟨name, node⟩ := entry
  unfold isTemporary
  rw [recoverStream]
  by_cases hread : ¬ calls.readDirectory index = true
  · left
    exact ⟨if_pos hread, fun hsucceed => hread (hsucceed.readDirectory index)⟩
  rw [if_neg hread]
  by_cases hdot : isDotEntry name = true
  · right
    left
    exact ⟨if_pos hdot, Or.inl hdot⟩
  rw [if_neg hdot]
  cases htemporary : parseTemporaryFilename name with
  | none =>
    right
    left
    exact ⟨rfl, Or.inr rfl⟩
  | some _ =>
    rw [if_neg (by simp)]
    by_cases hstat : ¬ calls.statPath name = true
    · left
      exact ⟨if_pos hstat, fun hsucceed => hstat (hsucceed.statPath name)⟩
    rw [if_neg hstat]
    by_cases hfile : ¬ isFile (some node) = true
    · right
      left
      exact ⟨if_pos hfile, Or.inr (by simpa using hfile)⟩
    rw [if_neg hfile]
    by_cases hunlink : ¬ calls.unlinkPath name = true
    · left
      exact ⟨if_pos hunlink, fun hsucceed => hunlink (hsucceed.unlinkPath name)⟩
    · right
      right
      exact ⟨if_neg hunlink, Bool.eq_false_iff.mpr hdot, by simpa using hfile⟩

/-- The recovery removes temporary files only, and all that it comes by when it succeeds. -/
theorem recoverStream_spec (stream : List (Name × Node)) (index : Nat) (directory : Directory) (removed : Nat) :
    let outcome := recoverStream calls index stream directory removed
    (∀ name, (∀ node, (name, node) ∈ entriesOf stream → isTemporary (name, node) = false) →
      outcome.2.1.lookup name = directory.lookup name) ∧
    (∀ name, directory.lookup name = none → outcome.2.1.lookup name = none) ∧
    (outcome.1 = .none → ∀ entry ∈ entriesOf stream, isTemporary entry = true → outcome.2.1.lookup entry.1 = none) ∧
    ((∀ entry ∈ entriesOf stream, isTemporary entry = false) → outcome.2 = (directory, removed)) ∧
    (calls.Succeed → outcome.1 = .none) := by
  induction stream generalizing index directory removed with
  | nil =>
    refine ⟨fun _ _ => rfl, fun _ h => h, fun _ _ hmem => absurd hmem List.not_mem_nil, fun _ => rfl, ?_⟩
    intro hsucceed
    exact if_pos (hsucceed.readDirectory index)
  | cons entry rest ih =>
    have hsub : ∀ other ∈ entriesOf rest, other ∈ entriesOf (entry :: rest) := fun other hmem =>
      List.Sublist.subset (List.Sublist.filter _ (List.sublist_cons_self entry rest)) hmem
    rcases recoverStream_cons calls index entry rest directory removed with
      ⟨heq, hfails⟩ | ⟨heq, hother⟩ | ⟨heq, hdot, htemporary⟩
    · rw [heq]
      exact ⟨fun _ _ => rfl, fun _ h => h, nofun, fun _ => rfl, fun hsucceed => absurd hsucceed hfails⟩
    · rw [heq]
      obtain ⟨hkept, hgone, hremoved, hnothing, hsucceeds⟩ := ih (index + 1) directory removed
      refine ⟨fun name hname => hkept name fun node hmem => hname node (hsub _ hmem), hgone, ?_,
        fun hnone => hnothing fun other hmem => hnone other (hsub other hmem), hsucceeds⟩
      intro hresult other hmem htemporary
      have hin : other = entry ∨ other ∈ entriesOf rest := by
        rw [entriesOf, List.mem_filter, List.mem_cons] at hmem
        rcases hmem with ⟨rfl | hrest, hdot⟩
        · exact Or.inl rfl
        · exact Or.inr (List.mem_filter.mpr ⟨hrest, hdot⟩)
      rcases hin with rfl | hin
      · exfalso
        rcases hother with hdot | hfalse
        · rw [entriesOf, List.mem_filter, hdot] at hmem
          exact Bool.false_ne_true hmem.2
        · rw [hfalse] at htemporary
          cases htemporary
      · exact hremoved hresult other hin htemporary
    · rw [heq]
      have hfirst : entry ∈ entriesOf (entry :: rest) := List.mem_filter.mpr ⟨List.mem_cons_self, by rw [hdot]; rfl⟩
      obtain ⟨hkept, hgone, hremoved, -, hsucceeds⟩ := ih (index + 1) (directory.erase entry.1) (removed + 1)
      refine ⟨?_, ?_, ?_, ?_, hsucceeds⟩
      · intro name hname
        have hne : name ≠ entry.1 := by
          rintro rfl
          exact Bool.false_ne_true ((hname entry.2 hfirst).symm.trans htemporary)
        rw [hkept name fun node hmem => hname node (hsub _ hmem), AList.lookup_erase_ne hne]
      · intro name hnone
        apply hgone
        by_cases hname : name = entry.1
        · rw [hname, AList.lookup_erase]
        · rw [AList.lookup_erase_ne hname, hnone]
      · intro hresult other hmem htemporary
        rw [entriesOf, List.mem_filter, List.mem_cons] at hmem
        rcases hmem with ⟨rfl | hrest, hnot⟩
        · exact hgone _ (AList.lookup_erase _ _)
        · exact hremoved hresult other (List.mem_filter.mpr ⟨hrest, hnot⟩) htemporary
      · intro hnone
        exact absurd ((hnone entry hfirst).symm.trans htemporary) Bool.false_ne_true

end Stream

def IsTemporaryFile (directory : Directory) (name : Name) : Prop :=
  ∃ blobId content, 0 < blobId ∧ blobId ≤ uint64Max ∧ name = formatTemporaryFilename blobId ∧
    directory.lookup name = some (.file content)

def Recovered (before after : Directory) : Prop :=
  ∀ name node, after.lookup name = some node ↔ before.lookup name = some node ∧ ¬ IsTemporaryFile before name

section Directory

variable {calls : RecoverCalls} {reading : DirectoryReading}

theorem isTemporary_iff {name : Name} {node : Node} (hlookup : reading.directory.lookup name = some node) :
    isTemporary (name, node) = true ↔ IsTemporaryFile reading.directory name := by
  rw [isTemporary, Bool.and_eq_true, Option.isSome_iff_exists]
  constructor
  · rintro ⟨⟨blobId, hname⟩, hfile⟩
    obtain ⟨heq, hpositive, hmax⟩ := parseTemporaryFilename_eq_some hname
    cases node with
    | file content => exact ⟨blobId, content, hpositive, hmax, heq, hlookup⟩
    | directory => cases hfile
  · rintro ⟨blobId, content, hpositive, hmax, heq, hfile⟩
    rw [hfile] at hlookup
    cases hlookup
    rw [heq]
    exact ⟨⟨blobId, parseTemporaryFilename_format hpositive hmax⟩, rfl⟩

theorem lookup_kept {after : Directory} (h : ∀ name, (∀ node, (name, node) ∈ entriesOf reading.stream →
    isTemporary (name, node) = false) → after.lookup name = reading.directory.lookup name) {name : Name}
    (hname : ¬ IsTemporaryFile reading.directory name) : after.lookup name = reading.directory.lookup name := by
  apply h
  intro node hmem
  rw [mem_entriesOf] at hmem
  rw [← Bool.not_eq_true, isTemporary_iff hmem]
  exact hname

/-- What a recovery leaves, whatever fails in it. -/
theorem recoverWithOps_spec (calls : RecoverCalls) (reading : DirectoryReading) :
    let outcome := recoverWithOps calls reading
    (outcome.1 = .none → Recovered reading.directory outcome.2.1) ∧
    (∀ name, ¬ IsTemporaryFile reading.directory name → outcome.2.1.lookup name = reading.directory.lookup name) ∧
    ((∀ name, ¬ IsTemporaryFile reading.directory name) → outcome.2 = (reading.directory, 0)) ∧
    (calls.Succeed → outcome.1 = .none) := by
  unfold recoverWithOps
  by_cases hopen : ¬ calls.openDirectory = true
  · rw [if_pos hopen]
    exact ⟨nofun, fun _ _ => rfl, fun _ => rfl, fun hsucceed => absurd hsucceed.openDirectory hopen⟩
  rw [if_neg hopen]
  obtain ⟨hkept, -, hremoved, hnothing, hsucceeds⟩ :=
    recoverStream_spec calls reading.stream 0 reading.directory 0
  generalize recoverStream calls 0 reading.stream reading.directory 0 = outcome at hkept hremoved hnothing hsucceeds
  obtain ⟨result, after, removed⟩ := outcome
  dsimp only at hkept hremoved hnothing hsucceeds ⊢
  refine ⟨?_, fun name hname => lookup_kept hkept hname, ?_, ?_⟩
  · intro hresult name node
    have hnone : result = .none := by
      by_contra hfailed
      rw [if_neg (fun h => hfailed h.2)] at hresult
      exact hfailed hresult
    constructor
    · intro hafter
      have hname : ¬ IsTemporaryFile reading.directory name := by
        rintro ⟨blobId, content, hpositive, hmax, heq, hfile⟩
        have htemporary := (isTemporary_iff hfile).mpr ⟨blobId, content, hpositive, hmax, heq, hfile⟩
        rw [hremoved hnone _ (mem_entriesOf.mpr hfile) htemporary] at hafter
        cases hafter
      rw [lookup_kept hkept hname] at hafter
      exact ⟨hafter, hname⟩
    · rintro ⟨hbefore, hname⟩
      rw [lookup_kept hkept hname, hbefore]
  · intro hnone
    apply hnothing
    rintro ⟨name, node⟩ hmem
    rw [← Bool.not_eq_true, isTemporary_iff (mem_entriesOf.mp hmem)]
    exact hnone name
  · intro hsucceed
    rw [if_neg (fun h => h.1 hsucceed.closeDirectory)]
    exact hsucceeds hsucceed

theorem recovered_none {before after : Directory} (h : Recovered before after) (name : Name) :
    ¬ IsTemporaryFile after name := by
  rintro ⟨blobId, content, hpositive, hmax, heq, hfile⟩
  obtain ⟨hbefore, hname⟩ := (h name _).mp hfile
  exact hname ⟨blobId, content, hpositive, hmax, heq, hbefore⟩

end Directory

/-- Without a blob at the limit of the identifiers a scan whose operations work succeeds;
a scan that succeeds reports the blobs, and one that fails reports none. A recovery that
succeeds removes the temporary files, and another one after it has nothing to do. -/
theorem scan_and_recovery (reading : DirectoryReading) :
    (∀ calls persistedNextId,
      let report := scanReport calls reading persistedNextId
      (report.1 = .none → Reported reading.directory report.2.1 report.2.2) ∧ (report.1 ≠ .none → report.2.2 = []) ∧
      (calls.Working → (∀ name, calls.statPath name = true) →
        (∀ blob, IsBlob reading.directory blob → blob.id ≠ uint64Max) → report.1 = .none)) ∧
    (∀ calls : RecoverCalls,
      let recovered := recoverWithOps calls reading
      (calls.Succeed → recovered.1 = .none) ∧
      (∀ name, ¬ IsTemporaryFile reading.directory name → recovered.2.1.lookup name = reading.directory.lookup name) ∧
      (recovered.1 = .none → Recovered reading.directory recovered.2.1 ∧
        ∀ (again : DirectoryReading) (later : RecoverCalls), again.directory = recovered.2.1 →
          (recoverWithOps later again).2 = (recovered.2.1, 0))) := by
  constructor
  · intro calls persistedNextId
    dsimp only
    rcases scanReport_spec calls reading persistedNextId with ⟨hnone, hreported⟩ | ⟨hfailed, hempty, hwhy⟩
    · exact ⟨fun _ => hreported, fun h => absurd hnone h, fun _ _ _ => hnone⟩
    · refine ⟨fun h => absurd h hfailed, fun _ => hempty, ?_⟩
      intro hworking hstat hlimit
      exfalso
      rcases hwhy hworking with hstats | hmax
      · exact hstats fun entry _ _ => hstat entry.1
      · rcases maxId_spec (blobsOf reading) with ⟨-, hnone⟩ | ⟨greatest, hsome, -, blob, hmem, hid⟩
        · cases hmax.symm.trans hnone
        · cases hmax.symm.trans hsome
          exact hlimit blob (mem_blobsOf.mp hmem) hid
  · intro calls
    obtain ⟨hrecovered, hkept, -, hsucceeds⟩ := recoverWithOps_spec calls reading
    refine ⟨hsucceeds, hkept, fun hnone => ⟨hrecovered hnone, ?_⟩⟩
    intro again later hagain
    obtain ⟨-, -, hnothing, -⟩ := recoverWithOps_spec later again
    rw [← hagain] at hrecovered ⊢
    exact hnothing (recovered_none (hrecovered hnone))

/-- A directory with a blob, an upload that was cut off and something else, and its two
dot entries. -/
def deskReading : DirectoryReading where
  directory := ⟨[⟨formatFilename 1, .file [7]⟩, ⟨formatTemporaryFilename 2, .file []⟩, ⟨bytes "notes", .directory⟩],
    by unfold List.NodupKeys; decide +kernel⟩
  stream := [(bytes ".", .directory), (formatFilename 1, .file [7]), (bytes "..", .directory),
    (formatTemporaryFilename 2, .file []), (bytes "notes", .directory)]
  complete := by
    have hsame : entriesOf [(bytes ".", .directory), (formatFilename 1, .file [7]), (bytes "..", .directory),
        (formatTemporaryFilename 2, .file []), (bytes "notes", .directory)] =
        [(formatFilename 1, .file [7]), (formatTemporaryFilename 2, .file []), (bytes "notes", .directory)] := by
      decide +kernel
    exact List.Perm.of_eq hsame
  sizes := by
    intro entry hmem content hcontent
    simp only [List.mem_cons, List.not_mem_nil, or_false] at hmem
    rcases hmem with rfl | rfl | rfl | rfl | rfl
    all_goals cases hcontent
    all_goals decide

theorem scan_and_recovery_desk :
    Reported deskReading.directory (scanReport .working deskReading 5).2.1 (scanReport .working deskReading 5).2.2 ∧
      Recovered deskReading.directory
        (recoverWithOps ⟨true, fun _ => true, fun _ => true, fun _ => true, true⟩ deskReading).2.1 := by
  obtain ⟨hscan, hrecovery⟩ := scan_and_recovery deskReading
  obtain ⟨hreported, -, hsucceeds⟩ := hscan .working 5
  obtain ⟨hrecovers, -, hrecovered⟩ := hrecovery ⟨true, fun _ => true, fun _ => true, fun _ => true, true⟩
  refine ⟨hreported (hsucceeds ScanCalls.working_working (fun _ => rfl) ?_),
    (hrecovered (hrecovers ⟨rfl, fun _ => rfl, fun _ => rfl, fun _ => rfl, rfl⟩)).1⟩
  rintro blob ⟨-, -, content, hlookup, -⟩ hid
  rw [hid] at hlookup
  have hnone : deskReading.directory.lookup (formatFilename uint64Max) = none := by decide +kernel
  rw [hnone] at hlookup
  cases hlookup

/-- A directory with the blob of the greatest identifier alone. -/
def limitReading : DirectoryReading where
  directory := ⟨[⟨formatFilename uint64Max, .file []⟩], by unfold List.NodupKeys; decide +kernel⟩
  stream := [(formatFilename uint64Max, .file [])]
  complete := by
    have hsame : entriesOf [(formatFilename uint64Max, .file [])] = [(formatFilename uint64Max, .file [])] := by
      decide +kernel
    exact List.Perm.of_eq hsame
  sizes := by
    intro entry hmem content hcontent
    rw [List.mem_singleton] at hmem
    subst hmem
    cases hcontent
    decide

/-- With a blob at the limit no operation fails, and the scan reports no blob. -/
theorem limit_not_reported : ScanCalls.working.Working ∧ IsBlob limitReading.directory ⟨uint64Max, 0⟩ ∧
    ¬ Reported limitReading.directory (scanReport .working limitReading 0).2.1 (scanReport .working limitReading 0).2.2 := by
  have hblob : IsBlob limitReading.directory ⟨uint64Max, 0⟩ := by
    refine ⟨by decide, Nat.le_refl _, [], ?_, rfl⟩
    decide +kernel
  refine ⟨ScanCalls.working_working, hblob, ?_⟩
  intro hreported
  have hempty : (scanReport .working limitReading 0).2.2 = [] := by decide +kernel
  have hmem := (hreported.complete ⟨uint64Max, 0⟩).mpr hblob
  rw [hempty] at hmem
  exact absurd hmem List.not_mem_nil

end MacroKeyboard.Blobs.Recovery
